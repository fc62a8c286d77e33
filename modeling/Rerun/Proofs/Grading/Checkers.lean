import Mathlib.Data.List.Perm.Basic
import Mathlib.Data.List.Forall2
import Rerun.Proofs.Grading.Case
import Rerun.Proofs.Text.Words

/-!
What is accepted for what. The checker that compares words accepts a text exactly when it has the
words that were expected equally often, so that neither their order nor the blanks between and
around them matter. It accepts whatever an exact match accepts, and grading with it fails no answer
that an exact match has passed (`Grading.words_relax_match`).
-/

namespace Rerun

open Sandbox Op

namespace Checker

variable {got want : String}

/-! ### Words in order -/

theorem perm_sortWords (ws : List String) : (sortWords ws).Perm ws := List.mergeSort_perm ws _

theorem pairwise_sortWords (ws : List String) : (sortWords ws).Pairwise (· ≤ ·) := by
  have htrans (a b c : String) (hab : decide (a ≤ b) = true) (hbc : decide (b ≤ c) = true) :
      decide (a ≤ c) = true :=
    decide_eq_true (String.le_trans (of_decide_eq_true hab) (of_decide_eq_true hbc))
  have htotal (a b : String) : (decide (a ≤ b) || decide (b ≤ a)) = true := by
    simpa using String.le_total a b
  exact (List.pairwise_mergeSort htrans htotal ws).imp fun hab => of_decide_eq_true hab

/-- Putting words in order keeps how often each one occurs, and nothing else. -/
theorem sortWords_eq_iff {gs ws : List String} : sortWords gs = sortWords ws ↔ gs.Perm ws := by
  constructor
  · intro h
    exact (perm_sortWords gs).symm.trans (h ▸ perm_sortWords ws)
  · intro h
    refine List.Perm.eq_of_pairwise (fun _ _ _ _ => String.le_antisymm) (pairwise_sortWords gs)
      (pairwise_sortWords ws) ?_
    exact (perm_sortWords gs).trans (h.trans (perm_sortWords ws).symm)

theorem accepts_words (got want : String) :
    unorderedListEqual.accepts (.str got) (.str want) =
      .ok (decide ((Text.words got).Perm (Text.words want))) := by
  show Except.ok (decide (sortWords (Text.words got) = sortWords (Text.words want))) = _
  rw [decide_eq_decide.mpr sortWords_eq_iff]

theorem accepts_words_iff : unorderedListEqual.accepts (.str got) (.str want) = .ok true ↔
    (Text.words got).Perm (Text.words want) := by
  rw [accepts_words, Except.ok.injEq, decide_eq_true_eq]

theorem accepts_match_iff : exactMatch.accepts (.str got) (.str want) = .ok true ↔
    Text.strip got = Text.strip want := by
  show Except.ok (decide (Text.strip got = Text.strip want)) = _ ↔ _
  rw [Except.ok.injEq, decide_eq_true_eq]

/-- Texts that are the same but for the blanks around them have the same words. -/
theorem accepts_words_of_match (h : exactMatch.accepts (.str got) (.str want) = .ok true) :
    unorderedListEqual.accepts (.str got) (.str want) = .ok true := by
  have hwords : Text.words got = Text.words want := by
    rw [← Text.words_strip got, accepts_match_iff.mp h, Text.words_strip]
  exact accepts_words_iff.mpr (hwords ▸ .refl _)

/-- What is accepted is a matter of the words of texts, and of how often each one occurs. -/
structure ByWords (accepts : String → String → Except Failure Bool) : Prop where
  decides {got want : String} {gs ws : List String} : Text.HasWords got gs → Text.HasWords want ws →
    accepts got want = .ok (decide (gs.Perm ws))
  counts {got want : String} {gs ws : List String} : Text.HasWords got gs → Text.HasWords want ws →
    (accepts got want = .ok true ↔ ∀ w, gs.count w = ws.count w)
  equivalence : Equivalence fun got want => accepts got want = .ok true
  /-- The words may change places, and the blanks between and around them may be any. -/
  unaffected {s t : String} {ws ws' : List String} : Text.HasWords s ws → Text.HasWords t ws' →
    ws.Perm ws' → ∀ other, accepts s other = accepts t other ∧ accepts other s = accepts other t

theorem byWords_unorderedListEqual :
    ByWords fun got want => unorderedListEqual.accepts (.str got) (.str want) where
  decides hgot hwant := by
    rw [accepts_words, Text.words_eq_iff.mpr hgot, Text.words_eq_iff.mpr hwant]
  counts hgot hwant := by
    rw [accepts_words_iff, Text.words_eq_iff.mpr hgot, Text.words_eq_iff.mpr hwant,
      List.perm_iff_count]
  equivalence := by
    refine ⟨fun s => accepts_words_iff.mpr (.refl _), fun h => ?_, fun h h' => ?_⟩
    · exact accepts_words_iff.mpr (accepts_words_iff.mp h).symm
    · exact accepts_words_iff.mpr ((accepts_words_iff.mp h).trans (accepts_words_iff.mp h'))
  unaffected hs ht hperm other := by
    rw [← Text.words_eq_iff.mpr hs, ← Text.words_eq_iff.mpr ht] at hperm
    simp only [accepts_words]
    exact ⟨congrArg Except.ok (decide_eq_decide.mpr (hperm.congr_left _)),
      congrArg Except.ok (decide_eq_decide.mpr (hperm.congr_right _))⟩

end Checker

/-! ### Verdicts by a checker that accepts more -/

/-- A verdict beside another one, which may be better only in that the case passes. -/
structure Verdict.Relaxed (v v' : Verdict) : Prop where
  passed : v.passed = true → v'.passed = true
  same : v' = { v with passed := v'.passed }

namespace Grading

variable {others : Interrupts} {s t : Sandbox} {r : Request} {checker checker' : Checker}

/-- What comes of executing a case, which no checker has to do with. -/
def attempted (listener : String → Op Unit) (r : Request) : Op (Except Failure Outcome) := do
  let key := sessionKey (← drawId)
  let usual ← Op.view (·.setup.batchTimeout)
  Op.ensuring (Op.outcome (Execution.execute listener (fun _ => pure ()) (r.run key usual)))
    (Registry.reset key)

theorem one_eq (listener : String → Op Unit) (hchecker : Checker.named r.checker = .ok checker) :
    one listener r = attempted listener r >>= fun result =>
      Op.ofExcept (conclusion r checker result) := by
  rw [one, hchecker, attempted]
  simp only [Op.bind_assoc]
  rfl

theorem verdict_relaxed (h : ∀ got want, checker.accepts (.str got) (.str want) = .ok true →
    checker'.accepts (.str got) (.str want) = .ok true) (result : Except Failure Outcome) :
    (verdict r checker result).Relaxed (verdict r checker' result) := by
  refine ⟨fun hpassed => ?_, by cases result <;> rfl⟩
  obtain ⟨o, hresult, hended, hall⟩ := passed_verdict.mp hpassed
  exact passed_verdict.mpr ⟨o, hresult, hended, fun want hwant => h _ _ (hall want hwant)⟩

theorem one_relaxed (h : ∀ got want, checker.accepts (.str got) (.str want) = .ok true →
    checker'.accepts (.str got) (.str want) = .ok true) {listener : String → Op Unit} {r' : Request}
    (hr : r' = { r with checker := r'.checker }) (hnamed : Checker.named r.checker = .ok checker)
    (hnamed' : Checker.named r'.checker = .ok checker') {v : Verdict}
    (hone : one listener r others s = (.ok v, t)) :
    ∃ v', one listener r' others s = (.ok v', t) ∧ v.Relaxed v' := by
  rw [one_eq listener hnamed] at hone
  obtain ⟨result, u, hattempted, hconcluded⟩ := bind_eq_ok.mp hone
  have hsame : attempted listener r' = attempted listener r := by
    rw [hr]
    rfl
  have hrelaxed : (verdict r checker result).Relaxed (verdict r' checker' result) := by
    have hverdict : verdict r' checker' result = verdict r checker' result := by
      rw [hr]
      rfl
    exact hverdict ▸ verdict_relaxed h result
  obtain ⟨hv, rfl⟩ := ofExcept_eq_ok hconcluded
  obtain ⟨rfl, hends⟩ := conclusion_eq_ok.mp hv
  rw [one_eq listener hnamed', hsame, bind_of_eq_ok hattempted, conclusion_eq_ok.mpr ⟨rfl, hends⟩]
  exact ⟨_, rfl, hrelaxed⟩

/-- What holds of every case when it is graded in two ways holds of cases that are graded in
order. -/
theorem mapM_relaxed {listener : String → Op Unit} {f g : TestCase → Request}
    {cases : List TestCase}
    (h : ∀ c s v t, one listener (f c) others s = (.ok v, t) →
      ∃ v', one listener (g c) others s = (.ok v', t) ∧ v.Relaxed v')
    {vs : List Verdict} (hall : (cases.map f).mapM (one listener) others s = (.ok vs, t)) :
    ∃ vs', (cases.map g).mapM (one listener) others s = (.ok vs', t) ∧
      List.Forall₂ Verdict.Relaxed vs vs' := by
  have := Op.lawful
  induction cases generalizing s vs with
  | nil =>
      obtain ⟨hvs, rfl⟩ := Prod.mk.inj hall
      obtain rfl := Except.ok.inj hvs
      exact ⟨[], rfl, .nil⟩
  | cons c cases ih =>
      rw [List.map_cons, List.mapM_cons] at hall
      obtain ⟨v, u, hfirst, hall⟩ := bind_eq_ok.mp hall
      obtain ⟨rest, w, hrest, hall⟩ := bind_eq_ok.mp hall
      obtain ⟨hvs, rfl⟩ := Prod.mk.inj hall
      obtain rfl := Except.ok.inj hvs
      obtain ⟨v', hfirst', hv⟩ := h c s v u hfirst
      obtain ⟨rest', hrest', hforall⟩ := ih hrest
      refine ⟨v' :: rest', ?_, .cons hv hforall⟩
      rw [List.map_cons, List.mapM_cons, bind_of_eq_ok hfirst', bind_of_eq_ok hrest']
      rfl

theorem all_relaxed (h : ∀ got want, checker.accepts (.str got) (.str want) = .ok true →
    checker'.accepts (.str got) (.str want) = .ok true) {listener : String → Op Unit}
    {source : Source} {cases : List TestCase} {options : GradingOptions} {name name' : String}
    (hnamed : Checker.named (some name) = .ok checker)
    (hnamed' : Checker.named (some name') = .ok checker') {vs : List Verdict}
    (hall : all listener source cases { options with checker := name } others s = (.ok vs, t)) :
    ∃ vs', all listener source cases { options with checker := name' } others s = (.ok vs', t) ∧
      List.Forall₂ Verdict.Relaxed vs vs' := by
  rw [all_eq] at hall ⊢
  obtain ⟨limit, u, hlimit, hrest⟩ := bind_eq_ok.mp hall
  obtain ⟨_, w, hchecker, hgraded⟩ := bind_eq_ok.mp hrest
  obtain ⟨-, rfl⟩ := ofExcept_eq_ok hlimit
  obtain ⟨-, rfl⟩ := ofExcept_eq_ok hchecker
  have hcase (c : TestCase) (s : Sandbox) (v : Verdict) (t : Sandbox)
      (hone : one listener (caseOf source { options with checker := name } limit c) others s =
        (.ok v, t)) :
      ∃ v', one listener (caseOf source { options with checker := name' } limit c) others s =
        (.ok v', t) ∧ v.Relaxed v' :=
    one_relaxed h rfl hnamed hnamed' hone
  obtain ⟨vs', hall', hforall⟩ := mapM_relaxed hcase hgraded
  have hchecker' : Op.ofExcept (Checker.named (some name')) others w = (.ok checker', w) := by
    rw [hnamed']
    rfl
  refine ⟨vs', ?_, hforall⟩
  rw [bind_of_eq_ok hlimit, bind_of_eq_ok hchecker']
  exact hall'

/-! ### The whole -/

/-- Every text has one list of words, and texts are compared by the words that they have. An exact
match is never refused, and cases that are graded in order by words instead of by an exact match are
executed alike and pass if they passed before. -/
theorem words_relax_match :
    (∀ s : String, ∃! ws, Text.HasWords s ws) ∧
    Checker.ByWords (fun got want => Checker.unorderedListEqual.accepts (.str got) (.str want)) ∧
    (∀ got want : String, Checker.exactMatch.accepts (.str got) (.str want) = .ok true →
      Checker.unorderedListEqual.accepts (.str got) (.str want) = .ok true) ∧
    ∀ (listener : String → Op Unit) (source : Source) (cases : List TestCase)
      (options : GradingOptions) (others : Interrupts) (s t : Sandbox) (vs : List Verdict),
      all listener source cases { options with checker := "exact_match" } others s = (.ok vs, t) →
        ∃ vs', all listener source cases { options with checker := "unordered_list_equal" }
            others s = (.ok vs', t) ∧
          List.Forall₂ Verdict.Relaxed vs vs' := by
  refine ⟨fun s => ⟨Text.words s, Text.words_eq_iff.mp rfl, fun ws h => ?_⟩,
    Checker.byWords_unorderedListEqual, fun _ _ => Checker.accepts_words_of_match, ?_⟩
  · exact (Text.words_eq_iff.mpr h).symm
  · intro listener source cases options others s t vs hall
    exact all_relaxed (fun _ _ => Checker.accepts_words_of_match) rfl rfl hall

/-- Words in another order with other blanks, and a case that passes by an exact match. -/
theorem words_relax_match_swapped :
    Text.HasWords "b\n\ta " ["b", "a"] ∧ Text.HasWords "a b" ["a", "b"] ∧
    Checker.unorderedListEqual.accepts (.str "b\n\ta ") (.str "a b") = .ok true ∧
    Checker.exactMatch.accepts (.str "b\n\ta ") (.str "a b") = .ok false ∧
    let source : Source := { code := "[\"print\", \x7b\"input\": []\x7d]" }
    ∃ vs vs' t, all Contexts.onSweep source [⟨"x", some "x"⟩] { checker := "exact_match" }
        (fun _ s => s) usual = (.ok vs, t) ∧
      all Contexts.onSweep source [⟨"x", some "x"⟩] { checker := "unordered_list_equal" }
        (fun _ s => s) usual = (.ok vs', t) ∧
      vs.map (·.passed) = [true] ∧ List.Forall₂ Verdict.Relaxed vs vs' := by
  obtain ⟨-, hwords, -, hall⟩ := words_relax_match
  have hleft : Text.HasWords "b\n\ta " ["b", "a"] := Text.words_eq_iff.mp (by decide)
  have hright : Text.HasWords "a b" ["a", "b"] := Text.words_eq_iff.mp (by decide)
  have haccepts := hwords.decides hleft hright
  refine ⟨hleft, hright, haccepts, rfl, ?_⟩
  intro source
  have hpassed : (all Contexts.onSweep source [⟨"x", some "x"⟩] { checker := "exact_match" }
      (fun _ s => s) usual).1.toOption.map (·.map (·.passed)) = some [true] := by decide +kernel
  rcases hgraded : all Contexts.onSweep source [⟨"x", some "x"⟩] { checker := "exact_match" }
      (fun _ s => s) usual with ⟨e | vs, t⟩
  · rw [hgraded] at hpassed
    exact absurd hpassed nofun
  · rw [hgraded] at hpassed
    obtain ⟨vs', hgraded', hforall⟩ := hall Contexts.onSweep source [⟨"x", some "x"⟩] {}
      (fun _ s => s) usual t vs hgraded
    exact ⟨vs, vs', t, rfl, hgraded', Option.some.inj hpassed, hforall⟩

end Grading

end Rerun
