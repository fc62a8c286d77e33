import Mathlib.Data.List.Infix
import Rerun.CommandLine
import Rerun.Proofs.Program.Placement
import Rerun.Proofs.Program.Transcript
import Rerun.Proofs.Program.Unattended
import Rerun.Proofs.Session.Dialogue

/-!
A script that is run in the terminal. Its prompts are answered with typed lines, and of each attempt
the terminal shows what goes beyond a guess at what it has shown already: the output of the attempt
before, with the typed line behind it. That guess is right for a read that shows its values. After
one that does not the terminal shows too much or too little, unless nothing was shown before it
(`run_shows_iff`).
-/

namespace Rerun

open Sandbox Op

namespace Source

def output (source : Source) (seed : Int) (values : List String) : String :=
  Program.transcript (source.attempted seed values).2.shown

/-- What a program writes itself in an attempt, without the values that are shown. -/
def written (source : Source) (seed : Int) (values : List String) : String :=
  Program.wrote (source.attempted seed values).2.shown

/-- An attempt ends with a read that finds no value left. -/
def Waits (source : Source) (seed : Int) (values : List String) : Prop :=
  Serving.statusName (source.attempted seed values).1 = "awaiting_input"

instance (source : Source) (seed : Int) (values : List String) :
    Decidable (source.Waits seed values) :=
  inferInstanceAs (Decidable (_ = _))

theorem waits_iff {source : Source} {seed : Int} {values : List String} :
    source.Waits seed values ↔ ∃ p, (source.attempted seed values).1 = .suspended p := by
  refine ⟨Serving.eq_suspended_of_statusName, ?_⟩
  rintro ⟨p, hp⟩
  rw [Waits, hp]
  rfl

section

variable {source : Source} (h : Program.uses .seek source.text = false) (seed : Int)
  (values : List String)

include h

theorem attempted_reseeded : source.attempted seed values =
      ((Serving.attempt none { code := source.text, inputs := values }).1,
        { (Serving.attempt none { code := source.text, inputs := values }).2 with
          seed := some seed }) :=
  Serving.attempt_reseeded (r := { code := source.text, inputs := values }) h none (some seed)

theorem waits_reseeded : source.Waits seed values ↔ Serving.statusName
    (Serving.attempt none { code := source.text, inputs := values }).1 = "awaiting_input" := by
  rw [Waits, attempted_reseeded h]

theorem output_reseeded : source.output seed values = Program.transcript
    (Serving.attempt none { code := source.text, inputs := values }).2.shown := by
  rw [output, attempted_reseeded h]

theorem written_reseeded : source.written seed values = Program.wrote
    (Serving.attempt none { code := source.text, inputs := values }).2.shown := by
  rw [written, attempted_reseeded h]

theorem demands_reseeded : (source.attempted seed values).2.demands =
    (Serving.attempt none { code := source.text, inputs := values }).2.demands := by
  rw [attempted_reseeded h]

end

end Source

namespace CommandLine

open Session

variable {source : Source} {seed : Int} {values lines : List String} {v : String}

/-! ### What is new -/

theorem news_append (shown rest : String) : news shown (shown ++ rest) = rest := by
  have hprefix : shown.toList.isPrefixOf (shown ++ rest).toList = true := by simp
  rw [news, if_pos hprefix, String.toList_append, List.drop_left, String.ofList_toList]

theorem news_empty (stdout : String) : news "" stdout = stdout := by
  have hnews := news_append "" stdout
  rwa [String.empty_append] at hnews

theorem news_of_not_isPrefix {shown stdout : String} (h : ¬ shown.toList <+: stdout.toList) :
    news shown stdout = stdout :=
  if_neg (by rwa [List.isPrefixOf_iff_prefix])

/-- Where `line` was not shown, a guess that takes it for shown is put right only if nothing was
shown before it, and if what comes next does not begin with it. -/
theorem news_append_eq_iff {shown line rest : String} (hline : line ≠ "") :
    news (shown ++ line) (shown ++ rest) = rest ↔ shown = "" ∧ ¬ line.toList <+: rest.toList := by
  by_cases hprefix : line.toList <+: rest.toList
  · -- What comes next is taken for what was shown.
    obtain ⟨cs, hcs⟩ := hprefix
    have hrest : rest = line ++ String.ofList cs := by
      rw [← String.toList_inj, String.toList_append, String.toList_ofList, hcs]
    refine iff_of_false (fun hnews => hline ?_) fun h => h.2 ⟨cs, hcs⟩
    rw [hrest, ← String.append_assoc, news_append] at hnews
    exact String.append_eq_right_iff.mp hnews.symm
  · have hguess : ¬ (shown ++ line).toList <+: (shown ++ rest).toList := by
      rw [String.toList_append, String.toList_append]
      exact fun h => hprefix ((List.prefix_append_right_inj _).mp h)
    rw [news_of_not_isPrefix hguess]
    exact ⟨fun h => ⟨String.append_eq_right_iff.mp h, hprefix⟩, fun h => by simp [h.1]⟩

/-- What the terminal shows of an attempt: everything of the one without a value, and of another one
what goes beyond the output of the attempt before and the last value, or else everything. -/
def turn (source : Source) (seed : Int) (values : List String) : String :=
  match values.getLast? with
  | none => source.output seed []
  | some v => news (source.output seed values.dropLast ++ (v ++ "\n")) (source.output seed values)

theorem turn_nil (source : Source) (seed : Int) : turn source seed [] = source.output seed [] := rfl

theorem turn_concat (source : Source) (seed : Int) (values : List String) (v : String) :
    turn source seed (values ++ [v]) =
      news (source.output seed values ++ (v ++ "\n")) (source.output seed (values ++ [v])) := by
  rw [turn, List.getLast?_concat, List.dropLast_concat]

/-- What the terminal shows until an attempt on all of some values is over. -/
def shownBy (source : Source) (seed : Int) (values : List String) : String :=
  String.join (values.inits.map (turn source seed))

theorem shownBy_nil (source : Source) (seed : Int) :
    shownBy source seed [] = source.output seed [] := by
  simp [shownBy, turn_nil]

theorem shownBy_concat (source : Source) (seed : Int) (values : List String) (v : String) :
    shownBy source seed (values ++ [v]) =
      shownBy source seed values ++ turn source seed (values ++ [v]) := by
  have hinits : (values ++ [v]).inits = values.inits ++ [values ++ [v]] := by
    rw [List.inits_append]
    rfl
  rw [shownBy, hinits, List.map_append, String.join_append, shownBy]
  simp [String.join]

/-- A value after which the terminal goes on where it has stopped: the read shows it, or nothing was
shown before it and the program does not begin with the same line. -/
def Seamless (source : Source) (seed : Int) (values : List String) (v : String) : Prop :=
  (∀ d ∈ (source.attempted seed values).2.demands, d.prompted = true) ∨
    source.output seed values = "" ∧
      ¬ (v ++ "\n").toList <+: (source.output seed (values ++ [v])).toList

/-- Where the terminal has shown each piece of the output once, it goes on to do so exactly after a
seamless value. -/
theorem shownBy_concat_iff (hreads : Program.drains source.text = false)
    (hone : (source.attempted seed values).2.demands.length ≤ 1) (hwaits : source.Waits seed values)
    (v : String) (h : shownBy source seed values = source.written seed values) :
    shownBy source seed (values ++ [v]) = source.written seed (values ++ [v]) ↔
      Seamless source seed values v := by
  obtain ⟨p, hp⟩ := Source.waits_iff.mp hwaits
  have hmode : ({ code := source.text, inputs := values, seed := some seed } :
      Serving.RunRequest).mode ≠ "batch" := show "interactive" ≠ "batch" by decide
  obtain ⟨d, text, hd, -, houtput, hwritten⟩ := Serving.attempt_continues hmode hreads hone hp v
  have hd : (source.attempted seed values).2.demands = [d] := hd
  have houtput : source.output seed (values ++ [v]) = source.output seed values ++
      (if d.prompted && true then v ++ "\n" else "") ++ text := houtput
  have hwritten : source.written seed (values ++ [v]) = source.written seed values ++ text :=
    hwritten
  rw [shownBy_concat, turn_concat, h, hwritten, String.append_right_inj, Seamless, hd]
  cases hshows : d.prompted with
  | true =>
      rw [hshows, if_pos (by decide)] at houtput
      rw [houtput]
      refine iff_of_true (news_append _ _) (.inl fun d' hd' => ?_)
      rw [List.mem_singleton.mp hd', hshows]
  | false =>
      rw [hshows, if_neg (by decide), String.append_empty] at houtput
      have hnot : ¬ ∀ d' ∈ [d], d'.prompted = true := by
        intro hall
        exact absurd ((hall d List.mem_cons_self).symm.trans hshows) nofun
      rw [or_iff_right hnot, houtput, news_append_eq_iff (by simp)]
      refine and_congr_right fun hempty => ?_
      rw [hempty, String.empty_append]

/-- The terminal shows each piece of the output once, after each of some values, exactly when all of
the values are seamless. -/
theorem shownBy_eq_written_iff (hreads : Program.drains source.text = false)
    (hone : ∀ us, us <+: values → (source.attempted seed us).2.demands.length ≤ 1)
    (hwaits : ∀ us v, us ++ [v] <+: values → source.Waits seed us) :
    (∀ us, us <+: values → shownBy source seed us = source.written seed us) ↔
      ∀ us v, us ++ [v] <+: values → Seamless source seed us v := by
  have hstep {us : List String} {v : String} (h : us ++ [v] <+: values) :=
    shownBy_concat_iff hreads (hone us ((List.prefix_append _ _).trans h)) (hwaits us v h) v
  constructor
  · intro hall us v h
    exact (hstep h (hall us ((List.prefix_append _ _).trans h))).mp (hall _ h)
  · intro hall us
    induction us using List.reverseRecOn with
    | nil =>
        intro _
        rw [shownBy_nil]
        exact (Serving.wrote_attempt_of_inputs rfl).symm
    | append_singleton us v ih =>
        intro h
        exact (hstep h (ih ((List.prefix_append _ _).trans h))).mpr (hall us v h)

/-! ### Sessions of the terminal -/

namespace Session

variable {α β : Type} {t u : Terminal}

theorem bind_apply (x : Session α) (f : α → Session β) (t : Terminal) :
    (x >>= f) t = match x t with
      | (.ok a, u) => f a u
      | (.error e, u) => (.error e, u) := by
  rcases h : x t with ⟨e | a, u⟩
  · simp only [bind, ExceptT.bind, ExceptT.mk, ExceptT.bindCont, StateT.bind, h]
    rfl
  · simp only [bind, ExceptT.bind, ExceptT.mk, ExceptT.bindCont, StateT.bind, h]

theorem bind_of_eq_ok {x : Session α} {a : α} (h : x t = (.ok a, u)) (f : α → Session β) :
    (x >>= f) t = f a u := by
  rw [bind_apply, h]

theorem out_bind {x : Session α} {f : α → Session β} (hf : ∀ a u, (f a u).2.out = u.out)
    (t : Terminal) : ((x >>= f) t).2.out = (x t).2.out := by
  rw [bind_apply]
  rcases x t with ⟨e | a, u⟩
  · rfl
  · exact hf a u

theorem out_closing (x : Session α) (t : Terminal) : (closing x t).2.out = (x t).2.out := by
  unfold closing
  rcases x t with ⟨r, u⟩
  have huse : (use Contexts.closeAll u).2.out = u.out := rfl
  dsimp only
  rcases hclose : use Contexts.closeAll u with ⟨e | a, w⟩ <;> rw [hclose] at huse <;> exact huse

end Session

theorem readFile_eq_ok {s : Surroundings} {name text : String}
    (h : s.files.lookup (Path.work.resolve name) = some text) (t : Terminal) :
    readFile s name t = (.ok (Text.foldNewlines text), t) := by
  unfold readFile
  rw [h]
  rfl

/-- The conversation with a program that a script holds. -/
def conversation (source : Source) (lines : List String) : Session (Option Outcome) := do
  let first ← use (Contexts.submit "default" source [] none)
  converse source [] "" first lines

theorem out_run {s : Surroundings} {script text : String}
    (h : s.files.lookup (Path.work.resolve script) = some text) (t : Terminal) :
    (run s script t).2.out =
      (conversation { code := Text.foldNewlines text } (inputLines s.input) t).2.out := by
  rw [run, bind_of_eq_ok (readFile_eq_ok h t)]
  refine (out_bind (fun ended u => ?_) t).trans (out_closing (conversation _ _) t)
  -- The error of the last attempt goes to the error output.
  rcases ended with _ | o
  · rfl
  · dsimp only
    rcases o.error with _ | error
    · rfl
    · dsimp only
      split <;> rfl

/-! ### Conversations -/

/-- What a submission at the terminal comes to. -/
def asked (source : Source) (values : List String) (newest : Option String) (s : Sandbox) :
    Except Failure Outcome × Sandbox :=
  Contexts.submit "default" source (values.map .str) (newest.map .str)
    (interrupts (s.written + 1)) s

theorem quiet_interrupts (depth : Nat) : (interrupts (depth + 1)).Quiet := fun _ => rfl

/-- How far a conversation has come: the values that were typed, what the last attempt came to, and
the state that it has left. -/
inductive Spoken (source : Source) (lines : List String) (s : Sandbox) :
    List String → Outcome → Sandbox → Prop where
  | first {o : Outcome} {t : Sandbox} : asked source [] none s = (.ok o, t) →
      Spoken source lines s [] o t
  | next {values : List String} {v : String} {o o' : Outcome} {t u : Sandbox} :
      Spoken source lines s values o t → o.awaitsInput = true → values ++ [v] <+: lines →
      asked source values (some v) t = (.ok o', u) → Spoken source lines s (values ++ [v]) o' u

/-- An interpreter can be started for the terminal, and answers its next request itself. -/
structure Staffed (s : Sandbox) : Prop where
  answers : s.Answering
  starts : ∃ others r t, Registry.start (Contexts.runKey "default") others s = (.ok r, t)

/-- A conversation in which an interpreter can always be started, and no attempt loses its own. -/
structure Smooth (source : Source) (lines : List String) (s : Sandbox) : Prop where
  staffed : Staffed s
  kept {values : List String} {o : Outcome} {t : Sandbox} :
    Spoken source lines s values o t → o.Kept
  next {values : List String} {o : Outcome} {t : Sandbox} : Spoken source lines s values o t →
    o.awaitsInput = true → values ≠ lines → Staffed t

/-- What is shown when the lines have come to an end before the program has. -/
def abandoned : String := "\n⚠️  Input closed, abandoning run\n"

theorem converse_of_done {shown : String} {o : Outcome} {rest : List String}
    (h : o.awaitsInput = true → rest = []) (t : Terminal) :
    (converse source values shown o rest t).2.out =
      t.out ++ news shown o.stdout ++ if o.awaitsInput then abandoned else "" := by
  cases hawaits : o.awaitsInput with
  | true =>
      obtain rfl := h hawaits
      rw [converse, hawaits]
      rfl
  | false =>
      rw [if_neg Bool.false_ne_true, String.append_empty]
      cases rest with
      | nil =>
          rw [converse, hawaits]
          rfl
      | cons v rest =>
          rw [converse, hawaits]
          rfl

theorem converse_of_answered {shown : String} {o o' : Outcome} {rest : List String} {t : Terminal}
    {u : Sandbox} (h : o.awaitsInput = true)
    (hasked : asked source values (some v) t.sandbox = (.ok o', u)) :
    converse source values shown o (v :: rest) t =
      converse source (values ++ [v]) (o.stdout ++ v ++ "\n") o' rest
        { t with out := t.out ++ news shown o.stdout, sandbox := u } := by
  have huse : use (Contexts.submit "default" source (values.map .str) (some (.str v)))
      { t with out := t.out ++ news shown o.stdout } =
      (.ok o', { t with out := t.out ++ news shown o.stdout, sandbox := u }) :=
    congrArg (fun r : Except Failure Outcome × Sandbox => (r.1,
      ({ t with out := t.out ++ news shown o.stdout, sandbox := r.2 } : Terminal))) hasked
  rw [converse, h]
  exact bind_of_eq_ok huse _

section

variable {s₀ : Sandbox} (hsmooth : Smooth source lines s₀) {before shown : String}
  {rest : List String} {o : Outcome} {t : Terminal}

include hsmooth

/-- From where a conversation has come to, the terminal goes on turn by turn. -/
theorem converse_shows (hspoken : Spoken source lines s₀ values o t.sandbox)
    (hstands : Contexts.Stands "default" source values seed o t.sandbox)
    (hlines : values ++ rest = lines) (hnews : news shown o.stdout = turn source seed values)
    (hshown : t.out ++ turn source seed values = before ++ shownBy source seed values)
    (hwaited : ∀ us v, us ++ [v] <+: values → source.Waits seed us) :
    ∃ typed, typed <+: lines ∧ (∀ us v, us ++ [v] <+: typed → source.Waits seed us) ∧
      (source.Waits seed typed → typed = lines) ∧
      (converse source values shown o rest t).2.out = before ++ shownBy source seed typed ++
        if source.Waits seed typed then abandoned else "" := by
  have hwaits {values : List String} {o : Outcome} {u : Sandbox}
      (hspoken : Spoken source lines s₀ values o u)
      (hstands : Contexts.Stands "default" source values seed o u) :
      o.stdout = source.output seed values ∧ (o.awaitsInput = true ↔ source.Waits seed values) :=
    have htells := hstands.tells (hsmooth.kept hspoken)
    ⟨htells.stdout, htells.awaits.trans Source.waits_iff.symm⟩
  induction rest generalizing values shown o t with
  | nil =>
      obtain ⟨-, hawaits⟩ := hwaits hspoken hstands
      rw [List.append_nil] at hlines
      refine ⟨values, hlines ▸ List.prefix_rfl, hwaited, fun _ => hlines, ?_⟩
      rw [converse_of_done (fun _ => rfl), hnews, hshown]
      simp only [hawaits]
  | cons v rest ih =>
      obtain ⟨hstdout, hawaits⟩ := hwaits hspoken hstands
      by_cases hwait : o.awaitsInput = true
      · have hne : values ≠ lines := by
          rintro rfl
          exact absurd (List.append_right_eq_self.mp hlines) (List.cons_ne_nil v rest)
        have hstaffed := hsmooth.next hspoken hwait hne
        obtain ⟨others₀, r, u, hstart⟩ := hstaffed.starts
        obtain ⟨o', w, hasked, hstands'⟩ := hstands.answered hwait
          (quiet_interrupts t.sandbox.written) hstaffed.answers hstart v
        have hlines' : values ++ [v] ++ rest = lines := by
          rw [List.append_assoc]
          exact hlines
        have hspoken' := hspoken.next hwait ⟨rest, hlines'⟩ hasked
        rw [converse_of_answered hwait hasked]
        refine ih hspoken' hstands' hlines' ?_ ?_ fun us v' h => ?_
        · rw [(hwaits hspoken' hstands').1, hstdout, String.append_assoc, turn_concat]
        · rw [hnews, hshown, String.append_assoc, shownBy_concat]
        · obtain h | h := List.prefix_concat_iff.mp h
          · obtain ⟨rfl, -⟩ := List.append_inj' h rfl
            exact hawaits.mp hwait
          · exact hwaited us v' h
      · refine ⟨values, hlines ▸ List.prefix_append _ _, hwaited,
          fun h => absurd (hawaits.mpr h) hwait, ?_⟩
        rw [converse_of_done (fun h => absurd h hwait), hnews, hshown]
        simp only [hawaits]

end

/-- A script in the terminal, with interpreters over the network (as `Session.setUp` has them), as
long as one can always be started and none is lost. Each attempt adds a turn to what is shown, until
the program asks no more or the lines have come to an end. After every number of values, what was
shown is what the program itself has written, each piece of it once, exactly when all of the values
were seamless. -/
theorem run_shows_iff {s : Surroundings} {script text : String}
    (hfile : s.files.lookup (Path.work.resolve script) = some text)
    (hsource : { code := Text.foldNewlines text } = source) (hlines : inputLines s.input = lines)
    {t : Terminal} (hreachable : Reachable t.sandbox)
    (hnetworked : t.sandbox.setup.networked = true) (hidle : Contexts.Idle "default" t.sandbox)
    (hids : t.sandbox.drawnIds + 1 < 16 ^ 8) {timeout : Binary64}
    (htimeout : secondsOf t.sandbox.setup.runTimeoutMs = .ok timeout)
    (hsmooth : Smooth source lines t.sandbox) (hreads : Program.drains source.text = false)
    (hone : ∀ seed us, us <+: lines → (source.attempted seed us).2.demands.length ≤ 1) :
    ∃ seed typed, typed <+: lines ∧
      (∀ us v, us ++ [v] <+: typed → source.Waits seed us) ∧
      (source.Waits seed typed → typed = lines) ∧
      (run s script t).2.out = t.out ++ shownBy source seed typed ++
        (if source.Waits seed typed then abandoned else "") ∧
      ((∀ us, us <+: typed → shownBy source seed us = source.written seed us) ↔
        ∀ us v, us ++ [v] <+: typed → Seamless source seed us v) := by
  obtain ⟨others₀, r, u, hstart⟩ := hsmooth.staffed.starts
  obtain ⟨seed, o, w, hasked, hstands⟩ := Contexts.stands_new hreachable.sound hidle htimeout hids
    (quiet_interrupts t.sandbox.written) hsmooth.staffed.answers hstart hnetworked source
  have hspoken : Spoken source lines t.sandbox [] o w := .first hasked
  have huse : use (Contexts.submit "default" source [] none) t =
      (.ok o, { t with sandbox := w }) :=
    congrArg (fun r : Except Failure Outcome × Sandbox => (r.1,
      ({ t with sandbox := r.2 } : Terminal))) hasked
  have hstdout : o.stdout = source.output seed [] := (hstands.tells (hsmooth.kept hspoken)).stdout
  have hnews : news "" o.stdout = turn source seed [] := by
    rw [turn_nil, ← hstdout, news_empty]
  obtain ⟨typed, htyped, hwaited, hall, hout⟩ := converse_shows hsmooth
    (t := { t with sandbox := w }) hspoken hstands (List.nil_append lines) hnews
    (by rw [turn_nil, shownBy_nil])
    fun us v h => absurd (List.prefix_nil.mp h) (by simp)
  refine ⟨seed, typed, htyped, hwaited, hall, ?_, ?_⟩
  · rw [out_run hfile, hsource, hlines, conversation, bind_of_eq_ok huse]
    exact hout
  · exact shownBy_eq_written_iff hreads (fun us h => hone seed us (h.trans htyped)) hwaited

/-- A script that asks for a line without showing it. -/
def greeting : Surroundings where
  files := [(Path.work.resolve "a.py", "[\"print\", \"name?\"]
[\"do\", \x7b\"readline\": true\x7d]
[\"print\", \"done\"]")]
  input := "x\n"

/-- What the script holds. -/
def greetingSource : Source where
  code := "[\"print\", \"name?\"]
[\"do\", \x7b\"readline\": true\x7d]
[\"print\", \"done\"]"

/-- The sandbox of a command, before it does anything. -/
def online : Sandbox := { usual with setup := { usual.setup with networked := true } }

theorem fresh_online : online.Fresh := ⟨rfl, rfl, rfl, rfl, rfl, rfl, rfl, rfl, rfl⟩

/-- The state after the attempt without a value. -/
def greeted : Sandbox := (asked greetingSource [] none online).2

theorem greeting_cases {values : List String} {o : Outcome} {t : Sandbox}
    (h : Spoken greetingSource ["x"] online values o t) :
    values = [] ∧ asked greetingSource [] none online = (.ok o, t) ∨
    values = ["x"] ∧ asked greetingSource [] (some "x") greeted = (.ok o, t) := by
  induction h with
  | first h => exact .inl ⟨rfl, h⟩
  | @next values v o o' t u _ _ hprefix hasked ih =>
      obtain ⟨rfl, hfirst⟩ | ⟨rfl, -⟩ := ih
      · obtain rfl : v = "x" := by simpa using hprefix
        refine .inr ⟨rfl, ?_⟩
        rw [greeted, hfirst]
        exact hasked
      · exact absurd hprefix.length_le (by simp)

theorem smooth_greeting : Smooth greetingSource ["x"] online := by
  -- One evaluation for all that is to be known of the two attempts.
  obtain ⟨hstart, hfirst, hby, hempty, hstart', hsecond⟩ :
      (Registry.start (Contexts.runKey "default") (orderly 1) online).1.toOption.isSome = true ∧
      (asked greetingSource [] none online).1.toOption.all
        (fun o => o.status = .awaitingInput && o.error.isNone) = true ∧
      greeted.byInputs.isNone = true ∧ greeted.upcoming.all (·.isEmpty) = true ∧
      (Registry.start (Contexts.runKey "default") (orderly 1) greeted).1.toOption.isSome = true ∧
      (asked greetingSource [] (some "x") greeted).1.toOption.all
        (fun o => o.status = .success && o.error.isNone) = true := by
    decide +kernel
  have hstarts {s : Sandbox}
      (h : (Registry.start (Contexts.runKey "default") (orderly 1) s).1.toOption.isSome = true) :
      ∃ others r t, Registry.start (Contexts.runKey "default") others s = (.ok r, t) := by
    obtain ⟨r, hr⟩ := eq_ok_of_isSome h
    exact ⟨orderly 1, r, _, Prod.ext hr rfl⟩
  refine ⟨⟨answering_of_ordinary rfl rfl, hstarts hstart⟩, fun {values o t} h => ?_,
    fun {values o t} h _ hne => ?_⟩
  · obtain ⟨-, hasked⟩ | ⟨-, hasked⟩ := greeting_cases h
    · rw [hasked] at hfirst
      simp only [Except.toOption, Option.all_some, Bool.and_eq_true, decide_eq_true_eq,
        Option.isNone_iff_eq_none] at hfirst
      exact ⟨by rw [hfirst.1]; decide, fun _ => by rw [hfirst.2]; exact nofun⟩
    · rw [hasked] at hsecond
      simp only [Except.toOption, Option.all_some, Bool.and_eq_true, decide_eq_true_eq,
        Option.isNone_iff_eq_none] at hsecond
      exact ⟨by rw [hsecond.1]; decide, fun _ => by rw [hsecond.2]; exact nofun⟩
  · obtain ⟨-, hasked⟩ | ⟨rfl, -⟩ := greeting_cases h
    · obtain rfl : greeted = t := congrArg Prod.snd hasked
      exact ⟨answering_of_ordinary hby hempty, hstarts hstart'⟩
    · exact absurd rfl hne

/-- The program asks by itself and reads a line. When that was typed, everything is shown again. -/
theorem run_shows_iff_greeting : ∃ seed, (run greeting "a.py" { sandbox := online }).2.out =
      shownBy greetingSource seed ["x"] ∧
    (run greeting "a.py" { sandbox := online }).2.out = "name?\nname?\ndone\n" ∧
    greetingSource.written seed ["x"] = "name?\ndone\n" ∧
    ¬ ∀ us, us <+: ["x"] → shownBy greetingSource seed us = greetingSource.written seed us := by
  obtain ⟨timeout, htimeout⟩ :=
    eq_ok_of_isSome (r := secondsOf online.setup.runTimeoutMs) (by decide +kernel)
  have hrescue : Program.uses .rescue greetingSource.text = false := by decide +kernel
  have hfile : greeting.files.lookup (Path.work.resolve "a.py") = some greetingSource.code := by
    decide +kernel
  obtain ⟨seed, typed, htyped, -, hall, hout, honce⟩ := run_shows_iff hfile
    (show _ = greetingSource by decide +kernel) (show _ = ["x"] by decide +kernel)
    (t := { sandbox := online }) (.fresh fresh_online) rfl (fun _ _ h => absurd h nofun) (by decide)
    htimeout smooth_greeting (by decide +kernel) fun seed us _ => Serving.demands_attempt
      (r := { code := greetingSource.text, inputs := us, seed := some seed }) hrescue (some seed)
  -- The program does not look at its seed.
  have hseedless : Program.uses .seek greetingSource.text = false := by decide +kernel
  obtain ⟨hwaits, hends, hprompted, houtput, hwritten, hshown⟩ :
      Serving.statusName (Serving.attempt none { code := greetingSource.text }).1 =
        "awaiting_input" ∧
      Serving.statusName (Serving.attempt none
        { code := greetingSource.text, inputs := ["x"] }).1 ≠ "awaiting_input" ∧
      (Serving.attempt none { code := greetingSource.text }).2.demands.all (·.prompted) = false ∧
      Program.transcript (Serving.attempt none { code := greetingSource.text }).2.shown ≠ "" ∧
      Program.wrote (Serving.attempt none
        { code := greetingSource.text, inputs := ["x"] }).2.shown = "name?\ndone\n" ∧
      (run greeting "a.py" { sandbox := online }).2.out = "name?\nname?\ndone\n" := by
    decide +kernel
  obtain rfl : typed = ["x"] := by
    obtain rfl | htyped := List.prefix_concat_iff.mp (show typed <+: [] ++ ["x"] from htyped)
    · rfl
    · obtain rfl := List.prefix_nil.mp htyped
      exact hall ((Source.waits_reseeded hseedless seed []).mpr hwaits)
  rw [if_neg (mt (Source.waits_reseeded hseedless seed ["x"]).mp hends),
    String.append_empty] at hout
  refine ⟨seed, ?_, hshown, (Source.written_reseeded hseedless seed ["x"]).trans hwritten,
    fun hsame => ?_⟩
  · rw [hout]
    exact String.empty_append
  · obtain hall | ⟨hempty, -⟩ := honce.mp hsame [] "x" List.prefix_rfl
    · rw [Source.demands_reseeded hseedless] at hall
      exact absurd (hprompted.symm.trans (List.all_eq_true.mpr hall)) nofun
    · exact houtput ((Source.output_reseeded hseedless seed []).symm.trans hempty)

end CommandLine

end Rerun
