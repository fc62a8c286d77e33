import Rerun.Contexts
import Rerun.Proofs.Grading.Beside
import Rerun.Proofs.Program.Placement

/-!
Two sandboxes of which the second mirrors the first (`Mirror.Shows`): its processes were asked
other things, what they have loaded stands elsewhere, and its challenges have other sources, but
nothing else is different. No operation on sessions looks at any of that, so that each of them does
the same in both (`Op.Mirrors`); only where a process answers do the two need to be compared.
-/

namespace Rerun

open Sandbox

/-! ### Tables -/

namespace Table

variable {α : Type} {R : Nat → α → α → Prop} {xs ys : List α} {x y : α} {i : Nat}

def Pairwise (R : Nat → α → α → Prop) (xs ys : List α) : Prop := ∀ i, Option.Rel (R i) xs[i]? ys[i]?

namespace Pairwise

theorem refl (hR : ∀ i x, R i x x) (xs : List α) : Pairwise R xs xs := by
  intro i
  cases xs[i]? with
  | none => exact .none
  | some x => exact .some (hR i x)

theorem mono {S : Nat → α → α → Prop} (h : Pairwise R xs ys)
    (hRS : ∀ i x y, xs[i]? = some x → R i x y → S i x y) : Pairwise S xs ys := by
  intro i
  have hi := h i
  cases hx : xs[i]? <;> cases hy : ys[i]? <;> rw [hx, hy] at hi
  · exact .none
  · cases hi
  · cases hi
  · cases hi with
    | some hxy => exact .some (hRS i _ _ hx hxy)

theorem of_modify {f g : α → α} (hfg : ∀ x, xs[i]? = some x → R i (f x) (g x))
    (hR : ∀ j x, j ≠ i → R j x x) : Pairwise R (xs.modify i f) (xs.modify i g) := by
  intro j
  rw [List.getElem?_modify, List.getElem?_modify]
  cases hx : xs[j]? with
  | none => exact .none
  | some x =>
      by_cases hij : i = j
      · subst hij
        simpa using Option.Rel.some (hfg x hx)
      · simpa [hij] using Option.Rel.some (hR j x (Ne.symm hij))

theorem length_eq (h : Pairwise R xs ys) : ys.length = xs.length := by
  refine Nat.le_antisymm (List.getElem?_eq_none_iff.mp ?_) (List.getElem?_eq_none_iff.mp ?_)
  · have hend := h xs.length
    rw [List.getElem?_eq_none (Nat.le_refl _)] at hend
    cases hy : ys[xs.length]? with
    | none => rfl
    | some y =>
        rw [hy] at hend
        cases hend
  · have hend := h ys.length
    rw [List.getElem?_eq_none (l := ys) (Nat.le_refl _)] at hend
    cases hx : xs[ys.length]? with
    | none => rfl
    | some x =>
        rw [hx] at hend
        cases hend

theorem concat (h : Pairwise R xs ys) (hxy : R xs.length x y) :
    Pairwise R (xs ++ [x]) (ys ++ [y]) := by
  intro i
  obtain hi | rfl | hi := Nat.lt_trichotomy i xs.length
  · rw [List.getElem?_append_left hi, List.getElem?_append_left (h.length_eq ▸ hi)]
    exact h i
  · rw [List.getElem?_concat_length, ← h.length_eq, List.getElem?_concat_length, h.length_eq]
    exact .some hxy
  · have hx : (xs ++ [x]).length ≤ i := by rw [List.length_append, List.length_singleton]; exact hi
    have hy : (ys ++ [y]).length ≤ i := by
      rw [List.length_append, List.length_singleton, h.length_eq]
      exact hi
    rw [List.getElem?_eq_none hx, List.getElem?_eq_none hy]
    exact .none

theorem modify (h : Pairwise R xs ys) {i : Nat} {f g : α → α}
    (hfg : ∀ x y, xs[i]? = some x → R i x y → R i (f x) (g y)) :
    Pairwise R (xs.modify i f) (ys.modify i g) := by
  intro j
  have hj := h j
  rw [List.getElem?_modify, List.getElem?_modify]
  cases hx : xs[j]? with
  | none =>
      rw [hx] at hj
      cases hy : ys[j]? with
      | none => exact .none
      | some y =>
          rw [hy] at hj
          cases hj
  | some x =>
      rw [hx] at hj
      cases hy : ys[j]? with
      | none =>
          rw [hy] at hj
          cases hj
      | some y =>
          rw [hy] at hj
          cases hj with
          | some hxy =>
              by_cases hij : i = j
              · subst hij
                simpa using Option.Rel.some (hfg x y hx hxy)
              · simpa [hij] using Option.Rel.some hxy

end Pairwise

end Table

/-! ### Mirrored sandboxes -/

/-- A request that may be lost or refused, but if it is answered, then by the interpreter. -/
def Scripted.Genuine (a : Scripted) : Prop :=
  ∀ status body, a.ended = some (.answer status body) → Interpreter.isSuccess status = false

def ChildScript.Genuine (x : ChildScript) : Prop := ∀ a ∈ x.replies, a.Genuine

/-- A sandbox in which all answers are given by interpreters, those that there are and those still
to be started. -/
structure Sandbox.Genuine (s : Sandbox) : Prop where
  byInputs {table : List (String × Scripted)} : s.byInputs = some table → ∀ e ∈ table, e.2.Genuine
  children : ∀ y ∈ s.children, y.script.Genuine
  scripts : ∀ x ∈ s.scripts, x.Genuine

/-- How a sandbox is mirrored in another one: on which lines what a process has loaded stands there,
and which sources a challenge with a key may have here and there. -/
structure Mirror where
  line : Nat → Nat → Nat
  sources : Nat → String → Option Source → Option Source → Prop

/-- A process and its mirror image, which may have been asked other things. -/
inductive Child.Twin (line : Nat → Nat) (y : Child) : Child → Prop
  | mk (posts : List (String × Json)) : Twin line y { y with posts, names := y.names.moved line }

inductive Challenge.Twin (sources : String → Option Source → Option Source → Prop)
    (c : Challenge) : Challenge → Prop
  | mk {source : Option Source} : sources c.key c.source source → Twin sources c { c with source }

namespace Mirror

/-- The second sandbox mirrors the first one. -/
inductive Shows (m : Mirror) (s : Sandbox) : Sandbox → Prop
  | mk {children : List Child} {challengeTable : List Challenge} (genuine : s.Genuine) :
    Table.Pairwise (fun i => Child.Twin (m.line i)) s.children children →
    Table.Pairwise (fun i => Challenge.Twin (m.sources i)) s.challengeTable challengeTable →
    Shows m s { s with children, challengeTable }

inductive Alike {α β : Type} (P : α → β → Prop) : Except Failure α → Except Failure β → Prop
  | ok {a : α} {b : β} : P a b → Alike P (.ok a) (.ok b)
  | error (e : Failure) : Alike P (.error e) (.error e)

structure Agree {α β : Type} (m : Mirror) (P : α → β → Prop) (r : Except Failure α × Sandbox)
    (r' : Except Failure β × Sandbox) : Prop where
  result : Alike P r.1 r'.1
  state : m.Shows r.2 r'.2

variable {m : Mirror} {s s' : Sandbox} {α β : Type} {P : α → β → Prop}

theorem alike_eq {r r' : Except Failure α} (h : Alike Eq r r') : r = r' := by
  cases h with
  | ok h => rw [h]
  | error e => rfl

namespace Shows

theorem genuine (h : m.Shows s s') : s.Genuine := by
  cases h with
  | mk hgenuine _ _ => exact hgenuine

theorem child (h : m.Shows s s') (i : Nat) :
    Option.Rel (Child.Twin (m.line i)) s.children[i]? s'.children[i]? := by
  cases h with
  | mk _ hchildren _ => exact hchildren i

theorem child_genuine (h : m.Shows s s') (i : Nat) :
    Option.Rel (fun y y' => Child.Twin (m.line i) y y' ∧ y.script.Genuine)
      s.children[i]? s'.children[i]? := by
  have hchild := h.child i
  cases hy : s.children[i]? <;> cases hy' : s'.children[i]? <;> rw [hy, hy'] at hchild
  · exact .none
  · cases hchild
  · cases hchild
  · cases hchild with
    | some htwin => exact .some ⟨htwin, h.genuine.children _ (List.mem_of_getElem? hy)⟩

theorem challenge (h : m.Shows s s') (i : Nat) :
    Option.Rel (Challenge.Twin (m.sources i)) s.challengeTable[i]? s'.challengeTable[i]? := by
  cases h with
  | mk _ _ hchallenges => exact hchallenges i

theorem modifyChild (h : m.Shows s s') {i : Nat} {f g : Child → Child}
    (hfg : ∀ y y', s.children[i]? = some y → y.Twin (m.line i) y' → (f y).Twin (m.line i) (g y'))
    (hf : ∀ y, y.script.Genuine → (f y).script.Genuine) :
    m.Shows { s with children := s.children.modify i f }
      { s' with children := s'.children.modify i g } := by
  cases h with
  | mk hgenuine hchildren hchallenges =>
      refine .mk { hgenuine with children := fun y hy => ?_ } (hchildren.modify hfg) hchallenges
      obtain ⟨j, hj⟩ := List.mem_iff_getElem?.mp hy
      obtain ⟨z, hz, rfl⟩ := Table.getElem?_modify_eq_some.mp hj
      have hz := hgenuine.children z (List.mem_of_getElem? hz)
      split
      · exact hf z hz
      · exact hz

theorem modifyChallenge (h : m.Shows s s') {i : Nat} {f g : Challenge → Challenge}
    (hfg : ∀ c c', c.Twin (m.sources i) c' → (f c).Twin (m.sources i) (g c')) :
    m.Shows { s with challengeTable := s.challengeTable.modify i f }
      { s' with challengeTable := s'.challengeTable.modify i g } := by
  cases h with
  | mk hgenuine hchildren hchallenges =>
      exact .mk { hgenuine with } hchildren (hchallenges.modify fun c c' _ => hfg c c')

end Shows

end Mirror

open Mirror

variable {m : Mirror}

/-! ### Operations -/

/-- Two operations do the same in mirrored sandboxes while nobody else acts. -/
def Op.Mirrors {α β : Type} (m : Mirror) (x : Op α) (x' : Op β) (P : α → β → Prop) : Prop :=
  ∀ ⦃others : Interrupts⦄, others.Absent → ∀ ⦃s s'⦄, m.Shows s s' →
    m.Agree P (x others s) (x' others s')

/-- An operation that has nothing to do with processes and challenges: it does the same whichever
there are, and leaves them as they are. -/
def Op.Elsewhere {α : Type} (x : Op α) : Prop :=
  ∀ others s children challengeTable scripts byInputs,
    x others { s with children, challengeTable, scripts, byInputs } =
      ((x others s).1, { (x others s).2 with children, challengeTable, scripts, byInputs })

namespace Op.Mirrors

variable {α β γ δ : Type} {P : α → β → Prop} {Q : γ → δ → Prop}

theorem pure {a : α} {b : β} (h : P a b) : Mirrors m (pure a) (Pure.pure b) P :=
  fun _ _ _ _ hs => ⟨.ok h, hs⟩

theorem fail (e : Failure) : Mirrors m (Op.fail e : Op α) (Op.fail e : Op β) P :=
  fun _ _ _ _ hs => ⟨.error e, hs⟩

theorem ofExcept {r : Except Failure α} {r' : Except Failure β} (h : Alike P r r') :
    Mirrors m (Op.ofExcept r) (Op.ofExcept r') P := by
  cases h with
  | ok h => exact .pure h
  | error e => exact .fail e

theorem bind_at {x : Op α} {x' : Op β} {f : α → Op γ} {f' : β → Op δ} {others : Interrupts}
    {s s' : Sandbox} (hx : m.Agree P (x others s) (x' others s'))
    (hf : ∀ a b t t', x others s = (.ok a, t) → P a b → m.Shows t t' →
      m.Agree Q (f a others t) (f' b others t')) :
    m.Agree Q ((x >>= f) others s) ((x' >>= f') others s') := by
  obtain ⟨hresult, hstate⟩ := hx
  rw [bind_apply, bind_apply]
  rcases hr : x others s with ⟨e | a, t⟩ <;> rcases hr' : x' others s' with ⟨e' | b, t'⟩ <;>
    rw [hr, hr'] at hresult hstate
  · cases hresult
    exact ⟨.error e, hstate⟩
  · cases hresult
  · cases hresult
  · cases hresult with
    | ok h => exact hf a b t t' hr h hstate

theorem bind_of {x : Op α} {x' : Op β} {f : α → Op γ} {f' : β → Op δ} (hx : Mirrors m x x' P)
    (hf : ∀ a b, P a b → Mirrors m (f a) (f' b) Q) : Mirrors m (x >>= f) (x' >>= f') Q :=
  fun _ ho _ _ hs => bind_at (hx ho hs) fun _ _ _ _ _ h ht => hf _ _ h ho ht

theorem bind {x x' : Op α} {f : α → Op γ} {f' : α → Op δ} (hx : Mirrors m x x' Eq)
    (hf : ∀ a, Mirrors m (f a) (f' a) Q) : Mirrors m (x >>= f) (x' >>= f') Q :=
  hx.bind_of fun a _ h => h ▸ hf a

theorem outcome {x : Op α} {x' : Op β} (hx : Mirrors m x x' P) :
    Mirrors m (Op.outcome x) (Op.outcome x') (Alike P) :=
  fun _ ho _ _ hs => ⟨.ok (hx ho hs).result, (hx ho hs).state⟩

theorem rescue_at {x : Op α} {x' : Op β} {other : Failure → Op α} {other' : Failure → Op β}
    {others : Interrupts} (ho : others.Absent) {s s' : Sandbox}
    (hx : m.Agree P (x others s) (x' others s'))
    (hother : ∀ e, Mirrors m (other e) (other' e) P) :
    m.Agree P (Op.rescue x other others s) (Op.rescue x' other' others s') := by
  obtain ⟨hresult, hstate⟩ := hx
  unfold Op.rescue
  rcases hr : x others s with ⟨e | a, t⟩ <;> rcases hr' : x' others s' with ⟨e' | b, t'⟩ <;>
    rw [hr, hr'] at hresult hstate
  · cases hresult
    exact hother e ho hstate
  · cases hresult
  · cases hresult
  · exact ⟨hresult, hstate⟩

theorem ite {c : Prop} [Decidable c] {x y : Op α} {x' y' : Op β} (hx : Mirrors m x x' P)
    (hy : Mirrors m y y' P) : Mirrors m (if c then x else y) (if c then x' else y') P := by
  split
  · exact hx
  · exact hy

theorem view_of {f : Sandbox → α} {f' : Sandbox → β} (hf : ∀ s s', m.Shows s s' → P (f s) (f' s')) :
    Mirrors m (Op.view f) (Op.view f') P :=
  fun _ _ s s' hs => ⟨.ok (hf s s' hs), hs⟩

theorem view {f : Sandbox → α}
    (hf : ∀ s children challengeTable, f { s with children, challengeTable } = f s) :
    Mirrors m (Op.view f) (Op.view f) Eq :=
  .view_of fun s _ hs => by
    cases hs
    exact (hf s _ _).symm

/-- What is done next depends on the state, but not on its processes and challenges. -/
theorem reading {f : Sandbox → Op α}
    (hf : ∀ s children challengeTable, f { s with children, challengeTable } = f s)
    (h : ∀ s, Mirrors m (f s) (f s) Eq) : Mirrors m (Op.view id >>= f) (Op.view id >>= f) Eq := by
  refine .bind_of (P := m.Shows) (.view_of fun _ _ => id) fun s s' hs => ?_
  cases hs with
  | @mk children challengeTable _ _ _ =>
      rw [hf s children challengeTable]
      exact h s

theorem need {find : Sandbox → Option α}
    (hf : ∀ s children challengeTable, find { s with children, challengeTable } = find s) :
    Mirrors m (Sandbox.need find) (Sandbox.need find) Eq := by
  intro others _ s s' hs
  have hfind : find s' = find s := by
    cases hs
    exact hf s _ _
  unfold Sandbox.need
  rw [hfind]
  cases find s with
  | none => exact ⟨.error _, hs⟩
  | some a => exact ⟨.ok rfl, hs⟩

theorem need_of {find find' : Sandbox → Option α} {P : α → α → Prop}
    (hf : ∀ s s', m.Shows s s' → Option.Rel P (find s) (find' s')) :
    Mirrors m (Sandbox.need find) (Sandbox.need find') P := by
  intro others _ s s' hs
  have h := hf s s' hs
  unfold Sandbox.need
  cases hfind : find s <;> cases hfind' : find' s' <;> rw [hfind, hfind'] at h
  · exact ⟨.error _, hs⟩
  · cases h
  · cases h
  · cases h with
    | some h => exact ⟨.ok h, hs⟩

theorem change_of {f f' : Sandbox → Sandbox} (hf : ∀ s s', m.Shows s s' → m.Shows (f s) (f' s')) :
    Mirrors m (Op.change f) (Op.change f') Eq :=
  fun _ _ s s' hs => ⟨.ok rfl, hf s s' hs⟩

theorem of_elsewhere {x : Op α} (hx : x.Elsewhere) : Mirrors m x x Eq := by
  intro others _ s s' hs
  have hkeep := congrArg Prod.snd
    (hx others s s.children s.challengeTable s.scripts s.byInputs)
  cases hs with
  | @mk children challengeTable hgenuine hchildren hchallenges =>
      rw [hx others s children challengeTable s.scripts s.byInputs]
      refine ⟨?_, ?_⟩
      · cases (x others s).1 with
        | ok a => exact .ok rfl
        | error e => exact .error e
      · rw [hkeep]
        exact .mk { hgenuine with } hchildren hchallenges

theorem change {f : Sandbox → Sandbox}
    (hf : ∀ s children challengeTable scripts byInputs,
      f { s with children, challengeTable, scripts, byInputs } =
        { f s with children, challengeTable, scripts, byInputs }) :
    Mirrors m (Op.change f) (Op.change f) Eq :=
  .of_elsewhere (x := Op.change f) fun _ s children challengeTable scripts byInputs =>
    congrArg (Except.ok (), ·) (hf s children challengeTable scripts byInputs)

theorem interleave (commands : List Command) :
    Mirrors m (Op.interleave commands) (Op.interleave commands) Eq := by
  intro others ho s s' hs
  show m.Agree Eq (.ok (), others commands s) (.ok (), others commands s')
  rw [ho, ho]
  exact ⟨.ok rfl, hs⟩

theorem now : Mirrors m Sandbox.now Sandbox.now Eq := .view fun _ _ _ => rfl

theorem setClock (ms : Int) : Mirrors m (Op.change fun s => { s with clock := s.clock + ms })
    (Op.change fun s => { s with clock := s.clock + ms }) Eq :=
  .change fun _ _ _ _ _ => rfl

theorem elapsedMs (started : Int) :
    Mirrors m (Sandbox.elapsedMs started) (Sandbox.elapsedMs started) Eq :=
  .bind .now fun _ => .pure rfl

theorem handle (h : Nat) : Mirrors m (Sandbox.handle h) (Sandbox.handle h) Eq :=
  .need fun _ _ _ => rfl

theorem record (r : Nat) : Mirrors m (Sandbox.record r) (Sandbox.record r) Eq :=
  .need fun _ _ _ => rfl

theorem setHandle (h : Nat) (f : Handle → Handle) :
    Mirrors m (Sandbox.setHandle h f) (Sandbox.setHandle h f) Eq :=
  .change fun _ _ _ _ _ => rfl

theorem setRecord (r : Nat) (f : Record → Record) :
    Mirrors m (Sandbox.setRecord r f) (Sandbox.setRecord r f) Eq :=
  .change fun _ _ _ _ _ => rfl

theorem child (i : Nat) :
    Mirrors m (Sandbox.child i) (Sandbox.child i) (Child.Twin (m.line i)) :=
  .need_of fun _ _ hs => hs.child i

theorem setChild {i : Nat} {f g : Child → Child}
    (hfg : ∀ y y', y.Twin (m.line i) y' → (f y).Twin (m.line i) (g y'))
    (hf : ∀ y, y.script.Genuine → (f y).script.Genuine) :
    Mirrors m (Sandbox.setChild i f) (Sandbox.setChild i g) Eq :=
  .change_of fun _ _ hs => hs.modifyChild (fun y y' _ => hfg y y') hf

theorem challenge (i : Nat) :
    Mirrors m (Sandbox.challenge i) (Sandbox.challenge i) (Challenge.Twin (m.sources i)) :=
  .need_of fun _ _ hs => hs.challenge i

theorem setChallenge {i : Nat} {f g : Challenge → Challenge}
    (hfg : ∀ c c', c.Twin (m.sources i) c' → (f c).Twin (m.sources i) (g c')) :
    Mirrors m (Sandbox.setChallenge i f) (Sandbox.setChallenge i g) Eq :=
  .change_of fun _ _ hs => hs.modifyChallenge hfg

end Op.Mirrors

open Op

/-! ### Processes -/

namespace Process

theorem twin_fresh (line : Nat → Nat) (script : ChildScript) (folder : Path) (alive : Bool) :
    Child.Twin line { script, folder, alive } { script, folder, alive } :=
  .mk []

theorem mirrors_launch (folder : Path) : (launch folder).Mirrors m (launch folder) Eq := by
  refine .bind (.view_of fun s s' hs => ?_) fun index => .bind_of (P := fun a b =>
    b = a ∧ a.Genuine) (.view_of fun s s' hs => ?_) fun script _ h => ?_
  · cases hs with
    | mk _ hchildren _ => exact hchildren.length_eq.symm
  · have hgenuine := hs.genuine
    cases hs with
    | mk _ _ _ =>
        refine ⟨rfl, ?_⟩
        cases hscripts : s.scripts with
        | nil => exact nofun
        | cons x rest => exact hgenuine.scripts x (hscripts ▸ List.mem_cons_self)
  · obtain ⟨rfl, hscript⟩ := h
    refine .bind (.change_of fun s s' hs => ?_) fun _ => ?_
    · cases hs with
      | mk hgenuine hchildren hchallenges =>
          refine .mk ⟨hgenuine.byInputs, fun y hy => ?_, fun x hx => ?_⟩
            (hchildren.concat (twin_fresh _ _ _ _)) hchallenges
          · obtain hy | hy := List.mem_append.mp hy
            · exact hgenuine.children y hy
            · rw [List.mem_singleton.mp hy]
              exact hscript
          · exact hgenuine.scripts x (List.mem_of_mem_tail hx)
    · split
      · exact .pure rfl
      · split
        · exact .pure rfl
        · exact .bind (.change fun _ _ _ _ _ => rfl) fun _ => .pure rfl

variable {i : Nat}

theorem mirrors_poll (i : Nat) : (poll i).Mirrors m (poll i) Eq := by
  refine .bind_of (.child i) fun y y' h => ?_
  cases h with
  | mk posts =>
      exact .bind (.setChild (fun z z' hz => by cases hz with | mk posts => exact .mk posts)
        fun _ => id) fun _ => .pure rfl

theorem mirrors_kill (i : Nat) : (kill i).Mirrors m (kill i) Eq :=
  .setChild (fun y y' hy => by cases hy with | mk posts => exact .mk posts) fun _ => id

theorem mirrors_health (i : Nat) : (health i).Mirrors m (health i) Eq := by
  refine .bind_of (.child i) fun y y' h => ?_
  cases h with
  | mk posts =>
      dsimp only
      split
      · exact .bind (.setChild (fun z z' hz => by cases hz with | mk posts => exact .mk posts)
          fun _ => id) fun _ => .pure rfl
      · exact .pure rfl

theorem mirrors_applySeed (seed : Option Int) :
    (applySeed seed).Mirrors m (applySeed seed) Eq :=
  .bind (.change fun _ _ _ _ _ => rfl) fun _ => .view fun _ _ _ => rfl

theorem mirrors_writeShown (folder : Path) (content : Content) :
    (writeShown folder content).Mirrors m (writeShown folder content) Eq :=
  .change fun _ _ _ _ _ => rfl

theorem mirrors_nextReply (i : Nat) :
    (nextReply i).Mirrors m (nextReply i) fun a b => b = a ∧ a.Genuine := by
  refine .bind_of (.need_of fun _ _ hs => hs.child_genuine i) fun y y' h => ?_
  obtain ⟨⟨posts⟩, hgenuine⟩ := h
  dsimp only
  split
  · rename_i r rest hreplies
    refine .bind (.setChild (fun z z' hz => by cases hz with | mk posts => exact .mk posts)
      fun _ _ a ha => ?_) fun _ => .pure ⟨rfl, hgenuine r (hreplies ▸ List.mem_cons_self)⟩
    exact hgenuine a (hreplies ▸ List.mem_cons_of_mem r ha)
  · exact .pure ⟨rfl, nofun⟩

/-- What happens to a request does not depend on what is asked, apart from its inputs. -/
theorem mirrors_nextScripted (i : Nat) (path : String) {body body' : Json}
    (hinputs : inputsKey body' = inputsKey body) :
    (nextScripted i path body).Mirrors m (nextScripted i path body') fun a b =>
      b = a ∧ a.Genuine := by
  rw [nextScripted_eq, nextScripted_eq, hinputs]
  refine .bind_of (P := fun a b => b = a ∧ ∀ table, a = some table → ∀ e ∈ table, e.2.Genuine)
    (.view_of fun s s' hs => ?_) fun table _ h => ?_
  · have hgenuine := hs.genuine
    cases hs with
    | mk _ _ _ => exact ⟨rfl, fun _ => hgenuine.byInputs⟩
  · obtain ⟨rfl, htable⟩ := h
    split
    · rename_i entries hentries
      refine .pure ⟨rfl, ?_⟩
      split at hentries
      · cases hfound : entries.lookup (inputsKey body) with
        | none =>
            intro status body hended
            cases hended
            rfl
        | some r =>
            obtain ⟨before, after, rfl, -⟩ := List.lookup_eq_some_iff.mp hfound
            exact htable _ hentries (inputsKey body, r)
              (List.mem_append_right before List.mem_cons_self)
      · exact absurd hentries nofun
    · exact mirrors_nextReply i

/-- The two answers of an interpreter: two replies that are related, or none. -/
inductive Alike (T : Json → Json → Prop) : Serving.Answer → Serving.Answer → Prop
  | reply {j j' : Json} : T j j' → Alike T (.reply j) (.reply j')
  | refused : Alike T (.refused 500) (.refused 500)
  | hung : Alike T .hung .hung
  | crashed : Alike T .crashed .crashed

/-- Two requests have ended with replies that are related, or in the same way without one. -/
inductive Ends (T : Json → Json → Prop) : Ended → Ended → Prop
  | reply {j j' : Json} : T j j' → Ends T (.answer 200 (.json j)) (.answer 200 (.json j'))
  | refused {status : Int} (body : Body) : Interpreter.isSuccess status = false →
    Ends T (.answer status body) (.answer status body)
  | interrupt : Ends T .interrupt .interrupt
  | fault (f : LinkFault) : Ends T (.fault f) (.fault f)

variable {T : Json → Json → Prop}

theorem mirrors_homeless : (Op.view fun s => homeless s.setup).Mirrors m
    (Op.view fun s => homeless s.setup) (Ends T) :=
  .view_of fun s s' hs => by
    cases hs
    unfold homeless
    split
    · exact .refused _ rfl
    · exact .fault _

theorem mirrors_delivered {a a' : Serving.Answer} (h : Alike T a a') :
    (delivered i a).Mirrors m (delivered i a') (Ends T) := by
  cases h with
  | reply h => exact .pure (.reply h)
  | refused => exact .pure (.refused _ rfl)
  | hung => exact .pure (.fault _)
  | crashed =>
      exact .bind (.setChild (fun y y' hy => by cases hy with | mk posts => exact .mk posts)
        fun _ => id) fun _ => .pure (.fault _)

theorem mirrors_post {path : String} {body body' : Json}
    (hinputs : inputsKey body' = inputsKey body)
    (hserve : (serve i path body).Mirrors m (serve i path body') (Ends T)) :
    (post i path body).Mirrors m (post i path body') (Ends T) := by
  have harrive : (arrive i path body).Mirrors m (arrive i path body') fun a b =>
      b = a ∧ a.Genuine := by
    refine .bind (.setChild (fun y y' hy => ?_) fun _ => id) fun _ =>
      .bind_of (mirrors_nextScripted i path hinputs) fun _ a h => ?_
    · cases hy with
      | mk posts => exact .mk _
    · obtain ⟨rfl, hgenuine⟩ := h
      exact .bind (.setClock _) fun _ => .bind (.interleave _) fun _ => .pure ⟨rfl, hgenuine⟩
  have hwrite (a : Scripted) : (writeScripted i a).Mirrors m (writeScripted i a) Eq := by
    unfold writeScripted
    split
    · refine .bind_of (.child i) fun y y' hy => ?_
      cases hy with
      | mk posts => exact mirrors_writeShown _ _
    · exact .pure rfl
  rw [post, post]
  refine .bind_of harrive fun _ a h => ?_
  obtain ⟨rfl, hgenuine⟩ := h
  refine .bind (hwrite a) fun _ => ?_
  cases hended : a.ended with
  | none => exact hserve
  | some e =>
      refine .pure ?_
      cases e with
      | interrupt => exact .interrupt
      | fault f => exact .fault f
      | answer status body => exact .refused body (hgenuine status body hended)

end Process

/-! ### Interpreters -/

namespace Interpreter

variable {T : Json → Json → Prop}

theorem mirrors_create (folder : Path) (timeout : Binary64) :
    (create folder timeout).Mirrors m (create folder timeout) Eq :=
  .bind (.view fun _ _ _ => rfl) fun _ => .bind (.change fun _ _ _ _ _ => rfl) fun _ => .pure rfl

theorem mirrors_kill (h : Nat) : (kill h).Mirrors m (kill h) Eq := by
  refine .bind (.handle h) fun x => ?_
  split
  · exact .pure rfl
  · exact .bind (Process.mirrors_poll _) fun _ => .ite (Process.mirrors_kill _) (.pure rfl)

theorem mirrors_reset (h : Nat) : (reset h).Mirrors m (reset h) Eq :=
  .bind (mirrors_kill h) fun _ => .setHandle h _

theorem mirrors_askUp (h c : Nat) (deadline : Binary64) :
    (askUp h c deadline).Mirrors m (askUp h c deadline) Eq := by
  refine .bind (.handle h) fun x => .bind .now fun t => .ite ?_ ?_
  · exact .bind (mirrors_reset h) fun _ => .fail _
  · refine .bind (Process.mirrors_poll c) fun alive => .ite ?_ (Process.mirrors_health c)
    exact .bind (.view fun _ _ _ => rfl) fun _ => .bind (mirrors_reset h) fun _ => .fail _

theorem mirrors_verdict (said : Except Failure Unit) :
    (Op.ofExcept said).Mirrors m (Op.ofExcept said) Eq := by
  cases said with
  | ok _ => exact .pure rfl
  | error e => exact .fail e

theorem mirrors_awaitUp (h c : Nat) (deadline : Binary64) (pending : List Health) :
    (awaitUp h c deadline pending).Mirrors m (awaitUp h c deadline pending) Eq := by
  induction pending with
  | nil =>
      refine .bind (mirrors_askUp h c deadline) fun answer => ?_
      split
      · exact mirrors_verdict _
      · exact .pure rfl
  | cons a pending ih =>
      refine .bind (mirrors_askUp h c deadline) fun answer => ?_
      split
      · exact mirrors_verdict _
      · exact .bind (.change fun _ _ _ _ _ => rfl) fun _ => ih

theorem mirrors_start (h : Nat) : (start h).Mirrors m (start h) Eq := by
  refine .bind (.handle h) fun x => .ite (.fail _) (.bind (.view_of fun s s' hs => ?_) fun port =>
    .bind (.change fun _ _ _ _ _ => rfl) fun _ => .bind (.setHandle h _) fun _ =>
    .bind (Process.mirrors_launch _) fun launched => ?_)
  · cases hs with
    | mk _ hchildren _ =>
        dsimp only
        rw [hchildren.length_eq]
  · cases launched with
    | error reason => exact .bind (mirrors_reset h) fun _ => .fail _
    | ok c =>
        refine .bind (.setHandle h _) fun _ => .bind .now fun t =>
          .bind (.view_of fun s s' hs => ?_) fun pending => mirrors_awaitUp h c _ pending
        have hc := hs.child c
        revert hc
        cases s.children[c]? <;> cases s'.children[c]? <;> intro hc
        · rfl
        · cases hc
        · cases hc
        · cases hc with
          | some hy => cases hy with
            | mk posts => rfl

theorem mirrors_probe (h : Nat) : (probe h).Mirrors m (probe h) Eq := by
  refine .bind (.handle h) fun x => ?_
  split
  · exact .pure rfl
  · refine .bind (Process.mirrors_poll _) fun alive => .ite (.pure rfl)
      (.bind (Process.mirrors_health _) fun answer => ?_)
    split
    · exact .pure rfl
    · exact .pure rfl

theorem mirrors_heard {e e' : Ended} (h : Nat) (path : String) (timeout : Binary64)
    (hends : Process.Ends T e e') :
    (heard h path timeout e).Mirrors m (heard h path timeout e') T := by
  have hshown : (shownOf h path).Mirrors m (shownOf h path) Eq :=
    .ite (.bind (.handle h) fun _ => .view fun _ _ _ => rfl) (.pure rfl)
  cases hends with
  | reply hT => exact .pure hT
  | @refused status body hfail =>
      rw [heard, hfail]
      exact .fail _
  | interrupt => exact .fail _
  | fault f =>
      cases f with
      | timeout message =>
          exact .bind (mirrors_kill h) fun _ => .bind hshown fun _ => .fail _
      | transport reason =>
          exact .bind hshown fun _ => .bind (mirrors_kill h) fun _ => .fail _
      | protocol name message => exact .fail _

theorem mirrors_addressee (h : Nat) {body body' : Json}
    (hfinite : body.hasNonFinite = body'.hasNonFinite) :
    (addressee h body).Mirrors m (addressee h body') Eq := by
  refine .bind (.handle h) fun z => ?_
  rw [← hfinite]
  cases z.child with
  | none => exact .fail _
  | some c => exact .ite (.fail _) (.pure rfl)

theorem agree_post {others : Interrupts} (ho : others.Absent) {s s' : Sandbox}
    (hs : m.Shows s s') {h : Nat} {path : String} {body body' : Json}
    (hinputs : Process.inputsKey body' = Process.inputsKey body)
    (hfinite : body.hasNonFinite = body'.hasNonFinite)
    (hserve : ∀ z c, s.handles[h]? = some z → z.child = some c →
      (Process.serve c path body).Mirrors m (Process.serve c path body') (Process.Ends T))
    (timeout : Binary64) :
    m.Agree T (post h path body timeout others s) (post h path body' timeout others s') := by
  refine Mirrors.bind_at (mirrors_addressee h hfinite ho hs) fun c c' t t' hc heq ht => ?_
  obtain rfl := heq
  obtain ⟨z, hz, hchild, rfl⟩ := addressee_eq_ok hc
  exact Mirrors.bind_of (Process.mirrors_post hinputs (hserve z c hz hchild))
    (fun e e' hends => mirrors_heard h path timeout hends) ho ht

end Interpreter

/-! ### Sessions -/

namespace Registry

theorem mirrors_get (key : String) : (get key).Mirrors m (get key) Eq := by
  intro others _ s s' hs
  have hfind : find? s' key = find? s key := by cases hs; rfl
  unfold get
  rw [hfind]
  cases find? s key with
  | none => exact ⟨.error _, hs⟩
  | some r => exact ⟨.ok rfl, hs⟩

theorem mirrors_writeJournal (key : String) (entry : List (String × Json)) :
    (writeJournal key entry).Mirrors m (writeJournal key entry) Eq := by
  refine .reading (fun _ _ _ => rfl) fun s => .ite (.pure rfl) ?_
  split
  · exact .pure rfl
  · exact .bind (.record _) fun info => .change fun _ _ _ _ _ => rfl

theorem mirrors_writeMetadata (key : String) (fields : List (String × Json)) :
    (writeMetadata key fields).Mirrors m (writeMetadata key fields) Eq := by
  refine .reading (fun _ _ _ => rfl) fun s => .ite (.pure rfl) ?_
  split
  · exact .pure rfl
  · refine .bind (.record _) fun info => .bind ?_ fun merged => .change fun _ _ _ _ _ => rfl
    cases mergeMetadata ((s.folders.find? info.folder).bind (·.metadata)) fields with
    | ok j => exact .pure rfl
    | error e => exact .fail e

theorem mirrors_reset (key : String) : (reset key).Mirrors m (reset key) Eq := by
  refine .bind (.view fun _ _ _ => rfl) fun found => ?_
  split
  · exact .pure rfl
  · exact .bind (mirrors_writeJournal key _) fun _ => .bind (.record _) fun info =>
      .bind .now fun t => .bind (mirrors_writeMetadata key _) fun _ =>
      .bind (.change fun _ _ _ _ _ => rfl) fun _ => .bind (Interpreter.mirrors_reset _) fun _ =>
      .bind (.view fun _ _ _ => rfl) fun drop => .ite (.change fun _ _ _ _ _ => rfl) (.pure rfl)

theorem mirrors_note (key : String) (entry : Json) :
    (note key entry).Mirrors m (note key entry) Eq := by
  refine .bind (.view fun _ _ _ => rfl) fun found => ?_
  split
  · exact .pure rfl
  · refine .bind (.setRecord _ _) fun _ => ?_
    split
    · exact .bind (mirrors_writeJournal key _) fun _ => .bind (.record _) fun info =>
        .bind .now fun t => mirrors_writeMetadata key _
    · exact .fail _

theorem mirrors_startTwice (folder : Path) (timeout : Binary64) (key : String) (attempts : Nat)
    (last : Failure) : (startTwice folder timeout key attempts last).Mirrors m
      (startTwice folder timeout key attempts last) Eq := by
  induction attempts generalizing last with
  | zero => exact .fail _
  | succ attempts ih =>
      refine .bind (Interpreter.mirrors_create folder timeout) fun h =>
        .bind_of (.outcome (Interpreter.mirrors_start h)) fun result result' hresult => ?_
      obtain rfl := alike_eq hresult
      cases result with
      | ok _ =>
          exact .bind (.view fun _ _ _ => rfl) fun index => .bind (.change fun _ _ _ _ _ => rfl)
            fun _ => .pure rfl
      | error e =>
          exact .ite (.bind (Interpreter.mirrors_reset h) fun _ => ih e) (.fail _)

theorem mirrors_start (key : String) : (start key).Mirrors m (start key) Eq := by
  refine .bind (.view fun _ _ _ => rfl) fun setup => .bind ?_ fun folder =>
    mirrors_startTwice folder _ key 2 _
  cases folderOf setup key with
  | ok p => exact .pure rfl
  | error e => exact .fail e

theorem mirrors_enter (key : String) : (enter key).Mirrors m (enter key) Eq :=
  .bind (.bind (mirrors_start key) fun _ => .bind (.change fun _ _ _ _ _ => rfl) fun _ =>
    .pure rfl) fun r => .bind (.record r) fun _ => .bind .now fun _ =>
    .bind (mirrors_writeMetadata key _) fun _ => mirrors_writeJournal key _

theorem mirrors_usable (r : Nat) : (usable r).Mirrors m (usable r) Eq := by
  refine .bind (.record r) fun info => ?_
  split
  · exact .pure rfl
  · exact .bind (Interpreter.mirrors_probe _) fun _ => .ite (.bind .now fun t =>
      .bind (.setRecord r _) fun _ => .pure rfl) (.pure rfl)
  · exact .pure rfl

theorem mirrors_provide (key : String) : (provide key).Mirrors m (provide key) Eq := by
  refine .bind (.view fun _ _ _ => rfl) fun found => ?_
  split
  · exact mirrors_enter key
  · exact .bind (mirrors_usable _) fun _ => .ite (.pure rfl)
      (.bind (mirrors_reset key) fun _ => mirrors_enter key)

theorem mirrors_keyFor (key : Option String) : (keyFor key).Mirrors m (keyFor key) Eq := by
  have hanonymous : keyFor.anonymous.Mirrors m keyFor.anonymous Eq :=
    .bind (.of_elsewhere fun _ _ _ _ _ _ => rfl) fun _ => .pure rfl
  unfold keyFor
  split
  · exact .ite hanonymous (.pure rfl)
  · exact hanonymous

/-! ### Sweeps -/

theorem mirrors_onSweep (key : String) :
    (Contexts.onSweep key).Mirrors m (Contexts.onSweep key) Eq := by
  refine .bind ?_ fun _ => .change fun _ _ _ _ _ => rfl
  unfold Contexts.forgetFor
  split
  · refine .bind (.view fun _ _ _ => rfl) fun found => ?_
    split
    · exact .pure rfl
    · refine .bind (.need fun _ _ _ => rfl) fun r => .ite (.pure rfl)
        (.bind (.change fun _ _ _ _ _ => rfl) fun _ => ?_)
      cases r.owner with
      | engine => exact .change fun _ _ _ _ _ => rfl
      | other => exact .change fun _ _ _ _ _ => rfl
  · refine .bind (.view fun _ _ _ => rfl) fun found => ?_
    split
    · exact .pure rfl
    · exact .bind (.change fun _ _ _ _ _ => rfl) fun _ =>
        .setChallenge fun c c' hc => by cases hc with | mk hsource => exact .mk hsource
  · exact .pure rfl

/-- Which sessions are idle depends on the clock, the settings and when they were used last. -/
theorem mirrors_sweepAll {before before' : Sandbox} (hbefore : m.Shows before before')
    (entries : List (String × Nat)) : (sweepAll Contexts.onSweep before entries).Mirrors m
      (sweepAll Contexts.onSweep before' entries) Eq := by
  induction entries with
  | nil => exact .pure rfl
  | cons entry rest ih =>
      refine .bind (.record _) fun info => ?_
      have hidle : isIdle before' info = isIdle before info := by cases hbefore; rfl
      rw [hidle]
      exact .ite (.bind (mirrors_reset _) fun _ => .bind (mirrors_onSweep _) fun _ => ih) ih

theorem mirrors_sweep : (sweep Contexts.onSweep).Mirrors m (sweep Contexts.onSweep) Eq := by
  refine .bind_of (P := m.Shows) (.view_of fun _ _ => id) fun s s' hs => ?_
  have hsessions : s'.sessions = s.sessions := by cases hs; rfl
  rw [hsessions]
  exact mirrors_sweepAll hs s.sessions

theorem mirrors_acquire (key : Option String) :
    (acquire Contexts.onSweep key).Mirrors m (acquire Contexts.onSweep key) Eq :=
  .bind mirrors_sweep fun _ => .bind (mirrors_keyFor key) fun key =>
    .bind (mirrors_provide key) fun _ => .pure rfl

/-! ### Using a session -/

theorem mirrors_hold (key : String) : (hold key).Mirrors m (hold key) Eq :=
  .bind (mirrors_get key) fun r => .bind (.record r) fun _ => .ite (.fail _)
    (.bind (.setRecord r _) fun _ => .pure rfl)

theorem mirrors_release (key : String) (r : Nat) (how : Departure) :
    (release key r how).Mirrors m (release key r how) Eq := by
  cases how with
  | normal => exact .bind .now fun t => .setRecord r _
  | lost => exact .bind (.setRecord r _) fun _ => mirrors_reset key
  | failed => exact .setRecord r _

theorem agree_holding {α β : Type} {P : α → β → Prop} {others : Interrupts}
    (ho : others.Absent) {s s' : Sandbox} (hs : m.Shows s s') {key : String} {use : Nat → Op α}
    {use' : Nat → Op β} (huse : ∀ r x t', s.sessions.lookup key = some r →
      s.records[r]? = some x → m.Shows (held s r) t' →
      m.Agree P (use x.handle others (held s r)) (use' x.handle others t')) :
    m.Agree P (holding key use others s) (holding key use' others s') := by
  refine Mirrors.bind_at (mirrors_hold key ho hs) fun r r' t t' hhold heq ht => ?_
  obtain rfl := heq
  obtain ⟨x, hr, hx, -, rfl⟩ := hold_eq_ok hhold
  refine Mirrors.bind_at (Mirrors.record r ho ht) fun y y' u u' hy heq hu => ?_
  obtain rfl := heq
  obtain ⟨hfound, rfl⟩ := need_eq_ok hy
  have hheld : (held s r).records[r]? = some { x with state := .busy, locked := true } :=
    Table.getElem?_modify_eq_some.mpr ⟨x, hx, by rw [if_pos rfl]⟩
  obtain rfl := Option.some.inj (hheld.symm.trans hfound)
  have hagree := huse r x u' hr hx hu
  refine Mirrors.bind_at (P := Alike P) ⟨.ok hagree.result, hagree.state⟩
    fun result result' v v' _ hresult hv => ?_
  cases hresult with
  | ok h => exact Mirrors.bind (mirrors_release key r _) (fun _ => .pure h) ho hv
  | error e => exact Mirrors.bind (mirrors_release key r _) (fun _ => .fail e) ho hv

end Registry

end Rerun
