import Rerun.Proofs.Sandbox.Attempts
import Rerun.Proofs.Sandbox.Launches
import Rerun.Proofs.Sandbox.Sweeps

/-!
The single moves of which everything consists that happens to sessions, runs and processes
(`Move`). A scene is a state of the sandbox together with what an observer notes beside it: which
sessions are being held, and what attempts at runs have asked for. An invariant of scenes is shown
for each move once, and holds along all that is made of moves.
-/

namespace Rerun

open Sandbox Op

structure Scene where
  box : Sandbox
  /-- The scopes that are open on sessions: their keys and their records. -/
  scopes : List (String × Nat) := []
  /-- What attempts at runs have been going to execute, the last one first. -/
  requests : List Execution.Request := []

namespace Contexts

def forgotten (s : Sandbox) (c : String) (x : RunInfo) : Sandbox :=
  { s with
    contexts := Assoc.drop s.contexts c
    engineSeeds := Assoc.drop s.engineSeeds x.runId }

end Contexts

namespace Registry

def lost (s : Sandbox) (r : Nat) : Sandbox :=
  { s with
    records := s.records.modify r fun x => { x with state := .corrupted, locked := false } }

def freed (s : Sandbox) (r : Nat) (f : Record → Int) : Sandbox :=
  { s with
    records := s.records.modify r fun x =>
      { x with state := .ready, lastUsed := f x, locked := false } }

def enrolled (s : Sandbox) (key : String) (r : Nat) : Sandbox :=
  { s with sessions := Assoc.put s.sessions key r }

end Registry

/-- What can happen at once. -/
inductive Move : Scene → Scene → Prop
  /-- Requests, programs and the clock go on. -/
  | drift {a : Scene} {t : Sandbox} : a.box.Drifts t → Move a { a with box := t }
  /-- The use of a session is noted. -/
  | touch {a : Scene} (r : Nat) {f : Record → Record} :
      (∀ x, (f x).handle = x.handle ∧ (f x).folder = x.folder ∧ (f x).state = x.state ∧
        (f x).locked = x.locked) →
      Move a { a with box := { a.box with records := a.box.records.modify r f } }
  /-- A start comes to nothing. -/
  | fail {a : Scene} {t : Sandbox} : a.box.Fails t → Move a { a with box := t }
  /-- A session is started and registered. -/
  | enroll {a : Scene} {t : Sandbox} {key : String} {p : Path} : key ≠ "" →
      a.box.sessions.lookup key = none → Registry.folderOf a.box.setup key = .ok p →
      a.box.Adds t p → Move a { a with box := Registry.enrolled t key a.box.records.length }
  /-- A session is taken down. -/
  | tearDown {a : Scene} {t : Sandbox} (key : String) : Registry.TornDown key a.box t →
      Move a { a with box := t }
  /-- A scope is opened on a session that nobody holds. -/
  | enter {a : Scene} {key : String} {r : Nat} {x : Record} :
      a.box.sessions.lookup key = some r → a.box.records[r]? = some x → x.locked = false →
      Move a { a with box := Registry.held a.box r, scopes := (key, r) :: a.scopes }
  /-- A scope is left whose session can be used again. -/
  | leave {a : Scene} {key : String} {r : Nat} (f : Record → Int) : (key, r) ∈ a.scopes →
      Move a { a with box := Registry.freed a.box r f, scopes := a.scopes.erase (key, r) }
  /-- A scope is left whose session is lost. -/
  | lose {a : Scene} {t : Sandbox} {key : String} {r : Nat} : (key, r) ∈ a.scopes →
      Registry.TornDown key (Registry.lost a.box r) t →
      Move a { a with box := t, scopes := a.scopes.erase (key, r) }
  /-- A run that is not in flight is forgotten. -/
  | forget {a : Scene} {c : String} {i : Nat} {x : RunInfo} : a.box.contexts.lookup c = some i →
      a.box.runs[i]? = some x → x.inFlight = false →
      Move a { a with box := Contexts.forgotten a.box c x }
  /-- A context leaves its run. -/
  | forsake {a : Scene} {c : String} {i : Nat} {x : RunInfo} : a.box.contexts.lookup c = some i →
      a.box.runs[i]? = some x → Move a { a with box := Contexts.forsaken a.box c i x }
  /-- A context without a run is given one, which is taken for its first attempt. -/
  | begin {a : Scene} {c : String} {source : Source} {values : List String} {timeout : Binary64}
      {q : Execution.Request} {t : Sandbox} : a.box.contexts.lookup c = none →
      secondsOf a.box.setup.runTimeoutMs = .ok timeout →
      Run.Embarked (Contexts.entered a.box c (Contexts.freshRun a.box c source values timeout))
        a.box.runs.length (Contexts.freshRun a.box c source values timeout) q t →
      Move a { a with box := t, requests := q :: a.requests }
  /-- The run of a context is taken for another attempt. -/
  | again {a : Scene} {c : String} {i : Nat} {x : RunInfo} {q : Execution.Request} {t : Sandbox} :
      a.box.contexts.lookup c = some i → a.box.runs[i]? = some x → x.inFlight = false →
      Run.Embarked a.box i x q t → Move a { a with box := t, requests := q :: a.requests }
  /-- An attempt is over. -/
  | land {a : Scene} (i : Nat) : Move a { a with box := Run.landed a.box i }

abbrev Moves : Scene → Scene → Prop := Relation.ReflTransGen Move

variable {s t u : Sandbox} {a b : Scene}

namespace Sandbox.Sane

theorem freed (hs : s.Sane) (r : Nat) (f : Record → Int) : (Registry.freed s r f).Sane :=
  hs.modifyRecord r (fun _ => ⟨rfl, rfl⟩) fun _ _ => nofun

theorem lost (hs : s.Sane) (r : Nat) : (Registry.lost s r).Sane :=
  hs.modifyRecord r (fun _ => ⟨rfl, rfl⟩) fun _ _ => nofun

theorem forgotten (hs : s.Sane) (c : String) (x : RunInfo) : (Contexts.forgotten s c x).Sane :=
  { hs.dropContext c with }

theorem forsaken (hs : s.Sane) (c : String) (i : Nat) (x : RunInfo) :
    (Contexts.forsaken s c i x).Sane :=
  { (hs.dropContext c).modifyRun i (f := fun r => { r with cancelled := true })
      fun _ => ⟨rfl, rfl, rfl, rfl⟩ with }

theorem entered (hs : s.Sane) (c : String) (source : Source) (values : List String)
    {timeout : Binary64} (ht : secondsOf s.setup.runTimeoutMs = .ok timeout) :
    (Contexts.entered s c (Contexts.freshRun s c source values timeout)).Sane :=
  (hs.addRun (x := Contexts.freshRun s c source values timeout) rfl).putContext
    List.getElem?_concat_length rfl rfl ht

theorem embarked (hs : s.Sane) {i : Nat} {x : RunInfo} {q : Execution.Request}
    (h : Run.Embarked s i x q t) : t.Sane := by
  obtain ⟨n, v, f, hdrawn, -, hf, rfl⟩ := h.drawn
  rw [hdrawn.tables]
  exact { hs.modifyRun i (f := f) fun y =>
    ⟨(hf y).1, (hf y).2.1, (hf y).2.2.1, (hf y).2.2.2.1⟩ with }

theorem enrolled {key : String} {p : Path} (hs : s.Sane)
    (hp : Registry.folderOf s.setup key = .ok p) (h : s.Adds t p) :
    (Registry.enrolled t key s.records.length).Sane := by
  obtain ⟨u, x, y, hopens, rfl, -, hfolder, -⟩ := h.opens
  have hrecords : u.records = s.records := hopens.tables.records
  have hsessions : u.sessions = s.sessions := hopens.tables.sessions
  have hsetup : u.setup = s.setup := hopens.tables.setup
  have hsane := h.sane
  rw [hrecords] at hsane ⊢
  refine hsane.putSession (x := y) List.getElem?_concat_length ?_ fun k hk => ?_
  · rw [hfolder]
    exact hsetup ▸ hp
  · -- The record is new, so that no key leads to it yet.
    have hk : u.sessions.lookup k = some s.records.length := hk
    rw [hsessions] at hk
    obtain ⟨z, hz, -⟩ := hs.session hk
    exact absurd (List.getElem?_eq_some_iff.mp hz).1 (Nat.lt_irrefl _)

end Sandbox.Sane

theorem Move.sane (h : Move a b) (ha : a.box.Sane) : b.box.Sane := by
  cases h with
  | drift hd => exact hd.sane ha
  | touch r hf =>
      exact ha.modifyRecord r (fun x => ⟨(hf x).1, (hf x).2.1⟩) fun x hx hbusy =>
        (hf x).2.2.2.trans (hx ((hf x).2.2.1.symm.trans hbusy))
  | fail hf =>
      obtain ⟨x, hopens, -⟩ := hf
      exact hopens.sane
  | enroll _ _ hp hadds => exact ha.enrolled hp hadds
  | tearDown key htorn => exact htorn.sane
  | enter => exact Registry.sane_held ha _
  | leave f => exact ha.freed _ f
  | lose _ htorn => exact htorn.sane
  | forget => exact ha.forgotten _ _
  | forsake => exact ha.forsaken _ _ _
  | begin _ htimeout hembarked => exact (ha.entered _ _ _ htimeout).embarked hembarked
  | again _ _ _ hembarked => exact ha.embarked hembarked
  | land i => exact ha.modifyRun i fun _ => ⟨rfl, rfl, rfl, rfl⟩

theorem Moves.sane (h : Moves a b) (ha : a.box.Sane) : b.box.Sane := by
  induction h with
  | refl => exact ha
  | tail _ hmove ih => exact hmove.sane ih

theorem Moves.keeps {P : Scene → Prop} (h : Moves a b)
    (hkeeps : ∀ a b, Move a b → a.box.Sane → P a → P b) (hs : a.box.Sane) (ha : P a) : P b := by
  induction h with
  | refl => exact ha
  | tail hmoves hmove ih => exact hkeeps _ _ hmove (Moves.sane hmoves hs) ih

/-! ### Operations that consist of moves -/

/-- What happens in moves that open no scope, leave none, and take no run. -/
def Sandbox.Goes (s t : Sandbox) : Prop :=
  ∀ scopes requests, Moves ⟨s, scopes, requests⟩ ⟨t, scopes, requests⟩

namespace Sandbox.Goes

theorem refl (s : Sandbox) : s.Goes s := fun _ _ => .refl

theorem trans (h : s.Goes t) (h' : t.Goes u) : s.Goes u :=
  fun scopes requests => (h scopes requests).trans (h' scopes requests)

theorem of_drifts (h : s.Drifts t) : s.Goes t := fun _ _ => .single (.drift h)

theorem of_tornDown {key : String} (h : Registry.TornDown key s t) : s.Goes t :=
  fun _ _ => .single (.tearDown key h)

theorem of_tries (h : Relation.ReflTransGen Fails s t) : s.Goes t := by
  intro scopes requests
  induction h with
  | refl => exact .refl
  | tail _ hfails ih => exact ih.tail (.fail hfails)

theorem sane (h : s.Goes t) (hs : s.Sane) : t.Sane := (h [] []).sane hs

end Sandbox.Goes

namespace Op

variable {α β : Type}

/-- An operation that, in a sane state, consists of moves that open no scope, leave none, and take
no run. -/
def Goes (x : Op α) : Prop :=
  ∀ (others : Interrupts) (s : Sandbox), s.Sane → s.Goes (x others s).2

namespace Goes

theorem of_drifts {x : Op α} (h : x.Drifts) : Goes x :=
  fun others s _ => .of_drifts (h others s)

theorem of_passes {x : Op α} (h : x.Passes) : Goes x := of_drifts (.of_passes h)

theorem of_does {x : Op α} {a : α} {others : Interrupts} (h : x.Does s a t) (hgoes : s.Goes t) :
    s.Goes (x others s).2 := by
  rw [h others]
  exact hgoes

/-- What comes after an operation may depend on the state that it leaves. -/
theorem bind_at {x : Op α} {f : α → Op β} {others : Interrupts} (hx : s.Goes (x others s).2)
    (hf : ∀ a t, x others s = (.ok a, t) → t.Goes (f a others t).2) :
    s.Goes ((x >>= f) others s).2 := by
  rw [bind_apply]
  rcases hr : x others s with ⟨e | a, t⟩ <;> rw [hr] at hx
  · exact hx
  · exact hx.trans (hf a t hr)

theorem bind {x : Op α} {f : α → Op β} (hx : Goes x) (hf : ∀ a, Goes (f a)) : Goes (x >>= f) :=
  fun others s hs => bind_at (hx others s hs) fun a t ht => by
    have hgoes := hx others s hs
    rw [ht] at hgoes
    exact hf a others t (hgoes.sane hs)

theorem view (f : Sandbox → α) : Goes (Op.view f) := of_drifts (.view f)

theorem need (find : Sandbox → Option α) : Goes (Sandbox.need find) := of_drifts (.need find)

theorem chains : Chains fun x => x.Goes := ⟨fun h => of_passes (.of_still h), .bind⟩

end Goes

end Op

end Rerun
