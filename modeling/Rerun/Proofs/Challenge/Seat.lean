import Rerun.Proofs.Challenge.Play
import Rerun.Proofs.Sandbox.Privacy

/-!
What keeps a loaded program alive: the session of its challenge, and the process behind it
(`Sandbox.Seat`). A request that the process answers itself leaves them in place whatever others do
meanwhile, as long as they leave the challenge alone.
-/

namespace Rerun

open Sandbox Op

/-- A challenge with its session and the process behind it, which lives and answers for itself. -/
structure Sandbox.Seat (s : Sandbox) (i : Nat) (c : Challenge) (r : Nat) (x : Record) (q : Nat)
    (y : Child) : Prop where
  sane : s.Sane
  challenge : s.challengeTable[i]? = some c
  session : s.sessions.lookup c.key = some r
  record : s.records[r]? = some x
  handle : ∃ z, s.handles[x.handle]? = some z ∧ z.child = some q
  process : s.children[q]? = some y
  alive : y.alive = true
  answers {a : Scripted} : a ∈ y.script.replies → a.ended = none

variable {s t : Sandbox} {others : Interrupts} {i : Nat} {c : Challenge} {r : Nat} {x : Record}
  {q : Nat} {y : Child}

namespace Sandbox.Seat

theorem setChild (h : s.Seat i c r x q y) {f : Child → Child}
    (hfolder : ∀ y, (f y).folder = y.folder) (halive : (f y).alive = y.alive)
    (hanswers : ∀ a ∈ (f y).script.replies, a ∈ y.script.replies) :
    Seat { s with children := s.children.modify q f } i c r x q (f y) :=
  { h with
    sane := h.sane.modifyChild q hfolder
    process := Table.getElem?_modify_eq_some.mpr ⟨y, h.process, by rw [if_pos rfl]⟩
    alive := halive.trans h.alive
    answers := fun ha => h.answers (hanswers _ ha) }

theorem setRecord (h : s.Seat i c r x q y) {f : Record → Record}
    (hf : ∀ x, (f x).handle = x.handle ∧ (f x).folder = x.folder)
    (hbusy : ∀ x, (x.state = .busy → x.locked = true) → (f x).state = .busy → (f x).locked = true) :
    Seat { s with records := s.records.modify r f } i c r (f x) q y :=
  { h with
    sane := h.sane.modifyRecord r hf hbusy
    record := Table.getElem?_modify_eq_some.mpr ⟨x, h.record, by rw [if_pos rfl]⟩
    handle := by
      rw [(hf x).1]
      exact h.handle }

theorem setChallenge (h : s.Seat i c r x q y) {f : Challenge → Challenge}
    (hf : ∀ c, (f c).key = c.key) :
    Seat { s with challengeTable := s.challengeTable.modify i f } i (f c) r x q y :=
  { h with
    sane := h.sane.modifyChallenge i hf
    challenge := Table.getElem?_modify_eq_some.mpr ⟨c, h.challenge, by rw [if_pos rfl]⟩
    session := by
      rw [hf]
      exact h.session }

theorem pass (h : s.Seat i c r x q y) (ms : Int) :
    Seat { s with clock := s.clock + ms } i c r x q y :=
  { h with sane := { h.sane with } }

theorem writeShown (h : s.Seat i c r x q y) (p : Path) (content : Content) :
    Seat { s with folders := s.folders.update p fun f => { f with shown := some content } }
      i c r x q y :=
  { h with sane := h.sane.folders (h.sane.metadata.update fun _ _ hj => .inl hj) }

end Sandbox.Seat

/-! ### Requests -/

namespace Process

variable {path : String}

end Process

/-! ### Using a session -/

namespace Sandbox.Seat

theorem held (h : s.Seat i c r x q y) :
    (Registry.held s r).Seat i c r { x with state := .busy, locked := true } q y :=
  h.setRecord (f := fun x => { x with state := .busy, locked := true }) (fun _ => ⟨rfl, rfl⟩)
    fun _ _ _ => rfl

end Sandbox.Seat

namespace Process

end Process

end Rerun
