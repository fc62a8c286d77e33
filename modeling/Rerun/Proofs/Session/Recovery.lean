import Rerun.Proofs.Sandbox.Reach
import Rerun.Proofs.Sandbox.Reactions
import Rerun.Proofs.Sandbox.Steps
import Rerun.Proofs.Text.Lines

/-!
What is recovered of the output of a program whose interpreter was lost. A program writes its output
down in the folder of its session, from where it is read when the interpreter does not answer any
more (`Interpreter.execute_recovers`). So an answer that is a refusal recovers nothing, a program
that never started recovers what an earlier one has left, and a carriage return is read as a
newline; in all other cases the output is recovered as it was written (`Execution.recovered_iff`).
-/

namespace Rerun

open Sandbox Op

variable {s t u v : Sandbox} {others : Interrupts}

def Content.written : Content → String
  | .text s => s
  | .raw bs => Text.decode bs

theorem Content.read_eq (content : Content) : content.read = Text.foldNewlines content.written := by
  cases content <;> rfl

/-- What a reader sees after a text was to be written down, in a folder that need not be there. -/
theorem Folders.shownText_update_of_has {fs : Folders} {p : Path} (content : Content) :
    (fs.update p fun f => { f with shown := some content }).shownText p =
      if fs.has p then content.read else "" := by
  cases h : fs.has p with
  | true => simpa using shownText_update h content
  | false =>
      have hnone : fs.find? p = none := by simpa [has] using h
      simp [shownText, find?_update, hnone]

theorem Folders.shownText_of_not_has {fs : Folders} {p : Path} (h : fs.has p = false) :
    fs.shownText p = "" := by
  have hnone : fs.find? p = none := by simpa [has] using h
  simp [shownText, hnone]

namespace Process

variable {i : Nat} {y : Child} {a : Scripted}

/-- What the program of a request writes when the request has arrived, if it starts: what the
process was to show, or what the program shows when the interpreter itself runs it. Without its
folder, or dead, a process starts nothing. -/
def writes (i : Nat) (r : Execution.Request) (a : Scripted) (t : Sandbox) : Option String :=
  (t.children[i]?).bind fun c =>
    if t.folders.has c.folder then
      if a.ended.isNone && c.alive then some (Program.transcript (r.endedAt t.appliedSeed).2.shown)
      else a.shown.map Content.written
    else none

/-- What can be read in the folder of a process when a request has ended there: what its program
wrote, or, if none was started, what was there before. -/
def readable (p : Path) (wrote : Option String) (t : Sandbox) : String :=
  match wrote with
  | some text => Text.foldNewlines text
  | none => t.folders.shownText p

theorem does_writeScripted (hy : t.children[i]? = some y) (a : Scripted) :
    ∃ u, (writeScripted i a).Does t () u ∧ u.children = t.children ∧
      u.appliedSeed = t.appliedSeed ∧ u.folders.has y.folder = t.folders.has y.folder ∧
      u.folders.shownText y.folder = readable y.folder
        (if t.folders.has y.folder then a.shown.map Content.written else none) t := by
  have hchild : (child i).Does t y t := does_need hy
  unfold writeScripted
  cases a.shown with
  | none => exact ⟨t, does_pure _, rfl, rfl, rfl, by simp [readable]⟩
  | some content =>
      refine ⟨_, hchild.bind (does_change _), rfl, rfl, by simp [Folders.has_update], ?_⟩
      rw [Folders.shownText_update_of_has, Content.read_eq]
      cases h : t.folders.has y.folder with
      | true => simp [readable]
      | false => simp [readable, Folders.shownText_of_not_has h]

/-- When a request to run a program has ended, its process has written down what can be read. -/
theorem does_react (ht : t.Sane) (hy : t.children[i]? = some y) (r : Execution.Request)
    (a : Scripted) : ∃ e v, (react i "/run" r.body a).Does t e v ∧ t.Passes v ∧
      v.folders.shownText y.folder = readable y.folder (writes i r a t) t := by
  suffices h : ∃ e v, (react i "/run" r.body a).Does t e v ∧
      v.folders.shownText y.folder = readable y.folder (writes i r a t) t by
    obtain ⟨e, v, hdoes, hshown⟩ := h
    exact ⟨e, v, hdoes, (serves_passes.react i "/run" r.body a).of_does hdoes, hshown⟩
  obtain ⟨u, hwrite, hchildren, hseed, hhas, hshown⟩ := does_writeScripted hy a
  have hu : u.Sane := ((serves_passes.writeScripted i a).of_does hwrite).sane ht
  have hwrites : writes i r a t = if t.folders.has y.folder then
      (if a.ended.isNone && y.alive then some (Program.transcript (r.endedAt t.appliedSeed).2.shown)
        else a.shown.map Content.written) else none := by
    simp [writes, hy]
  have hy' : u.children[i]? = some y := hchildren ▸ hy
  cases hended : a.ended with
  | some e =>
      refine ⟨e, u, hwrite.bind ?_, ?_⟩
      · rw [hended]
        exact does_pure e
      · simp [hshown, hwrites, hended]
  | none =>
      cases halive : y.alive with
      | false =>
          refine ⟨.fault refusal, u, hwrite.bind ?_, by simp [hshown, hwrites, halive]⟩
          have hchild : (child i).Does u y u := does_need hy'
          rw [hended]
          refine hchild.bind ?_
          rw [halive]
          exact does_pure _
      | true =>
          have hattends : Attends i y.folder u u := .refl hu hy' halive
          cases hp : t.folders.has y.folder with
          | false =>
              refine ⟨homeless u.setup, u, hwrite.bind ?_, by simp [hshown, hwrites, hp]⟩
              have hserve := does_serveRun_missing hattends (hhas.trans hp) r.asked
              rw [hended]
              exact fun others => (serve_run hattends r).trans (hserve others)
          | true =>
              rcases hprogram : r.endedAt u.appliedSeed with ⟨ending, m⟩
              obtain ⟨v, hserve, -, hread⟩ := does_serveRun hattends (hhas.trans hp) r hprogram
              refine ⟨endedBy (Serving.runAnswer ending m), v, hwrite.bind ?_, ?_⟩
              · rw [hended]
                exact fun others => (serve_run hattends r).trans (hserve others)
              · rw [hseed] at hprogram
                simp [hread, hwrites, hp, hended, halive, hprogram, readable,
                  Execution.Request.remains]

end Process

/-- Other clients who leave a sane sandbox sane, and each interpreter and each handle on one in the
folder where it is. -/
def Interrupts.Stationary (others : Interrupts) : Prop :=
  ∀ (commands : List Command) (s : Sandbox), s.Sane → (others commands s).Sane ∧
    (∀ (i : Nat) (y : Child), s.children[i]? = some y →
      ∃ z : Child, (others commands s).children[i]? = some z ∧ z.folder = y.folder) ∧
    ∀ (h : Nat) (x : Handle), s.handles[h]? = some x →
      ∃ y : Handle, (others commands s).handles[h]? = some y ∧ y.folder = x.folder

theorem Interrupts.Absent.stationary (h : others.Absent) : others.Stationary := by
  intro commands s hs
  rw [h]
  exact ⟨hs, fun _ y hy => ⟨y, hy, rfl⟩, fun _ x hx => ⟨x, hx, rfl⟩⟩

namespace Process

variable {i : Nat} {y : Child}

theorem does_nextScripted_of_child (hy : t.children[i]? = some y) (body : Json) :
    ∃ a u, (nextScripted i "/run" body).Does t a u := by
  cases hby : t.byInputs with
  | some table =>
      refine ⟨(table.lookup (inputsKey body)).getD { ended := some (.answer 500 .absent) }, t,
        .bind (does_view _) ?_⟩
      rw [hby]
      exact does_pure _
  | none =>
      cases hreplies : y.script.replies with
      | nil =>
          exact ⟨{}, t, does_nextScripted_of_replies hby (does_nextReply_nil hy hreplies)⟩
      | cons a rest =>
          exact ⟨a, _, does_nextScripted_of_replies hby (does_nextReply_cons hy hreplies)⟩

/-- A request arrives at its process; only others may have done more meanwhile than what takes
time. -/
theorem arrive_eq (others : Interrupts) (hy : s.children[i]? = some y) (body : Json) :
    ∃ a u, arrive i "/run" body others s = (.ok a, others a.during u) ∧ s.Passes u := by
  have hnote : (setChild i fun c => { c with posts := c.posts ++ [("/run", body)] }).Passes :=
    .setChild i fun _ => ⟨rfl, rfl, id, id⟩
  have hy₁ : (noted i "/run" body s).children[i]? =
      some { y with posts := y.posts ++ [("/run", body)] } :=
    Table.getElem?_modify_eq_some.mpr ⟨y, hy, by rw [if_pos rfl]⟩
  obtain ⟨a, t, hscripted⟩ := does_nextScripted_of_child hy₁ body
  have hnoted : s.Passes (noted i "/run" body s) := hnote.of_does (does_change _)
  have hnext := (serves_passes.nextScripted i "/run" body).of_does hscripted
  have hclock : t.Passes { t with clock := t.clock + a.took } :=
    (Op.Passes.setClock fun s => s.clock + a.took).of_does (does_change _)
  refine ⟨a, _, ?_, (hnoted.trans hnext).trans hclock⟩
  refine ((does_change _).step _ others).trans ((hscripted.step _ others).trans ?_)
  exact (does_change _).step _ others

end Process

namespace Failure

/-- Whether it was looked up what the program had written when its interpreter was lost. -/
def looksUp : Failure → Bool
  | .exceeded .. | .stoppedResponding .. => true
  | _ => false

end Failure

namespace Interpreter

variable {h : Nat} {x : Handle} {r : Execution.Request} {e : Failure}

/-- Where a request to run a program arrives that is sent through a handle, what is to happen to it
there, and in which state. -/
def arrival (h : Nat) (r : Execution.Request) (others : Interrupts) (s : Sandbox) :
    Option (Nat × Scripted × Sandbox) :=
  match (s.handles[h]?).bind (·.child) with
  | none => none
  | some c =>
    match Process.arrive c "/run" r.body others s with
    | (.ok a, t) => some (c, a, t)
    | (.error _, _) => none

/-- What the program of a request writes, if it starts. -/
def wrote (h : Nat) (r : Execution.Request) (others : Interrupts) (s : Sandbox) : Option String :=
  (arrival h r others s).bind fun (c, a, t) => Process.writes c r a t

/-- What can be read in a folder when a request to run a program arrives: the output of an earlier
program, as far as the program of the request does not replace it. -/
def leftover (h : Nat) (r : Execution.Request) (others : Interrupts) (s : Sandbox) (p : Path) :
    String :=
  ((arrival h r others s).map fun (_, _, t) => t.folders.shownText p).getD ""

/-- A failure that loses an interpreter carries what was read if it was looked up. -/
theorem partialOutput_of_given {timeout : Binary64} {text : String} {ended : Ended}
    (hgiven : given "/run" timeout text ended = .error e) (hl : e.losesInterpreter = true) :
    e.partialOutput = if e.looksUp then text else "" := by
  cases ended with
  | interrupt =>
      obtain rfl := Except.error.inj hgiven
      cases hl
  | answer status body =>
      rw [given] at hgiven
      split at hgiven
      · have hunread : ∀ e, jsonOf body = .error e → e.losesInterpreter = false := by
          intro e he
          cases body with
          | json j => cases he
          | absent => rw [← Except.error.inj he]; rfl
          | text s =>
              rw [jsonOf] at he
              cases hread : Json.readBody s with
              | ok j => rw [hread] at he; cases he
              | error fault => rw [hread] at he; rw [← Except.error.inj he]; rfl
        cases hl.symm.trans (hunread e hgiven)
      · obtain rfl := Except.error.inj hgiven
        rfl
  | fault f =>
      cases f with
      | timeout message =>
          obtain rfl := Except.error.inj hgiven
          rfl
      | transport reason =>
          obtain rfl := Except.error.inj hgiven
          rfl
      | protocol name message =>
          obtain rfl := Except.error.inj hgiven
          cases hl

/-- What is recovered of the output of a program: nothing when it is not looked up, and else what
can be read in the folder of its session. -/
theorem execute_recovers (hs : s.Sane) (ho : others.Stationary) (hx : s.handles[h]? = some x)
    (hlost : execute h r.body r.timeout others s = (.error e, t)) (hl : e.losesInterpreter = true) :
    t.Sane ∧ e.partialOutput = if e.looksUp then
      (match wrote h r others s with
        | some text => Text.foldNewlines text
        | none => leftover h r others s x.folder) else "" := by
  cases hc : x.child with
  | none =>
      have hnone : execute h r.body r.timeout others s = (.error .notRunning, s) := by
        have hhandle : handle h others s = (.ok x, s) := does_need hx others
        have haddressee : addressee h r.body others s = (.error .notRunning, s) := by
          rw [addressee, bind_of_eq_ok hhandle, hc]
          rfl
        exact bind_of_eq_error haddressee _
      obtain ⟨he, rfl⟩ := Prod.mk.inj (hnone.symm.trans hlost)
      obtain rfl := Except.error.inj he
      exact ⟨hs, rfl⟩
  | some c =>
      obtain ⟨y, hy, hplace⟩ := hs.handle hx hc
      obtain ⟨a, u, harrive, hpasses⟩ := Process.arrive_eq others hy r.body
      have harrival : arrival h r others s = some (c, a, others a.during u) := by
        simp [arrival, hx, hc, harrive]
      -- The others may have taken the process from its handle, but both stay in their folder.
      obtain ⟨y', hy', hplace'⟩ := Table.getElem?_of_map_eq hpasses.places hy
      obtain ⟨hw, hprocess, hhandle⟩ := ho a.during u (hpasses.sane hs)
      obtain ⟨z, hz, hzy⟩ := hprocess c y' hy'
      obtain ⟨x', hx', hxx⟩ := hhandle h x (hpasses.handles ▸ hx)
      have hfolder : z.folder = x.folder := hzy.trans (hplace'.trans hplace)
      obtain ⟨ended, v, hreact, hreacted, hshown⟩ := Process.does_react hw hz r a
      have hx'' : v.handles[h]? = some x' := hreacted.handles ▸ hx'
      obtain ⟨t', hheard, ht, -⟩ := heard_eq others (hreacted.sane hw) hx'' r.timeout ended
      have hexecute : execute h r.body r.timeout others s = (given "/run" r.timeout
          (Process.readable x.folder (wrote h r others s) (others a.during u)) ended, t') := by
        rw [execute, post_of_child hx hc r.hasNonFinite_body, Process.post, Op.bind_assoc]
        refine (bind_of_eq_ok harrive _).trans ((hreact.step _ others).trans (hheard.trans ?_))
        rw [hxx, ← hfolder, hshown, wrote, harrival]
        rfl
      obtain ⟨hgiven, rfl⟩ := Prod.mk.inj (hexecute.symm.trans hlost)
      refine ⟨ht, ?_⟩
      have hread : Process.readable x.folder (wrote h r others s) (others a.during u) =
          match wrote h r others s with
          | some text => Text.foldNewlines text
          | none => leftover h r others s x.folder := by
        rw [leftover, harrival]
        rfl
      rw [hread] at hgiven
      exact partialOutput_of_given hgiven hl

end Interpreter

namespace Execution

open Registry

variable {r : Request} {key : String} {i : Nat} {x : Record} {e : Failure}

/-- An execution that loses its interpreter has an outcome, and what that shows is what its own
program wrote, in three cases out of four. A program that started is shown as it wrote, unless it
wrote something and the answer was a refusal, or it wrote a carriage return; for one that did not
start nothing is shown, unless it is looked up and an earlier program has left something. -/
theorem recovered_iff (hs : s.Sane) (ho : others.Stationary) (consumed : Int → Op Unit)
    (hacquire : acquire Contexts.onSweep (some r.key) others s = (.ok key, t))
    (hhold : hold key others t = (.ok i, u)) (hx : u.records[i]? = some x)
    (hlost : Interpreter.execute x.handle r.body r.timeout others u = (.error e, v))
    (hl : e.losesInterpreter = true) :
    ∃ ms w, execute Contexts.onSweep consumed r others s = (.ok (lostOutcome r e ms), w) ∧
      ((lostOutcome r e ms).stdout = (Interpreter.wrote x.handle r others u).getD "" ↔
        match Interpreter.wrote x.handle r others u with
        | some text => text = "" ∨ e.looksUp = true ∧ '\r' ∉ text.toList
        | none => e.looksUp = true → Interpreter.leftover x.handle r others u x.folder = "") := by
  have ht : t.Sane := by
    have hgoes := goes_acquire (some r.key) others s hs
    rw [hacquire] at hgoes
    exact hgoes.sane hs
  obtain ⟨y, hkey, hy, hfree, rfl⟩ := hold_eq_ok hhold
  have hu : (held t i).Sane := sane_held ht i
  obtain ⟨-, z, hz, hfolder⟩ := hu.record hx
  obtain ⟨hv, hpartial⟩ := Interpreter.execute_recovers hu ho hz hlost hl
  obtain ⟨w, hreset, -⟩ := does_reset (hv.lost i) key
  have hrelease : (release key i .lost).Does v () w := (does_change _).bind hreset
  have hholding : holding key (fun h => Interpreter.execute h r.body r.timeout) others t =
      (do release key i (departure e); Op.fail e : Op Json) others v :=
    holding_eq_error hhold hx hlost
  rw [departure_eq_lost.mpr hl, hrelease.step] at hholding
  obtain ⟨ms, htime⟩ : ∃ ms, elapsedMs t.clock others w = (.ok ms, w) := ⟨_, rfl⟩
  have hexecute : execute Contexts.onSweep consumed r others s = (.ok (lostOutcome r e ms), w) := by
    rw [execute_of_acquired hacquire]
    exact executeLocal_eq_lost hholding hl htime
  refine ⟨ms, w, hexecute, ?_⟩
  have hstdout : (lostOutcome r e ms).stdout = e.partialOutput := by
    unfold lostOutcome
    split <;> rfl
  rw [hstdout, hpartial, hfolder]
  cases hwrote : Interpreter.wrote x.handle r others (held t i) with
  | none => cases e.looksUp <;> simp
  | some text =>
      cases e.looksUp with
      | false => simp [eq_comm]
      | true =>
          have hempty : text = "" → '\r' ∉ text.toList := by
            rintro rfl
            exact List.not_mem_nil
          simpa [Text.foldNewlines_eq_self_iff] using hempty

/-- A session on which a program has run, and whose interpreter is not going to hear the next
request. -/
def unheard : Sandbox :=
  orderly 1 [.execute { code := "[\"print\", \"old\"]" } "k" [] none .interactive (.ofInt 10) true
    none .noEvent] { usual with
      scripts := [{ replies := [{}, { ended := some (.fault (.transport "refused")) }] }] }

/-- Another program on that session. -/
def unheardRequest : Request :=
  { source := { code := "[\"print\", \"new\"]" }, key := "k", values := [], timeout := .ofInt 10 }

/-- What the earlier program has shown is taken for the output of one that never started. -/
theorem recovered_iff_unheard : ∃ (i : Nat) (x : Record) (t u : Sandbox) (e : Failure) (ms : Int)
    (w : Sandbox), acquire Contexts.onSweep (some "k") (orderly 0) unheard = (.ok "k", t) ∧
      hold "k" (orderly 0) t = (.ok i, u) ∧ u.records[i]? = some x ∧
      Interpreter.wrote x.handle unheardRequest (orderly 0) u = none ∧
      execute Contexts.onSweep (fun _ => pure ()) unheardRequest (orderly 0) unheard =
        (.ok (lostOutcome unheardRequest e ms), w) ∧
        (lostOutcome unheardRequest e ms).stdout ≠ "" := by
  have habsent : (orderly 0).Absent := fun _ _ => rfl
  have hs : unheard.Sane :=
    ((Reachable.fresh ⟨rfl, rfl, rfl, rfl, rfl, rfl, rfl, rfl, rfl⟩).orderly 1 _).sound.toSane
  have hkey : (acquire Contexts.onSweep (some "k") (orderly 0) unheard).1.toOption = some "k" := by
    decide +kernel
  -- The record of the session, and what becomes of the request that is sent through its handle.
  have hrecord : (held (acquire Contexts.onSweep (some "k") (orderly 0) unheard).2
    0).records[0]?.any
      (fun x =>
        let u := held (acquire Contexts.onSweep (some "k") (orderly 0) unheard).2 0
        Interpreter.wrote x.handle unheardRequest (orderly 0) u = none ∧
        Interpreter.leftover x.handle unheardRequest (orderly 0) u x.folder ≠ "" ∧
        (match (Interpreter.execute x.handle unheardRequest.body unheardRequest.timeout (orderly 0)
            u).1 with
          | .error e => e.losesInterpreter && e.looksUp
          | .ok _ => false) = true) = true := by
    decide +kernel
  have hfree : (hold "k" (orderly 0)
      (acquire Contexts.onSweep (some "k") (orderly 0) unheard).2).1.toOption = some 0 := by
    decide +kernel
  rcases hacquire : acquire Contexts.onSweep (some "k") (orderly 0) unheard with ⟨_ | key, t⟩ <;>
    rw [hacquire] at hkey hrecord hfree
  · exact absurd hkey nofun
  obtain rfl := Option.some.inj hkey
  rcases hhold : hold "k" (orderly 0) t with ⟨_ | i, u⟩ <;> rw [hhold] at hfree
  · exact absurd hfree nofun
  obtain rfl := Option.some.inj hfree
  obtain ⟨-, -, -, -, rfl⟩ := hold_eq_ok hhold
  obtain ⟨x, hx, hfound⟩ := (Option.any_eq_true _ _).mp hrecord
  obtain ⟨hwrote, hleft, hlost⟩ := of_decide_eq_true hfound
  rcases hexecute : Interpreter.execute x.handle unheardRequest.body unheardRequest.timeout
    (orderly 0) (held t 0) with ⟨e | reply, v⟩ <;> rw [hexecute] at hlost
  · obtain ⟨hloses, hlooks⟩ := Bool.and_eq_true_iff.mp hlost
    obtain ⟨ms, w, hresult, hiff⟩ := recovered_iff (r := unheardRequest) hs habsent.stationary
      (fun _ => pure ()) hacquire hhold hx hexecute hloses
    rw [hwrote] at hiff
    exact ⟨0, x, t, held t 0, e, ms, w, rfl, hhold, hx, hwrote, hresult,
      fun h => hleft (hiff.mp h hlooks)⟩
  · exact absurd hlost nofun

end Execution

end Rerun
