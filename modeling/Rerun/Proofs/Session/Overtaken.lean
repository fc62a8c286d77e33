import Rerun.Proofs.Remote.Polling
import Rerun.Proofs.Sandbox.Cancelled
import Rerun.Proofs.Sandbox.Withdrawals
import Rerun.Proofs.Session.Handouts

/-!
Attempts that are overtaken: their run is cancelled while their request is on its way. However the
request ends, the attempt ends with it, be it a request to an interpreter or one to the judge
(`Contexts.submit_withdraws`). What it still does is to take note of what it has heard and to let go
of its session (`Run.WindsDown`).
-/

namespace Rerun

open Sandbox Op

variable {s t u : Sandbox} {key : String} {i : Nat} {held : Option Nat}

namespace Run

/-- What an attempt may still do when its request is over. It started on the session of a key, of
which it held a record. -/
structure WindsDown (key : String) (i : Nat) (held : Option Nat) (s t : Sandbox) : Prop where
  contexts : t.contexts = s.contexts
  engineSeeds : t.engineSeeds = s.engineSeeds
  /-- No other run is changed, and its own one stays cancelled. -/
  run {j : Nat} : j ≠ i → t.runs[j]? = s.runs[j]?
  abides : Abides i s t
  /-- Runs keep their identifiers, and the keys of their sessions. -/
  named : t.runs.map (fun x => (x.runId, x.key)) = s.runs.map fun x => (x.runId, x.key)
  /-- No session is registered; that of the key may be dropped, and no other one is. -/
  session {k : String} :
    t.sessions.lookup k = s.sessions.lookup k ∨ k = key ∧ t.sessions.lookup k = none
  /-- No record is changed but that which it held, and that of the key. -/
  record {r : Nat} :
    t.records[r]? = s.records[r]? ∨ held = some r ∨ s.sessions.lookup key = some r
  /-- No interpreter is started. -/
  handles : t.handles.length = s.handles.length
  children : t.children.length = s.children.length
  scripts : t.scripts = s.scripts
  /-- The judge is not asked. -/
  remoteRequests : t.remoteRequests = s.remoteRequests

namespace WindsDown

theorem refl (key : String) (i : Nat) (held : Option Nat) (s : Sandbox) :
    WindsDown key i held s s :=
  ⟨rfl, rfl, fun _ => rfl, id, rfl, .inl rfl, .inl rfl, rfl, rfl, rfl, rfl⟩

theorem trans (h : WindsDown key i held s t) (h' : WindsDown key i held t u) :
    WindsDown key i held s u where
  contexts := h'.contexts.trans h.contexts
  engineSeeds := h'.engineSeeds.trans h.engineSeeds
  run hj := (h'.run hj).trans (h.run hj)
  abides := h'.abides ∘ h.abides
  named := h'.named.trans h.named
  session {k} := by
    obtain heq' | hnone := h'.session (k := k)
    · rw [heq']
      exact h.session
    · exact .inr hnone
  record {r} := by
    obtain heq' | hheld | hr := h'.record (r := r)
    · rw [heq']
      exact h.record
    · exact .inr (.inl hheld)
    · -- The record of the key has been that of the key before.
      obtain heq | ⟨-, hnone⟩ := h.session (k := key)
      · exact .inr (.inr (heq.symm.trans hr))
      · exact absurd (hnone.symm.trans hr) nofun
  handles := h'.handles.trans h.handles
  children := h'.children.trans h.children
  scripts := h'.scripts.trans h.scripts
  remoteRequests := h'.remoteRequests.trans h.remoteRequests

instance : IsPreorder Sandbox (WindsDown key i held) where
  refl := refl key i held
  trans _ _ _ := trans

theorem of_none (h : WindsDown key i none s t) : WindsDown key i held s t := by
  refine { h with record := ?_ }
  intro r
  obtain heq | hnone | hr := h.record (r := r)
  · exact .inl heq
  · nomatch hnone
  · exact .inr (.inr hr)

theorem of_registered {r : Nat} (h : WindsDown key i (some r) s t)
    (hr : s.sessions.lookup key = some r) : WindsDown key i none s t := by
  refine { h with record := ?_ }
  intro r'
  obtain heq | hheld | hr' := h.record (r := r')
  · exact .inl heq
  · exact .inr (.inr (hr.trans hheld))
  · exact .inr (.inr hr')

theorem modifyChild (s : Sandbox) (c : Nat) (f : Child → Child) :
    WindsDown key i held s { s with children := s.children.modify c f } :=
  { refl key i held s with children := List.length_modify f s.children c }

theorem modifyHandle (s : Sandbox) (h : Nat) (f : Handle → Handle) :
    WindsDown key i held s { s with handles := s.handles.modify h f } :=
  { refl key i held s with handles := List.length_modify f s.handles h }

theorem modifyRecord (s : Sandbox) (r : Nat) (f : Record → Record) :
    WindsDown key i (some r) s { s with records := s.records.modify r f } := by
  refine { refl key i (some r) s with record := ?_ }
  intro r'
  by_cases hr : r = r'
  · exact .inr (.inl (congrArg some hr))
  · exact .inl (List.getElem?_modify_ne f s.records hr)

theorem modifyRun (s : Sandbox) {f : RunInfo → RunInfo}
    (hf : ∀ x, (f x).cancelled = x.cancelled ∧ (f x).runId = x.runId ∧ (f x).key = x.key) :
    WindsDown key i held s { s with runs := s.runs.modify i f } :=
  { refl key i held s with
    run := fun hj => List.getElem?_modify_ne f s.runs (Ne.symm hj)
    abides := .modify s i fun x => (hf x).1.trans
    named := Table.map_modify (fun x => Prod.ext (hf x).2.1 (hf x).2.2) _ _ }

theorem dropSession (s : Sandbox) :
    WindsDown key i held s { s with sessions := Assoc.drop s.sessions key } := by
  refine { refl key i held s with session := ?_ }
  intro k
  by_cases hk : k = key
  · exact .inr ⟨hk, hk ▸ Assoc.lookup_drop_self _ _⟩
  · exact .inl (Assoc.lookup_drop_of_ne _ hk)

theorem aside (s : Sandbox) (clock : Int) (folders : Folders) (appliedSeed : Option Int) :
    WindsDown key i held s { s with clock, folders, appliedSeed } :=
  { refl key i held s with }

end WindsDown

/-- What an attempt still does in its last turn, in which it has found out how its request has
ended. It held the record that its key led to when it let others act. -/
abbrev Parting (key : String) (i : Nat) (sent u v : Sandbox) : Prop :=
  WindsDown key i (sent.sessions.lookup key) u v

theorem Parting.covers (key : String) (i : Nat) :
    Turns.Covers (Cancelled i) (Parting key i) (WindsDown key i none) :=
  ⟨fun hu h => h.abides hu, fun ht h => h.abides ht, fun h h' => h.trans h'.of_none⟩

/-- What its use of a session that it holds still does in that turn. The sessions are those of `s`
when it lets others act. -/
abbrev Hearing (key : String) (i : Nat) (held : Option Nat) (s sent u v : Sandbox) : Prop :=
  sent.sessions = s.sessions ∧ WindsDown key i held u v

theorem Hearing.covers (key : String) (i : Nat) (held : Option Nat) (s : Sandbox) :
    Turns.Covers (Cancelled i) (Hearing key i held s) (WindsDown key i held) :=
  ⟨fun hu h => h.2.abides hu, fun ht h => h.abides ht, fun h h' => ⟨h.1, h.2.trans h'⟩⟩

end Run

open Run

/-! ### The end of a request to an interpreter -/

namespace Process

theorem windsDown_setChild (c : Nat) (f : Child → Child) :
    (setChild c f).Along (WindsDown key i held) :=
  .change fun s => .modifyChild s c f

theorem serves_windsDown : Serves fun x => x.Along (WindsDown key i held) where
  toChains := Along.chains
  take c _ := windsDown_setChild c _
  elapse _ := .change fun s => .aside s _ _ _
  learn c _ := windsDown_setChild c _
  crash c := windsDown_setChild c _
  seed _ := .change fun s => .aside s _ _ _
  shown _ _ := .change fun s => .aside s _ _ _

/-- Whatever happens to the session of the client while its request is on its way, it does no more
than to hear the answer. -/
theorem withdraws_post (c : Nat) (path : String) (body : Json) (s : Sandbox) :
    (post c path body).Withdraws (Cancelled i) (Hearing key i held s) s := by
  have hcovers := Hearing.covers key i held s
  have harrive : (arrive c path body).Withdraws (Cancelled i) (Hearing key i held s) s := by
    refine .passing (.setChild c fun _ => ⟨rfl, rfl, id, id⟩) fun _ s₁ h₁ => ?_
    refine .passing (serves_passes.nextScripted c path body) fun r s₂ h₂ => ?_
    refine .passing (.setClock _) fun _ s₃ h₃ => ?_
    have hsessions : s₃.sessions = s.sessions := ((h₁.trans h₂).trans h₃).tables.sessions
    exact .bind (.interleave r.during fun u _ => ⟨hsessions, .refl _ _ _ u⟩) hcovers fun _ t =>
      .of_along (.pure r) t
  rw [post]
  exact harrive.bind hcovers fun a t =>
    .of_along (serves_windsDown.react c path body a) t

end Process

namespace Interpreter

theorem windsDown_kill (h : Nat) : (kill h).Along (WindsDown key i held) :=
  Along.chains.kill (fun c {f} _ => Process.windsDown_setChild c f) h

theorem windsDown_reset (h : Nat) : (reset h).Along (WindsDown key i held) :=
  .bind (windsDown_kill h) fun _ => .change fun s => .modifyHandle s h _

/-- A process that does not answer is ended, and no other one is started for it. -/
theorem withdraws_post (h : Nat) (path : String) (body : Json) (timeout : Binary64) (s : Sandbox) :
    (post h path body timeout).Withdraws (Cancelled i) (Hearing key i held s) s := by
  refine .passing (chains_addressee Op.Passes.chains h body) fun c t ht => ?_
  have hheard : Hearing key i held s = Hearing key i held t := by
    unfold Hearing
    rw [ht.tables.sessions]
  rw [hheard]
  exact .bind (Process.withdraws_post c path body t) (Hearing.covers key i held t) fun ended u =>
    .of_along (chains_heard Along.chains (windsDown_kill h) path timeout ended) u

end Interpreter

/-! ### The end of an execution -/

namespace Registry

theorem windsDown_writeJournal (key' : String) (entry : List (String × Json)) :
    (writeJournal key' entry).Along (WindsDown key i held) :=
  Along.chains.writeJournal (fun _ _ => .change fun s => .aside s _ _ _) entry

theorem windsDown_writeMetadata (key' : String) (fields : List (String × Json)) :
    (writeMetadata key' fields).Along (WindsDown key i held) :=
  Along.chains.writeMetadata (fun _ _ => .change fun s => .aside s _ _ _) fields

theorem windsDown_reset : (reset key).Along (WindsDown key i held) :=
  Along.chains.resetSession (windsDown_writeJournal key) (windsDown_writeMetadata key)
    (.change fun s => .dropSession s) Interpreter.windsDown_reset
    fun _ => .change fun s => .aside s _ _ _

theorem windsDown_release (r : Nat) (how : Departure) :
    (release key r how).Along (WindsDown key i (some r)) :=
  Along.chains.release (fun _ => .change fun s => .modifyRecord s r _) windsDown_reset how

theorem windsDown_note (entry : Json) : (note key entry).Along (WindsDown key i none) := by
  refine ⟨(pervades_recalls.note key entry).deaf, fun others s => ?_⟩
  rw [note, (does_view _).step]
  rcases hr : find? s key with _ | r
  · exact .refl _ _ _ s
  · refine WindsDown.of_registered (Along.holds ?_ others s) hr
    refine .bind (.change fun s => .modifyRecord s r _) fun _ => ?_
    split
    · exact .bind (windsDown_writeJournal _ _) fun _ => .bind (.need _) fun info =>
        .bind (.view _) fun now => windsDown_writeMetadata _ _
    · exact .fail _

theorem withdraws_holding {α : Type} {use : Nat → Op α}
    (huse : ∀ h r s, (use h).Withdraws (Cancelled i) (Hearing key i (some r) s) s) (s : Sandbox) :
    (holding key use).Withdraws (Cancelled i) (Parting key i) s := by
  refine .after (pervades_recalls.hold key).isDeaf fun r t ht => ?_
  obtain ⟨x, hr, -, -, rfl⟩ := hold_eq_ok (ht fun _ s => s)
  refine .passing (.need _) fun info v hv => ?_
  have hsessions : v.sessions.lookup key = some r := by
    rw [hv.tables.sessions]
    exact hr
  refine .mono (R := Hearing key i (some r) v) ?_ fun t u w _ h => ?_
  · have hcovers := Hearing.covers key i (some r) v
    exact .bind (.outcome (huse info.handle r v) hcovers) hcovers fun result u =>
      .of_along (Along.chains.letGo (windsDown_release r) result) u
  · rw [Parting, h.1, hsessions]
    exact h.2

end Registry

namespace Execution

theorem windsDown_settle (r : Request) (started : Int) (reply : Json) :
    (settle (markConsumed i) r key started reply).Along (WindsDown key i none) :=
  Along.chains.settle (fun _ => .change fun s => .modifyRun s fun _ => ⟨rfl, rfl, rfl⟩)
    (fun _ _ => Registry.windsDown_note _) started reply

theorem withdraws_executeLocal (r : Request) (s : Sandbox) :
    (executeLocal (markConsumed i) r key).Withdraws (Cancelled i) (Parting key i) s := by
  refine .passing (.view _) fun started t _ => ?_
  have hheld : (Registry.holding key fun h => Interpreter.execute h r.body r.timeout).Withdraws
      (Cancelled i) (Parting key i) t :=
    Registry.withdraws_holding (fun h r s => Interpreter.withdraws_post h _ _ _ s) t
  exact .bind (hheld.outcome (Parting.covers key i)) (Parting.covers key i) fun result u =>
    .of_along (Along.chains.concluded (windsDown_settle r started) result) u

end Execution

/-! ### Executions at the judge -/

namespace Cancel

theorem dueAt_of_cancelled (h : Cancelled i s) : (Cancel.run i).dueAt s = some s.clock := by
  obtain ⟨x, hx, hcancelled⟩ := h
  simp [dueAt, hx, hcancelled]

theorem wait_of_cancelled (h : Cancelled i s) (seconds : Binary64) (others : Interrupts) :
    (Cancel.run i).wait seconds others s = (.ok true, s) := by
  unfold wait
  rw [dueAt_of_cancelled h]
  simp

end Cancel

namespace RemoteClient

variable {c : RemoteClient}

theorem withdraws_request (c : RemoteClient) (method path query : String) (body : Json)
    (s : Sandbox) :
    (c.request method path query body).Withdraws (Cancelled i) (Parting key i) s := by
  have hopen : c.ensureOpen.Passes := .bind (.view _) fun _ => .ite (.fail _) (.pure _)
  have hnote (f : Sandbox → List RemoteRequest) :
      (Op.change fun s => { s with remoteRequests := f s }).Passes :=
    .change fun s => { Sandbox.Passes.refl s with tables := { SameTables.refl s with } }
  refine .passing hopen fun _ _ _ => .passing (hnote _) fun _ _ _ =>
    .passing passes_nextScripted fun r _ _ => .passing (.setClock _) fun _ t _ => ?_
  refine .bind (.interleave r.during fun u _ => .refl _ _ _ u) (Parting.covers key i) fun _ t =>
    .of_along ?_ t
  split
  · exact .fail _
  · exact .fail _
  · exact .fail _
  · exact .ite (.rescue (Along.chains.readBody _) fun _ => .fail _) (.fail _)

theorem withdraws_submit (c : RemoteClient) (source stdin : String) (expected : Option String)
    (s : Sandbox) :
    (c.submit source stdin expected).Withdraws (Cancelled i) (Parting key i) s := by
  refine .bind (withdraws_request c _ _ _ _ s) (Parting.covers key i) fun payload t =>
    .of_along ?_ t
  split
  · exact .ite (.fail _) (.pure _)
  · exact .fail _

theorem withdraws_poll (c : RemoteClient) (token : Json) (s : Sandbox) :
    (c.poll token).Withdraws (Cancelled i) (Parting key i) s := by
  refine .ite (.alone (.fail _) s) ?_
  refine .bind (withdraws_request c _ _ _ _ s) (Parting.covers key i) fun payload t =>
    .of_along ?_ t
  split
  · exact .pure _
  · exact .fail _

/-- A client who looks at the event before each request sends none once the run is cancelled. -/
theorem pollUntil_of_cancelled (h : Cancelled i s) (token : Json) (deadline : Binary64)
    (fuel : Nat) : ∃ polled, ∀ others,
      c.pollUntil token deadline (.run i) fuel others s = (.ok polled, s) := by
  cases fuel with
  | zero => exact ⟨.unfinished, fun others => rfl⟩
  | succ fuel =>
      cases hlt : (Binary64.ofMillis s.clock).lt deadline with
      | false => exact ⟨.outOfTime, fun others => pollUntil_of_late hlt fuel⟩
      | true =>
          exact ⟨.cancelled, fun others => pollUntil_of_set hlt (Cancel.dueAt_of_cancelled h) fuel⟩

theorem withdraws_pollUntil (c : RemoteClient) (token : Json) (deadline : Binary64) (fuel : Nat)
    (s : Sandbox) :
    (c.pollUntil token deadline (.run i) fuel).Withdraws (Cancelled i) (Parting key i) s := by
  induction fuel generalizing s with
  | zero => exact .alone (.pure _) s
  | succ fuel ih =>
      refine .passing (.view _) fun now t _ => .ite (.alone (.pure _) t) ?_
      refine .passing (.view _) fun set t _ => .ite (.alone (.pure _) t) ?_
      refine .bind (withdraws_poll c token t) (Parting.covers key i) fun response t => ?_
      refine .of_withdraws ?_ fun ht => ?_
      · exact .ite (.alone (.pure _) t) (.passing (Cancel.passes_wait _ _) fun set t _ =>
          .ite (.alone (.pure _) t) (ih t))
      · -- The wait after a status that is not final is over at once.
        cases hfinal : response.finished with
        | true => exact ⟨.ok (.response response), t, fun _ => rfl, .refl _ _ _ t⟩
        | false =>
            exact ⟨.ok .cancelled, t, fun others =>
              bind_of_eq_ok (Cancel.wait_of_cancelled ht _ others) _, .refl _ _ _ t⟩

theorem withdraws_execute (c : RemoteClient) (source stdin : String) (expected : Option String)
    (maxWait : Binary64) (s : Sandbox) :
    (c.execute source stdin expected maxWait (.run i)).Withdraws (Cancelled i)
      (Parting key i) s := by
  have hcovers := Parting.covers key i
  refine .bind (withdraws_submit c source stdin expected s) hcovers fun token t => ?_
  refine .bind (.of_along (.view _) t) hcovers fun now t =>
    .bind (.of_along (.view _) t) hcovers fun fuel t => ?_
  refine .bind (.of_withdraws (withdraws_pollUntil c token _ fuel t) fun ht => ?_) hcovers
    fun polled t => .of_along ?_ t
  · obtain ⟨polled, hpolled⟩ := pollUntil_of_cancelled (c := c) ht token _ fuel
    exact ⟨.ok polled, t, hpolled, .refl _ _ _ t⟩
  · split
    · exact .pure _
    · exact .pure _
    · exact .pure _
    · split
      · exact .pure _
      · exact .fail _

end RemoteClient

/-! ### Attempts -/

namespace Execution

theorem withdraws_executeRemote {r : Request} (hcancel : r.cancel = .run i) (remote : RemoteClient)
    (maxWait : Binary64) (started : Int) (s : Sandbox) :
    (executeRemote remote maxWait r started).Withdraws (Cancelled i) (Parting key i) s := by
  unfold executeRemote
  rw [hcancel]
  refine .bind (remote.withdraws_execute _ _ _ _ s) (Parting.covers key i) fun response t =>
    .of_along ?_ t
  split
  · exact .bind (Along.chains.elapsedMs _) fun _ => .pure _
  · exact .bind (Along.chains.elapsedMs _) fun _ => .bind (.ofExcept _) fun _ => .pure _

/-- The getting of a session comes before the request, so that an execution that was sent out needs
none any more. -/
theorem withdraws_execute {r : Request} (hcancel : r.cancel = .run i) (hkey : r.key ≠ "")
    (s : Sandbox) : (execute Contexts.onSweep (markConsumed i) r).Withdraws (Cancelled i)
      (Parting r.key i) s := by
  have hacquire : (Registry.acquire Contexts.onSweep (some r.key)).Deaf :=
    (Registry.recalls_acquire _).isDeaf
  refine .after hacquire.outcome fun result t ht => ?_
  cases result with
  | ok key =>
      have hok :
          Registry.acquire Contexts.onSweep (some r.key) (fun _ s => s) s = (.ok key, t) := by
        obtain ⟨hr, ht⟩ := Prod.mk.inj (ht fun _ s => s)
        exact Prod.ext (Except.ok.inj hr) ht
      obtain rfl := Registry.acquire_eq_ok hkey hok
      exact withdraws_executeLocal r t
  | error e =>
      refine .passing (.view _) fun remote t _ => ?_
      split
      · refine .ite (.passing (.view _) fun started t _ => .passing (.view _) fun maxWait t _ => ?_)
          (.alone (.fail _) t)
        exact withdraws_executeRemote hcancel _ maxWait started t
      · exact .alone (.fail _) t

end Execution

namespace Run

end Run

namespace Contexts

end Contexts

end Rerun
