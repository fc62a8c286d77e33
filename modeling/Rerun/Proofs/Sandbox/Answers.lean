import Rerun.Proofs.Sandbox.Acquire
import Rerun.Proofs.Sandbox.Exchange

/-!
Executions on a session whose interpreter answers itself, while nobody else acts. The program is run
when the folder of the session is there; without it the request is refused.
-/

namespace Rerun

open Sandbox Op

variable {s t u : Sandbox} {others : Interrupts}

theorem Folders.shownText_update {fs : Folders} {p : Path} (h : fs.has p = true)
    (content : Content) :
    (fs.update p fun f => { f with shown := some content }).shownText p = content.read := by
  obtain ⟨f, hf⟩ := Option.isSome_iff_exists.mp h
  rw [shownText, find?_update, if_pos rfl, hf]
  rfl

/-- A run is refused only for an exception that the session does not report. -/
theorem Serving.runAnswer_refused {ending : Ending Unit} {m : Program.Machine} {status : Int}
    (h : runAnswer ending m = .refused status) : status = 500 := by
  have hreply (body : Json) (h : Answer.ofReply body = .refused status) : status = 500 := by
    unfold Answer.ofReply at h
    split at h
    · exact (Answer.refused.inj h).symm
    · exact absurd h nofun
  cases ending with
  | unreported => exact (Answer.refused.inj h).symm
  | hung => exact absurd h nofun
  | crashed => exact absurd h nofun
  | finished _ => exact hreply _ h
  | suspended prompt => exact hreply _ h
  | failed e => exact hreply _ h
  | malformed line => exact hreply _ h

def Interrupts.Quiet (others : Interrupts) : Prop := ∀ s, others [] s = s

def Interrupts.Absent (others : Interrupts) : Prop := ∀ commands s, others commands s = s

/-- Replies of which the next one is given by the interpreter itself, while nobody else acts. -/
def AnswersNext (replies : List Scripted) : Prop :=
  ∀ r, replies.head? = some r → r.ended = none ∧ r.during = []

/-- A state in which the interpreters, those that there are and those still to be started, answer
their next request themselves. -/
structure Sandbox.Answering (s : Sandbox) : Prop where
  plain : s.byInputs = none
  next {replies : List Scripted} : replies ∈ s.upcoming → AnswersNext replies

namespace Process

variable {i : Nat} {p : Path} {y : Child}

/-- What stays while a process attends to a request: it lives, and no folder comes or goes. -/
structure Attends (i : Nat) (p : Path) (s t : Sandbox) : Prop where
  sane : t.Sane
  tables : s.SameTables t
  handles : t.handles = s.handles
  has (q : Path) : t.folders.has q = s.folders.has q
  process : ∃ z, t.children[i]? = some z ∧ z.folder = p ∧ z.alive = true

namespace Attends

theorem refl (hs : s.Sane) (hy : s.children[i]? = some y) (halive : y.alive = true) :
    Attends i y.folder s s :=
  ⟨hs, .refl s, rfl, fun _ => rfl, y, hy, rfl, halive⟩

theorem setChild (h : Attends i p s t) {f : Child → Child}
    (hf : ∀ c, (f c).folder = c.folder ∧ (f c).alive = c.alive) :
    Attends i p s { t with children := t.children.modify i f } := by
  obtain ⟨z, hz, hfolder, halive⟩ := h.process
  have hz' : (t.children.modify i f)[i]? = some (f z) :=
    Table.getElem?_modify_eq_some.mpr ⟨z, hz, by rw [if_pos rfl]⟩
  exact ⟨h.sane.modifyChild i fun c => (hf c).1, { h.tables with }, h.handles, h.has, f z, hz',
    (hf z).1.trans hfolder, (hf z).2.trans halive⟩

theorem pass (h : Attends i p s t) (ms : Int) :
    Attends i p s { t with clock := t.clock + ms } :=
  ⟨{ h.sane with }, { h.tables with }, h.handles, h.has, h.process⟩

theorem applySeed (h : Attends i p s t) (seed : Option Int) :
    Attends i p s { t with appliedSeed := seed } :=
  ⟨{ h.sane with }, { h.tables with }, h.handles, h.has, h.process⟩

theorem writeShown (h : Attends i p s t) (q : Path) (content : Content) :
    Attends i p s { t with folders := t.folders.update q fun f =>
      { f with shown := some content } } := by
  refine ⟨h.sane.folders (h.sane.metadata.update fun g j hj => .inl hj), { h.tables with },
    h.handles, fun q' => ?_, h.process⟩
  rw [Folders.has_update]
  exact h.has q'

end Attends

def nextReply (i : Nat) : Op Scripted := do
  let c ← child i
  match c.script.replies with
  | r :: rest => do
    setChild i fun c => { c with script := { c.script with replies := rest } }
    pure r
  | [] => pure {}

theorem nextScripted_eq (i : Nat) (path : String) (body : Json) : nextScripted i path body =
    (Op.view (·.byInputs) >>= fun table =>
      match if path = "/run" then table else none with
      | some table =>
        pure ((table.lookup (inputsKey body)).getD { ended := some (.answer 500 .absent) })
      | none => nextReply i) := by
  unfold nextScripted
  congr 1
  funext table
  split
  · rw [if_pos rfl]
  · rename_i hnot
    split
    · rename_i hsome
      split at hsome
      · exact absurd hsome (hnot _ ‹_›)
      · cases hsome
    · rfl

theorem does_nextReply_nil (hy : s.children[i]? = some y) (hreplies : y.script.replies = []) :
    (nextReply i).Does s {} s := by
  have hchild : (child i).Does s y s := does_need hy
  refine hchild.bind ?_
  rw [hreplies]
  exact does_pure _

theorem does_nextReply_cons {r : Scripted} {rest : List Scripted} (hy : s.children[i]? = some y)
    (hreplies : y.script.replies = r :: rest) :
    (nextReply i).Does s r { s with children := s.children.modify i fun c =>
      { c with script := { c.script with replies := rest } } } := by
  have hchild : (child i).Does s y s := does_need hy
  refine hchild.bind ?_
  rw [hreplies]
  exact .bind (does_change _) (does_pure _)

/-- Where no answers are given by the inputs, the replies that are written down are all there is. -/
theorem does_nextScripted_of_replies (hby : s.byInputs = none) {path : String} {body : Json}
    {r : Scripted} {t : Sandbox} (h : (nextReply i).Does s r t) :
    (nextScripted i path body).Does s r t := by
  rw [nextScripted_eq]
  refine .bind (does_view _) ?_
  rw [hby, ite_self]
  exact h

/-- The next thing that happens to a request is one that the process was to do, or nothing. -/
theorem does_nextScripted (ht : Attends i p s t) (hz : t.children[i]? = some y)
    (hby : t.byInputs = none) (hnext : AnswersNext y.script.replies) (path : String)
    (body : Json) : ∃ r u, (nextScripted i path body).Does t r u ∧ r.ended = none ∧
      r.during = [] ∧ Attends i p s u ∧ u.appliedSeed = t.appliedSeed := by
  cases hreplies : y.script.replies with
  | nil =>
      exact ⟨{}, t, does_nextScripted_of_replies hby (does_nextReply_nil hz hreplies), rfl, rfl, ht,
        rfl⟩
  | cons r rest =>
      rw [hreplies] at hnext
      obtain ⟨hended, hduring⟩ := hnext r rfl
      exact ⟨r, _, does_nextScripted_of_replies hby (does_nextReply_cons hz hreplies), hended,
        hduring, ht.setChild fun _ => ⟨rfl, rfl⟩, rfl⟩

def noted (i : Nat) (path : String) (body : Json) (s : Sandbox) : Sandbox :=
  { s with children := s.children.modify i fun c => { c with posts := c.posts ++ [(path, body)] } }

theorem arrive_of_scripted {path : String} {body : Json} {r : Scripted}
    (hscripted : (nextScripted i path body).Does (noted i path body s) r t) {u : Sandbox}
    (hothers : others r.during { t with clock := t.clock + r.took } = u) :
    arrive i path body others s = (.ok r, u) := by
  have hinterleave : interleave r.during others { t with clock := t.clock + r.took } =
      (.ok (), u) := by
    rw [interleave, hothers]
  refine ((does_change _).step _ others).trans ((hscripted.step _ others).trans ?_)
  exact ((does_change _).step _ others).trans (bind_of_eq_ok hinterleave _)

theorem post_of_scripted {path : String} {body : Json} {r : Scripted}
    (hscripted : (nextScripted i path body).Does (noted i path body s) r t) {u : Sandbox}
    (hothers : others r.during { t with clock := t.clock + r.took } = u) :
    post i path body others s = react i path body r others u :=
  bind_of_eq_ok (arrive_of_scripted hscripted hothers) _

theorem react_of_ended {path : String} {body : Json} {r : Scripted} (hended : r.ended = none)
    (hy : s.children[i]? = some y) :
    react i path body r others s = serve i path body others (r.shown.elim s fun content =>
      { s with folders := s.folders.update y.folder fun f =>
        { f with shown := some content } }) := by
  have hchild : (child i).Does s y s := does_need hy
  rw [react, writeScripted, hended]
  cases r.shown with
  | none => rfl
  | some content => exact (hchild.bind (does_change _)).step _ others

theorem post_eq (hquiet : others.Quiet) (hs : s.Sane) (hy : s.children[i]? = some y)
    (halive : y.alive = true) (hby : s.byInputs = none) (hnext : AnswersNext y.script.replies)
    (path : String) (body : Json) :
    ∃ t, post i path body others s = serve i path body others t ∧ Attends i y.folder s t ∧
      t.appliedSeed = s.appliedSeed := by
  -- The request is noted, its reply is taken off the script, and the time passes.
  have h₁ := (Attends.refl hs hy halive).setChild (f := fun c =>
    { c with posts := c.posts ++ [(path, body)] }) fun _ => ⟨rfl, rfl⟩
  have hy₁ : (noted i path body s).children[i]? =
      some { y with posts := y.posts ++ [(path, body)] } :=
    Table.getElem?_modify_eq_some.mpr ⟨y, hy, by rw [if_pos rfl]⟩
  obtain ⟨r, u, hscripted, hended, hduring, h₂, hseed⟩ :=
    does_nextScripted h₁ hy₁ hby hnext path body
  have h₃ := h₂.pass r.took
  have hothers : others r.during { u with clock := u.clock + r.took } =
      { u with clock := u.clock + r.took } := by
    rw [hduring, hquiet]
  obtain ⟨z, hz, -, -⟩ := h₃.process
  refine ⟨_, (post_of_scripted hscripted hothers).trans (react_of_ended hended hz), ?_⟩
  cases r.shown with
  | none => exact ⟨h₃, hseed⟩
  | some content => exact ⟨h₃.writeShown z.folder content, hseed⟩

/-! ### Runs -/

def endedBy : Serving.Answer → Ended
  | .reply body => .answer 200 (.json body)
  | .refused status => .answer status .absent
  | .hung => .fault (.timeout "timed out")
  | .crashed => .fault (.transport "Server disconnected without sending a response.")

/-- What stays when a process has attended to a request, which may have brought it down. -/
structure Attended (s t : Sandbox) : Prop where
  sane : t.Sane
  tables : s.SameTables t
  handles : t.handles = s.handles

theorem Attends.attended (h : Attends i p s t) : Attended s t := ⟨h.sane, h.tables, h.handles⟩

theorem does_delivered (ht : Attends i p s t) (a : Serving.Answer) :
    ∃ u, (delivered i a).Does t (endedBy a) u ∧ Attended s u ∧ u.folders = t.folders := by
  cases a with
  | reply body => exact ⟨t, does_pure _, ht.attended, rfl⟩
  | refused status => exact ⟨t, does_pure _, ht.attended, rfl⟩
  | hung => exact ⟨t, does_pure _, ht.attended, rfl⟩
  | crashed =>
      refine ⟨_, .bind (does_change _) (does_pure _), ⟨?_, { ht.tables with }, ht.handles⟩, rfl⟩
      exact ht.sane.modifyChild i fun _ => rfl

theorem does_serveRun_missing (ht : Attends i p s t) (hp : t.folders.has p = false)
    (request : Serving.RunRequest) : (serveRun i request).Does t (homeless t.setup) t := by
  obtain ⟨z, hz, rfl, -⟩ := ht.process
  have hchild : (child i).Does t z t := does_need hz
  refine hchild.bind (.bind (does_view _) ?_)
  rw [hp]
  exact does_view _

/-- An interpreter runs a program in its folder and writes down what the program shows. -/
theorem does_serveRun (ht : Attends i p s t) (hp : t.folders.has p = true)
    (r : Execution.Request) {ending : Serving.Ending Unit} {m : Program.Machine}
    (hended : r.endedAt t.appliedSeed = (ending, m)) :
    ∃ u, (serveRun i r.asked).Does t (endedBy (Serving.runAnswer ending m)) u ∧
      Attended s u ∧ u.folders.shownText p = Execution.Request.remains m := by
  obtain ⟨z, hz, rfl, -⟩ := ht.process
  have hchild : (child i).Does t z t := does_need hz
  have happly : (applySeed r.asked.seed).Does t (r.seed.or t.appliedSeed)
      { t with appliedSeed := r.seed.or t.appliedSeed } := fun _ => rfl
  have hattempt : Serving.attempt (r.seed.or t.appliedSeed) r.asked = (ending, m) := hended
  have h₁ := ((ht.applySeed (r.seed.or t.appliedSeed)).pass m.elapsed).writeShown z.folder
    (.text (Program.transcript m.shown))
  obtain ⟨u, hdelivered, hu, hfolders⟩ := does_delivered h₁ (Serving.runAnswer ending m)
  refine ⟨u, hchild.bind (.bind (does_view _) ?_), hu, ?_⟩
  · rw [hp]
    refine happly.bind ?_
    rw [hattempt]
    exact .bind (does_change _) (.bind (does_change _) hdelivered)
  · rw [hfolders]
    exact Folders.shownText_update hp _

theorem serve_run (ht : Attends i p s t) (r : Execution.Request) :
    serve i "/run" r.body others t = serveRun i r.asked others t := by
  obtain ⟨z, hz, -, halive⟩ := ht.process
  have hchild : (child i).Does t z t := does_need hz
  refine (hchild.step _ others).trans ?_
  rw [halive, if_neg (by decide), if_pos rfl, r.fitBody_body, ← r.ofFields_body]

theorem post_run (hquiet : others.Quiet) (hs : s.Sane) (hy : s.children[i]? = some y)
    (halive : y.alive = true) (hby : s.byInputs = none) (hnext : AnswersNext y.script.replies)
    (r : Execution.Request) {ending : Serving.Ending Unit} {m : Program.Machine}
    (hended : r.endedAt s.appliedSeed = (ending, m)) :
    ∃ t, post i "/run" r.body others s = (.ok (if s.folders.has y.folder then
        endedBy (Serving.runAnswer ending m) else homeless s.setup), t) ∧
      Attended s t ∧ (s.folders.has y.folder = true →
        t.folders.shownText y.folder = Execution.Request.remains m) := by
  obtain ⟨t, hpost, ht, hseed⟩ := post_eq hquiet hs hy halive hby hnext "/run" r.body
  rw [hpost, serve_run ht, ← ht.has]
  cases hp : t.folders.has y.folder with
  | false =>
      rw [← ht.tables.setup]
      exact ⟨t, does_serveRun_missing ht hp r.asked others, ht.attended, nofun⟩
  | true =>
      rw [← hseed] at hended
      obtain ⟨u, hserve, hu, hshown⟩ := does_serveRun ht hp r hended
      exact ⟨u, hserve others, hu, fun _ => hshown⟩

end Process

namespace Interpreter

theorem does_shown {h : Nat} {x : Handle} (hx : s.handles[h]? = some x) :
    (shownOf h "/run").Does s (s.folders.shownText x.folder) s := by
  have hhandle : (handle h).Does s x s := does_need hx
  rw [shownOf, if_pos rfl]
  exact hhandle.bind (does_view _)

def jsonOf : Body → Except Failure Json
  | .json j => .ok j
  | .absent => .error (.unreadableJson (Json.faultMessage "" ⟨.value, 0⟩))
  | .text s => (Json.readBody s).mapError fun fault => .unreadableJson (Json.faultMessage s fault)

theorem readBody_eq (body : Body) : readBody body = Op.ofExcept (jsonOf body) := by
  cases body with
  | json j => rfl
  | absent => rfl
  | text s =>
      rw [readBody, jsonOf]
      cases Json.readBody s <;> rfl

variable {h q : Nat} {x : Handle} {path : String} {body : Json} {timeout : Binary64}

theorem does_addressee {z : Handle} (hz : s.handles[h]? = some z) (hc : z.child = some q)
    (hfinite : body.hasNonFinite = false) : (addressee h body).Does s q s := by
  have hhandle : (handle h).Does s z s := does_need hz
  refine hhandle.bind ?_
  rw [hc, hfinite]
  exact does_pure q

theorem post_of_child {z : Handle} (hz : s.handles[h]? = some z) (hc : z.child = some q)
    (hfinite : body.hasNonFinite = false) :
    post h path body timeout others s =
      (Process.post q path body >>= heard h path timeout) others s :=
  (does_addressee hz hc hfinite).step _ others

/-- What a request gives when it has ended, and a program that was lost had shown something. -/
def given (path : String) (timeout : Binary64) (shown : String) : Ended → Except Failure Json
  | .interrupt => .error .interrupted
  | .answer status body =>
    if isSuccess status then jsonOf body else .error (.answeredStatus status path)
  | .fault (.timeout _) => .error (.exceeded timeout shown)
  | .fault (.transport reason) => .error (.stoppedResponding reason shown)
  | .fault (.protocol name _) => .error (.other name)

/-- Whatever the end of a run, it is heard of, and the tables stay as they are. -/
theorem heard_eq (others : Interrupts) (hs : s.Sane) (hx : s.handles[h]? = some x)
    (timeout : Binary64) (ended : Ended) :
    ∃ t, heard h "/run" timeout ended others s =
        (given "/run" timeout (s.folders.shownText x.folder) ended, t) ∧ t.Sane ∧
        s.SameTables t := by
  obtain ⟨hkill, hkilled, -⟩ := does_kill hs hx
  cases ended with
  | interrupt => exact ⟨s, rfl, hs, .refl s⟩
  | answer status body =>
      refine ⟨s, ?_, hs, .refl s⟩
      rw [heard, given, readBody_eq]
      split
      · cases jsonOf body <;> rfl
      · rfl
  | fault f =>
      have hshown := does_shown hx
      cases f with
      | timeout message =>
          -- Killing the process changes nothing of what the program has shown.
          have hshown :=
            does_shown (s := { s with children := Process.ending s.children x.child }) hx
          exact ⟨_, (hkill.step _ others).trans ((hshown.step _ others).trans rfl), hkilled,
            { SameTables.refl s with }⟩
      | transport reason =>
          exact ⟨_, (hshown.step _ others).trans ((hkill.step _ others).trans rfl), hkilled,
            { SameTables.refl s with }⟩
      | protocol name message => exact ⟨s, rfl, hs, .refl s⟩

theorem given_endedBy (r : Execution.Request) (ending : Serving.Ending Unit) (m : Program.Machine) :
    given "/run" r.timeout (Execution.Request.remains m)
      (Process.endedBy (Serving.runAnswer ending m)) = r.saidAt ending m := by
  rw [Execution.Request.saidAt]
  cases hanswer : Serving.runAnswer ending m with
  | reply body => rfl
  | refused status =>
      obtain rfl := Serving.runAnswer_refused hanswer
      rfl
  | hung => rfl
  | crashed => rfl

theorem given_homeless (setup : Setup) (timeout : Binary64) (shown : String) :
    given "/run" timeout shown (Process.homeless setup) =
      .error (Execution.Request.homelessness setup) := by
  unfold Process.homeless Execution.Request.homelessness
  split <;> rfl

/-- What a request to run a program gives: an interpreter that answers runs it in its folder, and
does not without one. -/
theorem execute_eq (hquiet : others.Quiet) (hs : s.Sane) {h c : Nat} {x : Handle} {y : Child}
    (hx : s.handles[h]? = some x) (hc : x.child = some c) (hy : s.children[c]? = some y)
    (halive : y.alive = true) (hby : s.byInputs = none) (hnext : AnswersNext y.script.replies)
    (r : Execution.Request) {ending : Serving.Ending Unit} {m : Program.Machine}
    (hended : r.endedAt s.appliedSeed = (ending, m)) :
    ∃ t, execute h r.body r.timeout others s =
        (r.saidIn s.setup (s.folders.has x.folder) ending m, t) ∧ t.Sane ∧ s.SameTables t := by
  obtain ⟨t, hpost, ht, hshown⟩ := Process.post_run hquiet hs hy halive hby hnext r hended
  obtain ⟨y', hy', hfolder⟩ := hs.handle hx hc
  obtain rfl := Option.some.inj (hy.symm.trans hy')
  rw [hfolder] at hpost hshown
  have hx' : t.handles[h]? = some x := by
    rw [ht.handles]
    exact hx
  obtain ⟨u, hheard, hu, hsame⟩ := heard_eq others ht.sane hx' r.timeout
    (if s.folders.has x.folder then Process.endedBy (Serving.runAnswer ending m)
      else Process.homeless s.setup)
  refine ⟨u, ?_, hu, ht.tables.trans hsame⟩
  rw [execute, post_of_child hx hc r.hasNonFinite_body]
  refine (bind_of_eq_ok hpost _).trans (hheard.trans ?_)
  cases hp : s.folders.has x.folder with
  | false =>
      rw [if_neg Bool.false_ne_true, Execution.Request.saidIn, if_neg Bool.false_ne_true,
        given_homeless]
  | true =>
      rw [if_pos rfl, Execution.Request.saidIn, if_pos rfl, hshown hp]
      exact congrArg (·, u) (given_endedBy r _ _)

end Interpreter

theorem eq_ok_of_isSome {α : Type} {r : Except Failure α} (h : r.toOption.isSome = true) :
    ∃ a, r = .ok a := by
  cases r with
  | ok a => exact ⟨a, rfl⟩
  | error e => exact absurd h nofun

theorem Sandbox.answering_of_ordinary (hby : s.byInputs.isNone = true)
    (hempty : s.upcoming.all (·.isEmpty) = true) : s.Answering := by
  refine ⟨Option.isNone_iff_eq_none.mp hby, fun hmem => ?_⟩
  rw [List.isEmpty_iff.mp (List.all_eq_true.mp hempty _ hmem)]
  exact nofun

/-- The interpreter of a session that was got answers its next request itself. -/
theorem Registry.Acquired.answersNext {key : String} {r c : Nat} {x : Record} {y : Child}
    (h : Acquired key s t r x c y) (hanswers : s.Answering) : AnswersNext y.script.replies := by
  obtain h | h := List.mem_cons.mp h.replies
  · rw [h]
    exact nofun
  · exact hanswers.next h

namespace Execution

open Registry

variable {key : String} {r c : Nat} {x : Record} {y : Child} {consumed : Int → Op Unit}
  {req : Request} {n : Int}

/-- What is noted of the values that were read, when a request has given something: their number, if
it was a reply, and nothing is done to the queues besides. -/
inductive Noted (consumed : Int → Op Unit) (others : Interrupts) (s u : Sandbox) :
    Except Failure Json → Prop where
  | reply {fields : List (String × Json)} {n : Int} {v w : Sandbox} : consumedOf fields = .ok n →
      v.queues = s.queues → consumed n others v = (.ok (), w) → u.queues = w.queues →
      Noted consumed others s u (.ok (.obj fields))
  | lost {e : Failure} : u.queues = s.queues → Noted consumed others s u (.error e)

theorem Noted.of_queues {out : Except Failure Json} {others : Interrupts} {u : Sandbox}
    (h : Noted consumed others t u out) (hqueues : t.queues = s.queues) :
    Noted consumed others s u out := by
  cases h with
  | reply hn hv hcounted hu => exact .reply hn (hv.trans hqueues) hcounted hu
  | lost hu => exact .lost (hu.trans hqueues)

/-- A session is let go of when its use has given something that comes to an outcome, and the
outcome is made of that. -/
theorem letGo_concluded (ht : t.Sane) (hr : t.sessions.lookup key = some r)
    (hconsumed : ∀ n, (consumed n).Aside) {o : Int → Outcome} {out : Except Failure Json}
    (hcomes : req.Comes o out) (others : Interrupts) (started : Int) :
    ∃ v ms u, letGo key r out others t = (out, v) ∧
      concluded consumed req key started out others v = (.ok (o ms), u) ∧ u.Sane ∧
      u.engineSeeds = t.engineSeeds ∧ Noted consumed others t u out := by
  cases hcomes with
  | @reply fields n hn hout =>
      have hv : Sane { t with records := t.records.modify r fun x =>
          { x with state := .ready, lastUsed := t.clock, locked := false } } :=
        ht.modifyRecord r (fun _ => ⟨rfl, rfl⟩) fun _ _ h => by cases h
      -- The reply is counted on the session that the key leads to, which is still this one.
      obtain ⟨w, hcounted, hw, hkept⟩ := hconsumed n others _ hv
      have hrw : w.sessions.lookup key = some r := by
        rw [hkept.sessions]
        exact hr
      obtain ⟨ms, htime⟩ : ∃ ms, elapsedMs started others w = (.ok ms, w) := ⟨_, rfl⟩
      obtain ⟨fs, hsettle, hsane⟩ := settle_eq_ok hw hrw hn hcounted htime (hout ms)
      exact ⟨_, ms, _, rfl, hsettle, hsane, hkept.seeds, .reply (v := { t with
        records := t.records.modify r fun x =>
          { x with state := .ready, lastUsed := t.clock, locked := false } }) hn rfl hcounted rfl⟩
  | @lost e hloses ho =>
      have hv : Sane { t with records := t.records.modify r fun x =>
          { x with state := .corrupted, locked := false } } :=
        ht.modifyRecord r (fun _ => ⟨rfl, rfl⟩) fun _ _ h => by cases h
      obtain ⟨w, hreset, hw⟩ := does_reset hv key
      obtain ⟨ms, htime⟩ : ∃ ms, elapsedMs started others w = (.ok ms, w) := ⟨_, rfl⟩
      have hrelease : (release key r .lost).Does t () w := (does_change _).bind hreset
      refine ⟨w, ms, w, ?_, ?_, hw.sane, ?_, .lost ?_⟩
      · rw [letGo, departure_eq_lost.mpr hloses, hrelease.step]
        rfl
      · rw [concluded_lost hloses htime, ho ms]
      · rw [hw.tables]
      · rw [hw.tables]

/-- What an execution on a session comes to when its request comes to an outcome. -/
theorem executeLocal_noted (hr : s.sessions.lookup key = some r)
    (hx : s.records[r]? = some x) (hfree : x.locked = false)
    (hconsumed : ∀ n, (consumed n).Aside) {o : Int → Outcome} {out : Except Failure Json}
    (huse : Interpreter.execute x.handle req.body req.timeout others (held s r) = (out, t))
    (ht : t.Sane) (hsame : (held s r).SameTables t) (hcomes : req.Comes o out) :
    ∃ ms u, executeLocal consumed req key others s = (.ok (o ms), u) ∧ u.Sane ∧
      u.engineSeeds = s.engineSeeds ∧ Noted consumed others s u out := by
  have hx' : (held s r).records[r]? = some { x with state := .busy, locked := true } :=
    Table.getElem?_modify_eq_some.mpr ⟨x, hx, by rw [if_pos rfl]⟩
  have hrt : t.sessions.lookup key = some r := by
    rw [hsame.sessions]
    exact hr
  obtain ⟨v, ms, u, hletGo, hconcluded, hu, hseeds, hnoted⟩ :=
    letGo_concluded ht hrt hconsumed hcomes others s.clock
  have hholding : holding key (fun h => Interpreter.execute h req.body req.timeout) others s =
      (out, v) := (holding_eq_letGo (does_hold hr hx hfree others) hx' huse).trans hletGo
  exact ⟨ms, u, (executeLocal_eq_concluded hholding).trans hconcluded, hu,
    hseeds.trans hsame.engineSeeds, hnoted.of_queues hsame.queues⟩

theorem executeLocal_of_comes (hr : s.sessions.lookup key = some r)
    (hx : s.records[r]? = some x) (hfree : x.locked = false)
    (hconsumed : ∀ n, (consumed n).Aside) {o : Int → Outcome} {out : Except Failure Json}
    (huse : Interpreter.execute x.handle req.body req.timeout others (held s r) = (out, t))
    (ht : t.Sane) (hsame : (held s r).SameTables t) (hcomes : req.Comes o out) :
    ∃ ms u, executeLocal consumed req key others s = (.ok (o ms), u) ∧ u.Sane ∧
      u.engineSeeds = s.engineSeeds := by
  obtain ⟨ms, u, hlocal, hu, hseeds, -⟩ :=
    executeLocal_noted hr hx hfree hconsumed huse ht hsame hcomes
  exact ⟨ms, u, hlocal, hu, hseeds⟩

/-- A failure that does not lose the interpreter is the failure of the execution. -/
theorem executeLocal_leaves (hr : s.sessions.lookup key = some r)
    (hx : s.records[r]? = some x) (hfree : x.locked = false)
    (hconsumed : ∀ n, (consumed n).Aside) {o : Int → Except Failure Outcome}
    {out : Except Failure Json}
    (huse : Interpreter.execute x.handle req.body req.timeout others (held s r) = (out, t))
    (ht : t.Sane) (hsame : (held s r).SameTables t) (hleaves : req.Leaves o out) :
    ∃ ms u, executeLocal consumed req key others s = (o ms, u) ∧ u.Sane ∧
      u.engineSeeds = s.engineSeeds ∧ Noted consumed others s u out := by
  cases hleaves with
  | comes hcomes ho =>
      obtain ⟨ms, u, hlocal, hrest⟩ := executeLocal_noted hr hx hfree hconsumed huse ht hsame hcomes
      exact ⟨ms, u, hlocal.trans (congrArg (·, u) (ho ms).symm), hrest⟩
  | @fails e hkeeps ho =>
      have hx' : (held s r).records[r]? = some { x with state := .busy, locked := true } :=
        Table.getElem?_modify_eq_some.mpr ⟨x, hx, by rw [if_pos rfl]⟩
      have hdeparture : departure e = .failed := by simp [departure, hkeeps]
      have hrelease : (release key r .failed).Does t () { t with
          records := t.records.modify r fun x => { x with state := .ready, locked := false } } :=
        does_change _
      have hv : Sane { t with
          records := t.records.modify r fun x => { x with state := .ready, locked := false } } :=
        ht.modifyRecord r (fun _ => ⟨rfl, rfl⟩) fun _ _ h => by cases h
      have hholding : holding key (fun h => Interpreter.execute h req.body req.timeout) others s =
          (do release key r (departure e); Op.fail e : Op Json) others t :=
        holding_eq_error (does_hold hr hx hfree others) hx' huse
      rw [hdeparture, hrelease.step] at hholding
      exact ⟨0, _, (executeLocal_eq_error hholding hkeeps).trans (congrArg (·, _) (ho 0).symm), hv,
        hsame.engineSeeds, .lost hsame.queues⟩

theorem executeLocal_eq (hquiet : others.Quiet) (hs : s.Sane) (hr : s.sessions.lookup key = some r)
    (hlive : Attached s r x c y) (hby : s.byInputs = none) (hnext : AnswersNext y.script.replies)
    (hconsumed : ∀ n, (consumed n).Aside) {ending : Serving.Ending Unit} {m : Program.Machine}
    (hended : req.endedAt s.appliedSeed = (ending, m))
    (hmode : ∀ prompt, ending = .suspended prompt → req.mode = .interactive) :
    ∃ ms t, executeLocal consumed req key others s =
        (req.resultIn s.setup (s.folders.has x.folder) ending m ms, t) ∧ t.Sane ∧
      t.engineSeeds = s.engineSeeds ∧
      Noted consumed others s t (req.saidIn s.setup (s.folders.has x.folder) ending m) := by
  obtain ⟨z, hz, hc⟩ := hlive.handle
  have hfolder : z.folder = x.folder := by
    obtain ⟨-, z', hz', hfolder⟩ := hs.record hlive.record
    rw [Option.some.inj (hz.symm.trans hz')]
    exact hfolder
  obtain ⟨t, huse, ht, hsame⟩ :=
    Interpreter.execute_eq (s := held s r) hquiet (sane_held hs r) hz hc
    hlive.child hlive.alive hby hnext req hended
  have hhas : (held s r).folders.has z.folder = s.folders.has x.folder := by
    rw [hfolder]
    rfl
  rw [hhas] at huse
  exact executeLocal_leaves hr hlive.record hlive.free hconsumed huse ht hsame
    (Request.leaves_saidIn hmode _ _ m)

theorem execute_of_session (hquiet : others.Quiet) (hanswers : s.Answering)
    (hconsumed : ∀ n, (consumed n).Aside)
    (hacquire : acquire Contexts.onSweep (some req.key) others s = (.ok req.key, t))
    (hacquired : Acquired req.key s t r x c y) {ending : Serving.Ending Unit} {m : Program.Machine}
    (hended : req.endedAt t.appliedSeed = (ending, m))
    (hmode : ∀ prompt, ending = .suspended prompt → req.mode = .interactive) :
    ∃ ms u, execute Contexts.onSweep consumed req others s =
        (req.resultIn t.setup (t.folders.has x.folder) ending m ms, u) ∧ u.Sane ∧
      u.engineSeeds = t.engineSeeds ∧
      Noted consumed others t u (req.saidIn t.setup (t.folders.has x.folder) ending m) := by
  rw [execute_of_acquired hacquire]
  exact executeLocal_eq hquiet hacquired.sane hacquired.session hacquired.attached
    (hacquired.kept.byInputs.trans hanswers.plain) (hacquired.answersNext hanswers) hconsumed hended
    hmode

/-- What an execution comes to when an interpreter can be started for it. -/
theorem execute_eq (hquiet : others.Quiet) (hs : s.Sane) (hanswers : s.Answering)
    (hconsumed : ∀ n, (consumed n).Aside) (hseed : req.seed = some n)
    (hmode : req.mode = .interactive) (hkey : req.key ≠ "") (hfree : Free req.key s)
    {others' : Interrupts} {r₀ : Nat} {t₀ : Sandbox}
    (hstart : start req.key others' s = (.ok r₀, t₀)) :
    ∃ t r x c y ms u, acquire Contexts.onSweep (some req.key) others s = (.ok req.key, t) ∧
      Acquired req.key s t r x c y ∧
      execute Contexts.onSweep consumed req others s =
        (req.resultIn t.setup (t.folders.has x.folder) req.ended.1 req.ended.2 ms, u) ∧
      u.Sane ∧ u.engineSeeds = t.engineSeeds := by
  obtain ⟨t, r, x, c, y, hacquire, hacquired⟩ := acquire_acquired hs hkey hfree hstart
  obtain ⟨ms, u, hexecute, hu, hseeds, -⟩ := execute_of_session hquiet hanswers hconsumed hacquire
    hacquired (Request.endedAt_of_seed hseed _) fun _ _ => hmode
  exact ⟨t, r, x, c, y, ms, u, hacquire, hacquired, hexecute, hu, hseeds⟩

end Execution

end Rerun
