import Rerun.Proofs.Sandbox.Answers

/-!
What becomes of a request to run a program, whatever the interpreter does: it may answer itself, or
something else may happen that was written down for it. While nobody else acts, that depends on how
the interpreter behaves and on the seed in force, and on nothing else (`Request.saysTo`).
-/

namespace Rerun

open Sandbox Op

variable {s t : Sandbox} {others : Interrupts}

def Scripted.said (a : Scripted) : String := (a.shown.map Content.read).getD ""

/-- What happens when an interpreter is asked to run a program on values: what the table says, if
there is one, and else the next thing that was written down for the process. -/
def Process.reaction (byInputs : Option (List (String × Scripted))) (replies : List Scripted)
    (values : List String) : Scripted :=
  match byInputs with
  | some table =>
    (table.lookup (Text.joinLines values)).getD { ended := some (.answer 500 .absent) }
  | none => replies.headD {}

/-! ### Outcomes -/

namespace Execution

/-- Whether an outcome can be made depends on the parts that come from elsewhere. -/
theorem checked_eq_ok {fields : List (String × Json)} {o o' : Outcome}
    (h : checked fields o = .ok o') : o' = o ∧ ∀ q, checked fields q = .ok q := by
  unfold checked at h ⊢
  split at h
  · exact ⟨(Except.ok.inj h).symm, fun _ => rfl⟩
  · cases h

/-- The outcome of a reply depends on the time only in what it says of the time. -/
theorem outcomeOf_time {r : Request} {fields : List (String × Json)} {ms : Int} {o : Outcome}
    (h : outcomeOf r fields ms = .ok o) (ms' : Int) :
    outcomeOf r fields ms' = .ok { o with timeMs := ms' } := by
  unfold outcomeOf at h ⊢
  dsimp only at h ⊢
  split at h
  · rename_i hok
    obtain ⟨rfl, hall⟩ := checked_eq_ok h
    rw [if_pos hok, hall]
  · rename_i hok
    rw [if_neg hok]
    split at h
    · rename_i hwaits
      obtain ⟨rfl, hall⟩ := checked_eq_ok h
      rw [if_pos hwaits, hall]
    · rename_i hwaits
      rw [if_neg hwaits]
      split at h
      · rename_i error _
        rcases hmessage : describe error r.source.prependLines with e | message <;>
          rw [hmessage] at h
        · cases h
        · obtain ⟨rfl, hall⟩ := checked_eq_ok h
          exact hall _
      · cases h

namespace Request

variable {r : Request}

/-- An end of a request to run a program of which an outcome can be made, unless the interpreter
itself answers: a fault of the connection, a refusal, or a reply that can be read. -/
def Reads (r : Request) : Option Ended → Prop
  | none => True
  | some .interrupt => False
  | some (.fault (.protocol ..)) => False
  | some (.fault _) => True
  | some (.answer status body) => Interpreter.isSuccess status = true → ∃ fields n o,
      Interpreter.jsonOf body = .ok (.obj fields) ∧ consumedOf fields = .ok n ∧
      outcomeOf r fields 0 = .ok o

/-- What a request to run a program gives when an interpreter reacts to it, where a seed is in
force. -/
def saysTo (r : Request) (seed : Option Int) (a : Scripted) : Except Failure Json :=
  match a.ended with
  | none => r.saidAt (r.endedAt seed).1 (r.endedAt seed).2
  | some e => Interpreter.given "/run" r.timeout a.said e

/-- The outcome of a program for which no value was left and that nobody answers. -/
def unanswered (r : Request) (m : Program.Machine) (timeMs : Int) : Outcome :=
  let error := errorLine "EOFError" Feed.endMessage none r.source.prependLines
  { status := .runtimeError, stdout := Program.transcript m.shown,
    stderr := m.errors ++ error ++ "\n", error := some error, timeMs, runId := r.runId }

theorem comes_suspended (hmode : r.mode = .batch) (prompt : String) (m : Program.Machine) :
    Comes r (r.unanswered m) (r.saidAt (.suspended prompt) m) := by
  refine .reply (n := m.feed.taken) rfl fun ms => ?_
  have hdescribe := describe_eq_errorLine "EOFError" (.str Feed.endMessage) none
    r.source.prependLines
  simp only [Json.ofOption, Value.messageText_str] at hdescribe
  simp [outcomeOf, Serving.statusName, Serving.promptOf, Serving.errorOf, List.lookup_cons,
    Json.str?, Json.isFalsy, hmode, endOfInput, hdescribe, checked, textIssue, stated, unanswered,
    asText, Value.ofJson, Value.text, bind, Except.bind]

theorem comes_saysTo {a : Scripted} (hreads : r.Reads a.ended) (seed : Option Int) :
    ∃ o, Comes r o (r.saysTo seed a) := by
  rw [saysTo]
  cases hended : a.ended with
  | none =>
      rcases r.endedAt seed with ⟨ending, m⟩
      by_cases hwaits : ∃ prompt, ending = .suspended prompt ∧ r.mode = .batch
      · obtain ⟨prompt, rfl, hmode⟩ := hwaits
        exact ⟨_, comes_suspended hmode prompt m⟩
      · refine ⟨_, comes_saidAt (fun prompt hprompt => ?_) m⟩
        cases hmode : r.mode with
        | interactive => rfl
        | batch => exact absurd ⟨prompt, hprompt, hmode⟩ hwaits
  | some e =>
      rw [hended] at hreads
      cases e with
      | interrupt => exact hreads.elim
      | answer status body =>
          simp only [Interpreter.given]
          cases hsuccess : Interpreter.isSuccess status with
          | false => exact ⟨_, .lost rfl fun _ => rfl⟩
          | true =>
              obtain ⟨fields, n, o, hbody, hn, ho⟩ := hreads hsuccess
              rw [if_pos rfl, hbody]
              exact ⟨fun ms => { o with timeMs := ms }, .reply hn (outcomeOf_time ho)⟩
      | fault f =>
          cases f with
          | timeout message => exact ⟨_, .lost rfl fun _ => rfl⟩
          | transport reason => exact ⟨_, .lost rfl fun _ => rfl⟩
          | protocol name message => exact hreads.elim

/-- The outcomes that a request comes to at different times differ in what they say of the time. -/
theorem Comes.time {o : Int → Outcome} {out : Except Failure Json} (h : Comes r o out)
    (ms ms' : Int) : o ms' = { o ms with timeMs := ms' } := by
  cases h with
  | reply _ hout => exact Except.ok.inj ((hout ms').symm.trans (outcomeOf_time (hout ms) ms'))
  | @lost e _ ho =>
      rw [← ho ms, ← ho ms', lostOutcome, lostOutcome]
      split <;> rfl

end Request

end Execution

/-! ### Processes -/

namespace Process

variable {i : Nat} {p : Path} {y : Child}

theorem inputsKey_body (r : Execution.Request) : inputsKey r.body = Text.joinLines r.values := by
  have htexts : r.values.filterMap (Json.str? ∘ Json.str) = r.values := List.filterMap_some
  have hitems : r.body.itemsOf "inputs" = r.values.map .str := by
    simp [Execution.Request.body, Json.itemsOf, Json.field?, Json.items, List.lookup_cons]
  rw [inputsKey, hitems, List.filterMap_map, htexts]

theorem does_nextScripted_run (ht : Attends i p s t) (hz : t.children[i]? = some y)
    (r : Execution.Request) : ∃ u, (nextScripted i "/run" r.body).Does t
      (reaction t.byInputs y.script.replies r.values) u ∧ Attends i p s u ∧
      u.appliedSeed = t.appliedSeed ∧ u.folders = t.folders := by
  cases hby : t.byInputs with
  | some table =>
      have hkey : (table.lookup (inputsKey r.body)).getD { ended := some (.answer 500 .absent) } =
          reaction (some table) y.script.replies r.values := by
        rw [inputsKey_body]
        rfl
      refine ⟨t, .bind (does_view _) ?_, ht, rfl, rfl⟩
      rw [hby, ← hkey]
      exact does_pure _
  | none =>
      cases hreplies : y.script.replies with
      | nil =>
          exact ⟨t, does_nextScripted_of_replies hby (does_nextReply_nil hz hreplies), ht, rfl, rfl⟩
      | cons a rest =>
          exact ⟨_, does_nextScripted_of_replies hby (does_nextReply_cons hz hreplies),
            ht.setChild fun _ => ⟨rfl, rfl⟩, rfl, rfl⟩

/-- When a request to run a program arrives at a process, it is settled how the process reacts. -/
theorem arrive_reaction (habsent : others.Absent) (hs : s.Sane) (hy : s.children[i]? = some y)
    (halive : y.alive = true) (r : Execution.Request) :
    ∃ t, arrive i "/run" r.body others s =
        (.ok (reaction s.byInputs y.script.replies r.values), t) ∧ Attends i y.folder s t ∧
      t.appliedSeed = s.appliedSeed ∧ t.folders = s.folders := by
  have h₁ := (Attends.refl hs hy halive).setChild (f := fun c =>
    { c with posts := c.posts ++ [("/run", r.body)] }) fun _ => ⟨rfl, rfl⟩
  have hy₁ : (noted i "/run" r.body s).children[i]? =
      some { y with posts := y.posts ++ [("/run", r.body)] } :=
    Table.getElem?_modify_eq_some.mpr ⟨y, hy, by rw [if_pos rfl]⟩
  obtain ⟨u, hscripted, h₂, hseed, hfolders⟩ := does_nextScripted_run h₁ hy₁ r
  have hscripted : (nextScripted i "/run" r.body).Does (noted i "/run" r.body s)
    (reaction s.byInputs y.script.replies r.values) u := hscripted
  refine ⟨_, arrive_of_scripted hscripted (habsent _ _), h₂.pass _, hseed, hfolders⟩

/-- What is written down of a reaction is what the program has shown then. -/
theorem attends_writeScripted (ht : Attends i p s t) (hhas : t.folders.has p = true)
    (hlacks : t.folders.Lacks (·.shown) p) (a : Scripted) :
    ∃ u, (writeScripted i a).Does t () u ∧ Attends i p s u ∧ u.appliedSeed = t.appliedSeed ∧
      u.folders.shownText p = a.said := by
  cases hshown : a.shown with
  | none =>
      rw [writeScripted, hshown]
      refine ⟨t, does_pure (), ht, rfl, ?_⟩
      rw [Folders.shownText, hlacks, Scripted.said, hshown]
  | some content =>
      rw [writeScripted, hshown]
      obtain ⟨z, hz, hfolder, -⟩ := ht.process
      have hchild : (child i).Does t z t := does_need hz
      refine ⟨_, hchild.bind (does_change _), ht.writeShown z.folder content, rfl, ?_⟩
      rw [hfolder, Scripted.said, hshown]
      exact Folders.shownText_update hhas content

end Process

namespace Interpreter

/-- A process reacts to a request to run a program that has arrived: something may be shown, and the
request ends, or the interpreter itself answers. -/
theorem react_heard (others : Interrupts) (hs : s.Sane) {h c : Nat} {x : Handle} {y : Child}
    (hx : s.handles[h]? = some x) (hc : x.child = some c) (hy : s.children[c]? = some y)
    (halive : y.alive = true) (hlacks : s.folders.Lacks (·.shown) x.folder)
    (hhas : s.folders.has x.folder = true) (r : Execution.Request) (a : Scripted) :
    ∃ t, (Process.react c "/run" r.body a >>= heard h "/run" r.timeout) others s =
        (r.saysTo s.appliedSeed a, t) ∧ t.Sane ∧ s.SameTables t := by
  obtain ⟨y', hy', hfolder⟩ := hs.handle hx hc
  obtain rfl := Option.some.inj (hy.symm.trans hy')
  rw [← hfolder] at hlacks hhas
  obtain ⟨t, hwrite, ht, hseed, hsaid⟩ :=
    Process.attends_writeScripted (Process.Attends.refl hs hy halive) hhas hlacks a
  have hhas : t.folders.has y.folder = true := (ht.has _).trans hhas
  have hx' : t.handles[h]? = some x := by
    rw [ht.handles]
    exact hx
  rw [hfolder] at hsaid
  cases hended : a.ended with
  | some e =>
      have hreact : Process.react c "/run" r.body a others s = (.ok e, t) := by
        rw [Process.react, hended]
        exact hwrite.step _ others
      obtain ⟨u, hheard, hu, hsame⟩ := heard_eq others ht.sane hx' r.timeout e
      refine ⟨u, (bind_of_eq_ok hreact _).trans (hheard.trans ?_), hu, ht.tables.trans hsame⟩
      rw [Execution.Request.saysTo, hended, hsaid]
  | none =>
      rcases hprogram : r.endedAt t.appliedSeed with ⟨ending, m⟩
      obtain ⟨u, hserve, hu, hshown⟩ := Process.does_serveRun ht hhas r hprogram
      rw [hfolder] at hshown
      have hx'' : u.handles[h]? = some x := by
        rw [hu.handles]
        exact hx
      obtain ⟨v, hheard, hv, hsame⟩ := heard_eq others hu.sane hx'' r.timeout
        (Process.endedBy (Serving.runAnswer ending m))
      have hreact : Process.react c "/run" r.body a others s =
          (.ok (Process.endedBy (Serving.runAnswer ending m)), u) := by
        rw [Process.react, hended]
        exact (hwrite.step _ others).trans ((Process.serve_run ht r).trans (hserve others))
      refine ⟨v, (bind_of_eq_ok hreact _).trans (hheard.trans ?_), hv, hu.tables.trans hsame⟩
      rw [Execution.Request.saysTo, hended, hshown, given_endedBy, ← hseed, hprogram]

/-- What a request to run a program gives depends on how the interpreter reacts to it. -/
theorem execute_reaction (habsent : others.Absent) (hs : s.Sane) {h c : Nat} {x : Handle}
    {y : Child} (hx : s.handles[h]? = some x) (hc : x.child = some c)
    (hy : s.children[c]? = some y) (halive : y.alive = true)
    (hlacks : s.folders.Lacks (·.shown) x.folder) (hhas : s.folders.has x.folder = true)
    (r : Execution.Request) :
    ∃ t, execute h r.body r.timeout others s = (r.saysTo s.appliedSeed
        (Process.reaction s.byInputs y.script.replies r.values), t) ∧ t.Sane ∧ s.SameTables t := by
  obtain ⟨t, harrive, ht, hseed, hfolders⟩ := Process.arrive_reaction habsent hs hy halive r
  obtain ⟨z, hz, -, hzalive⟩ := ht.process
  have hx' : t.handles[h]? = some x := by
    rw [ht.handles]
    exact hx
  rw [← hfolders] at hlacks hhas
  obtain ⟨u, hreact, hu, hsame⟩ := react_heard others ht.sane hx' hc hz hzalive hlacks hhas r
    (Process.reaction s.byInputs y.script.replies r.values)
  rw [hseed] at hreact
  refine ⟨u, ?_, hu, ht.tables.trans hsame⟩
  rw [execute, post_of_child hx hc r.hasNonFinite_body, Process.post, Op.bind_assoc,
    bind_of_eq_ok harrive]
  exact hreact

end Interpreter

end Rerun
