import Rerun.Grading
import Rerun.Proofs.Sandbox.Reach
import Rerun.Proofs.Text.Lines

/-!
What the judge is given to read. An execution for which no interpreter starts is sent to the judge
with its values as one text, and no text at all when that is empty. Read line by line the text gives
the values back, unless the last one is blank, which is then missing.
-/

namespace Rerun

open Sandbox Op

variable {s t : Sandbox} {others : Interrupts}

/-! ### Values as a text -/

theorem intercalate_concat {α : Type} (sep : List α) {pieces : List (List α)} (hne : pieces ≠ [])
    (last : List α) :
    List.intercalate sep (pieces ++ [last]) = List.intercalate sep pieces ++ sep ++ last := by
  induction pieces with
  | nil => exact absurd rfl hne
  | cons p rest ih =>
      cases rest with
      | nil => simp [List.intercalate_cons_cons]
      | cons q rest =>
          rw [List.cons_append, List.cons_append, List.intercalate_cons_cons, ← List.cons_append,
            ih (List.cons_ne_nil q rest), List.intercalate_cons_cons]
          simp

theorem lines_joinLines {ls : List String} (hne : ls ≠ []) (h : ∀ v ∈ ls, '\n' ∉ v.toList) :
    (Text.splitAt '\n' (List.intercalate ['\n'] (ls.map String.toList))).map String.ofList =
      ls := by
  rw [Text.splitAt_intercalate (mt List.map_eq_nil_iff.mp hne), List.map_map]
  · simp
  · intro p hp
    obtain ⟨v, hv, rfl⟩ := List.mem_map.mp hp
    exact h v hv

theorem splitStdin_joinLines {values : List String} (h : ∀ v ∈ values, '\n' ∉ v.toList) :
    splitStdin (Text.joinLines values) =
      if values.getLast? = some "" then values.dropLast else values := by
  obtain rfl | ⟨init, last, rfl⟩ := List.eq_nil_or_concat values
  · rfl
  rw [List.concat_eq_append] at h ⊢
  have htext := Text.toList_joinLines (init ++ [last])
  have hinit : ∀ v ∈ init, '\n' ∉ v.toList := fun v hv => h v (List.mem_append_left _ hv)
  rw [List.map_append, List.map_singleton] at htext
  rw [List.getLast?_concat, List.dropLast_concat]
  by_cases hlast : last = ""
  · subst hlast
    rw [if_pos rfl]
    cases init with
    | nil => rfl
    | cons v rest =>
        -- The blank value leaves a newline behind, which is read as the end of the one before.
        have hrest : (v :: rest).map String.toList ≠ [] := List.cons_ne_nil _ _
        rw [intercalate_concat _ hrest, String.toList_empty, List.append_nil] at htext
        have hne : Text.joinLines (v :: rest ++ [""]) ≠ "" := by
          intro hempty
          rw [hempty] at htext
          simp at htext
        rw [splitStdin, if_neg hne]
        dsimp only
        rw [htext, List.getLast?_concat, if_pos rfl, List.dropLast_concat]
        exact lines_joinLines (List.cons_ne_nil v rest) hinit
  · have hends : (Text.joinLines (init ++ [last])).toList.getLast? = last.toList.getLast? := by
      have hsome : last.toList.getLast?.isSome = true :=
        List.getLast?_isSome.mpr (mt String.toList_eq_nil_iff.mp hlast)
      rw [htext]
      cases init with
      | nil => rw [List.map_nil, List.nil_append, List.intercalate_singleton]
      | cons v rest =>
          have hrest : (v :: rest).map String.toList ≠ [] := List.cons_ne_nil _ _
          rw [intercalate_concat _ hrest, List.getLast?_append, Option.or_of_isSome hsome]
    have hnewline : (Text.joinLines (init ++ [last])).toList.getLast? ≠ some '\n' := by
      rw [hends]
      intro hmem
      exact h last (by simp) (List.mem_of_getLast? hmem)
    have hne : Text.joinLines (init ++ [last]) ≠ "" := by
      intro hempty
      rw [hempty] at hends
      exact hlast (String.toList_eq_nil_iff.mp (List.getLast?_eq_none_iff.mp hends.symm))
    rw [if_neg fun heq => hlast (Option.some.inj heq), splitStdin, if_neg hne]
    dsimp only
    rw [if_neg hnewline, htext, ← List.map_singleton (f := String.toList), ← List.map_append]
    exact lines_joinLines (by simp) h

/-- The values that the judge reads from a submission, one on a line; without an input there are
none. -/
def Submission.inputOf (body : Json) : List String := splitStdin (body.textOf "stdin")

theorem Submission.textOf_stdin (source stdin : String) (expected : Option String) :
    (toJson ⟨source, if stdin = "" then none else some stdin, expected⟩).textOf "stdin" =
      stdin := by
  by_cases h : stdin = "" <;> cases expected <;>
    simp [toJson, h, Json.textOf, Json.field?, Json.str?, List.lookup_cons]

/-! ### The log of requests -/

/-- Other clients who send requests to the judge at most; what was sent stays sent. -/
def Interrupts.Noting (others : Interrupts) : Prop :=
  ∀ commands (s : Sandbox), s.remoteRequests <+: (others commands s).remoteRequests

namespace Op

variable {α β : Type}

/-- An operation that may send requests to the judge and takes none back. -/
def Notes (x : Op α) : Prop :=
  ∀ ⦃others : Interrupts⦄, others.Noting → ∀ s : Sandbox,
    s.remoteRequests <+: (x others s).2.remoteRequests

namespace Notes

theorem of_same {x : Op α}
    (h : ∀ others (s : Sandbox), (x others s).2.remoteRequests = s.remoteRequests) : Notes x :=
  fun others _ s => (h others s).symm ▸ List.prefix_rfl

theorem pure (a : α) : Notes (pure a) := of_same fun _ _ => rfl

theorem fail (e : Failure) : Notes (Op.fail e : Op α) := of_same fun _ _ => rfl

theorem view (f : Sandbox → α) : Notes (Op.view f) := of_same fun _ _ => rfl

theorem ofExcept (r : Except Failure α) : Notes (Op.ofExcept r) := by
  cases r with
  | ok a => exact .pure a
  | error e => exact .fail e

theorem interleave (commands : List Command) : Notes (Op.interleave commands) :=
  fun _ ho s => ho commands s

theorem after {sent : List RemoteRequest} {x : Op α} {f : α → Op β} (ho : others.Noting)
    (h : sent <+: (x others s).2.remoteRequests) (hf : ∀ a, Notes (f a)) :
    sent <+: ((x >>= f) others s).2.remoteRequests := by
  rw [bind_apply]
  rcases hr : x others s with ⟨e | a, t⟩ <;> rw [hr] at h
  · exact h
  · exact h.trans (hf a ho t)

theorem bind {x : Op α} {f : α → Op β} (hx : Notes x) (hf : ∀ a, Notes (f a)) :
    Notes (x >>= f) :=
  fun _ ho s => after ho (hx ho s) hf

theorem rescue {x : Op α} {other : Failure → Op α} (hx : Notes x) (hother : ∀ e, Notes (other e)) :
    Notes (Op.rescue x other) := by
  intro others ho s
  have h := hx ho s
  unfold Op.rescue
  rcases hr : x others s with ⟨e | a, t⟩ <;> rw [hr] at h
  · exact h.trans (hother e ho t)
  · exact h

theorem ite {p : Prop} [Decidable p] {x y : Op α} (hx : Notes x) (hy : Notes y) :
    Notes (if p then x else y) := by
  split
  · exact hx
  · exact hy

end Notes

end Op

theorem Interpreter.notes_readBody (b : Body) : (readBody b).Notes := by
  unfold readBody
  split
  · exact .pure _
  · exact .fail _
  · split
    · exact .pure _
    · exact .fail _

namespace RemoteClient

theorem notes_nextScripted : nextScripted.Notes := .of_same fun _ s => by
  unfold nextScripted
  split <;> rfl

/-- A request after it was sent: its answer is waited for and read. -/
def answered (c : RemoteClient) (method path : String) : Op Json := do
  let r ← nextScripted
  Op.change fun s => { s with clock := s.clock + r.took }
  Op.interleave r.during
  match r.ended with
  | none => Op.fail (.remoteUnreachable c.baseUrl "script exhausted")
  | some .interrupt => Op.fail .interrupted
  | some (.fault f) => Op.fail (.remoteUnreachable c.baseUrl f.message)
  | some (.answer status body) =>
    if Interpreter.isSuccess status then
      Op.rescue (Interpreter.readBody body) fun _ => Op.fail (.remoteNotJson method path)
    else Op.fail (.remoteStatus status method path)

theorem notes_answered (c : RemoteClient) (method path : String) :
    (c.answered method path).Notes := by
  refine .bind notes_nextScripted fun r => .bind (.of_same fun _ _ => rfl) fun _ => ?_
  refine .bind (.interleave r.during) fun _ => ?_
  split
  · exact .fail _
  · exact .fail _
  · exact .fail _
  · exact .ite (.rescue (Interpreter.notes_readBody _) fun _ => .fail _) (.fail _)

def sent (c : RemoteClient) (method path query : String) (body : Json) (s : Sandbox) : Sandbox :=
  { s with remoteRequests := s.remoteRequests ++
    [⟨method, requestUrl c.baseUrl path query, body, c.credentials⟩] }

def IsOpen (c : RemoteClient) (s : Sandbox) : Prop := (c.shared && s.remoteClosed) = false

theorem request_eq {c : RemoteClient} (h : c.IsOpen s) (method path query : String) (body : Json)
    (others : Interrupts) : c.request method path query body others s =
      c.answered method path others (c.sent method path query body s) := by
  have hopen : c.ensureOpen.Does s () s := fun _ => by
    have h : (c.shared && s.remoteClosed) = false := h
    simp [ensureOpen, bind_apply, Op.view, h]
  exact (hopen.step _ others).trans ((does_change _).step _ others)

theorem notes_request (c : RemoteClient) (method path query : String) (body : Json) :
    (c.request method path query body).Notes := by
  have hopen : c.ensureOpen.Notes := .bind (.view _) fun _ => .ite (.fail _) (.pure _)
  exact .bind hopen fun _ => .bind (fun _ _ _ => List.prefix_append _ _) fun _ =>
    notes_answered c method path

theorem notes_poll (c : RemoteClient) (token : Json) : (c.poll token).Notes := by
  refine .ite (.fail _) (.bind (notes_request c _ _ _ _) fun payload => ?_)
  split
  · exact .pure _
  · exact .fail _

theorem notes_pollUntil (c : RemoteClient) (token : Json) (deadline : Binary64) (cancel : Cancel)
    (fuel : Nat) : (c.pollUntil token deadline cancel fuel).Notes := by
  have hwait : (cancel.wait c.pollInterval).Notes := .of_same fun _ s => by
    unfold Cancel.wait
    dsimp only
    repeat' split
    all_goals rfl
  induction fuel with
  | zero => exact .pure _
  | succ fuel ih =>
      refine .bind (.view _) fun t => .ite (.pure _) ?_
      refine .bind (.view _) fun set => .ite (.pure _) (.bind (notes_poll c token) fun r => ?_)
      exact .ite (.pure _) (.bind hwait fun set => .ite (.pure _) ih)

theorem notes_execute (c : RemoteClient) {source stdin : String} {expected : Option String}
    (maxWait : Binary64) (cancel : Cancel) {sent : List RemoteRequest} (hothers : others.Noting)
    (h : sent <+: (c.submit source stdin expected others s).2.remoteRequests) :
    sent <+: (c.execute source stdin expected maxWait cancel others s).2.remoteRequests := by
  refine Notes.after hothers h fun token => .bind (.view _) fun t => .bind (.view _) fun fuel =>
    .bind (notes_pollUntil c token _ cancel fuel) fun polled => ?_
  split
  · exact .pure _
  · exact .pure _
  · exact .pure _
  · split
    · exact .pure _
    · exact .fail _

theorem submit_sent {c : RemoteClient} (h : c.IsOpen s) (hothers : others.Noting)
    (source stdin : String) (expected : Option String) :
    (c.sent "POST" "/submissions" "?base64_encoded=false&wait=false"
      (Submission.toJson ⟨source, if stdin = "" then none else some stdin, expected⟩)
      s).remoteRequests <+: (c.submit source stdin expected others s).2.remoteRequests := by
  refine Notes.after hothers ?_ fun payload => ?_
  · rw [request_eq h]
    exact notes_answered c _ _ hothers _
  · split
    · exact .ite (.fail _) (.pure _)
    · exact .fail _

end RemoteClient

namespace Execution

theorem executeRemote_sent {c : RemoteClient} (h : c.IsOpen s) (hothers : others.Noting)
    (maxWait : Binary64) (r : Request) (started : Int) :
    (c.sent "POST" "/submissions" "?base64_encoded=false&wait=false"
      (Submission.toJson ⟨r.source.text, if Text.joinLines r.values = "" then none
        else some (Text.joinLines r.values), none⟩) s).remoteRequests <+:
      (executeRemote c maxWait r started others s).2.remoteRequests := by
  have helapsed : (elapsedMs started).Notes := .bind (.view _) fun _ => .pure _
  refine Notes.after hothers (c.notes_execute maxWait r.cancel hothers
    (RemoteClient.submit_sent h hothers _ _ _)) fun response => ?_
  split
  · exact .bind helapsed fun _ => .pure _
  · exact .bind helapsed fun _ => .bind (.ofExcept _) fun _ => .pure _

/-- When no interpreter starts for an execution, the judge is given the values of its queue: it
reads them as they are exactly when the last one is not blank, and misses a last one that is. -/
theorem submitted_agrees_iff {listener : String → Op Unit} {r : Request} {e : Failure}
    {c : RemoteClient} (hothers : others.Noting)
    (hacquire : Registry.acquire listener (some r.key) others s = (.error e, t))
    (hkind : e.kind = .initialization) (hremote : t.setup.remote = some c) (hopen : c.IsOpen t)
    (hlines : ∀ v ∈ r.values, '\n' ∉ v.toList) (consumed : Int → Op Unit) :
    ∃ q, t.remoteRequests ++ [q] <+: (execute listener consumed r others s).2.remoteRequests ∧
      q.method = "POST" ∧ q.body.textOf "source_code" = r.source.text ∧
      (Submission.inputOf q.body = r.values ↔ r.values.getLast? ≠ some "") ∧
      (r.values.getLast? = some "" → Submission.inputOf q.body = r.values.dropLast) := by
  have hsent := executeRemote_sent hopen hothers t.setup.remoteMaxWait r t.clock
  rw [← execute_of_judge hacquire hkind hremote] at hsent
  have hinput : Submission.inputOf (Submission.toJson ⟨r.source.text,
      if Text.joinLines r.values = "" then none else some (Text.joinLines r.values), none⟩) =
      if r.values.getLast? = some "" then r.values.dropLast else r.values := by
    rw [Submission.inputOf, Submission.textOf_stdin, splitStdin_joinLines hlines]
  refine ⟨_, hsent, rfl, ?_, ?_, fun hlast => ?_⟩
  · simp [Submission.toJson, Json.textOf, Json.field?, Json.str?]
  · rw [hinput]
    split
    · rename_i hlast
      refine iff_of_false (fun heq => ?_) (not_not_intro hlast)
      -- One value fewer is not as many.
      have hne : r.values ≠ [] := fun hnil => by simp [hnil] at hlast
      have hlength := congrArg List.length heq
      have hpos := List.length_pos_iff.mpr hne
      rw [List.length_dropLast] at hlength
      omega
    · rename_i hlast
      exact iff_of_true rfl hlast
  · rw [hinput, if_pos hlast]

end Execution

def Failure.hasKind {α : Type} (kind : FailureKind) : Except Failure α → Bool
  | .ok _ => false
  | .error e => e.kind = kind

theorem Failure.hasKind_iff {α : Type} {kind : FailureKind} {r : Except Failure α} :
    hasKind kind r = true ↔ ∃ e, r = .error e ∧ e.kind = kind := by
  cases r with
  | ok a => simp [hasKind]
  | error e => simp [hasKind]

def Sandbox.judged : Sandbox :=
  { usual with
    setup := { usual.setup with
      remote := some { baseUrl := "https://judge", pollInterval := .ofInt 1, shared := true } }
    scripts := [{ spawnFailure := some "no" }, { spawnFailure := some "no" }] }

namespace Execution

/-- The judge reads one value where the program was given two. -/
theorem submitted_agrees_iff_blank : ∃ (r : Request) (t : Sandbox) (q : RemoteRequest),
    r.values = ["a", ""] ∧
    t.remoteRequests ++ [q] <+:
      (execute (fun _ => pure ()) (fun _ => pure ()) r (fun _ s => s) judged).2.remoteRequests ∧
    Submission.inputOf q.body = ["a"] := by
  let r : Request :=
    { source := ⟨"", "", ""⟩, key := "k", values := ["a", ""], timeout := .ofInt 10 }
  obtain ⟨hfails, hremote, hclosed⟩ :
      let acquired := Registry.acquire (fun _ => pure ()) (some r.key) (fun _ s => s) judged
      Failure.hasKind .initialization acquired.1 = true ∧
        acquired.2.setup.remote.isSome = true ∧ acquired.2.remoteClosed = false := by
    decide +kernel
  obtain ⟨e, he, hkind⟩ := Failure.hasKind_iff.mp hfails
  obtain ⟨c, hc⟩ := Option.isSome_iff_exists.mp hremote
  have hopen : c.IsOpen _ := (congrArg (c.shared && ·) hclosed).trans (Bool.and_false _)
  obtain ⟨q, hq, -, -, -, hinput⟩ := submitted_agrees_iff (fun _ _ => List.prefix_rfl)
    (Prod.ext he rfl) hkind hc hopen (r := r) (by decide) fun _ => pure ()
  exact ⟨r, _, q, rfl, hq, hinput rfl⟩

end Execution

end Rerun
