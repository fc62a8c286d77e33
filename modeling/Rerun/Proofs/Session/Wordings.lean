import Rerun.Proofs.Remote.Escapes
import Rerun.Proofs.Remote.Reduction
import Rerun.Proofs.Sandbox.Hearings
import Rerun.Proofs.Sandbox.Outcomes

/-!
How the errors of executions are worded. An error is told by its type and its message, with the
number of a line before them if it has one; so it is in one line just if its message is. A request
that is lost is told of by a fixed text or by the reason of its connection
(`Execution.execute_explains`), and of what a judge has printed one line is told
(`Execution.executeRemote_summarizes`).
-/

namespace Rerun

open Sandbox Op Program

/-! ### Texts -/

/-- A text that is not empty and is worded as `P` says. It is in one line exactly when certain words
that it repeats are. -/
structure Text.Worded (words : List String) (P : String → Prop) (text : String) : Prop where
  ne : text ≠ ""
  form : P text
  unbroken_iff : Unbroken text ↔ ∀ w ∈ words, Unbroken w

/-- A text that tells of an error by its type and its message, perhaps after the number of a
line. -/
inductive TellsOf (type message : String) : String → Prop where
  | plain : TellsOf type message (errorHead type message)
  | placed {n : Int} : 1 ≤ n →
    TellsOf type message ("Line " ++ Text.decimal n ++ ": " ++ errorHead type message)

theorem tellsOf_errorLine (type message : String) (line : Option Int) (prependLines : Int) :
    TellsOf type message (errorLine type message line prependLines) := by
  cases line with
  | none => exact .plain
  | some n => exact .placed (Int.le_max_left 1 _)

theorem worded_errorLine {type : String} (hne : type ≠ "") (htype : Text.Unbroken type)
    (message : String) (line : Option Int) (prependLines : Int) :
    Text.Worded [message] (TellsOf type message) (errorLine type message line prependLines) where
  ne := Traceback.errorLine_ne_empty hne message line prependLines
  form := tellsOf_errorLine type message line prependLines
  unbroken_iff := by
    rw [Traceback.unbroken_errorLine_iff htype, List.forall_mem_singleton]

/-! ### Numbers -/

namespace Binary64

theorem isLineEnd_of_mem_exponentDigits {e : Int} {c : Char} (h : c ∈ exponentDigits e) :
    Text.isLineEnd c = false := by
  obtain rfl | h := List.mem_cons.mp h
  · split <;> rfl
  · split at h
    · obtain rfl | h := List.mem_cons.mp h
      · rfl
      · exact Text.isLineEnd_of_mem_toDigits h
    · exact Text.isLineEnd_of_mem_toDigits h

theorem isLineEnd_of_mem_pointAt {layout : Layout} {ds : List Char} {place : Int}
    (hds : ∀ c ∈ ds, Text.isLineEnd c = false) : ∀ c ∈ pointAt layout ds place,
      Text.isLineEnd c = false := by
  have hzeros (n : Nat) : ∀ c ∈ List.replicate n '0', Text.isLineEnd c = false := fun c hc =>
    List.eq_of_mem_replicate hc ▸ rfl
  unfold pointAt
  split
  · exact List.forall_mem_append.mpr ⟨List.forall_mem_cons.mpr ⟨rfl,
      List.forall_mem_cons.mpr ⟨rfl, hzeros _⟩⟩, hds⟩
  · split
    · refine List.forall_mem_append.mpr ⟨List.forall_mem_append.mpr ⟨hds, hzeros _⟩, ?_⟩
      split
      · decide
      · exact nofun
    · exact List.forall_mem_append.mpr ⟨fun c hc => hds c (List.mem_of_mem_take hc),
        List.forall_mem_cons.mpr ⟨rfl, fun c hc => hds c (List.mem_of_mem_drop hc)⟩⟩

theorem isLineEnd_of_mem_layout {layout : Layout} {d : Decimal} :
    ∀ c ∈ layout.write d, Text.isLineEnd c = false := by
  have hdigits : ∀ c ∈ d.digits, Text.isLineEnd c = false := fun _ =>
    Text.isLineEnd_of_mem_toDigits
  have hexponent (e : Int) : ∀ c ∈ exponentDigits e, Text.isLineEnd c = false := fun _ =>
    isLineEnd_of_mem_exponentDigits
  unfold Layout.write
  dsimp only
  split
  · exact isLineEnd_of_mem_pointAt hdigits
  · split
    · exact nofun
    · rename_i c hc
      rw [hc] at hdigits
      exact List.forall_mem_cons.mpr ⟨hdigits c List.mem_cons_self,
        List.forall_mem_cons.mpr ⟨rfl, hexponent _⟩⟩
    · rename_i c cs hne hc
      rw [hc] at hdigits
      obtain ⟨hc, hcs⟩ := List.forall_mem_cons.mp hdigits
      exact List.forall_mem_append.mpr ⟨List.forall_mem_cons.mpr ⟨hc,
        List.forall_mem_cons.mpr ⟨rfl, hcs⟩⟩, List.forall_mem_cons.mpr ⟨rfl, hexponent _⟩⟩

theorem unbroken_brief (x : Binary64) : Text.Unbroken x.brief := by
  unfold brief write
  split
  · decide
  · split <;> decide
  · refine Text.unbroken_ofList.mpr (List.forall_mem_append.mpr ⟨?_, isLineEnd_of_mem_layout⟩)
    split
    · decide
    · exact nofun

end Binary64

/-! ### Errors -/

namespace Program

/-- A class that is another one or below it is that one, or it is in the tree. -/
theorem isBelow_known {cls above : String} (h : isBelow cls above = true) :
    cls = above ∨ ∃ c ∈ classTree, c.1 = cls := by
  unfold isBelow ancestors at h
  cases hlookup : classTree.lookup cls with
  | none =>
      rw [hlookup] at h
      exact .inl (List.mem_singleton.mp (List.contains_iff_mem.mp h)).symm
  | some parent =>
      obtain ⟨before, after, hsplit, -⟩ := List.lookup_eq_some_iff.mp hlookup
      exact .inr ⟨(cls, parent), hsplit ▸ List.mem_append_right _ List.mem_cons_self, rfl⟩

theorem isLine_of_known {cls : String} (h : ∃ c ∈ classTree, c.1 = cls) : Text.IsLine cls := by
  have hall : ∀ c ∈ classTree, Text.IsLine c.1 := by decide +kernel
  obtain ⟨c, hc, rfl⟩ := h
  exact hall c hc

end Program

namespace Serving

variable {α : Type}

/-- The class of an exception that a session reports is named in one line. -/
theorem isLine_of_reported {e : Exn} (h : reported e = true) : Text.IsLine e.cls := by
  obtain ⟨hclass, -⟩ := Bool.and_eq_true_iff.mp h
  simp only [Bool.or_eq_true, decide_eq_true_eq] at hclass
  obtain (hbelow | hcls) | hcls := hclass
  · obtain hcls | hknown := isBelow_known hbelow
    · exact hcls ▸ by decide
    · exact isLine_of_known hknown
  · exact hcls ▸ by decide
  · exact hcls ▸ by decide

/-- The type and the message of the error with which a computation ends. -/
def Ending.error? : Ending α → Option (String × String)
  | .failed e => some (e.cls, e.message)
  | .malformed _ => some ("SyntaxError", "unmatched ')'")
  | _ => none

theorem Ending.reported_of {clean : α} {r : Except Stop α} {e : Exn}
    (h : Ending.of clean r = .failed e) : reported e = true := by
  rcases r with (e' | prompt | _ | _) | a
  · simp only [Ending.of, Ending.ofStop] at h
    split at h
    · cases h
    · split at h
      · rename_i hreported
        exact Ending.failed.inj h ▸ hreported
      · cases h
  all_goals cases h

theorem reported_of_runProgram {code : String} {m n : Machine} {e : Exn}
    (h : runProgram code m = (.failed e, n)) : reported e = true := by
  unfold runProgram at h
  split at h
  · exact absurd (Prod.mk.inj h).1 nofun
  · exact Ending.reported_of (Prod.mk.inj h).1

theorem reported_of_call {names : Names} {seed : Option Int} {r : CallRequest} {m : Machine}
    {e : Exn} (h : call names seed r = some (.failed e, m)) : reported e = true := by
  unfold call at h
  split at h
  · exact Ending.reported_of (Prod.mk.inj (Option.some.inj h)).1
  · exact absurd h nofun

end Serving

/-! ### Requests -/

/-- A crash is told of in one line just if the reason of the connection is. -/
theorem Failure.IsCrash.unbroken_iff {path : String} {e : Failure} {words : List String}
    (h : e.IsCrash path words) (hpath : Text.Unbroken path) :
    Text.Unbroken e.message ↔ ∀ w ∈ words, Text.Unbroken w := by
  cases h with
  | notRunning => exact iff_of_true (by decide +kernel) (List.forall_mem_nil _)
  | refused status =>
      refine iff_of_true ?_ (List.forall_mem_nil _)
      show Text.Unbroken ("Interpreter answered " ++ Text.decimal status ++ " on " ++ path)
      simp only [Text.unbroken_append]
      exact ⟨⟨⟨by decide, Text.unbroken_decimal status⟩, by decide⟩, hpath⟩
  | silent reason shown =>
      show Text.Unbroken ("Interpreter stopped responding: " ++ reason) ↔ _
      rw [List.forall_mem_singleton, Text.unbroken_append]
      exact and_iff_right (by decide)

namespace Execution

variable {r : Request} {others : Interrupts} {s t : Sandbox} {o : Outcome}

theorem Request.interactive_of_suspended {seed : Option Int} {prompt : String}
    (h : (r.endedAt seed).1 = .suspended prompt) : r.mode = .interactive := by
  rw [r.endedAt_eq_fateAt] at h
  exact (Request.asks_of_requested (Fate.eq_requested h)).1

/-- The answers of an interpreter that is asked to run a program, whatever seed is in force. -/
def Request.Answered (r : Request) (a : Serving.Answer) : Prop :=
  ∃ seed, a = Serving.runAnswer (r.endedAt seed).1 (r.endedAt seed).2

/-- What an execution on an interpreter tells of an error. There is none if the program has come to
its end or asks for a value. Else it is the error with which the program ends, or the request was
lost. -/
inductive Request.Explains (r : Request) : Option String → Prop where
  | ended {seed : Option Int} : (r.endedAt seed).1 = .finished () → r.Explains none
  | waiting {seed : Option Int} {prompt : String} : (r.endedAt seed).1 = .suspended prompt →
    r.mode = .interactive → r.Explains none
  | error {seed : Option Int} {type message text : String} :
    (r.endedAt seed).1.error? = some (type, message) →
    Text.Worded [message] (TellsOf type message) text → r.Explains (some text)
  | late {text : String} : Text.Worded []
    (· = "Execution timed out after " ++ r.timeout.brief ++ " seconds") text →
    r.Explains (some text)
  | lost {e : Failure} {words : List String} {text : String} : e.IsCrash "/run" words →
    Text.Worded words (· = "Interpreter crashed: " ++ e.message) text → r.Explains (some text)

/-- The outcome of a program of which the interpreter tells explains how the program has ended. -/
theorem Request.explains_of_reply {seed : Option Int} {m : Machine} {ending : Serving.Ending Unit}
    {j : Json} (h : r.endedAt seed = (ending, m)) (hreply : Serving.runAnswer ending m = .reply j)
    (ms : Int) : r.Explains (r.outcomeAt ending m ms).error := by
  have hending : (r.endedAt seed).1 = ending := congrArg Prod.fst h
  have herror {type message : String} {line : Nat} (herror : ending.error? = some (type, message))
      (htype : Text.IsLine type) :
      r.Explains (some (errorLine type message (some line) r.source.prependLines)) :=
    .error (hending ▸ herror) (worded_errorLine htype.ne htype.unbroken message _ _)
  cases ending with
  | finished _ => exact .ended hending
  | suspended prompt => exact .waiting hending (Request.interactive_of_suspended hending)
  | failed e => exact herror rfl (Serving.isLine_of_reported (Serving.reported_of_runProgram h))
  | malformed line => exact herror rfl (by decide)
  | unreported | hung | crashed => exact absurd hreply nofun

/-- A lost request is told of by a fixed text or by the reason of its connection. -/
theorem Request.explains_lost {e : Failure} (h : e.IsLoss "/run" r.timeout) (ms : Int) :
    r.Explains (lostOutcome r e ms).error := by
  cases h with
  | late shown =>
      refine .late ⟨by simp, rfl, iff_of_true ?_ (List.forall_mem_nil _)⟩
      simp only [Text.unbroken_append]
      exact ⟨⟨by decide, Binary64.unbroken_brief r.timeout⟩, by decide⟩
  | @crash _ words hcrash =>
      have herror : (lostOutcome r e ms).error = some ("Interpreter crashed: " ++ e.message) := by
        cases hcrash <;> rfl
      rw [herror]
      refine .lost hcrash ⟨by simp, rfl, ?_⟩
      rw [← hcrash.unbroken_iff (by decide), Text.unbroken_append]
      exact and_iff_right (by decide)

end Execution

namespace Process

open Execution

theorem meets_applySeed {I : Sandbox → Prop} {E : Failure → Prop} (seed : Option Int) :
    (applySeed seed).Meets I (fun x => ∃ before, x = seed.or before) Any E where
  gives {others s t a} _ hr := by
    obtain ⟨ha, -⟩ := Prod.mk.inj hr
    exact ⟨⟨s.appliedSeed, (Except.ok.inj ha).symm⟩, trivial⟩
  fails _ hr := absurd (Prod.mk.inj hr).1 nofun

/-- An interpreter that runs a program answers with how the program ends. -/
theorem meets_serveRun (r : Request) (i : Nat) :
    (serveRun i r.asked).Meets Any (Yields r.Answered) Any Failure.IsAside := by
  refine .after (fails_need _).aside fun c => .after (.view _) fun missing => .ite
    (fun _ => meets_homeless) fun _ => .bind (meets_applySeed r.seed) fun seed hseed => ?_
  obtain ⟨before, rfl⟩ := hseed
  exact .after (.change _) fun _ => .after (.change _) fun _ => meets_delivered ⟨before, rfl⟩ i

theorem meets_serve_run (r : Request) (i : Nat) :
    (serve i "/run" r.body).Meets Any (Yields r.Answered) Any Failure.IsAside := by
  refine .after (fails_need _).aside fun c => .ite (fun _ => .pure (.fault _)) fun _ => ?_
  rw [if_pos rfl, r.fitBody_body]
  dsimp only
  rw [r.ofFields_body]
  exact meets_serveRun r i

end Process

namespace Execution

variable {r : Request} {consumed : Int → Op Unit} {key : String} {others : Interrupts}
  {s t : Sandbox} {o : Outcome}

theorem meets_settle {j : Json} (h : r.Answered (.reply j)) (started : Int) :
    (settle consumed r key started j).Meets Any (fun o => r.Explains o.error) Any
      fun _ => True := by
  have hany {α : Type} (x : Op α) : x.FailsAs fun _ => True := fun _ _ _ _ _ => trivial
  obtain ⟨seed, hanswer⟩ := h
  rcases hended : r.endedAt seed with ⟨ending, m⟩
  rw [hended] at hanswer
  have hending : (r.endedAt seed).1 = ending := congrArg Prod.fst hended
  have hcomes : r.Comes (r.outcomeAt ending m) (r.saidAt ending m) :=
    Request.comes_saidAt (fun _ h => Request.interactive_of_suspended (hending.trans h)) m
  rw [Request.saidAt, ← hanswer] at hcomes
  cases hcomes with
  | reply hn hout =>
      refine .after (hany _) fun n => .after (hany _) fun _ => .after (hany _) fun ms =>
        .bind (.ofExcept (fun o ho => ?_) fun _ _ => trivial) fun o ho =>
          .after (hany _) fun _ => .pure ho
      obtain rfl := Except.ok.inj ((hout ms).symm.trans ho)
      exact Request.explains_of_reply hended hanswer.symm ms

theorem meets_executeLocal :
    (executeLocal consumed r key).Meets Genuine (fun o => r.Explains o.error) Any
      fun _ => True := by
  have hpost (h : Nat) := Interpreter.meets_post h r.timeout (Process.meets_serve_run r)
  have hholding := Registry.meets_holding key (fun e he => .inl he) hpost
  refine .bind (.view _) fun started _ => .bind hholding.outcome fun result hresult => ?_
  cases result with
  | ok reply => exact meets_settle (hresult.1 reply rfl) started
  | error e =>
      refine .ite (fun hlost => .after (fun _ _ _ _ _ => trivial) fun ms => .pure ?_)
        fun _ => .fail trivial
      exact Request.explains_lost (.of_loses (hresult.2 e rfl) hlost) ms

/-- An execution explains what it tells of an error, unless no interpreter starts for it and it is
left to a judge. -/
theorem execute_explains (hs : s.Genuine)
    (h : execute Contexts.onSweep consumed r others s = (.ok o, t)) : r.Explains o.error ∨
      ∃ e u c, Registry.acquire Contexts.onSweep (some r.key) others s = (.error e, u) ∧
        e.kind = .initialization ∧ u.setup.remote = some c ∧
        executeRemote c u.setup.remoteMaxWait r u.clock others u = (.ok o, t) := by
  rcases hacquire : Registry.acquire Contexts.onSweep (some r.key) others s with ⟨e | key, u⟩
  · -- Only a start that fails is left to a judge, and only if there is one.
    by_cases hjudge : e.kind = .initialization ∧ ∃ c, u.setup.remote = some c
    · obtain ⟨hkind, c, hremote⟩ := hjudge
      rw [execute_of_judge hacquire hkind hremote] at h
      exact .inr ⟨e, u, c, rfl, hkind, hremote, h⟩
    · rw [execute_of_error hacquire fun hkind => Option.eq_none_iff_forall_ne_some.mpr fun c hc =>
        hjudge ⟨hkind, c, hc⟩] at h
      exact absurd (Prod.mk.inj h).1 nofun
  · rw [execute_of_acquired hacquire] at h
    exact .inl (meets_executeLocal.gives ((Registry.meets_acquire _).gives hs hacquire).2 h).1

/-! ### Executions at the judge -/

/-- What an execution at a judge tells of an error, after what the judge has found, if it was not
cancelled before. There is none if the program has succeeded. Else it is the last error that the
report names, or the last line of a report that names none, or the text of the status if nothing is
reported. -/
inductive Summarizes : Option RemoteResponse → Option String → Prop where
  | cancelled : Summarizes none (some "Remote execution cancelled")
  | well {response : RemoteResponse} : RemoteStatus.runStatus response.status.id = .success →
    Summarizes (some response) none
  | error {response : RemoteResponse} {type message text : String} :
    RemoteStatus.runStatus response.status.id ≠ .success →
    Traceback.LastNames (Text.brokenLinesOf (judgedErrors response).toList) type message →
    TellsOf type message text → Summarizes (some response) (some text)
  | last {response : RemoteResponse} {before : List (List Char)} {line : List Char} :
    RemoteStatus.runStatus response.status.id ≠ .success →
    Text.blank (judgedErrors response) = false →
    Traceback.NoneNames (Text.brokenLinesOf (judgedErrors response).toList) →
    Text.brokenLinesOf (Text.stripChars (judgedErrors response).toList) = before ++ [line] →
    Summarizes (some response) (some (String.ofList (Text.stripChars line)))
  | status {response : RemoteResponse} : RemoteStatus.runStatus response.status.id ≠ .success →
    Text.blank (judgedErrors response) = true →
    Summarizes (some response) (some (RemoteStatus.describe response.status.id).2)

variable {c : RemoteClient} {maxWait : Binary64} {started : Int} {response : RemoteResponse}

theorem unbroken_signal {id : Int} {name : String} (h : RemoteStatus.signal? id = some name) :
    Text.Unbroken name := by
  have hall : ∀ s ∈ [((7 : Int), "SIGSEGV"), (8, "SIGXFSZ"), (9, "SIGFPE"), (10, "SIGABRT"),
      (11, "NZEC"), (12, "Other")], Text.Unbroken s.2 := by decide
  obtain ⟨before, after, hsplit, -⟩ := List.lookup_eq_some_iff.mp h
  exact hall (id, name) (hsplit ▸ List.mem_append_right _ List.mem_cons_self)

theorem isLine_describe (id : Int) : Text.IsLine (RemoteStatus.describe id).2 := by
  have hite {p : Prop} [Decidable p] {x y : String × String} (hx : Text.IsLine x.2)
      (hy : Text.IsLine y.2) : Text.IsLine (if p then x else y).2 := by
    split
    · exact hx
    · exact hy
  unfold RemoteStatus.describe
  refine hite (by decide) (hite (by decide) (hite (by decide) (hite (by decide) ?_)))
  cases hsignal : RemoteStatus.signal? id with
  | none => exact hite (by decide) (hite (by decide) (by decide))
  | some name =>
      have hunbroken : Text.Unbroken ("Runtime Error (" ++ name ++ ")") := by
        simp only [Text.unbroken_append]
        exact ⟨⟨by decide, unbroken_signal hsignal⟩, by decide⟩
      exact ⟨by simp, hunbroken⟩

/-- What is told of a report is one line of it, or the text of the status. -/
theorem judgedError_summarizes (r : Request) (response : RemoteResponse) :
    Summarizes (some response) (judgedError r response) ∧
      ∀ text ∈ judgedError r response, Text.IsLine text := by
  unfold judgedError
  split
  · exact ⟨.well ‹_›, nofun⟩
  rename_i hfailed
  split
  · rename_i hreduce
    have hline := (Traceback.reduce_eq_iff.mp hreduce).isLine
    -- Only a blank report comes to nothing, for any other one comes to a line.
    have hblank : Text.blank (judgedErrors response) = true := by
      by_contra hblank
      rw [if_neg hblank] at hline
      exact hline.ne rfl
    refine ⟨.status hfailed hblank, ?_⟩
    rintro _ ⟨⟩
    exact isLine_describe _
  · rename_i hne
    have hreduces := Traceback.reduce_eq_iff.mp
      (Eq.refl (Traceback.reduce (judgedErrors response) r.source.prependLines))
    have hline := hreduces.isLine
    generalize Traceback.reduce (judgedErrors response) r.source.prependLines = line
      at hne hreduces hline
    cases hreduces with
    | blank _ => exact absurd rfl hne
    | error hblank _ hnames =>
        rw [hblank, if_neg Bool.false_ne_true] at hline
        refine ⟨.error hfailed hnames (tellsOf_errorLine _ _ _ _), ?_⟩
        rintro _ ⟨⟩
        exact hline
    | last hblank hnone hlast =>
        rw [hblank, if_neg Bool.false_ne_true] at hline
        refine ⟨.last hfailed hblank hnone hlast, ?_⟩
        rintro _ ⟨⟩
        exact hline

theorem executeRemote_summarizes
    (h : executeRemote c maxWait r started others s = (.ok o, t)) : ∃ answer u,
      c.execute r.source.text (Text.joinLines r.values) none maxWait r.cancel others s =
        (.ok answer, u) ∧
      Summarizes answer o.error ∧ ∀ text ∈ o.error, Text.IsLine text := by
  rw [executeRemote_eq] at h
  obtain ⟨answer, u, hexecute, h⟩ := bind_eq_ok.mp h
  refine ⟨answer, u, hexecute, ?_⟩
  cases answer with
  | none =>
      obtain ⟨ms, v, -, h⟩ := bind_eq_ok.mp h
      obtain rfl := Except.ok.inj (Prod.mk.inj h).1
      refine ⟨.cancelled, ?_⟩
      rintro _ ⟨⟩
      decide
  | some response =>
      obtain ⟨elapsed, v, -, h⟩ := bind_eq_ok.mp h
      obtain ⟨ms, w, -, h⟩ := bind_eq_ok.mp h
      obtain rfl := Except.ok.inj (Prod.mk.inj h).1
      exact judgedError_summarizes r response

end Execution

end Rerun
