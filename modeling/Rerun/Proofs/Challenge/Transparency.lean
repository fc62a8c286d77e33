import Rerun.Proofs.Challenge.Course
import Rerun.Proofs.Remote.Displaced
import Rerun.Proofs.Session.Transparency

/-!
A quiet scaffold is not seen by whoever plays a program either. The process of a challenge has the
functions of the program further down, and the challenge knows by how much; loading and calling give
the same values and fail with the same messages (`Source.quiet_unseen`).
-/

namespace Rerun

open Sandbox Op Mirror Program

variable {m : Mirror} {others : Interrupts} {b s s' t : Sandbox} {i n k : Nat} {source : Source}

namespace Challenge

/-! ### What is told of a program -/

/-- The one-line error of a reply for a program with so many lines before its code. -/
def explain (reply : List (String × Json)) (prependLines : Nat) : Except Failure String :=
  let given := (reply.lookup "error").getD .null
  match if given.isFalsy then .obj [] else given with
  | .obj error => (Execution.describe error prependLines).map Execution.asText
  | _ => .error (.other "AttributeError")

theorem describe_eq (i : Nat) (reply : List (String × Json)) : describe i reply =
    (challenge i >>= fun c =>
      Op.ofExcept (explain reply (c.source.map (·.prependLines) |>.getD 0))) := by
  unfold describe explain
  congr 1
  funext c
  dsimp only
  generalize (if ((reply.lookup "error").getD .null).isFalsy then Json.obj [] else
    (reply.lookup "error").getD .null) = given
  cases given with
  | obj error =>
      dsimp only
      cases Execution.describe error (c.source.map (·.prependLines) |>.getD 0) <;> rfl
  | _ => rfl

variable {fields fields' : List (String × Json)}

/-- An error without a line is explained alike wherever the program stands. -/
theorem explain_of_none {type : String} {message : Json}
    (h : fields.lookup "error" = some (Serving.errorJson type message .null)) (k : Nat) :
    explain fields k = explain fields 0 := by
  unfold explain
  rw [h]
  rfl

theorem explain_of_null (h : fields.lookup "error" = some .null) (k : Nat) :
    explain fields k = explain fields 0 := by
  unfold explain
  rw [h]
  rfl

theorem explain_of_error {type : String} {message : Json} {line : Option Int}
    (h : fields.lookup "error" = some (Serving.errorJson type message (Json.ofOption .int line)))
    (k : Nat) : explain fields k = .ok (errorLine type (Value.messageText message) line k) := by
  unfold explain
  rw [h]
  show (Execution.describe [("type", .str type), ("message", message),
    ("lineno", Json.ofOption .int line)] k).map Execution.asText = _
  rw [Execution.Request.describe_eq_errorLine]
  rfl

theorem explain_of_line {type : String} {message : Json} {line : Nat}
    (h : fields.lookup "error" = some (Serving.errorJson type message (.int line))) (k : Nat) :
    explain fields k = .ok (errorLine type (Value.messageText message) (some line) k) := by
  have hline : (.int line : Json) = Json.ofOption .int (some (line : Int)) := rfl
  rw [hline] at h
  exact explain_of_error h k

structure SameButError (fields fields' : List (String × Json)) : Prop where
  status : fields'.lookup "status" = fields.lookup "status"
  stdout : fields'.lookup "stdout" = fields.lookup "stdout"
  value : fields'.lookup "value" = fields.lookup "value"

/-- Two replies that tell a caller the same, the second one of a program that stands so many lines
further down. -/
inductive Retells (k : Nat) : Json → Json → Prop
  | mk {fields fields' : List (String × Json)} : SameButError fields fields' →
    explain fields' k = explain fields 0 → Retells k (.obj fields) (.obj fields')

theorem retells_of_null (h : fields.lookup "error" = some .null) :
    Retells k (.obj fields) (.obj fields) :=
  .mk ⟨rfl, rfl, rfl⟩ (explain_of_null h k)

theorem retells_of_line {type : String} {message : Json} {line : Nat}
    (same : SameButError fields fields')
    (h : fields.lookup "error" = some (Serving.errorJson type message (.int line)))
    (h' : fields'.lookup "error" =
      some (Serving.errorJson type message (.int ((below k).line line : Nat)))) :
    Retells k (.obj fields) (.obj fields') := by
  refine .mk same ?_
  have hline (message : String) : errorLine type message (some ((below k).line line : Nat)) k =
      errorLine type message (some line) 0 := by
    unfold errorLine
    dsimp only
    rw [codeLine_below]
  rw [explain_of_line h, explain_of_line h', hline]
  rfl

theorem loadAnswer_below (k : Nat) (ending : Serving.Ending Unit) (m : Machine) :
    Process.Alike (Retells k) (Serving.loadAnswer ending m)
      (Serving.loadAnswer (ending.moved (below k).line) (m.placed (below k))) := by
  cases ending with
  | finished _ => exact .reply (retells_of_null rfl)
  | suspended prompt => exact .reply (retells_of_null rfl)
  | failed e =>
      rw [Serving.loadAnswer_failed, Serving.Ending.moved, Serving.loadAnswer_failed]
      exact .reply (retells_of_line ⟨rfl, rfl, rfl⟩ rfl rfl)
  | malformed line => exact .reply (retells_of_line ⟨rfl, rfl, rfl⟩ rfl rfl)
  | unreported => exact .refused
  | hung => exact .hung
  | crashed => exact .crashed

theorem alike_ofReply (h : fields.lookup "error" = some .null) : Process.Alike (Retells k)
    (Serving.Answer.ofReply (.obj fields)) (Serving.Answer.ofReply (.obj fields)) := by
  unfold Serving.Answer.ofReply
  split
  · exact .refused
  · exact .reply (retells_of_null h)

theorem callAnswer_below (k : Nat) (ending : Serving.Ending Value) (m : Machine) :
    Process.Alike (Retells k) (Serving.callAnswer ending m)
      (Serving.callAnswer (ending.moved (below k).line) (m.placed (below k))) := by
  cases ending with
  | finished v =>
      unfold Serving.callAnswer Serving.Ending.moved
      dsimp only
      split
      · exact alike_ofReply rfl
      · exact .reply (.mk ⟨rfl, rfl, rfl⟩ (explain_of_none rfl k))
  | suspended prompt => exact .reply (retells_of_null rfl)
  | failed e =>
      rw [Serving.callAnswer_failed, Serving.Ending.moved, Serving.callAnswer_failed]
      exact .reply (retells_of_line ⟨rfl, rfl, rfl⟩ rfl rfl)
  | malformed line => exact .reply (retells_of_line ⟨rfl, rfl, rfl⟩ rfl rfl)
  | unreported => exact .refused
  | hung => exact .hung
  | crashed => exact .crashed

theorem undefinedAnswer_below (k : Nat) (function : String) :
    Process.Alike (Retells k) (Serving.undefinedAnswer function)
      (Serving.undefinedAnswer function) :=
  .reply (.mk ⟨rfl, rfl, rfl⟩ (explain_of_none rfl k))

end Challenge

/-! ### Serving a challenge -/

namespace Process

variable {q : Nat}

/-- A process that has loaded a program in its scaffold has the functions of its code further
down. -/
theorem mirrors_serveLoad (h : source.Quiet) (hline : m.line q = (below source.prependLines).line) :
    (serveLoad q { code := source.bare.text }).Mirrors m (serveLoad q { code := source.text })
      (Ends (Challenge.Retells source.prependLines)) := by
  refine .bind (mirrors_applySeed none) fun seed => ?_
  rw [source.text_bare, Serving.load_text h]
  refine .bind (.setClock _) fun _ => .bind (.setChild (fun y y' hy => ?_) fun _ => id) fun _ =>
    mirrors_delivered (Challenge.loadAnswer_below _ _ _)
  cases hy with
  | mk posts =>
      rw [hline]
      exact .mk posts

theorem mirrors_serve_load (h : source.Quiet)
    (hline : m.line q = (below source.prependLines).line) :
    (serve q "/load" (Challenge.loadBody source.bare)).Mirrors m
      (serve q "/load" (Challenge.loadBody source))
      (Ends (Challenge.Retells source.prependLines)) := by
  refine .bind_of (.child q) fun y y' hy => ?_
  cases hy with
  | mk posts =>
      have hpath : "/load" ≠ "/run" := by decide
      refine .ite (.pure (.fault _)) ?_
      rw [if_neg hpath, if_neg hpath, if_pos rfl, if_pos rfl, Challenge.fitBody_loadBody,
        Challenge.fitBody_loadBody]
      exact mirrors_serveLoad h hline

theorem mirrors_serveCall (hline : m.line q = (below k).line) (request : Serving.CallRequest) :
    (serveCall q request).Mirrors m (serveCall q request) (Ends (Challenge.Retells k)) := by
  refine .bind_of (.child q) fun y y' hy => ?_
  cases hy with
  | mk posts =>
      refine .bind (.view fun _ _ _ => rfl) fun seed => ?_
      dsimp only
      rw [hline, Serving.call_moved]
      cases Serving.call y.names seed request with
      | none => exact mirrors_delivered (Challenge.undefinedAnswer_below k _)
      | some ended =>
          refine .bind (.setClock _) fun _ => .bind (.setChild (fun z z' hz => ?_) fun _ => id)
            fun _ => mirrors_delivered (Challenge.callAnswer_below _ _ _)
          cases hz with
          | mk posts =>
              rw [hline]
              exact .mk posts

theorem mirrors_serve_call (hline : m.line q = (below k).line) (function : String)
    (args : List Json) : (serve q "/call" (Challenge.callBody function args)).Mirrors m
      (serve q "/call" (Challenge.callBody function args)) (Ends (Challenge.Retells k)) := by
  refine .bind_of (.child q) fun y y' hy => ?_
  cases hy with
  | mk posts =>
      refine .ite (.pure (.fault _)) ?_
      rw [if_neg (by decide), if_neg (by decide), Challenge.fitBody_callBody]
      exact mirrors_serveCall hline _

end Process

/-! ### Playing a challenge -/

/-- How a sandbox in which a challenge with a key plays a program in its scaffold mirrors one in
which it plays the code alone: what the processes from number `n` on have loaded stands further
down. -/
def Mirror.dressing (n i : Nat) (key : String) (source : Source) : Mirror where
  line q := if q < n then id else (below source.prependLines).line
  sources j k a a' := if j = i then k = key ∧ a = some source.bare ∧ a' = some source else a = a'

namespace Challenge

variable {key : String} {p : Path}

theorem mirrors_describe {fields fields' : List (String × Json)}
    (h : explain fields' source.prependLines = explain fields 0) :
    (describe i fields).Mirrors (dressing n i key source) (describe i fields') Eq := by
  rw [describe_eq, describe_eq]
  refine .bind_of (.challenge i) fun c c' hc => ?_
  cases hc with
  | @mk source' hsources =>
      obtain ⟨-, hplain, rfl⟩ := (if_pos rfl).mp hsources
      dsimp only
      rw [hplain]
      dsimp only [Option.map_some, Option.getD_some]
      rw [source.prependLines_bare, h]
      exact .ofExcept (alike_self _)

theorem mirrors_teardown (i : Nat) : (teardown i).Mirrors m (teardown i) Eq := by
  refine .bind (.setChallenge fun c c' hc => by cases hc with | mk h => exact .mk h) fun _ =>
    .bind_of (.challenge i) fun c c' hc => ?_
  cases hc with
  | mk h => exact Registry.mirrors_reset _

theorem mirrors_fieldsOf (fields fields' : List (String × Json)) :
    (fieldsOf (.obj fields)).Mirrors m (fieldsOf (.obj fields')) fun a b =>
      a = fields ∧ b = fields' :=
  .pure ⟨rfl, rfl⟩

theorem mirrors_begun {j j' : Json} (h : Retells source.prependLines j j') :
    (begun i j).Mirrors (dressing n i key source) (begun i j') Eq := by
  cases h with
  | @mk fields fields' hsame hexplain =>
      refine .bind_of (mirrors_fieldsOf fields fields') fun a b hab => ?_
      obtain ⟨rfl, rfl⟩ := hab
      rw [hsame.status, hsame.stdout]
      refine .ite ?_ ?_
      · exact .bind (mirrors_teardown i) fun _ => .bind (mirrors_describe hexplain) fun reason =>
          .fail _
      · exact .bind (.setChallenge fun c c' hc => by cases hc with | mk h => exact .mk h) fun _ =>
          .pure rfl

theorem mirrors_conclude (function : String) {j j' : Json}
    (h : Retells source.prependLines j j') : (conclude i function j).Mirrors
      (dressing n i key source) (conclude i function j') Eq := by
  refine .bind (.setChallenge fun c c' hc => by cases hc with | mk h => exact .mk h) fun _ => ?_
  cases h with
  | @mk fields fields' hsame hexplain =>
      refine .bind_of (mirrors_fieldsOf fields fields') fun a b hab => ?_
      obtain ⟨rfl, rfl⟩ := hab
      rw [hsame.status, hsame.stdout, hsame.value]
      refine .bind (.setChallenge fun c c' hc => by cases hc with | mk h => exact .mk h) fun _ =>
        .ite ?_ (.pure rfl)
      exact .bind (mirrors_describe hexplain) fun reason => .fail _

theorem mirrors_callFailure (function : String) (e : Failure) :
    (callFailure i function e).Mirrors m (callFailure i function e) (Retells k) := by
  have hexpire : (setChallenge i fun c => { c with active := false }).Mirrors m
      (setChallenge i fun c => { c with active := false }) Eq :=
    .setChallenge fun c c' hc => by cases hc with | mk h => exact .mk h
  exact .ite (.bind hexpire fun _ => .fail _) (.ite (.bind hexpire fun _ => .fail _) (.fail _))

/-- The process of a session that was started later than another state has a later number. -/
theorem line_of_beside (h : (Own.new b).Beside key p s) {r q : Nat} {x : Record} {z : Handle}
    (hr : s.sessions.lookup key = some r) (hx : s.records[r]? = some x)
    (hz : s.handles[x.handle]? = some z) (hq : z.child = some q) :
    (dressing b.children.length i key source).line q = (below source.prependLines).line := by
  have hlater := (h.handles.owned (h.record hr hx).1 hz).2 q hq
  exact if_neg (Nat.not_lt.mpr hlater)

theorem agree_use (ho : others.Absent) (hbeside : (Own.new b).Beside key p s)
    (hs : (dressing b.children.length i key source).Shows s s') {path : String}
    {body body' : Json} (hinputs : Process.inputsKey body' = Process.inputsKey body)
    (hfinite : body.hasNonFinite = body'.hasNonFinite)
    (hserve : ∀ q, (dressing b.children.length i key source).line q =
      (below source.prependLines).line → (Process.serve q path body).Mirrors
        (dressing b.children.length i key source) (Process.serve q path body')
        (Process.Ends (Retells source.prependLines)))
    (timeout : Binary64) : (dressing b.children.length i key source).Agree
      (Retells source.prependLines)
      (Registry.holding key (fun h => Interpreter.post h path body timeout) others s)
      (Registry.holding key (fun h => Interpreter.post h path body' timeout) others s') :=
  Registry.agree_holding ho hs fun _ _ _ hr hx ht => Interpreter.agree_post ho ht hinputs hfinite
    (fun _ q hz hq => hserve q (line_of_beside hbeside hr hx hz hq)) timeout

/-- What goes on with a challenge in a sandbox and in its mirror image: there it plays its program
in a scaffold, on a process that was started since a state. -/
structure Coupled (b : Sandbox) (i : Nat) (key : String) (p : Path) (source : Source)
    (s s' : Sandbox) : Prop where
  shows : (dressing b.children.length i key source).Shows s s'
  beside : (Own.new b).Beside key p s

theorem Coupled.key_eq (h : Coupled b i key p source s s') {c : Challenge}
    (hc : s.challengeTable[i]? = some c) : c.key = key := by
  have hrel := h.shows.challenge i
  rw [hc] at hrel
  generalize s'.challengeTable[i]? = found at hrel
  cases hrel with
  | some htwin =>
      cases htwin with
      | mk hsources => exact ((if_pos rfl).mp hsources).1

theorem beside_fieldsOf (reply : Json) :
    (fieldsOf reply).Beside (Own.new b) key p fun _ => True := by
  unfold fieldsOf
  split
  · exact .pure trivial
  · exact .fail _

theorem beside_setChallenge (i : Nat) (f : Challenge → Challenge) :
    (setChallenge i f).Beside (Own.new b) key p fun _ => True :=
  .change fun _ hs => { hs with }

theorem beside_describe (i : Nat) (reply : List (String × Json)) :
    (describe i reply).Beside (Own.new b) key p fun _ => True := by
  rw [describe_eq]
  exact .bind (.need fun _ _ _ _ => trivial) fun c _ => .ofExcept fun _ _ => trivial

theorem beside_conclude (i : Nat) (function : String) (reply : Json) :
    (conclude i function reply).Beside (Own.new b) key p fun _ => True :=
  .bind (beside_setChallenge i _) fun _ _ => .bind (beside_fieldsOf reply) fun fields _ =>
    .bind (beside_setChallenge i _) fun _ _ =>
    .ite (.bind (beside_describe i fields) fun _ _ => .fail _) (.pure trivial)

theorem beside_callFailure (i : Nat) (function : String) (e : Failure) :
    (callFailure i function e).Beside (Own.new b) key p fun _ => True :=
  .ite (.bind (beside_setChallenge i _) fun _ _ => .fail _)
    (.ite (.bind (beside_setChallenge i _) fun _ _ => .fail _) (.fail _))

theorem beside_invoke (ho : others.Absent) (h : (Own.new b).Beside key p s)
    (hkey : ∀ c, s.challengeTable[i]? = some c → c.key = key) (function : String)
    (args : List Json) : (Own.new b).Beside key p (invoke i function args others s).2 := by
  cases hc : s.challengeTable[i]? with
  | none =>
      have hchallenge : challenge i others s = (.error (.other "KeyError"), s) := by
        rw [challenge, need, hc]
      rw [invoke, bind_apply, hchallenge]
      exact h
  | some c =>
      cases hactive : c.active with
      | false =>
          have hchallenge : (challenge i).Does s c s := does_need hc
          rw [invoke, hchallenge.step, hactive]
          exact h
      | true =>
          rw [invoke_eq hc hactive, hkey c hc]
          have huse : (Op.rescue (Registry.holding key fun h =>
              Interpreter.call h function args c.timeout) (callFailure i function) >>=
              conclude i function).Beside (Own.new b) key p fun _ => True :=
            .bind (.rescue (Registry.beside_holding fun h hh => Interpreter.beside_post hh _ _ _)
              fun e => beside_callFailure i function e) fun reply _ =>
                beside_conclude i function reply
          exact (huse others ho s h).1

theorem agree_invoke (ho : others.Absent) (h : Coupled b i key p source s s') (function : String)
    (args : List Json) : (dressing b.children.length i key source).Agree Eq
      (invoke i function args others s) (invoke i function args others s') := by
  refine Mirrors.bind_at (Mirrors.challenge i ho h.shows) fun c c' t t' hc htwin ht => ?_
  obtain ⟨hc, rfl⟩ := need_eq_ok hc
  obtain rfl := h.key_eq hc
  cases htwin with
  | mk hsources =>
      dsimp only
      cases c.active with
      | false => exact Mirrors.fail _ ho ht
      | true =>
          refine Mirrors.bind_at (Mirrors.rescue_at ho (agree_use ho h.beside ht rfl rfl
            (fun q hq => Process.mirrors_serve_call hq function args) c.timeout)
            fun e => mirrors_callFailure function e) fun j j' u u' _ hj hu => ?_
          exact mirrors_conclude function hj ho hu

theorem coupled_invoke (ho : others.Absent) (h : Coupled b i key p source s s')
    (function : String) (args : List Json) : Coupled b i key p source
      (invoke i function args others s).2 (invoke i function args others s').2 :=
  ⟨(agree_invoke ho h function args).state,
    beside_invoke ho h.beside (fun _ hc => h.key_eq hc) function args⟩

/-! ### Loading -/

def inactive (s : Sandbox) (i : Nat) : Sandbox :=
  { s with challengeTable := s.challengeTable.modify i fun c => { c with active := false } }

theorem beside_teardown (ho : others.Absent) (h : (Own.new b).Beside key p s)
    (hkey : ∀ c, s.challengeTable[i]? = some c → c.key = key) :
    (Own.new b).Beside key p (teardown i others s).2 := by
  have h' : (Own.new b).Beside key p (inactive s i) := { h with }
  have hset : (setChallenge i fun c => { c with active := false }).Does s () (inactive s i) :=
    does_change _
  rw [teardown, hset.step]
  cases hc : (inactive s i).challengeTable[i]? with
  | none =>
      have hchallenge : challenge i others (inactive s i) =
          (.error (.other "KeyError"), inactive s i) := by rw [challenge, need, hc]
      rw [bind_apply, hchallenge]
      exact h'
  | some c =>
      have hchallenge : (challenge i).Does (inactive s i) c (inactive s i) := does_need hc
      obtain ⟨d, hd, rfl⟩ := Table.getElem?_modify_eq_some.mp hc
      rw [hchallenge.step, if_pos rfl]
      dsimp only
      rw [hkey d hd]
      exact (Registry.beside_reset others ho _ h').1

theorem beside_begun (ho : others.Absent) (h : Coupled b i key p source s s') (reply : Json) :
    (Own.new b).Beside key p (begun i reply others s).2 := by
  cases reply with
  | obj fields =>
      rw [begun, fieldsOf, (does_pure fields).step]
      split
      · exact Op.Beside.bind_at ho (beside_teardown ho h.beside fun _ hc => h.key_eq hc) fun _ =>
          .bind (beside_describe i fields) fun _ _ => Op.Beside.fail (P := fun _ => True) _
      · exact ((Op.Beside.bind (beside_setChallenge i _) fun _ _ =>
          Op.Beside.pure (P := fun _ => True) trivial) others ho s h.beside).1
  | _ => exact h.beside

/-- A challenge has been told its program, with the scaffold and without it, and no process has
loaded it yet. -/
def undressed (i : Nat) (key : String) (source : Source) : Mirror :=
  ⟨fun _ => id, (dressing 0 i key source).sources⟩

theorem shows_told {c : Challenge} (hs : s.Genuine) (hc : s.challengeTable[i]? = some c)
    (hkey : c.key = key) :
    (undressed i key source).Shows (told s i source.bare) (told s i source) := by
  refine .mk { hs with } (.refl (fun _ y => y.twin_self) _) (.of_modify (fun d hd => ?_)
    fun j d hj => .mk ((if_neg hj).mpr rfl))
  obtain rfl := Option.some.inj (hc.symm.trans hd)
  have htwin : Twin ((undressed i key source).sources i) { c with source := some source.bare }
      { c with source := some source } := .mk ((if_pos rfl).mpr ⟨hkey, rfl, rfl⟩)
  exact htwin

/-- What the processes that are still to be started will have loaded may stand anywhere. -/
theorem shows_dressing (h : (undressed i key source).Shows s s') :
    (dressing s.children.length i key source).Shows s s' := by
  cases h with
  | mk hgenuine hchildren hchallenges =>
      refine .mk hgenuine (hchildren.mono fun q y y' hy htwin => ?_) hchallenges
      have hline : (dressing s.children.length i key source).line q = id :=
        if_pos (List.getElem?_eq_some_iff.mp hy).1
      rw [hline]
      exact htwin

theorem provide_of_folder {e : Failure} (hnone : s.sessions.lookup key = none)
    (hfolder : Registry.folderOf s.setup key = .error e) :
    Registry.provide key others s = (.error e, s) := by
  simp [Registry.provide, Registry.enter, Registry.register, Registry.start, Registry.find?,
    bind_apply, Op.view, Op.ofExcept, Op.fail, hnone, hfolder]

theorem beside_provide (ho : others.Absent) (hnone : b.sessions.lookup key = none) :
    ∃ p, (Own.new b).Beside key p (Registry.provide key others b).2 := by
  cases hfolder : Registry.folderOf b.setup key with
  | ok p => exact ⟨p, (Registry.beside_provide hfolder others ho b (.new b hnone p)).1⟩
  | error e =>
      rw [provide_of_folder hnone hfolder]
      exact ⟨b.setup.sessionRoot, .new b hnone _⟩

/-- What is done in a session that was got for a program. -/
def loading (i : Nat) (key : String) (timeout : Binary64) (source : Source) : Op Json :=
  Op.rescue (Registry.holding key fun h => Interpreter.load h source.text timeout .null)
    loadFailure >>= begun i

theorem coupled_loading (hquiet : source.Quiet) (ho : others.Absent)
    (h : Coupled b i key p source s s') (timeout : Binary64) :
    (dressing b.children.length i key source).Agree Eq
        (loading i key timeout source.bare others s) (loading i key timeout source others s') ∧
      (Own.new b).Beside key p (loading i key timeout source.bare others s).2 := by
  have hinputs : Process.inputsKey (loadBody source) = Process.inputsKey (loadBody source.bare) :=
    rfl
  have hfinite : (loadBody source.bare).hasNonFinite = (loadBody source).hasNonFinite := rfl
  have hholding := agree_use ho h.beside h.shows hinputs hfinite
    (fun q hq => Process.mirrors_serve_load hquiet hq) timeout
  have huse : (dressing b.children.length i key source).Agree (Retells source.prependLines)
      (Op.rescue (Registry.holding key fun h =>
        Interpreter.load h source.bare.text timeout .null) loadFailure others s)
      (Op.rescue (Registry.holding key fun h =>
        Interpreter.load h source.text timeout .null) loadFailure others s') :=
    Mirrors.rescue_at ho hholding fun e => .fail _
  have hbeside : (Op.rescue (Registry.holding key fun h =>
      Interpreter.load h source.bare.text timeout .null) loadFailure).Beside (Own.new b) key p
        fun _ => True :=
    .rescue (Registry.beside_holding fun h hh => Interpreter.beside_post hh _ _ _) fun e => .fail _
  replace hbeside := (hbeside others ho s h.beside).1
  refine ⟨Mirrors.bind_at huse fun j j' t t' _ hj ht => mirrors_begun hj ho ht, ?_⟩
  obtain ⟨-, hstate⟩ := huse
  rw [loading, bind_apply]
  rcases hr : Op.rescue (Registry.holding key fun h =>
    Interpreter.load h source.bare.text timeout .null) loadFailure others s with ⟨e | j, t⟩ <;>
    rw [hr] at hbeside hstate
  · exact hbeside
  · exact beside_begun ho ⟨hstate, hbeside⟩ j

/-- A program that is loaded gives the same with the scaffold and without it, and from then on it is
played in a sandbox and in its mirror image. -/
theorem coupled_load (hquiet : source.Quiet) (ho : others.Absent) (hs : s.Sane)
    (hgenuine : s.Genuine) {c : Challenge} (hc : s.challengeTable[i]? = some c) :
    ∃ (b : Sandbox) (p : Path), (dressing b.children.length i c.key source).Agree Eq
        (load Contexts.onSweep i source.bare others s) (load Contexts.onSweep i source others s) ∧
      (Own.new b).Beside c.key p (load Contexts.onSweep i source.bare others s).2 := by
  obtain ⟨v, hteardown, hv, hcv, hnone, -⟩ := does_teardown hs hc
  have hvgenuine : v.Genuine := by
    have hstate := (mirrors_teardown (m := .plain) i ho (Shows.self hgenuine)).state.genuine
    rwa [hteardown others] at hstate
  obtain ⟨n, hn⟩ := hs.challengeKey hc
  have hkey : c.key ≠ "" := hn ▸ Contexts.challengeKey_ne_empty n
  -- The sweep does the same in both, and only what comes after it starts new processes.
  have hsane : (told v i source.bare).Sane := hv.modifyChallenge i fun _ => rfl
  obtain ⟨b, hsweep, -, hswept⟩ := Registry.does_sweep hsane
  have hbnone : b.sessions.lookup c.key = none := by
    cases hr : b.sessions.lookup c.key with
    | none => rfl
    | some r => exact absurd (hnone.symm.trans (hswept.session hr)) nofun
  have htold : (undressed i c.key source).Shows (told v i source.bare) (told v i source) :=
    shows_told hvgenuine hcv rfl
  obtain ⟨hresult, hstate⟩ := Registry.mirrors_sweep ho htold
  rcases hsweep' : Registry.sweep Contexts.onSweep others (told v i source) with ⟨e | _, b'⟩ <;>
    rw [hsweep others, hsweep'] at hresult hstate
  · cases hresult
  have hacquire {w u : Sandbox} (hw : Registry.sweep Contexts.onSweep others w = (.ok (), u)) :
      Registry.acquire Contexts.onSweep (some c.key) others w =
        (Registry.provide c.key >>= fun _ => pure c.key) others u := by
    rw [Registry.acquire, bind_of_eq_ok hw, Registry.keyFor_some hkey]
    rfl
  have hagree : (dressing b.children.length i c.key source).Agree Eq
      (Registry.acquire Contexts.onSweep (some c.key) others (told v i source.bare))
      (Registry.acquire Contexts.onSweep (some c.key) others (told v i source)) := by
    rw [hacquire (hsweep others), hacquire hsweep']
    exact Mirrors.bind (Registry.mirrors_provide c.key) (fun _ => .pure rfl) ho
      (shows_dressing hstate)
  obtain ⟨p, hprovide⟩ := beside_provide ho hbnone
  have hbeside : (Own.new b).Beside c.key p
      (Registry.acquire Contexts.onSweep (some c.key) others (told v i source.bare)).2 := by
    rw [hacquire (hsweep others)]
    exact Op.Beside.bind_at ho hprovide fun _ => Op.Beside.pure (P := fun _ => True) trivial
  refine ⟨b, p, ?_, ?_⟩
  · rw [load_of_teardown others hteardown hcv, load_of_teardown others hteardown hcv]
    refine Mirrors.bind_at hagree fun k k' t t' hk _ ht => ?_
    rw [hk] at hbeside
    exact (coupled_loading hquiet ho ⟨ht, hbeside⟩ c.timeout).1
  · obtain ⟨-, hshows⟩ := hagree
    rw [load_of_teardown others hteardown hcv, bind_apply]
    rcases hk : Registry.acquire Contexts.onSweep (some c.key) others (told v i source.bare)
      with ⟨e | k, t⟩ <;> rw [hk] at hbeside hshows
    · exact hbeside
    · exact (coupled_loading hquiet ho ⟨hshows, hbeside⟩ c.timeout).2

/-! ### Whole courses -/

def callAll (i : Nat) : List (String × List Json) → Op (List (Except Failure Json))
  | [] => pure []
  | (function, args) :: calls => do
    let out ← Op.outcome (invoke i function args)
    let outs ← callAll i calls
    pure (out :: outs)

/-- What clients get who load a program and then call functions of it. -/
def played (i : Nat) (source : Source) (calls : List (String × List Json)) :
    Op (List (Except Failure Json)) := do
  let loaded ← Op.outcome (load Contexts.onSweep i source)
  let outs ← callAll i calls
  pure (loaded :: outs)

theorem callAll_cons (i : Nat) (function : String) (args : List Json)
    (calls : List (String × List Json)) (others : Interrupts) (s : Sandbox) :
    (callAll i ((function, args) :: calls) others s).1 =
      (callAll i calls others (invoke i function args others s).2).1.map
        ((invoke i function args others s).1 :: ·) := by
  rw [callAll, bind_apply, Op.outcome]
  dsimp only
  rw [bind_apply]
  rcases callAll i calls others (invoke i function args others s).2 with ⟨e | outs, t⟩ <;> rfl

theorem played_eq (i : Nat) (source : Source) (calls : List (String × List Json))
    (others : Interrupts) (s : Sandbox) : (played i source calls others s).1 =
      (callAll i calls others (load Contexts.onSweep i source others s).2).1.map
        ((load Contexts.onSweep i source others s).1 :: ·) := by
  rw [played, bind_apply, Op.outcome]
  dsimp only
  rw [bind_apply]
  rcases callAll i calls others (load Contexts.onSweep i source others s).2 with ⟨e | outs, t⟩ <;>
    rfl

theorem callAll_coupled (ho : others.Absent) (h : Coupled b i key p source s s')
    (calls : List (String × List Json)) :
    (callAll i calls others s).1 = (callAll i calls others s').1 := by
  induction calls generalizing s s' with
  | nil => rfl
  | cons call calls ih =>
      obtain ⟨function, args⟩ := call
      rw [callAll_cons, callAll_cons, ih (coupled_invoke ho h function args),
        alike_eq (agree_invoke ho h function args).result]

end Challenge

/-- How little of a scaffold is seen in a sandbox by those who have a program executed or play
it. -/
structure Source.Unseen (source : Source) (others : Interrupts) (s : Sandbox) : Prop where
  /-- Unless it is sent to a judge, an execution comes to the same with the scaffold and without it:
  status, output, errors, prompt and time. -/
  executed {consumed : Int → Op Unit} {r : Execution.Request} : r.source = source →
    (∀ n, (consumed n).Elsewhere) →
    (∀ e t, Registry.acquire Contexts.onSweep (some r.key) others s = (.error e, t) →
      e.kind = .initialization → s.setup.remote = none) →
    (Execution.execute Contexts.onSweep consumed r others s).1 =
      (Execution.execute Contexts.onSweep consumed r.bare others s).1
  /-- When it is sent to a judge who finds the same of both, the same is told of it, too, but the
  printed errors are what the judge has printed, with its lines. -/
  judged {consumed : Int → Op Unit} {r : Execution.Request} {s' : Sandbox}
    {response response' : RemoteResponse} : r.source = source →
    Execution.Referred r.bare others s' response → Execution.Referred r others s response' →
    response.Below source.prependLines response' →
    (Execution.execute Contexts.onSweep consumed r others s).1.map Outcome.account =
        (Execution.execute Contexts.onSweep consumed r.bare others s').1.map Outcome.account ∧
      ∀ o o', (Execution.execute Contexts.onSweep consumed r.bare others s').1 = .ok o →
        (Execution.execute Contexts.onSweep consumed r others s).1 = .ok o' →
        o.stderr = Execution.judgedErrors response ∧ o'.stderr = Execution.judgedErrors response' ∧
        (RemoteStatus.runStatus response.status.id ≠ .success → Text.blank o.stderr = false →
          (o'.stderr = o.stderr ↔ source.prependLines = 0 ∨
            Traceback.programLine o.stderr.toList = none))
  /-- Loading a program into a challenge gives the same, and so does each call of its functions. -/
  played {i : Nat} : i < s.challengeTable.length → ∀ calls,
    (Challenge.played i source calls others s).1 = (Challenge.played i source.bare calls others s).1

/-- A scaffold of blank lines and comments is not seen, except in the printed errors of a judge. -/
theorem Source.quiet_unseen (hquiet : source.Quiet) (ho : others.Absent) (hs : s.Sane)
    (hgenuine : s.Genuine) : source.Unseen others s where
  executed hsource hconsumed hlocal := by
    subst hsource
    exact Execution.execute_bare hquiet hconsumed ho hgenuine hlocal
  judged hsource hfound hfound' hbelow := by
    subst hsource
    obtain ⟨haccount, hprinted⟩ := Execution.execute_below rfl hfound hfound' hbelow _
    refine ⟨haccount, fun o o' ho ho' => ?_⟩
    obtain ⟨herrors, herrors'⟩ := hprinted o o' ho ho'
    rw [herrors, herrors']
    exact ⟨rfl, rfl, fun hfailed => (hbelow.report hfailed).eq_iff⟩
  played {i} hi calls := by
    obtain ⟨b, p, hagree, hbeside⟩ :=
      Challenge.coupled_load hquiet ho hs hgenuine (List.getElem?_eq_getElem hi)
    rw [Challenge.played_eq, Challenge.played_eq, alike_eq hagree.result,
      Challenge.callAll_coupled ho ⟨hagree.state, hbeside⟩ calls]

/-- A program that prints a name that is not there. -/
def misnaming : Execution.Request :=
  { source := { code := "[\"print\", \x7b\"var\": \"y\"\x7d]", prepend := "# c" }
    key := "k", values := [], timeout := .ofInt 10 }

/-- Where the program fails, as it is printed when it is on this line. -/
def misnamedAt (line : Nat) : List Traceback.Entry :=
  [.other "Traceback (most recent call last):".toList,
    .place "  ".toList "script.py".toList line ", in <module>".toList]

def blamed (line : Nat) : String :=
  Traceback.printed (misnamedAt line) "NameError: name 'y' is not defined".toList

/-- A sandbox in which no interpreter starts, with a judge who reports a line. -/
def Sandbox.blaming (line : Nat) : Sandbox :=
  { judged with remoteScript := [
      { ended := some (.answer 201 (.json (.obj [("token", .str "t")]))) },
      { ended := some (.answer 200 (.json (.obj [("status", .obj [("id", .int 11)]),
          ("stderr", .str (blamed line))]))) }] }

def RemoteResponse.blaming (line : Nat) : RemoteResponse :=
  { status := ⟨11, ""⟩, stderr := some (blamed line) }

theorem RemoteResponse.blaming_below : (blaming 1).Below 1 (blaming 2) where
  status := rfl
  stdout := rfl
  time := rfl
  report _ := by
    have hlegible : ∀ e ∈ misnamedAt 1, (e.below 1).Legible := by
      intro e he
      obtain rfl | rfl := List.mem_pair.mp he
      · exact .other ⟨by decide +kernel, by decide +kernel⟩
      · refine .place ?_ ?_ ?_ ?_ ⟨?_, ?_⟩ <;> decide +kernel
    exact .report hlegible ⟨⟨by decide +kernel, by decide +kernel⟩, by decide +kernel,
      by decide +kernel⟩

theorem Sandbox.blaming_genuine (line : Nat) : (Sandbox.blaming line).Genuine where
  byInputs h := nomatch h
  children _ h := nomatch h
  scripts x hx := by
    have hnone : ∀ x ∈ (Sandbox.blaming line).scripts, x.replies = [] := by
      simp [Sandbox.blaming, judged]
    intro a ha
    rw [hnone x hx] at ha
    exact absurd ha List.not_mem_nil

theorem Execution.referred_blaming :
    Referred misnaming.bare (fun _ s => s) (Sandbox.blaming 1) (.blaming 1) ∧
      Referred misnaming (fun _ s => s) (Sandbox.blaming 2) (.blaming 2) :=
  ⟨.of_found rfl (by decide +kernel), .of_found rfl (by decide +kernel)⟩

/-- The line that is told is the one of the code, but what the judge has printed has the line of the
scaffold. -/
theorem Source.quiet_unseen_blamed : ∃ o o',
    (Execution.execute Contexts.onSweep (fun _ => pure ()) misnaming.bare (fun _ s => s)
      (Sandbox.blaming 1)).1 = .ok o ∧
    (Execution.execute Contexts.onSweep (fun _ => pure ()) misnaming (fun _ s => s)
      (Sandbox.blaming 2)).1 = .ok o' ∧
    o'.account = o.account ∧ o.error = some "Line 1: NameError: name 'y' is not defined" ∧
    o.stderr = blamed 1 ∧ o'.stderr = blamed 2 ∧ o'.stderr ≠ o.stderr := by
  have hsane : (Sandbox.blaming 2).Sane := { Sandbox.fresh_usual.sound.toSane with }
  have hunseen : misnaming.source.Unseen (fun _ s => s) (Sandbox.blaming 2) :=
    Source.quiet_unseen (by decide +kernel) (fun _ _ => rfl) hsane (Sandbox.blaming_genuine 2)
  obtain ⟨hfound, hfound'⟩ := Execution.referred_blaming
  obtain ⟨haccount, hprinted⟩ := @Source.Unseen.judged _ _ _ hunseen (fun _ => pure ()) misnaming
    _ _ _ rfl hfound hfound' RemoteResponse.blaming_below
  have herror : (Execution.execute Contexts.onSweep (fun _ => pure ()) misnaming.bare (fun _ s => s)
      (Sandbox.blaming 1)).1.toOption.map Outcome.error =
        some (some "Line 1: NameError: name 'y' is not defined") := by decide +kernel
  rcases hbare : (Execution.execute Contexts.onSweep (fun _ => pure ()) misnaming.bare
    (fun _ s => s) (Sandbox.blaming 1)).1 with e | o <;> rw [hbare] at haccount herror hprinted
  · nomatch herror
  rcases hdressed : (Execution.execute Contexts.onSweep (fun _ => pure ()) misnaming (fun _ s => s)
    (Sandbox.blaming 2)).1 with e | o' <;> rw [hdressed] at haccount hprinted
  · nomatch haccount
  obtain ⟨hstderr, hstderr', -⟩ := hprinted o o' rfl rfl
  refine ⟨o, o', rfl, rfl, Except.ok.inj haccount, Option.some.inj herror, hstderr, hstderr', ?_⟩
  rw [hstderr, hstderr']
  decide +kernel

end Rerun
