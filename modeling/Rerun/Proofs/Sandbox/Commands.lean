import Rerun.Conversation
import Rerun.Proofs.Sandbox.Clients

/-!
What the commands of clients are made of. Whatever is handed on to what is put together from
operations, and holds of what is done to sessions, contexts and challenges
(`Conversation.Pervades`), holds of the commands and of the answers of the service. Submissions and
executions are left to the property in question, which may depend on the context or the key that
they name.
-/

namespace Rerun

open Sandbox Op

/-! ### Challenges and gradings -/

namespace Op.Composes

variable {P : ∀ {α : Type}, Op α → Prop} (hP : Composes @P) {listener : String → Op Unit}

section

variable {i : Nat}
  (hset : ∀ {f : Challenge → Challenge}, (∀ c, (f c).key = c.key) → P (setChallenge i f))
  (hused : ∀ key path body timeout,
    P (Registry.holding key fun h => Interpreter.post h path body timeout))

include hP hset hused

/-- A program is loaded into a session that is got under the key of the challenge. -/
theorem load {source : Source} (hteardown : P (Challenge.teardown i))
    (hseat : ∀ {use : Challenge → Op Json}, (∀ c, P (use c)) → P (do
      let c ← challenge i
      let _ ← Registry.acquire listener (some c.key)
      use c)) : P (Challenge.load listener i source) := by
  refine hP.bind hteardown fun _ => hP.bind (hset fun _ => rfl) fun _ => hseat fun c => ?_
  refine hP.bind (hP.rescue (hused _ _ _ _) fun _ => hP.fail _) fun reply =>
    hP.bind (hP.passes (Challenge.passes_fieldsOf reply)) fun fields =>
    iteInduction (fun _ => ?_) fun _ => ?_
  · exact hP.bind hteardown fun _ => hP.bind (hP.passes (Challenge.passes_describe i fields))
      fun _ => hP.fail _
  · exact hP.bind (hset fun _ => rfl) fun _ => hP.pure _

theorem invoke {function : String} {args : List Json} :
    P (Challenge.invoke i function args) := by
  have hfailure (e : Failure) : P (Challenge.callFailure i function e) :=
    iteInduction (fun _ => hP.bind (hset fun _ => rfl) fun _ => hP.fail _) fun _ =>
      iteInduction (fun _ => hP.bind (hset fun _ => rfl) fun _ => hP.fail _) fun _ => hP.fail _
  refine hP.bind (hP.need _) fun c => iteInduction (fun _ => hP.fail _) fun _ => ?_
  refine hP.bind (hP.rescue (hused _ _ _ _) hfailure) fun reply =>
    hP.bind (hset fun _ => rfl) fun _ =>
    hP.bind (hP.passes (Challenge.passes_fieldsOf reply)) fun fields =>
    hP.bind (hset fun _ => rfl) fun _ => iteInduction (fun _ => ?_) fun _ => hP.pure _
  exact hP.bind (hP.passes (Challenge.passes_describe i fields)) fun _ => hP.fail _

end

include hP

/-- A case is executed on a session of its own, which is taken down afterwards. -/
theorem one {r : Grading.Request} (hdraw : P drawId)
    (hrun : ∀ id (q : Execution.Request), q.key = Grading.sessionKey id →
      P (Op.ensuring (Op.outcome (Execution.execute listener (fun _ => Pure.pure ()) q))
        (Registry.reset q.key))) : P (Grading.one listener r) := by
  refine hP.bind (hP.ofExcept _) fun checker => hP.bind hdraw fun id =>
    hP.bind (hP.view _) fun usual => hP.bind (hrun id _ rfl) fun _ => hP.ofExcept _

end Op.Composes

/-! ### What commands are made of -/

/-- A property that is handed on, and that the operations on sessions, contexts and challenges
have of which the commands of clients are made. -/
structure Conversation.Pervades (P : ∀ {α : Type}, Op α → Prop) : Prop extends Op.Composes @P where
  queues (f : Sandbox → List InputQueue) : P (Op.change fun s => { s with queues := f s })
  dropChallenge (n : String) :
    P (Op.change fun s => { s with challenges := Assoc.drop s.challenges n })
  reset (key : String) : P (Registry.reset key)
  note (key : String) (entry : Json) : P (Registry.note key entry)
  abandon (c : String) : P (Contexts.abandon c)
  challengeOf (n : String) : P (Contexts.challengeOf n)
  teardown (i : Nat) : P (Challenge.teardown i)
  load (i : Nat) (source : Source) : P (Challenge.load Contexts.onSweep i source)
  invoke (i : Nat) (function : String) (args : List Json) : P (Challenge.invoke i function args)
  one (r : Grading.Request) : P (Grading.one Contexts.onSweep r)

namespace Service

def Submits (c method address : String) (body : Body) : Prop :=
  targetOf (method.map Char.toUpper) 20 address = .route .submitRun ∧
    ∃ j, fitRequest RunRequest.shape body = .ok j ∧ (RunRequest.ofFields j).context = c

end Service

/-- Commands that are made of nothing else: they neither submit nor ask for a session by its key,
and have nothing to do with runs, seeds, holds and handles that clients keep by themselves. -/
def Command.isCommon : Command → Bool
  | .submit .. | .execute .. | .acquire .. | .http .. => false
  | .runNew .. | .runStart .. | .runResume .. | .runCancel .. | .seedTable .. => false
  | .hold .. | .release .. | .writeMetadata .. | .handleNew .. | .handle .. => false
  | _ => true

namespace Conversation

theorem passes_fitted {α : Type} (read : Json → Except (List Issue) α) (j : Json) :
    (fitted read j).Passes := by
  unfold fitted
  split
  · exact .pure _
  · exact .fail _

theorem passes_listed (i : Nat) : (listed i).Passes := .rescue (.need _) fun _ => .fail _

theorem passes_contextJson (c : String) : (contextJson c).Passes := by
  refine .bind (.view _) fun found => ?_
  split
  · exact .pure _
  · exact Run.passes_info _

theorem passes_readMetadata (name : String) : (readMetadata name).Passes := by
  refine .bind (.view _) fun found => ?_
  dsimp only
  split
  · exact .pure _
  · exact .pure _
  · exact .fail _

end Conversation

namespace Conversation.Pervades

variable {P : ∀ {α : Type}, Op α → Prop} (hP : Conversation.Pervades @P)

include hP

/-! ### Closing and grading -/

theorem closeChallenge (n : String) : P (Contexts.closeChallenge n) := by
  refine hP.bind (hP.view _) fun found => ?_
  split
  · exact hP.pure _
  · exact hP.bind (hP.dropChallenge n) fun _ => hP.teardown _

theorem closeAll : P Contexts.closeAll := by
  have hclosed : (Op.change fun s => { s with remoteClosed := true }).Passes :=
    .change fun s => { Sandbox.Passes.refl s with tables := { SameTables.refl s with } }
  exact hP.bind (hP.view _) fun _ => hP.bind (hP.forM hP.abandon) fun _ =>
    hP.bind (hP.view _) fun _ => hP.bind (hP.forM hP.closeChallenge) fun _ =>
    hP.bind (hP.resetAll hP.reset) fun _ => hP.passes hclosed

theorem all (source : Source) (cases : List TestCase) (options : GradingOptions) :
    P (Grading.all Contexts.onSweep source cases options) := by
  rw [Grading.all_eq]
  exact hP.bind (hP.ofExcept _) fun _ => hP.bind (hP.ofExcept _) fun _ => hP.mapM hP.one

/-! ### The service -/

theorem withBody {shape : Shape} {body : Body} {use : Json → Op Reply}
    (h : ∀ j, Service.fitRequest shape body = .ok j → P (use j)) :
    P (Service.withBody shape body use) := by
  unfold Service.withBody
  split
  · exact h _ ‹_›
  · exact hP.pure _

theorem reporting {x : Op Reply} (hx : P x) : P (Service.reporting x) :=
  hP.rescue hx fun _ => iteInduction (fun _ => hP.pure _) fun _ => hP.fail _

theorem reportingValues {x : Op Reply} (hx : P x) : P (Service.reportingValues x) :=
  hP.rescue hx fun _ => iteInduction (fun _ => hP.pure _) fun _ => hP.fail _

theorem guarded {x : Op Reply} (hx : P x) : P (Service.guarded x) :=
  hP.rescue hx fun _ => iteInduction (fun _ => hP.fail _) fun _ => hP.pure _

theorem handle {body : Body} {r : Service.Route}
    (hsubmit : r = .submitRun → ∀ j, Service.fitRequest Service.RunRequest.shape body = .ok j →
      ∀ source prior newest,
        P (Contexts.submit (Service.RunRequest.ofFields j).context source prior newest)) :
    P (Service.handle body r) := by
  cases r with
  | health => exact hP.pure _
  | submitRun =>
      exact hP.withBody fun j hj => hP.reporting (hP.bind (hsubmit rfl j hj _ _ _)
        fun _ => hP.pure _)
  | abandonRun c => exact hP.bind (hP.abandon c) fun _ => hP.pure _
  | grade =>
      exact hP.withBody fun j _ => hP.reportingValues (hP.bind (hP.all _ _ _) fun _ => hP.pure _)
  | loadChallenge n =>
      exact hP.withBody fun j _ => hP.reporting (hP.bind (hP.challengeOf n) fun i =>
        hP.bind (hP.load i _) fun _ => hP.pure _)
  | invokeChallenge n =>
      exact hP.withBody fun j _ => hP.bind (hP.challengeOf n) fun i =>
        hP.reporting (hP.bind (hP.invoke i _ _) fun _ => hP.bind (hP.need _) fun _ => hP.pure _)
  | closeChallenge n => exact hP.bind (hP.closeChallenge n) fun _ => hP.pure _

theorem answer {method address : String} {body : Body}
    (hsubmit : ∀ c, Service.Submits c method address body → ∀ source prior newest,
      P (Contexts.submit c source prior newest)) : P (Service.answer method address body) := by
  unfold Service.answer
  cases htarget : Service.targetOf (method.map Char.toUpper) 20 address with
  | route r =>
      refine hP.guarded (hP.handle ?_)
      rintro rfl j hj
      exact hsubmit _ ⟨htarget, j, hj, rfl⟩
  | wrongMethod => exact hP.pure _
  | moved path => exact hP.pure _
  | unknown => exact hP.pure _

/-! ### Commands -/

theorem gives {x : Op Json} (hx : P x) : P (Conversation.gives x) := hP.map _ hx

theorem quiet {x : Op Unit} (hx : P x) : P (Conversation.quiet x) := hP.bind hx fun _ => hP.pure _

theorem grade (source : String) (cases : List Json) (options : Json) :
    P (Conversation.grade source cases options) := by
  refine hP.bind (hP.mapM fun _ => hP.passes (Conversation.passes_fitted _ _)) fun cases => ?_
  have hlast (options : GradingOptions) : P (do
      let verdicts ← Contexts.grade source cases options
      Pure.pure (summaryJson verdicts) : Op Json) :=
    hP.bind (hP.all _ _ _) fun _ => hP.pure _
  dsimp only
  split
  · exact hP.bind (hP.pure _) hlast
  · exact hP.bind (hP.passes (Conversation.passes_fitted _ _)) hlast

theorem execute {source : Source} {key : String} {inputs : List String} {seed : Option Int}
    {mode : RunMode} {timeout : Binary64} {echo : Bool} {runId : Option String} {cancel : CancelAt}
    (h : ∀ i, P (Execution.execute Contexts.onSweep (Conversation.markConsumed i) {
      source, key, values := inputs, seed, mode, timeout, echo, runId, cancel := .at cancel })) :
    P (Conversation.execute source key inputs seed mode timeout echo runId cancel) :=
  hP.bind (hP.view _) fun i => hP.bind (hP.queues _) fun _ => hP.bind (h i) fun _ =>
    hP.bind (hP.need _) fun _ => hP.pure _

theorem lifespan (own : Bool) : P (Conversation.lifespan own) := by
  unfold Conversation.lifespan
  cases own with
  | true => exact hP.bind hP.closeAll fun _ => hP.pure _
  | false => exact hP.bind (hP.pure _) fun _ => hP.pure _

/-- A property that pervades what commands are made of is one of the common commands. -/
theorem perform {c : Command} (h : c.isCommon = true) : P (Conversation.perform c) := by
  cases c with
  | submit | execute | acquire | http => exact absurd h nofun
  | runNew | runStart | runResume | runCancel | seedTable => exact absurd h nofun
  | hold | release | writeMetadata | handleNew | handle => exact absurd h nofun
  | unfit issues => exact hP.gives (hP.fail _)
  | advance ms =>
      exact hP.gives (hP.bind (hP.passes (.setClock _)) fun _ => hP.map _ (hP.passes .now))
  | clock => exact hP.gives (hP.map _ (hP.passes .now))
  | die i =>
      exact hP.gives (hP.bind (hP.passes (Conversation.passes_listed i)) fun _ =>
        hP.bind (hP.passes (.setChild i fun _ => ⟨rfl, rfl, id, nofun⟩)) fun _ => hP.pure _)
  | posts i =>
      exact hP.gives (hP.bind (hP.passes (Conversation.passes_listed i)) fun _ => hP.pure _)
  | children | remoteRequests | sessions | sessionState | swept => exact hP.gives (hP.view _)
  | childSettings => exact hP.gives (hP.pure _)
  | resetRun c => exact hP.gives (hP.quiet (hP.abandon c))
  | getRun c => exact hP.gives (hP.passes (Conversation.passes_contextJson c))
  | batch source cases options => exact hP.gives (hP.grade source cases options)
  | gradeOne => exact hP.gives (hP.map _ (hP.one _))
  | challengeLoad n source =>
      exact hP.gives (hP.bind (hP.challengeOf n) fun i => hP.load i source)
  | challengeInvoke n function args =>
      exact hP.gives (hP.bind (hP.challengeOf n) fun i => hP.invoke i function args)
  | challengeInfo n =>
      exact hP.gives (hP.bind (hP.challengeOf n) fun i => hP.map _ (hP.need _))
  | challengeTeardown n =>
      exact hP.gives (hP.bind (hP.challengeOf n) fun i => hP.quiet (hP.teardown i))
  | challengeClose n => exact hP.gives (hP.quiet (hP.closeChallenge n))
  | close => exact hP.gives (hP.quiet hP.closeAll)
  | runInfo name => exact hP.gives (hP.bind (hP.need _) fun i => hP.passes (Run.passes_info i))
  | sessionInfo key =>
      exact hP.gives (hP.bind (hP.passes (Op.Passes.chains.get key)) fun _ =>
        hP.bind (hP.need _) fun _ => hP.view _)
  | reset key => exact hP.gives (hP.quiet (hP.reset key))
  | resetAll => exact hP.gives (hP.bind (hP.resetAll hP.reset) fun _ => hP.pure _)
  | record key entry => exact hP.gives (hP.quiet (hP.note key entry))
  | readJournal folder => exact hP.gives (hP.bind (hP.view _) fun _ => hP.pure _)
  | readMetadata folder => exact hP.gives (hP.passes (Conversation.passes_readMetadata folder))
  | remoteSubmit source stdin expected =>
      exact hP.gives (hP.bind (hP.need _) fun c =>
        (Op.pervades_requests.submit c source stdin expected).of_composes hP.toComposes)
  | remotePoll token =>
      exact hP.gives (hP.bind (hP.need _) fun c =>
        hP.bind ((Op.pervades_requests.poll c _).of_composes hP.toComposes) fun _ => hP.pure _)
  | remoteExecute source stdin expected maxWait cancel =>
      exact hP.gives (hP.bind (hP.need _) fun c =>
        hP.bind ((Op.pervades_requests.execute c _ _ _ _ _).of_composes hP.toComposes) fun _ =>
          hP.pure _)
  | lifespan own => exact hP.gives (hP.lifespan own)

end Conversation.Pervades

end Rerun
