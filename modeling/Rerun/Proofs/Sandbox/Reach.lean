import Rerun.Proofs.Sandbox.Commands

/-!
The states that clients can bring about by orderly commands: those of the service and the engine,
and single executions, acquisitions and teardowns on sessions of their own. They may be at rest or
in the middle of requests. All of them are sound.
-/

namespace Rerun

open Sandbox Op

variable {alone : Prop} {s t : Sandbox}

/-- Commands that leave it to the engine to hold the sessions of contexts, and to the registry to
write its files. -/
def Command.isOrderly : Command → Bool
  | .execute _ key .. => key ≠ "" && key.toList.head? ≠ some 'r'
  | .runNew .. | .runStart .. | .runResume .. | .runCancel .. => false
  | .hold .. | .release .. | .writeMetadata .. | .handleNew .. | .handle .. => false
  | _ => true

/-! ### Commands -/

theorem Conversation.pervades_keeps : Conversation.Pervades fun x => x.Keeps False where
  toComposes := composes_keeps
  queues _ := .change fun s hs => ⟨{ hs with }, { Meanwhile.refl s with }⟩
  dropChallenge n := .change fun _ hs => hs.dropChallenge n
  reset := Registry.keeps_reset
  note := Registry.keeps_note
  abandon := Contexts.keeps_abandon
  challengeOf := Contexts.keeps_challengeOf
  teardown := Challenge.keeps_teardown
  load := Challenge.keeps_load Contexts.keeps_onSweep
  invoke := Challenge.keeps_invoke
  one := Grading.keeps_one Contexts.keeps_onSweep

namespace Conversation

theorem keeps_execute (source : Source) {key : String} (inputs : List String) (seed : Option Int)
    (mode : RunMode) (timeout : Binary64) (echo : Bool) (runId : Option String) (cancel : CancelAt)
    (hkey : key ≠ "") (hrun : ∀ c, key ≠ Contexts.runKey c) :
    (execute source key inputs seed mode timeout echo runId cancel).Keeps False :=
  pervades_keeps.execute fun _ s hs => Execution.safe_execute hs Contexts.keeps_onSweep
    (fun _ => pervades_keeps.queues _) hkey (Registry.claimed_of_ne hrun s)

theorem keeps_seedTable (request : SeedRequest) (runId : String) :
    (seedTable request runId).Keeps False := by
  cases request with
  | draw => exact composes_keeps.map _ (Seeds.keeps_draw _ _)
  | seed => exact composes_keeps.map _ (Seeds.keeps_find? _ _)
  | apply => exact composes_keeps.map _ (Seeds.keeps_draw _ _)
  | reset => exact pervades_keeps.quiet (Seeds.keeps_forget _ _)

theorem keeps_perform {c : Command} (h : c.isOrderly = true) : (perform c).Keeps False := by
  have hP := pervades_keeps
  cases c with
  | submit c source prior newest =>
      exact hP.gives (hP.map _ (Contexts.keeps_submit c source prior newest))
  | execute source key inputs seed mode timeout echo runId cancel =>
      have hkey : key ≠ "" ∧ key.toList.head? ≠ some 'r' := by
        simpa [Command.isOrderly] using h
      exact hP.gives (keeps_execute source inputs seed mode timeout echo runId cancel hkey.1
        (Contexts.ne_runKey hkey.2))
  | acquire key =>
      exact hP.gives (hP.map _ (Registry.keeps_acquire Contexts.keeps_onSweep key))
  | http method path body => exact hP.map _ (hP.answer fun c _ => Contexts.keeps_submit c)
  | seedTable request runId => exact hP.gives (keeps_seedTable request runId)
  | runNew | runStart | runResume | runCancel => exact absurd h nofun
  | hold | release | writeMetadata | handleNew | handle => exact absurd h nofun
  | _ => exact hP.perform rfl

theorem ends_respond {c : Command} (h : c.isOrderly = true) (hs : s.Sound)
    {others others' : Interrupts} (ht : others.Tame) (hagree : others.Agree others') :
    respond c others s = respond c others' s ∧
      (respond c others s).2.Sound ∧ Meanwhile False s (respond c others s).2 := by
  have hs' : Sound { s with overheard := [] } := { hs with }
  obtain ⟨heq, hsound, hm⟩ := keeps_perform h _ hs' others others' ht hagree
  refine ⟨?_, ?_⟩
  · unfold respond
    rw [heq]
  · exact ⟨{ hsound with }, { hm with }⟩

end Conversation

/-! ### Reachable states -/

/-- What orderly clients can do: they give commands one after the other, and while the request of a
command is on its way, others act in the same manner. -/
inductive Acts : Sandbox → Sandbox → Prop where
  | rest (s : Sandbox) : Acts s s
  | act {s t : Sandbox} (c : Command) {others : Interrupts} : Acts s t → c.isOrderly = true →
      (∀ commands u, Acts u (others commands u)) → Acts s (Conversation.respond c others t).2
  | hear {s t : Sandbox} (r : Response) : Acts s t → Acts s (t.overhear r)

def Interrupts.Orderly (others : Interrupts) : Prop := ∀ commands u, Acts u (others commands u)

theorem Acts.sound (h : Acts s t) (hs : s.Sound) : t.Sound ∧ Meanwhile False s t := by
  induction h with
  | rest s => exact ⟨hs, .refl s⟩
  | act c _ hc _ ih iho =>
      obtain ⟨ht, hm⟩ := ih hs
      obtain ⟨-, hu, hm'⟩ := Conversation.ends_respond hc ht (fun _ u hu => iho _ u hu)
        fun _ _ _ => rfl
      exact ⟨hu, hm.trans hm'⟩
  | hear r _ ih =>
      obtain ⟨ht, hm⟩ := ih hs
      exact ⟨{ ht with }, { hm with }⟩

theorem Interrupts.Orderly.tame {others : Interrupts} (h : others.Orderly) : others.Tame :=
  fun commands u hu => (h commands u).sound hu

/-- What other clients do of the commands that are orderly, to a depth. -/
def Sandbox.orderly : (depth : Nat) → Interrupts
  | 0 => fun _ s => s
  | depth + 1 => fun commands s =>
    (commands.filter (·.isOrderly)).foldl (fun s c =>
      let (r, s) := Conversation.respond c (orderly depth) s
      s.overhear r) s

theorem Sandbox.orderly_orderly (depth : Nat) : (orderly depth).Orderly := by
  induction depth with
  | zero => exact fun _ s => .rest s
  | succ depth ih =>
      exact fun commands u => List.foldlRecOn _ _ (.rest u) fun _ ht c hc =>
        .hear _ (.act c ht (List.mem_filter.mp hc).2 ih)

/-- Nothing has happened yet. -/
structure Sandbox.Fresh (s : Sandbox) : Prop where
  children : s.children = []
  folders : s.folders = []
  handles : s.handles = []
  records : s.records = []
  sessions : s.sessions = []
  runs : s.runs = []
  contexts : s.contexts = []
  challengeTable : s.challengeTable = []
  challenges : s.challenges = []

theorem Sandbox.Fresh.sound (h : s.Fresh) : s.Sound where
  session hk := by simp [h.sessions] at hk
  listed he := by simp [h.sessions] at he
  single hk := by simp [h.sessions] at hk
  record hx := by simp [h.records] at hx
  handle hx := by simp [h.handles] at hx
  metadata := by
    rw [h.folders]
    exact Folders.proper_nil
  context hc := by simp [h.contexts] at hc
  challenge hn := by simp [h.challenges] at hn
  challengeKey hx := by simp [h.challengeTable] at hx
  ids := ⟨[], by simp [h.runs]⟩
  claim hk := by simp [h.sessions] at hk

/-- A sandbox with the usual settings, before its first command. -/
def Sandbox.usual : Sandbox where
  setup := {
    sessionRoot := Path.work.resolve "sessions"
    startupTimeout := .ofInt 10
    idleTimeout := .ofInt 2700
    keepLogs := false
    runTimeoutMs := 10000
    batchTimeout := .ofInt 15
    challengeTimeoutMs := 5000
    remote := none
    remoteMaxWait := .ofInt 10 }

theorem Sandbox.fresh_usual : usual.Fresh := ⟨rfl, rfl, rfl, rfl, rfl, rfl, rfl, rfl, rfl⟩

/-- The states that orderly clients can bring about, at rest and amid requests. A request is on its
way in a state when it makes a difference to its command what others do there. -/
inductive Reachable : Sandbox → Prop where
  | fresh {s : Sandbox} : s.Fresh → Reachable s
  | acts {s t : Sandbox} : Reachable s → Acts s t → Reachable t
  | amid {s t : Sandbox} {c : Command} {others others' : Interrupts} : Reachable s →
      c.isOrderly = true → others.Orderly → others'.Orderly →
      (∀ commands u, u ≠ t → others commands u = others' commands u) →
      Conversation.respond c others s ≠ Conversation.respond c others' s → Reachable t

theorem Reachable.orderly (h : Reachable s) (depth : Nat) (commands : List Command) :
    Reachable (orderly depth commands s) :=
  h.acts (orderly_orderly depth commands s)

theorem Reachable.sound (h : Reachable s) : s.Sound := by
  induction h with
  | fresh h => exact h.sound
  | acts _ ha ih => exact (ha.sound ih).1
  | amid _ hc ho _ hagree hne ih =>
      refine Classical.byContradiction fun ht => ?_
      refine hne (Conversation.ends_respond hc ih ho.tame fun commands u hu => ?_).1
      refine hagree commands u ?_
      rintro rfl
      exact ht hu

end Rerun
