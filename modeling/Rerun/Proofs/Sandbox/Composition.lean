import Rerun.Contexts

/-!
Properties of operations that are handed on to what is put together from operations with them
(`Op.Chains`). Such a property holds of whatever interpreters do when it holds of what is changed
then (`Process.Answers`, `Process.Serves`); of whatever is done to interpreters when it holds of
what is done to processes and handles (`Interpreter.Pervades`); and of whatever the registry does to
start, use and take down sessions when it holds of what is done to its tables and files
(`Registry.PervadesStarts`, `Registry.Pervades`). Of an execution it holds when it holds of what the
execution makes use of.
-/

namespace Rerun

open Sandbox

/-! ### What is handed on -/

/-- A property that operations have which leave the sandbox as it is, and that is handed on to what
is put together from operations with it. -/
structure Op.Chains (P : ∀ {α : Type}, Op α → Prop) : Prop where
  still {α : Type} {x : Op α} : (∀ s, ∃ r, ∀ others, x others s = (r, s)) → P x
  bind {α β : Type} {x : Op α} {f : α → Op β} : P x → (∀ a, P (f a)) → P (x >>= f)

namespace Op.Chains

variable {α β : Type} {P : ∀ {α : Type}, Op α → Prop} (hP : Chains @P)

include hP

theorem pure (a : α) : P (pure a : Op α) := hP.still fun _ => ⟨_, fun _ => rfl⟩

theorem fail (e : Failure) : P (Op.fail e : Op α) := hP.still fun _ => ⟨_, fun _ => rfl⟩

theorem ofExcept (r : Except Failure α) : P (Op.ofExcept r) := by
  cases r with
  | ok a => exact hP.pure a
  | error e => exact hP.fail e

theorem view (f : Sandbox → α) : P (Op.view f) := hP.still fun _ => ⟨_, fun _ => rfl⟩

theorem need (find : Sandbox → Option α) : P (Sandbox.need find) :=
  hP.still fun s => by
    unfold Sandbox.need
    cases find s with
    | none => exact ⟨_, fun _ => rfl⟩
    | some a => exact ⟨_, fun _ => rfl⟩

theorem map (f : α → β) {x : Op α} (hx : P x) : P (f <$> x) := hP.bind hx fun _ => hP.pure _

theorem forM {xs : List α} {f : α → Op Unit} (h : ∀ a, P (f a)) : P (xs.forM f) := by
  induction xs with
  | nil => exact hP.pure ()
  | cons a xs ih => exact hP.bind (h a) fun _ => ih

theorem mapM {xs : List α} {f : α → Op β} (h : ∀ a, P (f a)) : P (xs.mapM f) := by
  have loop (ys : List β) : P (List.mapM.loop f xs ys) := by
    induction xs generalizing ys with
    | nil => exact hP.pure _
    | cons a xs ih => exact hP.bind (h a) fun b => ih (b :: ys)
  exact loop []

theorem keyFor (hdraw : P drawId) (key : Option String) : P (Registry.keyFor key) := by
  have hanonymous : P Registry.keyFor.anonymous := hP.bind hdraw fun _ => hP.pure _
  unfold Registry.keyFor
  split
  · exact iteInduction (fun _ => hanonymous) fun _ => hP.pure _
  · exact hanonymous

theorem readBody (body : Body) : P (Interpreter.readBody body) := by
  unfold Interpreter.readBody
  split
  · exact hP.pure _
  · exact hP.fail _
  · split
    · exact hP.pure _
    · exact hP.fail _

theorem shownOf (h : Nat) (path : String) : P (Interpreter.shownOf h path) :=
  iteInduction (fun _ => hP.bind (hP.need _) fun _ => hP.view _) fun _ => hP.pure _

theorem get (key : String) : P (Registry.get key) :=
  hP.still fun s => by
    unfold Registry.get
    cases Registry.find? s key with
    | none => exact ⟨_, fun _ => rfl⟩
    | some r => exact ⟨_, fun _ => rfl⟩

/-! ### Sweeps -/

theorem sweepAll {listener : String → Op Unit} (hreset : ∀ key, P (Registry.reset key))
    (hlistener : ∀ key, P (listener key)) (before : Sandbox) (entries : List (String × Nat)) :
    P (Registry.sweepAll listener before entries) := by
  induction entries with
  | nil => exact hP.pure _
  | cons entry entries ih =>
      exact hP.bind (hP.need _) fun info => iteInduction
        (fun _ => hP.bind (hreset _) fun _ => hP.bind (hlistener _) fun _ => ih) fun _ => ih

theorem sweep {listener : String → Op Unit} (hreset : ∀ key, P (Registry.reset key))
    (hlistener : ∀ key, P (listener key)) : P (Registry.sweep listener) :=
  hP.bind (hP.view _) fun before => hP.sweepAll hreset hlistener before before.sessions

theorem resetAll (hreset : ∀ key, P (Registry.reset key)) : P Registry.resetAll :=
  hP.bind (hP.view _) fun _ => hP.bind (hP.forM hreset) fun _ => hP.pure _

theorem forgetRun {c : String}
    (hleave : P (Op.change fun s => { s with contexts := Assoc.drop s.contexts c }))
    (hforget : ∀ owner runId, P (Seeds.forget owner runId)) : P (Contexts.forgetRun c) := by
  refine hP.bind (hP.view _) fun found => ?_
  split
  · exact hP.pure _
  · exact hP.bind (hP.need _) fun r => iteInduction (fun _ => hP.pure _) fun _ =>
      hP.bind hleave fun _ => hforget _ _

theorem forgetChallenge {n : String}
    (hdrop : P (Op.change fun s => { s with challenges := Assoc.drop s.challenges n }))
    (hexpire : ∀ i, P (Challenge.expire i)) : P (Contexts.forgetChallenge n) := by
  refine hP.bind (hP.view _) fun found => ?_
  split
  · exact hP.pure _
  · exact hP.bind hdrop fun _ => hexpire _

theorem onSweep {key : String}
    (hrun : ∀ c, Contexts.splitKey key = ("run", c) → P (Contexts.forgetRun c))
    (hchallenge : ∀ n, P (Contexts.forgetChallenge n))
    (hswept : P (Op.change fun s => { s with swept := s.swept ++ [key] })) :
    P (Contexts.onSweep key) := by
  have hforgets : P (Contexts.forgetFor (Contexts.splitKey key)) := by
    unfold Contexts.forgetFor
    split
    · exact hrun _ ‹_›
    · exact hchallenge _
    · exact hP.pure _
  exact hP.bind hforgets fun _ => hswept

end Op.Chains

/-! ### Processes that are asked -/

/-- A property that is handed on and that everything has that happens to a process, and to the
clock, when a function is called. -/
structure Process.Answers (P : ∀ {α : Type}, Op α → Prop) : Prop extends Op.Chains @P where
  take (i : Nat) (replies : List Scripted) : P (setChild i fun c =>
    { c with script := { c.script with replies } })
  elapse (ms : Int) : P (Op.change fun s => { s with clock := s.clock + ms })
  learn (i : Nat) (names : Program.Names) : P (setChild i fun c => { c with names })
  crash (i : Nat) : P (setChild i fun c => { c with alive := false })

namespace Process.Answers

variable {P : ∀ {α : Type}, Op α → Prop} (hP : Process.Answers @P)

include hP

theorem nextScripted (i : Nat) (path : String) (body : Json) :
    P (Process.nextScripted i path body) := by
  refine hP.bind (hP.view _) fun table => ?_
  split
  · exact hP.pure _
  · refine hP.bind (hP.need _) fun c => ?_
    split
    · exact hP.bind (hP.take i _) fun _ => hP.pure _
    · exact hP.pure _

theorem delivered (i : Nat) (answer : Serving.Answer) : P (Process.delivered i answer) := by
  cases answer with
  | crashed => exact hP.bind (hP.crash i) fun _ => hP.pure _
  | reply | refused | hung => exact hP.pure _

theorem serveCall (i : Nat) (request : Serving.CallRequest) : P (Process.serveCall i request) := by
  refine hP.bind (hP.need _) fun c => hP.bind (hP.view _) fun seed => ?_
  split
  · exact hP.delivered i _
  · exact hP.bind (hP.elapse _) fun _ => hP.bind (hP.learn i _) fun _ => hP.delivered i _

end Process.Answers

/-- A property that, besides, everything has that is done when a program is run. -/
structure Process.Serves (P : ∀ {α : Type}, Op α → Prop) : Prop extends Process.Answers @P where
  seed (seed : Option Int) : P (Op.change fun s => { s with
    appliedSeed := seed.or s.appliedSeed })
  shown (folder : Path) (content : Content) : P (writeShown folder content)

namespace Process.Serves

variable {P Q : ∀ {α : Type}, Op α → Prop} (hP : Process.Serves @P)

include hP

theorem imp (hQ : Op.Chains @Q) (h : ∀ {α : Type} {x : Op α}, P x → Q x) : Process.Serves @Q where
  toChains := hQ
  take i replies := h (hP.take i replies)
  elapse ms := h (hP.elapse ms)
  learn i names := h (hP.learn i names)
  crash i := h (hP.crash i)
  seed seed := h (hP.seed seed)
  shown folder content := h (hP.shown folder content)

theorem applySeed (seed : Option Int) : P (Process.applySeed seed) :=
  hP.bind (hP.seed seed) fun _ => hP.view _

theorem serveRun (i : Nat) (request : Serving.RunRequest) : P (Process.serveRun i request) :=
  hP.bind (hP.need _) fun _ => hP.bind (hP.view _) fun _ => iteInduction (fun _ => hP.view _)
    fun _ => hP.bind (hP.applySeed _) fun _ => hP.bind (hP.elapse _) fun _ =>
      hP.bind (hP.shown _ _) fun _ => hP.delivered i _

theorem serveLoad (i : Nat) (request : Serving.LoadRequest) : P (Process.serveLoad i request) :=
  hP.bind (hP.applySeed _) fun _ => hP.bind (hP.elapse _) fun _ => hP.bind (hP.learn i _) fun _ =>
    hP.delivered i _

theorem serve (i : Nat) (path : String) (body : Json) : P (Process.serve i path body) := by
  refine hP.bind (hP.need _) fun c => iteInduction (fun _ => hP.pure _) fun _ =>
    iteInduction (fun _ => ?_) fun _ => iteInduction (fun _ => ?_) fun _ => ?_
  · split
    · exact hP.serveRun i _
    · exact hP.pure _
  · split
    · exact hP.serveLoad i _
    · exact hP.pure _
  · split
    · exact hP.serveCall i _
    · exact hP.pure _

end Process.Serves

/-! ### Interpreters -/

theorem Op.Chains.kill {P : ∀ {α : Type}, Op α → Prop} (hP : Chains @P)
    (hchild : ∀ c {f : Child → Child}, (∀ y, (f y).posts = y.posts) → P (setChild c f)) (h : Nat) :
    P (Interpreter.kill h) := by
  refine hP.bind (hP.need _) fun x => ?_
  split
  · exact hP.pure _
  · have hpoll (c : Nat) : P (Process.poll c) :=
      hP.bind (hP.need _) fun _ => hP.bind (hchild c fun _ => rfl) fun _ => hP.pure _
    exact hP.bind (hpoll _) fun alive =>
      iteInduction (fun _ => hchild _ fun _ => rfl) fun _ => hP.pure _

theorem Op.Chains.askUp {P : ∀ {α : Type}, Op α → Prop} (hP : Chains @P) {h c : Nat}
    (hpoll : P (Process.poll c)) (hhealth : P (Process.health c)) (hreset : P (Interpreter.reset h))
    (deadline : Binary64) : P (Interpreter.askUp h c deadline) := by
  refine hP.bind (hP.need _) fun x => hP.bind (hP.view _) fun t => ?_
  refine iteInduction (fun _ => hP.bind hreset fun _ => hP.fail _) fun _ => ?_
  exact hP.bind hpoll fun alive => iteInduction (fun _ => hP.bind (hP.view _) fun tail =>
    hP.bind hreset fun _ => hP.fail _) fun _ => hhealth

theorem Op.Chains.awaitUp {P : ∀ {α : Type}, Op α → Prop} (hP : Chains @P) {h c : Nat}
    {deadline : Binary64} (hask : P (Interpreter.askUp h c deadline))
    (hsleep : ∀ seconds, P (Sandbox.sleep seconds)) (pending : List Health) :
    P (Interpreter.awaitUp h c deadline pending) := by
  induction pending with
  | nil =>
      refine hP.bind hask fun answer => ?_
      split
      · exact hP.ofExcept _
      · exact hP.pure _
  | cons a pending ih =>
      refine hP.bind hask fun answer => ?_
      split
      · exact hP.ofExcept _
      · exact hP.bind (hsleep _) fun _ => ih

/-- A property that is handed on and that everything has that is done to the tables and the files of
processes while an interpreter is started, looked after and taken down. -/
structure Interpreter.Pervades (P : ∀ {α : Type}, Op α → Prop) : Prop extends Op.Chains @P where
  child (c : Nat) {f : Child → Child} : (∀ y, (f y).posts = y.posts) → P (setChild c f)
  spawn (script : ChildScript) (folder : Path) (alive : Bool) : P (Op.change fun s => { s with
    scripts := s.scripts.tail
    children := s.children ++ [{ script, folder, alive }] })
  openLog (folder : Path) : P (Op.change fun s => { s with
    folders := s.folders.revise folder fun f =>
      { f with processLog := some (f.processLog.getD (.text "")) } })
  writeLog (folder : Path) (log : Content) : P (Op.change fun s => { s with
    folders := s.folders.update folder fun f =>
      { f with processLog := some (f.processLog.elim log (·.append log)) } })
  handle (h : Nat) (f : Handle → Handle) : P (setHandle h f)
  addHandle (folder : Path) (startupTimeout : Binary64) : P (Op.change fun s => { s with
    handles := s.handles ++ [{ folder, startupTimeout }] })
  sleep (seconds : Binary64) : P (sleep seconds)

namespace Interpreter.Pervades

variable {P Q : ∀ {α : Type}, Op α → Prop} (hP : Interpreter.Pervades @P)

include hP

theorem imp (hQ : Op.Chains @Q) (h : ∀ {α : Type} {x : Op α}, P x → Q x) :
    Interpreter.Pervades @Q where
  toChains := hQ
  child c _ hf := h (hP.child c hf)
  spawn script folder alive := h (hP.spawn script folder alive)
  openLog folder := h (hP.openLog folder)
  writeLog folder log := h (hP.writeLog folder log)
  handle i f := h (hP.handle i f)
  addHandle folder timeout := h (hP.addHandle folder timeout)
  sleep seconds := h (hP.sleep seconds)

theorem poll (c : Nat) : P (Process.poll c) :=
  hP.bind (hP.need _) fun _ => hP.bind (hP.child c fun _ => rfl) fun _ => hP.pure _

theorem health (c : Nat) : P (Process.health c) := by
  refine hP.bind (hP.need _) fun y => ?_
  split
  · exact hP.bind (hP.child c fun _ => rfl) fun _ => hP.pure _
  · exact hP.pure _

theorem launch (folder : Path) : P (Process.launch folder) := by
  refine hP.bind (hP.view _) fun index => hP.bind (hP.view _) fun script =>
    hP.bind (hP.spawn script folder _) fun _ => ?_
  split
  · exact hP.pure _
  · split
    · exact hP.pure _
    · exact hP.bind (hP.writeLog folder _) fun _ => hP.pure _

theorem create (folder : Path) (timeout : Binary64) : P (Interpreter.create folder timeout) :=
  hP.bind (hP.view _) fun _ => hP.bind (hP.addHandle folder timeout) fun _ => hP.pure _

theorem kill (h : Nat) : P (Interpreter.kill h) := hP.toChains.kill hP.child h

theorem reset (h : Nat) : P (Interpreter.reset h) :=
  hP.bind (hP.kill h) fun _ => hP.handle h _

theorem askUp (h c : Nat) (deadline : Binary64) : P (Interpreter.askUp h c deadline) :=
  hP.toChains.askUp (hP.poll c) (hP.health c) (hP.reset h) deadline

theorem awaitUp (h c : Nat) (deadline : Binary64) (pending : List Health) :
    P (Interpreter.awaitUp h c deadline pending) :=
  hP.toChains.awaitUp (hP.askUp h c deadline) hP.sleep pending

theorem attach (h : Nat) (timeout : Binary64) (launched : Except String Nat) :
    P (Interpreter.attach h timeout launched) := by
  cases launched with
  | error reason => exact hP.bind (hP.reset h) fun _ => hP.fail _
  | ok c =>
      exact hP.bind (hP.handle h _) fun _ => hP.bind (hP.view _) fun t =>
        hP.bind (hP.view _) fun pending => hP.awaitUp h c _ pending

theorem start (h : Nat) : P (Interpreter.start h) := by
  refine hP.bind (hP.need _) fun x => ?_
  split
  · exact hP.fail _
  · exact hP.bind (hP.view _) fun port => hP.bind (hP.openLog _) fun _ =>
      hP.bind (hP.handle h _) fun _ => hP.bind (hP.launch _) fun launched => hP.attach h _ launched

theorem probe (h : Nat) : P (Interpreter.probe h) := by
  refine hP.bind (hP.need _) fun x => ?_
  split
  · exact hP.pure _
  · refine hP.bind (hP.poll _) fun alive => ?_
    split
    · exact hP.pure _
    · refine hP.bind (hP.health _) fun answer => ?_
      split
      · exact hP.pure _
      · exact hP.pure _

end Interpreter.Pervades

/-! ### Sessions -/

namespace Op.Chains

variable {α : Type} {P : ∀ {α : Type}, Op α → Prop} (hP : Chains @P) {key : String}

include hP

theorem writeJournal (hjournal : ∀ folder line, P (Op.change fun s => { s with
      folders := s.folders.revise folder fun f =>
        { f with journal := some (f.journal.getD [] ++ [line]) } }))
    (entry : List (String × Json)) : P (Registry.writeJournal key entry) := by
  refine hP.bind (hP.view _) fun s => iteInduction (fun _ => hP.pure _) fun _ => ?_
  split
  · exact hP.pure _
  · exact hP.bind (hP.need _) fun info => hjournal _ _

theorem writeMetadata (hmetadata : ∀ folder j, P (Op.change fun s => { s with
      folders := s.folders.revise folder fun f => { f with metadata := some (some j) } }))
    (fields : List (String × Json)) : P (Registry.writeMetadata key fields) := by
  refine hP.bind (hP.view _) fun s => iteInduction (fun _ => hP.pure _) fun _ => ?_
  split
  · exact hP.pure _
  · exact hP.bind (hP.need _) fun info => hP.bind (hP.ofExcept _) fun merged => hmetadata _ _

/-- A session that is taken down is told of, dropped and stopped, and its folder goes when no logs
are kept. -/
theorem resetSession (hjournal : ∀ entry, P (Registry.writeJournal key entry))
    (hmetadata : ∀ fields, P (Registry.writeMetadata key fields))
    (hdrop : P (Op.change fun s => { s with sessions := Assoc.drop s.sessions key }))
    (hstop : ∀ h, P (Interpreter.reset h))
    (hremove : ∀ folder, P (Op.change fun s => { s with folders := s.folders.remove folder })) :
    P (Registry.reset key) := by
  refine hP.bind (hP.view _) fun found => ?_
  split
  · exact hP.pure _
  · exact hP.bind (hjournal _) fun _ => hP.bind (hP.need _) fun info => hP.bind (hP.view _) fun t =>
      hP.bind (hmetadata _) fun _ => hP.bind hdrop fun _ => hP.bind (hstop info.handle) fun _ =>
      hP.bind (hP.view _) fun drop => iteInduction (fun _ => hremove _) fun _ => hP.pure _

theorem usable {r : Nat} (hprobe : ∀ h, P (Interpreter.probe h))
    (htouch : ∀ t, P (setRecord r fun x => { x with lastUsed := t })) : P (Registry.usable r) := by
  refine hP.bind (hP.need _) fun info => ?_
  split
  · exact hP.pure _
  · exact hP.bind (hprobe _) fun alive => iteInduction (fun _ => hP.bind (hP.view _) fun t =>
      hP.bind (htouch t) fun _ => hP.pure _) fun _ => hP.pure _
  · exact hP.pure _

theorem enter (hstart : P (Registry.register key))
    (hmetadata : ∀ fields, P (Registry.writeMetadata key fields))
    (hjournal : ∀ entry, P (Registry.writeJournal key entry)) : P (Registry.enter key) :=
  hP.bind hstart fun _ => hP.bind (hP.need _) fun _ => hP.bind (hP.view _) fun _ =>
    hP.bind (hmetadata _) fun _ => hjournal _

/-- A session that cannot be used is taken down, and another one comes in its place. -/
theorem provide (henter : P (Registry.enter key)) (husable : ∀ r, P (Registry.usable r))
    (hreset : P (Registry.reset key)) : P (Registry.provide key) := by
  refine hP.bind (hP.view _) fun found => ?_
  split
  · exact henter
  · exact hP.bind (husable _) fun use => iteInduction (fun _ => hP.pure _) fun _ =>
      hP.bind hreset fun _ => henter

theorem note (hcount : ∀ r, P (setRecord r fun x => { x with executions := x.executions + 1 }))
    (hjournal : ∀ entry, P (Registry.writeJournal key entry))
    (hmetadata : ∀ fields, P (Registry.writeMetadata key fields)) (entry : Json) :
    P (Registry.note key entry) := by
  refine hP.bind (hP.view _) fun found => ?_
  split
  · exact hP.pure _
  · refine hP.bind (hcount _) fun _ => ?_
    split
    · exact hP.bind (hjournal _) fun _ => hP.bind (hP.need _) fun info =>
        hP.bind (hP.view _) fun t => hmetadata _
    · exact hP.fail _

theorem release {r : Nat} (hrecord : ∀ {f : Record → Record},
      (∀ x, (f x).folder = x.folder ∧ (f x).executions = x.executions) → P (setRecord r f))
    (hreset : P (Registry.reset key)) (how : Departure) :
    P (Registry.release key r how) := by
  cases how with
  | normal => exact hP.bind (hP.view _) fun t => hrecord fun _ => ⟨rfl, rfl⟩
  | lost => exact hP.bind (hrecord fun _ => ⟨rfl, rfl⟩) fun _ => hreset
  | failed => exact hrecord fun _ => ⟨rfl, rfl⟩

theorem letGo {r : Nat} (hrelease : ∀ how, P (Registry.release key r how))
    (result : Except Failure α) : P (Registry.letGo key r result) := by
  unfold Registry.letGo
  split
  · exact hP.bind (hrelease _) fun _ => hP.pure _
  · exact hP.bind (hrelease _) fun _ => hP.fail _

theorem holding {use : Nat → Op α} (hhold : P (Registry.hold key))
    (huse : ∀ h, P (Op.outcome (use h))) (hrelease : ∀ r how, P (Registry.release key r how)) :
    P (Registry.holding key use) :=
  hP.bind hhold fun r => hP.bind (hP.need _) fun info =>
    hP.bind (huse info.handle) (hP.letGo (hrelease r))

end Op.Chains

/-- A property that, besides, everything has that the registry does to start a session and to see
whether it can be used. -/
structure Registry.PervadesStarts (P : ∀ {α : Type}, Op α → Prop) : Prop
    extends Interpreter.Pervades @P where
  outcome {α : Type} {x : Op α} : P x → P (Op.outcome x)
  enlist (h : Nat) (folder : Path) : P (Op.change fun s => { s with
    records := s.records ++ [{ handle := h, folder, state := .ready, lastUsed := s.clock }] })
  record (r : Nat) {f : Record → Record} :
    (∀ x, (f x).folder = x.folder ∧ (f x).executions = x.executions) → P (setRecord r f)

namespace Registry.PervadesStarts

variable {P : ∀ {α : Type}, Op α → Prop} (hP : Registry.PervadesStarts @P)

include hP

theorem startTwice (folder : Path) (timeout : Binary64) (key : String) (attempts : Nat)
    (last : Failure) : P (Registry.startTwice folder timeout key attempts last) := by
  induction attempts generalizing last with
  | zero => exact hP.fail _
  | succ attempts ih =>
      refine hP.bind (hP.create folder timeout) fun h => hP.bind (hP.outcome (hP.start h))
        fun result => ?_
      cases result with
      | ok _ =>
          exact hP.bind (hP.view _) fun index => hP.bind (hP.enlist h folder) fun _ => hP.pure _
      | error e =>
          exact iteInduction (fun _ => hP.bind (hP.reset h) fun _ => ih e) fun _ => hP.fail _

theorem startSession (key : String) : P (Registry.start key) :=
  hP.bind (hP.view _) fun _ => hP.bind (hP.ofExcept _) fun folder =>
    hP.startTwice folder _ key _ _

theorem usable (r : Nat) : P (Registry.usable r) :=
  hP.toChains.usable hP.probe fun _ => hP.record r fun _ => ⟨rfl, rfl⟩

theorem hold (key : String) : P (Registry.hold key) :=
  hP.bind (hP.get key) fun r => hP.bind (hP.need _) fun _ => iteInduction (fun _ => hP.fail _)
    fun _ => hP.bind (hP.record r fun _ => ⟨rfl, rfl⟩) fun _ => hP.pure _

end Registry.PervadesStarts

/-- A property that, besides, everything has that the registry does to enter a session and to take
it down. -/
structure Registry.Pervades (P : ∀ {α : Type}, Op α → Prop) : Prop
    extends Registry.PervadesStarts @P where
  journal (folder : Path) (line : Json) : P (Op.change fun s => { s with
    folders := s.folders.revise folder fun f =>
      { f with journal := some (f.journal.getD [] ++ [line]) } })
  metadata (folder : Path) (j : Json) : P (Op.change fun s => { s with
    folders := s.folders.revise folder fun f => { f with metadata := some (some j) } })
  sessions (f : Sandbox → List (String × Nat)) : P (Op.change fun s => { s with sessions := f s })
  remove (folder : Path) :
    P (Op.change fun s => { s with folders := s.folders.remove folder })
  count (r : Nat) : P (setRecord r fun x => { x with executions := x.executions + 1 })

namespace Registry.Pervades

variable {α : Type} {P : ∀ {α : Type}, Op α → Prop} (hP : Registry.Pervades @P)

include hP

theorem writeJournal (key : String) (entry : List (String × Json)) :
    P (Registry.writeJournal key entry) :=
  hP.toChains.writeJournal hP.journal entry

theorem writeMetadata (key : String) (fields : List (String × Json)) :
    P (Registry.writeMetadata key fields) :=
  hP.toChains.writeMetadata hP.metadata fields

theorem resetSession (key : String) : P (Registry.reset key) :=
  hP.toChains.resetSession (hP.writeJournal key) (hP.writeMetadata key) (hP.sessions _) hP.reset
    hP.remove

theorem enter (key : String) : P (Registry.enter key) := by
  have hregister : P (Registry.register key) :=
    hP.bind (hP.startSession key) fun r => hP.bind (hP.sessions _) fun _ => hP.pure _
  exact hP.toChains.enter hregister (hP.writeMetadata key) (hP.writeJournal key)

theorem provide (key : String) : P (Registry.provide key) :=
  hP.toChains.provide (hP.enter key) hP.usable (hP.resetSession key)

theorem note (key : String) (entry : Json) : P (Registry.note key entry) :=
  hP.toChains.note hP.count (hP.writeJournal key) (hP.writeMetadata key) entry

theorem release (key : String) (r : Nat) (how : Departure) :
    P (Registry.release key r how) :=
  hP.toChains.release (hP.record r) (hP.resetSession key) how

theorem holding (key : String) {use : Nat → Op α} (huse : ∀ h, P (use h)) :
    P (Registry.holding key use) :=
  hP.toChains.holding (hP.hold key) (fun h => hP.outcome (huse h)) fun r => hP.release key r

end Registry.Pervades

/-! ### Executions -/

namespace Op.Chains

variable {P : ∀ {α : Type}, Op α → Prop} (hP : Chains @P) {listener : String → Op Unit}
  {consumed : Int → Op Unit} {r : Execution.Request}

include hP

theorem elapsedMs (started : Int) : P (Sandbox.elapsedMs started) :=
  hP.bind (hP.view _) fun _ => hP.pure _

/-- What is noted of an execution is noted under no event in particular. -/
theorem settle {key : String} (hconsumed : ∀ n, P (consumed n))
    (hnote : ∀ entry : List (String × Json), entry.lookup "event" = none →
      P (Registry.note key (.obj entry))) (started : Int) (reply : Json) :
    P (Execution.settle consumed r key started reply) := by
  unfold Execution.settle
  split
  · exact hP.bind (hP.ofExcept _) fun n => hP.bind (hconsumed n) fun _ =>
      hP.bind (hP.elapsedMs _) fun timeMs => hP.bind (hP.ofExcept _) fun outcome =>
      hP.bind (hnote _ rfl) fun _ => hP.pure _
  · exact hP.fail _

theorem concluded {key : String} {started : Int}
    (hsettle : ∀ reply, P (Execution.settle consumed r key started reply))
    (result : Except Failure Json) : P (Execution.concluded consumed r key started result) := by
  unfold Execution.concluded
  split
  · exact hsettle _
  · exact iteInduction (fun _ => hP.bind (hP.elapsedMs _) fun _ => hP.pure _) fun _ => hP.fail _

theorem executeLocal {key : String}
    (hused : P (Op.outcome (Registry.holding key fun h =>
      Interpreter.execute h r.body r.timeout)))
    (hsettle : ∀ started reply, P (Execution.settle consumed r key started reply)) :
    P (Execution.executeLocal consumed r key) :=
  hP.bind (hP.view _) fun started => hP.bind hused (hP.concluded (hsettle started))

theorem executeRemote {remote : RemoteClient} {maxWait : Binary64}
    (hremote : P (remote.execute r.source.text (Text.joinLines r.values) none maxWait r.cancel))
    (started : Int) : P (Execution.executeRemote remote maxWait r started) := by
  refine hP.bind hremote fun response => ?_
  split
  · exact hP.bind (hP.elapsedMs _) fun _ => hP.pure _
  · exact hP.bind (hP.elapsedMs _) fun _ => hP.bind (hP.ofExcept _) fun _ => hP.pure _

theorem unseated (hremote : ∀ remote maxWait started,
      P (Execution.executeRemote remote maxWait r started)) (e : Failure) :
    P (Execution.unseated r e) := by
  refine hP.bind (hP.view _) fun remote => ?_
  split
  · exact iteInduction (fun _ => hP.bind (hP.view _) fun started =>
      hP.bind (hP.view _) fun maxWait => hremote _ maxWait started) fun _ => hP.fail _
  · exact hP.fail _

theorem execute (hacquire : P (Op.outcome (Registry.acquire listener (some r.key))))
    (hlocal : ∀ key, P (Execution.executeLocal consumed r key))
    (hremote : ∀ remote maxWait started, P (Execution.executeRemote remote maxWait r started)) :
    P (Execution.execute listener consumed r) := by
  refine hP.bind hacquire fun result => ?_
  split
  · exact hlocal _
  · exact hP.unseated hremote _

end Op.Chains

end Rerun
