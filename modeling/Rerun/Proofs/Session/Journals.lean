import Rerun.Conversation
import Rerun.Proofs.Sandbox.Reach
import Rerun.Proofs.Session.Chronicle

/-!
The logs of sessions, whatever clients do with them (`Sandbox.Logging.chronicle`). They get
sessions, execute programs on them that end in any way, note entries and take sessions down, idle
ones are swept, and while the request of one client is on its way others do the same; at every
moment the journal and the metadata of each key tell its sessions in order.
-/

namespace Rerun

open Sandbox Op

open Journal (Vocabulary)

variable {v : Vocabulary} {α : Type}

theorem Sandbox.Chronicled.guards {x : Op α} (h : x.Unlogged) : x.Guards (Chronicled v) :=
  (Chronicled.carries h).guards

/-! ### Requests -/

theorem Cancel.unlogged_wait (c : Cancel) (seconds : Binary64) : (c.wait seconds).Unlogged := by
  refine ⟨fun _ _ _ => rfl, fun others s => ?_⟩
  unfold wait
  dsimp only
  split
  · split
    · exact { SameLogs.refl s with }
    · exact { SameLogs.refl s with }
  · exact { SameLogs.refl s with }

namespace RemoteClient

theorem unlogged_nextScripted : nextScripted.Unlogged := by
  refine ⟨fun _ _ _ => rfl, fun others s => ?_⟩
  unfold nextScripted
  split
  · exact { SameLogs.refl s with }
  · exact .refl s

end RemoteClient

/-- Nothing is written while a request is on its way, apart from what others write. -/
theorem Sandbox.Chronicled.pervades : Requests.Pervades fun x => x.Guards (Chronicled v) where
  toServes := Process.serves_unlogged.imp Guards.chains guards
  interleave := .interleave
  rescue := .rescue
  noted i _ _ := guards (.unloggedChild i _)
  kill h := guards (Registry.pervades_unlogged.kill h)
  requested _ := guards (.change fun s => { SameLogs.refl s with })
  judged := guards RemoteClient.unlogged_nextScripted
  wait cancel seconds := guards (cancel.unlogged_wait seconds)

/-! ### Sessions -/

namespace Registry

theorem carries_release (key : String) (r : Nat) (how : Departure) :
    (release key r how).Carries (Chronicled v) :=
  Along.chains.release (fun hf => Chronicled.carries (.unloggedRecord r hf)) (carries_reset key) how

/-- However the use of a session ends, what is left to write is written. -/
theorem guards_holding (key : String) {use : Nat → Op α}
    (huse : ∀ h, (use h).Guards (Chronicled v)) : (holding key use).Guards (Chronicled v) :=
  Chronicled.pervades.holding (Chronicled.guards (pervades_unlogged.hold key))
    (fun h => (huse h).outcome) fun r how => (carries_release key r how).guards

theorem carries_note (key : String) {entry : List (String × Json)}
    (hentry : v.allows (Journal.eventOf entry) = true) :
    (note key (.obj entry)).Carries (Chronicled v) :=
  ⟨(pervades_recalls.note key (.obj entry)).deaf, fun others _ hs =>
    chronicled_note hs key hentry others⟩

theorem carries_resetAll : resetAll.Carries (Chronicled v) :=
  Along.chains.resetAll carries_reset

end Registry

/-! ### Executions -/

namespace Execution

variable {consumed : Int → Op Unit}

theorem guards_executeLocal (hconsumed : ∀ n, (consumed n).Unlogged) (r : Request) (key : String) :
    (executeLocal consumed r key).Guards (Chronicled v) := by
  have hP : Requests.Pervades fun x => x.Guards (Chronicled v) := Chronicled.pervades
  refine hP.executeLocal (.outcome (Registry.guards_holding key fun h => hP.post h _ _ _))
    (hP.settle (fun n => Chronicled.guards (hconsumed n)) fun entry hentry => ?_)
  refine (Registry.carries_note key ?_).guards
  rw [Journal.eventOf, hentry]
  exact v.execution

theorem guards_execute (hconsumed : ∀ n, (consumed n).Unlogged) {r : Request}
    (hkey : r.key = "" ∨ Path.IsName r.key) :
    (execute Contexts.onSweep consumed r).Guards (Chronicled v) := by
  have hacquire : (Registry.acquire Contexts.onSweep (some r.key)).Carries (Chronicled v) :=
    Registry.carries_acquire fun k hk => Option.some.inj hk ▸ hkey
  exact Chronicled.pervades.toChains.execute (.outcome hacquire.guards)
    (guards_executeLocal hconsumed r) fun remote maxWait started =>
      Chronicled.pervades.executeRemote remote maxWait r started

end Execution

/-! ### Commands -/

/-- What clients do with sessions, and what they look at. Keys are names of folders, an empty one
stands for a name that is drawn, and entries are objects that are noted under events of a
vocabulary. -/
def Command.logs (v : Vocabulary) : Command → Bool
  | .acquire key => key.all fun k => k = "" || decide (Path.IsName k)
  | .execute _ key .. => key = "" || decide (Path.IsName key)
  | .record _ (.obj entry) => v.allows (Journal.eventOf entry)
  | .reset _ | .resetAll | .hold .. | .release .. => true
  | .unfit _ | .advance _ | .clock | .die _ | .children | .posts _ | .remoteRequests => true
  | .childSettings | .sessions | .sessionState _ | .sessionInfo _ | .swept => true
  | .readJournal _ | .readMetadata _ => true
  | _ => false

namespace Conversation

theorem guards_gives {x : Op Json} (hx : x.Guards (Chronicled v)) :
    (gives x).Guards (Chronicled v) :=
  Guards.chains.map _ hx

theorem guards_listed (i : Nat) : (listed i).Guards (Chronicled v) :=
  .rescue (.need _) fun _ => .fail _

theorem guards_readMetadata (name : String) : (readMetadata name).Guards (Chronicled v) := by
  refine .bind (.view _) fun found => ?_
  dsimp only
  split
  · exact .pure _
  · exact .pure _
  · exact .fail _

theorem guards_execute (source : Source) {key : String} (inputs : List String) (seed : Option Int)
    (mode : RunMode) (timeout : Binary64) (echo : Bool) (runId : Option String) (cancel : CancelAt)
    (hkey : key = "" ∨ Path.IsName key) :
    (execute source key inputs seed mode timeout echo runId cancel).Guards (Chronicled v) := by
  have hqueues (f : Sandbox → List InputQueue) :
      (Op.change fun s => { s with queues := f s }).Unlogged :=
    .change fun s => { SameLogs.refl s with }
  refine .bind (.view _) fun i => .bind (Chronicled.guards (hqueues _)) fun _ => ?_
  refine .bind (Execution.guards_execute (fun n => hqueues _) hkey) fun outcome => ?_
  exact .bind (.need _) fun _ => .pure _

theorem guards_hold (key name : String) : (hold key name).Guards (Chronicled v) := by
  have hgiveUp : (giveUp name).Guards (Chronicled v) := by
    refine .bind (.view _) fun found => ?_
    split
    · exact .pure _
    · exact (Registry.carries_release _ _ _).guards
  refine .bind (Chronicled.guards (Registry.pervades_unlogged.hold key)) fun r =>
    .bind hgiveUp fun _ => ?_
  exact .bind (Chronicled.guards (.change fun s => { SameLogs.refl s with })) fun _ =>
    .bind (.need _) fun _ => .pure _

theorem guards_release (name : String) (how : Departure) :
    (release name how).Guards (Chronicled v) := by
  refine .bind (.view _) fun found => ?_
  split
  · exact .pure _
  · exact .bind (Chronicled.guards (.change fun s => { SameLogs.refl s with })) fun _ =>
      .bind (Registry.carries_release _ _ how).guards fun _ => .pure _

theorem guards_perform {c : Command} (h : c.logs v = true) : (perform c).Guards (Chronicled v) := by
  cases c with
  | acquire key =>
      have hkey (k : String) (hk : key = some k) : k = "" ∨ Path.IsName k := by
        simpa [Command.logs, hk] using h
      exact guards_gives (Guards.chains.map _ (Registry.carries_acquire hkey).guards)
  | execute source key inputs seed mode timeout echo runId cancel =>
      have hkey : key = "" ∨ Path.IsName key := by simpa [Command.logs] using h
      exact guards_gives (guards_execute source inputs seed mode timeout echo runId cancel hkey)
  | record key entry =>
      cases entry with
      | obj fields =>
          exact guards_gives (.bind (Registry.carries_note key h).guards fun _ => .pure _)
      | _ => exact absurd h Bool.false_ne_true
  | reset key => exact guards_gives (.bind (Registry.carries_reset key).guards fun _ => .pure _)
  | resetAll => exact guards_gives (.bind Registry.carries_resetAll.guards fun _ => .pure _)
  | hold key name => exact guards_gives (guards_hold key name)
  | release name how => exact guards_gives (guards_release name how)
  | unfit issues => exact guards_gives (.fail _)
  | advance ms =>
      exact guards_gives (.bind (Chronicled.guards (.unloggedClock _)) fun _ =>
        Guards.chains.map _ (.view _))
  | die i =>
      exact guards_gives (.bind (guards_listed i) fun _ =>
        .bind (Chronicled.guards (.unloggedChild i _)) fun _ => .pure _)
  | posts i => exact guards_gives (.bind (guards_listed i) fun _ => .pure _)
  | childSettings => exact guards_gives (.pure _)
  | clock => exact guards_gives (Guards.chains.map _ (.view _))
  | children | remoteRequests | sessions | sessionState | swept => exact guards_gives (.view _)
  | sessionInfo key =>
      exact guards_gives (.bind (Chronicled.pervades.get key) fun _ =>
        .bind (.need _) fun _ => .view _)
  | readJournal folder => exact guards_gives (.bind (.view _) fun _ => .pure _)
  | readMetadata folder => exact guards_gives (guards_readMetadata folder)
  | _ => exact absurd h Bool.false_ne_true

theorem chronicled_respond {c : Command} (h : c.logs v = true) {others others' : Interrupts}
    (hothers : others.Guard (Chronicled v)) (hagree : others.AgreeOn (Chronicled v) others')
    {s : Sandbox} (hs : s.Chronicled v) :
    respond c others s = respond c others' s ∧ (respond c others s).2.Chronicled v := by
  have hs' : Chronicled v { s with overheard := [] } := hs.sameLogs { SameLogs.refl s with }
  obtain ⟨heq, ht⟩ := guards_perform h hothers hagree _ hs'
  refine ⟨?_, ht.sameLogs { SameLogs.refl _ with }⟩
  unfold respond
  rw [heq]

end Conversation

/-! ### Reachable states -/

namespace Sandbox

variable {s t : Sandbox}

theorem Chronicled.isSome_executionsOf (hs : s.Chronicled v) (key : String) :
    (s.executionsOf key).isSome = (s.sessions.lookup key).isSome := by
  rw [executionsOf]
  cases hr : s.sessions.lookup key with
  | none => rfl
  | some r =>
      obtain ⟨-, x, hx, -⟩ := hs.session hr
      rw [Option.bind_some, hx]
      rfl

/-- What clients do with sessions: they give such commands one after the other, and while the
request of a command is on its way, others act in the same manner. Sweeps may come at any time. -/
inductive Logging (v : Vocabulary) : Sandbox → Sandbox → Prop where
  | rest (s : Sandbox) : Logging v s s
  | give {s t : Sandbox} (c : Command) {others : Interrupts} : Logging v s t → c.logs v = true →
      (∀ commands u, Logging v u (others commands u)) →
      Logging v s (Conversation.respond c others t).2
  | sweep {s t : Sandbox} (others : Interrupts) : Logging v s t →
      Logging v s (Registry.sweep Contexts.onSweep others t).2
  | hear {s t : Sandbox} (r : Response) : Logging v s t → Logging v s (t.overhear r)

theorem Logging.chronicled (h : Logging v s t) (hs : s.Chronicled v) : t.Chronicled v := by
  induction h with
  | rest s => exact hs
  | give c _ hc _ ih iho =>
      exact (Conversation.chronicled_respond hc (fun commands u hu => iho commands u hu)
        (fun _ _ _ => rfl) (ih hs)).2
  | sweep others _ ih => exact Registry.carries_sweep.holds others _ (ih hs)
  | hear r _ ih => exact (ih hs).sameLogs { SameLogs.refl _ with }

/-- What other clients do of the commands that are for sessions, to a depth. -/
def logging (v : Vocabulary) : (depth : Nat) → Interrupts
  | 0 => fun _ s => s
  | depth + 1 => fun commands s =>
    (commands.filter (·.logs v)).foldl (fun s c =>
      let (r, s) := Conversation.respond c (logging v depth) s
      s.overhear r) s

theorem logging_logging (v : Vocabulary) (depth : Nat) (commands : List Command) (s : Sandbox) :
    Logging v s (logging v depth commands s) := by
  induction depth generalizing commands s with
  | zero => exact .rest s
  | succ depth ih =>
      exact List.foldlRecOn _ _ (.rest s) fun _ ht c hc =>
        .hear _ (.give c ht (List.mem_filter.mp hc).2 ih)

/-- The states that clients bring about who do that, from the start and with logs kept, at rest and
amid requests. A request is on its way in a state when it makes a difference to its command what
others do there. -/
inductive Logged (v : Vocabulary) : Sandbox → Prop where
  | fresh {s : Sandbox} : s.Fresh → s.setup.keepLogs = true → Logged v s
  | acts {s t : Sandbox} : Logged v s → Logging v s t → Logged v t
  | amid {s t : Sandbox} {c : Command} {others others' : Interrupts} : Logged v s →
      c.logs v = true → (∀ commands u, Logging v u (others commands u)) →
      (∀ commands u, u ≠ t → others commands u = others' commands u) →
      Conversation.respond c others s ≠ Conversation.respond c others' s → Logged v t

theorem Fresh.chronicled (hs : s.Fresh) (hlogs : s.setup.keepLogs = true) : s.Chronicled v where
  keeps := hlogs
  session hk := by simp [hs.sessions] at hk
  single hk := by simp [hs.sessions] at hk
  told {k} hk := by
    refine ⟨{}, nofun, ?_, ?_, ?_⟩
    · rw [Sandbox.events, hs.folders]
      rfl
    · rw [executionsOf, hs.sessions]
      rfl
    · rw [hs.folders]
      rfl

theorem Logged.chronicled (h : s.Logged v) : s.Chronicled v := by
  induction h with
  | fresh hs hlogs => exact hs.chronicled hlogs
  | acts _ h ih => exact h.chronicled ih
  | amid _ hc hothers hagree hne ih =>
      refine Classical.byContradiction fun ht => ?_
      refine hne (Conversation.chronicled_respond hc (fun commands u hu =>
        (hothers commands u).chronicled hu) (fun commands u hu => hagree commands u ?_) ih).1
      rintro rfl
      exact ht hu

/-- At every moment the journal of a key is a sequence of sessions that were started and stopped,
and one more that goes on exactly while the key is registered, each with the entries that were
noted; and the metadata counts those since a session was last started. -/
theorem Logged.chronicle (h : s.Logged v) {key : String} (hkey : Path.IsName key) :
    ∃ c : Chronicle, c.Within v ∧ s.events key = c.events ∧
      c.opened.isSome = (s.sessions.lookup key).isSome ∧
      s.executionCount key = c.latest.map fun es => .int es.length := by
  obtain ⟨c, hc, htells⟩ := h.chronicled.told hkey
  refine ⟨c, hc, htells.events, ?_, ?_⟩
  · rw [← Option.isSome_map (f := List.length), ← htells.executions]
    exact h.chronicled.isSome_executionsOf key
  · have hmetadata := htells.metadata
    cases hlatest : c.latest with
    | none =>
        rw [hlatest] at hmetadata
        rw [executionCount, hmetadata]
        rfl
    | some es =>
        rw [hlatest] at hmetadata
        obtain ⟨fields, hfile, hcount⟩ := hmetadata
        rw [executionCount, hfile]
        exact hcount

/-- A sandbox with the usual settings that keeps logs, before its first command. -/
def keeping : Sandbox := { usual with setup := { usual.setup with keepLogs := true } }

/-- A session of it that has executed a program and noted an entry. -/
def noted : Sandbox :=
  let ask (c : Command) (s : Sandbox) : Sandbox := (Conversation.respond c (logging .strict 1) s).2
  ask (.record "k" (.obj [("run_id", .str "r")])) (ask (.execute ⟨"", "", ""⟩ "k" [] none .batch
    (.ofInt 10) false none .noEvent) keeping)

theorem logged_noted : noted.Logged .strict := by
  have hothers := logging_logging .strict 1
  refine .acts (.fresh ⟨rfl, rfl, rfl, rfl, rfl, rfl, rfl, rfl, rfl⟩ rfl)
    (.give _ (.give _ (.rest keeping) ?_ hothers) ?_ hothers)
  · decide
  · decide

theorem chronicle_noted : noted.Logged .strict ∧ Path.IsName "k" ∧
    (noted.events "k").map Json.str? =
      [some "session_started", some "execution", some "execution"] ∧ ∃ c : Chronicle,
      c.Within .strict ∧ noted.events "k" = c.events ∧
      c.opened.isSome = (noted.sessions.lookup "k").isSome ∧
      noted.executionCount "k" = c.latest.map fun es => .int es.length :=
  ⟨logged_noted, by decide, by decide +kernel, logged_noted.chronicle (by decide)⟩

/-- The first session of a key, which a client notes to have stopped while it goes on. -/
def misnoted : Sandbox :=
  (keeping.giveAll [.acquire (some "k"),
    .record "k" (.obj [("event", .str "session_stopped")])]).2

/-- An entry can name the event under which it is noted. -/
theorem not_chronicle_misnoted : ¬ ∃ (v : Vocabulary) (c : Chronicle), c.Within v ∧
    misnoted.events "k" = c.events ∧
    c.opened.isSome = (misnoted.sessions.lookup "k").isSome := by
  have hstopped : (misnoted.events "k").getLast?.bind Json.str? = some "session_stopped" := by
    decide +kernel
  have hregistered : (misnoted.sessions.lookup "k").isSome = true := by decide +kernel
  rintro ⟨v, c, hc, hevents, hopened⟩
  obtain ⟨es, hes⟩ := Option.isSome_iff_exists.mp (hopened.trans hregistered)
  obtain ⟨e, hlast, he⟩ := Option.bind_eq_some_iff.mp hstopped
  obtain rfl : e = Journal.stopped := by
    cases e with
    | str text => exact congrArg Json.str (Option.some.inj he)
    | _ => exact absurd he nofun
  rw [hevents] at hlast
  -- While the key is registered the last event can be no stop.
  obtain heq | hallows := Chronicle.allows_getLast hc hes hlast
  · exact absurd (congrArg Json.str? heq) (by decide)
  · exact absurd (hallows.symm.trans v.stopped) nofun

end Sandbox

end Rerun
