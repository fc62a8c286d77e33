import Rerun.Proofs.Grading.Neighbours
import Rerun.Proofs.Grading.Order
import Rerun.Proofs.Sandbox.Privacy

/-!
The stages of a case that is graded beside others. Once the case has got its session, what it comes
to is settled by what surrounded it then (`Grading.Fares.advance`); only when its session is swept
before it is held, nothing comes of the case (`Grading.advance_stranded`).
-/

namespace Rerun

open Sandbox Op

variable {s t v b : Sandbox} {others : Interrupts} {key : String} {p : Path} {n : Option Int}
  {o : b.Own}

/-! ### The seed in force -/

/-- A seed is in force, or none. -/
def Sandbox.Seeded (n : Option Int) (s : Sandbox) : Prop := s.appliedSeed = n

namespace Op

theorem chains_seeded : Chains fun y => y.Upholds (Seeded n) where
  still h others _ s hs := by
    obtain ⟨r, hr⟩ := h s
    rwa [hr]
  bind := .bind

theorem Along.seeded {α : Type} {y : Op α} (h : y.Recalls) : y.Upholds (Seeded n) :=
  fun others _ s hs => (h.holds others s).appliedSeed.trans hs

end Op

theorem RemoteClient.pervades_seeded : RemoteClient.Pervades fun y => y.Upholds (Seeded n) where
  toChains := Op.chains_seeded
  elapse _ := fun _ _ _ => id
  interleave := .interleave
  rescue := .rescue
  requested _ := fun _ _ _ => id
  judged := by
    intro others _ s hs
    unfold nextScripted
    split
    · exact hs
    · exact hs
  wait cancel seconds := by
    intro others _ s hs
    unfold Cancel.wait
    dsimp only
    split
    · split
      · exact hs
      · exact hs
    · exact hs

namespace Process

theorem answers_seeded : Answers fun y => y.Upholds (Seeded n) where
  toChains := Op.chains_seeded
  take _ _ := fun _ _ _ => id
  elapse _ := fun _ _ _ => id
  learn _ _ := fun _ _ _ => id
  crash _ := fun _ _ _ => id

theorem seeded_arrive (i : Nat) (path : String) (body : Json) :
    (arrive i path body).Upholds (Seeded n) :=
  have hP := answers_seeded (n := n)
  hP.bind (fun _ _ _ => id) fun _ => hP.bind (hP.nextScripted i path body) fun a =>
    hP.bind (hP.elapse a.took) fun _ => hP.bind (.interleave _) fun _ => hP.pure a

theorem serve_body (i : Nat) (r : Execution.Request) : serve i "/run" r.body = (do
      if !(← child i).alive then pure (.fault refusal) else serveRun i r.asked) := by
  rw [serve, if_pos rfl, r.fitBody_body, ← r.ofFields_body]

theorem seeded_react (i : Nat) {r : Execution.Request} (hseed : r.seed = none) (a : Scripted) :
    (react i "/run" r.body a).Upholds (Seeded n) := by
  have hP := answers_seeded (n := n)
  have hshown (folder : Path) (content : Content) :
      (writeShown folder content).Upholds (Seeded n) := fun _ _ _ => id
  have hwrite : (writeScripted i a).Upholds (Seeded n) := by
    unfold writeScripted
    split
    · exact hP.bind (hP.need _) fun _ => hshown _ _
    · exact hP.pure ()
  have happly : (applySeed r.asked.seed).Upholds (Seeded n) := by
    intro others _ s hs
    show r.seed.or s.appliedSeed = n
    rwa [hseed]
  have hserve : (serveRun i r.asked).Upholds (Seeded n) :=
    hP.bind (hP.need _) fun _ => hP.bind (hP.view _) fun _ => iteInduction (fun _ => hP.view _)
      fun _ => hP.bind happly fun _ => hP.bind (hP.elapse _) fun _ =>
        hP.bind (hshown _ _) fun _ => hP.delivered i _
  refine hP.bind hwrite fun _ => ?_
  split
  · exact hP.pure _
  · rw [serve_body]
    exact hP.bind (hP.need _) fun _ => iteInduction (fun _ => hP.pure _) fun _ => hserve

end Process

namespace Grading

variable {q : Request} {x : Execution.Request} {stage : Stage}

/-- What a case is executed as, as long as that matters. -/
def Stage.request? : Stage → Option Execution.Request
  | .named x | .seated x | .holding x .. | .running x .. | .executed x _ => some x
  | _ => none

/-- What a case does at a stage, from parts that have a property which is handed on. -/
theorem chains_advance {P : ∀ {α : Type}, Op α → Prop} (hP : Op.Chains @P)
    (houtcome : ∀ {α : Type} {y : Op α}, P y → P (Op.outcome y)) (hdraw : P drawId)
    (hacquire : ∀ key, P (Registry.acquire Contexts.onSweep key))
    (hunseated : ∀ x e, stage.request? = some x → P (Execution.unseated x e))
    (hhold : ∀ key, P (Registry.hold key))
    (harrive : ∀ c path body, P (Process.arrive c path body))
    (hreact : ∀ x c a, stage.request? = some x → P (Process.react c "/run" x.body a))
    (hheard : ∀ h path timeout ended, P (Interpreter.heard h path timeout ended))
    (hletGo : ∀ key r (reply : Except Failure Json), P (Registry.letGo key r reply))
    (hnote : ∀ key entry, P (Registry.note key entry)) (hreset : ∀ key, P (Registry.reset key)) :
    P (advance Contexts.onSweep q stage) := by
  have hconcluded (x : Execution.Request) (started : Int) (used : Except Failure Json) :
      P (concluded x started used) :=
    hP.bind (houtcome (hP.concluded (hP.settle (fun _ => hP.pure _) (fun entry _ =>
      hnote _ (.obj entry)) started) used)) fun _ => hP.pure _
  have hparted (x : Execution.Request) (started : Int) (r : Nat) (reply : Except Failure Json) :
      P (parted x started r reply) :=
    hP.bind (houtcome (hletGo _ r reply)) fun used => hconcluded x started used
  cases stage with
  | waiting =>
      rw [advance]
      split
      · exact hP.pure _
      · exact hP.bind hdraw fun _ => hP.bind (hP.view _) fun _ => hP.pure _
  | named x =>
      refine hP.bind (houtcome (hacquire _)) fun got => ?_
      split
      · exact hP.pure _
      · exact hP.bind (houtcome (hunseated x _ rfl)) fun _ => hP.pure _
  | seated x =>
      refine hP.bind (hP.view _) fun started => hP.bind (houtcome (hP.bind (hhold _) fun r =>
        hP.bind (hP.need _) fun _ => hP.pure _)) fun held => ?_
      split
      · exact hP.pure _
      · exact hconcluded x started _
  | holding x started r h =>
      refine hP.bind (houtcome (hP.bind (Interpreter.chains_addressee hP _ _) fun c =>
        hP.bind (harrive c _ _) fun _ => hP.pure _)) fun sent => ?_
      split
      · exact hP.pure _
      · exact hparted x started r _
  | running x started r h c a =>
      exact hP.bind (houtcome (hP.bind (hreact x c a rfl) fun ended => hheard h _ _ ended))
        fun reply => hparted x started r reply
  | executed x result =>
      refine hP.bind (houtcome (hreset _)) fun done => ?_
      split
      · exact hP.pure _
      · exact hP.pure _
  | finished result => exact hP.pure _

theorem tidies_advance (q : Request) (stage : Stage) :
    (advance Contexts.onSweep q stage).Upholds Tidy :=
  have hP := Op.pervades_requests
  chains_advance Op.composes_tidies.toChains (fun h => h.outcome) (Goes.of_drifts .drawId).tidies
    (fun key => (Registry.goes_acquire key).tidies)
    (fun x e _ => Op.composes_tidies.unseated (fun remote maxWait started =>
      (hP.executeRemote remote maxWait x started).tidies) e)
    Registry.tidies_hold (fun c path body => (hP.arrive c path body).tidies)
    (fun x c a _ => (hP.react c "/run" x.body a).tidies)
    (fun h path timeout ended =>
      (Interpreter.chains_heard hP.toChains (hP.kill h) path timeout ended).tidies)
    Registry.tidies_letGo (fun key entry => (Registry.goes_note key entry).tidies)
    fun key => (Registry.goes_reset key).tidies

theorem seeded_advance (q : Request) (hseed : ∀ x, stage.request? = some x → x.seed = none) :
    (advance Contexts.onSweep q stage).Upholds (Seeded n) :=
  have hP := Registry.pervades_recalls
  chains_advance Op.chains_seeded (fun h => h.outcome) Op.Along.drawId.seeded
    (fun key => (Registry.recalls_acquire key).seeded)
    (fun x e _ => RemoteClient.pervades_seeded.unseated (fun remote maxWait started =>
      RemoteClient.pervades_seeded.executeRemote remote maxWait x started) e)
    (fun key => (hP.hold key).seeded) Process.seeded_arrive
    (fun x c a hx => Process.seeded_react c (hseed x hx) a)
    (fun h path timeout ended => (Interpreter.recalls_heard h path timeout ended).seeded)
    (fun key r reply => (Op.Along.chains.letGo (hP.release key r) reply).seeded)
    (fun key entry => (hP.note key entry).seeded) fun key => (hP.resetSession key).seeded

/-! ### What a case does beside others -/

/-- What a case uses at a stage is its own. Before it has got its session, it has nothing. -/
def Stage.OwnedBy (o : b.Own) (key : String) : Stage → Prop
  | .waiting | .named _ => False
  | .seated x | .executed x _ => x.key = key
  | .holding x _ r h => x.key = key ∧ o.record r ∧ o.handle h
  | .running x _ r h c _ => x.key = key ∧ o.record r ∧ o.handle h ∧ o.child c
  | .finished _ => True

theorem beside_concluded (hkey : x.key = key) (started : Int) (used : Except Failure Json) :
    (concluded x started used).Beside o key p fun _ => True := by
  subst hkey
  exact .bind (.outcome (Execution.beside_concluded (fun _ => .pure trivial) x started used))
    fun _ _ => .pure trivial

theorem beside_parted (hkey : x.key = key) {r : Nat} (hr : o.record r) (started : Int)
    (reply : Except Failure Json) : (parted x started r reply).Beside o key p fun _ => True := by
  subst hkey
  exact .bind (.outcome (Registry.beside_letGo hr reply)) fun used _ =>
    beside_concluded rfl started used

theorem beside_advance (listener : String → Op Unit) (q : Request) (h : stage.OwnedBy o key) :
    (advance listener q stage).Beside o key p fun _ => True := by
  cases stage with
  | waiting => exact h.elim
  | named x => exact h.elim
  | seated x =>
      obtain rfl : x.key = key := h
      refine .bind .now fun started _ => .bind (.outcome (.bind Registry.beside_hold fun r hr =>
        .bind (Registry.beside_record hr) fun _ _ => .pure (P := fun _ => True) trivial))
        fun held _ => ?_
      split
      · exact .pure trivial
      · exact beside_concluded rfl started _
  | holding x started r h' =>
      obtain ⟨hkey, hr, hh⟩ := h
      refine .bind (.outcome (.bind (Interpreter.beside_addressee hh _) fun c hc =>
        .bind (Process.beside_arrive hc _ _) fun _ _ => .pure (P := fun _ => True) trivial))
        fun sent _ => ?_
      split
      · exact .pure trivial
      · exact beside_parted hkey hr started _
  | running x started r h' c a =>
      obtain ⟨hkey, hr, hh, hc⟩ := h
      exact .bind (.outcome (.bind (Process.beside_react hc _ _ a) fun ended _ =>
        Interpreter.beside_heard hh _ _ ended)) fun reply _ => beside_parted hkey hr started reply
  | executed x result =>
      obtain rfl : x.key = key := h
      refine .bind (.outcome Registry.beside_reset) fun done _ => ?_
      split
      · exact .pure trivial
      · exact .pure trivial
  | finished result => exact .pure trivial

/-- What is left of getting a session for a case when idle sessions were swept. -/
def sought (x : Execution.Request) : Op Stage := do
  match ← Op.outcome (do Registry.provide x.key; pure x.key) with
  | .ok _ => pure (.seated x)
  | .error e => pure (.executed x (← Op.outcome (Execution.unseated x e)))

theorem advance_named_of_sweep (hkey : x.key ≠ "")
    (hsweep : (Registry.sweep Contexts.onSweep).Does s () v) :
    advance Contexts.onSweep q (.named x) others s = sought x others v := by
  have hacquire : Op.outcome (Registry.acquire Contexts.onSweep (some x.key)) others s =
      Op.outcome (do Registry.provide x.key; pure x.key) others v := by
    unfold Op.outcome
    rw [Registry.acquire, hsweep.step, Registry.keyFor_some hkey, (does_pure x.key).step]
  exact Op.bind_congr hacquire _

theorem beside_sought (hp : Registry.folderOf b.setup x.key = .ok p) :
    (sought x).Beside o x.key p fun _ => True := by
  refine .bind (.outcome (.bind (Registry.beside_provide hp) fun _ _ =>
    .pure (P := fun _ => True) trivial)) fun got _ => ?_
  split
  · exact .pure trivial
  · exact .bind (.outcome (Execution.beside_unseated x _)) fun _ _ => .pure trivial

/-! ### What comes of a case -/

def Stage.rank : Stage → Nat
  | .waiting => 6
  | .named _ => 5
  | .seated _ => 4
  | .holding .. => 3
  | .running .. => 2
  | .executed .. => 1
  | .finished _ => 0

theorem Stage.still_of_rank (h : stage.rank = 0) :
    stage.isWaiting = false ∧ stage.isUnderway = false := by
  cases stage with
  | finished => exact ⟨rfl, rfl⟩
  | _ => exact absurd h nofun

/-- A case has its session, and things will go as they would if it were alone, where what surrounded
it when it got the session behaved in a way. -/
def Stands (β : Behaviour) (x : Execution.Request) (p : Path) (s : Sandbox) : Stage → Prop
  | .seated x' => x' = x ∧ ∃ replies r y c z, β.start = .ok replies ∧
    Registry.Seat x.key p replies s r y c z ∧ y.locked = false
  | .holding x' _ r h => x' = x ∧ ∃ replies y c z, β.start = .ok replies ∧
    Registry.Seat x.key p replies s r y c z ∧ y.handle = h ∧ y.state = .busy
  | .running x' _ r h c a => x' = x ∧ ∃ replies rest y z, β.start = .ok replies ∧
    Registry.Seat x.key p rest s r y c z ∧ y.handle = h ∧ y.state = .busy ∧
    a = Process.reaction β.byInputs replies x.values
  | _ => False

/-- A case was executed with a result of a kind, and then its session is taken down. -/
def Settles (G : Except Failure Outcome → Prop) (q : Request) (checker : Checker)
    (x : Execution.Request) (s : Sandbox) : Stage → Prop
  | .executed x' result => x' = x ∧ G result ∧ ∀ e, result = .error e → e.isSandbox = true
  | .finished out => ∃ result, G result ∧ out = .ok (verdict q checker result) ∧
    s.sessions.lookup x.key = none
  | _ => False

variable {β : Behaviour} {checker : Checker} {listener : String → Op Unit}

theorem advance_seated (h : Stands β x p s (.seated x)) (others : Interrupts) : ∃ stage t,
    advance listener q (.seated x) others s = (.ok stage, t) ∧ stage.rank < 4 ∧
      Stands β x p t stage := by
  obtain ⟨-, replies, r, y, c, z, hstart, hseat, hfree⟩ := h
  have hheld : (Registry.held s r).records[r]? = some { y with state := .busy, locked := true } :=
    Table.getElem?_modify_eq_some.mpr ⟨y, hseat.record, by rw [if_pos rfl]⟩
  have hrecord : (record r).Does (Registry.held s r) _ (Registry.held s r) := does_need hheld
  have hholds : Op.outcome (do
      let r ← Registry.hold x.key
      let info ← record r
      pure (r, info.handle)) others s = (.ok (.ok (r, y.handle)), Registry.held s r) := by
    have hdoes : (do
        let r ← Registry.hold x.key
        let info ← record r
        pure (r, info.handle)).Does s (r, y.handle) (Registry.held s r) :=
      (Registry.does_hold hseat.session hseat.record hfree).bind (hrecord.bind (does_pure _))
    exact congrArg (fun result => (Except.ok result.1, result.2)) (hdoes others)
  refine ⟨.holding x s.clock r y.handle, Registry.held s r, ?_, Nat.lt_succ_self 3, rfl, replies, _,
    c, z, hstart, { hseat with record := hheld }, rfl, rfl⟩
  rw [advance, now, (does_view _).step, bind_of_eq_ok hholds]
  rfl

theorem advance_holding (habsent : others.Absent) (hs : s.Sane) (hby : s.byInputs = β.byInputs)
    {started : Int} {r h : Nat} (hstands : Stands β x p s (.holding x started r h)) : ∃ stage t,
    advance listener q (.holding x started r h) others s = (.ok stage, t) ∧ stage.rank < 3 ∧
      Stands β x p t stage := by
  obtain ⟨-, replies, y, c, z, hstart, hseat, rfl, hbusy⟩ := hstands
  obtain ⟨w, hw, hc⟩ := hseat.handle
  have haddressee := Interpreter.does_addressee hw hc x.hasNonFinite_body
  obtain ⟨t, harrive, ht, -, hfolders⟩ :=
    Process.arrive_reaction habsent hs hseat.child hseat.alive x
  obtain ⟨z', hz', -, halive⟩ := ht.process
  refine ⟨.running x started r y.handle c (Process.reaction s.byInputs z.script.replies x.values),
    t, ?_, Nat.lt_succ_self 2, rfl, replies, z'.script.replies, y, z', hstart, ?_, rfl, hbusy, ?_⟩
  · simp only [advance, bind_apply, Op.outcome, haddressee others, harrive]
    rfl
  · exact {
      session := by rw [ht.tables.sessions]; exact hseat.session
      record := by rw [ht.tables.records]; exact hseat.record
      handle := by rw [ht.handles]; exact hseat.handle
      child := hz'
      alive := halive
      replies := rfl
      folder := hseat.folder
      has := by rw [hfolders]; exact hseat.has
      shown := by rw [hfolders]; exact hseat.shown }
  · rw [hby, hseat.replies]

theorem advance_running (hs : s.Sane) (hseed : s.appliedSeed = β.seed) (hmet : Execution.Met β x)
    {started : Int} {r h c : Nat} {a : Scripted}
    (hstands : Stands β x p s (.running x started r h c a)) (others : Interrupts) : ∃ stage t,
    advance listener q (.running x started r h c a) others s = (.ok stage, t) ∧ stage.rank < 2 ∧
      Settles (Execution.Gives β x) q checker x t stage := by
  obtain ⟨-, replies, rest, y, z, hstart, hseat, rfl, -, rfl⟩ := hstands
  obtain ⟨w, hw, hc, hfolder⟩ := hseat.handle_folder hs
  obtain ⟨t, hreact, ht, hsame⟩ := Interpreter.react_heard others hs hw hc hseat.child hseat.alive
    (hfolder ▸ hseat.shown) (hfolder ▸ hseat.has) x (Process.reaction β.byInputs replies x.values)
  rw [hseed] at hreact
  obtain ⟨out, hcomes⟩ := Execution.Request.comes_saysTo (hmet.reads hstart) β.seed
  have hr : t.sessions.lookup x.key = some r := by
    rw [hsame.sessions]
    exact hseat.session
  have haside (_ : Int) : (pure () : Op Unit).Aside := fun _ s hs => ⟨s, rfl, hs, .refl s⟩
  obtain ⟨v, ms, u, hletGo, hconcluded, -⟩ := Execution.letGo_concluded ht hr haside hcomes others
    started
  refine ⟨.executed x (.ok (out ms)), u, ?_, Nat.lt_succ_self 1, rfl, .ran ms hstart hcomes, nofun⟩
  have hreply : Op.outcome (do
      let ended ← Process.react c "/run" x.body (Process.reaction β.byInputs replies x.values)
      Interpreter.heard y.handle "/run" x.timeout ended) others s =
        (.ok (x.saysTo β.seed (Process.reaction β.byInputs replies x.values)), t) :=
    congrArg (fun result => (Except.ok result.1, result.2)) hreact
  rw [advance, bind_of_eq_ok hreply]
  simp only [parted, concluded, bind_apply, Op.outcome, hletGo, hconcluded, pure_apply]

/-- A case that has lost its session before it began to hold it comes to nothing. -/
theorem advance_stranded (hnone : s.sessions.lookup x.key = none) (others : Interrupts) :
    advance listener q (.seated x) others s =
      (.ok (.executed x (.error (.unknownSession x.key))), s) := by
  simp only [advance, bind_apply, now, Op.view, Op.outcome, Registry.hold_of_none hnone, concluded]
  rfl

theorem advance_executed (hchecker : Checker.named q.checker = .ok checker) (hs : s.Sane)
    {G : Except Failure Outcome → Prop} {result : Except Failure Outcome}
    (h : Settles G q checker x s (.executed x result)) (others : Interrupts) : ∃ stage t,
    advance listener q (.executed x result) others s = (.ok stage, t) ∧ stage.rank < 1 ∧
      Settles G q checker x t stage := by
  obtain ⟨-, hG, hends⟩ := h
  obtain ⟨t, hreset, htorn⟩ := Registry.does_reset hs x.key
  refine ⟨.finished (.ok (verdict q checker result)), t, ?_, Nat.zero_lt_one, result, hG, rfl, ?_⟩
  · simp only [advance, finish, bind_apply, Op.outcome, hreset others, hchecker]
    exact congrArg (fun out => (Except.ok (Stage.finished out), t))
      (conclusion_eq_ok.mpr ⟨rfl, hends⟩)
  · rw [htorn.sessions, Assoc.lookup_drop_self]

/-- A case asks for its session. Idle sessions are swept, and then it gets one, or the judge
executes it, or nobody does. -/
theorem advance_named (q : Request) (checker : Checker) (habsent : others.Absent) (hs : s.Sane)
    (h : s.Untaken x.key p) (hplain : ∀ y ∈ s.scripts, y.Plain) (hmet : Execution.Met s.behaviour x)
    (hcancel : x.cancel = .noEvent) : ∃ v stage t,
      (Registry.sweep Contexts.onSweep).Does s () v ∧ s.SweptFor x.key p v ∧
      advance Contexts.onSweep q (.named x) others s = (.ok stage, t) ∧ stage.rank < 5 ∧
      (Own.of v x.key).Beside x.key p t ∧ (Stands s.behaviour x p t stage ∨
        Settles (Execution.Gives s.behaviour x) q checker x t stage) := by
  obtain rfl : others = fun _ u => u := funext₂ habsent
  obtain ⟨v, hsweep, hv⟩ := h.does_sweep hs
  have hplain : ∀ y ∈ v.scripts, y.Plain := by
    rw [hv.swept.tables]
    exact hplain
  rw [← hv.behaviour] at hmet ⊢
  have hnone := hv.untaken.unregistered
  suffices hsought : ∃ stage t, sought x (fun _ u => u) v = (.ok stage, t) ∧ stage.rank < 5 ∧
      (Stands v.behaviour x p t stage ∨
        Settles (Execution.Gives v.behaviour x) q checker x t stage) by
    obtain ⟨stage, t, hsought, hrank, hstands⟩ := hsought
    have hself : (Own.of v x.key).Beside x.key p v :=
      .of hv.sane fun hr => absurd (hnone.symm.trans hr) nofun
    have hbeside := (beside_sought hv.untaken.folder _ habsent v hself).1
    rw [hsought] at hbeside
    exact ⟨v, stage, t, hsweep, hv, (advance_named_of_sweep h.named hsweep).trans hsought, hrank,
      hbeside, hstands⟩
  cases hup : Registry.comesUp v.setup.startupTimeout 2 v.scripts v.clock with
  | some script =>
      obtain ⟨t, r, y, c, z, hprovide, hseat⟩ :=
        Registry.provide_rises hv.sane hv.untaken hup habsent
      have hstart : v.behaviour.start = .ok script.replies := by simp only [behaviour, hup]
      refine ⟨.seated x, t, ?_, Nat.lt_succ_self 4, .inl ⟨rfl, _, r, y, c, z, hstart,
        hseat.toSeat, hseat.free⟩⟩
      simp only [sought, bind_apply, Op.outcome, hprovide]
      rfl
  | none =>
      obtain ⟨e, t, result, u, hprovide, hunseated, hgives, hends⟩ :=
        Execution.unseated_falls hv.sane hv.untaken hplain hup hmet hcancel
      refine ⟨.executed x result, u, ?_, by simp [Stage.rank], .inr ⟨rfl, hgives, hends⟩⟩
      simp only [sought, bind_apply, Op.outcome, hprovide, hunseated]
      rfl

/-! ### A case that has asked for its session -/

/-- What a case is executed with: what would come of it alone, unless it has lost its session. -/
def Owed (β : Behaviour) (x : Execution.Request) (lost : Prop) (result : Except Failure Outcome) :
    Prop :=
  ¬ lost ∧ Execution.Gives β x result ∨ lost ∧ result = .error (.unknownSession x.key)

/-- How a case fares that has asked for its session, and may have lost it before it began to hold
it. -/
inductive Fares (β : Behaviour) (q : Request) (checker : Checker) (x : Execution.Request) (p : Path)
    (s : Sandbox) (lost : Prop) : Stage → Prop where
  | stands {stage : Stage} : ¬ lost → Stands β x p s stage → Fares β q checker x p s lost stage
  | stranded : lost → s.sessions.lookup x.key = none → Fares β q checker x p s lost (.seated x)
  | settles {stage : Stage} : Settles (Owed β x lost) q checker x s stage →
      Fares β q checker x p s lost stage

theorem Settles.mono {G H : Except Failure Outcome → Prop} (h : Settles G q checker x s stage)
    (hGH : ∀ result, G result → H result) : Settles H q checker x s stage := by
  cases stage with
  | executed x' result => exact ⟨h.1, hGH result h.2.1, h.2.2⟩
  | finished out =>
      obtain ⟨result, hG, hrest⟩ := h
      exact ⟨result, hGH result hG, hrest⟩
  | _ => exact h.elim

/-- A case has its session without holding it, and the session is idle. -/
def Stage.idles (s : Sandbox) : Stage → Bool
  | .seated x => ((s.sessions.lookup x.key).bind (s.records[·]?)).any (Registry.isIdle s)
  | _ => false

theorem Stage.idles_iff : stage.idles s = true ↔ ∃ x r y, stage = .seated x ∧
    s.sessions.lookup x.key = some r ∧ s.records[r]? = some y ∧ Registry.isIdle s y = true := by
  cases stage with
  | seated x =>
      simp only [Stage.idles, Option.any_eq_true, Option.bind_eq_some_iff]
      constructor
      · rintro ⟨y, ⟨r, hr, hy⟩, hidle⟩
        exact ⟨x, r, y, rfl, hr, hy, hidle⟩
      · rintro ⟨_, r, y, hstage, hr, hy, hidle⟩
        cases hstage
        exact ⟨y, ⟨r, hr, hy⟩, hidle⟩
  | _ => exact ⟨nofun, by rintro ⟨_, _, _, hstage, -⟩; cases hstage⟩

namespace Fares

variable {lost lost' : Prop}

/-- A case goes on by itself, as long as it is not finished. -/
theorem advance (listener : String → Op Unit) (habsent : others.Absent)
    (hchecker : Checker.named q.checker = .ok checker)
    (hs : s.Sane) (hby : s.byInputs = β.byInputs) (hseed : s.appliedSeed = β.seed)
    (hmet : Execution.Met β x) (h : Fares β q checker x p s lost stage)
    (hunfinished : stage.result? = none) : ∃ stage' t,
      advance listener q stage others s = (.ok stage', t) ∧ stage'.rank < stage.rank ∧
        Fares β q checker x p t lost stage' := by
  cases h with
  | stands hkept hstands =>
      cases stage with
      | seated x' =>
          obtain rfl := hstands.1
          obtain ⟨stage', t, hadvance, hrank, h⟩ := advance_seated hstands others
          exact ⟨stage', t, hadvance, hrank, .stands hkept h⟩
      | holding x' started r h' =>
          obtain rfl := hstands.1
          obtain ⟨stage', t, hadvance, hrank, h⟩ := advance_holding habsent hs hby hstands
          exact ⟨stage', t, hadvance, hrank, .stands hkept h⟩
      | running x' started r h' c a =>
          obtain rfl := hstands.1
          obtain ⟨stage', t, hadvance, hrank, h⟩ :=
            advance_running hs hseed hmet hstands others
          exact ⟨stage', t, hadvance, hrank, .settles (h.mono fun _ hgives => .inl ⟨hkept, hgives⟩)⟩
      | _ => exact hstands.elim
  | stranded hlost hnone =>
      exact ⟨_, s, advance_stranded hnone others, by simp [Stage.rank], .settles
        ⟨rfl, .inr ⟨hlost, rfl⟩, fun e he => Except.error.inj he ▸ rfl⟩⟩
  | settles hsettles =>
      cases stage with
      | executed x' result =>
          obtain rfl := hsettles.1
          obtain ⟨stage', t, hadvance, hrank, h⟩ := advance_executed hchecker hs hsettles others
          exact ⟨stage', t, hadvance, hrank, .settles h⟩
      | finished out => exact absurd hunfinished nofun
      | _ => exact hsettles.elim

theorem ownedBy (h : Fares β q checker x p s lost stage) :
    stage.OwnedBy (Own.of s x.key) x.key := by
  cases h with
  | stranded => exact rfl
  | stands _ hstands =>
      cases stage with
      | seated => exact hstands.1 ▸ rfl
      | holding =>
          obtain ⟨rfl, replies, y, c, z, -, hseat, rfl, -⟩ := hstands
          exact ⟨rfl, .inl hseat.session, .inl ⟨_, y, hseat.session, hseat.record, rfl⟩⟩
      | running =>
          obtain ⟨rfl, replies, rest, y, z, -, hseat, rfl, -⟩ := hstands
          obtain ⟨w, hw, hc⟩ := hseat.handle
          exact ⟨rfl, .inl hseat.session, .inl ⟨_, y, hseat.session, hseat.record, rfl⟩,
            .inl ⟨_, y, w, hseat.session, hseat.record, hw, hc⟩⟩
      | _ => exact hstands.elim
  | settles hsettles =>
      cases stage with
      | executed => exact hsettles.1 ▸ rfl
      | finished => trivial
      | _ => exact hsettles.elim

theorem request (h : Fares β q checker x p s lost stage) :
    ∀ x', stage.request? = some x' → x' = x := by
  rintro x' hx'
  cases h with
  | stranded => exact (Option.some.inj hx').symm
  | stands _ hstands =>
      cases stage with
      | seated | holding | running => exact (Option.some.inj hx').symm.trans hstands.1
      | _ => exact hstands.elim
  | settles hsettles =>
      cases stage with
      | executed => exact (Option.some.inj hx').symm.trans hsettles.1
      | finished => cases hx'
      | _ => exact hsettles.elim

end Fares

/-! ### A case that is let alone -/

theorem Stands.letAlone (h : Stands β x p s stage) (hframe : s.LetsAlone x.key p t) :
    Stands β x p t stage := by
  cases stage with
  | seated =>
      obtain ⟨hx, replies, r, y, c, z, hstart, hseat, hfree⟩ := h
      exact ⟨hx, replies, r, y, c, z, hstart, hseat.letAlone hframe, hfree⟩
  | holding =>
      obtain ⟨hx, replies, y, c, z, hstart, hseat, hrest⟩ := h
      exact ⟨hx, replies, y, c, z, hstart, hseat.letAlone hframe, hrest⟩
  | running =>
      obtain ⟨hx, replies, rest, y, z, hstart, hseat, hrest⟩ := h
      exact ⟨hx, replies, rest, y, z, hstart, hseat.letAlone hframe, hrest⟩
  | _ => exact h.elim

theorem Stands.isUnderway (h : Stands β x p s stage) : stage.isUnderway = true := by
  cases stage with
  | seated | holding | running => rfl
  | _ => exact h.elim

theorem Stands.idles (h : Stands β x p s stage) {r : Nat} {y : Record}
    (hr : s.sessions.lookup x.key = some r) (hy : s.records[r]? = some y)
    (hidle : Registry.isIdle s y = true) : stage.idles s = true := by
  have hbusy {replies : List Scripted} {r' c : Nat} {y' : Record} {z : Child}
      (hseat : Registry.Seat x.key p replies s r' y' c z) (hbusy : y'.state = .busy) : False := by
    obtain rfl := Option.some.inj (hseat.session.symm.trans hr)
    obtain rfl := Option.some.inj (hseat.record.symm.trans hy)
    simp [Registry.isIdle, hbusy] at hidle
  cases stage with
  | seated => exact Stage.idles_iff.mpr ⟨_, r, y, rfl, h.1 ▸ hr, hy, hidle⟩
  | holding =>
      obtain ⟨-, _, _, _, _, -, hseat, -, hstate⟩ := h
      exact (hbusy hseat hstate).elim
  | running =>
      obtain ⟨-, _, _, _, _, -, hseat, -, hstate, -⟩ := h
      exact (hbusy hseat hstate).elim
  | _ => exact h.elim

theorem Settles.avoid {G : Except Failure Outcome → Prop} (h : Settles G q checker x s stage)
    (hframe : s.Avoids x.key p t) : Settles G q checker x t stage := by
  cases stage with
  | executed => exact h
  | finished =>
      obtain ⟨result, hG, hout, hnone⟩ := h
      exact ⟨result, hG, hout, hframe.vacant hnone⟩
  | _ => exact h.elim

namespace Fares

variable {lost lost' : Prop}

theorem letAlone (h : Fares β q checker x p s lost stage) (hframe : s.LetsAlone x.key p t) :
    Fares β q checker x p t lost stage := by
  cases h with
  | stands hkept hstands => exact .stands hkept (hstands.letAlone hframe)
  | stranded hlost hnone => exact .stranded hlost (hframe.vacant hnone)
  | settles hsettles => exact .settles (hsettles.avoid hframe.toAvoids)

/-- When another case asks for its session, a case loses its own one if that is idle. -/
theorem sweep (h : Fares β q checker x p s lost stage) (hs : s.Tidy)
    (hsweep : (Registry.sweep Contexts.onSweep).Does s () v)
    (hclear : stage.isUnderway = true → ∀ {k : String} {r : Nat}, k ≠ x.key →
      s.sessions.lookup k = some r → ∀ q, Registry.folderOf s.setup k = .ok q →
        p.isWithin q = false) :
    Fares β q checker x p v (lost ∨ stage.idles s = true) stage := by
  have hframe : s.Avoids x.key p v := Registry.avoids_sweep hs.sane hsweep
  cases h with
  | stands hkept hstands =>
      by_cases hidles : stage.idles s = true
      · obtain ⟨x', r, y, rfl, hr, hy, hidle⟩ := Stage.idles_iff.mp hidles
        obtain rfl := hstands.1
        exact .stranded (.inr hidles) (Registry.sweep_takes hs.sane hsweep hr hy hidle)
      · refine .stands (fun hlost => hlost.elim hkept hidles) (hstands.letAlone ?_)
        exact Registry.letsAlone_sweep hs hsweep (fun hr hy => Bool.eq_false_iff.mpr fun hidle =>
          hidles (hstands.idles hr hy hidle)) (hclear hstands.isUnderway)
  | stranded hlost hnone => exact .stranded (.inl hlost) (hframe.vacant hnone)
  | settles hsettles =>
      have hnot : stage.idles s = false := by
        cases stage with
        | seated => exact hsettles.elim
        | _ => rfl
      simp only [hnot, Bool.false_eq_true, or_false]
      exact .settles (hsettles.avoid hframe)

end Fares

end Grading

end Rerun
