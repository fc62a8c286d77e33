import Rerun.Proofs.Grading.Ready
import Rerun.Proofs.Grading.Stages

/-!
Workers who take turns with the cases of a list. Whoever has a turn keeps to the session of his case
(`Sandbox.KeepsTo`), but for the sweep when the case asks for that session. So what comes of a case
is known at every stage from what was met when cases asked for their sessions
(`Grading.Job.Course`), and in the end all cases have verdicts (`Grading.Job.Runs.reaches_closing`).
-/

namespace Rerun

open Sandbox Op

variable {s t u v : Sandbox} {others : Interrupts} {p q : Path}

/-! ### What keeps to one session -/

/-- What is done keeps to the session of a key, which works in a folder. -/
structure Sandbox.KeepsTo (key : String) (p : Path) (s t : Sandbox) : Prop where
  tidy : t.Tidy
  spends : s.Spends t
  vacant {k : String} : k ≠ key → s.sessions.lookup k = none → t.sessions.lookup k = none
  untouched {k : String} {r : Nat} : k ≠ key → s.sessions.lookup k = some r →
    Registry.Untouched k r s t
  folders : Folders.Spares p s.folders t.folders

namespace Sandbox.KeepsTo

variable {key k : String}

theorem letsAlone (h : s.KeepsTo key p t) (hk : k ≠ key) (hq : q.isWithin p = false) :
    s.LetsAlone k q t where
  vacant := h.vacant hk
  blank := h.folders.blank (Folders.ne_of_not_within hq)
  untouched := h.untouched hk
  found := h.folders.kept hq

theorem of_beside (hs : s.Tidy) (h : (Own.of s key).Beside key p t) (ht : t.Tidy)
    (hseed : t.appliedSeed = s.appliedSeed) : s.KeepsTo key p t where
  tidy := ht
  spends := .of_beside h hseed
  vacant hk := (h.sessions hk).trans
  untouched hk := Registry.Untouched.of_beside hs h hk
  folders := h.folders

theorem drawn (hs : s.Tidy) (key : String) (p : Path) : s.KeepsTo key p (Grading.drawn s) where
  tidy := (Op.Goes.of_drifts .drawId).tidies (Interrupts.Absent.guard (fun _ _ => rfl) _) s hs
  spends := ⟨rfl, rfl, rfl, List.suffix_rfl, List.suffix_rfl, rfl⟩
  vacant _ := id
  untouched _ _ := ⟨rfl, rfl, fun _ => rfl, fun _ _ _ => rfl⟩
  folders := .refl _ _

end Sandbox.KeepsTo

/-- No session works in a folder in which one of so many cases is going to work. -/
def Sandbox.ClearFor (n : Nat) (s : Sandbox) : Prop :=
  ∀ {key : String} {r : Nat} {q : Path}, s.sessions.lookup key = some r →
    Registry.folderOf s.setup key = .ok q → ∀ k < n,
      (Grading.folderAt s.setup.sessionRoot (s.drawnIds + (k + 1))).isWithin q = false

namespace Grading

variable {listener : String → Op Unit} {workers : Nat}

/-! ### What is met by cases that ask for their sessions -/

/-- A case asks for its session: how far the cases have come by then, and what surrounds them. -/
structure Asking where
  case : Nat
  pool : Pool
  box : Sandbox

namespace Pool

def asking (pool : Pool) (s : Sandbox) : Turn → List Asking
  | .go k =>
    match pool[k]? with
    | some (_, .named _) => [⟨k, pool, s⟩]
    | _ => []
  | .collect => []

theorem asking_of_not_canGo {pool : Pool} {k : Nat} (h : pool.canGo workers k = false)
    (s : Sandbox) : pool.asking s (.go k) = [] := by
  rw [asking]
  split
  · rename_i hk
    simp [canGo, hk, Stage.isUnderway, Stage.isWaiting, Stage.result?] at h
  · rfl

/-- What is met by cases when they ask for their sessions, in the order in which they do. -/
def askings (listener : String → Op Unit) (workers : Nat) (others : Interrupts) :
    List Turn → Pool → Sandbox → List Asking
  | [], _, _ => []
  | t :: turns, pool, s => pool.asking s t ++
    match turn listener workers pool t others s with
    | (.ok pool', s') => askings listener workers others turns pool' s'
    | (.error _, _) => []

theorem askings_append {turns turns' : List Turn} {pool pool' : Pool}
    (h : work listener workers turns pool others s = (.ok pool', t)) :
    askings listener workers others (turns ++ turns') pool s =
      askings listener workers others turns pool s ++
        askings listener workers others turns' pool' t := by
  induction turns generalizing pool s with
  | nil =>
      obtain ⟨hpool, rfl⟩ := Prod.mk.inj h
      obtain rfl := Except.ok.inj hpool
      rfl
  | cons turn' turns ih =>
      rw [work, bind_apply] at h
      rw [List.cons_append, askings, askings]
      rcases hturn : turn listener workers pool turn' others s with ⟨e | next, u⟩ <;>
        rw [hturn] at h
      · cases (Prod.mk.inj h).1
      · simp only [ih h, List.append_assoc]

def rankAt (pool : Pool) (k : Nat) : Nat := (pool[k]?.map (·.2.rank)).getD 0

theorem rankAt_eq {pool : Pool} {k : Nat} {c : Request × Stage} (h : pool[k]? = some c) :
    pool.rankAt k = c.2.rank := by
  rw [rankAt, h]
  rfl

theorem rankAt_le (pool : Pool) (k : Nat) : pool.rankAt k ≤ 6 := by
  cases hk : pool[k]? with
  | none =>
      rw [rankAt, hk]
      exact Nat.zero_le _
  | some c =>
      rw [rankAt_eq hk]
      cases c.2 <;> simp [Stage.rank]

theorem rankAt_set {pool : Pool} {j : Nat} (hj : j < pool.length) (c : Request × Stage) (k : Nat) :
    Pool.rankAt (pool.set j c) k = if j = k then c.2.rank else pool.rankAt k := by
  rw [rankAt, List.getElem?_set]
  split
  · obtain rfl : j = k := by assumption
    rfl
  · rfl

end Pool

/-- A case has lost its session before it began to hold it: the session was idle when another case
asked for its own. -/
def Displaced (log : List Asking) (k : Nat) : Prop :=
  ∃ a ∈ log, ∃ q stage, a.pool[k]? = some (q, stage) ∧ stage.idles a.box = true

instance (log : List Asking) (k : Nat) : Decidable (Displaced log k) :=
  decidable_of_iff (∃ a ∈ log, a.pool[k]?.any (·.2.idles a.box) = true)
    (by simp [Displaced, Option.any_eq_true])

theorem displaced_concat (log : List Asking) {a : Asking} {k : Nat} {q : Request} {stage : Stage}
    (hk : a.pool[k]? = some (q, stage)) :
    Displaced (log ++ [a]) k ↔ Displaced log k ∨ stage.idles a.box = true := by
  constructor
  · rintro ⟨a', ha, q', stage', hk', hidles⟩
    obtain ha | ha := List.mem_append.mp ha
    · exact .inl ⟨a', ha, q', stage', hk', hidles⟩
    · obtain rfl := List.mem_singleton.mp ha
      obtain ⟨rfl, rfl⟩ := Prod.mk.inj (Option.some.inj (hk.symm.trans hk'))
      exact .inr hidles
  · rintro (⟨a', ha, hrest⟩ | hidles)
    · exact ⟨a', List.mem_append_left _ ha, hrest⟩
    · exact ⟨a, List.mem_append_right _ List.mem_cons_self, q, stage, hk, hidles⟩

/-! ### Jobs -/

/-- Cases that workers grade from a state on. -/
structure Job where
  checker : Checker
  workers : Nat
  requests : List Request
  start : Sandbox

namespace Job

def key (job : Job) (k : Nat) : String := keyOf (job.start.drawnIds + (k + 1))

def folder (job : Job) (k : Nat) : Path :=
  folderAt job.start.setup.sessionRoot (job.start.drawnIds + (k + 1))

/-- What the case at a place is executed as. -/
def run (job : Job) (k : Nat) (q : Request) : Execution.Request :=
  q.run (job.key k) job.start.setup.batchTimeout

/-- What is known of a case of which nothing is done yet but that its key may be drawn. -/
structure Unasked (job : Job) (log : List Asking) (t : Sandbox) (k : Nat) : Prop where
  vacant : t.sessions.lookup (job.key k) = none
  blank : t.folders.Blank (job.folder k)
  kept : ¬ Displaced log k

/-- What is known of the case at a place, from what was met when cases asked for their sessions. -/
inductive Follows (job : Job) (log : List Asking) (t : Sandbox) (k : Nat) (q : Request) :
    Stage → Prop where
  | waiting : job.Unasked log t k → Follows job log t k q .waiting
  | named : job.Unasked log t k → Follows job log t k q (.named (job.run k q))
  | asked {stage : Stage} {a : Asking} : a ∈ log → a.case = k →
      Fares a.box.behaviour q job.checker (job.run k q) (job.folder k) t (Displaced log k) stage →
      Follows job log t k q stage

/-- What is met by a case of a list that asks for its session. -/
structure Asked (job : Job) (a : Asking) : Prop where
  case : a.case < job.requests.length
  tidy : a.box.Tidy
  spends : job.start.Spends a.box
  untaken : a.box.Untaken (job.key a.case) (job.folder a.case)

/-- How things stand while workers take turns, as far as it concerns some of the cases, and the
sessions that there were before. -/
structure Course (job : Job) (log : List Asking) (among : Nat → Prop) (pool : Pool) (t : Sandbox) :
    Prop where
  tidy : t.Tidy
  spends : job.start.Spends t
  asked : ∀ a ∈ log, job.Asked a
  displaced {k : Nat} : Displaced log k → 1 < job.workers ∧ 1 < job.requests.length
  case {k : Nat} {q : Request} {stage : Stage} : among k → pool[k]? = some (q, stage) →
    job.Follows log t k q stage
  registered {key : String} {r : Nat} : t.sessions.lookup key = some r →
    job.start.sessions.lookup key = some r ∨ ∃ k < job.requests.length, key = job.key k
  before {key : String} {r : Nat} {x : Record} : job.start.sessions.lookup key = some r →
    job.start.records[r]? = some x →
    ((∃ a ∈ log, Registry.isIdle a.box x = true) ∧ t.sessions.lookup key = none) ∨
    ((∀ a ∈ log, Registry.isIdle a.box x = false) ∧ Registry.Untouched key r job.start t)

/-- The order in which cases are begun, and how many are under way at a time. -/
structure InLine (job : Job) (pool : Pool) (t : Sandbox) : Prop where
  requests : pool.map (·.1) = job.requests
  drawn : job.start.drawnIds ≤ t.drawnIds
  waiting {k : Nat} {q : Request} {stage : Stage} : pool[k]? = some (q, stage) →
    (stage.isWaiting = true ↔ t.drawnIds ≤ job.start.drawnIds + k)
  crowd {i j : Nat} {c c' : Request × Stage} : i ≠ j → pool[i]? = some c → pool[j]? = some c' →
    c.2.isUnderway = true → c'.2.isUnderway = true → 1 < job.workers

/-- A list of cases can be graded, also when several workers do that. -/
structure Fit (job : Job) : Prop where
  ready : Ready (job.requests.map (·.run "" job.start.setup.batchTimeout)) job.start
  checker : ∀ q ∈ job.requests, Checker.named q.checker = .ok job.checker
  staffed : 0 < job.workers
  clear : 1 < job.workers → 1 < job.requests.length → job.start.ClearFor job.requests.length

/-- Everything goes on with the cases. -/
structure Runs (job : Job) (log : List Asking) (pool : Pool) (t : Sandbox) : Prop where
  line : job.InLine pool t
  course : job.Course log (fun _ => True) pool t

variable {job : Job} {log : List Asking} {pool : Pool} {among : Nat → Prop} {i j k : Nat}
  {q : Request} {stage stage' : Stage} {x : Execution.Request}

namespace Fit

theorem key_ne (h : job.Fit) (hj : j < job.requests.length) (hk : k < job.requests.length)
    (hne : k ≠ j) : job.key k ≠ job.key j := by
  have hids := h.ready.ids
  rw [List.length_map] at hids
  intro heq
  have := keyOf_inj (by omega) (by omega) heq
  omega

theorem untaken (h : job.Fit) (hk : k < job.requests.length) :
    job.start.Untaken (job.key k) (job.folder k) :=
  h.ready.untaken (by omega) (by rw [List.length_map]; omega)

theorem met (h : job.Fit) (hspends : job.start.Spends t) (hq : q ∈ job.requests) :
    Execution.Met t.behaviour (job.run k q) :=
  (h.ready.spends hspends).met (List.mem_map_of_mem hq) (job.key k)

end Fit

namespace InLine

theorem length (h : job.InLine pool t) : pool.length = job.requests.length := by
  rw [← h.requests, List.length_map]

theorem request (h : job.InLine pool t) (hk : pool[k]? = some (q, stage)) :
    job.requests[k]? = some q := by
  rw [← h.requests, List.getElem?_map, hk]
  rfl

theorem lt (h : job.InLine pool t) (hk : pool[k]? = some (q, stage)) : k < job.requests.length :=
  h.length ▸ (List.getElem?_eq_some_iff.mp hk).1

theorem canGo (h : job.InLine pool t) (hk : pool[k]? = some (q, stage))
    (hgo : pool.canGo workers k = true) : stage.isUnderway = true ∨
      stage.isWaiting = true ∧ t.drawnIds = job.start.drawnIds + k ∧
        pool.countP (·.2.isUnderway) < workers := by
  rw [Pool.canGo, hk] at hgo
  simp only [Bool.or_eq_true, Bool.and_eq_true, decide_eq_true_eq] at hgo
  refine hgo.imp id fun hbegins => ?_
  obtain ⟨⟨hwaits, hbefore⟩, hfew⟩ := hbegins
  refine ⟨hwaits, ?_, hfew⟩
  have hle := (h.waiting hk).mp hwaits
  have hdrawn := h.drawn
  cases k with
  | zero => omega
  | succ i =>
      -- The case before it does not wait.
      have hi : i < pool.length := Nat.lt_of_succ_lt (List.getElem?_eq_some_iff.mp hk).1
      have hmem : pool[i] ∈ pool.take (i + 1) :=
        List.mem_take_iff_getElem.mpr ⟨i, by omega, rfl⟩
      have hnot : pool[i].2.isWaiting = false := by simpa using List.all_eq_true.mp hbefore _ hmem
      have hgone : ¬ t.drawnIds ≤ job.start.drawnIds + i := fun hle => by
        have hwaits := (h.waiting (List.getElem?_eq_getElem hi)).mpr hle
        exact Bool.false_ne_true (hnot.symm.trans hwaits)
      omega

/-- Who goes on beside a case that is under way is one of several workers. -/
theorem beside_underway (h : job.InLine pool t) (hj : pool[j]? = some (q, stage))
    (hgo : pool.canGo job.workers j = true) (hne : k ≠ j) {c : Request × Stage}
    (hk : pool[k]? = some c) (hc : c.2.isUnderway = true) : 1 < job.workers := by
  obtain hcan | ⟨-, -, hfew⟩ := h.canGo hj hgo
  · exact h.crowd hne hk hj hc hcan
  · have hpos : 0 < pool.countP (·.2.isUnderway) :=
      List.countP_pos_iff.mpr ⟨c, List.mem_of_getElem? hk, hc⟩
    omega

theorem set (h : job.InLine pool t) (hj : pool[j]? = some (q, stage))
    (hgo : pool.canGo job.workers j = true) (hstage : stage'.isWaiting = false)
    (hdrawn : u.drawnIds = if stage.isWaiting then t.drawnIds + 1 else t.drawnIds) :
    job.InLine (pool.set j (q, stage')) u := by
  have hlt : j < pool.length := (List.getElem?_eq_some_iff.mp hj).1
  have hcan := h.canGo hj hgo
  refine ⟨?_, ?_, fun {k q' stage₁} hk => ?_, fun {i k c c'} hne hi hk hc hc' => ?_⟩
  · rw [List.map_set, ← h.requests]
    refine List.ext_getElem? fun k => ?_
    rw [List.getElem?_set]
    split
    · obtain rfl : j = k := by assumption
      rw [if_pos (by rwa [List.length_map]), List.getElem?_map, hj]
      rfl
    · rfl
  · rw [hdrawn]
    split <;> have := h.drawn <;> omega
  · rw [List.getElem?_set] at hk
    split at hk
    · obtain rfl : j = k := by assumption
      obtain ⟨-, rfl⟩ := Prod.mk.inj (Option.some.inj (by simpa [hlt] using hk))
      rw [hstage, hdrawn]
      refine ⟨nofun, fun hle => ?_⟩
      cases hwaits : stage.isWaiting with
      | true =>
          obtain hcan | ⟨-, heq, -⟩ := hcan
          · simp [Stage.isUnderway, hwaits] at hcan
          · rw [hwaits, if_pos rfl] at hle
            omega
      | false =>
          rw [hwaits, if_neg Bool.false_ne_true] at hle
          exact hwaits.symm.trans ((h.waiting hj).mpr hle)
    · rename_i hne
      rw [h.waiting hk, hdrawn]
      split
      · rename_i hwaits
        obtain hcan | ⟨-, heq, -⟩ := hcan
        · simp [Stage.isUnderway, hwaits] at hcan
        · omega
      · rfl
  · by_cases hij : i = j
    · subst hij
      rw [List.getElem?_set_ne hne] at hk
      exact h.beside_underway hj hgo (Ne.symm hne) hk hc'
    · rw [List.getElem?_set_ne (Ne.symm hij)] at hi
      by_cases hkj : k = j
      · exact h.beside_underway hj hgo hij hi hc
      · rw [List.getElem?_set_ne (Ne.symm hkj)] at hk
        exact h.crowd hne hi hk hc hc'

end InLine

/-! ### Whoever has not got the turn -/

theorem Follows.keepsTo (h : job.Follows log t k q stage) {key : String} {p : Path}
    (hkeeps : t.KeepsTo key p u) (hkey : job.key k ≠ key) (hp : (job.folder k).isWithin p = false) :
    job.Follows log u k q stage := by
  have hframe := hkeeps.letsAlone hkey hp
  cases h with
  | waiting h => exact .waiting ⟨hframe.vacant h.vacant, hframe.blank h.blank, h.kept⟩
  | named h => exact .named ⟨hframe.vacant h.vacant, hframe.blank h.blank, h.kept⟩
  | asked ha hcase hfares => exact .asked ha hcase (hfares.letAlone hframe)

theorem Follows.sweep (h : job.Follows log t k q stage) (ht : t.Tidy) {a : Asking}
    (hbox : a.box = t) (hk : a.pool[k]? = some (q, stage))
    (hsweep : (Registry.sweep Contexts.onSweep).Does t () v)
    (hclear : stage.isUnderway = true → ∀ {key : String} {r : Nat}, key ≠ job.key k →
      t.sessions.lookup key = some r → ∀ q, Registry.folderOf t.setup key = .ok q →
        (job.folder k).isWithin q = false) : job.Follows (log ++ [a]) v k q stage := by
  have hlost := displaced_concat log hk
  have hframe : t.Avoids (job.key k) (job.folder k) v := Registry.avoids_sweep ht.sane hsweep
  have hunasked (hstage : stage.idles t = false) (h : job.Unasked log t k) :
      job.Unasked (log ++ [a]) v k := by
    refine ⟨hframe.vacant h.vacant, hframe.blank h.blank, fun hdisplaced => ?_⟩
    rw [hlost, hbox] at hdisplaced
    exact hdisplaced.elim h.kept (Bool.eq_false_iff.mp hstage)
  cases h with
  | waiting h => exact .waiting (hunasked rfl h)
  | named h => exact .named (hunasked rfl h)
  | asked ha hcase hfares =>
      refine .asked (List.mem_append_left _ ha) hcase ?_
      rw [hlost, hbox]
      exact hfares.sweep ht hsweep hclear

namespace Course

/-- What keeps to the session of one case leaves everything else on its course. -/
theorem keepsTo (h : job.Course log (· ≠ j) pool t) (hfit : job.Fit)
    (hlength : pool.length = job.requests.length) (hj : j < job.requests.length)
    (hkeeps : t.KeepsTo (job.key j) (job.folder j) u) :
    job.Course log (· ≠ j) pool u where
  tidy := hkeeps.tidy
  spends := h.spends.trans hkeeps.spends
  asked := h.asked
  displaced := h.displaced
  case hne hk := by
    have hkey := hfit.key_ne hj (hlength ▸ (List.getElem?_eq_some_iff.mp hk).1) hne
    exact (h.case hne hk).keepsTo hkeeps hkey (not_within_folderAt hkey)
  registered {key r} hr := by
    by_cases hkey : key = job.key j
    · exact .inr ⟨j, hj, hkey⟩
    · cases ht : t.sessions.lookup key with
      | none => exact absurd ((hkeeps.vacant hkey ht).symm.trans hr) nofun
      | some r' =>
          rw [(hkeeps.untouched hkey ht).session] at hr
          exact h.registered hr
  before {key r x} hr hx := by
    have hkey : key ≠ job.key j := by
      rintro rfl
      exact absurd ((hfit.untaken hj).unregistered.symm.trans hr) nofun
    refine (h.before hr hx).imp (fun hgone => ⟨hgone.1, hkeeps.vacant hkey hgone.2⟩) fun hkept => ?_
    exact ⟨hkept.1, hkept.2.trans (hkeeps.untouched hkey (hkept.2.session.trans hr))⟩

/-- When a case asks for its session, everything else goes on, but sessions that are idle are taken
down. -/
theorem sweep (h : job.Course log (· ≠ j) pool t) (hfit : job.Fit) (hline : job.InLine pool t)
    (hj : pool[j]? = some (q, .named x)) (hasked : job.Asked ⟨j, pool, t⟩)
    (hsweep : (Registry.sweep Contexts.onSweep).Does t () v) (hv : v.Tidy) (hswept : t.Swept v) :
    job.Course (log ++ [⟨j, pool, t⟩]) (· ≠ j) pool v := by
  have hcrowd {k : Nat} {q : Request} {stage : Stage} (hne : k ≠ j)
      (hk : pool[k]? = some (q, stage)) (hstage : stage.isUnderway = true) :
      1 < job.workers ∧ 1 < job.requests.length := by
    refine ⟨hline.crowd hne hk hj hstage rfl, ?_⟩
    have := hline.lt hk
    have := hline.lt hj
    omega
  refine ⟨hv, h.spends.trans (.of_swept hswept), fun a ha => ?_, fun {k} hk => ?_,
    fun {k q stage} hne hk => ?_, fun hr => h.registered (hswept.session hr),
      fun {key r x} hr hx => ?_⟩
  · obtain ha | ha := List.mem_append.mp ha
    · exact h.asked a ha
    · rwa [List.mem_singleton.mp ha]
  · obtain ⟨a, ha, q', stage, hk, hidles⟩ := hk
    obtain ha | ha := List.mem_append.mp ha
    · exact h.displaced ⟨a, ha, q', stage, hk, hidles⟩
    · obtain rfl := List.mem_singleton.mp ha
      obtain ⟨x', -, -, rfl, -⟩ := Stage.idles_iff.mp hidles
      refine hcrowd ?_ hk rfl
      rintro rfl
      cases hj.symm.trans hk
  · refine (h.case hne hk).sweep h.tidy rfl hk hsweep fun hstage {key r} hkey hr p hp => ?_
    obtain ⟨hworkers, hcases⟩ := hcrowd hne hk hstage
    have hsetup := h.spends.setup
    rw [hsetup] at hp
    obtain hr | ⟨i, hi, rfl⟩ := h.registered hr
    · exact hfit.clear hworkers hcases hr hp k (hline.lt hk)
    · obtain rfl := Except.ok.inj ((folderOf_keyOf _ _).symm.trans hp)
      exact not_within_folderAt (Ne.symm hkey)
  · obtain ⟨⟨a, ha, hidle⟩, hgone⟩ | ⟨hkept, hsame⟩ := h.before hr hx
    · exact .inl ⟨⟨a, List.mem_append_left _ ha, hidle⟩,
        (Registry.avoids_sweep (p := .work) h.tidy.sane hsweep).vacant hgone⟩
    · have hr' := hsame.session.trans hr
      have hx' := hsame.record.trans hx
      cases hidle : Registry.isIdle t x with
      | true => exact .inl ⟨⟨_, List.mem_append_right _ List.mem_cons_self, hidle⟩,
          Registry.sweep_takes h.tidy.sane hsweep hr' hx' hidle⟩
      | false =>
          refine .inr ⟨fun a ha => ?_, hsame.trans
            (Registry.sweep_untouched h.tidy hsweep hr' hx' hidle)⟩
          obtain ha | ha := List.mem_append.mp ha
          · exact hkept a ha
          · rwa [List.mem_singleton.mp ha]

theorem set (h : job.Course log (· ≠ j) pool t) (hj : j < pool.length)
    (hstage : job.Follows log t j q stage) :
    job.Course log (fun _ => True) (pool.set j (q, stage)) t :=
  { h with
    case := fun {k q' stage'} _ hk => by
      by_cases hne : k = j
      · subst hne
        rw [List.getElem?_set_self hj] at hk
        obtain ⟨rfl, rfl⟩ := Prod.mk.inj (Option.some.inj hk)
        exact hstage
      · rw [List.getElem?_set_ne (Ne.symm hne)] at hk
        exact h.case hne hk }

theorem mono (h : job.Course log (fun _ => True) pool t) (among : Nat → Prop) :
    job.Course log among pool t :=
  { h with case := fun _ => h.case trivial }

end Course

/-! ### Whoever has got the turn -/

theorem Asked.of_unasked (h : job.Unasked log t k) (hfit : job.Fit) (hk : k < job.requests.length)
    (ht : t.Tidy) (hspends : job.start.Spends t) (pool : Pool) : job.Asked ⟨k, pool, t⟩ where
  case := hk
  tidy := ht
  spends := hspends
  untaken := {
    named := (hfit.untaken hk).named
    folder := by rw [hspends.setup]; exact (hfit.untaken hk).folder
    makeable := (hfit.untaken hk).makeable
    unregistered := h.vacant
    blank := h.blank }

/-- What is its next stage for a case that is under way or may begin. -/
def Next (job : Job) (others : Interrupts) (log : List Asking) (pool : Pool) (t : Sandbox) (k : Nat)
    (q : Request) (stage : Stage) : Prop :=
  ∃ stage' u, advance Contexts.onSweep q stage others t = (.ok stage', u) ∧
    stage'.rank < stage.rank ∧
    u.drawnIds = (if stage.isWaiting then t.drawnIds + 1 else t.drawnIds) ∧
    job.Course (log ++ pool.asking t (.go k)) (· ≠ k) pool u ∧
    job.Follows (log ++ pool.asking t (.go k)) u k q stage'

namespace Runs

theorem next_waiting (h : job.Runs log pool t) (hfit : job.Fit)
    (hk : pool[k]? = some (q, .waiting)) (hdrawn : t.drawnIds = job.start.drawnIds + k) :
    job.Next others log pool t k q .waiting := by
  have hlt := h.line.lt hk
  have hasking : pool.asking t (.go k) = [] := by
    rw [Pool.asking, hk]
  have hkeeps := KeepsTo.drawn h.course.tidy (job.key k) (job.folder k)
  have hadvance : advance Contexts.onSweep q .waiting others t =
      (.ok (.named (job.run k q)), drawn t) := by
    rw [advance, hfit.checker q (List.mem_of_getElem? (h.line.request hk))]
    refine ((does_drawId t).step _ others).trans (((does_view _).step _ others).trans ?_)
    rw [sessionKey_drawn, hdrawn]
    show (Except.ok (Stage.named (q.run _ t.setup.batchTimeout)), drawn t) = _
    rw [h.course.spends.setup]
    rfl
  refine ⟨_, _, hadvance, Nat.lt_succ_self 5, rfl, ?_, ?_⟩
  · rw [hasking, List.append_nil]
    exact (h.course.mono _).keepsTo hfit h.line.length hlt hkeeps
  · rw [hasking, List.append_nil]
    cases h.course.case trivial hk with
    | waiting hnew => exact .named ⟨hnew.vacant, hnew.blank, hnew.kept⟩
    | asked _ _ hfares => exact hfares.ownedBy.elim

theorem next_named (h : job.Runs log pool t) (hfit : job.Fit) (habsent : others.Absent)
    (hk : pool[k]? = some (q, .named x)) : job.Next others log pool t k q (.named x) := by
  have hlt := h.line.lt hk
  have ht := h.course.tidy
  have hasking : pool.asking t (.go k) = [⟨k, pool, t⟩] := by
    rw [Pool.asking, hk]
  obtain ⟨rfl, hnew⟩ : x = job.run k q ∧ job.Unasked log t k := by
    cases h.course.case trivial hk with
    | named hnew => exact ⟨rfl, hnew⟩
    | asked _ _ hfares => exact hfares.ownedBy.elim
  have hasked := Asked.of_unasked hnew hfit hlt ht h.course.spends pool
  have huntaken : t.Untaken (job.key k) (job.folder k) := hasked.untaken
  have hable := hfit.ready.spends h.course.spends
  obtain ⟨v, stage, u, hsweep, hv, hadvance, hrank, hbeside, hcomes⟩ :=
    advance_named q job.checker habsent ht.sane huntaken hable.plain
      (hfit.met h.course.spends (List.mem_of_getElem? (h.line.request hk))) rfl
  have htidy : v.Tidy := by
    have h := Registry.goes_sweep.tidies (habsent.guard _) t ht
    rwa [hsweep] at h
  have hu : u.Tidy := by
    have h := tidies_advance q (.named (job.run k q)) (habsent.guard _) t ht
    rwa [hadvance] at h
  have hseed : u.appliedSeed = t.appliedSeed := by
    have hseedless (x : Execution.Request) (hx : (Stage.named (job.run k q)).request? = some x) :
        x.seed = none := by
      rw [← Option.some.inj hx]
      rfl
    have h := seeded_advance (n := t.appliedSeed) q hseedless (habsent.guard _) t rfl
    rwa [hadvance] at h
  have hkeeps := KeepsTo.of_beside htidy hbeside hu (by rw [hseed, hv.swept.tables])
  -- Nobody else has taken the session that the case is about to get.
  have hkept : ¬ Displaced (log ++ [⟨k, pool, t⟩]) k := by
    rw [displaced_concat log hk]
    rintro (hlost | hidles)
    · exact hnew.kept hlost
    · exact absurd hidles nofun
  refine ⟨stage, u, hadvance, hrank, ?_, ?_, ?_⟩
  · rw [hbeside.drawnIds, hv.swept.tables]
    rfl
  · rw [hasking]
    exact ((h.course.mono _).sweep hfit h.line hk hasked hsweep htidy hv.swept).keepsTo hfit
      h.line.length hlt hkeeps
  · rw [hasking]
    refine .asked (List.mem_append_right _ List.mem_cons_self) rfl ?_
    obtain hstands | hsettles := hcomes
    · exact .stands hkept hstands
    · exact .settles (hsettles.mono fun _ hgives => .inl ⟨hkept, hgives⟩)

theorem next_asked (h : job.Runs log pool t) (hfit : job.Fit) (habsent : others.Absent)
    (hk : pool[k]? = some (q, stage)) {a : Asking} (ha : a ∈ log) (hcase : a.case = k)
    (hfares : Fares a.box.behaviour q job.checker (job.run k q) (job.folder k) t (Displaced log k)
      stage) (hunfinished : stage.result? = none) : job.Next others log pool t k q stage := by
  have hlt := h.line.lt hk
  have ht := h.course.tidy
  have hmem := List.mem_of_getElem? (h.line.request hk)
  have hasked := h.course.asked a ha
  have hasking : log ++ pool.asking t (.go k) = log := by
    rw [Pool.asking, hk]
    cases stage with
    | named => exact hfares.ownedBy.elim
    | _ => exact List.append_nil log
  obtain ⟨stage', u, hadvance, hrank, hfares'⟩ := hfares.advance Contexts.onSweep
    habsent (hfit.checker q hmem) ht.sane
    (h.course.spends.byInputs.trans hasked.spends.byInputs.symm)
    (h.course.spends.seed.trans hasked.spends.seed.symm) (hfit.met hasked.spends hmem) hunfinished
  have hbeside : (Own.of t (job.key k)).Beside (job.key k) (job.folder k) u := by
    have hfolder {r : Nat} {y : Record} (hr : t.sessions.lookup (job.key k) = some r)
        (hy : t.records[r]? = some y) : y.folder = job.folder k := by
      obtain ⟨y', hy', hp⟩ := ht.sane.session hr
      obtain rfl := Option.some.inj (hy.symm.trans hy')
      rw [h.course.spends.setup] at hp
      exact Except.ok.inj (hp.symm.trans (folderOf_keyOf _ _))
    have h := (beside_advance Contexts.onSweep q hfares.ownedBy others habsent t
      (.of ht.sane hfolder)).1
    rwa [hadvance] at h
  have hu : u.Tidy := by
    have h := tidies_advance q stage (habsent.guard _) t ht
    rwa [hadvance] at h
  have hseed : u.appliedSeed = t.appliedSeed := by
    have h := seeded_advance (n := t.appliedSeed) q (fun x hx => by rw [hfares.request x hx]; rfl)
      (habsent.guard _) t rfl
    rwa [hadvance] at h
  have hwaits : stage.isWaiting = false := by
    cases stage with
    | waiting => exact hfares.ownedBy.elim
    | _ => rfl
  refine ⟨stage', u, hadvance, hrank, by rw [hwaits]; exact hbeside.drawnIds, ?_, ?_⟩
  · rw [hasking]
    exact (h.course.mono _).keepsTo hfit h.line.length hlt (.of_beside ht hbeside hu hseed)
  · rw [hasking]
    exact .asked ha hcase hfares'

theorem next (h : job.Runs log pool t) (hfit : job.Fit) (habsent : others.Absent)
    (hk : pool[k]? = some (q, stage)) (hgo : pool.canGo job.workers k = true) :
    job.Next others log pool t k q stage := by
  have hcan := h.line.canGo hk hgo
  cases h.course.case trivial hk with
  | waiting _ =>
      obtain hcan | ⟨-, hdrawn, -⟩ := hcan
      · exact absurd hcan nofun
      · exact h.next_waiting hfit hk hdrawn
  | named _ => exact h.next_named hfit habsent hk
  | asked ha hcase hfares =>
      refine h.next_asked hfit habsent hk ha hcase hfares ?_
      cases stage with
      | finished => exact absurd hcan (by simp [Stage.isUnderway, Stage.isWaiting, Stage.result?])
      | _ => rfl

theorem hasFailed (h : job.Runs log pool t) : pool.hasFailed = false := by
  rw [Pool.hasFailed]
  split
  · rename_i q out hfind
    obtain ⟨k, hk⟩ := List.getElem?_of_mem (List.mem_of_find?_eq_some hfind)
    have hnone := List.find?_some hfind
    cases h.course.case trivial hk with
    | asked _ _ hfares =>
        cases hfares with
        | stands _ hstands => exact hstands.elim
        | settles hsettles =>
            obtain ⟨result, -, rfl, -⟩ := hsettles
            exact absurd hnone (by simp [Stage.hasVerdict])
  · rfl

theorem turn (h : job.Runs log pool t) (hfit : job.Fit) (habsent : others.Absent) (next : Turn) :
    ∃ pool' u, Pool.turn Contexts.onSweep job.workers pool next others t = (.ok pool', u) ∧
      job.Runs (log ++ pool.asking t next) pool' u ∧ (∀ k, pool'.rankAt k ≤ pool.rankAt k) ∧
      ∀ k, next = .go k → pool.canGo job.workers k = true → pool'.rankAt k < pool.rankAt k := by
  cases next with
  | collect =>
      refine ⟨pool, t, ?_, by rwa [Pool.asking, List.append_nil], fun _ => Nat.le_refl _,
        fun k hk => ?_⟩
      · rw [Pool.turn, h.hasFailed]
        rfl
      · cases hk
  | go k =>
      cases hgo : pool.canGo job.workers k with
      | false =>
          refine ⟨pool, t, ?_, ?_, fun _ => Nat.le_refl _, fun j hj hgo' => ?_⟩
          · rw [Pool.turn_of_not_canGo hgo]
            rfl
          · rwa [Pool.asking_of_not_canGo hgo, List.append_nil]
          · obtain rfl := Turn.go.inj hj
            exact absurd (hgo.symm.trans hgo') Bool.false_ne_true
      | true =>
          obtain ⟨⟨q, stage⟩, hk⟩ := Pool.exists_of_canGo hgo
          obtain ⟨stage', u, hadvance, hrank, hdrawn, hcourse, hfollows⟩ :=
            h.next hfit habsent hk hgo
          have hlt : k < pool.length := (List.getElem?_eq_some_iff.mp hk).1
          have hturn : Pool.turn Contexts.onSweep job.workers pool (.go k) others t =
              (.ok (pool.set k (q, stage')), u) := by
            rw [Pool.turn_of_canGo hk hgo]
            exact bind_of_eq_ok hadvance _
          have hwaits : stage'.isWaiting = false := by
            cases stage' with
            | waiting => cases stage <;> simp [Stage.rank] at hrank
            | _ => rfl
          refine ⟨_, u, hturn, ⟨h.line.set hk hgo hwaits hdrawn, hcourse.set hlt hfollows⟩,
            fun i => ?_, fun j hj _ => ?_⟩
          · rw [Pool.rankAt_set hlt]
            split
            · obtain rfl : k = i := by assumption
              rw [Pool.rankAt_eq hk]
              exact Nat.le_of_lt hrank
            · exact Nat.le_refl _
          · obtain rfl := Turn.go.inj hj
            rw [Pool.rankAt_set hlt, if_pos rfl, Pool.rankAt_eq hk]
            exact hrank

end Runs

/-! ### Turns -/

/-- Turns after which everything goes on, and no case has gone back. -/
structure Reaches (job : Job) (others : Interrupts) (turns : List Turn) (log : List Asking)
    (pool : Pool) (t : Sandbox) (pool' : Pool) (u : Sandbox) : Prop where
  work : Pool.work Contexts.onSweep job.workers turns pool others t = (.ok pool', u)
  runs : job.Runs (log ++ Pool.askings Contexts.onSweep job.workers others turns pool t) pool' u
  ranks (k : Nat) : pool'.rankAt k ≤ pool.rankAt k

variable {turns turns' : List Turn} {pool' pool'' : Pool}

theorem Reaches.append (h : job.Reaches others turns log pool t pool' u)
    (h' : job.Reaches others turns'
      (log ++ Pool.askings Contexts.onSweep job.workers others turns pool t) pool' u pool'' v) :
    job.Reaches others (turns ++ turns') log pool t pool'' v where
  work := by
    rw [Pool.work_append]
    exact (bind_of_eq_ok h.work _).trans h'.work
  runs := by
    rw [Pool.askings_append h.work, ← List.append_assoc]
    exact h'.runs
  ranks k := Nat.le_trans (h'.ranks k) (h.ranks k)

namespace Runs

theorem reaches_one (h : job.Runs log pool t) (hfit : job.Fit) (habsent : others.Absent)
    (next : Turn) : ∃ pool' u, job.Reaches others [next] log pool t pool' u ∧
      ∀ k, next = .go k → pool.canGo job.workers k = true → pool'.rankAt k < pool.rankAt k := by
  obtain ⟨pool', u, hturn, hruns, hranks, hdecreases⟩ := h.turn hfit habsent next
  refine ⟨pool', u, ⟨?_, ?_, hranks⟩, hdecreases⟩
  · rw [Pool.work]
    exact bind_of_eq_ok hturn _
  · simpa only [Pool.askings, hturn, List.append_nil] using hruns

theorem reaches (h : job.Runs log pool t) (hfit : job.Fit) (habsent : others.Absent)
    (turns : List Turn) : ∃ pool' u, job.Reaches others turns log pool t pool' u := by
  induction turns generalizing log pool t with
  | nil =>
      refine ⟨pool, t, rfl, ?_, fun _ => Nat.le_refl _⟩
      rwa [Pool.askings, List.append_nil]
  | cons next turns ih =>
      obtain ⟨pool', u, hone, -⟩ := h.reaches_one hfit habsent next
      obtain ⟨pool'', v, hrest⟩ := ih hone.runs
      exact ⟨pool'', v, hone.append hrest⟩

theorem canGo (h : job.Runs log pool t) (hfit : job.Fit) (hbefore : ∀ j < k, pool.rankAt j = 0)
    (hk : pool.rankAt k ≠ 0) : pool.canGo job.workers k = true := by
  cases hstage : pool[k]? with
  | none => exact absurd (by rw [Pool.rankAt, hstage]; rfl) hk
  | some c =>
      obtain ⟨q, stage⟩ := c
      rw [Pool.rankAt_eq hstage] at hk
      rw [Pool.canGo, hstage]
      dsimp only
      cases stage with
      | finished => exact absurd rfl hk
      | waiting =>
          have hdrawn := (h.line.waiting hstage).mp rfl
          have hdone {c : Request × Stage} {i : Nat} (hi : pool[i]? = some c) (hlt : i < k) :
              c.2.isWaiting = false ∧ c.2.isUnderway = false :=
            Stage.still_of_rank (by rw [← Pool.rankAt_eq hi, hbefore i hlt])
          have hnone : ((pool.take k).all fun c => !c.2.isWaiting) = true := by
            refine List.all_eq_true.mpr fun c hc => ?_
            obtain ⟨i, hi, rfl⟩ := List.mem_take_iff_getElem.mp hc
            rw [(hdone (List.getElem?_eq_getElem _) (by omega)).1]
            rfl
          have hidle : pool.countP (·.2.isUnderway) = 0 := by
            refine List.countP_eq_zero.mpr fun c hc => ?_
            obtain ⟨i, hi⟩ := List.getElem?_of_mem hc
            rw [Bool.not_eq_true]
            by_cases hlt : i < k
            · exact (hdone hi hlt).2
            · -- Those after it wait as well.
              have hwaits : c.2.isWaiting = true := (h.line.waiting hi).mpr (by omega)
              rw [Stage.isUnderway, hwaits]
              rfl
          rw [hnone, hidle, decide_eq_true hfit.staffed]
          rfl
      | _ => rfl

/-- A case comes to its end in as many turns as it is from that, when those before it have. -/
theorem reaches_finished (h : job.Runs log pool t) (hfit : job.Fit) (habsent : others.Absent)
    (hbefore : ∀ j < k, pool.rankAt j = 0) {n : Nat} (hn : pool.rankAt k ≤ n) :
    ∃ pool' u, job.Reaches others (List.replicate n (.go k)) log pool t pool' u ∧
      pool'.rankAt k = 0 := by
  induction n generalizing log pool t with
  | zero =>
      obtain ⟨pool', u, hreaches⟩ := h.reaches hfit habsent []
      have := hreaches.ranks k
      exact ⟨pool', u, hreaches, by omega⟩
  | succ n ih =>
      obtain ⟨pool', u, hone, hdecreases⟩ := h.reaches_one hfit habsent (.go k)
      have hranks := hone.ranks
      have hn' : pool'.rankAt k ≤ n := by
        by_cases hk : pool.rankAt k = 0
        · have := hranks k
          omega
        · have := hdecreases k rfl (h.canGo hfit hbefore hk)
          omega
      obtain ⟨pool'', v, hrest, hfinished⟩ := ih hone.runs
        (fun j hj => Nat.le_zero.mp (hbefore j hj ▸ hranks j)) hn'
      exact ⟨pool'', v, hone.append hrest, hfinished⟩

theorem reaches_closing (h : job.Runs log pool t) (hfit : job.Fit) (habsent : others.Absent)
    (n : Nat) : ∃ pool' u, job.Reaches others (Pool.closing n) log pool t pool' u ∧
      ∀ k < n, pool'.rankAt k = 0 := by
  induction n with
  | zero =>
      obtain ⟨pool', u, hreaches⟩ := h.reaches hfit habsent []
      exact ⟨pool', u, hreaches, nofun⟩
  | succ n ih =>
      obtain ⟨pool₁, u₁, hreaches, hfinished⟩ := ih
      obtain ⟨pool₂, u₂, hcollect, -⟩ := hreaches.runs.reaches_one hfit habsent .collect
      have hbefore (k : Nat) (hk : k < n) : pool₂.rankAt k = 0 :=
        Nat.le_zero.mp (hfinished k hk ▸ hcollect.ranks k)
      obtain ⟨pool₃, u₃, hgo, hlast⟩ :=
        hcollect.runs.reaches_finished hfit habsent hbefore (pool₂.rankAt_le n)
      have hclosing : Pool.closing (n + 1) =
          Pool.closing n ++ ([.collect] ++ List.replicate 6 (.go n)) := by
        rw [Pool.closing, List.range_succ, List.flatMap_append, List.flatMap_singleton]
        rfl
      rw [hclosing]
      refine ⟨pool₃, u₃, hreaches.append (hcollect.append hgo), fun k hk => ?_⟩
      obtain hk | rfl := Nat.lt_succ_iff_lt_or_eq.mp hk
      · exact Nat.le_zero.mp (hbefore k hk ▸ hgo.ranks k)
      · exact hlast

end Runs

theorem Fit.runs (h : job.Fit) : job.Runs [] (Pool.queued job.requests) job.start := by
  have hwaits {k : Nat} {c : Request × Stage} (hk : (Pool.queued job.requests)[k]? = some c) :
      c.2 = .waiting ∧ k < job.requests.length := by
    rw [Pool.queued, List.getElem?_map] at hk
    obtain ⟨q, hq, rfl⟩ := Option.map_eq_some_iff.mp hk
    exact ⟨rfl, (List.getElem?_eq_some_iff.mp hq).1⟩
  have hnone (a : Asking) : a ∉ ([] : List Asking) := List.not_mem_nil
  have hkept (k : Nat) : ¬ Displaced [] k := by
    rintro ⟨a, ha, -⟩
    exact hnone a ha
  refine ⟨⟨?_, Nat.le_refl _, fun {k q stage} hk => ?_, fun _ hi _ hstage => ?_⟩, {
    tidy := h.ready.arisen.tidy
    spends := .refl _
    asked := fun a ha => absurd ha (hnone a)
    displaced := fun hlost => absurd hlost (hkept _)
    case := fun {k q stage} _ hk => ?_
    registered := .inl
    before := fun _ _ => .inr ⟨fun a ha => absurd ha (hnone a), rfl, rfl, fun _ => rfl,
      fun _ _ _ => rfl⟩ }⟩
  · rw [Pool.queued, List.map_map]
    exact List.map_id _
  · obtain rfl : stage = .waiting := (hwaits hk).1
    exact ⟨fun _ => Nat.le_add_right _ _, fun _ => rfl⟩
  · rw [(hwaits hi).1] at hstage
    exact absurd hstage Bool.false_ne_true
  · obtain rfl : stage = .waiting := (hwaits hk).1
    have huntaken := h.untaken (hwaits hk).2
    exact .waiting ⟨huntaken.unregistered, huntaken.blank, hkept k⟩

end Job

end Grading

end Rerun
