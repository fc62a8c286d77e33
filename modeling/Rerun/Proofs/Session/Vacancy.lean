import Rerun.Proofs.Sandbox.Guards
import Rerun.Proofs.Sandbox.Outside
import Rerun.Proofs.Session.Overtaken
import Rerun.Proofs.Session.Seeding

/-!
Contexts that have no run, or no session. They stay so in all that clients do, until a submission
brings the context a run, and a call for its session brings that (`Step.vacant`).
-/

namespace Rerun

open Sandbox Op

variable {s t u : Sandbox} {a b : Scene} {others : Interrupts} {c d key : String} {i : Nat}

namespace Contexts

/-- What a submission in a context does at once. -/
def Submits (c : String) (s t : Sandbox) : Prop :=
  ∃ others source prior newest result, embark c source prior newest others s = (result, t)

/-- What a call for the session of a context does. -/
def Calls (c : String) (s t : Sandbox) : Prop :=
  ∃ others result, Registry.acquire onSweep (some (runKey c)) others s = (result, t)

/-- A context that has no run gets none, and one that has no session gets none. -/
structure StaysVacant (c : String) (s t : Sandbox) : Prop where
  run : run? c s = none → run? c t = none
  session : Registry.find? s (runKey c) = none → Registry.find? t (runKey c) = none

namespace StaysVacant

theorem refl (c : String) (s : Sandbox) : StaysVacant c s s := ⟨id, id⟩

theorem trans (h : StaysVacant c s t) (h' : StaysVacant c t u) : StaysVacant c s u :=
  ⟨h'.run ∘ h.run, h'.session ∘ h.session⟩

instance : IsPreorder Sandbox (StaysVacant c) where
  refl := refl c
  trans _ _ _ := trans

theorem of_eq (hcontexts : t.contexts = s.contexts) (hsessions : t.sessions = s.sessions) :
    StaysVacant c s t where
  run hrun := by
    rw [run?, hcontexts]
    exact hrun
  session hsession := by
    rw [Registry.find?, hsessions]
    exact hsession

theorem of_drifts (h : s.Drifts t) : StaysVacant c s t := of_eq h.contexts h.sessions

theorem of_windsDown {held : Option Nat} (h : Run.WindsDown key i held s t) :
    StaysVacant c s t where
  run hrun := by
    rw [run?, h.contexts]
    exact hrun
  session hsession := by
    obtain heq | ⟨-, hnone⟩ := h.session (k := runKey c)
    · exact heq.trans hsession
    · exact hnone

theorem dropContext (s : Sandbox) (d : String) :
    StaysVacant c s { s with contexts := Assoc.drop s.contexts d } :=
  ⟨fun hrun => Assoc.lookup_drop_of_none hrun d, id⟩

end StaysVacant

/-! ### Sessions and runs that end -/

theorem vacant_reset (key : String) : (Registry.reset key).Along (StaysVacant c) := by
  have hdown : (Registry.reset key).Along (Run.WindsDown key 0 none) := Registry.windsDown_reset
  exact hdown.mono fun _ _ => .of_windsDown

theorem vacant_resetAll : Registry.resetAll.Along (StaysVacant c) :=
  Along.chains.resetAll vacant_reset

theorem vacant_note (key : String) (entry : Json) :
    (Registry.note key entry).Along (StaysVacant c) :=
  (Registry.windsDown_note (i := 0) entry).mono fun _ _ => .of_windsDown

theorem vacant_release (key : String) (r : Nat) (how : Departure) :
    (Registry.release key r how).Along (StaysVacant c) :=
  (Registry.windsDown_release (i := 0) r how).mono fun _ _ => .of_windsDown

theorem vacant_forget (owner : SeedOwner) (runId : String) :
    (Seeds.forget owner runId).Along (StaysVacant c) :=
  .change fun _ => .of_eq (by cases owner <;> rfl) (by cases owner <;> rfl)

theorem vacant_leave (d : String) : (leave d).Along (StaysVacant c) := by
  refine .bind (.view _) fun found => ?_
  split
  · exact .pure _
  · refine .bind (.change fun s => .dropContext s d) fun _ =>
      .bind (.change fun _ => .of_eq rfl rfl) fun _ => .bind (.need _) fun r => ?_
    exact .bind (vacant_forget _ _) fun _ => vacant_reset _

theorem vacant_abandon (d : String) : (abandon d).Along (StaysVacant c) := by
  refine .bind (.view _) fun found => ?_
  split
  · exact vacant_reset _
  · exact vacant_leave d

theorem vacant_onSweep (key : String) : (onSweep key).Along (StaysVacant c) :=
  Along.chains.onSweep
    (fun d _ => Along.chains.forgetRun (.change fun s => .dropContext s d) vacant_forget)
    (fun _ => Along.chains.forgetChallenge (.change fun _ => .of_eq rfl rfl) fun _ =>
      .change fun _ => .of_eq rfl rfl)
    (.change fun _ => .of_eq rfl rfl)

theorem vacant_sweep : (Registry.sweep onSweep).Along (StaysVacant c) :=
  Along.chains.sweep vacant_reset vacant_onSweep

/-! ### Calls for sessions -/

/-- A session that is called for under no key, or under another one, is not that of the context. -/
theorem ne_runKey_of_keyFor {asked : Option String} {k : String}
    (h : Registry.keyFor asked others s = (.ok k, t)) (hasked : asked ≠ some (runKey c)) :
    k ≠ runKey c := by
  have hanonymous (h : Registry.keyFor.anonymous others s = (.ok k, t)) : k ≠ runKey c := by
    rw [← Except.ok.inj (Prod.mk.inj h).1]
    exact ne_runKey (by simp [String.toList_append]) c
  unfold Registry.keyFor at h
  split at h
  · split at h
    · exact hanonymous h
    · rw [← Except.ok.inj (Prod.mk.inj h).1]
      exact fun hk => hasked (congrArg some hk)
  · exact hanonymous h

/-- A call brings a context no run, and no session unless it is for that of the context. -/
theorem acquire_vacant (hs : s.Sane) (asked : Option String) (others : Interrupts) :
    (run? c s = none → run? c (Registry.acquire onSweep asked others s).2 = none) ∧
      (asked ≠ some (runKey c) → Registry.find? s (runKey c) = none →
        Registry.find? (Registry.acquire onSweep asked others s).2 (runKey c) = none) := by
  obtain ⟨t, hsweep, ht, -⟩ := Registry.does_sweep hs
  have hswept : StaysVacant c s t := vacant_sweep.of_does hsweep
  have hdrifts := Registry.drifts_keyFor asked others t
  rw [Registry.acquire, hsweep.step, bind_apply]
  rcases hkey : Registry.keyFor asked others t with ⟨e | k, u⟩ <;> rw [hkey] at hdrifts <;>
    have hu : StaysVacant c s u := hswept.trans (.of_drifts hdrifts)
  · exact ⟨hu.run, fun _ => hu.session⟩
  · have hlast : ((do Registry.provide k; pure k : Op String) others u).2 =
        (Registry.provide k others u).2 := by
      rw [bind_apply]
      rcases Registry.provide k others u with ⟨_ | _, v⟩ <;> rfl
    dsimp only
    rw [hlast]
    refine ⟨fun hrun => ?_, fun hasked hsession => ?_⟩
    · rw [run?, congrArg Sandbox.contexts ((Registry.pervades_outside.provide k).holds others u)]
      exact hu.run hrun
    · exact Registry.find?_provide_of_ne (hdrifts.sane ht)
        (Ne.symm (ne_runKey_of_keyFor hkey hasked)) (hu.session hsession) others

/-! ### Submissions -/

theorem StaysVacant.of_embarked {x : RunInfo} {q : Execution.Request}
    (h : Run.Embarked s i x q t) : StaysVacant c s t := by
  obtain ⟨n, u, f, hdrawn, -, -, rfl⟩ := h.drawn
  exact .of_eq (by rw [hdrawn.tables]) (by rw [hdrawn.tables])

/-- A submission brings no context a session at once, and none a run but its own. -/
theorem Embarks.vacant {result : Except Failure (Nat × Execution.Request)}
    (h : Embarks d s result t) : (d ≠ c → run? c s = none → run? c t = none) ∧
      (Registry.find? s (runKey c) = none → Registry.find? t (runKey c) = none) := by
  have hall (h : StaysVacant c s t) : (d ≠ c → run? c s = none → run? c t = none) ∧
      (Registry.find? s (runKey c) = none → Registry.find? t (runKey c) = none) :=
    ⟨fun _ => h.run, h.session⟩
  cases h with
  | refused e => exact hall (.refl c s)
  | stranded e hleave => exact hall ((vacant_leave d).of_does hleave)
  | @begun v _ _ _ _ _ hleave _ hbegun =>
      have hv : StaysVacant c s v := (vacant_leave d).of_does hleave
      have ht : StaysVacant c (entered v d _) t := .of_embarked hbegun
      refine ⟨fun hd hrun => ht.run ?_, fun hsession => ht.session (hv.session hsession)⟩
      exact (Assoc.lookup_put_of_ne _ _ (Ne.symm hd)).trans (hv.run hrun)
  | again _ _ _ hagain => exact hall (.of_embarked hagain)

end Contexts

open Contexts

/-! ### Steps -/

/-- A context without a run has none after a step either, unless that is a submission in the
context; and no session, unless that is what is called for. -/
theorem Step.vacant (h : Step a b) (ha : a.box.Sane) (c : String) :
    (Submits c a.box b.box ∨ (run? c a.box = none → run? c b.box = none)) ∧
      (Calls c a.box b.box ∨
        (Registry.find? a.box (runKey c) = none → Registry.find? b.box (runKey c) = none)) := by
  have hall (h : StaysVacant c a.box b.box) :
      (Submits c a.box b.box ∨ (run? c a.box = none → run? c b.box = none)) ∧
      (Calls c a.box b.box ∨
        (Registry.find? a.box (runKey c) = none → Registry.find? b.box (runKey c) = none)) :=
    ⟨.inr h.run, .inr h.session⟩
  cases h with
  | drift hd => exact hall (.of_drifts hd)
  | sweep others => exact hall (vacant_sweep.holds others a.box)
  | acquire others asked =>
      obtain ⟨hrun, hsession⟩ := acquire_vacant (c := c) ha asked others
      refine ⟨.inr hrun, ?_⟩
      by_cases hasked : asked = some (runKey c)
      · subst hasked
        exact .inl ⟨others, _, rfl⟩
      · exact .inr (hsession hasked)
  | reset others key => exact hall ((vacant_reset key).holds others a.box)
  | resetAll others => exact hall (vacant_resetAll.holds others a.box)
  | record others key entry => exact hall ((vacant_note key entry).holds others a.box)
  | enter hhold =>
      obtain ⟨x, -, -, -, rfl⟩ := Registry.hold_eq_ok hhold
      exact hall (.of_eq rfl rfl)
  | @leave others key r how _ => exact hall ((vacant_release key r how).holds others a.box)
  | @embark _ d _ _ _ _ _ _ hembark | @refuse _ d _ _ _ _ _ hembark =>
      obtain ⟨hrun, hsession⟩ := (embarks_of_eq ha hembark).vacant (c := c)
      refine ⟨?_, .inr hsession⟩
      by_cases hd : d = c
      · exact .inl ⟨_, _, _, _, _, hd ▸ hembark⟩
      · exact .inr (hrun hd)
  | land i => exact hall (.of_eq rfl rfl)
  | abandon others d => exact hall ((vacant_abandon d).holds others a.box)

/-- Steps none of which is of a kind. -/
abbrev StepsWithout (K : Sandbox → Sandbox → Prop) : Scene → Scene → Prop :=
  Relation.ReflTransGen fun a b => Step a b ∧ ¬ K a.box b.box

namespace StepsWithout

variable {K : Sandbox → Sandbox → Prop}

theorem steps (h : StepsWithout K a b) : Steps a b := by
  induction h with
  | refl => exact .refl
  | tail _ hlast ih => exact ih.tail hlast.1

theorem keeps {P : Sandbox → Prop} (hstep : ∀ {a b : Scene}, Step a b → ¬ K a.box b.box →
      a.box.Sane → P a.box → P b.box) (h : StepsWithout K a b) (ha : a.box.Sane) (hp : P a.box) :
    P b.box := by
  induction h with
  | refl => exact hp
  | tail hsteps hlast ih =>
      have hsane := Moves.sane ((steps hsteps).moves ha) ha
      exact hstep hlast.1 hlast.2 hsane ih

/-- A context has no run until a submission brings it one. -/
theorem run (h : StepsWithout (Submits c) a b) (ha : a.box.Sane) (hrun : run? c a.box = none) :
    run? c b.box = none :=
  h.keeps (P := fun s => run? c s = none)
    (fun hstep hno hs => (hstep.vacant hs c).1.resolve_left hno) ha hrun

theorem session (h : StepsWithout (Calls c) a b) (ha : a.box.Sane)
    (hsession : Registry.find? a.box (runKey c) = none) : Registry.find? b.box (runKey c) = none :=
  h.keeps (P := fun s => Registry.find? s (runKey c) = none)
    (fun hstep hno hs => (hstep.vacant hs c).2.resolve_left hno) ha hsession

end StepsWithout

end Rerun
