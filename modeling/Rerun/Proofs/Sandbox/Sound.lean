import Rerun.Contexts
import Rerun.Proofs.Sandbox.Folders

/-!
What holds in every state of the sandbox that the engine can bring about, at rest and while requests
are on their way (`Sandbox.Sound`), and how much of a state stays as it is while other clients act
(`Sandbox.Meanwhile`): clients come and go, but what one of them holds, nobody else lets go of.
-/

namespace Rerun

/-- The identity of the run for which the identifier of that number was drawn. -/
def Run.idOf (n : Nat) : String :=
  "run-" ++ String.ofList (Text.hexDigits 8 n ++ Text.hexDigits 4 0)

namespace Sandbox

/-- Every identity that the tables hold is that of a thing, and the things fit together. -/
structure Sane (s : Sandbox) : Prop where
  session {k : String} {r : Nat} : s.sessions.lookup k = some r →
    ∃ x, s.records[r]? = some x ∧ Registry.folderOf s.setup k = .ok x.folder
  listed {e : String × Nat} : e ∈ s.sessions → e.2 < s.records.length
  single {k k' : String} {r : Nat} :
    s.sessions.lookup k = some r → s.sessions.lookup k' = some r → k = k'
  record {r : Nat} {x : Record} : s.records[r]? = some x →
    (x.state = .busy → x.locked = true) ∧ ∃ h, s.handles[x.handle]? = some h ∧ h.folder = x.folder
  handle {h c : Nat} {x : Handle} : s.handles[h]? = some x → x.child = some c →
    ∃ y, s.children[c]? = some y ∧ y.folder = x.folder
  metadata : s.folders.Proper
  context {c : String} {i : Nat} : s.contexts.lookup c = some i → ∃ x, s.runs[i]? = some x ∧
    x.key = Contexts.runKey c ∧ x.owner = .engine ∧ secondsOf s.setup.runTimeoutMs = .ok x.timeout
  challenge {n : String} {i : Nat} : s.challenges.lookup n = some i → i < s.challengeTable.length
  challengeKey {i : Nat} {x : Challenge} : s.challengeTable[i]? = some x →
    ∃ n, x.key = Contexts.challengeKey n
  /-- The identities of runs were drawn one after the other. -/
  ids : ∃ ns : List Nat, s.runs.map (·.runId) = ns.map Run.idOf ∧ ns.Pairwise (· < ·) ∧
    ∀ n ∈ ns, n ≤ s.drawnIds

/-- A sane state in which a session of a run that is held belongs to a run in flight. -/
structure Sound (s : Sandbox) : Prop extends Sane s where
  claim {c : String} {r : Nat} {x : Record} : s.sessions.lookup (Contexts.runKey c) = some r →
    s.records[r]? = some x → x.locked = true →
    ∃ i y, s.contexts.lookup c = some i ∧ s.runs[i]? = some y ∧ y.inFlight = true

/-- What stays while clients act. Things keep their identities; sessions that were held are held,
new ones are free, and no session comes back once it was taken down. A run in flight stays so, and
it stays the run of its context unless its session is taken down, which nobody does who acts alone
(`alone`). -/
structure Meanwhile (alone : Prop) (s t : Sandbox) : Prop where
  setup : t.setup = s.setup
  record {r : Nat} {x : Record} : s.records[r]? = some x →
    ∃ y, t.records[r]? = some y ∧ y.handle = x.handle ∧ y.folder = x.folder ∧ y.locked = x.locked
  unlocked {r : Nat} {y : Record} :
    t.records[r]? = some y → s.records[r]? = none → y.locked = false
  handle {h : Nat} {x : Handle} : s.handles[h]? = some x →
    ∃ y, t.handles[h]? = some y ∧ y.folder = x.folder
  session {k : String} {r : Nat} : t.sessions.lookup k = some r →
    s.records[r]? = none ∨ s.sessions.lookup k = some r
  run {i : Nat} {x : RunInfo} : s.runs[i]? = some x → ∃ y, t.runs[i]? = some y ∧
    y.source = x.source ∧ y.key = x.key ∧ y.timeout = x.timeout ∧ y.runId = x.runId ∧
    y.owner = x.owner ∧ y.inFlight = x.inFlight
  landed {i : Nat} {y : RunInfo} : t.runs[i]? = some y → s.runs[i]? = none → y.inFlight = false
  context {c : String} {i : Nat} {x : RunInfo} : s.contexts.lookup c = some i →
    s.runs[i]? = some x → x.inFlight = true → t.contexts.lookup c = some i ∨
      ¬ alone ∧ ∀ r, t.sessions.lookup (Contexts.runKey c) = some r → s.records[r]? = none

namespace Meanwhile

variable {alone : Prop} {s t u : Sandbox}

theorem refl (s : Sandbox) : Meanwhile alone s s where
  setup := rfl
  record h := ⟨_, h, rfl, rfl, rfl⟩
  unlocked h h' := absurd (h.symm.trans h') nofun
  handle h := ⟨_, h, rfl⟩
  session := .inr
  run h := ⟨_, h, rfl, rfl, rfl, rfl, rfl, rfl⟩
  landed h h' := absurd (h.symm.trans h') nofun
  context h _ _ := .inl h

theorem weaken {strict : Prop} (h : Meanwhile strict s t) (hs : alone → strict) :
    Meanwhile alone s t :=
  { h with
    context := fun hc hx hf => (h.context hc hx hf).imp_right fun hn => ⟨mt hs hn.1, hn.2⟩ }

theorem record_none (h : Meanwhile alone s t) {r : Nat} (hr : t.records[r]? = none) :
    s.records[r]? = none := by
  cases hx : s.records[r]? with
  | none => rfl
  | some x =>
      obtain ⟨y, hy, -⟩ := h.record hx
      exact absurd (hr.symm.trans hy) nofun

theorem trans (h : Meanwhile alone s t) (h' : Meanwhile alone t u) : Meanwhile alone s u where
  setup := h'.setup.trans h.setup
  record hx := by
    obtain ⟨y, hy, hh, hf, hl⟩ := h.record hx
    obtain ⟨z, hz, hh', hf', hl'⟩ := h'.record hy
    exact ⟨z, hz, hh'.trans hh, hf'.trans hf, hl'.trans hl⟩
  unlocked {r z} hz hs := by
    cases ht : t.records[r]? with
    | none => exact h'.unlocked hz ht
    | some y =>
        obtain ⟨z', hz', -, -, hl⟩ := h'.record ht
        obtain rfl : z' = z := Option.some.inj (hz'.symm.trans hz)
        exact hl.trans (h.unlocked ht hs)
  handle hx := by
    obtain ⟨y, hy, hf⟩ := h.handle hx
    obtain ⟨z, hz, hf'⟩ := h'.handle hy
    exact ⟨z, hz, hf'.trans hf⟩
  session hu := by
    obtain ht | ht := h'.session hu
    · exact .inl (h.record_none ht)
    · exact h.session ht
  run hx := by
    obtain ⟨y, hy, h1, h2, h3, h4, h5, h6⟩ := h.run hx
    obtain ⟨z, hz, h1', h2', h3', h4', h5', h6'⟩ := h'.run hy
    exact ⟨z, hz, h1'.trans h1, h2'.trans h2, h3'.trans h3, h4'.trans h4, h5'.trans h5,
      h6'.trans h6⟩
  landed {i z} hz hs := by
    cases ht : t.runs[i]? with
    | none => exact h'.landed hz ht
    | some y =>
        obtain ⟨z', hz', -, -, -, -, -, hf⟩ := h'.run ht
        obtain rfl : z' = z := Option.some.inj (hz'.symm.trans hz)
        exact hf.trans (h.landed ht hs)
  context hc hx hf := by
    obtain ht | ⟨halone, ht⟩ := h.context hc hx hf
    · obtain ⟨y, hy, -, -, -, -, -, hf'⟩ := h.run hx
      obtain hu | ⟨halone, hu⟩ := h'.context ht hy (hf'.trans hf)
      · exact .inl hu
      · exact .inr ⟨halone, fun r hr => h.record_none (hu r hr)⟩
    · refine .inr ⟨halone, fun r hr => ?_⟩
      obtain hr | hr := h'.session hr
      · exact h.record_none hr
      · exact ht r hr

end Meanwhile

end Sandbox

end Rerun
