import Rerun.Proofs.Program.Coupling
import Rerun.Proofs.Program.Unrescued

/-!
One attempt and the next, which has one more value at the end of its input. The two runs of the
program go together, in the same state but for that value, until a read of the first finds no value
left. If the first then stops for good, the second has shown all that the first has shown.
-/

namespace Rerun

namespace Program

/-- What is shown of the value that comes for a read. -/
def Demand.echo (d : Demand) (feed : Feed) (v : String) : List Piece :=
  if d.prompted && feed.echo then [.echoed v] else []

/-- A further value at the end of the feed, which is shown when it comes. -/
abbrev Coupling.given (v : String) : Coupling where
  feed f := { f with left := f.left ++ [v] }
  extra d f := d.echo f v

/-- The machine with a further value at the end of its feed. -/
abbrev Machine.given (m : Machine) (v : String) : Machine := m.coupled (.given v)

/-- A computation that does the same with and without the further value, up to the first read that
finds no value left without it. -/
abbrev Coupled {α : Type} (v : String) (x : Run α) : Prop := InStep (.given v) False x

namespace Coupled

variable {v : String}

theorem await (prompt : String) : Coupled v (Run.await prompt) where
  onward := .await prompt
  runs m _ hd hb := by
    cases hl : m.feed.left with
    | nil =>
        have hl' : (m.given v).feed.left = [v] := by simp [Machine.coupled, hl]
        rw [Run.await_of_nil prompt hl hb, Run.await_of_cons prompt hl']
        exact .inr (.of_demand (d := ⟨true, prompt⟩) hd hl rfl rfl rfl)
    | cons w ws =>
        have hl' : (m.given v).feed.left = w :: (ws ++ [v]) := by simp [Machine.coupled, hl]
        rw [Run.await_of_cons prompt hl, Run.await_of_cons prompt hl']
        exact .inl ⟨rfl, rfl, hd, hb⟩

theorem readLine : Coupled v (Run.ofRead false Feed.readLine) where
  onward := .ofRead Feed.leads_readLine
  runs m _ hd hb := by
    cases hl : m.feed.left with
    | nil =>
        have hl' : (m.given v).feed.left = [v] := by simp [Machine.coupled, hl]
        rw [Run.readLine_of_nil hl hb, Run.readLine_of_cons hl']
        refine .inr (.of_demand (d := ⟨false, ""⟩) hd hl rfl ?_ rfl)
        simp [Demand.echo, Machine.coupled]
    | cons w ws =>
        have hl' : (m.given v).feed.left = w :: (ws ++ [v]) := by simp [Machine.coupled, hl]
        rw [Run.readLine_of_cons hl, Run.readLine_of_cons hl']
        exact .inl ⟨rfl, rfl, hd, hb⟩

/-- Every program that reads a value at a time does the same with and without a further value, up to
the first read that finds no value left without it. -/
theorem closed (v : String) : Closed False (fun {α} => Coupled v (α := α)) :=
  InStep.closed await readLine False.elim

end Coupled

theorem transcript_append (ps qs : List Piece) :
    transcript (ps ++ qs) = transcript ps ++ transcript qs := by
  simp [transcript, String.join_append]

theorem Demand.transcript_echo (d : Demand) (feed : Feed) (v : String) :
    transcript (d.echo feed v) = if d.prompted && feed.echo then v ++ "\n" else "" := by
  unfold Demand.echo
  split <;> simp [transcript, Piece.text, String.join]

/-- Whether a program reads everything that is left of its input somewhere. -/
def drains (code : String) : Bool :=
  match Program.read code with
  | .ok ls => ls.any Line.drains
  | .error _ => false

end Program

namespace Serving

open Program

theorem Ending.of_eq_suspended {α : Type} {clean : α} {res : Except Stop α} {p : String}
    (h : Ending.of clean res = .suspended p) : res = .error (.requested p) := by
  rcases res with s | a
  · cases s with
    | requested q => simpa [Ending.of, Ending.ofStop] using h
    | raised e =>
        simp only [Ending.of, Ending.ofStop] at h
        split at h
        · cases h
        · split at h <;> cases h
    | hung => cases h
    | crashed => cases h
  · cases h

theorem eq_suspended_of_statusName {e : Ending Unit} (h : statusName e = "awaiting_input") :
    ∃ p, e = .suspended p := by
  cases e with
  | suspended p => exact ⟨p, rfl⟩
  | _ => simp [statusName] at h

theorem leads_runProgram (code : String) {m : Machine} (hnames : m.names.Within True) :
    m.Leads (runProgram code m).2 := by
  unfold runProgram
  rcases Program.read code with line | ls
  · exact .refl m
  · exact ((Onward.closed True).runLines 1 ls fun _ => trivial).leads m hnames

theorem demands_ne_nil {r : RunRequest} {seed : Option Int} {p : String}
    (h : (attempt seed r).1 = .suspended p) : (attempt seed r).2.demands ≠ [] := by
  unfold attempt runProgram at h ⊢
  rcases hcode : Program.read r.code with line | ls <;> rw [hcode] at h
  · cases h
  have honward : Onward True (runLines 1 ls) :=
    (Onward.closed True).runLines 1 ls fun _ => trivial
  have hrecords := honward.records _ (Names.within_initial True) (Ending.of_eq_suspended h)
  exact List.length_pos_iff.mp (Nat.zero_lt_of_lt hrecords)

/-- Two runs of a program from its top go together to their end; or a read of the first finds no
value left, and if that is the one for which it waits then, the second has gone on from there. -/
theorem runProgram_coupled {κ : Coupling} {allowed : Prop}
    (hclosed : Closed allowed (fun {α} => InStep κ allowed (α := α))) {code : String}
    (hdrains : drains code = true → allowed) {m : Machine} (hnames : m.names.Within allowed)
    (hdemands : m.demands = []) (hlive : m.feed.batch = false) :
    (runProgram code (m.coupled κ) = ((runProgram code m).1, (runProgram code m).2.coupled κ) ∧
      (runProgram code m).2.demands = []) ∨
    ((runProgram code m).2.demands ≠ [] ∧ ∀ d p, (runProgram code m).2.demands = [d] →
      (runProgram code m).1 = .suspended p →
      d.prompt = p ∧ Overtaken κ d (runProgram code m).2 (runProgram code (m.coupled κ)).2) := by
  unfold runProgram
  unfold drains at hdrains
  rcases hcode : Program.read code with line | ls <;> rw [hcode] at hdrains
  · exact .inl ⟨rfl, hdemands⟩
  dsimp only at hdrains ⊢
  obtain h | h := (hclosed.runLines 1 ls hdrains).runs m hnames hdemands hlive
  · exact .inl ⟨Prod.ext (congrArg (Ending.of ()) h.result) h.machine, h.undemanded⟩
  · exact .inr ⟨h.demanded, fun d p hd hp => h.overtaken hd (Ending.of_eq_suspended hp)⟩

/-- An attempt that ends by waiting for a value has read every value it was given, and the attempt
with one more value `v` shows all that it has shown, then `v` if the read was one that shows its
values, and then more.

The program may not read to the end of its input, and no handler may have caught the request of a
read and gone on: of the reads for which the attempt has stopped, the one that ends it is the
only one. -/
theorem attempt_append_of_awaiting (seed : Option Int) (r : RunRequest) (v : String)
    (hmode : r.mode ≠ "batch") (hreads : drains r.code = false)
    (hone : (attempt seed r).2.demands.length ≤ 1)
    (hs : statusName (attempt seed r).1 = "awaiting_input") :
    (attempt seed r).2.feed.taken = r.inputs.length ∧
    ∃ d rest more, (attempt seed r).2.demands = [d] ∧
      promptOf (attempt seed r).1 = .str d.prompt ∧
      transcript (attempt seed { r with inputs := r.inputs ++ [v] }).2.shown =
        transcript (attempt seed r).2.shown ++
          (if d.prompted && r.echoInputs then v ++ "\n" else "") ++ rest ∧
      (attempt seed { r with inputs := r.inputs ++ [v] }).2.errors =
        (attempt seed r).2.errors ++ more := by
  obtain ⟨p, hs⟩ := eq_suspended_of_statusName hs
  unfold attempt runProgram at *
  dsimp only at *
  unfold drains at hreads
  rcases hcode : Program.read r.code with line | ls <;> rw [hcode] at hs hone hreads
  · cases hs
  dsimp only at hs hone hreads ⊢
  rw [hs]
  let m := machine .initial (.ofMode r.inputs r.mode r.echoInputs) seed
  have hm : m.names.Within False := Names.within_initial False
  have hc : Coupled v (runLines 1 ls) :=
    (Coupled.closed v).runLines 1 ls fun h => absurd h (by simp [hreads])
  have hl : m.Leads (runLines 1 ls m).2 := hc.onward.leads m hm
  have hr : (runLines 1 ls m).1 = .error (.requested p) := Ending.of_eq_suspended hs
  have hrec : 0 < (runLines 1 ls m).2.demands.length := hc.onward.records m hm hr
  obtain ⟨d, hd⟩ := List.length_eq_one_iff.mp (Nat.le_antisymm hone hrec)
  obtain h | h := hc.runs m hm rfl (decide_eq_false hmode)
  · rw [h.undemanded] at hrec
    exact absurd hrec (Nat.lt_irrefl 0)
  · obtain ⟨hp, hleft, ⟨rest, hrest⟩, more, hmore⟩ := h.waits hd hr
    have hseen := hl.feed.seen
    have hecho : (runLines 1 ls m).2.feed.echo = r.echoInputs := hl.feed.echo
    rw [hleft] at hseen
    refine ⟨by simpa [m, machine, Feed.ofMode] using hseen, d, transcript rest, more, hd,
      congrArg Json.str hp.symm, ?_, hmore⟩
    change transcript (runLines 1 ls (m.given v)).2.shown = transcript (runLines 1 ls m).2.shown ++
      (if d.prompted && r.echoInputs then v ++ "\n" else "") ++ transcript rest
    rw [← hrest, transcript_append, transcript_append, d.transcript_echo, hecho]

/-- A program that greets and then asks for two values, of which it is given the first. -/
def twice : RunRequest where
  code := "[\"print\", \"Hello\"]\n[\"print\", \x7b\"input\": [\"First? \"]\x7d]\n" ++
    "[\"print\", \x7b\"input\": [\"Second? \"]\x7d]"
  inputs := ["one"]

theorem attempt_append_of_awaiting_twice :
    let r := twice
    transcript (attempt (some 3) r).2.shown = "Hello\nFirst? one\none\nSecond? " ∧
    (attempt (some 3) r).2.feed.taken = r.inputs.length ∧
    ∃ d rest more, (attempt (some 3) r).2.demands = [d] ∧
      promptOf (attempt (some 3) r).1 = .str d.prompt ∧
      transcript (attempt (some 3) { r with inputs := r.inputs ++ ["two"] }).2.shown =
        transcript (attempt (some 3) r).2.shown ++
          (if d.prompted && r.echoInputs then "two" ++ "\n" else "") ++ rest ∧
      (attempt (some 3) { r with inputs := r.inputs ++ ["two"] }).2.errors =
        (attempt (some 3) r).2.errors ++ more := by
  intro r
  have hreads : drains r.code = false := by decide +kernel
  have hone : (attempt (some 3) r).2.demands.length ≤ 1 :=
    demands_attempt (by decide +kernel) (some 3)
  have hwaits : statusName (attempt (some 3) r).1 = "awaiting_input" := by decide +kernel
  refine ⟨by decide +kernel, ?_⟩
  exact attempt_append_of_awaiting (some 3) r "two" (by decide) hreads hone hwaits

end Serving

end Rerun
