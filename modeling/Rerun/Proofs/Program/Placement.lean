import Rerun.Proofs.Program.Congruence
import Rerun.Serving

/-!
A program at another place: its lines have other numbers, and it is given another seed. It does
there what it does here, and an exception names the line there. Only a program that looks at its
seed may notice which one it was given (`Placed.runLines`).
-/

namespace Rerun

namespace Program

/-- Another place for a program: which number a line has there, and which seed stands for a seed. -/
structure Placement where
  line : Nat → Nat
  seed : Option Int → Option Int

variable {ρ : Placement}

/-! ### States at another place -/

def Exn.moved (line : Nat → Nat) (e : Exn) : Exn := { e with line := line e.line }

def Stop.moved (line : Nat → Nat) : Stop → Stop
  | .raised e => .raised (e.moved line)
  | s => s

@[simp] theorem Stop.caughtBy_moved (line : Nat → Nat) (s : Stop) (cls : String) :
    (s.moved line).caughtBy cls = s.caughtBy cls := by
  cases s <;> rfl

def Names.moved (line : Nat → Nat) (n : Names) : Names :=
  { n with functions := n.functions.map (Function.moved line) }

def Machine.placed (ρ : Placement) (m : Machine) : Machine :=
  { m with names := m.names.moved ρ.line, seed := ρ.seed m.seed, frame := m.frame.moved ρ.line }

def comePlaced {α : Type} (ρ : Placement) (r : Except Stop α × Machine) :
    Except Stop α × Machine :=
  (r.1.mapError (Stop.moved ρ.line), r.2.placed ρ)

@[simp] theorem comePlaced_ok {α : Type} (ρ : Placement) (a : α) (m : Machine) :
    comePlaced ρ (.ok a, m) = (.ok a, m.placed ρ) := rfl

@[simp] theorem comePlaced_error {α : Type} (ρ : Placement) (s : Stop) (m : Machine) :
    comePlaced ρ ((.error s : Except Stop α), m) = (.error (s.moved ρ.line), m.placed ρ) := rfl

/-- What a program may do that is not to notice its place: it may look at its seed if that is
kept. -/
def Placement.allows (ρ : Placement) : Use → Prop
  | .seek => ρ.seed = id
  | .drain | .rescue => True

/-! ### The same computations at another place -/

/-- The second computation does at the other place what the first one does here. -/
structure Placed (ρ : Placement) {α : Type} (x x' : Run α) : Prop where
  comes (m : Machine) : m.names.Allowed ρ.allows → x' (m.placed ρ) = comePlaced ρ (x m)
  allowed (m : Machine) : m.names.Allowed ρ.allows → (x m).2.names.Allowed ρ.allows

namespace Placed

variable {α β : Type}

theorem of_functions {x x' : Run α} (h : ∀ m, x' (m.placed ρ) = comePlaced ρ (x m))
    (hf : ∀ m, (x m).2.names.functions = m.names.functions) : Placed ρ x x' where
  comes m _ := h m
  allowed m hm := by rwa [Names.Allowed, hf m]

theorem pure (a : α) : Placed ρ (pure a : Run α) (Pure.pure a) :=
  of_functions (fun _ => rfl) fun _ => rfl

theorem bind {x x' : Run α} {f f' : α → Run β} (hx : Placed ρ x x')
    (hf : ∀ a, Placed ρ (f a) (f' a)) : Placed ρ (x >>= f) (x' >>= f') where
  comes m hm := by
    have hn := hx.allowed m hm
    rw [Run.bind_apply, Run.bind_apply, hx.comes m hm]
    rcases hr : x m with ⟨s | a, n⟩ <;> rw [hr] at hn
    · rfl
    · exact (hf a).comes n hn
  allowed m hm := by
    have hn := hx.allowed m hm
    rw [Run.bind_apply]
    rcases hr : x m with ⟨s | a, n⟩ <;> rw [hr] at hn
    · exact hn
    · exact (hf a).allowed n hn

theorem handle {body body' other other' : Run α} (cls : String) (hb : Placed ρ body body')
    (ho : Placed ρ other other') :
    Placed ρ (Run.handle body cls other) (Run.handle body' cls other') where
  comes m hm := by
    have hn := hb.allowed m hm
    unfold Run.handle
    rw [hb.comes m hm]
    rcases hr : body m with ⟨s | a, n⟩ <;> rw [hr] at hn
    · simp only [comePlaced_error, Stop.caughtBy_moved]
      split
      · exact ho.comes n hn
      · rfl
    · rfl
  allowed m hm := by
    have hn := hb.allowed m hm
    unfold Run.handle
    rcases hr : body m with ⟨s | a, n⟩ <;> rw [hr] at hn <;> dsimp only
    · split
      · exact ho.allowed n hn
      · exact hn
    · exact hn

theorem inFrame (frame : Frame) {x x' : Run α} (hx : Placed ρ x x') :
    Placed ρ (Run.inFrame frame x) (Run.inFrame (frame.moved ρ.line) x') where
  comes m hm := by
    have h := hx.comes { m with frame } hm
    exact congrArg (fun r => (r.1, { r.2 with frame := m.frame.moved ρ.line })) h
  allowed m hm := hx.allowed { m with frame } hm

theorem ofRead (prompted : Bool) (read : Feed → Except Dry α × Feed) :
    Placed ρ (Run.ofRead prompted read) (Run.ofRead prompted read) := by
  refine of_functions (fun m => ?_) fun m => ?_
  · have hfeed : (m.placed ρ).feed = m.feed := rfl
    unfold Run.ofRead
    rw [hfeed]
    rcases read m.feed with ⟨(p | _) | a, g⟩ <;> rfl
  · unfold Run.ofRead
    rcases read m.feed with ⟨(p | _) | a, g⟩ <;> rfl

theorem emit (text : String) : Placed ρ (Run.emit text) (Run.emit text) :=
  of_functions (fun _ => rfl) fun _ => rfl

theorem ask (prompt : String) : Placed ρ (Run.ask prompt) (Run.ask prompt) := by
  have hshow (value : String) : Placed ρ (Run.showRead value) (Run.showRead value) := by
    refine of_functions (fun m => ?_) fun m => ?_ <;> unfold Run.showRead Run.change <;>
      dsimp only [Machine.placed] <;> split <;> rfl
  have hawait : Placed ρ (do
      let value ← Run.ofRead true (·.ask prompt)
      Run.showRead value
      Pure.pure value : Run String) _ :=
    (ofRead true _).bind fun v => (hshow v).bind fun _ => .pure v
  unfold Run.ask
  split
  · exact (emit prompt).bind fun _ => hawait
  · exact hawait

theorem lookUp (name : String) : Placed ρ (lookUp name) (lookUp name) := by
  refine of_functions (fun m => ?_) fun m => ?_
  · have hlocal : (m.placed ρ).frame.localNames.contains name =
        m.frame.localNames.contains name := rfl
    have hvalue : (m.placed ρ).frame.locals.lookup name = m.frame.locals.lookup name := rfl
    have hglobal : (m.placed ρ).names.globals.lookup name = m.names.globals.lookup name := rfl
    unfold Program.lookUp
    rw [hlocal, hvalue, hglobal]
    split <;> split <;> rfl
  · unfold Program.lookUp
    split <;> split <;> rfl

theorem callIndex {call call' : Function → List Value → Run Value}
    (hcall : ∀ f args, Within ρ.allows f.uses →
      Placed ρ (call f args) (call' (f.moved ρ.line) args))
    (name : String) (index : Nat) (args : List Value) :
    Placed ρ (callValue call (.function name index) args)
      (callValue call' (.function name index) args) where
  comes m hm := by
    have hfunction : (m.placed ρ).names.functions[index]? =
        m.names.functions[index]?.map (Function.moved ρ.line) := List.getElem?_map
    unfold callValue
    dsimp only
    rw [hfunction]
    cases hf : m.names.functions[index]? with
    | none => rfl
    | some f => exact (hcall f args (hm f (List.mem_of_getElem? hf))).comes m hm
  allowed m hm := by
    unfold callValue
    dsimp only
    cases hf : m.names.functions[index]? with
    | none => exact hm
    | some f => exact (hcall f args (hm f (List.mem_of_getElem? hf))).allowed m hm

theorem define (n : Nat) (name : String) (params : List String) {body : List Stmt}
    (hw : Within ρ.allows fun u => body.any (Stmt.uses u)) :
    Placed ρ (define n name params body) (define (ρ.line n) name params body) where
  comes m _ := by
    unfold Program.define Run.change
    simp [Machine.placed, Names.moved, Function.moved]
  allowed m hm f hf := by
    obtain hf | hf := List.mem_append.mp hf
    · exact hm f hf
    · rw [List.mem_singleton.mp hf]
      exact hw

/-- Every program that does not look at a seed that is changed does the same at another place. -/
theorem congruence (ρ : Placement) :
    Congruence ρ.allows ρ.line (fun {α} => Placed ρ (α := α)) where
  pure := pure
  bind := bind
  stop := by rintro _ s (rfl | rfl) <;> exact of_functions (fun _ => rfl) fun _ => rfl
  throwNew cls args := of_functions (fun _ => rfl) fun _ => rfl
  lookUp := lookUp
  seedValue h := by
    have h : ρ.seed = id := h
    refine of_functions (fun m => ?_) fun _ => rfl
    simp [seedValue, Machine.placed, h]
  callIndex name index args hcall := callIndex hcall name index args
  assign name v := by
    refine of_functions (fun m => ?_) fun m => ?_ <;> unfold Program.assign Run.change <;>
      dsimp only [Machine.placed, Frame.moved, Names.moved] <;> split <;> rfl
  define := define
  emit := emit
  emitError text := of_functions (fun _ => rfl) fun _ => rfl
  tick ms := of_functions (fun _ => rfl) fun _ => rfl
  ask := ask
  readLine := ofRead false _
  readAll _ := ofRead false _
  handle cls _ := handle cls
  inFrame := inFrame

end Placed

def uses (u : Use) (code : String) : Bool :=
  match Program.read code with
  | .ok ls => ls.any (Line.uses u)
  | .error _ => false

end Program

namespace Serving

open Program

def Ending.moved {α : Type} (line : Nat → Nat) : Ending α → Ending α
  | .failed e => .failed (e.moved line)
  | .malformed n => .malformed (line n)
  | e => e

theorem Ending.of_moved {α : Type} (line : Nat → Nat) (clean : α) (r : Except Stop α) :
    Ending.of clean (r.mapError (Stop.moved line)) = (Ending.of clean r).moved line := by
  rcases r with s | a
  · cases s with
    | raised e =>
        have hclean : (e.moved line).isCleanExit = e.isCleanExit := rfl
        have hreported : reported (e.moved line) = reported e := rfl
        show Ending.of clean (.error (.raised (e.moved line))) = _
        simp only [Ending.of, ofStop, hclean, hreported]
        split
        · rfl
        · split <;> rfl
    | _ => rfl
  · rfl

/-- Lines that are run from another place on end as they do from the first line on. -/
theorem ending_placed {ρ : Placement} {ls : List Line}
    (hw : Within ρ.allows fun u => ls.any (Line.uses u)) {n : Nat}
    (hline : ∀ i < ls.length, ρ.line (1 + i) = n + i) {m : Machine}
    (hm : m.names.Allowed ρ.allows) :
    Ending.of () (runLines n ls (m.placed ρ)).1 = (Ending.of () (runLines 1 ls m).1).moved ρ.line ∧
      (runLines n ls (m.placed ρ)).2 = (runLines 1 ls m).2.placed ρ := by
  rw [((Placed.congruence ρ).runLines ls hw hline).comes m hm]
  exact ⟨Ending.of_moved _ _ _, rfl⟩

/-- The same lines, with another seed. -/
def reseeding (seed : Option Int) : Placement := ⟨id, fun _ => seed⟩

theorem Ending.moved_id {α : Type} (e : Ending α) : e.moved id = e := by
  cases e <;> rfl

theorem placed_reseeding (seed : Option Int) (m : Machine) :
    m.placed (reseeding seed) = { m with seed } := by
  have hfunctions : m.names.functions.map (Function.moved id) = m.names.functions :=
    List.map_id _
  simp only [Machine.placed, Names.moved, reseeding, hfunctions]
  rfl

/-- An attempt at a program that does not look at its seed is the same with any seed. -/
theorem attempt_reseeded {r : RunRequest} (h : uses .seek r.code = false)
    (seed seed' : Option Int) :
    attempt seed' r = ((attempt seed r).1, { (attempt seed r).2 with seed := seed' }) := by
  let m := machine .initial (.ofMode r.inputs r.mode r.echoInputs) seed
  have hsecond : attempt seed' r = runProgram r.code (m.placed (reseeding seed')) := by
    rw [placed_reseeding]
    rfl
  have hfirst : attempt seed r = runProgram r.code m := rfl
  rw [hsecond, hfirst, placed_reseeding]
  unfold runProgram
  unfold uses at h
  rcases hcode : Program.read r.code with line | ls
  · rfl
  rw [hcode] at h
  have hw : Within (reseeding seed').allows fun u => ls.any (Line.uses u) := by
    intro u hu
    cases u with
    | seek => exact absurd (h.symm.trans hu) nofun
    | drain => trivial
    | rescue => trivial
  have hm : m.names.Allowed (reseeding seed').allows := Names.allowed_initial _
  obtain ⟨hending, hmachine⟩ := ending_placed hw (fun _ _ => rfl) hm
  dsimp only
  rw [← placed_reseeding]
  exact Prod.ext (hending.trans (Ending.moved_id _)) (hmachine.trans (placed_reseeding seed' _))

theorem demands_attempt_reseeded {r : RunRequest} (h : uses .seek r.code = false)
    (seed seed' : Option Int) : (attempt seed' r).2.demands = (attempt seed r).2.demands := by
  rw [attempt_reseeded h seed seed']

end Serving

end Rerun
