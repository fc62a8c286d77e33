import Rerun.Proofs.Program.Congruence

/-!
An induction over programs for one run of a program. A property of computations that is closed under
the steps from which the evaluator builds them (`Closed`) holds of every expression, every
statement, every call at any depth, and every list of lines (`Closed.runLines`).

A property may only hold of programs that read their input a value at a time. `Closed` has a
parameter for that: whether reads of everything that is left are part of the programs.
-/

namespace Rerun.Program

/-! ### Programs that read to the end of their input -/

mutual

/-- Whether an expression reads everything that is left of its input somewhere. -/
def Expr.drains : Expr → Bool
  | .readAll => true
  | .prompt e | .toInt e => e.drains
  | .cat es | .call _ es | .list es | .tuple es | .set es | .dict es => Expr.anyDrains es
  | .add a b | .floorDiv a b | .handle a _ b => a.drains || b.drains
  | .literal _ | .var _ | .input | .readLine | .seed => false

def Expr.anyDrains : List Expr → Bool
  | [] => false
  | e :: es => e.drains || Expr.anyDrains es

end

def Stmt.drains : Stmt → Bool
  | .print e | .write e | .writeError e | .assign _ e | .run e | .giveBack e => e.drains
  | .throwNew _ es => Expr.anyDrains es
  | .tick _ | .hang | .crash | .declareGlobal _ => false

def Function.drains (f : Function) : Bool := f.body.any Stmt.drains

def Line.drains : Line → Bool
  | .blank => false
  | .stmt s => s.drains
  | .define _ _ body => body.any Stmt.drains

/-- Functions that read to the end of their input only if that is allowed. -/
def Names.Within (allowed : Prop) (n : Names) : Prop :=
  ∀ f ∈ n.functions, f.drains = true → allowed

theorem Names.within_initial (allowed : Prop) : Names.initial.Within allowed := by
  simp [Names.Within, Names.initial]

mutual

theorem Expr.uses_drain : (e : Expr) → e.uses .drain = e.drains
  | .literal _ | .var _ | .input | .readLine | .readAll | .seed => rfl
  | .prompt e | .toInt e => uses_drain e
  | .cat es | .call _ es | .list es | .tuple es | .set es | .dict es => anyUses_drain es
  | .add a b | .floorDiv a b => by simp only [Expr.uses, Expr.drains, uses_drain a, uses_drain b]
  | .handle a cls b => by
    simp [Expr.uses, Expr.drains, uses_drain a, uses_drain b]

theorem Expr.anyUses_drain : (es : List Expr) → Expr.anyUses .drain es = Expr.anyDrains es
  | [] => rfl
  | e :: es => by simp only [Expr.anyUses, Expr.anyDrains, uses_drain e, anyUses_drain es]

end

theorem Stmt.uses_drain : Stmt.uses .drain = Stmt.drains := by
  funext s
  cases s <;> simp only [Stmt.uses, Stmt.drains, Expr.uses_drain, Expr.anyUses_drain]

theorem Line.uses_drain : Line.uses .drain = Line.drains := by
  funext l
  cases l <;> simp only [Line.uses, Line.drains, Stmt.uses_drain]

/-- What programs may do that read to the end of their input only if that is allowed. -/
def mayDrain (allowed : Prop) : Use → Prop
  | .drain => allowed
  | .seek | .rescue => True

theorem within_mayDrain {allowed : Prop} {uses : Use → Bool} :
    Within (mayDrain allowed) uses ↔ (uses .drain = true → allowed) := by
  refine ⟨fun h => h .drain, fun h u hu => ?_⟩
  cases u with
  | drain => exact h hu
  | seek => trivial
  | rescue => trivial

/-! ### The principle -/

/-- What a property of computations has to satisfy to hold of all programs; `allowed` says whether
the programs may read to the end of their input. -/
structure Closed (allowed : Prop) (P : {α : Type} → Run α → Prop) : Prop where
  pure {α : Type} (a : α) : P (pure a : Run α)
  bind {α β : Type} {x : Run α} {f : α → Run β} : P x → (∀ a, P (f a)) → P (x >>= f)
  stop {α : Type} {s : Stop} : (∀ p, s ≠ .requested p) → P (Run.stop s : Run α)
  /-- A computation that looks at the names, the frame and the seed before it goes on. -/
  look {α : Type} {f : Names → Frame → Option Int → Run α} :
    (∀ names frame seed, names.Within allowed → P (f names frame seed)) →
      P fun m => f m.names m.frame m.seed m
  assign (name : String) (v : Value) : P (assign name v)
  define (line : Nat) (name : String) (params : List String) {body : List Stmt} :
    (body.any Stmt.drains = true → allowed) → P (define line name params body)
  emit (text : String) : P (Run.emit text)
  emitError (text : String) : P (Run.emitError text)
  tick (ms : Nat) : P (Run.change fun m => { m with elapsed := m.elapsed + ms })
  ask (prompt : String) : P (Run.ask prompt)
  readLine : P (Run.ofRead false Feed.readLine)
  readAll : allowed → P (Run.ofRead false Feed.readAll)
  handle {α : Type} {body other : Run α} (cls : String) :
    P body → P other → P (Run.handle body cls other)
  inFrame {α : Type} (frame : Frame) {x : Run α} : P x → P (Run.inFrame frame x)

/-- The value of a name among the names of a machine, in a frame. -/
def lookUpIn (name : String) (names : Names) (frame : Frame) : Run Value :=
  if frame.localNames.contains name then
    match frame.locals.lookup name with
    | some v => pure v
    | none => Run.fail "UnboundLocalError" ("cannot access local variable '" ++ name ++
        "' where it is not associated with a value")
  else
    match names.globals.lookup name with
    | some v => pure v
    | none => Run.fail "NameError" ("name '" ++ name ++ "' is not defined")

/-- A call of the function with an index among the names of a machine. -/
def callIn (call : Function → List Value → Run Value) (index : Nat) (args : List Value)
    (names : Names) : Run Value :=
  match names.functions[index]? with
  | some f => call f args
  | none => pure .none

namespace Closed

variable {allowed : Prop} {P : {α : Type} → Run α → Prop} (h : Closed allowed P)

include h

theorem throwNew {α : Type} (cls : String) (args : List Value) :
    P (Run.throwNew cls args : Run α) :=
  h.look (f := fun _ frame _ => Run.stop (.raised ⟨classOfNew cls args, args, frame.line⟩))
    fun _ _ _ _ => h.stop nofun

theorem fail {α : Type} (cls message : String) : P (Run.fail cls message : Run α) :=
  h.throwNew cls _

theorem lookUp (name : String) : P (lookUp name) := by
  have hlook : Program.lookUp name = fun m => lookUpIn name m.names m.frame m := by
    funext m
    unfold Program.lookUp lookUpIn
    split
    · cases m.frame.locals.lookup name <;> rfl
    · cases m.names.globals.lookup name <;> rfl
  rw [hlook]
  refine h.look (f := fun names frame _ => lookUpIn name names frame) fun names frame seed _ => ?_
  unfold lookUpIn
  split <;> split
  · exact h.pure _
  · exact h.fail _ _
  · exact h.pure _
  · exact h.fail _ _

theorem callIndex {call : Function → List Value → Run Value}
    (hcall : ∀ f args, (f.drains = true → allowed) → P (call f args)) (name : String)
    (index : Nat) (args : List Value) : P (callValue call (.function name index) args) := by
  have hlook : callValue call (.function name index) args = fun m =>
      callIn call index args m.names m := by
    funext m
    unfold callValue callIn
    dsimp only
    cases m.names.functions[index]? <;> rfl
  rw [hlook]
  refine h.look (f := fun names _ _ => callIn call index args names)
    fun names frame seed hn => ?_
  unfold callIn
  split
  · rename_i fn hfn
    exact hcall fn args (hn fn (List.mem_of_getElem? hfn))
  · exact h.pure _

theorem congruence : Congruence (mayDrain allowed) id fun x _ => P x where
  pure := h.pure
  bind := h.bind
  stop hs := h.stop fun p => by rintro rfl; cases hs <;> contradiction
  throwNew := h.throwNew
  lookUp := h.lookUp
  seedValue _ := h.look (f := fun _ _ seed => Pure.pure (seed.elim Value.none Value.int))
    fun _ _ _ _ => h.pure _
  callIndex name index args hcall :=
    h.callIndex (fun f args hf => hcall f args (within_mayDrain.mpr (by
      rwa [Function.uses, Stmt.uses_drain]))) name index args
  assign := h.assign
  define n name params _ hw := h.define n name params (by
    simpa only [Stmt.uses_drain] using within_mayDrain.mp hw)
  emit := h.emit
  emitError := h.emitError
  tick := h.tick
  ask := h.ask
  readLine := h.readLine
  readAll := h.readAll
  handle cls _ := h.handle cls
  inFrame frame _ _ := h.inFrame frame

theorem callValue (f : Value) (args : List Value) :
    P (callValue (callFunction maxDepth) f args) := by
  cases f with
  | function name index =>
      refine h.callIndex (fun f args hf => h.congruence.callFunction maxDepth f args ?_)
        name index args
      exact within_mayDrain.mpr (by rwa [Function.uses, Stmt.uses_drain])
  | _ => exact h.fail _ _

theorem runLines (n : Nat) (ls : List Line) (ha : ls.any Line.drains = true → allowed) :
    P (runLines n ls) := by
  refine h.congruence.runLines ls (within_mayDrain.mpr ?_) fun _ _ => rfl
  simpa only [Line.uses_drain] using ha

end Closed

end Rerun.Program
