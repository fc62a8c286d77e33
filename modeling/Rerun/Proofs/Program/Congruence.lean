import Rerun.Program.Eval

/-!
An induction over programs, done once, for two runs of one program. The lines of the second may have
other numbers. A relation between computations that is kept by the steps from which the evaluator
builds them (`Congruence`) holds between the two evaluations of every expression, every statement,
every call at any depth, and every list of lines (`Congruence.runLines`).

A relation may only hold of programs that refrain from something. `Congruence` has a parameter for
what the programs may do.
-/

namespace Rerun.Program

/-! ### What programs do -/

/-- What a program may do and not every property of programs allows. -/
inductive Use where
  /-- Reading everything that is left of its input. -/
  | drain
  /-- Looking at its seed. -/
  | seek
  /-- Going on after whatever can be handled, the request of a read included. -/
  | rescue
  deriving DecidableEq

mutual

def Expr.uses (u : Use) : Expr → Bool
  | .readAll => u = .drain
  | .seed => u = .seek
  | .handle a cls b => (u = .rescue && cls = "BaseException") || a.uses u || b.uses u
  | .prompt e | .toInt e => e.uses u
  | .cat es | .call _ es | .list es | .tuple es | .set es | .dict es => Expr.anyUses u es
  | .add a b | .floorDiv a b => a.uses u || b.uses u
  | .literal _ | .var _ | .input | .readLine => false

def Expr.anyUses (u : Use) : List Expr → Bool
  | [] => false
  | e :: es => e.uses u || Expr.anyUses u es

end

def Stmt.uses (u : Use) : Stmt → Bool
  | .print e | .write e | .writeError e | .assign _ e | .run e | .giveBack e => e.uses u
  | .throwNew _ es => Expr.anyUses u es
  | .tick _ | .hang | .crash | .declareGlobal _ => false

def Function.uses (u : Use) (f : Function) : Bool := f.body.any (Stmt.uses u)

def Line.uses (u : Use) : Line → Bool
  | .blank => false
  | .stmt s => s.uses u
  | .define _ _ body => body.any (Stmt.uses u)

/-- Whether what makes use of things, as `uses` says, makes no other use of them than is allowed. -/
def Within (allowed : Use → Prop) (uses : Use → Bool) : Prop := ∀ u, uses u = true → allowed u

theorem within_or {allowed : Use → Prop} {p q : Use → Bool} :
    Within allowed (fun u => p u || q u) ↔ Within allowed p ∧ Within allowed q := by
  simp only [Within, Bool.or_eq_true, or_imp, forall_and]

theorem within_any {α : Type} {allowed : Use → Prop} {uses : α → Use → Bool} {a : α} {as : List α} :
    Within allowed (fun u => (a :: as).any (uses · u)) ↔
      Within allowed (uses a) ∧ Within allowed (fun u => as.any (uses · u)) := by
  simp only [List.any_cons, within_or]

/-- Functions that do no more than is allowed. -/
def Names.Allowed (allowed : Use → Prop) (n : Names) : Prop :=
  ∀ f ∈ n.functions, Within allowed f.uses

theorem Names.allowed_initial (allowed : Use → Prop) : Names.initial.Allowed allowed := by
  simp [Names.Allowed, Names.initial]

/-! ### Places -/

def Function.moved (line : Nat → Nat) (f : Function) : Function := { f with line := line f.line }

def Frame.moved (line : Nat → Nat) (frame : Frame) : Frame :=
  { frame with line := line frame.line }

def seedValue : Run Value := fun m => (.ok (m.seed.elim .none .int), m)

/-! ### The principle -/

/-- What a relation between computations has to satisfy to hold between two runs of all programs:
`line` tells where the lines of the second are, and `allowed` says what the programs may do. -/
structure Congruence (allowed : Use → Prop) (line : Nat → Nat)
    (R : {α : Type} → Run α → Run α → Prop) : Prop where
  pure {α : Type} (a : α) : R (pure a : Run α) (pure a)
  bind {α β : Type} {x x' : Run α} {f f' : α → Run β} :
    R x x' → (∀ a, R (f a) (f' a)) → R (x >>= f) (x' >>= f')
  stop {α : Type} {s : Stop} : s = .hung ∨ s = .crashed → R (Run.stop s : Run α) (Run.stop s)
  throwNew {α : Type} (cls : String) (args : List Value) :
    R (Run.throwNew cls args : Run α) (Run.throwNew cls args)
  lookUp (name : String) : R (lookUp name) (lookUp name)
  seedValue : allowed .seek → R seedValue seedValue
  callIndex {call call' : Function → List Value → Run Value} (name : String) (index : Nat)
    (args : List Value) :
    (∀ f args, Within allowed f.uses → R (call f args) (call' (f.moved line) args)) →
      R (callValue call (.function name index) args) (callValue call' (.function name index) args)
  assign (name : String) (v : Value) : R (assign name v) (assign name v)
  define (n : Nat) (name : String) (params : List String) {body : List Stmt} :
    Within allowed (fun u => body.any (Stmt.uses u)) →
      R (define n name params body) (define (line n) name params body)
  emit (text : String) : R (Run.emit text) (Run.emit text)
  emitError (text : String) : R (Run.emitError text) (Run.emitError text)
  tick (ms : Nat) : R (Run.change fun m => { m with elapsed := m.elapsed + ms })
    (Run.change fun m => { m with elapsed := m.elapsed + ms })
  ask (prompt : String) : R (Run.ask prompt) (Run.ask prompt)
  readLine : R (Run.ofRead false Feed.readLine) (Run.ofRead false Feed.readLine)
  readAll : allowed .drain → R (Run.ofRead false Feed.readAll) (Run.ofRead false Feed.readAll)
  handle {α : Type} {body body' other other' : Run α} (cls : String) :
    (cls = "BaseException" → allowed .rescue) → R body body' → R other other' →
      R (Run.handle body cls other) (Run.handle body' cls other')
  inFrame {α : Type} (frame : Frame) {x x' : Run α} : R x x' →
    R (Run.inFrame frame x) (Run.inFrame (frame.moved line) x')

namespace Congruence

variable {allowed : Use → Prop} {line : Nat → Nat} {R : {α : Type} → Run α → Run α → Prop}
  (h : Congruence allowed line R)

include h

theorem fail {α : Type} (cls message : String) :
    R (Run.fail cls message : Run α) (Run.fail cls message) :=
  h.throwNew cls _

/-! ### Operators -/

theorem asFloat (v : Value) : R (asFloat v) (asFloat v) := by
  unfold Program.asFloat
  split
  · exact h.pure _
  · split
    · exact h.pure _
    · exact h.fail _ _

theorem addValues (a b : Value) : R (addValues a b) (addValues a b) := by
  unfold Program.addValues
  split
  all_goals try first | exact h.pure _ | exact h.fail _ _
  split
  · exact h.pure _
  · split
    · exact h.bind (h.asFloat a) fun _ => h.bind (h.asFloat b) fun _ => h.pure _
    · exact h.fail _ _

theorem floorDivValues (a b : Value) : R (floorDivValues a b) (floorDivValues a b) := by
  unfold Program.floorDivValues
  split
  · split
    · exact h.fail _ _
    · exact h.pure _
  · split
    · refine h.bind (h.asFloat a) fun _ => h.bind (h.asFloat b) fun _ => ?_
      split
      · exact h.fail _ _
      · exact h.pure _
    · exact h.fail _ _

theorem intOfText (text shown : String) : R (intOfText text shown) (intOfText text shown) := by
  unfold Program.intOfText
  split
  · exact h.pure _
  · exact h.fail _ _
  · exact h.fail _ _

theorem toInt (v : Value) : R (toInt v) (toInt v) := by
  unfold Program.toInt
  split
  · exact h.intOfText _ _
  · exact h.intOfText _ _
  · exact h.fail _ _
  · exact h.fail _ _
  · exact h.pure _
  · split
    · exact h.pure _
    · exact h.fail _ _

theorem requireKeys (vs : List Value) : R (requireKeys vs) (requireKeys vs) := by
  unfold Program.requireKeys
  split
  · exact h.pure _
  · exact h.fail _ _

theorem requireWritable (vs : List Value) : R (requireWritable vs) (requireWritable vs) := by
  unfold Program.requireWritable
  split
  · exact h.pure _
  · exact h.fail _ _

/-! ### Programs -/

section

variable {call call' : Function → List Value → Run Value}
  (hcall : ∀ f args, Within allowed f.uses → R (call f args) (call' (f.moved line) args))

include hcall

theorem callValue (f : Value) (args : List Value) :
    R (callValue call f args) (callValue call' f args) := by
  cases f with
  | function name index => exact h.callIndex name index args hcall
  | _ => exact h.fail _ _

set_option linter.unusedSectionVars false in
mutual

theorem evalExpr : (e : Expr) → Within allowed (e.uses ·) → R (evalExpr call e) (evalExpr call' e)
  | .literal v, _ => h.pure v
  | .var name, _ => h.lookUp name
  | .input, _ => h.bind (h.ask "") fun _ => h.pure _
  | .prompt text, hw =>
    h.bind (evalExpr text hw) fun _ => h.bind (h.requireWritable _) fun _ =>
      h.bind (h.ask _) fun _ => h.pure _
  | .readLine, _ => h.bind h.readLine fun _ => h.pure _
  | .readAll, hw => h.bind (h.readAll (hw .drain rfl)) fun _ => h.pure _
  | .cat parts, hw =>
    h.bind (evalExprs parts hw) fun _ => h.bind (h.requireWritable _) fun _ => h.pure _
  | .toInt arg, hw => h.bind (evalExpr arg hw) fun _ => h.toInt _
  | .add a b, hw =>
    have ⟨ha, hb⟩ := within_or.mp hw
    h.bind (evalExpr a ha) fun _ => h.bind (evalExpr b hb) fun _ => h.addValues _ _
  | .floorDiv a b, hw =>
    have ⟨ha, hb⟩ := within_or.mp hw
    h.bind (evalExpr a ha) fun _ => h.bind (evalExpr b hb) fun _ => h.floorDivValues _ _
  | .call name args, hw =>
    h.bind (h.lookUp name) fun _ => h.bind (evalExprs args hw) fun _ => h.callValue hcall _ _
  | .list items, hw => h.bind (evalExprs items hw) fun _ => h.pure _
  | .tuple items, hw => h.bind (evalExprs items hw) fun _ => h.pure _
  | .set items, hw =>
    h.bind (evalExprs items hw) fun _ => h.bind (h.requireKeys _) fun _ => h.pure _
  | .dict parts, hw =>
    h.bind (evalExprs parts hw) fun _ => h.bind (h.requireKeys _) fun _ => h.pure _
  | .handle body cls other, hw =>
    have ⟨hbody, hother⟩ := within_or.mp hw
    have ⟨hcls, hbody⟩ := within_or.mp hbody
    h.handle cls (fun heq => hcls .rescue (by simp [heq])) (evalExpr body hbody)
      (evalExpr other hother)
  | .seed, hw => h.seedValue (hw .seek rfl)

theorem evalExprs : (es : List Expr) → Within allowed (Expr.anyUses · es) →
    R (evalExprs call es) (evalExprs call' es)
  | [], _ => h.pure _
  | e :: es, hw =>
    have ⟨he, hes⟩ := within_or.mp hw
    h.bind (evalExpr e he) fun _ => h.bind (evalExprs es hes) fun _ => h.pure _

end

theorem execStmt (s : Stmt) (hw : Within allowed (s.uses ·)) :
    R (execStmt call s) (execStmt call' s) := by
  cases s with
  | print e =>
      exact h.bind (h.evalExpr hcall e hw) fun _ => h.bind (h.requireWritable _) fun _ =>
        h.bind (h.emit _) fun _ => h.pure _
  | write e =>
      exact h.bind (h.evalExpr hcall e hw) fun _ => h.bind (h.requireWritable _) fun _ =>
        h.bind (h.emit _) fun _ => h.pure _
  | writeError e =>
      exact h.bind (h.evalExpr hcall e hw) fun _ => h.bind (h.requireWritable _) fun _ =>
        h.bind (h.emitError _) fun _ => h.pure _
  | assign name e =>
      exact h.bind (h.evalExpr hcall e hw) fun _ => h.bind (h.assign _ _) fun _ => h.pure _
  | run e => exact h.bind (h.evalExpr hcall e hw) fun _ => h.pure _
  | throwNew cls args => exact h.bind (h.evalExprs hcall args hw) fun _ => h.throwNew _ _
  | tick ms => exact h.bind (h.tick ms) fun _ => h.pure _
  | hang => exact h.stop (.inl rfl)
  | crash => exact h.stop (.inr rfl)
  | giveBack e => exact h.bind (h.evalExpr hcall e hw) fun _ => h.pure _
  | declareGlobal name => exact h.pure _

theorem execBody (ss : List Stmt) (hw : Within allowed fun u => ss.any (Stmt.uses u)) :
    R (execBody call ss) (execBody call' ss) := by
  induction ss with
  | nil => exact h.pure _
  | cons s ss ih =>
      obtain ⟨hs, hss⟩ := within_any.mp hw
      refine h.bind (h.execStmt hcall s hs) fun v => ?_
      cases v with
      | some v => exact h.pure v
      | none => exact ih hss

end

theorem callFunction (depth : Nat) (f : Function) (args : List Value)
    (hw : Within allowed f.uses) :
    R (callFunction depth f args) (callFunction depth (f.moved line) args) := by
  induction depth generalizing f args with
  | zero => exact h.fail _ _
  | succ depth ih => exact h.inFrame _ (h.execBody ih f.body hw)

theorem runLine (n : Nat) (l : Line) (hw : Within allowed (l.uses ·)) :
    R (runLine n l) (runLine (line n) l) := by
  cases l with
  | blank => exact h.pure _
  | stmt s =>
      exact h.inFrame ⟨n, [], []⟩
        (h.bind (h.execStmt (h.callFunction maxDepth) s hw) fun _ => h.pure _)
  | define name params body => exact h.define n name params hw

/-- A program runs from line `n` on as it runs from line `n'` on, when `line` takes the lines there
in their order. -/
theorem runLines {n n' : Nat} (ls : List Line) (hw : Within allowed fun u => ls.any (Line.uses u))
    (hline : ∀ i < ls.length, line (n + i) = n' + i) : R (runLines n ls) (runLines n' ls) := by
  induction ls generalizing n n' with
  | nil => exact h.pure _
  | cons l ls ih =>
      obtain ⟨hl, hls⟩ := within_any.mp hw
      have hn : line n = n' := by simpa using hline 0 (by simp)
      rw [← hn]
      refine h.bind (h.runLine n l hl) fun _ => ih hls fun i hi => ?_
      have hi' : i + 1 < (l :: ls).length := by simpa using hi
      rw [hn, Nat.add_assoc, Nat.add_comm 1 i, hline (i + 1) hi']
      omega

end Congruence

end Rerun.Program
