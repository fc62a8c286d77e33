import Rerun.Value.Encode

/-!
Exceptions: the tree of their classes, the text of one, and what is told of it.
-/

namespace Rerun.Program

/-- Classes of exceptions with the class above each. -/
def classTree : List (String × String) := [
  ("SystemExit", "BaseException"), ("KeyboardInterrupt", "BaseException"),
  ("GeneratorExit", "BaseException"), ("BaseExceptionGroup", "BaseException"),
  ("Exception", "BaseException"),
  ("StopIteration", "Exception"), ("StopAsyncIteration", "Exception"),
  ("ArithmeticError", "Exception"), ("FloatingPointError", "ArithmeticError"),
  ("OverflowError", "ArithmeticError"), ("ZeroDivisionError", "ArithmeticError"),
  ("AssertionError", "Exception"), ("AttributeError", "Exception"), ("BufferError", "Exception"),
  ("EOFError", "Exception"), ("ExceptionGroup", "Exception"),
  ("ImportError", "Exception"), ("ModuleNotFoundError", "ImportError"),
  ("LookupError", "Exception"), ("IndexError", "LookupError"), ("KeyError", "LookupError"),
  ("MemoryError", "Exception"),
  ("NameError", "Exception"), ("UnboundLocalError", "NameError"),
  ("OSError", "Exception"), ("BlockingIOError", "OSError"), ("ChildProcessError", "OSError"),
  ("ConnectionError", "OSError"), ("BrokenPipeError", "ConnectionError"),
  ("ConnectionAbortedError", "ConnectionError"), ("ConnectionRefusedError", "ConnectionError"),
  ("ConnectionResetError", "ConnectionError"), ("FileExistsError", "OSError"),
  ("FileNotFoundError", "OSError"), ("InterruptedError", "OSError"),
  ("IsADirectoryError", "OSError"), ("NotADirectoryError", "OSError"),
  ("PermissionError", "OSError"), ("ProcessLookupError", "OSError"), ("TimeoutError", "OSError"),
  ("ReferenceError", "Exception"),
  ("RuntimeError", "Exception"), ("NotImplementedError", "RuntimeError"),
  ("RecursionError", "RuntimeError"),
  ("SyntaxError", "Exception"), ("IndentationError", "SyntaxError"),
  ("TabError", "IndentationError"), ("SystemError", "Exception"), ("TypeError", "Exception"),
  ("ValueError", "Exception"), ("UnicodeError", "ValueError"),
  ("UnicodeDecodeError", "UnicodeError"), ("UnicodeEncodeError", "UnicodeError"),
  ("UnicodeTranslateError", "UnicodeError"),
  ("Warning", "Exception"), ("BytesWarning", "Warning"), ("DeprecationWarning", "Warning"),
  ("EncodingWarning", "Warning"), ("FutureWarning", "Warning"), ("ImportWarning", "Warning"),
  ("PendingDeprecationWarning", "Warning"), ("ResourceWarning", "Warning"),
  ("RuntimeWarning", "Warning"), ("SyntaxWarning", "Warning"), ("UnicodeWarning", "Warning"),
  ("UserWarning", "Warning")]

/-- A class and the classes above it, nearest first; the tree is at most `fuel` deep. -/
def ancestors : (fuel : Nat) → String → List String
  | 0, cls => [cls]
  | fuel + 1, cls =>
    match classTree.lookup cls with
    | none => [cls]
    | some above => cls :: ancestors fuel above

def isBelow (cls above : String) : Bool := (ancestors 6 cls).contains above

/-- The class that stands for an operating system error of a known number. -/
def errnoClass : List (Int × String) := [
  (1, "PermissionError"), (2, "FileNotFoundError"), (3, "ProcessLookupError"),
  (4, "InterruptedError"), (10, "ChildProcessError"), (11, "BlockingIOError"),
  (13, "PermissionError"), (17, "FileExistsError"), (20, "NotADirectoryError"),
  (21, "IsADirectoryError"), (32, "BrokenPipeError"), (103, "ConnectionAbortedError"),
  (104, "ConnectionResetError"), (108, "BrokenPipeError"), (110, "TimeoutError"),
  (111, "ConnectionRefusedError"), (114, "BlockingIOError"), (115, "BlockingIOError")]

/-- An exception: its class, its arguments, and the line of the innermost function or statement in
which it was raised. -/
structure Exn where
  cls : String
  args : List Value
  line : Nat

/-- The class of a new exception: aliases are resolved, and an operating system error with a number
and a text belongs to the class of its number. -/
def classOfNew (cls : String) (args : List Value) : String :=
  let cls := if cls = "IOError" || cls = "EnvironmentError" then "OSError" else cls
  match cls, args with
  | "OSError", n :: _ :: rest =>
    if rest.length ≤ 3 then (n.whole?.bind fun n => errnoClass.lookup n).getD cls else cls
  | cls, _ => cls

/-- The text of the arguments of an exception. -/
def argsText : List Value → String
  | [] => ""
  | [v] => v.text
  | vs => (Value.tuple vs).shown

/-- The text of an exception. -/
def Exn.text (e : Exn) : String :=
  if isBelow e.cls "SyntaxError" then
    match e.args with
    | [] => "None"
    | v :: _ => v.text
  else if isBelow e.cls "OSError" then
    match e.args with
    | [n, text] => "[Errno " ++ n.text ++ "] " ++ text.text
    | [n, text, file] => "[Errno " ++ n.text ++ "] " ++ text.text ++ ": " ++ file.shown
    | vs => argsText vs
  else if e.cls = "KeyError" then
    match e.args with
    | [v] => v.shown
    | vs => argsText vs
  else argsText e.args

/-- Whether an exception has a text: all arguments that stand in it can be written. -/
def Exn.isWritable (e : Exn) : Bool :=
  Value.allWritable (if isBelow e.cls "SyntaxError" then e.args.take 1 else e.args)

/-- What is told of an exception besides its class and its line: its text, if it has one. A syntax
error tells of its first argument as it is, unless that is empty, and not all arguments can be
sent. -/
def Exn.told? (e : Exn) : Option Json :=
  if e.isWritable then
    let told := match isBelow e.cls "SyntaxError", e.args with
      | true, v :: _ => if v.isTruthy then v.sent? else some (.str e.text)
      | _, _ => some (.str e.text)
    told.filter (!·.hasNonFinite)
  else none

def Exn.told (e : Exn) : Json := e.told?.getD (.str "")

/-- The message of an exception, as it stands in a line. -/
def Exn.message (e : Exn) : String := Value.messageText e.told

theorem Exn.hasNonFinite_told (e : Exn) : e.told.hasNonFinite = false := by
  unfold told
  cases h : e.told? with
  | none => rfl
  | some j =>
      rw [told?] at h
      split at h
      · simpa using (Option.filter_eq_some_iff.mp h).2
      · exact absurd h nofun

/-- Leaving the program with nothing, or with what equals zero, is a clean exit. -/
def Exn.isCleanExit (e : Exn) : Bool :=
  e.cls = "SystemExit" &&
    match e.args with
    | [] => true
    | [v] => Value.same v .none || Value.same v (.int 0)
    | _ => false

end Rerun.Program
