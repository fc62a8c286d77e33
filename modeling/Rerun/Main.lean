import Rerun.CommandLine

/-!
The program. Everything that a command line needs is read before it is carried out, and what it has
shown is written afterwards. A service answers the requests on its standard input, one on a line: a
method, an address and a body.
-/

namespace Rerun.Program

open CommandLine

/-- The text of a file, when there is one. -/
def readText? (name : String) : IO (Option String) := do
  try
    return some (← IO.FS.readFile name)
  catch _ =>
    return none

def readFiles (i : Invocation) : IO (List (Path × String)) := do
  let texts ← i.files.mapM fun name => do
    return (← readText? name).map fun text => (Path.work.resolve name, text)
  return texts.filterMap id

def readEnvironment (envText : String) : IO (List (String × String)) := do
  let bound := (EnvFile.bindings envText).map (·.1)
  let names := Settings.names ++ bound ++ EnvFile.referencesIn envText.toList
  let found ← names.eraseDups.mapM fun name => do
    return (← IO.getEnv name).map fun value => (name, value)
  return found.filterMap id

/-- A sandbox that no command has used. -/
def newSandbox (setup : Setup) : IO Sandbox := do
  let seeds ← (List.range 1000).mapM fun _ => IO.rand 0 0xffffffff
  return { setup, clock := ← IO.monoMsNow, seeds := seeds.map Int.ofNat }

/-- A request on a line. -/
def requestOf (line : String) : Command :=
  let words (cs : List Char) : String × List Char :=
    (String.ofList (cs.takeWhile (· ≠ ' ')), (cs.dropWhile (· ≠ ' ')).drop 1)
  let (method, rest) := words (Text.strip line).toList
  let (address, rest) := words rest
  .http method address (.text (String.ofList rest))

def writeResponse : Response → IO Unit
  | .reply r => IO.println (Text.decimal r.status ++ " " ++ Service.bodyText r.body)
  | .interleaved (.reply r) _ =>
    IO.println (Text.decimal r.status ++ " " ++ Service.bodyText r.body)
  | _ => IO.println "500 "

partial def answerAll (input : IO.FS.Stream) (s : Sandbox) : IO Unit := do
  let line ← input.getLine
  if line.isEmpty then return
  let (response, s) := s.give (requestOf line)
  writeResponse response
  answerAll input s

def finish (e : Ending) : IO UInt32 :=
  match e with
  | .exit code | .refused code => return UInt32.ofInt code
  | .done => return 0
  | .failed f => do
    IO.eprintln (f.kind.name ++ ": " ++ f.message)
    return 1

def carryOut (args : List String) (i : Invocation) (setup : Setup) : IO UInt32 := do
  let files ← readFiles i
  let envText := (files.lookup (Path.work.resolve i.envFile)).getD ""
  let environment ← readEnvironment envText
  let stdin ← IO.getStdin
  let input ← match i.task with
    | .run _ => stdin.readToEnd
    | _ => pure ""
  let (ending, t) := start args { environment, files, input } (← newSandbox setup)
  IO.print t.out
  IO.eprint t.err
  if t.servers.isEmpty then pure () else answerAll stdin t.sandbox
  finish ending

end Rerun.Program

def main (args : List String) : IO UInt32 := do
  match Rerun.CommandLine.Invocation.read args, ({} : Rerun.Settings).setup with
  | .ok i, .ok setup => Rerun.Program.carryOut args i setup
  | .error refusal, _ => return UInt32.ofInt (Rerun.CommandLine.refusalCode refusal)
  | _, .error _ => return 1
