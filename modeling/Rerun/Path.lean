import Rerun.Text.Lines

/-!
Paths of folders and files. A path is a list of names below the working folder or below the root of
the file system; dots are folded away when a path is made.
-/

namespace Rerun

structure Path where
  /-- Below the working folder, and not below the root of the file system. -/
  inWork : Bool
  parts : List String
  deriving DecidableEq, Inhabited

namespace Path

def work : Path := ⟨true, []⟩

/-- One step along a path; the folder above the working folder is not known by name. -/
def step (p : Path) (name : String) : Path :=
  if name = "" || name = "." then p
  else if name = ".." then
    if p.inWork && p.parts.isEmpty then ⟨false, []⟩ else { p with parts := p.parts.dropLast }
  else { p with parts := p.parts ++ [name] }

def resolve (base : Path) (text : String) : Path :=
  let start : Path := if text.toList.head? = some '/' then ⟨false, []⟩ else base
  ((Text.splitAt '/' text.toList).map String.ofList).foldl step start

/-- A path below a folder as it is written, where a step upwards is not folded away. -/
def join (base : Path) (text : String) : Path :=
  let start : Path := if text.toList.head? = some '/' then ⟨false, []⟩ else base
  let names := ((Text.splitAt '/' text.toList).map String.ofList).filter fun n => n ≠ "" && n ≠ "."
  { start with parts := start.parts ++ names }

/-- The full text of a path; `<root>` stands for the working folder. -/
def text (p : Path) : String :=
  if p.inWork then "<root>" ++ String.join (p.parts.map ("/" ++ ·))
  else "/" ++ String.intercalate "/" p.parts

def isWithin (p folder : Path) : Bool :=
  p.inWork = folder.inWork && folder.parts.isPrefixOf p.parts

/-- The folders on the way to a path, with the path itself. -/
def lineage (p : Path) : List Path :=
  (List.range (p.parts.length + 1)).map fun n => { p with parts := p.parts.take n }

/-- Whether every name on the path is short enough for a folder: at most 255 bytes. -/
def isMakeable (p : Path) : Bool := p.parts.all (·.utf8ByteSize ≤ 255)

end Path

end Rerun
