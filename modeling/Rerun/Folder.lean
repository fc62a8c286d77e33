import Rerun.Path
import Rerun.Json.Basic
import Rerun.Text.Bytes

/-!
The folders of sessions. A folder holds the output of its interpreter process, what the running
program has shown, a journal of events and a file of metadata, each from the first time that it was
written.
-/

namespace Rerun

/-- What a file holds: text, or bytes that need not be text. -/
inductive Content where
  | text (s : String)
  | raw (bytes : List UInt8)
  deriving DecidableEq, Inhabited

namespace Content

def bytes : Content → List UInt8
  | .text s => s.toUTF8.toList
  | .raw bs => bs

def append : Content → Content → Content
  | .text s, .text t => .text (s ++ t)
  | a, b => .raw (a.bytes ++ b.bytes)

/-- What a reader of the file sees. -/
def read : Content → String
  | .text s => Text.foldNewlines s
  | .raw bs => Text.foldNewlines (Text.decode bs)

end Content

structure Folder where
  /-- What the interpreter processes have printed. -/
  processLog : Option Content := none
  /-- What the program that ran last has shown. -/
  shown : Option Content := none
  journal : Option (List Json) := none
  /-- The metadata, or nothing readable. -/
  metadata : Option (Option Json) := none
  deriving Inhabited

abbrev Folders := List (Path × Folder)

namespace Folders

def find? (fs : Folders) (p : Path) : Option Folder := fs.lookup p

def has (fs : Folders) (p : Path) : Bool := (fs.find? p).isSome

/-- Makes a folder and the folders on the way to it, where they do not exist. -/
def make (fs : Folders) (p : Path) : Folders :=
  p.lineage.foldl (fun fs q => if has fs q then fs else fs ++ [(q, ({} : Folder))]) fs

def update (fs : Folders) (p : Path) (f : Folder → Folder) : Folders :=
  fs.map fun e => if e.1 = p then (e.1, f e.2) else e

/-- Changes a folder, which is made first if it does not exist. -/
def revise (fs : Folders) (p : Path) (f : Folder → Folder) : Folders := (fs.make p).update p f

def remove (fs : Folders) (p : Path) : Folders := fs.filter fun e => !e.1.isWithin p

/-- What a reader sees of what the last program has shown; nothing when there is none. -/
def shownText (fs : Folders) (p : Path) : String :=
  (((fs.find? p).bind (·.shown)).map Content.read).getD ""

def processLogText (fs : Folders) (p : Path) : String :=
  (((fs.find? p).bind (·.processLog)).map Content.read).getD ""

end Folders

end Rerun
