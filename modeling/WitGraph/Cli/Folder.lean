/-
**A directory as a value.**

`Folder` is a surrounding of commands that is a value: the files of one directory, what can be read,
and what has been printed. `locate` follows a path from it, name by name. A name that is no file
leads nowhere; the directories around the folder are there, but hold nothing that no command has put
into them.
-/

import WitGraph.Cli.Host
import WitGraph.Text.Cut

namespace WitGraph.Cli

/-! ### Paths -/

/-- Why a path does not lead to a file. -/
inductive PathFault where
  | notFound
  /-- The path goes on behind a file. -/
  | notDirectory
  /-- There is, or would have to be, a directory. -/
  | isDirectory
  | tooLong
deriving DecidableEq, Repr

/-- How the fault is reported. -/
def PathFault.reason : PathFault → String
  | .notFound => "No such file or directory (os error 2)"
  | .notDirectory => "Not a directory (os error 20)"
  | .isDirectory => "Is a directory (os error 21)"
  | .tooLong => "File name too long (os error 36)"

/-- How many bytes a path may have. -/
def maxPathBytes : Nat := 4095

/-- How many bytes a name in a path may have. -/
def maxNameBytes : Nat := 255

/-- The folder or a directory around it. -/
inductive Directory where
  /-- The directory so many levels above the folder, which itself is at level 0. -/
  | above (levels : Nat)
  /-- The directory in which absolute paths start. -/
  | root
deriving DecidableEq, Repr

/-- The directory around a directory. -/
def Directory.parent : Directory → Directory
  | .above levels => .above (levels + 1)
  | .root => .root

/-- The shortest path to a name in a directory. -/
def Directory.path (name : String) : Directory → String
  | .above levels => String.join (List.replicate levels "../") ++ name
  | .root => "/" ++ name

/-- What a path leads to. -/
inductive Location where
  | directory
  /-- A file, or the place of one, by its shortest path. -/
  | file (path : String)
deriving DecidableEq, Repr

/-- What a path is followed for. -/
inductive Purpose where
  | reading
  | creating
deriving DecidableEq, Repr

/-- One directory and the standard streams. -/
structure Folder where
  /-- The files by their shortest paths. -/
  files : List (String × List UInt8) := []
  input : List UInt8 := []
  output : String := ""
  errors : String := ""

namespace Folder

/-- The contents of a file. -/
def find? (folder : Folder) (path : String) : Option (List UInt8) := folder.files.lookup path

/-- Follows names from a directory. A file to be created cannot have slashes behind its name. -/
def follow (folder : Folder) (purpose : Purpose) (directory : Directory) :
    List String → Except PathFault Location
  | [] => .ok .directory
  | "" :: rest => folder.follow purpose directory rest
  | "." :: rest => folder.follow purpose directory rest
  | ".." :: rest => folder.follow purpose directory.parent rest
  | name :: rest =>
    let path := directory.path name
    if purpose = .creating ∧ rest ≠ [] ∧ rest.all String.isEmpty then .error .isDirectory
    else if maxNameBytes < name.utf8ByteSize then .error .tooLong
    else if rest = [] then .ok (.file path)
    else if (folder.find? path).isSome then .error .notDirectory
    else .error .notFound

/-- Where a path leads. -/
def locate (folder : Folder) (purpose : Purpose) (path : String) : Except PathFault Location :=
  if path = "" then .error .notFound
  else if maxPathBytes < path.utf8ByteSize then .error .tooLong
  else
    let start : Directory := if path.toList.head? = some '/' then .root else .above 0
    folder.follow purpose start ((Text.segments '/' path.toList).map String.ofList)

/-! ### Files -/

/-- The directory with other contents in a file. -/
def put (folder : Folder) (path : String) (contents : List UInt8) : Folder :=
  if (folder.find? path).isSome then
    { folder with
      files := folder.files.map fun file => if file.1 = path then (path, contents) else file }
  else { folder with files := folder.files ++ [(path, contents)] }

/-- Reads a file. A directory can be opened, but not read. -/
def read (folder : Folder) (path : String) : Except ReadFault (List UInt8) :=
  match folder.locate .reading path with
  | .error fault => .error (.opening fault.reason)
  | .ok .directory => .error (.reading PathFault.isDirectory.reason)
  | .ok (.file path) =>
    match folder.find? path with
    | some contents => .ok contents
    | none => .error (.opening PathFault.notFound.reason)

/-- Creates or empties a file. -/
def create (folder : Folder) (path : String) : Except PathFault Folder := do
  match ← folder.locate .creating path with
  | .directory => throw .isDirectory
  | .file path => return folder.put path []

/-- Writes to the end of a file. -/
def append (folder : Folder) (path text : String) : Folder :=
  match folder.locate .creating path with
  | .ok (.file path) => folder.put path ((folder.find? path).getD [] ++ text.toUTF8.toList)
  | _ => folder

/-! ### Streams -/

instance : Host (StateM Folder) where
  readFile path := do return (← get).read path
  readInput := do return (← get).input
  createFile path := do
    match (← get).create path with
    | .error fault => return .error fault.reason
    | .ok folder => set folder; return .ok ()
  appendFile path text := modify (·.append path text)
  print text := modify fun folder => { folder with output := folder.output ++ text }
  printError text := modify fun folder => { folder with errors := folder.errors ++ text }
  isTerminal := return false

end Folder

end WitGraph.Cli
