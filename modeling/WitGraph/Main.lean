/-
**The program.**

Commands run on the files and streams of the process.
-/

import WitGraph.Cli.Run

namespace WitGraph.Cli

/-- The reason that the system gives for an error. -/
def reasonOf : IO.Error → String
  | .noFileOrDirectory _ code details => s!"{details} (os error {code})"
  | .permissionDenied _ code details => s!"{details} (os error {code})"
  | .inappropriateType _ code details => s!"{details} (os error {code})"
  | .invalidArgument _ code details => s!"{details} (os error {code})"
  | .alreadyExists _ code details => s!"{details} (os error {code})"
  | fault => toString fault

/-- Opens a file and reads all of it. -/
def readPath (path : String) : IO (Except ReadFault (List UInt8)) := do
  match ← (IO.FS.Handle.mk path .read).toBaseIO with
  | .error fault => return .error (.opening (reasonOf fault))
  | .ok handle =>
    match ← handle.readBinToEnd.toBaseIO with
    | .error fault => return .error (.reading (reasonOf fault))
    | .ok bytes => return .ok bytes.toList

/-- Creates a file or empties it. -/
def createPath (path : String) : IO (Except String Unit) := do
  match ← (IO.FS.Handle.mk path .write).toBaseIO with
  | .error fault => return .error (reasonOf fault)
  | .ok _ => return .ok ()

/-- Writes to the end of a file. -/
def appendPath (path text : String) : IO Unit := do
  let handle ← IO.FS.Handle.mk path .append
  handle.putStr text

instance : Host IO where
  readFile := readPath
  readInput := do return (← (← IO.getStdin).readBinToEnd).toList
  createFile := createPath
  appendFile := appendPath
  print := IO.print
  printError := IO.eprint
  isTerminal := do (← IO.getStdout).isTty

end WitGraph.Cli

/-- Runs the command line of the process. -/
def main (arguments : List String) : IO UInt32 := do
  return UInt32.ofNat (← WitGraph.Cli.run arguments)
