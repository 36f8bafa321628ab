/-
**What a command can do to its surroundings.**

A command reads its input, creates and writes a file, and prints. `Host` lists these actions, so
that a command is the same program wherever it runs.
-/

namespace WitGraph.Cli

/-- Why a file has not been read. -/
inductive ReadFault where
  | opening (reason : String)
  | reading (reason : String)
deriving DecidableEq, Repr

/-- The actions of a command. -/
class Host (m : Type → Type) where
  /-- The contents of a file. -/
  readFile : String → m (Except ReadFault (List UInt8))
  /-- The standard input. -/
  readInput : m (List UInt8)
  /-- Creates a file, or empties the one that is there; gives the reason if that is impossible. -/
  createFile : String → m (Except String Unit)
  /-- Writes to the end of a file. -/
  appendFile : String → String → m Unit
  /-- Writes to the standard output. -/
  print : String → m Unit
  /-- Writes to the standard error output. -/
  printError : String → m Unit
  /-- Whether the standard output is a terminal. -/
  isTerminal : m Bool

end WitGraph.Cli
