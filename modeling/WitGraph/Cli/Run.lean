/-
**Running a command line.**

`run` carries out a command line and gives its exit code: 0 if all went well, 1 if the command
failed, 2 if the arguments were rejected, and 101 if a type without a representation has stopped the
command. A command decodes its input first. A listing or a report
creates its output file before anything else is decided; a pruning finds its target and encodes its
result before.
-/

import WitGraph.Cli.Arguments
import WitGraph.Cli.Failure
import WitGraph.Cli.Host
import WitGraph.Cli.Report
import WitGraph.Document.Linking
import WitGraph.Document.Writing
import WitGraph.Pruning

namespace WitGraph.Cli

variable {m : Type → Type} [Monad m] [Host m]

/-- A step of a command, which may fail. -/
abbrev Step (m : Type → Type) := ExceptT Failure m

/-- The name and version of the program. -/
def versionText : String := "wit-tools 0.1.0\n"

/-- How the program is used. -/
def usageText : String :=
  unlines [
    "Usage: wit-tools <list|abi|prune> [OPTIONS] [INPUT]",
    "",
    "  -o, --output <OUTPUT>        where to place output instead of printing it",
    "  -w, --world <WORLD>          the world to report on or to keep (abi, prune)",
    "  -i, --interface <INTERFACE>  the interface to report on or to keep (abi, prune)",
    "      --color <COLOR>          auto, never, always or always-ansi",
    "  -v, --verbose                use verbose output",
    "  -h, --help                   print help",
    "  -V, --version                print version"]

/-! ### Input and output -/

/-- The bytes of the input. -/
def readBytes (input : Option String) : Step m (List UInt8) := do
  match input with
  | none | some "-" => (Host.readInput : m _)
  | some path =>
    match ← (Host.readFile path : m _) with
    | .ok bytes => return bytes
    | .error (.opening reason) => throw (.openInput path reason)
    | .error (.reading reason) => throw (.readInput path reason)

/-- The graph that the input describes. -/
def readGraph (options : Options) : Step m Graph := do
  let bytes ← readBytes options.input
  match Graph.ofBytes bytes with
  | .ok graph => return graph
  | .error fault => throw (.decode fault)

/-- The colours of the output. -/
def palette (options : Options) (isTerminal : Bool) : Palette :=
  match options.color.getD .auto, options.output with
  | .alwaysAnsi, _ => .ansi
  | .always, none => .ansi
  | .auto, none => if isTerminal then .ansi else .plain
  | _, _ => .plain

/-- Creates the output file, if there is to be one. -/
def openOutput (options : Options) : Step m Unit := do
  match options.output with
  | none => return ()
  | some path =>
    match ← (Host.createFile path : m _) with
    | .ok () => return ()
    | .error reason => throw (.createOutput path reason)

/-- Writes to the output file or prints. -/
def writeOutput (options : Options) (text : String) : Step m Unit := do
  match options.output with
  | none => (Host.print text : m _)
  | some path => (Host.appendFile path text : m _)

/-- A representation, which must exist. -/
def representable {α : Type} : Except AbiFault α → Step m α
  | .ok value => return value
  | .error fault => throw (.abi fault)

/-! ### Commands -/

/-- The world or interface that has been asked for, if any. -/
def findTarget (options : Options) (graph : Graph) : Step m (Option Target) := do
  match options.world, options.interface with
  | some pattern, _ =>
    match graph.matchWorld? pattern with
    | some id => return some (.world id)
    | none => throw (.noWorld pattern)
  | none, some pattern =>
    match graph.matchInterface? pattern with
    | some id => return some (.interface id)
    | none => throw (.noInterface pattern)
  | none, none => return none

/-- Prints the listing. -/
def runList (options : Options) : Step m Unit := do
  let graph ← readGraph options
  openOutput options
  writeOutput options (listing (palette options (← (Host.isTerminal : m _))) graph)

/-- Prints the report on representations. -/
def runAbi (options : Options) : Step m Unit := do
  let graph ← readGraph options
  let table ← representable graph.layout
  openOutput options
  let target ← findTarget options graph
  let colors := palette options (← (Host.isTerminal : m _))
  writeOutput options (← representable (abiReport colors graph table target))

/-- The target as a node. -/
def Target.node : Target → Node
  | .world id => .item id.item
  | .interface id => .item id.item

/-- Prints the pruned graph as a document. -/
def runPrune (options : Options) : Step m Unit := do
  let graph ← readGraph options
  match ← findTarget options graph with
  | none => throw .noTarget
  | some target =>
    let text := (graph.pruneTo target.node).text
    openOutput options
    writeOutput options (text ++ "\n")

/-- Carries out a command. -/
def runCommand : Command → Options → Step m Unit
  | .list => runList
  | .abi => runAbi
  | .prune => runPrune

/-- Carries out a command line and gives its exit code. -/
def run (arguments : List String) : m Nat := do
  match Invocation.parse? arguments with
  | none =>
    Host.printError usageText
    return 2
  | some .version =>
    Host.print versionText
    return 0
  | some .help =>
    Host.print usageText
    return 0
  | some (.run command options) =>
    match ← (runCommand command options).run with
    | .ok () => return 0
    | .error failure =>
      Host.printError failure.report
      return failure.exitCode

end WitGraph.Cli
