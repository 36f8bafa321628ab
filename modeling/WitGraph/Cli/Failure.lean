/-
**Failures of a command.**

A failure has a message and may have causes, each the cause of the one before. `Failure.report`
writes the message, and under it the causes, which are numbered if there are several; the lines of
a message are indented alike. A type without a representation is no failure of this kind: it stops
the command where it is (see `AbiFault`), which `Failure.exitCode` tells apart.
-/

import WitGraph.Abi.Fault
import WitGraph.Document.Fault
import WitGraph.Text.Escape

namespace WitGraph.Cli

/-- Why a command fails. -/
inductive Failure where
  /-- The input file cannot be opened. -/
  | openInput (path : String) (reason : String)
  /-- The input file cannot be read. -/
  | readInput (path : String) (reason : String)
  /-- The input is no document. -/
  | decode (fault : DecodeFault)
  /-- The output file cannot be created. -/
  | createOutput (path : String) (reason : String)
  /-- No world is named by the pattern. -/
  | noWorld (pattern : String)
  /-- No interface is named by the pattern. -/
  | noInterface (pattern : String)
  /-- Neither a world nor an interface has been asked for. -/
  | noTarget
  /-- A type has no representation. -/
  | abi (fault : AbiFault)
deriving DecidableEq, Repr

namespace Failure

/-- The message and its causes. -/
def messages : Failure → String × List String
  | .openInput path reason => (s!"failed to open {Text.quotedPath path}", [reason])
  | .readInput path reason => (s!"failed to read {Text.quotedPath path}", [reason])
  | .decode fault => ("failed to decode input", fault.chain ++ fault.detail?.toList)
  | .createOutput path reason => (s!"failed to create {Text.quotedPath path}", [reason])
  | .noWorld pattern => (s!"no world matching `{pattern}`", [])
  | .noInterface pattern => (s!"no interface matching `{pattern}`", [])
  | .noTarget => ("one of `--world` or `--interface` must be specified", [])
  | .abi fault => (fault.message, [])

/-- A text with every line after the first one indented. -/
def indentLines (blanks : Nat) (text : String) : String :=
  String.ofList <| text.toList.flatMap fun char =>
    if char = '\n' then '\n' :: List.replicate blanks ' ' else [char]

/-- A number filled up with blanks to at least five characters. -/
def paddedNumber (number : Nat) : String :=
  let digits := (toString number).toList
  String.ofList (List.replicate (5 - digits.length) ' ' ++ digits)

/-- The lines of the causes. -/
def causeLines (causes : List String) : List String :=
  match causes with
  | [cause] => ["    " ++ indentLines 4 cause]
  | causes =>
    causes.zipIdx.map fun (cause, number) => paddedNumber number ++ ": " ++ indentLines 7 cause

/-- The exit code after a failure. -/
def exitCode : Failure → Nat
  | .abi _ => 101
  | _ => 1

/-- The report of a failure. -/
def report (failure : Failure) : String :=
  let (message, causes) := failure.messages
  let lines := if causes.isEmpty then [] else "" :: "Caused by:" :: causeLines causes
  "\n".intercalate (("Error: " ++ message) :: lines) ++ "\n"

end Failure

end WitGraph.Cli
