/-
**Command lines.**

`Invocation.parse?` reads the arguments of the command line or rejects them. A command is followed
by options and at most one input file. Options may be written in the usual ways: `--world X`,
`--world=X`, `-w X`, `-wX` and `-w=X`, flags without a value may be joined behind one hyphen, and
everything after `--` is taken as it stands. An option with a value may be given once, a value that
is an argument of its own does not start with a hyphen unless it is one, file names are not empty,
and a world and an interface are not asked for together. `help` may be followed by one name on which
there is help.
-/

import WitGraph.Text.Cut

namespace WitGraph.Cli

/-- When the output is coloured. -/
inductive ColorChoice where
  | auto
  | never
  | always
  /-- Coloured even in files. -/
  | alwaysAnsi
deriving DecidableEq, Repr

/-- The choice with a name, in any case. -/
def ColorChoice.ofName? (name : String) : Option ColorChoice :=
  match String.ofList (name.toList.map Char.toLower) with
  | "auto" => some .auto
  | "never" => some .never
  | "always" => some .always
  | "always-ansi" => some .alwaysAnsi
  | _ => none

/-- What is to be done. -/
inductive Command where
  | list
  | abi
  | prune
deriving DecidableEq, Repr

/-- The command with a name. -/
def Command.ofName? : String → Option Command
  | "list" => some .list
  | "abi" => some .abi
  | "prune" => some .prune
  | _ => none

/-- Whether the command is about one world or interface. -/
def Command.takesTarget : Command → Bool
  | .list => false
  | .abi | .prune => true

/-- The options of a command. -/
structure Options where
  input : Option String := none
  output : Option String := none
  color : Option ColorChoice := none
  world : Option String := none
  interface : Option String := none
  verbosity : Nat := 0
deriving DecidableEq, Repr

/-- What a command line asks for. -/
inductive Invocation where
  | run (command : Command) (options : Options)
  | version
  | help
deriving DecidableEq, Repr

namespace Options

/-- The options that have a value. -/
inductive Key where
  | output
  | color
  | world
  | interface
deriving DecidableEq, Repr

/-- The option with a long name. -/
def keyOfName? (command : Command) : String → Option Key
  | "output" => some .output
  | "color" => some .color
  | "world" => if command.takesTarget then some .world else none
  | "interface" => if command.takesTarget then some .interface else none
  | _ => none

/-- The option with a letter. -/
def keyOfLetter? (command : Command) : Char → Option Key
  | 'o' => some .output
  | 'w' => if command.takesTarget then some .world else none
  | 'i' => if command.takesTarget then some .interface else none
  | _ => none

/-- The options with one more value, which must be the first of its option. -/
def set? (options : Options) (value : String) : Key → Option Options
  | .output =>
    if options.output.isSome || value = "" then none else some { options with output := value }
  | .color =>
    if options.color.isSome then none
    else (ColorChoice.ofName? value).map fun color => { options with color := some color }
  | .world => if options.world.isSome then none else some { options with world := value }
  | .interface =>
    if options.interface.isSome then none else some { options with interface := value }

/-- The options with an input file, which must be the first one. -/
def setInput? (options : Options) (path : String) : Option Options :=
  if options.input.isSome || path = "" then none else some { options with input := path }

/-- The options if they do not contradict each other. -/
def checked? (options : Options) : Option Options :=
  if options.world.isSome && options.interface.isSome then none else some options

end Options

/-- One argument. -/
inductive Argument where
  /-- A value or file name. -/
  | plain (text : String)
  /-- Two hyphens: what follows is plain. -/
  | terminator
  /-- A long name and the value attached to it. -/
  | long (name : String) (value : Option String)
  /-- Letters behind one hyphen. -/
  | short (letters : List Char)
deriving DecidableEq, Repr

/-- What an argument looks like. -/
def Argument.ofText (text : String) : Argument :=
  match text.toList with
  | ['-', '-'] => .terminator
  | '-' :: '-' :: name =>
    let (name, value) := Text.cutFirst '=' name
    .long (String.ofList name) (value.map String.ofList)
  | '-' :: letter :: letters => .short (letter :: letters)
  | _ => .plain text

/-- The outcome of reading letters behind one hyphen. -/
inductive Letters where
  /-- All letters have been read. -/
  | done (options : Options)
  /-- The last letter is an option whose value is the next argument. -/
  | awaiting (options : Options) (key : Options.Key)
  | help

/-- The value attached to a letter, an equals sign in front of it being dropped. -/
def attached : List Char → String
  | '=' :: value => String.ofList value
  | value => String.ofList value

/-- Reads letters behind one hyphen. -/
def readLetters? (command : Command) (options : Options) : List Char → Option Letters
  | [] => some (.done options)
  | 'v' :: rest =>
    readLetters? command { options with verbosity := options.verbosity + 1 } rest
  | 'h' :: _ => some .help
  | letter :: rest => do
    let key ← Options.keyOfLetter? command letter
    if rest.isEmpty then return .awaiting options key
    else return .done (← options.set? (attached rest) key)

namespace Invocation

/-- Reads the arguments after `--`. -/
def parsePlain? (command : Command) (options : Options) : List String → Option Invocation
  | [] => options.checked?.map (.run command)
  | path :: rest => do parsePlain? command (← options.setInput? path) rest

/-- Reads the arguments after the name of the command. With `awaiting`, the next one is the value of
that option. -/
def parseOptions? (command : Command) (options : Options) (awaiting : Option Options.Key) :
    List String → Option Invocation
  | [] => if awaiting.isSome then none else options.checked?.map (.run command)
  | text :: rest =>
    match awaiting, Argument.ofText text with
    | some key, .plain value => do parseOptions? command (← options.set? value key) none rest
    | some _, _ => none
    | none, .plain path => do parseOptions? command (← options.setInput? path) none rest
    | none, .terminator => parsePlain? command options rest
    | none, .long "help" none => some .help
    | none, .long "verbose" none =>
      parseOptions? command { options with verbosity := options.verbosity + 1 } none rest
    | none, .long name value => do
      let key ← Options.keyOfName? command name
      match value with
      | none => parseOptions? command options (some key) rest
      | some value => parseOptions? command (← options.set? value key) none rest
    | none, .short letters => do
      match ← readLetters? command options letters with
      | .help => return .help
      | .done options => parseOptions? command options none rest
      | .awaiting options key => parseOptions? command options (some key) rest

/-- Whether there is help on the words that follow `help`. -/
def hasHelp : List String → Bool
  | [] | ["help"] => true
  | [name] => (Command.ofName? name).isSome
  | _ => false

/-- Reads the arguments of a command line. -/
def parse? : List String → Option Invocation
  | [] => none
  | first :: rest =>
    match Argument.ofText first with
    | .long "version" none | .short ('V' :: _) => some .version
    | .long "help" none | .short ('h' :: _) => some .help
    | .plain "help" => if hasHelp rest then some .help else none
    | .plain name => do parseOptions? (← Command.ofName? name) {} none rest
    | _ => none

end Invocation

end WitGraph.Cli
