/-
**What a failing command does to files.**

A command can fail because of what it is given: its input cannot be read, is no document, does not have
what has been asked for, or, in a report on representations, has types too large for 64-bit sizes.
`Folder.Lacks` says so in terms of the folder, without running the command, and `run_of_lacks` compares
this with the run: the failure is reported, and no file is touched, with one exception. A report on
representations creates its output file before it looks for the world or interface, so that file is
emptied although nothing is written to it (`exists_output_emptied`).
-/

import WitGraph.Cli.Folder
import WitGraph.Cli.Run
import WitGraph.Proofs.Success

namespace WitGraph.Cli

variable {folder created after : Folder} {command : Command} {options : Options} {failure : Failure}

/-! ### Creating a file -/

namespace Folder

theorem lookup_replaced (files : List (String × List UInt8)) (place : String) (contents : List UInt8)
    (path : String) :
    (files.map fun file => if file.1 = place then (place, contents) else file).lookup path
      = if path = place then (files.lookup place).map fun _ => contents else files.lookup path := by
  induction files with
  | nil => simp
  | cons file rest ih =>
    obtain ⟨name, old⟩ := file
    rw [List.map_cons, List.lookup_cons, List.lookup_cons]
    by_cases here : name = place
    · by_cases asked : path = place
      · simp [here, asked]
      · have differ : (path == place) = false := beq_false_of_ne asked
        simpa [here, asked, differ, List.lookup_cons] using ih
    · by_cases asked : path = name
      · simp [here, asked]
      · have differ : (path == name) = false := beq_false_of_ne asked
        have apart : (place == name) = false := beq_false_of_ne fun same => here same.symm
        simpa [here, differ, apart, List.lookup_cons] using ih

theorem find?_put (folder : Folder) (place : String) (contents : List UInt8) (path : String) :
    (folder.put place contents).find? path
      = if path = place then some contents else folder.find? path := by
  unfold put find?
  split
  · rename_i present
    obtain ⟨old, isOld⟩ := Option.isSome_iff_exists.mp present
    rw [lookup_replaced, isOld]
    rfl
  · rename_i absent
    rw [List.lookup_append]
    have isAbsent : folder.files.lookup place = none := Option.not_isSome_iff_eq_none.mp absent
    by_cases asked : path = place
    · simp [asked, isAbsent]
    · have differ : (path == place) = false := beq_false_of_ne asked
      simp [asked, differ, List.lookup_cons]

/-- The place of an output file, if there can be a file. -/
def outputPlace? (folder : Folder) (output : Option String) : Option String :=
  match output.map (folder.locate .creating) with
  | some (.ok (.file place)) => some place
  | _ => none

/-- The folder with the output file created, if there is to be one. -/
def opened (folder : Folder) : Option String → Except Failure Folder
  | none => .ok folder
  | some path => (folder.create path).mapError fun fault => .createOutput path fault.reason

/-- An output file that has been created is empty, and the other files are as before. -/
theorem find?_of_opened {output : Option String} (isCreated : folder.opened output = .ok created)
    (path : String) : created.find? path
      = if folder.outputPlace? output = some path then some [] else folder.find? path := by
  cases output with
  | none =>
    cases isCreated
    rfl
  | some target =>
    obtain ⟨location, isLocation, isPut⟩ :=
      Success.bind_eq_ok_iff.mp (Success.mapError_eq_ok_iff.mp isCreated)
    cases location with
    | directory => cases isPut
    | file place =>
      cases isPut
      have isPlace : folder.outputPlace? (some target) = some place := by
        simp [outputPlace?, isLocation]
      rw [find?_put, isPlace]
      simp [eq_comm]

/-- Where no output file can be created, there is no place for one. -/
theorem outputPlace?_of_opened {output : Option String} (isFailure : folder.opened output = .error failure) :
    folder.outputPlace? output = none := by
  cases output with
  | none => rfl
  | some target =>
    obtain ⟨fault, isFault, -⟩ := Success.mapError_eq_error_iff.mp isFailure
    rcases Success.bind_eq_error_iff.mp isFault with noPlace | ⟨location, isLocation, notPut⟩
    · simp [outputPlace?, noPlace]
    · cases location with
      | directory => simp [outputPlace?, isLocation]
      | file place => cases notPut

end Folder

/-! ### Failures that the input decides -/

/-- The failure to read a file. -/
def Failure.ofReadFault (path : String) : ReadFault → Failure
  | .opening reason => .openInput path reason
  | .reading reason => .readInput path reason

/-- Whether a pattern names no world or interface. -/
def Failure.isUnmatched : Failure → Bool
  | .noWorld _ | .noInterface _ => true
  | _ => false

/-- A graph does not have what a command asks for, or the command has to ask for something and does
not. -/
inductive Options.Misses (options : Options) (command : Command) (graph : Graph) : Failure → Prop
  | world {pattern : String} (takes : command.takesTarget = true) (asked : options.world = some pattern)
      (missing : graph.matchWorld? pattern = none) : Misses options command graph (.noWorld pattern)
  | interface {pattern : String} (takes : command.takesTarget = true) (noWorld : options.world = none)
      (asked : options.interface = some pattern) (missing : graph.matchInterface? pattern = none) :
      Misses options command graph (.noInterface pattern)
  | target (isPrune : command = .prune) (noWorld : options.world = none)
      (noInterface : options.interface = none) : Misses options command graph .noTarget

namespace Folder

/-- The bytes of an input. -/
def inputBytes (folder : Folder) : Option String → Except Failure (List UInt8)
  | none => .ok folder.input
  | some path =>
    if path = "-" then .ok folder.input
    else (folder.read path).mapError (Failure.ofReadFault path)

/-- The graph that an input describes. -/
def inputGraph (folder : Folder) (input : Option String) : Except Failure Graph :=
  folder.inputBytes input >>= fun bytes => (Graph.ofBytes bytes).mapError .decode

/-- Why a command cannot do its work with the input that it finds in a folder. A report on
representations lays out all types before it looks for its world or interface. -/
inductive Lacks (folder : Folder) (command : Command) (options : Options) : Failure → Prop
  | graph {failure : Failure} (unread : folder.inputGraph options.input = .error failure) :
      Lacks folder command options failure
  | layout {graph : Graph} {fault : AbiFault} (isAbi : command = .abi)
      (isInput : folder.inputGraph options.input = .ok graph) (tooLarge : graph.layout = .error fault) :
      Lacks folder command options (.abi fault)
  | target {graph : Graph} {failure : Failure} (isInput : folder.inputGraph options.input = .ok graph)
      (laidOut : command = .abi → ∃ table, graph.layout = .ok table)
      (misses : options.Misses command graph failure) : Lacks folder command options failure

/-- The folder after a failure has been reported. -/
def reporting (folder : Folder) (failure : Failure) : Folder :=
  { folder with errors := folder.errors ++ failure.report }

end Folder

/-! ### Steps in a folder -/

namespace Folder

variable {α β : Type}

/-- What a step gives in a folder, and the folder afterwards. -/
def perform (folder : Folder) (step : Step (StateM Folder) α) : Except Failure α × Folder :=
  step.run.run folder

theorem perform_bind (first : Step (StateM Folder) α) (second : α → Step (StateM Folder) β) :
    folder.perform (first >>= second) = match folder.perform first with
      | (.ok value, after) => after.perform (second value)
      | (.error failure, after) => (.error failure, after) := by
  unfold perform
  rw [ExceptT.run_bind, StateT.run_bind]
  show (match first.run.run folder with | (result, after) => _) = _
  rcases first.run.run folder with ⟨_ | _, after⟩ <;> rfl

theorem perform_bind_of_ok {first : Step (StateM Folder) α} {value : α}
    (isFirst : folder.perform first = (.ok value, after)) (second : α → Step (StateM Folder) β) :
    folder.perform (first >>= second) = after.perform (second value) := by
  rw [perform_bind, isFirst]

theorem perform_bind_of_error {first : Step (StateM Folder) α}
    (isFirst : folder.perform first = (.error failure, after)) (second : α → Step (StateM Folder) β) :
    folder.perform (first >>= second) = (.error failure, after) := by
  rw [perform_bind, isFirst]

theorem perform_lift (action : StateM Folder α) :
    folder.perform action = (.ok (action.run folder).1, (action.run folder).2) := rfl

theorem readBytes_of_ne {path : String} (notDash : path ≠ "-") :
    folder.perform (readBytes (some path))
      = ((folder.read path).mapError (Failure.ofReadFault path), folder) := by
  unfold readBytes
  split
  · contradiction
  · simp_all
  · rename_i isPath
    cases isPath
    show folder.perform ((Host.readFile path : StateM Folder _) >>= _) = _
    have isRead : folder.perform (Host.readFile path : StateM Folder _)
        = (.ok (folder.read path), folder) := rfl
    rw [perform_bind_of_ok isRead]
    rcases folder.read path with (_ | _) | _ <;> rfl

theorem perform_readBytes (input : Option String) :
    folder.perform (readBytes input) = (folder.inputBytes input, folder) := by
  cases input with
  | none => rfl
  | some path =>
    by_cases dash : path = "-"
    · rw [dash]
      rfl
    · rw [readBytes_of_ne dash, inputBytes, if_neg dash]

theorem perform_readGraph (options : Options) :
    folder.perform (readGraph options) = (folder.inputGraph options.input, folder) := by
  unfold readGraph inputGraph
  rw [perform_bind, perform_readBytes]
  cases folder.inputBytes options.input with
  | error fault => rfl
  | ok bytes =>
    show _ = ((Graph.ofBytes bytes).mapError Failure.decode, folder)
    dsimp only
    cases Graph.ofBytes bytes <;> rfl

theorem run_createFile (path : String) :
    (Host.createFile path : StateM Folder _).run folder = match folder.create path with
      | .ok created => (.ok (), created)
      | .error fault => (.error fault.reason, folder) := by
  simp only [Host.createFile, StateT.run_bind, StateT.run_get, pure_bind]
  cases folder.create path <;> rfl

theorem perform_openOutput (options : Options) :
    folder.perform (openOutput options) = match folder.opened options.output with
      | .ok created => (.ok (), created)
      | .error failure => (.error failure, folder) := by
  unfold openOutput
  cases options.output with
  | none => rfl
  | some path =>
    show folder.perform ((Host.createFile path : StateM Folder _) >>= _) = _
    rw [perform_bind, perform_lift, run_createFile, opened]
    rcases folder.create path with _ | _ <;> rfl

theorem perform_findTarget_of_unmatched {graph : Graph} (misses : options.Misses command graph failure)
    (unmatched : failure.isUnmatched = true) :
    folder.perform (findTarget options graph) = (.error failure, folder) := by
  unfold findTarget
  cases misses with
  | world _ asked missing =>
    simp only [asked, missing]
    rfl
  | interface _ noWorld asked missing =>
    simp only [noWorld, asked, missing]
    rfl
  | target => cases unmatched

theorem perform_findTarget_none (graph : Graph) (noWorld : options.world = none)
    (noInterface : options.interface = none) :
    folder.perform (findTarget options graph) = (.ok none, folder) := by
  rw [findTarget, noWorld, noInterface]
  rfl

/-! ### Commands in a folder -/

theorem perform_runCommand_of_unread (command : Command)
    (unread : folder.inputGraph options.input = .error failure) :
    folder.perform (runCommand command options) = (.error failure, folder) := by
  have isRead : folder.perform (readGraph options) = (.error failure, folder) := by
    rw [perform_readGraph, unread]
  cases command with
  | list => exact perform_bind_of_error isRead _
  | abi => exact perform_bind_of_error isRead _
  | prune => exact perform_bind_of_error isRead _

section Target

variable {graph : Graph} (isInput : folder.inputGraph options.input = .ok graph)

include isInput

theorem perform_readGraph_of_ok : folder.perform (readGraph options) = (.ok graph, folder) := by
  rw [perform_readGraph, isInput]

/-- A pruning finds out what is missing before it creates its output file. -/
theorem perform_runPrune (misses : options.Misses .prune graph failure) :
    folder.perform (runPrune options) = (.error failure, folder) := by
  rw [runPrune, perform_bind_of_ok (perform_readGraph_of_ok isInput)]
  by_cases unmatched : failure.isUnmatched
  · exact perform_bind_of_error (perform_findTarget_of_unmatched misses unmatched) _
  · cases misses with
    | world | interface => exact absurd rfl unmatched
    | target _ noWorld noInterface =>
      rw [perform_bind_of_ok (perform_findTarget_none graph noWorld noInterface)]
      rfl

/-- A report lays out all types before it creates its output file. -/
theorem perform_runAbi_of_tooLarge {fault : AbiFault} (tooLarge : graph.layout = .error fault) :
    folder.perform (runAbi options) = (.error (.abi fault), folder) := by
  have isStopped : folder.perform (representable graph.layout) = (.error (.abi fault), folder) := by
    rw [tooLarge]
    rfl
  rw [runAbi, perform_bind_of_ok (perform_readGraph_of_ok isInput)]
  exact perform_bind_of_error isStopped _

/-- A report creates its output file before it finds out what is missing. -/
theorem perform_runAbi {table : LayoutTable} (isTable : graph.layout = .ok table)
    (misses : options.Misses .abi graph failure) (unmatched : failure.isUnmatched = true) :
    folder.perform (runAbi options) = match folder.opened options.output with
      | .ok created => (.error failure, created)
      | .error earlier => (.error earlier, folder) := by
  have isLaidOut : folder.perform (representable graph.layout) = (.ok table, folder) := by
    rw [isTable]
    rfl
  rw [runAbi, perform_bind_of_ok (perform_readGraph_of_ok isInput), perform_bind_of_ok isLaidOut,
    perform_bind, perform_openOutput]
  rcases folder.opened options.output with earlier | created
  · rfl
  · exact perform_bind_of_error (perform_findTarget_of_unmatched misses unmatched) _

end Target

end Folder

/-! ### Command lines -/

theorem Options.Misses.command_ne_list {graph : Graph} (misses : options.Misses command graph failure) :
    command ≠ .list := by
  rintro rfl
  cases misses with
  | world takes | interface takes => cases takes
  | target isPrune => cases isPrune

theorem Folder.isUnmatched_of_inputBytes {input : Option String}
    (unread : folder.inputBytes input = .error failure) : failure.isUnmatched = false := by
  unfold inputBytes at unread
  split at unread
  · cases unread
  · split at unread
    · cases unread
    · obtain ⟨fault, -, rfl⟩ := Success.mapError_eq_error_iff.mp unread
      cases fault <;> rfl

/-- An input that is no document is not searched for a world or interface. -/
theorem Folder.isUnmatched_of_inputGraph {input : Option String}
    (unread : folder.inputGraph input = .error failure) : failure.isUnmatched = false := by
  rcases Success.bind_eq_error_iff.mp unread with noBytes | ⟨bytes, -, refused⟩
  · exact isUnmatched_of_inputBytes noBytes
  · obtain ⟨fault, -, rfl⟩ := Success.mapError_eq_error_iff.mp refused
    rfl

theorem Failure.exitCode_of_isUnmatched (unmatched : failure.isUnmatched = true) :
    failure.exitCode = 1 := by
  cases failure with
  | noWorld | noInterface => rfl
  | _ => cases unmatched

theorem Folder.exitCode_of_opened {output : Option String}
    (isFailure : folder.opened output = .error failure) : failure.exitCode = 1 := by
  cases output with
  | none => cases isFailure
  | some target =>
    obtain ⟨fault, -, rfl⟩ := Success.mapError_eq_error_iff.mp isFailure
    rfl

theorem run_of_perform {arguments : List String}
    (asked : Invocation.parse? arguments = some (.run command options))
    (performed : folder.perform (runCommand command options) = (.error failure, after)) :
    (run arguments : StateM Folder Nat).run folder = (failure.exitCode, after.reporting failure) := by
  unfold Folder.perform at performed
  unfold run
  rw [asked]
  show StateT.run (ExceptT.run (runCommand command options) >>= _) folder = _
  rw [StateT.run_bind, performed]
  rfl

/-- **What a command lacks is reported, and no file is touched**, unless a report on representations
has not found its world or interface: that one has created its output file before. -/
theorem run_of_lacks {arguments : List String}
    (asked : Invocation.parse? arguments = some (.run command options))
    (lacks : folder.Lacks command options failure) :
    (¬ (command = .abi ∧ failure.isUnmatched) →
        (run arguments : StateM Folder Nat).run folder = (failure.exitCode, folder.reporting failure))
      ∧ (command = .abi ∧ failure.isUnmatched →
        (run arguments : StateM Folder Nat).run folder = match folder.opened options.output with
          | .ok created => (1, created.reporting failure)
          | .error earlier => (1, folder.reporting earlier)) := by
  cases lacks with
  | graph unread =>
    refine ⟨fun _ => ?_, fun ⟨_, unmatched⟩ => ?_⟩
    · exact run_of_perform asked (Folder.perform_runCommand_of_unread command unread)
    · cases unmatched.symm.trans (Folder.isUnmatched_of_inputGraph unread)
  | layout isAbi isInput tooLarge =>
    cases isAbi
    refine ⟨fun _ => ?_, fun ⟨_, unmatched⟩ => by cases unmatched⟩
    exact run_of_perform asked (Folder.perform_runAbi_of_tooLarge isInput tooLarge)
  | target isInput laidOut misses =>
    cases command with
    | list => exact absurd rfl misses.command_ne_list
    | prune =>
      refine ⟨fun _ => ?_, fun ⟨isAbi, _⟩ => by cases isAbi⟩
      exact run_of_perform asked (Folder.perform_runPrune isInput misses)
    | abi =>
      have unmatched : failure.isUnmatched = true := by
        cases misses with
        | world | interface => rfl
        | target isPrune => cases isPrune
      refine ⟨fun kept => absurd ⟨rfl, unmatched⟩ kept, fun _ => ?_⟩
      obtain ⟨table, isTable⟩ := laidOut rfl
      have performed := Folder.perform_runAbi isInput isTable misses unmatched
      cases isOpened : folder.opened options.output with
      | ok created =>
        rw [isOpened] at performed
        rw [run_of_perform asked performed, Failure.exitCode_of_isUnmatched unmatched]
      | error earlier =>
        rw [isOpened] at performed
        rw [run_of_perform asked performed, Folder.exitCode_of_opened isOpened]

/-- **A failing command leaves files alone**, except that a report on representations that has not found
its world or interface empties its output file. -/
theorem files_of_lacks {arguments : List String}
    (asked : Invocation.parse? arguments = some (.run command options))
    (lacks : folder.Lacks command options failure) :
    ∃ after, (run arguments : StateM Folder Nat).run folder = (failure.exitCode, after)
      ∧ (¬ (command = .abi ∧ failure.isUnmatched) → after = folder.reporting failure)
      ∧ ∀ path, after.find? path
          = if (command = .abi ∧ failure.isUnmatched) ∧ folder.outputPlace? options.output = some path
            then some [] else folder.find? path := by
  obtain ⟨kept, opens⟩ := run_of_lacks asked lacks
  by_cases slips : command = .abi ∧ failure.isUnmatched
  · have ran := opens slips
    rw [Failure.exitCode_of_isUnmatched slips.2]
    cases isOpened : folder.opened options.output with
    | ok created =>
      rw [isOpened] at ran
      refine ⟨_, ran, fun notSlips => absurd slips notSlips, fun path => ?_⟩
      simp only [slips, and_self, true_and]
      exact Folder.find?_of_opened isOpened path
    | error earlier =>
      rw [isOpened] at ran
      refine ⟨_, ran, fun notSlips => absurd slips notSlips, fun path => ?_⟩
      rw [Folder.outputPlace?_of_opened isOpened]
      simp
      rfl
  · refine ⟨_, kept slips, fun _ => rfl, fun path => ?_⟩
    rw [if_neg fun both => slips both.1]
    rfl

end WitGraph.Cli

namespace WitGraph.Cli

/-! ### A world that is missing -/

namespace Missing

/-- A folder with an empty document and an earlier output. -/
def folder : Folder where
  files := [("in.json", [123, 125]), ("out.json", [91, 93])]

/-- The options of a command that is to report on a world that is not there, or to keep it. -/
def options (output : String) : Options where
  input := "in.json"
  output := output
  world := "w"

/-- The command line with these options. -/
def arguments (command : String) (output : String) : List String :=
  [command, "--world", "w", "-o", output, "in.json"]

theorem lacks {command : Command} (takes : command.takesTarget = true) (output : String) :
    folder.Lacks command (options output) (.noWorld "w") := by
  have isInput : folder.inputGraph "in.json" = .ok {} := by decide +kernel
  exact .target isInput (fun _ => ⟨_, rfl⟩) (.world takes rfl rfl)

end Missing

/-- A pruning leaves its input alone even if that is its output file. -/
theorem files_of_lacks_prune :
    Invocation.parse? (Missing.arguments "prune" "in.json")
        = some (.run .prune (Missing.options "in.json"))
      ∧ Missing.folder.Lacks .prune (Missing.options "in.json") (.noWorld "w")
      ∧ (run (Missing.arguments "prune" "in.json") : StateM Folder Nat).run Missing.folder
        = (1, { Missing.folder with errors := "Error: no world matching `w`\n" }) := by
  have asked : Invocation.parse? (Missing.arguments "prune" "in.json")
      = some (.run .prune (Missing.options "in.json")) := by decide +kernel
  have lacks : Missing.folder.Lacks .prune (Missing.options "in.json") (.noWorld "w") :=
    Missing.lacks rfl "in.json"
  obtain ⟨after, ran, kept, -⟩ := files_of_lacks asked lacks
  have isAfter : after = { Missing.folder with errors := "Error: no world matching `w`\n" } := by
    have isReport : (Failure.noWorld "w").report = "Error: no world matching `w`\n" := by
      decide +kernel
    rw [kept (fun slips => by cases slips.1), Folder.reporting, isReport]
    rfl
  exact ⟨asked, lacks, isAfter ▸ ran⟩

/-- **A report can destroy an earlier one**: nothing is written, but the output file has been emptied. -/
theorem exists_output_emptied :
    Invocation.parse? (Missing.arguments "abi" "out.json")
        = some (.run .abi (Missing.options "out.json"))
      ∧ Missing.folder.Lacks .abi (Missing.options "out.json") (.noWorld "w")
      ∧ Missing.folder.find? "out.json" = some [91, 93]
      ∧ ∃ after, (run (Missing.arguments "abi" "out.json") : StateM Folder Nat).run Missing.folder
          = (1, after) ∧ after.find? "out.json" = some [] := by
  refine ⟨by decide +kernel, Missing.lacks rfl "out.json", rfl, _, Prod.ext ?_ rfl, ?_⟩
  · decide +kernel
  · decide +kernel

end WitGraph.Cli
