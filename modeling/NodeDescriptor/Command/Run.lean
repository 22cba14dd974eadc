import NodeDescriptor.Batch
import NodeDescriptor.Command.Arguments
import NodeDescriptor.Options.Reader

/-!
# Running commands

What the program prints and the code it exits with, as a function of its arguments and of the
disk. A batch is reported as lines of text or as one JSON list.
-/

set_option autoImplicit false

namespace NodeDescriptor

/-- Why a command cannot be run. -/
inductive CommandFailure where
  /-- The options cannot be loaded from a file. -/
  | badOptions (path : String)
  | notCollected (failure : CollectFailure)
  | noFiles
  deriving DecidableEq

def CommandFailure.message : CommandFailure → String
  | .badOptions path => "loading options from " ++ path
  | .notCollected failure => failure.message ++ ": " ++ failure.reason
  | .noFiles => "no descriptor files found"

/-- What a run of the program leaves behind. -/
structure CommandOutput where
  exitCode : UInt8
  /-- What is printed. -/
  text : String
  failure : Option CommandFailure
  deriving DecidableEq

namespace CommandOutput

/-- Lines of output, each with its line break. -/
def ofLines (exitCode : UInt8) (lines : List String) : CommandOutput :=
  ⟨exitCode, String.join (lines.map fun line => line ++ "\n"), none⟩

/-- A failure without output. -/
def ofFailure (failure : CommandFailure) : CommandOutput := ⟨2, "", some failure⟩

/-- The line that is printed as an error. -/
def errorLine? (output : CommandOutput) : Option String :=
  output.failure.map fun failure => "error: " ++ failure.message

def usageError : CommandOutput := ⟨2, "", none⟩

end CommandOutput

/-! ## Reports of batches -/

namespace FileOutcome

def lines (strict : Bool) (file : FileOutcome) : List String :=
  match file.result with
  | .error failure => [file.path ++ ": FAILED (" ++ failure.message ++ ")"]
  | .ok outcome =>
      let verdict := if outcome.isAccepted strict then "ok" else "FAILED"
      (file.path ++ ": " ++ verdict ++ " (" ++ outcome.report.summary ++ ", " ++
          toString outcome.model.nodes.size ++ " node(s))") ::
        outcome.report.detailed.map fun detail => "  " ++ detail

def toJson (strict : Bool) (file : FileOutcome) : Json :=
  match file.result with
  | .error failure =>
      .object [("path", .string file.path), ("accepted", .bool false),
        ("error", .string failure.message)]
  | .ok outcome =>
      .object [("path", .string file.path), ("accepted", .bool (outcome.isAccepted strict)),
        ("diagnostics", .array (outcome.report.diagnostics.map Diagnostic.toJson)),
        ("model", outcome.model.toJson)]

end FileOutcome

namespace Batch

def lines (batch : Batch) (strict : Bool) : List String :=
  batch.files.flatMap (FileOutcome.lines strict) ++
    ["", toString (batch.acceptedCount strict) ++ " of " ++ toString batch.files.length ++
      " file(s) accepted"]

def toJson (batch : Batch) (strict : Bool) : Json :=
  .array (batch.files.map (FileOutcome.toJson strict))

end Batch

/-! ## Commands -/

namespace CheckRequest

/-- The options from the file that is named, if they can be loaded; standard ones otherwise. -/
def loadOptions (disk : Disk) (request : CheckRequest) : Except CommandFailure Options :=
  match request.config with
  | none => .ok .standard
  | some path =>
      match (disk.text path).toOption.bind Options.read? with
      | some options => .ok options
      | none => .error (.badOptions path)

/-- The options under which the request is run. -/
def settings (request : CheckRequest) (options : Options) : Options :=
  { options with
    strict := options.strict || request.strict
    parallel := options.parallel && !request.sequential }

/-- The output for a batch. -/
def report (request : CheckRequest) (batch : Batch) (strict : Bool) : CommandOutput :=
  .ofLines (batch.verdict strict).exitCode
    (if request.json then [(batch.toJson strict).pretty] else batch.lines strict)

/-- Check the files of a request. -/
def run (disk : Disk) (request : CheckRequest) : CommandOutput :=
  match request.loadOptions disk with
  | .error failure => .ofFailure failure
  | .ok loaded =>
      let options := request.settings loaded
      match collect disk request.paths with
      | .error failure => .ofFailure (.notCollected failure)
      | .ok [] => .ofFailure .noFiles
      | .ok files =>
          let pipeline : Pipeline := { Pipeline.standard with options }
          request.report (pipeline.checkFiles disk files) options.strict

end CheckRequest

namespace Command

def versionLine : String := "ogn 0.3.0"

def helpLines : List String :=
  ["Usage: ogn check [--strict] [--config FILE] [--json] [--sequential] PATHS...",
    "       ogn types [--unions]",
    "       ogn --version"]

/-- The types, and the union groups if they are asked for. -/
def typeLines (unions : Bool) : List String :=
  (if unions then DataType.vocabulary else DataType.concrete).map DataType.text

/-- Run a command. -/
def run (disk : Disk) : Command → CommandOutput
  | .check request => request.run disk
  | .types unions => .ofLines 0 (typeLines unions)
  | .version => .ofLines 0 [versionLine]
  | .help => .ofLines 0 helpLines

/-- Run the program with its arguments. -/
def runArguments (disk : Disk) (arguments : List String) : CommandOutput :=
  match Arguments.read? arguments with
  | some command => command.run disk
  | none => .usageError

end Command

end NodeDescriptor
