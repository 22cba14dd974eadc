import NodeDescriptor.Disk.Basic
import NodeDescriptor.Disk.Path
import NodeDescriptor.Document

/-!
# Batches

A batch checks many files with one pipeline. Files that cannot be read, or are no JSON, fail;
the others are accepted or rejected. The verdict on a batch is the worst one on its files.

`collect` finds the files to check: those that are named, whatever they are called, and the
descriptor files below the directories that are named.
-/

set_option autoImplicit false

namespace NodeDescriptor

/-! ## Files -/

/-- Why a file could not be checked. -/
inductive FileFailure where
  | unreadable (problem : FileProblem)
  | notJson
  deriving DecidableEq

def FileFailure.message : FileFailure → String
  | .unreadable problem => "I/O error: " ++ problem.message
  | .notJson => "Syntax error"

/-- What came of one file. -/
structure FileOutcome where
  path : String
  result : Except FileFailure Outcome

namespace FileOutcome

def isAccepted (file : FileOutcome) (strict : Bool) : Bool :=
  match file.result with
  | .ok outcome => outcome.isAccepted strict
  | .error _ => false

def hasFailed (file : FileOutcome) : Bool :=
  match file.result with
  | .ok _ => false
  | .error _ => true

def nodeCount (file : FileOutcome) : Nat :=
  match file.result with
  | .ok outcome => outcome.model.nodes.size
  | .error _ => 0

end FileOutcome

def Pipeline.checkFile (pipeline : Pipeline) (disk : Disk) (path : String) : FileOutcome :=
  ⟨path,
    match disk.text path with
    | .error problem => .error (.unreadable problem)
    | .ok text =>
        match pipeline.checkText? text with
        | some outcome => .ok outcome
        | none => .error .notJson⟩

/-! ## Verdicts -/

/-- The verdict on a batch. -/
inductive Verdict where
  | accepted
  | rejected
  | failed
  deriving DecidableEq

/-- The exit code of a program that comes to a verdict. -/
def Verdict.exitCode : Verdict → UInt8
  | .accepted => 0
  | .rejected => 1
  | .failed => 2

/-- What came of the files of a batch, in order. -/
structure Batch where
  files : List FileOutcome

namespace Batch

/-- The number of files that are accepted, normally or strictly. -/
def acceptedCount (batch : Batch) (strict : Bool) : Nat :=
  (batch.files.filter fun file => file.isAccepted strict).length

def allAccepted (batch : Batch) (strict : Bool) : Bool :=
  batch.acceptedCount strict == batch.files.length

def failures (batch : Batch) : List FileOutcome := batch.files.filter FileOutcome.hasFailed

def nodeCount (batch : Batch) : Nat :=
  batch.files.foldl (fun total file => total + file.nodeCount) 0

/-- The verdict: failures outrank rejections. -/
def verdict (batch : Batch) (strict : Bool) : Verdict :=
  if !batch.failures.isEmpty then .failed
  else if batch.allAccepted strict then .accepted
  else .rejected

end Batch

def Pipeline.checkFiles (pipeline : Pipeline) (disk : Disk) (paths : List String) : Batch :=
  ⟨paths.map (pipeline.checkFile disk)⟩

/-! ## Collecting -/

/-- The extension of descriptor files. -/
def descriptorExtension : String := "ogn"

/-- Why files could not be collected. -/
inductive CollectFailure where
  /-- A path that was named leads nowhere. -/
  | missing (path : String)
  | unreadable (problem : FileProblem)
  deriving DecidableEq

/-- What is wrong, in words. -/
def CollectFailure.reason : CollectFailure → String
  | .missing path => path ++ ": no such file or directory"
  | .unreadable problem => problem.message

def CollectFailure.message (failure : CollectFailure) : String := "I/O error: " ++ failure.reason

/-- Whether a path has the extension of descriptor files. -/
def isDescriptorPath (path : String) : Bool :=
  PathName.extension? path == some descriptorExtension

/-- The files that one named path stands for. -/
def filesBelow (disk : Disk) (path : String) : Except CollectFailure (List String) :=
  match disk.kind? path with
  | none => .error (.missing path)
  | some .file => .ok [path]
  | some .other => .ok []
  | some .directory =>
      match disk.walk path with
      | .error problem => .error (.unreadable problem)
      | .ok files => .ok (files.filter isDescriptorPath)

/-- The files that named paths stand for, in order and each once. -/
def collect (disk : Disk) (paths : List String) : Except CollectFailure (List String) :=
  (paths.mapM (filesBelow disk)).map fun files => PathName.sorted files.flatten

end NodeDescriptor
