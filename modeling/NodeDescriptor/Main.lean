import NodeDescriptor.Command.Run
import Std.Data.HashMap

/-!
# The program

The command line program. It looks up everything that a request may ask of the file system,
hands the answers over as a disk, and prints what the command answers.
-/

set_option autoImplicit false

open NodeDescriptor

namespace NodeDescriptor.Snapshot

/-- The problem that the system numbers; the sign of the number does not matter. -/
def problemOfNumber? (number : UInt32) : Option FileProblem :=
  match (min number (0 - number)).toNat with
  | 2 => some .notFound
  | 13 => some (.other "Permission denied (os error 13)")
  | 20 => some .notDirectory
  | 21 => some .isDirectory
  | 36 => some .nameTooLong
  | 40 => some .tooManyLinks
  | _ => none

/-- The problem behind a system error. -/
def problemOf (error : IO.Error) : FileProblem :=
  let numbered :=
    match error with
    | .noFileOrDirectory _ number _ => problemOfNumber? number
    | .inappropriateType _ number _ => problemOfNumber? number
    | .invalidArgument _ number _ => problemOfNumber? number
    | .permissionDenied _ number _ => problemOfNumber? number
    | _ => none
  numbered.getD (.other (toString error))

/-- Run an action and turn a system error into a problem. -/
def attempt {α : Type} (action : IO α) : IO (Except FileProblem α) := do
  try
    return .ok (← action)
  catch error =>
    return .error (problemOf error)

/-- A path as the system takes it. -/
def given (path : String) := (IO.FS.DirEntry.mk path "").root

/-- What a path leads to. -/
def kind (path : String) : IO (Except FileProblem FileKind) := attempt do
  match (← (given path).metadata).type with
  | .dir => return .directory
  | .file => return .file
  | _ => return .other

/-- The real path behind a path. -/
def realPlace (path : String) : IO (Except FileProblem String) := attempt do
  return toString (← IO.FS.realPath path)

/-- The content of the file that a path leads to. -/
def content (path : String) : IO (Except FileProblem ByteArray) := do
  if let .ok .directory ← kind path then return .error .isDirectory
  attempt (IO.FS.readBinFile path)

/-- The names in the directory that a path leads to. -/
def names (path : String) : IO (Except FileProblem (List String)) := attempt do
  return (← (given path).readDir).toList.map fun entry => entry.fileName

mutual

/-- The regular files below a directory, which is really at a place. The real paths of the
directories around it, and its own, are in `ancestors`. -/
partial def walk (ancestors : List String) (place path : String) :
    IO (Except FileProblem (List String)) := do
  match ← names path with
  | .error problem => return .error problem
  | .ok names =>
      let mut files : List String := []
      for name in names do
        match ← visit ancestors place path name with
        | .error problem => return .error problem
        | .ok found => files := files ++ found
      return .ok files

/-- The regular files at and below a member of a directory. Only directories and links are looked up
by their paths. The types that come with a listing are not to be had here. They are asked for at the
real place of the directory, so a directory that may be listed but not searched is a problem. -/
partial def visit (ancestors : List String) (place path name : String) :
    IO (Except FileProblem (List String)) := do
  let inner := PathName.join path name
  match ← attempt (given (PathName.join place name)).symlinkMetadata with
  | .error problem => return .error problem
  | .ok metadata =>
      match metadata.type with
      | .file => return .ok [inner]
      | .other => return .ok []
      | .dir =>
          match ← realPlace inner with
          | .error problem => return .error problem
          | .ok target => walk (target :: ancestors) target inner
      | .symlink =>
          match ← kind inner, ← realPlace inner with
          | .ok .file, _ => return .ok [inner]
          | .ok .other, _ => return .ok []
          | .ok .directory, .ok target =>
              if ancestors.contains target then return .error (.endlessLink inner)
              walk (target :: ancestors) target inner
          | .error problem, _ | _, .error problem => return .error problem

end

/-- The answers that a request may ask for. -/
structure Answers where
  kinds : Std.HashMap String FileKind
  walks : Std.HashMap String (Except FileProblem (List String))
  contents : Std.HashMap String (Except FileProblem ByteArray)

/-- The answers as a disk. -/
def Answers.disk (answers : Answers) : Disk where
  kind? path := answers.kinds[path]?
  walk path := (answers.walks[path]?).getD (.error .notFound)
  content path := (answers.contents[path]?).getD (.error .notFound)

/-- Look up a path that is named as a root. -/
def addRoot (answers : Answers) (path : String) : IO Answers := do
  match ← kind path with
  | .error _ => return answers
  | .ok .directory =>
      let below ← match ← realPlace path with
        | .error problem => pure (.error problem)
        | .ok place => walk [place] place path
      let mut contents := answers.contents
      for file in (below.toOption.getD []).filter isDescriptorPath do
        contents := contents.insert file (← content file)
      return {
        kinds := answers.kinds.insert path .directory
        walks := answers.walks.insert path below
        contents }
  | .ok .other => return { answers with kinds := answers.kinds.insert path .other }
  | .ok .file =>
      return { answers with
        kinds := answers.kinds.insert path .file
        contents := answers.contents.insert path (← content path) }

/-- Everything that the arguments may ask for. -/
def ofArguments (arguments : List String) : IO Answers := do
  let mut answers : Answers := ⟨∅, ∅, ∅⟩
  match Arguments.read? arguments with
  | some (.check request) =>
      if let some path := request.config then
        answers := { answers with contents := answers.contents.insert path (← content path) }
      for path in request.paths do
        answers ← addRoot answers path
      return answers
  | _ => return answers

end NodeDescriptor.Snapshot

/-- Run the program. -/
def main (arguments : List String) : IO UInt32 := do
  let answers ← Snapshot.ofArguments arguments
  let output := Command.runArguments answers.disk arguments
  IO.print output.text
  if let some line := output.errorLine? then IO.eprintln line
  if (Arguments.read? arguments).isNone then
    for line in Command.helpLines do IO.eprintln line
  return output.exitCode.toUInt32
