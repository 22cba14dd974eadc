import NodeDescriptor.Disk.Basic
import NodeDescriptor.Disk.Path

/-!
# Disks and their directories

A disk answers from directories that list their members. Two things are relied on: a walk that comes
to an end has listed the regular files below its directory and nothing else, and while a program
runs nothing changes, so that the path of a listed file leads to this file if it leads anywhere.

It need not lead anywhere. What is in a directory can be listed although the path of a member is too
long to be looked up, or although nobody is allowed to look it up.

Names that are no text can be written with one character for each byte. Paths are only taken apart
at slashes and points and compared by their characters, so the same holds of them.
-/

set_option autoImplicit false

namespace NodeDescriptor

/-- What a directory says of a member. Of a link it says no more than that it is one. -/
inductive MemberKind where
  | file
  | directory
  | link
  | other
  deriving DecidableEq

namespace Disk

/-- There is a regular file with the second path below the directory with the first: in the
directory itself, or in one that is in it, where links stand for what they lead to. -/
inductive Below (disk : Disk) (lists : String → String → MemberKind → Prop) :
    String → String → Prop where
  | file {path name : String} (listed : lists path name .file) :
      Below disk lists path (PathName.join path name)
  | linkedFile {path name : String} (listed : lists path name .link)
      (leads : disk.kind? (PathName.join path name) = some .file) :
      Below disk lists path (PathName.join path name)
  | directory {path name file : String} (listed : lists path name .directory)
      (below : Below disk lists (PathName.join path name) file) : Below disk lists path file
  | linkedDirectory {path name file : String} (listed : lists path name .link)
      (leads : disk.kind? (PathName.join path name) = some .directory)
      (below : Below disk lists (PathName.join path name) file) : Below disk lists path file

/-- The disk answers from directories: `lists path name kind` says that the directory with this path
lists a member with this name and kind. -/
structure Reflects (disk : Disk) (lists : String → String → MemberKind → Prop) : Prop where
  /-- A walk that comes to an end lists every regular file below its directory. -/
  mem_walk_iff {root path : String} {files : List String}
      (leads : disk.kind? root = some .directory) (walked : disk.walk root = .ok files) :
    path ∈ files ↔ disk.Below lists root path
  /-- The path of a regular file leads to nothing else. -/
  kind?_file {path name : String} {kind : FileKind} (listed : lists path name .file)
      (leads : disk.kind? (PathName.join path name) = some kind) : kind = .file

variable {disk : Disk} {lists : String → String → MemberKind → Prop} {root path : String}
  {kind : FileKind}

/-- What is found below a directory is a regular file for everyone who can look it up. -/
theorem Below.kind_eq_file (below : disk.Below lists root path) (reflects : disk.Reflects lists)
    (leads : disk.kind? path = some kind) : kind = .file := by
  induction below with
  | file listed => exact reflects.kind?_file listed leads
  | linkedFile _ found => exact Option.some.inj (leads.symm.trans found)
  | directory _ _ ih => exact ih leads
  | linkedDirectory _ _ _ ih => exact ih leads

end Disk

end NodeDescriptor
