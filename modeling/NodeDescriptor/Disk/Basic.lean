/-!
# Disks

What a program needs to know of a file system while it runs: what a path leads to, the regular
files below a directory, and the content of a file. All paths follow links. A disk does not
change, so asking twice gives the same answer.
-/

set_option autoImplicit false

namespace NodeDescriptor

/-- What a path leads to. -/
inductive FileKind where
  | file
  | directory
  /-- Neither a regular file nor a directory. -/
  | other
  deriving DecidableEq

/-- Why a file or a directory cannot be read. -/
inductive FileProblem where
  | notFound
  /-- The content is not UTF-8. -/
  | notText
  | isDirectory
  /-- A path goes on behind something that is no directory. -/
  | notDirectory
  /-- There are too many links in a path. -/
  | tooManyLinks
  /-- A path, or a name in it, is longer than any file has. -/
  | nameTooLong
  /-- There is a null character in a path. -/
  | nullInName
  /-- A link leads to a directory around it. -/
  | endlessLink (path : String)
  | other (message : String)
  deriving DecidableEq

def FileProblem.message : FileProblem → String
  | .notFound => "No such file or directory (os error 2)"
  | .notText => "stream did not contain valid UTF-8"
  | .isDirectory => "Is a directory (os error 21)"
  | .notDirectory => "Not a directory (os error 20)"
  | .tooManyLinks => "Too many levels of symbolic links (os error 40)"
  | .nameTooLong => "File name too long (os error 36)"
  | .nullInName => "file name contained an unexpected NUL byte"
  | .endlessLink path => "File system loop found: " ++ path ++ " points to an ancestor"
  | .other message => message

/-- A file system as it is seen while a program runs. -/
structure Disk where
  /-- What a path leads to, if it leads anywhere. -/
  kind? : String → Option FileKind
  /-- The paths of the regular files below a directory, beginning with the path of the
  directory as it is given. -/
  walk : String → Except FileProblem (List String)
  /-- The content of a file. -/
  content : String → Except FileProblem ByteArray

namespace Disk

def text (disk : Disk) (path : String) : Except FileProblem String :=
  match disk.content path with
  | .error problem => .error problem
  | .ok bytes =>
      match String.fromUTF8? bytes with
      | some text => .ok text
      | none => .error .notText

end Disk

end NodeDescriptor
