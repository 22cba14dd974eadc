import NodeDescriptor.Disk.Basic
import NodeDescriptor.Disk.Path
import NodeDescriptor.Dict

/-!
# File trees

A file system in memory: files, directories, symbolic links and devices. A place in the tree is
the list of names that lead to it from the root without any link; two paths that lead to the
same place are the same file. The root is its own parent. A path begins at the root if it begins
with a slash, and otherwise at the place of the working directory.

A path is followed from its beginning each time it is used, and the limits hold for all of it:
the bytes in it, the bytes in one name, and the links on the way. So a file that is found below
a directory can have a path that leads nowhere, though the path of the directory is good.

Walking a directory follows links. A link to a directory that is being walked would not come to
an end and is a problem, as is a link that leads nowhere.

A file tree is one kind of disk, and simpler than others: nobody is denied anything in it, and all
names are texts. What holds of every disk is said of `Disk`.
-/

set_option autoImplicit false

namespace NodeDescriptor

/-- A file, a directory, a symbolic link, or a device with what can be read from it. -/
inductive FileTree where
  | file (content : ByteArray)
  | directory (members : List (String × FileTree))
  | link (target : String)
  | device (content : ByteArray)

namespace FileTree

/-! ## Places -/

/-- The members of a directory. -/
def members? : FileTree → Option (List (String × FileTree))
  | .directory members => some members
  | _ => none

/-- What is at a place. -/
def at? (tree : FileTree) : List String → Option FileTree
  | [] => some tree
  | name :: rest => (tree.members?.bind fun members => members.lookup name).bind (at? · rest)

/-- Put something at a place; directories that are missing on the way are made. -/
def put (tree : FileTree) (item : FileTree) : List String → FileTree
  | [] => item
  | name :: rest =>
      let members := tree.members?.getD []
      let inner := (members.lookup name).getD (.directory [])
      .directory (Entries.put members name (inner.put item rest))

/-- The most links that are followed for one path. -/
def linkLimit : Nat := 40

/-- The most bytes in a name. -/
def nameLimit : Nat := 255

/-- The most bytes in a path. -/
def pathLimit : Nat := 4095

/-- Where a path begins: at the root, or else at a place. -/
def origin (place : List String) (path : String) : List String :=
  if path.toList.head? = some '/' then [] else place

/-- Follow pieces of a path from a place, with at most `links` links on the way. -/
def follow (tree : FileTree) (links : Nat) (place : List String) (pieces : List String) :
    Except FileProblem (List String) :=
  match pieces with
  | [] => .ok place
  | piece :: rest =>
      match (tree.at? place).bind members? with
      | none => .error .notDirectory
      | some members =>
          if piece = "" ∨ piece = "." then follow tree links place rest
          else if piece = ".." then follow tree links place.dropLast rest
          else if piece.utf8ByteSize > nameLimit then .error .nameTooLong
          else
            match members.lookup piece with
            | none => .error .notFound
            | some (.link target) =>
                match links with
                | 0 => .error .tooManyLinks
                | links + 1 =>
                    follow tree links (origin place target) (PathName.pieces target ++ rest)
            | some _ => follow tree links (place ++ [piece]) rest
termination_by (links, pieces.length)

/-- The place that a path leads to from a working directory. -/
def locate (tree : FileTree) (home : List String) (path : String) :
    Except FileProblem (List String) :=
  if path = "" then .error .notFound
  else if '\x00' ∈ path.toList then .error .nullInName
  else if path.utf8ByteSize > pathLimit then .error .nameTooLong
  else tree.follow linkLimit (origin home path) (PathName.pieces path)

/-! ## Writing -/

/-- The place that pieces of a path lead to from a place, and the tree in which the directories
that are missing on the way have been made. -/
def enter (tree : FileTree) (place : List String) :
    List String → Except FileProblem (FileTree × List String)
  | [] => .ok (tree, place)
  | piece :: rest =>
      if piece = "" ∨ piece = "." then enter tree place rest
      else if piece = ".." then enter tree place.dropLast rest
      else
        match tree.at? (place ++ [piece]) with
        | none => enter (tree.put (.directory []) (place ++ [piece])) (place ++ [piece]) rest
        | some _ => do
            let inner ← tree.follow linkLimit place [piece]
            if ((tree.at? inner).bind members?).isSome then enter tree inner rest
            else .error .notDirectory

/-- The place that a name in the directory at a place stands for, where links are followed to
the end even when nothing is there yet. -/
def landing (tree : FileTree) (links : Nat) (place : List String) (name : String) :
    Except FileProblem (List String) :=
  match tree.at? (place ++ [name]), links with
  | some (.link _), 0 => .error .tooManyLinks
  | some (.link target), links + 1 => do
      let pieces := PathName.pieces target
      landing tree links (← tree.follow linkLimit (origin place target) pieces.dropLast)
        (pieces.getLast?.getD "")
  | _, _ => .ok (place ++ [name])

/-- Write something under a path, with the directories on the way. A file that is written under
the path of a link replaces what the link leads to. -/
def write (tree : FileTree) (home : List String) (path : String) (item : FileTree) :
    Except FileProblem FileTree := do
  let pieces := PathName.pieces path
  let name := pieces.getLast?.getD ""
  let (tree, place) ← tree.enter (origin home path) pieces.dropLast
  match item with
  | .file _ => return tree.put item (← tree.landing linkLimit place name)
  | .directory _ => return (← tree.enter place [name]).1
  | .link _ | .device _ => return tree.put item (place ++ [name])

/-! ## Walking -/

/-- The answers of a function for all items, one after another, or the first problem. -/
def gather {α : Type} (visit : α → Except FileProblem (List String)) :
    List α → Except FileProblem (List String)
  | [] => .ok []
  | item :: rest => return (← visit item) ++ (← gather visit rest)

/-- The regular files below the directory at a place, with their paths below `path`. The places
of the directories around it, and its own, are in `ancestors`. Directories are entered, and
links followed, by their whole paths. -/
def walkFrom (tree : FileTree) (home : List String) (steps : Nat)
    (ancestors : List (List String)) (place : List String) (path : String) :
    Except FileProblem (List String) :=
  match steps with
  | 0 => .error .nameTooLong
  | steps + 1 =>
      gather
        (fun (name, item) =>
          let inner := PathName.join path name
          match item with
          | .file _ => .ok [inner]
          | .device _ => .ok []
          | .directory _ => do
              let target ← tree.locate home inner
              walkFrom tree home steps (target :: ancestors) target inner
          | .link _ => do
              let target ← tree.locate home inner
              match tree.at? target with
              | some (.directory _) =>
                  if target ∈ ancestors then .error (.endlessLink inner)
                  else walkFrom tree home steps (target :: ancestors) target inner
              | some (.file _) => .ok [inner]
              | _ => .ok [])
        (((tree.at? place).bind members?).getD [])

/-! ## As a disk -/

/-- What a path leads to. -/
def kind? (tree : FileTree) (home : List String) (path : String) : Option FileKind :=
  match tree.locate home path with
  | .error _ => none
  | .ok place =>
      match tree.at? place with
      | some (.file _) => some .file
      | some (.directory _) => some .directory
      | some (.device _) => some .other
      | _ => none

/-- The content of the file that a path leads to. -/
def content (tree : FileTree) (home : List String) (path : String) :
    Except FileProblem ByteArray := do
  match tree.at? (← tree.locate home path) with
  | some (.file content) | some (.device content) => .ok content
  | some (.directory _) => .error .isDirectory
  | _ => .error .notFound

/-- The regular files below the directory that a path leads to. Each directory on the way down
makes the path longer, so there are fewer of them than a path has bytes. -/
def walk (tree : FileTree) (home : List String) (path : String) :
    Except FileProblem (List String) := do
  let place ← tree.locate home path
  tree.walkFrom home (pathLimit + 1) [place] place path

/-- The tree as a disk that is seen from a working directory. -/
def disk (tree : FileTree) (home : List String) : Disk :=
  ⟨tree.kind? home, tree.walk home, tree.content home⟩

end FileTree

end NodeDescriptor
