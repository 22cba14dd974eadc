import NodeDescriptor.Text.Split

/-!
# File paths

Paths are texts, but they are compared by their components: repeated slashes, a slash at the
end and single points inside a path do not matter, while a point at the very beginning is a
component of its own. `PathName.before` is the order in which files are listed; under it
`a/b` comes before `a-b`, because the components `a` and `a-b` are compared and not the texts.
-/

set_option autoImplicit false

namespace NodeDescriptor

/-- One component of a path. -/
inductive PathComponent where
  | root
  | current
  | parent
  | name (text : String)
  deriving DecidableEq

namespace PathComponent

/-- The rank of a component among the kinds of components. -/
def rank : PathComponent → Nat
  | .root => 0
  | .current => 1
  | .parent => 2
  | .name _ => 3

def text : PathComponent → String
  | .name text => text
  | _ => ""

/-- Whether a component comes before another: by kind, and names by their characters. -/
def before (a b : PathComponent) : Bool :=
  a.rank < b.rank || (a.rank == b.rank && decide (a.text < b.text))

end PathComponent

namespace PathName

/-- The pieces of a path between slashes. -/
def pieces (path : String) : List String :=
  (Text.splitAll '/' path.toList).map String.ofList

/-- The component that a piece stands for behind the beginning of a path. -/
def component? (piece : String) : Option PathComponent :=
  if piece = "" ∨ piece = "." then none
  else if piece = ".." then some .parent
  else some (.name piece)

/-- The components of a path. -/
def components (path : String) : List PathComponent :=
  match pieces path with
  | "" :: rest => (if path = "" then [] else [.root]) ++ rest.filterMap component?
  | "." :: rest => .current :: rest.filterMap component?
  | all => all.filterMap component?

/-- Whether a list of components comes before another: the first difference decides, and a
list comes before its extensions. -/
def componentsBefore : List PathComponent → List PathComponent → Bool
  | _, [] => false
  | [], _ :: _ => true
  | a :: as, b :: bs => a.before b || (a == b && componentsBefore as bs)

/-- Whether a path comes before another. -/
def before (a b : String) : Bool := componentsBefore (components a) (components b)

/-- Whether two paths have the same components. -/
def same (a b : String) : Bool := components a == components b

/-- Drop every path that is the same as the one before it. -/
def withoutRepeats : List String → List String
  | [] => []
  | path :: rest =>
      match withoutRepeats rest with
      | [] => [path]
      | next :: others => if same path next then path :: others else path :: next :: others

/-- The paths in order, of equal ones only the first. -/
def sorted (paths : List String) : List String :=
  withoutRepeats (paths.mergeSort fun a b => !before b a)

/-- The path of a member of a directory. -/
def join (directory name : String) : String :=
  if directory.toList.getLast? = some '/' then directory ++ name else directory ++ "/" ++ name

/-- What follows the last point of a file name that does not begin with its only point. -/
def extension? (path : String) : Option String :=
  match (components path).getLast? with
  | some (.name text) =>
      match (Text.splitAll '.' text.toList).reverse with
      | [] | [_] => none
      | last :: front => if front = [[]] then none else some (String.ofList last)
  | _ => none

end PathName

end NodeDescriptor
