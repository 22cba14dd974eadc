import NodeDescriptor.Keyword

/-!
# Union groups

A union group stands for any one of several types, to be settled by whoever uses the node. Most
groups are a numeric family in one form (`integral_tuples`), some are a whole family
(`integrals`), and four have names of their own. `scalers` is an old spelling of `scalars` and
a form of its own here.
-/

set_option autoImplicit false

namespace NodeDescriptor

/-- A family of number types. -/
inductive NumericFamily where
  | integral
  | decimal
  | numeric
  deriving DecidableEq

instance : Keyword NumericFamily where
  all := [.integral, .decimal, .numeric]
  word
    | .integral => "integral"
    | .decimal => "decimal"
    | .numeric => "numeric"
  complete value := by cases value <;> decide
  distinct := by decide

/-- The form in which a group takes the types of its family. -/
inductive GroupForm where
  | scalars
  | scalers
  | tuples
  | arrayElements
  | arrays
  deriving DecidableEq

instance : Keyword GroupForm where
  all := [.scalars, .scalers, .tuples, .arrayElements, .arrays]
  word
    | .scalars => "scalars"
    | .scalers => "scalers"
    | .tuples => "tuples"
    | .arrayElements => "array_elements"
    | .arrays => "arrays"
  complete value := by cases value <;> decide
  distinct := by decide

/-- A placeholder for any type of a category. -/
inductive UnionGroup where
  | formed (family : NumericFamily) (form : GroupForm)
  | whole (family : NumericFamily)
  | matrices
  | arrayElements
  | arrays
  | strings
  deriving DecidableEq

namespace UnionGroup

/-- Every union group: family by family, then the groups with names of their own. -/
def all : List UnionGroup :=
  ((Keyword.all (α := NumericFamily)).flatMap fun family =>
    (Keyword.all (α := GroupForm)).map (UnionGroup.formed family) ++ [.whole family]) ++
    [.matrices, .arrayElements, .arrays, .strings]

def text : UnionGroup → String
  | .formed family form => Keyword.word family ++ "_" ++ Keyword.word form
  | .whole family => Keyword.word family ++ "s"
  | .matrices => "matrices"
  | .arrayElements => "array_elements"
  | .arrays => "arrays"
  | .strings => "strings"

end UnionGroup

end NodeDescriptor
