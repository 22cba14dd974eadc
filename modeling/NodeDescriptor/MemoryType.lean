import NodeDescriptor.Keyword

/-!
# Memory types

Where the data of an attribute or of a whole node lives.
-/

set_option autoImplicit false

namespace NodeDescriptor

/-- Where data lives. -/
inductive MemoryType where
  | cpu
  | cuda
  | any
  deriving DecidableEq

instance : Keyword MemoryType where
  all := [.cpu, .cuda, .any]
  word
    | .cpu => "cpu"
    | .cuda => "cuda"
    | .any => "any"
  complete value := by cases value <;> decide
  distinct := by decide

end NodeDescriptor
