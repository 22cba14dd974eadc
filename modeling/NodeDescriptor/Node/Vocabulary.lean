import NodeDescriptor.Keyword

/-!
# Node vocabularies

The closed lists of words that fields of a node take: the language of the implementation, the
artifacts that may be left out, and the kind of pointer under which device arrays are handed on.
-/

set_option autoImplicit false

namespace NodeDescriptor

/-- The language that a node is implemented in. -/
inductive Language where
  | cpp
  | python
  deriving DecidableEq

instance : Keyword Language where
  all := [.cpp, .python]
  word
    | .cpp => "c++"
    | .python => "python"
  complete value := by cases value <;> decide
  distinct := by decide

/-- Something made for a node that the node may be exempt from. -/
inductive Artifact where
  | cpp
  | docs
  | icon
  | python
  | template
  | tests
  | usd
  deriving DecidableEq

instance : Keyword Artifact where
  all := [.cpp, .docs, .icon, .python, .template, .tests, .usd]
  word
    | .cpp => "c++"
    | .docs => "docs"
    | .icon => "icon"
    | .python => "python"
    | .template => "template"
    | .tests => "tests"
    | .usd => "usd"
  complete value := by cases value <;> decide
  distinct := by decide

/-- The kind of pointer under which device arrays are handed on. -/
inductive CudaPointers where
  | cuda
  | cpu
  deriving DecidableEq

instance : Keyword CudaPointers where
  all := [.cuda, .cpu]
  word
    | .cuda => "cuda"
    | .cpu => "cpu"
  complete value := by cases value <;> decide
  distinct := by decide

end NodeDescriptor
