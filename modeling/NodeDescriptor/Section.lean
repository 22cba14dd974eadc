import NodeDescriptor.Keyword

/-!
# Attribute sections

A node has three dictionaries of attributes: what it reads, what it produces, and what it keeps
between evaluations.
-/

set_option autoImplicit false

namespace NodeDescriptor

/-- A section of attributes. -/
inductive Section where
  | inputs
  | outputs
  | state
  deriving DecidableEq

instance : Keyword Section where
  all := [.inputs, .outputs, .state]
  word
    | .inputs => "inputs"
    | .outputs => "outputs"
    | .state => "state"
  complete value := by cases value <;> decide
  distinct := by decide

end NodeDescriptor
