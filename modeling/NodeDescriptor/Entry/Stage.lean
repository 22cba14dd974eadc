import NodeDescriptor.Entry.AttributeSections
import NodeDescriptor.Entry.Exclude
import NodeDescriptor.Entry.RequiredFields
import NodeDescriptor.Entry.SchedulingList
import NodeDescriptor.Entry.Shorthand
import NodeDescriptor.Entry.TestList

/-!
# Stages

The checks of an entry are grouped in six stages. Each stage takes the node as the stages
before it left it and fills in its own part; none of them stops the others.
-/

set_option autoImplicit false

namespace NodeDescriptor

/-- A group of checks of an entry. -/
inductive Stage where
  | requiredFields
  | shorthand
  | exclude
  | scheduling
  | attributes
  | tests
  deriving DecidableEq

namespace Stage

instance : Keyword Stage where
  all := [.requiredFields, .shorthand, .exclude, .scheduling, .attributes, .tests]
  word
    | .requiredFields => "Required Fields"
    | .shorthand => "Shorthand Normalization"
    | .exclude => "Exclude Validation"
    | .scheduling => "Scheduling Validation"
    | .attributes => "Attribute Validation"
    | .tests => "Test References"
  complete value := by cases value <;> decide
  distinct := by decide

/-- Run the checks of a stage. -/
def run (stage : Stage) (options : Options) (entry : Entry) (node : Node) : Checked Node :=
  match stage with
  | .requiredFields => RequiredFields.check options entry node
  | .shorthand => Shorthand.check options entry node
  | .exclude => ExcludeList.check entry node
  | .scheduling => SchedulingList.check entry node
  | .attributes => AttributeSections.check entry node
  | .tests => TestList.check entry node

/-- Run stages one after another. -/
def runAll (stages : List Stage) (options : Options) (entry : Entry) (node : Node) :
    Checked Node :=
  match stages with
  | [] => .clean node
  | stage :: rest =>
      let first := stage.run options entry node
      let others := runAll rest options entry first.value
      ⟨others.value, first.findings ++ others.findings⟩

end Stage

end NodeDescriptor
