import NodeDescriptor.Json.Record

/-!
# Test cases

A test case gives values to attributes, under their names: inputs, the state before, and the
outputs and the state that are expected. The setup of a scene is handed on as it is.
-/

set_option autoImplicit false

namespace NodeDescriptor

/-- The attribute values that a test refers to. -/
inductive TestValues where
  | inputs
  | outputs
  /-- The state expected afterwards. -/
  | state
  /-- The state set up beforehand. -/
  | stateSet
  deriving DecidableEq

/-- One test of a node. -/
structure TestCase where
  description : Option String
  inputs : Dict Json
  outputs : Dict Json
  state : Dict Json
  stateSet : Dict Json
  setup : Option Json
  deriving DecidableEq

namespace TestCase

def empty : TestCase := ⟨none, .empty, .empty, .empty, .empty, none⟩

def values (test : TestCase) : TestValues → Dict Json
  | .inputs => test.inputs
  | .outputs => test.outputs
  | .state => test.state
  | .stateSet => test.stateSet

/-- Give a value of some kind to an attribute. -/
def assign (test : TestCase) (kind : TestValues) (name : String) (value : Json) : TestCase :=
  match kind with
  | .inputs => { test with inputs := test.inputs.insert name value }
  | .outputs => { test with outputs := test.outputs.insert name value }
  | .state => { test with state := test.state.insert name value }
  | .stateSet => { test with stateSet := test.stateSet.insert name value }

/-! ## JSON -/

/-- The fields of a test case, in the order in which they are written. -/
def fields : List String := ["description", "inputs", "outputs", "state", "stateSet", "setup"]

def toJson (test : TestCase) : Json :=
  .object (
    Record.field? "description" test.description .string ++
    Record.dictField "inputs" test.inputs id ++
    Record.dictField "outputs" test.outputs id ++
    Record.dictField "state" test.state id ++
    Record.dictField "stateSet" test.stateSet id ++
    Record.field? "setup" test.setup id)

def ofJson? (value : Json) : Option TestCase := do
  let members ← Record.open? fields value
  let values := fun name => Record.withDefault? members name .empty (Record.dict? some)
  return {
    description := ← Record.optional? members "description" Json.asString?
    inputs := ← values "inputs"
    outputs := ← values "outputs"
    state := ← values "state"
    stateSet := ← values "stateSet"
    setup := ← Record.optional? members "setup" some }

/-- The parts of a test case that are looked at in a text. -/
def layout : Layout := .ofFields fields []

end TestCase

end NodeDescriptor
