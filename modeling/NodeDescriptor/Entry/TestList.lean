import NodeDescriptor.Entry.Basic

/-!
# Tests of an entry

A test object refers to attributes in two ways: by an object of values for a section
(`"inputs"` with members), or by a single value under a section word, a colon and a name
(`"inputs:a"`). Both are read into the same list of references, in the order in which they are
written. Every reference has to name something that the entry declares in that section.
-/

set_option autoImplicit false

namespace NodeDescriptor

/-! ## References -/

/-- The words under which a test gives values. -/
inductive TestWord where
  | inputs
  | outputs
  | state
  | stateGet
  | stateSet
  deriving DecidableEq

namespace TestWord

instance : Keyword TestWord where
  all := [.inputs, .outputs, .state, .stateGet, .stateSet]
  word
    | .inputs => "inputs"
    | .outputs => "outputs"
    | .state => "state"
    | .stateGet => "state_get"
    | .stateSet => "state_set"
  complete value := by cases value <;> decide
  distinct := by decide

/-- The section that names under this word belong to. -/
def part : TestWord → Section
  | .inputs => .inputs
  | .outputs => .outputs
  | .state | .stateGet | .stateSet => .state

/-- The values of the test case that are given under this word. -/
def values : TestWord → TestValues
  | .inputs => .inputs
  | .outputs => .outputs
  | .state | .stateGet => .state
  | .stateSet => .stateSet

end TestWord

/-- A value that a test gives to an attribute. -/
structure TestReference where
  word : TestWord
  name : String
  value : Json

namespace TestList

/-! ## Reading -/

/-- Read a description: a string, or the lines of one. -/
def checkDescription (value : Json) : Checked (Option String) :=
  (Member.strings value).map fun lines => lines.map (Text.joined "\n")

/-- The references under a section word. -/
def nestedReferences (word : TestWord) : Json → Checked (List TestReference)
  | .object members =>
      .clean ((Member.withoutComments members).map fun member => ⟨word, member.1, member.2⟩)
  | _ => ⟨[], [.here (.wrongShape "an object of attribute values")]⟩

/-- The reference under a section word, a colon and a name. -/
def namespacedReference? (key : String) (value : Json) : Option TestReference :=
  (Text.splitFirst? ':' key.toList).bind fun (word, name) =>
    (Keyword.ofWord? (String.ofList word)).map fun word => ⟨word, String.ofList name, value⟩

/-- The references in a member of a test object, and what is wrong with the member. -/
def readMember (member : String × Json) : Checked (List TestReference) :=
  let (key, value) := member
  if key = "description" then
    ⟨[], ((checkDescription value).inside (.entry key)).findings⟩
  else if key = "setup" then .clean []
  else
    match Keyword.ofWord? key with
    | some word => (nestedReferences word value).inside (.entry key)
    | none => .clean (namespacedReference? key value).toList

/-- The finding about a reference to something that the entry does not declare. -/
def referenceFinding? (entry : Entry) (reference : TestReference) : Option Finding :=
  if entry.declares reference.word.part reference.name then none
  else
    some ⟨(FieldPath.entry (Keyword.word reference.word)).key reference.name,
      .unresolvedReference (Keyword.word reference.word.part) reference.name⟩

/-- The test case that gives the values of the references. -/
def assignAll (test : TestCase) (references : List TestReference) : TestCase :=
  references.foldl
    (fun test reference => test.assign reference.word.values reference.name reference.value) test

/-- Read a test object of an entry. -/
def readTest (entry : Entry) : Json → Checked (Option TestCase)
  | .object members =>
      let outcomes := (Member.withoutComments members).map readMember
      let references := outcomes.flatMap Checked.value
      let test := { TestCase.empty with
        description := (members.lookup "description").bind fun value =>
          (checkDescription value).value
        setup := members.lookup "setup" }
      ⟨some (assignAll test references),
        outcomes.flatMap Checked.findings ++ references.filterMap (referenceFinding? entry)⟩
  | _ => .refused (.wrongShape "a test object")

/-- Read a list of tests. -/
def read (entry : Entry) : Json → Checked (Option (List TestCase))
  | .array items =>
      let outcomes := items.zipIdx.map fun item =>
        (readTest entry item.1).inside (FieldPath.root.index item.2)
      ⟨some (outcomes.filterMap Checked.value), outcomes.flatMap Checked.findings⟩
  | _ => .refused (.wrongShape "a list of test objects")

def check (entry : Entry) (node : Node) : Checked Node :=
  (Member.optional entry.members "tests" (read entry)).map fun tests =>
    { node with tests := node.tests ++ tests.getD [] }

end TestList

end NodeDescriptor
