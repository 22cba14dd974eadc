/-!
# Field paths

A field path leads from the document to one of its values by object keys and list indices. Its
text joins keys by points and writes indices in brackets (`Add.inputs.a.type[2]`). No point is
written while the text so far is empty, so the path of a top-level key is the key itself.
-/

set_option autoImplicit false

namespace NodeDescriptor

/-- One step of a path. -/
inductive PathStep where
  | key (name : String)
  | index (position : Nat)
  deriving DecidableEq

/-- The steps from the document to a value. -/
structure FieldPath where
  steps : List PathStep
  deriving DecidableEq

/-- The text of a path, extended by a step. -/
def PathStep.append (before : String) : PathStep → String
  | .key name => if before = "" then name else before ++ "." ++ name
  | .index position => before ++ "[" ++ toString position ++ "]"

namespace FieldPath

/-- The path of the document. -/
def root : FieldPath := ⟨[]⟩

/-- The path of a top-level key. -/
def entry (name : String) : FieldPath := ⟨[.key name]⟩

/-- The path of a value inside the value here, whose path from here is `inner`. -/
def inside (path inner : FieldPath) : FieldPath := ⟨path.steps ++ inner.steps⟩

/-- The path of a member of the object here. -/
def key (path : FieldPath) (name : String) : FieldPath := ⟨path.steps ++ [.key name]⟩

/-- The path of an item of the list here. -/
def index (path : FieldPath) (position : Nat) : FieldPath := ⟨path.steps ++ [.index position]⟩

def text (path : FieldPath) : String := path.steps.foldl PathStep.append ""

@[simp] theorem text_root : root.text = "" := rfl

@[simp] theorem text_entry (name : String) : (entry name).text = name := rfl

theorem text_key (path : FieldPath) (name : String) :
    (path.key name).text = if path.text = "" then name else path.text ++ "." ++ name := by
  simp only [text, key, List.foldl_append, List.foldl_cons, List.foldl_nil, PathStep.append]
  rfl

theorem text_index (path : FieldPath) (position : Nat) :
    (path.index position).text = path.text ++ "[" ++ toString position ++ "]" := by
  simp [text, index, PathStep.append]

end FieldPath

end NodeDescriptor
