import NodeDescriptor.Entry.Basic

/-!
# Required and single-valued fields

The fields that every node has, and those that take one word, number or flag. A field that
cannot be read leaves the node as it was, apart from the comment and the singleton flag, which
are always set.
-/

set_option autoImplicit false

namespace NodeDescriptor

/-- What was read of the required and single-valued fields. -/
structure RequiredFields where
  comment : Checked (Option String)
  description : Checked (Option (List String))
  version : Checked (Option UInt32)
  language : Checked (Option Language)
  uiName : Checked (Option String)
  categories : Checked (Option Json)
  metadata : Checked (Option Metadata)
  memoryType : Checked (Option (Option MemoryType))
  cudaPointers : Checked (Option (Option CudaPointers))
  singleton : Checked (Option Bool)

namespace RequiredFields

/-! ## Reading -/

/-- The version that a value stands for: a 32-bit integer that is not zero. -/
def version? (value : Json) : Option UInt32 :=
  (value.asNat?.filter fun version => 1 ≤ version && version < UInt32.size).map UInt32.ofNat

/-- Read a name of at least two characters. -/
def checkUiName : Json → Checked (Option String)
  | .string name =>
      if 2 ≤ name.length then .clean (some name)
      else .refused (.wrongShape "a string of at least 2 characters")
  | _ => .refused (.wrongShape "a string")

/-- Read the author, which is kept in the metadata. -/
def checkAuthor (members : List (String × Json)) : Checked (Option String) :=
  Member.optional members "author" Member.string

/-- Read metadata without its comments. -/
def checkMetadata : Json → Checked (Option Metadata)
  | .object members =>
      ⟨some (Dict.ofList (Member.withoutComments members)), (checkAuthor members).findings⟩
  | _ => .refused (.wrongShape "an object")

/-- Read the fields of an entry. -/
def ofEntry (options : Options) (entry : Entry) : RequiredFields :=
  let members := entry.members
  { comment := Member.optional members "$comment" Member.string
    description := Member.required members "description" Member.strings
    version := Member.withDefault members "version" 1 (Member.form version? "an integer >= 1")
    language := Member.withDefault members "language" .cpp
      (Member.form Record.keyword? "\"c++\" or \"python\"")
    uiName := Member.required members "uiName" checkUiName
    categories := Member.required members "categories" fun value => .clean (some value)
    metadata :=
      if options.requireMetadata then Member.required members "metadata" checkMetadata
      else Member.optional members "metadata" checkMetadata
    memoryType := Member.optional members "memoryType" (Member.word "one of cpu, cuda, any")
    cudaPointers := Member.optional members "cudaPointers" (Member.word "\"cuda\" or \"cpu\"")
    singleton := Member.optional members "singleton" Member.boolean }

def findings (fields : RequiredFields) : List Finding :=
  fields.comment.findings ++ fields.description.findings ++ fields.version.findings ++
    fields.language.findings ++ fields.uiName.findings ++ fields.categories.findings ++
    fields.metadata.findings ++ fields.memoryType.findings ++ fields.cudaPointers.findings ++
    fields.singleton.findings

/-! ## Writing -/

/-- Fill in what was read. -/
def fill (fields : RequiredFields) (node : Node) : Node :=
  { node with
    comment := fields.comment.value
    description := fields.description.value.getD node.description
    version := fields.version.value.getD node.version
    language := fields.language.value.getD node.language
    uiName := fields.uiName.value.getD node.uiName
    metadata := fields.metadata.value.getD node.metadata
    memoryType := fields.memoryType.value.getD node.memoryType
    cudaPointers := fields.cudaPointers.value.getD node.cudaPointers
    singleton := fields.singleton.value.getD false }

def check (options : Options) (entry : Entry) (node : Node) : Checked Node :=
  let fields := ofEntry options entry
  ⟨fields.fill node, fields.findings⟩

end RequiredFields

end NodeDescriptor
