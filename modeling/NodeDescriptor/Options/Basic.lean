import NodeDescriptor.Icon.Basic

/-!
# Options

What a user may choose about checking: the colors of icons that name none, whether nodes must
have metadata, whether warnings reject a document, and how a batch is spread over threads. The
last choice has no influence on any answer.
-/

set_option autoImplicit false

namespace NodeDescriptor

/-- The choices of a user. -/
structure Options where
  iconColors : IconColors
  requireMetadata : Bool
  strict : Bool
  parallel : Bool
  /-- The most threads a batch may use; zero for as many as there are. -/
  maxThreads : UInt64
  deriving DecidableEq

namespace Options

/-- The choices where the user makes none. -/
def standard : Options where
  iconColors := .standard
  requireMetadata := true
  strict := false
  parallel := true
  maxThreads := 0

instance : Inhabited Options := ⟨standard⟩

def toJson (options : Options) : Json :=
  .object [("default_icon_colors", options.iconColors.toJson),
    ("require_node_metadata", .bool options.requireMetadata),
    ("strict", .bool options.strict),
    ("parallel", .bool options.parallel),
    ("max_threads", .ofNat options.maxThreads.toNat)]

def loadThreads? (value : Json) : Option UInt64 :=
  (value.asNat?.filter (· < UInt64.size)).map UInt64.ofNat

def fields : List String :=
  ["default_icon_colors", "require_node_metadata", "strict", "parallel", "max_threads"]

def ofJson? (value : Json) : Option Options := do
  let members ← Record.open? fields value
  let flag := fun name default => Record.withDefault? members name default Json.asBool?
  return {
    iconColors :=
      ← Record.withDefault? members "default_icon_colors" .standard IconColors.ofJson?
    requireMetadata := ← flag "require_node_metadata" standard.requireMetadata
    strict := ← flag "strict" standard.strict
    parallel := ← flag "parallel" standard.parallel
    maxThreads := ← Record.withDefault? members "max_threads" standard.maxThreads loadThreads? }

end Options

end NodeDescriptor
