import NodeDescriptor.Diagnostic.Basic

/-!
# Checked values

A check answers a value together with everything it found wrong; it never stops early. The
path of a finding leads from the checked value to the place of the problem, and `Checked.inside`
prefixes the way to the checked value itself. So a check does not know where its value stands,
and only `Checked.diagnostics` writes the paths out.
-/

set_option autoImplicit false

namespace NodeDescriptor

/-! ## Findings -/

/-- A problem at a place inside the checked value. -/
structure Finding where
  path : FieldPath
  problem : Problem
  deriving DecidableEq

namespace Finding

/-- A finding about the checked value itself. -/
def here (problem : Problem) : Finding := ⟨.root, problem⟩

/-- The finding as seen from a value around the checked one. -/
def inside (path : FieldPath) (finding : Finding) : Finding :=
  ⟨path.inside finding.path, finding.problem⟩

def diagnostic (finding : Finding) : Diagnostic := ⟨finding.path.text, finding.problem⟩

/-- Whether the finding is an error. -/
def isError (finding : Finding) : Bool := finding.problem.kind.severity = .error

end Finding

/-! ## Checks -/

/-- A value and what was found wrong while it was made. -/
structure Checked (α : Type) where
  value : α
  findings : List Finding

namespace Checked

variable {α β : Type}

/-- A value with nothing wrong. -/
def clean (value : α) : Checked α := ⟨value, []⟩

/-- No value, because of a problem with the checked value itself. -/
def refused (problem : Problem) : Checked (Option α) := ⟨none, [.here problem]⟩

def map (f : α → β) (checked : Checked α) : Checked β := ⟨f checked.value, checked.findings⟩

/-- The outcome as seen from a value around the checked one. -/
def inside (path : FieldPath) (checked : Checked α) : Checked α :=
  ⟨checked.value, checked.findings.map (Finding.inside path)⟩

def hasErrors (checked : Checked α) : Bool := checked.findings.any Finding.isError

def diagnostics (checked : Checked α) : List Diagnostic := checked.findings.map Finding.diagnostic

end Checked

/-! ## Members of an object -/

/-- Whether a key marks a comment. -/
def isCommentKey (key : String) : Bool := key.toList.head? == some '$'

/-- A string as a list of one, or a list of strings. -/
def Json.strings? : Json → Option (List String)
  | .string text => some [text]
  | .array items => items.mapM Json.asString?
  | _ => none

namespace Member

variable {α : Type}

/-- The members that are no comments. -/
def withoutComments (members : List (String × α)) : List (String × α) :=
  members.filter fun member => !isCommentKey member.1

/-- The value in the form that is read, or the expected form in words. -/
def form (form? : Json → Option α) (expected : String) (value : Json) : Checked (Option α) :=
  match form? value with
  | some result => .clean (some result)
  | none => .refused (.wrongShape expected)

/-- Check the member `key` if it is there. -/
def optional (members : List (String × Json)) (key : String)
    (check : Json → Checked (Option α)) : Checked (Option α) :=
  match members.lookup key with
  | some value => (check value).inside (.entry key)
  | none => .clean none

/-- Check the member `key`, or take the default when it is not there. -/
def withDefault (members : List (String × Json)) (key : String) (default : α)
    (check : Json → Checked (Option α)) : Checked (Option α) :=
  match members.lookup key with
  | some value => (check value).inside (.entry key)
  | none => .clean (some default)

/-- Check the member `key`, which has to be there. -/
def required (members : List (String × Json)) (key : String)
    (check : Json → Checked (Option α)) : Checked (Option α) :=
  match members.lookup key with
  | some value => (check value).inside (.entry key)
  | none => (Checked.refused .missing).inside (.entry key)

def string : Json → Checked (Option String) := form Json.asString? "a string"

def boolean : Json → Checked (Option Bool) := form Json.asBool? "a boolean"

def strings : Json → Checked (Option (List String)) :=
  form Json.strings? "a string or a list of strings"

def object : Json → Checked (Option (List (String × Json))) := form Json.asObject? "an object"

/-- Read a string that should be a word of a closed vocabulary; a string that is not is read as
nothing. -/
def word [Keyword α] (expected : String) : Json → Checked (Option (Option α))
  | .string text =>
      let meant : Option α := Keyword.ofWord? text
      ⟨some meant, if meant.isSome then [] else [.here (.wrongShape expected)]⟩
  | _ => .refused (.wrongShape "a string")

end Member

end NodeDescriptor
