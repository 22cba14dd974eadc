import NodeDescriptor.Keyword

/-!
# Scheduling flags

A scheduling flag tells what shared data a node touches and how, or when it is to be computed.
For each of four scopes of data there is a flag for reading, one for writing, and a plain one
that covers both.
-/

set_option autoImplicit false

namespace NodeDescriptor

/-- The data that a scoped flag talks about. -/
inductive SchedulingScope where
  | global
  | static
  | topology
  | usd
  deriving DecidableEq

namespace SchedulingScope

instance : Keyword SchedulingScope where
  all := [.global, .static, .topology, .usd]
  word
    | .global => "global"
    | .static => "static"
    | .topology => "topology"
    | .usd => "usd"
  complete value := by cases value <;> decide
  distinct := by decide

end SchedulingScope

/-- What is done with the data of a scope. -/
inductive SchedulingAccess where
  | readWrite
  | read
  | write
  deriving DecidableEq

namespace SchedulingAccess

/-- Every access. -/
def all : List SchedulingAccess := [.readWrite, .read, .write]

/-- What an access adds to the word of the scope. -/
def ending : SchedulingAccess → String
  | .readWrite => ""
  | .read => "-read"
  | .write => "-write"

end SchedulingAccess

/-- A hint for the scheduler. -/
inductive SchedulingFlag where
  | touches (scope : SchedulingScope) (access : SchedulingAccess)
  | threadsafe
  | computeDefault
  | computeOnRequest
  | pure
  deriving DecidableEq

namespace SchedulingFlag

/-- The three flags of a scope. -/
def ofScope (scope : SchedulingScope) : List SchedulingFlag :=
  SchedulingAccess.all.map (touches scope)

instance : Keyword SchedulingFlag where
  all := ofScope .global ++ ofScope .static ++ [.threadsafe] ++ ofScope .topology ++
    ofScope .usd ++ [.computeDefault, .computeOnRequest, .pure]
  word
    | .touches scope access => Keyword.word scope ++ access.ending
    | .threadsafe => "threadsafe"
    | .computeDefault => "compute-default"
    | .computeOnRequest => "compute-on-request"
    | .pure => "pure"
  complete flag := by
    cases flag with
    | touches scope access => cases scope <;> cases access <;> decide
    | _ => decide
  distinct := by decide

/-- The scope and the access, for the flags that have them. -/
def scope? : SchedulingFlag → Option (SchedulingScope × SchedulingAccess)
  | .touches scope access => some (scope, access)
  | .threadsafe | .computeDefault | .computeOnRequest | .pure => none

/-- The first of all flags that has a scope and an access, and otherwise `pure`. -/
def scopedFlag (scope : SchedulingScope) (access : SchedulingAccess) : SchedulingFlag :=
  (Keyword.all.find? fun flag => flag.scope? = some (scope, access)).getD .pure

theorem scope?_eq_some_iff {flag : SchedulingFlag} {scope : SchedulingScope}
    {access : SchedulingAccess} :
    flag.scope? = some (scope, access) ↔ flag = .touches scope access := by
  cases flag <;> simp [scope?]

/-- Every scope has a flag for every access, so `pure` never takes its place. -/
@[simp] theorem scopedFlag_eq_touches (scope : SchedulingScope) (access : SchedulingAccess) :
    scopedFlag scope access = .touches scope access := by
  have listed : (Keyword.all.find? fun flag : SchedulingFlag =>
      flag.scope? = some (scope, access)).isSome = true := by
    rw [List.find?_isSome]
    exact ⟨.touches scope access, Keyword.complete _, decide_eq_true rfl⟩
  obtain ⟨flag, found⟩ := Option.isSome_iff_exists.mp listed
  have has : flag.scope? = some (scope, access) := by simpa using List.find?_some found
  rw [scopedFlag, found, Option.getD_some, scope?_eq_some_iff.mp has]

end SchedulingFlag

end NodeDescriptor
