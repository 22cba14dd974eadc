import NodeDescriptor.Entry.Basic

/-!
# Scheduling flags of an entry

The flags are given as a comma-separated text or as a list. A flag that the node already has is
redundant; so are the reading and the writing flag of a scope beside the plain one. Items that
are no flags are reported one by one.
-/

set_option autoImplicit false

namespace NodeDescriptor.SchedulingList

/-- The items of a scheduling list in either form. -/
def items? : Json → Option (List Json)
  | .string text => some ((Text.commaParts text).map .string)
  | .array items => some items
  | _ => none

/-- A flag in quotation marks. -/
def quoted (flag : SchedulingFlag) : String := "'" ++ Keyword.word flag ++ "'"

/-- Add items from a position on to the flags before them. -/
def addItems (position : Nat) (before : List SchedulingFlag) :
    List Json → Checked (List SchedulingFlag)
  | [] => .clean before
  | item :: rest =>
      match Record.keyword? item with
      | none =>
          let others := addItems (position + 1) before rest
          ⟨others.value,
            ⟨FieldPath.root.index position, .wrongShape "a scheduling flag"⟩ :: others.findings⟩
      | some flag =>
          if flag ∈ before then
            let others := addItems (position + 1) before rest
            ⟨others.value,
              ⟨FieldPath.root.index position,
                .redundantScheduling (quoted flag ++ " is listed more than once")⟩ ::
                others.findings⟩
          else addItems (position + 1) (before ++ [flag]) rest

/-- The finding about a scope all of whose flags are there. -/
def scopeFinding? (flags : List SchedulingFlag) (scope : SchedulingScope) : Option Finding :=
  let both := SchedulingFlag.scopedFlag scope .readWrite
  let read := SchedulingFlag.scopedFlag scope .read
  let write := SchedulingFlag.scopedFlag scope .write
  if [both, read, write].all (· ∈ flags) then
    some (.here (.redundantScheduling
      (quoted both ++ " already covers " ++ quoted read ++ " and " ++ quoted write)))
  else none

theorem scopeFinding?_eq (flags : List SchedulingFlag) (scope : SchedulingScope) :
    scopeFinding? flags scope =
      if (SchedulingFlag.ofScope scope).all (· ∈ flags) then
        some (.here (.redundantScheduling (quoted (.touches scope .readWrite) ++
          " already covers " ++ quoted (.touches scope .read) ++ " and " ++
            quoted (.touches scope .write))))
      else none := by
  simp only [scopeFinding?, SchedulingFlag.scopedFlag_eq_touches]
  rfl

/-- Add a scheduling list to the flags before it. -/
def read (before : List SchedulingFlag) (value : Json) : Checked (Option (List SchedulingFlag)) :=
  match items? value with
  | none => .refused (.wrongShape "a scheduling flag or a list of scheduling flags")
  | some items =>
      let flags := addItems 0 before items
      ⟨some flags.value, flags.findings ++ Keyword.all.filterMap (scopeFinding? flags.value)⟩

def check (entry : Entry) (node : Node) : Checked Node :=
  (Member.optional entry.members "scheduling" (read node.scheduling)).map fun flags =>
    { node with scheduling := flags.getD node.scheduling }

end NodeDescriptor.SchedulingList
