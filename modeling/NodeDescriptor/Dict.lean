/-!
# Ordered dictionaries

A dictionary maps distinct text keys to values and remembers the order in which the keys
first came. Writing to a key that is already there replaces its value and keeps its place.

The operations are defined on plain entry lists first (`Entries.put`), so that they can also
be used where a list cannot carry a proof; `Dict` packages a list with the proof that its
keys are distinct. The laws at the end say what each operation does to the keys and to `get?`.
-/

set_option autoImplicit false

namespace NodeDescriptor

/-! ## Entry lists -/

namespace Entries

variable {α β : Type}

/-- The keys of an entry list, in order, repeats included. -/
def keys (entries : List (String × α)) : List String :=
  entries.map Prod.fst

/-- Write `value` under `key`: in place when the key is there, at the end otherwise. -/
def put (entries : List (String × α)) (key : String) (value : α) : List (String × α) :=
  match entries with
  | [] => [(key, value)]
  | (other, current) :: rest =>
      if other = key then (key, value) :: rest else (other, current) :: put rest key value

/-- Write every entry in turn: each key keeps its first place and gets its last value. -/
def merge (entries additions : List (String × α)) : List (String × α) :=
  additions.foldl (fun merged entry => put merged entry.1 entry.2) entries

@[simp] theorem keys_nil : keys ([] : List (String × α)) = [] := rfl

@[simp] theorem keys_cons (entry : String × α) (entries : List (String × α)) :
    keys (entry :: entries) = entry.1 :: keys entries := rfl

theorem keys_put (entries : List (String × α)) (key : String) (value : α) :
    keys (put entries key value) =
      if key ∈ keys entries then keys entries else keys entries ++ [key] := by
  induction entries with
  | nil => simp [put]
  | cons entry rest ih =>
      obtain ⟨other, current⟩ := entry
      by_cases same : other = key
      · subst same
        simp [put]
      · have different : key ≠ other := fun h => same h.symm
        simp only [put, same, if_false, keys_cons, ih, List.mem_cons, different, false_or]
        split <;> simp

theorem nodup_keys_put {entries : List (String × α)} (distinct : (keys entries).Nodup)
    (key : String) (value : α) : (keys (put entries key value)).Nodup := by
  rw [keys_put]
  split
  · exact distinct
  · rename_i absent
    rw [List.nodup_append]
    exact ⟨distinct, by simp, fun a member b single => by
      rw [List.mem_singleton] at single
      rintro rfl
      exact absent (single ▸ member)⟩

theorem nodup_keys_merge {entries : List (String × α)} (distinct : (keys entries).Nodup)
    (additions : List (String × α)) : (keys (merge entries additions)).Nodup := by
  unfold merge
  induction additions generalizing entries with
  | nil => exact distinct
  | cons entry rest ih => exact ih (nodup_keys_put distinct entry.1 entry.2)

theorem lookup_put_self (entries : List (String × α)) (key : String) (value : α) :
    (put entries key value).lookup key = some value := by
  induction entries with
  | nil => simp [put]
  | cons entry rest ih =>
      obtain ⟨other, current⟩ := entry
      by_cases same : other = key
      · simp [put, same]
      · have different : (key == other) = false := by
          simpa using fun h : key = other => same h.symm
        simp [put, same, List.lookup_cons, different, ih]

theorem lookup_put_of_ne {key other : String} (different : other ≠ key)
    (entries : List (String × α)) (value : α) :
    (put entries key value).lookup other = entries.lookup other := by
  induction entries with
  | nil =>
      have h : (other == key) = false := by simpa using different
      simp [put, List.lookup_cons, h]
  | cons entry rest ih =>
      obtain ⟨first, current⟩ := entry
      by_cases same : first = key
      · subst same
        have h : (other == first) = false := by simpa using different
        simp [put, List.lookup_cons, h]
      · by_cases here : other = first
        · simp [put, same, here]
        · have h : (other == first) = false := by simpa using here
          simp [put, same, List.lookup_cons, h, ih]

end Entries

/-! ## Dictionaries -/

/-- An ordered map from distinct text keys. -/
structure Dict (α : Type) where
  /-- The entries, in the order in which their keys first came. -/
  entries : List (String × α)
  distinct : (Entries.keys entries).Nodup := by decide

namespace Dict

variable {α β : Type}

theorem ext_entries {a b : Dict α} (same : a.entries = b.entries) : a = b := by
  cases a
  cases b
  cases same
  rfl

instance [DecidableEq α] : DecidableEq (Dict α) := fun a b =>
  if same : a.entries = b.entries then isTrue (ext_entries same)
  else isFalse fun equal => same (congrArg entries equal)

def empty : Dict α := ⟨[], List.nodup_nil⟩

instance : Inhabited (Dict α) := ⟨empty⟩

def keys (dict : Dict α) : List String := Entries.keys dict.entries

def values (dict : Dict α) : List α := dict.entries.map Prod.snd

def size (dict : Dict α) : Nat := dict.entries.length

def isEmpty (dict : Dict α) : Bool := dict.entries.isEmpty

/-- The value under `key`. -/
def get? (dict : Dict α) (key : String) : Option α := dict.entries.lookup key

/-- Whether `key` has a value. -/
def contains (dict : Dict α) (key : String) : Bool := (dict.get? key).isSome

/-- Write `value` under `key`; a key that is already there keeps its place. -/
def insert (dict : Dict α) (key : String) (value : α) : Dict α :=
  ⟨Entries.put dict.entries key value, Entries.nodup_keys_put dict.distinct key value⟩

/-- The dictionary of an entry list: first place and last value for every key. -/
def ofList (entries : List (String × α)) : Dict α :=
  ⟨Entries.merge [] entries, Entries.nodup_keys_merge (by simp) entries⟩

/-- Apply `f` to every value. -/
def mapValues (dict : Dict α) (f : α → β) : Dict β :=
  ⟨dict.entries.map fun entry => (entry.1, f entry.2), by
    have same : Entries.keys (dict.entries.map fun entry => (entry.1, f entry.2)) =
        Entries.keys dict.entries := by simp [Entries.keys]
    exact same ▸ dict.distinct⟩

@[simp] theorem entries_empty : (empty : Dict α).entries = [] := rfl

@[simp] theorem entries_insert (dict : Dict α) (key : String) (value : α) :
    (dict.insert key value).entries = Entries.put dict.entries key value := rfl

@[simp] theorem entries_ofList (entries : List (String × α)) :
    (ofList entries).entries = Entries.merge [] entries := rfl

theorem keys_insert (dict : Dict α) (key : String) (value : α) :
    (dict.insert key value).keys =
      if key ∈ dict.keys then dict.keys else dict.keys ++ [key] :=
  Entries.keys_put dict.entries key value

@[simp] theorem get?_insert_self (dict : Dict α) (key : String) (value : α) :
    (dict.insert key value).get? key = some value :=
  Entries.lookup_put_self dict.entries key value

theorem get?_insert_of_ne {key other : String} (different : other ≠ key) (dict : Dict α)
    (value : α) : (dict.insert key value).get? other = dict.get? other :=
  Entries.lookup_put_of_ne different dict.entries value

end Dict

end NodeDescriptor
