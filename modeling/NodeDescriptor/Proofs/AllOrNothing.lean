import Mathlib.Data.List.Forall2

/-!
# Reading all items or none

A list is read item by item, and one item that cannot be read makes the whole list unreadable.
Where a problem is answered in place of a result, the first one is the answer for the whole list.
-/

set_option autoImplicit false

namespace NodeDescriptor

variable {α β γ : Type}

theorem mapM_cons_eq_some_iff {read : α → Option β} {item : α} {rest : List α}
    {results : List β} :
    (item :: rest).mapM read = some results ↔
      ∃ first others, read item = some first ∧ rest.mapM read = some others ∧
        results = first :: others := by
  rw [List.mapM_cons]
  constructor
  · intro all
    obtain ⟨first, head, following⟩ := Option.bind_eq_some_iff.mp all
    obtain ⟨others, tail, shape⟩ := Option.bind_eq_some_iff.mp following
    cases shape
    exact ⟨first, others, head, tail, rfl⟩
  · intro parts
    obtain ⟨first, others, head, tail, rfl⟩ := parts
    exact Option.bind_eq_some_iff.mpr
      ⟨first, head, Option.bind_eq_some_iff.mpr ⟨others, tail, rfl⟩⟩

theorem mapM_eq_some_iff {read : α → Option β} {items : List α} {results : List β} :
    items.mapM read = some results ↔
      List.Forall₂ (fun item result => read item = some result) items results := by
  induction items generalizing results with
  | nil =>
      rw [List.forall₂_nil_left_iff, List.mapM_nil]
      exact ⟨fun all => (Option.some.inj all).symm, fun empty => empty ▸ rfl⟩
  | cons item rest ih =>
      rw [mapM_cons_eq_some_iff, List.forall₂_cons_left_iff]
      constructor
      · intro parts
        obtain ⟨first, others, head, tail, rfl⟩ := parts
        exact ⟨first, others, head, ih.mp tail, rfl⟩
      · intro parts
        obtain ⟨first, others, head, tail, rfl⟩ := parts
        exact ⟨first, others, head, ih.mpr tail, rfl⟩

theorem isSome_mapM_iff {read : α → Option β} {items : List α} :
    (items.mapM read).isSome = true ↔ ∀ item ∈ items, (read item).isSome = true := by
  induction items with
  | nil => simp
  | cons item rest ih =>
      rw [List.forall_mem_cons, ← ih]
      simp only [Option.isSome_iff_exists, mapM_cons_eq_some_iff]
      constructor
      · intro parts
        obtain ⟨_, first, others, head, tail, -⟩ := parts
        exact ⟨⟨first, head⟩, ⟨others, tail⟩⟩
      · intro parts
        obtain ⟨⟨first, head⟩, ⟨others, tail⟩⟩ := parts
        exact ⟨_, first, others, head, tail, rfl⟩

/-- What is made of each result can be made while the items are read. -/
theorem mapM_option_map (read : α → Option β) (f : β → γ) (items : List α) :
    items.mapM (fun item => (read item).map f) = (items.mapM read).map (List.map f) := by
  induction items with
  | nil => rfl
  | cons item rest ih =>
      rw [List.mapM_cons, List.mapM_cons, ih]
      cases read item with
      | none => rfl
      | some result => cases rest.mapM read <;> rfl

/-- Items that were written one by one are read one by one. -/
theorem mapM_map_eq_some {read : β → Option γ} {write : α → β} {result : α → γ}
    {items : List α} (each : ∀ item ∈ items, read (write item) = some (result item)) :
    (items.map write).mapM read = some (items.map result) := by
  induction items with
  | nil => rfl
  | cons item rest ih =>
      obtain ⟨head, tail⟩ := List.forall_mem_cons.mp each
      exact mapM_cons_eq_some_iff.mpr ⟨result item, rest.map result, head, ih tail, rfl⟩

/-- Where every item can be read, none is passed over. -/
theorem forall₂_filterMap {read : α → Option β} {items : List α}
    (each : ∀ item ∈ items, (read item).isSome = true) :
    List.Forall₂ (fun item result => read item = some result) items (items.filterMap read) := by
  induction items with
  | nil => exact List.Forall₂.nil
  | cons item rest ih =>
      obtain ⟨head, tail⟩ := List.forall_mem_cons.mp each
      obtain ⟨result, made⟩ := Option.isSome_iff_exists.mp head
      rw [List.filterMap_cons_some made]
      exact List.Forall₂.cons made (ih tail)

theorem map_eq_map_of_forall₂ {related : α → β → Prop} {f : α → γ} {g : β → γ} {items : List α}
    {results : List β} (all : List.Forall₂ related items results)
    (same : ∀ item result, related item result → g result = f item) :
    results.map g = items.map f := by
  induction all with
  | nil => rfl
  | cons head _ ih => rw [List.map_cons, List.map_cons, same _ _ head, ih]

/-! ## Problems as answers -/

section Problems

variable {ε : Type}

theorem bind_eq_ok_iff {answer : Except ε α} {next : α → Except ε β} {result : β} :
    (answer >>= next) = .ok result ↔ ∃ value, answer = .ok value ∧ next value = .ok result := by
  cases answer <;> simp [bind, Except.bind]

theorem map_eq_ok_iff {answer : Except ε α} {f : α → β} {result : β} :
    answer.map f = .ok result ↔ ∃ value, answer = .ok value ∧ f value = result := by
  cases answer <;> simp [Except.map]

variable {read : α → Except ε (List β)} {items later : List α} {item : α} {parts : List (List β)}

theorem mapM_cons_eq_ok_iff : (item :: items).mapM read = .ok parts ↔
    ∃ first others, read item = .ok first ∧ items.mapM read = .ok others ∧
      parts = first :: others := by
  rw [List.mapM_cons, bind_eq_ok_iff]
  constructor
  · rintro ⟨first, head, following⟩
    obtain ⟨others, tail, shape⟩ := bind_eq_ok_iff.mp following
    cases shape
    exact ⟨first, others, head, tail, rfl⟩
  · rintro ⟨first, others, head, tail, rfl⟩
    exact ⟨first, head, bind_eq_ok_iff.mpr ⟨others, tail, rfl⟩⟩

/-- What is in the results, when all items can be read, is in the result for one. -/
theorem mem_flatten_of_mapM (all : items.mapM read = .ok parts) {found : β} :
    found ∈ parts.flatten ↔ ∃ item ∈ items, ∃ part, read item = .ok part ∧ found ∈ part := by
  induction items generalizing parts with
  | nil =>
      cases all
      simp
  | cons item rest ih =>
      obtain ⟨first, others, head, tail, rfl⟩ := mapM_cons_eq_ok_iff.mp all
      rw [List.flatten_cons, List.mem_append, ih tail]
      simp [head]

theorem exists_of_mem_of_mapM (all : items.mapM read = .ok parts) (listed : item ∈ items) :
    ∃ part, read item = .ok part := by
  induction items generalizing parts with
  | nil => cases listed
  | cons next rest ih =>
      obtain ⟨first, others, head, tail, -⟩ := mapM_cons_eq_ok_iff.mp all
      rcases List.mem_cons.mp listed with rfl | inRest
      · exact ⟨first, head⟩
      · exact ih tail inRest

theorem exists_mapM (each : ∀ item ∈ items, ∃ part, read item = .ok part) :
    ∃ parts, items.mapM read = .ok parts := by
  induction items with
  | nil => exact ⟨[], rfl⟩
  | cons item rest ih =>
      obtain ⟨⟨first, head⟩, tail⟩ := List.forall_mem_cons.mp each
      obtain ⟨others, all⟩ := ih tail
      exact ⟨first :: others, mapM_cons_eq_ok_iff.mpr ⟨first, others, head, all, rfl⟩⟩

theorem mapM_append_eq_error {problem : ε} (all : items.mapM read = .ok parts)
    (failed : read item = .error problem) :
    (items ++ item :: later).mapM read = .error problem := by
  rw [List.mapM_append, all, List.mapM_cons, failed]
  rfl

end Problems

end NodeDescriptor
