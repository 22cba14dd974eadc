import Mathlib.Data.List.Lex
import Mathlib.Data.List.Sort
import Mathlib.Data.Prod.Lex
import Mathlib.Data.String.Basic
import NodeDescriptor.Disk.Path

/-!
# The order of paths

Paths are ordered as their lists of components are, and equal paths are those with the same
components. So in a list that is in order equal paths are neighbours, and dropping each path that
equals the one before it leaves a strictly ascending list: the only one with these paths.
-/

set_option autoImplicit false

namespace NodeDescriptor

/-! ## Components -/

namespace PathComponent

/-- The kind of a component and, for names, the name. -/
def orderKey (component : PathComponent) : Nat ×ₗ String := toLex (component.rank, component.text)

private theorem orderKey_injective : Function.Injective orderKey := by
  intro one other same
  have parts : (one.rank, one.text) = (other.rank, other.text) := same
  cases one <;> cases other <;> simp_all [rank, text]

instance : LinearOrder PathComponent := LinearOrder.lift' orderKey orderKey_injective

theorem before_iff {one other : PathComponent} : one.before other = true ↔ one < other := by
  have order : one < other ↔ one.orderKey < other.orderKey := Iff.rfl
  rw [order, orderKey, orderKey, Prod.Lex.toLex_lt_toLex]
  simp [before]

end PathComponent

namespace PathName

private theorem componentsBefore_iff {one other : List PathComponent} :
    componentsBefore one other = true ↔ one < other := by
  induction one generalizing other with
  | nil => cases other <;> simp [componentsBefore]
  | cons component rest ih =>
      cases other with
      | nil => simp [componentsBefore]
      | cons first others =>
          rw [List.cons_lt_cons_iff, ← ih, ← PathComponent.before_iff]
          simp [componentsBefore]

variable {path one other : String} {paths others : List String}

theorem before_iff : before one other = true ↔ components one < components other :=
  componentsBefore_iff

theorem same_iff : same one other = true ↔ components one = components other := beq_iff_eq

/-! ## Lists -/

/-- The paths are in order and no two of them are equal. -/
def Ascending (paths : List String) : Prop :=
  paths.Pairwise fun one other => components one < components other

private theorem withoutRepeats_sublist (paths : List String) :
    (withoutRepeats paths).Sublist paths := by
  induction paths with
  | nil => exact .slnil
  | cons path rest ih =>
      rw [withoutRepeats]
      split
      · exact List.singleton_sublist.mpr List.mem_cons_self
      · next next others kept =>
          rw [kept] at ih
          split
          · exact ((List.sublist_cons_self next others).trans ih).cons_cons path
          · exact ih.cons_cons path

private theorem exists_mem_withoutRepeats (listed : path ∈ paths) :
    ∃ kept ∈ withoutRepeats paths, components kept = components path := by
  induction paths with
  | nil => cases listed
  | cons first rest ih =>
      rw [withoutRepeats]
      rcases List.mem_cons.mp listed with rfl | later
      · refine ⟨path, ?_, rfl⟩
        split
        · exact List.mem_cons_self
        · split <;> exact List.mem_cons_self
      · obtain ⟨kept, inRest, equal⟩ := ih later
        split
        · next empty => rw [empty] at inRest; cases inRest
        · next next others shape =>
            rw [shape] at inRest
            split
            · next repeated =>
                -- The path that is dropped here is the next one, for which the first one stays.
                rcases List.mem_cons.mp inRest with rfl | inOthers
                · exact ⟨first, List.mem_cons_self, (same_iff.mp repeated).trans equal⟩
                · exact ⟨kept, List.mem_cons_of_mem _ inOthers, equal⟩
            · exact ⟨kept, List.mem_cons_of_mem _ inRest, equal⟩

private theorem ascending_withoutRepeats
    (ordered : paths.Pairwise fun one other => components one ≤ components other) :
    Ascending (withoutRepeats paths) := by
  induction paths with
  | nil => exact List.Pairwise.nil
  | cons path rest ih =>
      obtain ⟨first, orderedRest⟩ := List.pairwise_cons.mp ordered
      have ascending := ih orderedRest
      rw [withoutRepeats]
      split
      · exact List.pairwise_singleton _ _
      · next next others kept =>
          have atMost : components path ≤ components next := by
            refine first next ((withoutRepeats_sublist rest).mem ?_)
            rw [kept]
            exact List.mem_cons_self
          rw [kept] at ascending
          obtain ⟨nextFirst, ascendingOthers⟩ := List.pairwise_cons.mp ascending
          split
          · next repeated =>
              refine List.pairwise_cons.mpr ⟨fun other listed => ?_, ascendingOthers⟩
              rw [same_iff.mp repeated]
              exact nextFirst other listed
          · next different =>
              have less : components path < components next :=
                lt_of_le_of_ne atMost fun equal => different (same_iff.mpr equal)
              refine List.pairwise_cons.mpr ⟨fun other listed => ?_, ascending⟩
              rcases List.mem_cons.mp listed with rfl | inOthers
              · exact less
              · exact less.trans (nextFirst other inOthers)

private theorem withoutRepeats_eq_self (ascending : Ascending paths) :
    withoutRepeats paths = paths := by
  induction paths with
  | nil => rfl
  | cons path rest ih =>
      obtain ⟨first, ascendingRest⟩ := List.pairwise_cons.mp ascending
      rw [withoutRepeats, ih ascendingRest]
      cases rest with
      | nil => rfl
      | cons next others =>
          have different : ¬same path next = true := fun equal =>
            (first next List.mem_cons_self).ne (same_iff.mp equal)
          exact if_neg different

/-! ## Sorting -/

private theorem not_before_iff :
    (!before other one) = true ↔ components one ≤ components other := by
  rw [Bool.not_eq_true', ← Bool.not_eq_true, before_iff, not_lt]

theorem ascending_sorted (paths : List String) : Ascending (sorted paths) := by
  have ordered : (paths.mergeSort fun one other => !before other one).Pairwise
      fun one other => (!before other one) = true := by
    refine List.pairwise_mergeSort (fun one next other first second => ?_) (fun one other => ?_) _
    · rw [not_before_iff] at first second ⊢
      exact first.trans second
    · rw [Bool.or_eq_true, not_before_iff, not_before_iff]
      exact le_total _ _
  exact ascending_withoutRepeats (ordered.imp not_before_iff.mp)

theorem mem_of_mem_sorted (listed : path ∈ sorted paths) : path ∈ paths :=
  List.mem_mergeSort.mp ((withoutRepeats_sublist _).mem listed)

theorem exists_mem_sorted (listed : path ∈ paths) :
    ∃ kept ∈ sorted paths, components kept = components path :=
  exists_mem_withoutRepeats (List.mem_mergeSort.mpr listed)

theorem sorted_eq_self (ascending : Ascending paths) : sorted paths = paths := by
  have ordered : paths.Pairwise fun one other => (!before other one) = true :=
    ascending.imp fun less => not_before_iff.mpr less.le
  rw [sorted, List.mergeSort_of_pairwise ordered, withoutRepeats_eq_self ascending]

private theorem mem_map_components_sorted {list : List PathComponent} :
    list ∈ (sorted paths).map components ↔ list ∈ paths.map components := by
  constructor
  · intro listed
    obtain ⟨path, inSorted, rfl⟩ := List.mem_map.mp listed
    exact List.mem_map_of_mem (mem_of_mem_sorted inSorted)
  · intro listed
    obtain ⟨path, inPaths, rfl⟩ := List.mem_map.mp listed
    obtain ⟨kept, inSorted, equal⟩ := exists_mem_sorted inPaths
    exact equal ▸ List.mem_map_of_mem inSorted

/-- Lists with the same paths are sorted into equal paths, position by position. -/
theorem map_components_sorted (samePaths : ∀ path, path ∈ paths ↔ path ∈ others) :
    (sorted paths).map components = (sorted others).map components := by
  have strict (paths : List String) : ((sorted paths).map components).Pairwise (· < ·) :=
    List.pairwise_map.mpr (ascending_sorted paths)
  refine (strict paths).eq_of_mem_iff (strict others) fun list => ?_
  rw [mem_map_components_sorted, mem_map_components_sorted, List.mem_map, List.mem_map]
  simp only [samePaths]

end PathName

end NodeDescriptor
