import Mathlib.Data.List.Nodup
import NodeDescriptor.DataType.Basic

/-!
# The vocabulary of types

The documented list of types misses none, and no two types on it share a spelling. The list is
made family by family, so that every type is on it is argued along the parts of a type; that the
spellings differ is a fact about finitely many words.
-/

set_option autoImplicit false

namespace NodeDescriptor

/-! ## Every type is listed -/

private theorem UnionGroup.mem_all (union : UnionGroup) : union ∈ UnionGroup.all := by
  rw [UnionGroup.all, List.mem_append]
  cases union with
  | formed family form =>
      refine .inl (List.mem_flatMap.mpr ⟨family, Keyword.complete family, ?_⟩)
      exact List.mem_append_left _ (List.mem_map_of_mem (Keyword.complete form))
  | whole family =>
      refine .inl (List.mem_flatMap.mpr ⟨family, Keyword.complete family, ?_⟩)
      exact List.mem_append_right _ (List.mem_singleton_self _)
  | matrices | arrayElements | arrays | strings => exact .inr (by decide)

namespace NumericRole

theorem ofParts?_self (role : NumericRole) :
    ofParts? role.kind role.precision role.arity = some role := by
  rw [ofParts?, dif_pos role.legal]

/-- Putting parts together gives a role with these parts and nothing else. -/
theorem ofParts?_eq_some_iff {kind : RoleKind} {precision : Option Precision} {arity : Nat}
    {role : NumericRole} :
    ofParts? kind precision arity = some role ↔
      role.kind = kind ∧ role.precision = precision ∧ role.arity = arity := by
  constructor
  · intro built
    unfold ofParts? at built
    split at built
    · cases built
      exact ⟨rfl, rfl, rfl⟩
    · cases built
  · intro same
    obtain ⟨rfl, rfl, rfl⟩ := same
    exact ofParts?_self role

end NumericRole

private theorem Precision.mem_all (precision : Precision) : precision ∈ Precision.all := by
  cases precision <;> decide

namespace DataType

private theorem mem_roles (role : Role) : role ∈ roles := by
  cases role with
  | execute | objectId | timecode => exact List.mem_append_left _ (by decide)
  | numeric role =>
      have legal := role.legal
      simp only [RoleKind.admits, Bool.and_eq_true, beq_iff_eq, List.contains_iff_mem] at legal
      obtain ⟨precise, arity⟩ := legal
      refine List.mem_append_right _ (List.mem_flatMap.mpr ⟨role.kind, Keyword.complete _, ?_⟩)
      refine List.mem_flatMap.mpr ⟨role.precision, ?_, List.mem_filterMap.mpr
        ⟨role.arity, arity, by rw [NumericRole.ofParts?_self]; rfl⟩⟩
      rw [precise]
      cases role.precision with
      | none => exact List.mem_singleton_self none
      | some precision => exact List.mem_map_of_mem precision.mem_all

private theorem single_mem_withList (element : Element) : .single element ∈ withList element :=
  List.mem_cons_self

private theorem list?_eq_some {element : Element} (legal : element.isListable = true) :
    list? element = some (.list element legal) := by
  rw [list?, dif_pos legal]

private theorem list_mem_withList {element : Element} (legal : element.isListable = true) :
    .list element legal ∈ withList element := by
  rw [withList, list?_eq_some legal]
  exact List.mem_cons_of_mem _ (List.mem_singleton_self _)

private theorem mem_ofBase_of_tuple {type : BaseType} {size : Nat}
    (legal : type.isTupleable = true ∧ tupleSizes.contains size = true) {built : DataType}
    (member : built ∈ withList (.tuple type size legal)) : built ∈ ofBase type := by
  have listed : Element.tuple type size legal ∈ tupleSizes.filterMap (Element.tuple? type) :=
    List.mem_filterMap.mpr ⟨size, List.contains_iff_mem.mp legal.2, by
      rw [Element.tuple?, dif_pos legal]⟩
  exact List.mem_append_right _ (List.mem_flatMap.mpr ⟨_, listed, member⟩)

/-- What is built on an element is listed, apart from the marker `token`, which has a place of its
own. -/
private theorem mem_concrete_of_withList {element : Element} {built : DataType}
    (member : built ∈ withList element) (other : built ≠ .single (.base .token)) :
    built ∈ concrete := by
  cases element with
  | base type =>
      refine List.mem_append_left _ (List.mem_append_right _
        (List.mem_flatMap.mpr ⟨type, Keyword.complete type, ?_⟩))
      exact List.mem_append_left _ (List.mem_filter.mpr ⟨member, by simpa using other⟩)
  | tuple type size legal =>
      exact List.mem_append_left _ (List.mem_append_right _
        (List.mem_flatMap.mpr ⟨type, Keyword.complete type, mem_ofBase_of_tuple legal member⟩))
  | role meaning =>
      exact List.mem_append_right _ (List.mem_flatMap.mpr
        ⟨_, List.mem_map_of_mem (mem_roles meaning), member⟩)

private theorem mem_concrete {type : DataType} (single : type.isConcrete = true) :
    type ∈ concrete := by
  cases type with
  | bundle | target | any =>
      exact List.mem_append_left _ (List.mem_append_left _ (by decide))
  | group union => cases single
  | list element legal =>
      exact mem_concrete_of_withList (list_mem_withList legal) (by simp)
  | single element =>
      by_cases marker : DataType.single element = .single (.base .token)
      · rw [marker]
        exact List.mem_append_left _ (List.mem_append_left _ (by decide))
      · exact mem_concrete_of_withList (single_mem_withList element) marker

/-- Every type is listed among those that are not union groups, or it is a listed group. -/
theorem mem_concrete_or_group (type : DataType) :
    type ∈ concrete ∨ ∃ union ∈ UnionGroup.all, type = .group union := by
  cases form : type.isConcrete with
  | true => exact .inl (mem_concrete form)
  | false =>
      cases type with
      | group union => exact .inr ⟨union, union.mem_all, rfl⟩
      | _ => cases form

theorem mem_vocabulary (type : DataType) : type ∈ vocabulary := by
  rw [vocabulary, List.mem_append]
  rcases mem_concrete_or_group type with listed | ⟨union, listed, rfl⟩
  · exact .inl listed
  · exact .inr (List.mem_map_of_mem listed)

/-! ## No two types share a spelling -/

theorem nodup_texts : (vocabulary.map text).Nodup := by decide +kernel

theorem text_injective {a b : DataType} (same : a.text = b.text) : a = b :=
  List.inj_on_of_nodup_map nodup_texts (mem_vocabulary a) (mem_vocabulary b) same

end DataType

end NodeDescriptor
