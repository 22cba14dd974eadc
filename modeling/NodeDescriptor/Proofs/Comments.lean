import NodeDescriptor.Proofs.Dict
import NodeDescriptor.Proofs.Legality.Faultless

/-!
# Members that are no comments

Comments are dropped before members are read. What is left keeps its order, and it is everything
where no key marks a comment.
-/

set_option autoImplicit false

namespace NodeDescriptor.Member

variable {α : Type} {members : List (String × α)} {key : String}

theorem withoutComments_append (left right : List (String × α)) :
    withoutComments (left ++ right) = withoutComments left ++ withoutComments right :=
  List.filter_append left right

theorem withoutComments_eq_self
    (uncommented : ∀ key ∈ Entries.keys members, isCommentKey key = false) :
    withoutComments members = members := by
  refine List.filter_eq_self.mpr fun member listed => ?_
  rw [uncommented member.1 (List.mem_map_of_mem listed)]
  rfl

theorem withoutComments_singleton (uncommented : isCommentKey key = false) (value : α) :
    withoutComments [(key, value)] = [(key, value)] := by
  refine withoutComments_eq_self fun other listed => ?_
  rw [List.mem_singleton.mp listed]
  exact uncommented

theorem withoutComments_ne_nil (listed : key ∈ Entries.keys members)
    (uncommented : isCommentKey key = false) : withoutComments members ≠ [] := by
  obtain ⟨member, inMembers, rfl⟩ := List.mem_map.mp listed
  exact List.ne_nil_of_mem (mem_withoutComments.mpr ⟨inMembers, uncommented⟩)

theorem keys_withoutComments_sublist (members : List (String × α)) :
    (Entries.keys (withoutComments members)).Sublist (Entries.keys members) :=
  List.filter_sublist.map Prod.fst

/-- A dictionary of what is left has no key of a comment. -/
theorem uncommented_of_mem_keys
    (listed : key ∈ (Dict.ofList (withoutComments members)).keys) : isCommentKey key = false := by
  rcases Entries.mem_keys_merge.mp listed with inEmpty | inMembers
  · cases inEmpty
  · obtain ⟨member, kept, rfl⟩ := List.mem_map.mp inMembers
    exact (mem_withoutComments.mp kept).2

end NodeDescriptor.Member
