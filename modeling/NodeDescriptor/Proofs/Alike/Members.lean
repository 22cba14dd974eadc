import NodeDescriptor.Proofs.Comments

/-!
# Members that are alike

Two objects may differ in members that nobody looks at, and where members are looked up by their
keys also in the order of the others. `InOrder` and `InAnyOrder` say so for lists of members, given
which keys are passed over and how the values under the other keys may differ. Readers that respect
both cannot tell such lists apart.
-/

set_option autoImplicit false

namespace NodeDescriptor

variable {α β : Type}

private theorem Entries.lookup_eq_of_perm {left right : List (String × α)}
    (permuted : left.Perm right)
    (distinct : (keys left).Nodup) (key : String) : left.lookup key = right.lookup key := by
  have distinctRight : (keys right).Nodup := (permuted.map Prod.fst).nodup_iff.mp distinct
  refine Option.ext fun value => ?_
  rw [lookup_eq_some_iff_mem distinct, lookup_eq_some_iff_mem distinctRight]
  exact permuted.mem_iff

/-! ## Lists of members -/

/-- The same members in the same order with alike values, apart from members under keys that are
passed over. -/
inductive InOrder (passedOver : String → Prop) (alike : String → Json → Json → Prop) :
    List (String × Json) → List (String × Json) → Prop where
  | nil : InOrder passedOver alike [] []
  | both {key : String} {left right : Json} {lefts rights : List (String × Json)} :
      alike key left right → InOrder passedOver alike lefts rights →
      InOrder passedOver alike ((key, left) :: lefts) ((key, right) :: rights)
  | left {key : String} {value : Json} {lefts rights : List (String × Json)} :
      passedOver key → InOrder passedOver alike lefts rights →
      InOrder passedOver alike ((key, value) :: lefts) rights
  | right {key : String} {value : Json} {lefts rights : List (String × Json)} :
      passedOver key → InOrder passedOver alike lefts rights →
      InOrder passedOver alike lefts ((key, value) :: rights)

/-- The same members in any order with alike values, apart from members under keys that are passed
over. -/
def InAnyOrder (passedOver : String → Prop) (alike : String → Json → Json → Prop)
    (lefts rights : List (String × Json)) : Prop :=
  ∃ reordered, lefts.Perm reordered ∧ InOrder passedOver alike reordered rights

/-- Equal values, or objects whose members are related. -/
inductive Json.AlikeObjects (related : List (String × Json) → List (String × Json) → Prop) :
    Json → Json → Prop where
  | same (value : Json) : AlikeObjects related value value
  | objects {left right : List (String × Json)} :
      related left right → AlikeObjects related (.object left) (.object right)

namespace InOrder

variable {passedOver : String → Prop} {alike : String → Json → Json → Prop}
  {lefts rights : List (String × Json)} {key : String}

/-- What is known of the values on the left may be used for the relation. -/
theorem imp {finer : String → Json → Json → Prop} (ordered : InOrder passedOver alike lefts rights)
    (each : ∀ key left right, (key, left) ∈ lefts → alike key left right → finer key left right) :
    InOrder passedOver finer lefts rights := by
  induction ordered with
  | nil => exact .nil
  | both values _ ih =>
      exact .both (each _ _ _ List.mem_cons_self values)
        (ih fun key left right listed => each key left right (List.mem_cons_of_mem _ listed))
  | left skipped _ ih =>
      exact .left skipped
        (ih fun key left right listed => each key left right (List.mem_cons_of_mem _ listed))
  | right skipped _ ih => exact .right skipped (ih each)

theorem lookup (ordered : InOrder passedOver alike lefts rights) (looked : ¬passedOver key) :
    Option.Rel (alike key) (lefts.lookup key) (rights.lookup key) := by
  induction ordered with
  | nil => exact .none
  | @both other _ _ _ _ values _ ih =>
      by_cases same : key = other
      · subst same
        simp only [List.lookup_cons_self]
        exact .some values
      · have different : (key == other) = false := beq_eq_false_iff_ne.mpr same
        simp only [List.lookup_cons, different]
        exact ih
  | @left other _ _ _ skipped _ ih =>
      have different : (key == other) = false :=
        beq_eq_false_iff_ne.mpr fun same => looked (same ▸ skipped)
      simp only [List.lookup_cons, different]
      exact ih
  | @right other _ _ _ skipped _ ih =>
      have different : (key == other) = false :=
        beq_eq_false_iff_ne.mpr fun same => looked (same ▸ skipped)
      simp only [List.lookup_cons, different]
      exact ih

theorem mem_keys_iff (ordered : InOrder passedOver alike lefts rights)
    (looked : ¬passedOver key) : key ∈ Entries.keys lefts ↔ key ∈ Entries.keys rights := by
  have found := ordered.lookup looked
  rw [← Entries.lookup_isSome_iff, ← Entries.lookup_isSome_iff]
  generalize lefts.lookup key = left at found ⊢
  generalize rights.lookup key = right at found ⊢
  cases found <;> simp

/-- A reader of members that are no comments reads the same of both, if it reads nothing under the
keys that are passed over and the same of alike values. -/
theorem flatMap_withoutComments (ordered : InOrder passedOver alike lefts rights)
    {read : String × Json → List β}
    (same : ∀ key left right, isCommentKey key = false → alike key left right →
      read (key, left) = read (key, right))
    (nothing : ∀ key value, isCommentKey key = false → passedOver key → read (key, value) = []) :
    (Member.withoutComments lefts).flatMap read =
      (Member.withoutComments rights).flatMap read := by
  have kept : ∀ (member : String × Json) (rest : List (String × Json)),
      (Member.withoutComments (member :: rest)).flatMap read =
        (if isCommentKey member.1 then [] else read member) ++
          (Member.withoutComments rest).flatMap read := by
    intro member rest
    cases comment : isCommentKey member.1 <;> simp [Member.withoutComments, comment]
  have skip : ∀ {key : String} (value : Json), passedOver key →
      (if isCommentKey key then [] else read (key, value)) = [] := by
    intro key value skipped
    cases comment : isCommentKey key with
    | true => rfl
    | false => exact nothing key value comment skipped
  induction ordered with
  | nil => rfl
  | @both key left right _ _ values _ ih =>
      rw [kept, kept, ih]
      cases comment : isCommentKey key with
      | true => rfl
      | false => simp only [same key left right comment values]
  | left skipped _ ih => rw [kept, skip _ skipped, List.nil_append, ih]
  | right skipped _ ih => rw [kept, skip _ skipped, List.nil_append, ih]

/-- Where only comments are passed over, the members that are none can be read one by one. -/
theorem map_withoutComments (ordered : InOrder passedOver alike lefts rights)
    (comments : ∀ key, passedOver key → isCommentKey key = true) {read : String × Json → β}
    (same : ∀ key left right, isCommentKey key = false → alike key left right →
      read (key, left) = read (key, right)) :
    (Member.withoutComments lefts).map read = (Member.withoutComments rights).map read := by
  rw [List.map_eq_flatMap, List.map_eq_flatMap]
  refine ordered.flatMap_withoutComments ?_ ?_
  · exact fun key left right comment values => congrArg (fun result => [result])
      (same key left right comment values)
  · intro key value comment skipped
    rw [comments key skipped] at comment
    cases comment

end InOrder

theorem InAnyOrder.lookup {passedOver : String → Prop} {alike : String → Json → Json → Prop}
    {lefts rights : List (String × Json)} (reordered : InAnyOrder passedOver alike lefts rights)
    (distinct : (Entries.keys lefts).Nodup) {key : String} (looked : ¬passedOver key) :
    Option.Rel (alike key) (lefts.lookup key) (rights.lookup key) := by
  obtain ⟨middle, permuted, ordered⟩ := reordered
  rw [Entries.lookup_eq_of_perm permuted distinct]
  exact ordered.lookup looked

/-! ## Readers of single members -/

theorem eq_of_rel_eq {left right : Option α} (same : Option.Rel Eq left right) : left = right := by
  cases same with
  | none => rfl
  | some values => rw [values]

namespace Member

variable {related : Json → Json → Prop} {lefts rights : List (String × Json)} {key : String}
  {left right : Json → Checked (Option α)}

theorem optional_congr (found : Option.Rel related (lefts.lookup key) (rights.lookup key))
    (same : ∀ value other, lefts.lookup key = some value → related value other →
      left value = right other) :
    optional lefts key left = optional rights key right := by
  unfold optional
  generalize lefts.lookup key = leftFound at found same ⊢
  generalize rights.lookup key = rightFound at found ⊢
  cases found with
  | none => rfl
  | some values => simp only [same _ _ rfl values]

theorem required_congr (found : Option.Rel related (lefts.lookup key) (rights.lookup key))
    (same : ∀ value other, lefts.lookup key = some value → related value other →
      left value = right other) :
    required lefts key left = required rights key right := by
  unfold required
  generalize lefts.lookup key = leftFound at found same ⊢
  generalize rights.lookup key = rightFound at found ⊢
  cases found with
  | none => rfl
  | some values => simp only [same _ _ rfl values]

end Member

end NodeDescriptor
