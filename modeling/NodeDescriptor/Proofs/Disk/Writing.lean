import NodeDescriptor.Proofs.AllOrNothing
import NodeDescriptor.Proofs.Disk.Lookup

/-!
# Writing into file trees

A file tree is built by writing one item after another under paths. `Orderly` is what every step
keeps: the names in directories are names of files, and so is the last piece of every link, under
which a file may be written that is not there yet.
-/

set_option autoImplicit false

namespace NodeDescriptor.FileTree

variable {tree item inner after : FileTree} {home place target other rest : List String}
  {path name : String}

/-- Every name on the way to a place is one that a member of a directory can have. -/
def NamedPlace (place : List String) : Prop := ∀ name ∈ place, IsFileName name

/-- A tree in which names and the last pieces of links are names of files. -/
structure Orderly (tree : FileTree) : Prop where
  wellNamed : tree.WellNamed
  links {place : List String} {target : String} (found : tree.at? place = some (.link target)) :
    IsFileName ((PathName.pieces target).getLast?.getD "")

/-! ## Putting something at a place -/

private theorem at?_cons_eq (tree : FileTree) (name : String) (rest : List String) :
    tree.at? (name :: rest) = ((tree.members?.getD []).lookup name).bind (at? · rest) := by
  rw [at?]
  cases tree.members? <;> rfl

private theorem eq_of_at?_empty (found : (FileTree.directory []).at? place = some inner) :
    inner = .directory [] := by
  cases place with
  | nil =>
      cases found
      rfl
  | cons => cases found

private theorem at?_put_cons (tree item : FileTree) (name : String) (rest onward : List String) :
    (tree.put item (name :: rest)).at? (name :: onward) =
      ((((tree.members?.getD []).lookup name).getD (.directory [])).put item rest).at? onward := by
  rw [at?_cons_eq, put, members?, Option.getD_some, Entries.lookup_put_self, Option.bind_some]

/-- What is put somewhere changes nothing elsewhere. -/
theorem at?_put_of_ne {first : String} (different : first ≠ name) (onward : List String) :
    (tree.put item (name :: rest)).at? (first :: onward) = tree.at? (first :: onward) := by
  rw [at?_cons_eq, at?_cons_eq, put, members?, Option.getD_some,
    Entries.lookup_put_of_ne different]

theorem at?_put (tree item : FileTree) (place : List String) :
    (tree.put item place).at? place = some item := by
  induction place generalizing tree with
  | nil => rfl
  | cons name rest ih =>
      rw [at?_put_cons]
      exact ih _

/-- What is in a tree after something was put into it was there before or has come with it, apart
from directories. -/
theorem at?_of_at?_put (found : (tree.put item place).at? other = some inner)
    (noDirectory : ∀ members, inner ≠ .directory members) :
    tree.at? other = some inner ∨ ∃ rest, item.at? rest = some inner := by
  induction place generalizing tree other with
  | nil => exact .inr ⟨other, found⟩
  | cons name rest ih =>
      cases other with
      | nil =>
          cases found
          exact absurd rfl (noDirectory _)
      | cons first onward =>
          by_cases same : first = name
          · subst same
            rw [at?_put_cons] at found
            refine (ih found).imp_left fun before => ?_
            rw [at?_cons_eq]
            cases looked : (tree.members?.getD []).lookup first with
            | some member =>
                rw [looked] at before
                exact before
            | none =>
                -- The new directory is empty, so nothing that is in it was there before.
                rw [looked] at before
                exact absurd (eq_of_at?_empty before) (noDirectory [])
          · rw [at?_put_of_ne same] at found
            exact .inl found

theorem WellNamed.put (wellNamed : tree.WellNamed) (itemNamed : item.WellNamed)
    (named : NamedPlace place) : (tree.put item place).WellNamed := by
  induction place generalizing tree with
  | nil => exact itemNamed
  | cons name rest ih =>
      obtain ⟨isName, onward⟩ := List.forall_mem_cons.mp named
      obtain ⟨distinct, names, members⟩ :
          (Entries.keys (tree.members?.getD [])).Nodup ∧
            (∀ name ∈ Entries.keys (tree.members?.getD []), IsFileName name) ∧
            ∀ member ∈ tree.members?.getD [], member.2.WellNamed := by
        cases wellNamed with
        | directory distinct names inside => exact ⟨distinct, names, inside⟩
        | _ => exact ⟨List.nodup_nil, List.forall_mem_nil _, List.forall_mem_nil _⟩
      have innerNamed : (((tree.members?.getD []).lookup name).getD (.directory [])).WellNamed := by
        cases looked : (tree.members?.getD []).lookup name with
        | some member => exact members _ ((Entries.lookup_eq_some_iff_mem distinct).mp looked)
        | none => exact .directory List.nodup_nil (List.forall_mem_nil _) (List.forall_mem_nil _)
      refine .directory (Entries.nodup_keys_put distinct _ _) (fun other listed => ?_)
        fun member listed => ?_
      · rcases Entries.mem_keys_put.mp listed with before | rfl
        · exact names other before
        · exact isName
      · rcases Entries.mem_of_mem_put listed with before | rfl
        · exact members member before
        · exact ih innerNamed onward

theorem orderly_empty : (FileTree.directory []).Orderly where
  wellNamed := .directory List.nodup_nil (List.forall_mem_nil _) (List.forall_mem_nil _)
  links found := by cases eq_of_at?_empty found

theorem orderly_file (content : ByteArray) : (FileTree.file content).Orderly where
  wellNamed := .file content
  links {place _} found := by
    cases place with
    | nil => cases found
    | cons => cases found

theorem Orderly.put (orderly : tree.Orderly) (itemOrderly : item.Orderly)
    (named : NamedPlace place) : (tree.put item place).Orderly where
  wellNamed := orderly.wellNamed.put itemOrderly.wellNamed named
  links found :=
    (at?_of_at?_put found fun _ => nofun).elim orderly.links fun ⟨_, inItem⟩ =>
      itemOrderly.links inItem

/-! ## Finding the place -/

theorem NamedPlace.dropLast (named : NamedPlace place) : NamedPlace place.dropLast :=
  fun name listed => named name (List.dropLast_subset place listed)

theorem NamedPlace.concat (named : NamedPlace place) (isName : IsFileName name) :
    NamedPlace (place ++ [name]) :=
  List.forall_mem_append.mpr ⟨named, List.forall_mem_singleton.mpr isName⟩

theorem NamedPlace.origin (named : NamedPlace place) (path : String) :
    NamedPlace (origin place path) := by
  rw [FileTree.origin]
  split
  · exact List.forall_mem_nil _
  · exact named

/-- The pieces of a path only lead to places with names that are there. -/
theorem NamedPlace.leads {links : Nat} {pieces : List String} (named : NamedPlace place)
    (wellNamed : tree.WellNamed) (leads : tree.Leads links place pieces target) :
    NamedPlace target := by
  induction leads with
  | done => exact named
  | stay _ _ _ ih => exact ih named
  | up _ _ ih => exact ih named.dropLast
  | link _ _ _ _ _ _ ih => exact ih (named.origin _)
  | member inside _ _ _ looked _ _ ih =>
      have isName := (wellNamed.names_at inside).2 _
        (List.mem_map_of_mem (Entries.mem_of_lookup looked))
      exact ih (named.concat isName)

/-- Entering directories, and making those that are missing, leaves a tree orderly. -/
theorem Orderly.enter {pieces : List String} (orderly : tree.Orderly) (named : NamedPlace place)
    (proper : ∀ piece ∈ pieces, piece = "" ∨ piece = "." ∨ piece = ".." ∨ IsFileName piece)
    (entered : tree.enter place pieces = .ok (after, target)) :
    after.Orderly ∧ NamedPlace target := by
  induction pieces generalizing tree place with
  | nil =>
      cases entered
      exact ⟨orderly, named⟩
  | cons piece rest ih =>
      obtain ⟨here, onward⟩ := List.forall_mem_cons.mp proper
      rw [FileTree.enter] at entered
      split at entered
      · exact ih orderly named onward entered
      · next notSkipped =>
          split at entered
          · exact ih orderly named.dropLast onward entered
          · next notUp =>
              have isName : IsFileName piece := by grind
              split at entered
              · exact ih (orderly.put orderly_empty (named.concat isName)) (named.concat isName)
                  onward entered
              · obtain ⟨inner, followed, entered⟩ := bind_eq_ok_iff.mp entered
                split at entered
                · exact ih orderly (named.leads orderly.wellNamed (leads_of_follow followed))
                    onward entered
                · cases entered

/-- A file is only written under names of files, however many links are followed to it. -/
theorem NamedPlace.landing {links : Nat} (named : NamedPlace place) (orderly : tree.Orderly)
    (isName : IsFileName name) (landed : tree.landing links place name = .ok target) :
    NamedPlace target := by
  induction links, place, name using landing.induct tree with
  | case1 place name text linked =>
      rw [FileTree.landing.eq_1 tree place name text linked] at landed
      cases landed
  | case2 place name text links linked pieces ih =>
      rw [FileTree.landing.eq_2 tree place name text links linked] at landed
      obtain ⟨inner, followed, onward⟩ := bind_eq_ok_iff.mp landed
      exact ih inner ((named.origin text).leads orderly.wellNamed (leads_of_follow followed))
        (orderly.links linked) onward
  | case3 links place name noLink noOtherLink =>
      simp only [FileTree.landing] at landed
      cases landed
      exact named.concat isName

/-- Writing keeps a tree orderly if the path is one that a file can have. -/
theorem Orderly.write (orderly : tree.Orderly) (itemOrderly : item.Orderly)
    (named : NamedPlace home)
    (proper : ∀ piece ∈ (PathName.pieces path).dropLast,
      piece = "" ∨ piece = "." ∨ piece = ".." ∨ IsFileName piece)
    (isName : IsFileName ((PathName.pieces path).getLast?.getD ""))
    (written : tree.write home path item = .ok after) : after.Orderly := by
  obtain ⟨⟨made, place⟩, entered, written⟩ := bind_eq_ok_iff.mp written
  obtain ⟨madeOrderly, placeNamed⟩ := orderly.enter (named.origin path) proper entered
  cases item with
  | file content =>
      obtain ⟨landed, landing, written⟩ := bind_eq_ok_iff.mp written
      cases written
      exact madeOrderly.put itemOrderly (placeNamed.landing madeOrderly isName landing)
  | directory members =>
      obtain ⟨⟨last, lastPlace⟩, enteredLast, written⟩ := bind_eq_ok_iff.mp written
      cases written
      exact (madeOrderly.enter placeNamed
        (List.forall_mem_singleton.mpr (.inr (.inr (.inr isName)))) enteredLast).1
  | link | device =>
      cases written
      exact madeOrderly.put itemOrderly (placeNamed.concat isName)

end NodeDescriptor.FileTree
