import NodeDescriptor.Proofs.AllOrNothing
import NodeDescriptor.Proofs.Disk.Directories
import NodeDescriptor.Proofs.Disk.Lookup

/-!
# Walks through file trees

`Below` says which paths of regular files there are below a directory, member by member and without
regard to the order or the end of a walk. A walk through a file tree that comes to an end has listed
exactly these, so a file tree is a disk that reflects its directories. In it a listed path leads to
its file again unless it is too long, for plain files are not looked up. The bound on the steps of a
walk stops none, because the paths that are looked up are bounded already.
-/

set_option autoImplicit false

namespace NodeDescriptor.FileTree

variable {tree : FileTree} {home place files : List String} {steps : Nat}
  {ancestors : List (List String)} {members : List (String × FileTree)} {path file : String}

private theorem gather_eq {α : Type} (visit : α → Except FileProblem (List String))
    (items : List α) :
    gather visit items = (items.mapM visit).map List.flatten := by
  induction items with
  | nil => rfl
  | cons item rest ih =>
      rw [gather, ih, List.mapM_cons]
      cases visit item with
      | error problem => rfl
      | ok first => cases rest.mapM visit <;> rfl

private theorem gather_congr {α : Type} {visit other : α → Except FileProblem (List String)}
    {items : List α} (same : ∀ item ∈ items, visit item = other item) :
    gather visit items = gather other items := by
  induction items with
  | nil => rfl
  | cons item rest ih =>
      obtain ⟨here, onward⟩ := List.forall_mem_cons.mp same
      rw [gather, gather, here, ih onward]

/-! ## Files below a directory -/

/-- What is in the directory to which a path leads. -/
def membersAt? (tree : FileTree) (home : List String) (path : String) :
    Option (List (String × FileTree)) :=
  match tree.locate home path with
  | .ok place => (tree.at? place).bind members?
  | .error _ => none

/-- What a directory says of an item in it. -/
def memberKind : FileTree → MemberKind
  | .file _ => .file
  | .directory _ => .directory
  | .link _ => .link
  | .device _ => .other

/-- The directory with this path has a member with this name and kind. -/
def Lists (tree : FileTree) (home : List String) (path name : String) (kind : MemberKind) : Prop :=
  ∃ members item, tree.membersAt? home path = some members ∧ (name, item) ∈ members ∧
    item.memberKind = kind

/-- There is a regular file with the second path below the directory with the first. -/
abbrev Below (tree : FileTree) (home : List String) : String → String → Prop :=
  (tree.disk home).Below (tree.Lists home)

private theorem membersAt?_eq_some_iff : tree.membersAt? home path = some members ↔
    ∃ place, tree.locate home path = .ok place ∧ tree.at? place = some (.directory members) := by
  unfold membersAt?
  cases tree.locate home path with
  | error problem => simp
  | ok place => simp [Option.bind_eq_some_iff, members?_eq_some_iff]

/-! ## Members of a walk -/

/-- What a walk finds at one member of a directory. A plain file is listed as it is, and a plain
directory is entered by its path; a link is listed, entered or passed over by what it leads to. -/
inductive Visited (tree : FileTree) (home : List String) (steps : Nat)
    (ancestors : List (List String)) (path : String) :
    String × FileTree → List String → Prop where
  | file (name : String) (content : ByteArray) :
      Visited tree home steps ancestors path (name, .file content) [PathName.join path name]
  | device (name : String) (content : ByteArray) :
      Visited tree home steps ancestors path (name, .device content) []
  | directory {name : String} {own : List (String × FileTree)} {target found : List String}
      (located : tree.locate home (PathName.join path name) = .ok target)
      (walked : tree.walkFrom home steps (target :: ancestors) target (PathName.join path name) =
        .ok found) : Visited tree home steps ancestors path (name, .directory own) found
  | linkedDirectory {name link : String} {own : List (String × FileTree)}
      {target found : List String}
      (located : tree.locate home (PathName.join path name) = .ok target)
      (inside : tree.at? target = some (.directory own)) (fresh : target ∉ ancestors)
      (walked : tree.walkFrom home steps (target :: ancestors) target (PathName.join path name) =
        .ok found) : Visited tree home steps ancestors path (name, .link link) found
  | linkedFile {name link : String} {target : List String} {content : ByteArray}
      (located : tree.locate home (PathName.join path name) = .ok target)
      (leaf : tree.at? target = some (.file content)) :
      Visited tree home steps ancestors path (name, .link link) [PathName.join path name]
  | linkedOther {name link : String} {target : List String}
      (located : tree.locate home (PathName.join path name) = .ok target)
      (noDirectory : ∀ own, tree.at? target ≠ some (.directory own))
      (noFile : ∀ content, tree.at? target ≠ some (.file content)) :
      Visited tree home steps ancestors path (name, .link link) []

/-- What is in the directory at a place, and nothing where there is no directory. -/
def listing (tree : FileTree) (place : List String) : List (String × FileTree) :=
  ((tree.at? place).bind members?).getD []

private theorem mem_listing_iff {member : String × FileTree} : member ∈ tree.listing place ↔
    ∃ members, tree.at? place = some (.directory members) ∧ member ∈ members := by
  unfold listing
  cases tree.at? place with
  | none => simp
  | some item => cases item <;> simp [members?]

/-- A walk gathers what it finds at the members of its directory, one after another. -/
theorem walkFrom_succ (tree : FileTree) (home : List String) (steps : Nat)
    (ancestors : List (List String)) (place : List String) (path : String) :
    ∃ visit : String × FileTree → Except FileProblem (List String),
      tree.walkFrom home (steps + 1) ancestors place path = gather visit (tree.listing place) ∧
        ∀ member found, visit member = .ok found →
          tree.Visited home steps ancestors path member found := by
  refine ⟨_, rfl, fun ⟨name, item⟩ found visited => ?_⟩
  cases item with
  | file content =>
      cases visited
      exact .file name content
  | device content =>
      cases visited
      exact .device name content
  | directory own =>
      obtain ⟨target, located, onward⟩ := bind_eq_ok_iff.mp visited
      exact .directory located onward
  | link link =>
      obtain ⟨target, located, onward⟩ := bind_eq_ok_iff.mp visited
      split at onward
      · next own inside =>
          split at onward
          · cases onward
          · next fresh => exact .linkedDirectory located inside fresh onward
      · next content leaf =>
          cases onward
          exact .linkedFile located leaf
      · next noDirectory noFile =>
          cases onward
          exact .linkedOther located noDirectory noFile

/-- A walk that comes to an end has looked at every member and listed what it found there. -/
theorem visited_of_walkFrom
    (walked : tree.walkFrom home (steps + 1) ancestors place path = .ok files) :
    (∀ member ∈ tree.listing place, ∃ part,
        tree.Visited home steps ancestors path member part ∧ part ⊆ files) ∧
      ∀ file ∈ files, ∃ member ∈ tree.listing place, ∃ part,
        tree.Visited home steps ancestors path member part ∧ file ∈ part := by
  obtain ⟨visit, gathered, visits⟩ := walkFrom_succ tree home steps ancestors place path
  rw [gathered, gather_eq, map_eq_ok_iff] at walked
  obtain ⟨parts, answered, rfl⟩ := walked
  refine ⟨fun member listed => ?_, fun file inFiles => ?_⟩
  · obtain ⟨part, visited⟩ := exists_of_mem_of_mapM answered listed
    exact ⟨part, visits _ _ visited, fun file inPart =>
      (mem_flatten_of_mapM answered).mpr ⟨member, listed, part, visited, inPart⟩⟩
  · obtain ⟨member, listed, part, visited, inPart⟩ := (mem_flatten_of_mapM answered).mp inFiles
    exact ⟨member, listed, part, visits _ _ visited, inPart⟩

/-! ## Whole walks -/

private theorem below_of_mem_walkFrom (located : tree.locate home path = .ok place)
    (walked : tree.walkFrom home steps ancestors place path = .ok files)
    (listed : file ∈ files) : tree.Below home path file := by
  induction steps generalizing ancestors place path files with
  | zero => cases walked
  | succ steps ih =>
      obtain ⟨member, here, part, visited, inPart⟩ := (visited_of_walkFrom walked).2 file listed
      obtain ⟨members, inside, inMembers⟩ := mem_listing_iff.mp here
      have around : tree.membersAt? home path = some members :=
        membersAt?_eq_some_iff.mpr ⟨place, located, inside⟩
      have lists {name : String} {item : FileTree} (inMembers : (name, item) ∈ members) :
          tree.Lists home path name item.memberKind := ⟨members, item, around, inMembers, rfl⟩
      cases visited with
      | file name content =>
          rw [List.mem_singleton.mp inPart]
          exact .file (lists inMembers)
      | device name content => cases inPart
      | directory reached onward => exact .directory (lists inMembers) (ih reached onward inPart)
      | linkedDirectory reached within fresh onward =>
          exact .linkedDirectory (lists inMembers)
            (kind?_eq_directory_iff.mpr ⟨_, _, reached, within⟩) (ih reached onward inPart)
      | linkedFile reached leaf =>
          rw [List.mem_singleton.mp inPart]
          exact .linkedFile (lists inMembers) (kind?_eq_file_iff.mpr ⟨_, _, reached, leaf⟩)
      | linkedOther => cases inPart

private theorem exists_visited {member : String × FileTree}
    (inside : tree.membersAt? home path = some members) (listed : member ∈ members)
    (located : tree.locate home path = .ok place)
    (walked : tree.walkFrom home steps ancestors place path = .ok files) :
    ∃ fewer part, tree.Visited home fewer ancestors path member part ∧ part ⊆ files := by
  obtain ⟨here, sameLocated, found⟩ := membersAt?_eq_some_iff.mp inside
  obtain rfl : place = here := Except.ok.inj (located.symm.trans sameLocated)
  cases steps with
  | zero => cases walked
  | succ steps =>
      have inListing := mem_listing_iff.mpr ⟨members, found, listed⟩
      obtain ⟨part, visited, kept⟩ := (visited_of_walkFrom walked).1 member inListing
      exact ⟨steps, part, visited, kept⟩

/-- What is below a directory has been found at the end of a walk, wherever the walk came from and
however many steps it was allowed. -/
theorem mem_walkFrom_of_below (below : tree.Below home path file)
    (located : tree.locate home path = .ok place)
    (walked : tree.walkFrom home steps ancestors place path = .ok files) : file ∈ files := by
  -- The walk through a member has other ancestors and fewer steps than the one it is part of.
  induction below generalizing steps ancestors place files with
  | file listed =>
      obtain ⟨members, item, inside, inMembers, kind⟩ := listed
      obtain ⟨fewer, part, visited, kept⟩ := exists_visited inside inMembers located walked
      cases visited with
      | file => exact kept List.mem_cons_self
      | _ => cases kind
  | linkedFile listed leads =>
      obtain ⟨members, item, inside, inMembers, kind⟩ := listed
      obtain ⟨fewer, part, visited, kept⟩ := exists_visited inside inMembers located walked
      obtain ⟨target, content, reached, leaf⟩ := kind?_eq_file_iff.mp leads
      cases visited with
      | linkedDirectory sameReached within =>
          cases reached.symm.trans sameReached
          cases leaf.symm.trans within
      | linkedFile => exact kept List.mem_cons_self
      | linkedOther sameReached noDirectory noFile =>
          cases reached.symm.trans sameReached
          exact absurd leaf (noFile content)
      | _ => cases kind
  | directory listed below ih =>
      obtain ⟨members, item, inside, inMembers, kind⟩ := listed
      obtain ⟨fewer, part, visited, kept⟩ := exists_visited inside inMembers located walked
      cases visited with
      | directory reached onward => exact kept (ih reached onward)
      | _ => cases kind
  | linkedDirectory listed leads below ih =>
      obtain ⟨members, item, inside, inMembers, kind⟩ := listed
      obtain ⟨fewer, part, visited, kept⟩ := exists_visited inside inMembers located walked
      obtain ⟨target, own, reached, within⟩ := kind?_eq_directory_iff.mp leads
      cases visited with
      | linkedDirectory onwardFrom _ fresh onward => exact kept (ih onwardFrom onward)
      | linkedFile sameReached leaf =>
          cases reached.symm.trans sameReached
          cases leaf.symm.trans within
      | linkedOther sameReached noDirectory noFile =>
          cases reached.symm.trans sameReached
          exact absurd within (noDirectory own)
      | _ => cases kind

/-- A walk that comes to an end lists exactly the regular files below its directory. -/
theorem mem_walk_iff (walked : tree.walk home path = .ok files) :
    file ∈ files ↔ tree.Below home path file := by
  rw [walk] at walked
  cases located : tree.locate home path with
  | error problem =>
      rw [located] at walked
      cases walked
  | ok place =>
      rw [located] at walked
      exact ⟨below_of_mem_walkFrom located walked, fun below =>
        mem_walkFrom_of_below below located walked⟩

private theorem kind?_join_of_lists {name : String} (wellNamed : tree.WellNamed)
    (listed : tree.Lists home path name .file)
    (short : (PathName.join path name).utf8ByteSize ≤ pathLimit) :
    tree.kind? home (PathName.join path name) = some .file := by
  obtain ⟨members, item, inside, inMembers, kind⟩ := listed
  obtain ⟨place, located, found⟩ := membersAt?_eq_some_iff.mp inside
  cases item with
  | file content => exact kind?_join wellNamed located found inMembers short
  | _ => cases kind

/-- A regular file that was found below a directory is found again by its path, if that is not too
long. -/
theorem Below.kind? (below : tree.Below home path file) (wellNamed : tree.WellNamed)
    (short : file.utf8ByteSize ≤ pathLimit) : tree.kind? home file = some .file := by
  induction below with
  | file listed => exact kind?_join_of_lists wellNamed listed short
  | linkedFile _ leads => exact leads
  | directory _ _ ih => exact ih short
  | linkedDirectory _ _ _ ih => exact ih short

theorem reflects (wellNamed : tree.WellNamed) : (tree.disk home).Reflects (tree.Lists home) where
  mem_walk_iff _ walked := mem_walk_iff walked
  kind?_file listed leads :=
    have short := utf8ByteSize_le_of_kind? leads
    Option.some.inj (leads.symm.trans (kind?_join_of_lists wellNamed listed short))

/-! ## The bound on the steps -/

/-- Every directory that is entered has a longer path than the one around it, so a walk with a step
for each byte that a path can still grow by is never stopped by its bound. -/
theorem walkFrom_add_steps (wellNamed : tree.WellNamed)
    (located : tree.locate home path = .ok place)
    (enough : pathLimit < path.utf8ByteSize + steps) (extra : Nat) :
    tree.walkFrom home (steps + extra) ancestors place path =
      tree.walkFrom home steps ancestors place path := by
  have short := (locate_eq_ok_iff.mp located).2.2.1
  induction steps generalizing ancestors place path with
  | zero => exact absurd enough (Nat.not_lt.mpr short)
  | succ steps ih =>
      rw [Nat.add_right_comm]
      change gather _ (tree.listing place) = gather _ (tree.listing place)
      refine gather_congr fun ⟨name, item⟩ listed => ?_
      obtain ⟨members, inside, inMembers⟩ := mem_listing_iff.mp listed
      have isName := (wellNamed.names_at inside).2 name (List.mem_map_of_mem inMembers)
      -- A member that is entered has been looked up by its own path, which is longer.
      have entered {target : List String} {around : List (List String)}
          (reached : tree.locate home (PathName.join path name) = .ok target) :
          tree.walkFrom home (steps + extra) around target (PathName.join path name) =
            tree.walkFrom home steps around target (PathName.join path name) := by
        have longer := PathName.utf8ByteSize_lt_join path isName
        exact ih reached (by omega) (locate_eq_ok_iff.mp reached).2.2.1
      cases item with
      | file content => rfl
      | device content => rfl
      | directory own =>
          cases reached : tree.locate home (PathName.join path name) with
          | error problem => simp only [reached, bind, Except.bind]
          | ok target => simp only [reached, bind, Except.bind, entered reached]
      | link link =>
          cases reached : tree.locate home (PathName.join path name) with
          | error problem => simp only [reached, bind, Except.bind]
          | ok target => simp only [reached, bind, Except.bind, entered reached]

/-- A walk finds what it would find without a bound on its steps. -/
theorem walkFrom_eq_walk (wellNamed : tree.WellNamed)
    (located : tree.locate home path = .ok place) (extra : Nat) :
    tree.walkFrom home (pathLimit + 1 + extra) [place] place path = tree.walk home path := by
  have walked : tree.walk home path = tree.walkFrom home (pathLimit + 1) [place] place path := by
    rw [walk, located]
    rfl
  rw [walked, walkFrom_add_steps wellNamed located (by omega)]

end NodeDescriptor.FileTree
