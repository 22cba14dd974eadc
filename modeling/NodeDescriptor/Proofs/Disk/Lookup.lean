import NodeDescriptor.Disk.FileTree
import NodeDescriptor.Proofs.Dict
import NodeDescriptor.Proofs.Text.Split

/-!
# Looking up the members of directories

A path that leads to a directory, joined with the name of a regular file in it, leads to the file,
unless it has become too long: the pieces of the joined path are followed as those of the
directory's path are, and the last one needs no link.
-/

set_option autoImplicit false

namespace NodeDescriptor

open Text

/-- A name that a member of a directory can have. -/
structure IsFileName (name : String) : Prop where
  filled : name ≠ ""
  notCurrent : name ≠ "."
  notParent : name ≠ ".."
  slashFree : '/' ∉ name.toList
  nullFree : '\x00' ∉ name.toList
  bounded : name.utf8ByteSize ≤ FileTree.nameLimit

/-! ## Joined paths -/

namespace PathName

variable {name : String}

private theorem pieces_of_slashFree (slashFree : '/' ∉ name.toList) : pieces name = [name] := by
  rw [pieces, splitAll_of_not_mem slashFree, List.map_singleton, String.ofList_toList]

theorem pieces_append_slash (front back : String) :
    pieces (front ++ "/" ++ back) = pieces front ++ pieces back := by
  have characters : (front ++ "/" ++ back).toList = front.toList ++ '/' :: back.toList := by simp
  rw [pieces, characters, splitAll_append, List.map_append]
  rfl

/-- A path that ends with a slash has an empty last piece, in whose place the joined name comes. -/
theorem pieces_join (path : String) (slashFree : '/' ∉ name.toList) :
    ∃ front last, (last = [] ∨ last = [""]) ∧ pieces path = front ++ last ∧
      pieces (join path name) = front ++ [name] := by
  have single := pieces_of_slashFree slashFree
  rw [join]
  split
  · next slashLast =>
      obtain ⟨characters, shape⟩ := List.getLast?_eq_some_iff.mp slashLast
      have split : path = String.ofList characters ++ "/" ++ "" := by
        rw [← String.toList_inj, shape]
        simp
      refine ⟨pieces (String.ofList characters), [""], .inr rfl, ?_, ?_⟩
      · rw [split, pieces_append_slash]
        rfl
      · have joined : path ++ name = String.ofList characters ++ "/" ++ name := by
          rw [split, String.append_empty]
        rw [joined, pieces_append_slash, single]
  · refine ⟨pieces path, [], .inl rfl, (List.append_nil _).symm, ?_⟩
    rw [pieces_append_slash, single]

/-- The last piece of a path is its last component, if it is a name. -/
theorem getLast?_components {text : String} {front : List String} (isName : IsFileName name)
    (shape : pieces text = front ++ [name]) :
    (components text).getLast? = some (.name name) := by
  have component : component? name = some (.name name) := by
    rw [component?, if_neg (not_or.mpr ⟨isName.filled, isName.notCurrent⟩),
      if_neg isName.notParent]
  have last (before : List PathComponent) (between : List String) :
      (before ++ (between ++ [name]).filterMap component?).getLast? = some (.name name) := by
    rw [List.filterMap_append, List.filterMap_cons_some component, List.filterMap_nil,
      ← List.append_assoc, List.getLast?_concat]
  rw [components, shape]
  cases front with
  | nil =>
      split
      · next same =>
          cases same
          exact absurd rfl isName.filled
      · next same =>
          cases same
          exact absurd rfl isName.notCurrent
      · exact last [] []
  | cons first rest =>
      rw [List.cons_append]
      split
      · next same =>
          cases same
          exact last _ rest
      · next same =>
          cases same
          exact last [.current] rest
      · exact last [] (first :: rest)

/-- A joined path has the extension of the name. -/
theorem extension?_join (path : String) (isName : IsFileName name) :
    extension? (join path name) = extension? name := by
  obtain ⟨front, _, -, -, shape⟩ := pieces_join path isName.slashFree
  rw [extension?, extension?, getLast?_components isName shape,
    @getLast?_components name name [] isName (pieces_of_slashFree isName.slashFree)]

private theorem mem_join {path : String} {c : Char} (listed : c ∈ (join path name).toList) :
    c ∈ path.toList ∨ c = '/' ∨ c ∈ name.toList := by
  rw [join] at listed
  split at listed
  · rw [String.toList_append, List.mem_append] at listed
    exact listed.imp_right .inr
  · rw [String.toList_append, String.toList_append, List.mem_append, List.mem_append] at listed
    simpa [or_assoc] using listed

theorem utf8ByteSize_lt_join (path : String) (isName : IsFileName name) :
    path.utf8ByteSize < (join path name).utf8ByteSize := by
  have positive : 0 < name.utf8ByteSize :=
    Nat.pos_of_ne_zero fun empty => isName.filled (String.utf8ByteSize_eq_zero_iff.mp empty)
  rw [join]
  split
  · rw [String.utf8ByteSize_append]
    omega
  · rw [String.utf8ByteSize_append, String.utf8ByteSize_append]
    omega

private theorem head?_join {path : String} (filled : path ≠ "") :
    (join path name).toList.head? = path.toList.head? := by
  obtain ⟨c, rest, shape⟩ : ∃ c rest, path.toList = c :: rest :=
    List.exists_cons_of_ne_nil fun empty => filled (String.toList_eq_nil_iff.mp empty)
  rw [join]
  split <;> simp [shape]

end PathName

/-- In every directory of the tree the names are distinct, and they are names of files. -/
inductive FileTree.WellNamed : FileTree → Prop where
  | file (content : ByteArray) : WellNamed (.file content)
  | link (target : String) : WellNamed (.link target)
  | device (content : ByteArray) : WellNamed (.device content)
  | directory {members : List (String × FileTree)} (distinct : (Entries.keys members).Nodup)
      (names : ∀ name ∈ Entries.keys members, IsFileName name)
      (inside : ∀ member ∈ members, WellNamed member.2) : WellNamed (.directory members)

namespace FileTree

variable {tree inner item : FileTree} {home place target other : List String}
  {members : List (String × FileTree)} {path name : String} {content : ByteArray}

/-! ## Places -/

theorem members?_eq_some_iff : tree.members? = some members ↔ tree = .directory members := by
  cases tree <;> simp [members?]

theorem at?_cons {rest : List String} (found : tree.at? (name :: rest) = some inner) :
    ∃ members item, tree = .directory members ∧ members.lookup name = some item ∧
      item.at? rest = some inner := by
  rw [at?, Option.bind_eq_some_iff] at found
  obtain ⟨item, looked, onward⟩ := found
  obtain ⟨members, shape, looked⟩ := Option.bind_eq_some_iff.mp looked
  exact ⟨members, item, members?_eq_some_iff.mp shape, looked, onward⟩

private theorem at?_append_member (found : tree.at? place = some (.directory members))
    (listed : members.lookup name = some item) : tree.at? (place ++ [name]) = some item := by
  induction place generalizing tree with
  | nil =>
      cases found
      simp [at?, members?, listed]
  | cons first rest ih =>
      obtain ⟨around, next, rfl, looked, onward⟩ := at?_cons found
      rw [List.cons_append, at?, members?, Option.bind_some, looked, Option.bind_some]
      exact ih onward

theorem WellNamed.at? (wellNamed : tree.WellNamed) (found : tree.at? place = some inner) :
    inner.WellNamed := by
  induction place generalizing tree with
  | nil =>
      cases found
      exact wellNamed
  | cons first rest ih =>
      obtain ⟨members, item, rfl, looked, onward⟩ := at?_cons found
      cases wellNamed with
      | directory distinct names inside =>
          have listed := (Entries.lookup_eq_some_iff_mem distinct).mp looked
          exact ih (inside _ listed) onward

theorem WellNamed.names_at (wellNamed : tree.WellNamed)
    (inside : tree.at? place = some (.directory members)) :
    (Entries.keys members).Nodup ∧ ∀ name ∈ Entries.keys members, IsFileName name := by
  cases wellNamed.at? inside with
  | directory distinct names _ => exact ⟨distinct, names⟩

/-! ## Following pieces -/

/-- The pieces of a path lead from one place to another with at most so many links on the way. -/
inductive Leads (tree : FileTree) : Nat → List String → List String → List String → Prop where
  | done (links : Nat) (place : List String) : Leads tree links place [] place
  | stay {links : Nat} {place target rest : List String} {piece : String}
      {members : List (String × FileTree)} (inside : tree.at? place = some (.directory members))
      (skipped : piece = "" ∨ piece = ".") (onward : Leads tree links place rest target) :
      Leads tree links place (piece :: rest) target
  | up {links : Nat} {place target rest : List String} {members : List (String × FileTree)}
      (inside : tree.at? place = some (.directory members))
      (onward : Leads tree links place.dropLast rest target) :
      Leads tree links place (".." :: rest) target
  | link {links : Nat} {place target rest : List String} {piece text : String}
      {members : List (String × FileTree)} (inside : tree.at? place = some (.directory members))
      (notSkipped : ¬(piece = "" ∨ piece = ".")) (notUp : piece ≠ "..")
      (bounded : piece.utf8ByteSize ≤ nameLimit) (looked : members.lookup piece = some (.link text))
      (onward : Leads tree links (origin place text) (PathName.pieces text ++ rest) target) :
      Leads tree (links + 1) place (piece :: rest) target
  | member {links : Nat} {place target rest : List String} {piece : String} {item : FileTree}
      {members : List (String × FileTree)} (inside : tree.at? place = some (.directory members))
      (notSkipped : ¬(piece = "" ∨ piece = ".")) (notUp : piece ≠ "..")
      (bounded : piece.utf8ByteSize ≤ nameLimit) (looked : members.lookup piece = some item)
      (noLink : ∀ text, item ≠ .link text)
      (onward : Leads tree links (place ++ [piece]) rest target) :
      Leads tree links place (piece :: rest) target

variable {links : Nat} {pieces : List String}

private theorem bind_members?_eq_some_iff : (tree.at? place).bind members? = some members ↔
    tree.at? place = some (.directory members) := by
  simp [Option.bind_eq_some_iff, members?_eq_some_iff]

theorem leads_of_follow (found : tree.follow links place pieces = .ok target) :
    tree.Leads links place pieces target := by
  induction links, place, pieces using follow.induct tree with
  | case1 links place =>
      rw [follow] at found
      cases found
      exact .done links _
  | case2 links place piece rest nowhere =>
      rw [follow, nowhere] at found
      cases found
  | case3 links place piece rest members inside skipped ih =>
      rw [follow, inside] at found
      simp only [if_pos skipped] at found
      exact .stay (bind_members?_eq_some_iff.mp inside) skipped (ih found)
  | case4 links place rest members inside other ih =>
      rw [follow, inside] at found
      simp only [if_neg other, if_pos] at found
      exact .up (bind_members?_eq_some_iff.mp inside) (ih found)
  -- In the next three cases the way ends with a problem, and nothing was found.
  | case5 links place piece rest members inside other notUp long =>
      rw [follow, inside] at found
      simp only [if_neg other, if_neg notUp, if_pos long] at found
      cases found
  | case6 links place piece rest members inside other notUp short absent =>
      rw [follow, inside] at found
      simp only [if_neg other, if_neg notUp, if_neg short, absent] at found
      cases found
  | case7 place piece rest members inside other notUp short target linked =>
      rw [follow, inside] at found
      simp only [if_neg other, if_neg notUp, if_neg short, linked] at found
      cases found
  | case8 place piece rest members inside other notUp short text linked links ih =>
      rw [follow, inside] at found
      simp only [if_neg other, if_neg notUp, if_neg short, linked] at found
      exact .link (bind_members?_eq_some_iff.mp inside) other notUp (Nat.not_lt.mp short) linked
        (ih found)
  | case9 links place piece rest members inside other notUp short item noLink looked ih =>
      rw [follow, inside] at found
      simp only [if_neg other, if_neg notUp, if_neg short, looked] at found
      refine .member (bind_members?_eq_some_iff.mp inside) other notUp (Nat.not_lt.mp short) looked
        noLink (ih ?_)
      cases item with
      | link text => exact absurd rfl (noLink text)
      | _ => exact found

theorem Leads.follow (leads : tree.Leads links place pieces target) :
    tree.follow links place pieces = .ok target := by
  induction leads with
  | done => rw [FileTree.follow]
  | stay inside skipped onward ih =>
      rw [FileTree.follow, bind_members?_eq_some_iff.mpr inside]
      simp only [if_pos skipped, ih]
  | up inside onward ih =>
      rw [FileTree.follow, bind_members?_eq_some_iff.mpr inside]
      simpa using ih
  | link inside notSkipped notUp bounded looked onward ih =>
      rw [FileTree.follow, bind_members?_eq_some_iff.mpr inside]
      simp only [if_neg notSkipped, if_neg notUp, if_neg (Nat.not_lt.mpr bounded), looked, ih]
  | @member links _ _ rest _ item _ inside notSkipped notUp bounded looked noLink onward ih =>
      rw [FileTree.follow, bind_members?_eq_some_iff.mpr inside]
      simp only [if_neg notSkipped, if_neg notUp, if_neg (Nat.not_lt.mpr bounded), looked]
      cases item with
      | link text => exact absurd rfl (noLink text)
      | _ => exact ih

/-- What is followed at the end of a path may be exchanged for something that leads on from the
same places, however many links are left there. -/
theorem Leads.append_congr {first second : List String}
    (leads : tree.Leads links place (pieces ++ first) target)
    (onward : ∀ links place, tree.Leads links place first target →
      tree.Leads links place second other) :
    tree.Leads links place (pieces ++ second) other := by
  generalize whole : pieces ++ first = all at leads
  induction leads generalizing pieces with
  | done links place =>
      obtain ⟨rfl, rfl⟩ := List.append_eq_nil_iff.mp whole
      exact onward links place (.done links place)
  | stay inside skipped rest ih =>
      rcases List.append_eq_cons_iff.mp whole with ⟨rfl, rfl⟩ | ⟨before, rfl, rfl⟩
      · exact onward _ _ (.stay inside skipped rest)
      · exact .stay inside skipped (ih onward rfl)
  | up inside rest ih =>
      rcases List.append_eq_cons_iff.mp whole with ⟨rfl, rfl⟩ | ⟨before, rfl, rfl⟩
      · exact onward _ _ (.up inside rest)
      · exact .up inside (ih onward rfl)
  | link inside notSkipped notUp bounded looked rest ih =>
      rcases List.append_eq_cons_iff.mp whole with ⟨rfl, rfl⟩ | ⟨before, rfl, rfl⟩
      · exact onward _ _ (.link inside notSkipped notUp bounded looked rest)
      · -- The pieces of the link come before what is left of the path, whose end stays in place.
        have exchanged := ih onward (List.append_assoc _ _ _)
        rw [List.append_assoc] at exchanged
        exact .link inside notSkipped notUp bounded looked exchanged
  | member inside notSkipped notUp bounded looked noLink rest ih =>
      rcases List.append_eq_cons_iff.mp whole with ⟨rfl, rfl⟩ | ⟨before, rfl, rfl⟩
      · exact onward _ _ (.member inside notSkipped notUp bounded looked noLink rest)
      · exact .member inside notSkipped notUp bounded looked noLink (ih onward rfl)

private theorem Leads.eq_of_empty (leads : tree.Leads links place [""] target) :
    target = place := by
  generalize empty : [""] = pieces at leads
  cases leads with
  | done => cases empty
  | stay _ _ onward =>
      cases empty
      cases onward
      rfl
  | up => exact absurd (List.cons.inj empty).1 (by decide)
  | link _ notSkipped | member _ notSkipped =>
      cases empty
      exact absurd (.inl rfl) notSkipped

private theorem leads_file (links : Nat) (isName : IsFileName name)
    (inside : tree.at? place = some (.directory members))
    (looked : members.lookup name = some (.file content)) :
    tree.Leads links place [name] (place ++ [name]) :=
  .member inside (not_or.mpr ⟨isName.filled, isName.notCurrent⟩) isName.notParent isName.bounded
    looked (fun _ => nofun) (.done links _)

/-! ## Looking up -/

theorem locate_eq_ok_iff :
    tree.locate home path = .ok place ↔ path ≠ "" ∧ '\x00' ∉ path.toList ∧
      path.utf8ByteSize ≤ pathLimit ∧
      tree.follow linkLimit (origin home path) (PathName.pieces path) = .ok place := by
  unfold locate
  split
  · simp_all
  · split
    · simp_all
    · split
      · next long => simp [Nat.not_le.mpr long]
      · next short => simp_all

private theorem locate_join (wellNamed : tree.WellNamed) (found : tree.locate home path = .ok place)
    (inside : tree.at? place = some (.directory members))
    (listed : (name, .file content) ∈ members)
    (short : (PathName.join path name).utf8ByteSize ≤ pathLimit) :
    tree.locate home (PathName.join path name) = .ok (place ++ [name]) := by
  obtain ⟨filled, nullFree, -, followed⟩ := locate_eq_ok_iff.mp found
  obtain ⟨distinct, names⟩ := wellNamed.names_at inside
  have isName : IsFileName name := names name (List.mem_map_of_mem listed)
  have looked := (Entries.lookup_eq_some_iff_mem distinct).mpr listed
  obtain ⟨front, last, lastShape, pathPieces, joinPieces⟩ :=
    PathName.pieces_join path isName.slashFree
  have sameHead := @PathName.head?_join name path filled
  refine locate_eq_ok_iff.mpr ⟨fun empty => ?_, fun listed => ?_, short, ?_⟩
  · rw [empty] at sameHead
    exact filled (String.toList_eq_nil_iff.mp (List.head?_eq_none_iff.mp sameHead.symm))
  · rcases PathName.mem_join listed with inPath | slash | inName
    · exact nullFree inPath
    · exact absurd slash (by decide)
    · exact isName.nullFree inName
  · rw [pathPieces] at followed
    rw [joinPieces, origin, sameHead]
    refine ((leads_of_follow followed).append_congr fun links current reached => ?_).follow
    have here : current = place := by
      rcases lastShape with rfl | rfl
      · cases reached
        rfl
      · exact reached.eq_of_empty.symm
    rw [here]
    exact leads_file links isName inside looked

theorem kind?_eq_file_iff : tree.kind? home path = some .file ↔
    ∃ place content, tree.locate home path = .ok place ∧ tree.at? place = some (.file content) := by
  unfold kind?
  cases tree.locate home path with
  | error problem => simp
  | ok place =>
      dsimp only
      split <;> simp_all

theorem kind?_eq_directory_iff : tree.kind? home path = some .directory ↔
    ∃ place members, tree.locate home path = .ok place ∧
      tree.at? place = some (.directory members) := by
  unfold kind?
  cases tree.locate home path with
  | error problem => simp
  | ok place =>
      dsimp only
      split <;> simp_all

/-- A path that leads somewhere is not too long. -/
theorem utf8ByteSize_le_of_kind? {kind : FileKind} (leads : tree.kind? home path = some kind) :
    path.utf8ByteSize ≤ pathLimit := by
  unfold kind? at leads
  split at leads
  · cases leads
  · next place found => exact (locate_eq_ok_iff.mp found).2.2.1

/-- A regular file in a directory is found again by its path, if that is not too long. -/
theorem kind?_join (wellNamed : tree.WellNamed) (found : tree.locate home path = .ok place)
    (inside : tree.at? place = some (.directory members))
    (listed : (name, .file content) ∈ members)
    (short : (PathName.join path name).utf8ByteSize ≤ pathLimit) :
    tree.kind? home (PathName.join path name) = some .file := by
  have looked := (Entries.lookup_eq_some_iff_mem (wellNamed.names_at inside).1).mpr listed
  exact kind?_eq_file_iff.mpr ⟨place ++ [name], content,
    locate_join wellNamed found inside listed short, at?_append_member inside looked⟩

end FileTree

end NodeDescriptor
