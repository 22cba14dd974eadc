import NodeDescriptor.Batch
import NodeDescriptor.Proofs.Disk.PathOrder
import NodeDescriptor.Proofs.Disk.Walk
import NodeDescriptor.Proofs.Disk.Writing

/-!
# Collected files

The files that are collected for some roots are a set of paths, written in order. They are the roots
that are files and the descriptor files below the others, so neither the order of the roots nor
repetitions matter. This holds on every disk that reflects its directories.

Collected files can be named as roots themselves if every one of them is found by its path. A file
below a directory need not be, since a walk lists plain files without looking them up.
-/

set_option autoImplicit false

namespace NodeDescriptor

open PathName

/-! ## Any disk -/

section AnyDisk

variable {disk : Disk} {roots others later found part : List String} {root path missing : String}
  {parts : List (List String)}

private theorem collect_eq_ok_iff : collect disk roots = .ok found ↔
    ∃ parts, roots.mapM (filesBelow disk) = .ok parts ∧ sorted parts.flatten = found := by
  rw [collect, map_eq_ok_iff]

/-- A root that is not there is reported unless the roots before it make trouble. -/
theorem collect_append_missing (collected : collect disk roots = .ok found)
    (nowhere : disk.kind? missing = none) :
    collect disk (roots ++ missing :: later) = .error (.missing missing) := by
  obtain ⟨parts, answered, -⟩ := collect_eq_ok_iff.mp collected
  have failed : filesBelow disk missing = .error (.missing missing) := by
    rw [filesBelow, nowhere]
  rw [collect, mapM_append_eq_error answered failed]
  rfl

private theorem exists_kind?_of_collect (collected : collect disk roots = .ok found)
    (listed : root ∈ roots) : ∃ kind, disk.kind? root = some kind := by
  obtain ⟨parts, answered, -⟩ := collect_eq_ok_iff.mp collected
  obtain ⟨part, answer⟩ := exists_of_mem_of_mapM answered listed
  cases leads : disk.kind? root with
  | some kind => exact ⟨kind, rfl⟩
  | none =>
      rw [filesBelow, leads] at answer
      cases answer

private theorem filesBelow_eq_ok_iff : filesBelow disk root = .ok part ↔
    (disk.kind? root = some .file ∧ part = [root]) ∨ (disk.kind? root = some .other ∧ part = []) ∨
      disk.kind? root = some .directory ∧
        ∃ files, disk.walk root = .ok files ∧ part = files.filter isDescriptorPath := by
  unfold filesBelow
  split
  · next leads => simp [leads]
  · next leads => simp [leads, eq_comm]
  · next leads => simp [leads, eq_comm]
  · next leads => cases disk.walk root <;> simp [leads, eq_comm]

/-- Only which roots there are decides about the collected paths. -/
theorem exists_collect_of_same_roots (collected : collect disk roots = .ok found)
    (sameRoots : ∀ root, root ∈ others ↔ root ∈ roots) :
    ∃ again, collect disk others = .ok again ∧ again.map components = found.map components := by
  obtain ⟨parts, answered, rfl⟩ := collect_eq_ok_iff.mp collected
  obtain ⟨otherParts, otherAnswered⟩ : ∃ parts, others.mapM (filesBelow disk) = .ok parts :=
    exists_mapM fun root listed => exists_of_mem_of_mapM answered ((sameRoots root).mp listed)
  refine ⟨_, collect_eq_ok_iff.mpr ⟨otherParts, otherAnswered, rfl⟩, ?_⟩
  refine map_components_sorted fun path => ?_
  rw [mem_flatten_of_mapM otherAnswered, mem_flatten_of_mapM answered]
  simp only [sameRoots]

/-- Files in ascending order are collected as they are. -/
theorem collect_files (ascending : Ascending roots)
    (files : ∀ root ∈ roots, disk.kind? root = some .file) : collect disk roots = .ok roots := by
  have answered : roots.mapM (filesBelow disk) = .ok (roots.map fun root => [root]) := by
    clear ascending
    induction roots with
    | nil => rfl
    | cons root rest ih =>
        obtain ⟨here, onward⟩ := List.forall_mem_cons.mp files
        refine mapM_cons_eq_ok_iff.mpr ⟨[root], _, ?_, ih onward, rfl⟩
        rw [filesBelow, here]
  refine collect_eq_ok_iff.mpr ⟨_, answered, ?_⟩
  rw [← List.flatMap_def, List.flatMap_singleton', sorted_eq_self ascending]

/-- The path is a root that is a file, or that of a descriptor file below a root. -/
def Disk.Sought (disk : Disk) (lists : String → String → MemberKind → Prop) (roots : List String)
    (path : String) : Prop :=
  (path ∈ roots ∧ disk.kind? path = some .file) ∨
    ∃ root ∈ roots, disk.kind? root = some .directory ∧ disk.Below lists root path ∧
      isDescriptorPath path = true

variable {lists : String → String → MemberKind → Prop} {kind : FileKind}

private theorem mem_iff_of_filesBelow (reflects : disk.Reflects lists)
    (answer : filesBelow disk root = .ok part) : path ∈ part ↔
      (path = root ∧ disk.kind? root = some .file) ∨
        disk.kind? root = some .directory ∧ disk.Below lists root path ∧
          isDescriptorPath path = true := by
  rcases filesBelow_eq_ok_iff.mp answer with
    ⟨leads, rfl⟩ | ⟨leads, rfl⟩ | ⟨leads, files, walked, rfl⟩
  · simp [leads]
  · simp [leads]
  · simp [leads, ← reflects.mem_walk_iff leads walked]

private theorem mem_flatten_iff_sought (reflects : disk.Reflects lists)
    (answered : roots.mapM (filesBelow disk) = .ok parts) :
    path ∈ parts.flatten ↔ disk.Sought lists roots path := by
  rw [mem_flatten_of_mapM answered]
  constructor
  · rintro ⟨root, listed, part, answer, inPart⟩
    rcases (mem_iff_of_filesBelow reflects answer).mp inPart with ⟨rfl, leads⟩ | below
    · exact .inl ⟨listed, leads⟩
    · exact .inr ⟨root, listed, below⟩
  · rintro (⟨listed, leads⟩ | ⟨root, listed, below⟩)
    · obtain ⟨part, answer⟩ := exists_of_mem_of_mapM answered listed
      exact ⟨path, listed, part, answer,
        (mem_iff_of_filesBelow reflects answer).mpr (.inl ⟨rfl, leads⟩)⟩
    · obtain ⟨part, answer⟩ := exists_of_mem_of_mapM answered listed
      exact ⟨root, listed, part, answer,
        (mem_iff_of_filesBelow reflects answer).mpr (.inr below)⟩

/-- What was sought is a regular file for everyone who can look it up. -/
theorem Disk.Sought.kind_eq_file (sought : disk.Sought lists roots path)
    (reflects : disk.Reflects lists) (leads : disk.kind? path = some kind) : kind = .file := by
  rcases sought with ⟨-, found⟩ | ⟨root, -, -, below, -⟩
  · exact Option.some.inj (leads.symm.trans found)
  · exact below.kind_eq_file reflects leads

private theorem ascending_of_collect (collected : collect disk roots = .ok found) :
    Ascending found := by
  obtain ⟨parts, -, rfl⟩ := collect_eq_ok_iff.mp collected
  exact ascending_sorted parts.flatten

private theorem sought_of_collect (reflects : disk.Reflects lists)
    (collected : collect disk roots = .ok found) (listed : path ∈ found) :
    disk.Sought lists roots path := by
  obtain ⟨parts, answered, rfl⟩ := collect_eq_ok_iff.mp collected
  exact (mem_flatten_iff_sought reflects answered).mp (mem_of_mem_sorted listed)

private theorem exists_collected_of_sought (reflects : disk.Reflects lists)
    (collected : collect disk roots = .ok found) (sought : disk.Sought lists roots path) :
    ∃ kept ∈ found, same kept path = true := by
  obtain ⟨parts, answered, rfl⟩ := collect_eq_ok_iff.mp collected
  obtain ⟨kept, inSorted, equal⟩ :=
    exists_mem_sorted ((mem_flatten_iff_sought reflects answered).mpr sought)
  exact ⟨kept, inSorted, same_iff.mpr equal⟩

/-- Collected files are collected again as they are exactly if all of them can be looked up. -/
theorem collect_again_iff (reflects : disk.Reflects lists)
    (collected : collect disk roots = .ok found) :
    collect disk found = .ok found ↔ ∀ path ∈ found, disk.kind? path = some .file := by
  refine ⟨fun again path listed => ?_, collect_files (ascending_of_collect collected)⟩
  obtain ⟨kind, leads⟩ := exists_kind?_of_collect again listed
  rw [leads, (sought_of_collect reflects collected listed).kind_eq_file reflects leads]

/-- The collected paths are strictly ascending, so no two are equal. They are those that are sought,
one for every class of equal ones; which roots are named matters, but not their order or how often.
The collected paths can be named as roots, and are then collected again as they are, exactly if each
of them leads to a regular file when it is looked up. And a root that is not there is reported after
roots without trouble. -/
theorem collect_exact (reflects : disk.Reflects lists)
    (collected : collect disk roots = .ok found) :
    (found.Pairwise fun one other => before one other = true ∧ same one other = false) ∧
      (∀ path ∈ found, disk.Sought lists roots path) ∧
      (∀ path, disk.Sought lists roots path → ∃ kept ∈ found, same kept path = true) ∧
      (∀ others, (∀ root, root ∈ others ↔ root ∈ roots) →
        ∃ again, collect disk others = .ok again ∧
          again.map components = found.map components) ∧
      (collect disk found = .ok found ↔ ∀ path ∈ found, disk.kind? path = some .file) ∧
      ∀ missing later, disk.kind? missing = none →
        collect disk (roots ++ missing :: later) = .error (.missing missing) := by
  have different {one other : String} (less : components one < components other) :
      same one other = false := by
    rw [← Bool.not_eq_true, same_iff]
    exact less.ne
  exact ⟨(ascending_of_collect collected).imp fun less => ⟨before_iff.mpr less, different less⟩,
    fun _ => sought_of_collect reflects collected,
    fun _ => exists_collected_of_sought reflects collected,
    fun _ => exists_collect_of_same_roots collected,
    collect_again_iff reflects collected,
    fun _ _ => collect_append_missing collected⟩

end AnyDisk

/-! ## File trees -/

namespace FileTree

variable {tree : FileTree} {home roots found : List String} {path : String}

private theorem kind?_of_collect (wellNamed : tree.WellNamed)
    (collected : collect (tree.disk home) roots = .ok found) (listed : path ∈ found)
    (short : path.utf8ByteSize ≤ pathLimit) : tree.kind? home path = some .file := by
  rcases sought_of_collect (reflects wellNamed) collected listed with
    ⟨-, leads⟩ | ⟨root, -, -, below, -⟩
  · exact leads
  · exact Below.kind? below wellNamed short

/-- In a file tree the length of a path decides whether what is collected can be looked up. -/
theorem collect_again_iff_short (wellNamed : tree.WellNamed)
    (collected : collect (tree.disk home) roots = .ok found) :
    collect (tree.disk home) found = .ok found ↔
      ∀ path ∈ found, path.utf8ByteSize ≤ pathLimit := by
  rw [collect_again_iff (reflects wellNamed) collected]
  exact forall₂_congr fun path listed =>
    ⟨utf8ByteSize_le_of_kind?, kind?_of_collect wellNamed collected listed⟩

/-! ## Paths with many slashes -/

/-- One descriptor file in a directory. -/
def oneFile : FileTree :=
  .directory [("d", .directory [("a.ogn", .file ⟨#[0x7b, 0x7d]⟩)])]

private theorem isFileName_descriptor : IsFileName "a.ogn" :=
  ⟨by decide, by decide, by decide, by decide, by decide, by decide⟩

private theorem write_oneFile :
    (FileTree.directory []).write [] "d/a.ogn" (.file ⟨#[0x7b, 0x7d]⟩) = .ok oneFile := by
  rfl

private theorem wellNamed_oneFile : oneFile.WellNamed := by
  have isDirectory : IsFileName "d" :=
    ⟨by decide, by decide, by decide, by decide, by decide, by decide⟩
  have shape : pieces "d/a.ogn" = ["d", "a.ogn"] := by decide
  refine (orderly_empty.write (orderly_file _) ?_ ?_ ?_ write_oneFile).wellNamed
  · exact List.forall_mem_nil _
  · rw [shape]
    exact List.forall_mem_singleton.mpr (.inr (.inr (.inr isDirectory)))
  · rw [shape]
    exact isFileName_descriptor

/-- The directory of that file, with slashes at the end of its path. -/
def slashed (count : Nat) : String := "d" ++ String.ofList (List.replicate count '/')

private theorem slashed_succ (count : Nat) : slashed (count + 1) = slashed count ++ "/" ++ "" := by
  rw [← String.toList_inj]
  simp [slashed, List.replicate_succ']

private theorem pieces_slashed (count : Nat) :
    pieces (slashed count) = "d" :: List.replicate count "" := by
  induction count with
  | zero => decide
  | succ count ih =>
      rw [slashed_succ, pieces_append_slash, ih, List.cons_append, List.replicate_succ']
      rfl

private theorem utf8ByteSize_slashed (count : Nat) : (slashed count).utf8ByteSize = count + 1 := by
  induction count with
  | zero => decide
  | succ count ih =>
      rw [slashed_succ, String.append_empty, String.utf8ByteSize_append, ih]
      rfl

private theorem join_slashed_succ (count : Nat) (name : String) :
    join (slashed (count + 1)) name = slashed (count + 1) ++ name := by
  rw [join, if_pos]
  simp [slashed_succ]

private theorem follow_replicate {place : List String} {members : List (String × FileTree)}
    (links : Nat)
    (inside : tree.at? place = some (.directory members)) (count : Nat) :
    tree.follow links place (List.replicate count "") = .ok place := by
  induction count with
  | zero => rw [List.replicate_zero, follow]
  | succ count ih =>
      have here : (tree.at? place).bind members? = some members := by rw [inside]; rfl
      rw [List.replicate_succ, follow, here]
      simpa using ih

private theorem locate_slashed {count : Nat} (short : count < pathLimit) :
    oneFile.locate [] (slashed count) = .ok ["d"] := by
  refine locate_eq_ok_iff.mpr ⟨by simp [slashed], by simp [slashed], ?_, ?_⟩
  · rw [utf8ByteSize_slashed]
    exact short
  · have entered : oneFile.follow linkLimit [] ("d" :: List.replicate count "") =
        oneFile.follow linkLimit ["d"] (List.replicate count "") := by
      rw [follow]
      rfl
    rw [origin, pieces_slashed, ite_self, entered]
    exact follow_replicate linkLimit rfl count

private theorem filesBelow_slashed {count : Nat} (short : count < pathLimit) :
    filesBelow (oneFile.disk []) (slashed count) = .ok [join (slashed count) "a.ogn"] := by
  have located := locate_slashed short
  have leads : oneFile.kind? [] (slashed count) = some .directory := by
    rw [FileTree.kind?, located]
    rfl
  have walked : oneFile.walk [] (slashed count) = .ok [join (slashed count) "a.ogn"] := by
    rw [walk, located]
    rfl
  have descriptor : isDescriptorPath (join (slashed count) "a.ogn") = true := by
    rw [isDescriptorPath, extension?_join _ isFileName_descriptor]
    decide
  refine filesBelow_eq_ok_iff.mpr (.inr (.inr ⟨leads, _, walked, ?_⟩))
  rw [List.filter_cons_of_pos descriptor, List.filter_nil]

/-- With so many slashes only the path of the directory is short enough to be looked up. -/
private theorem collect_slashed {count : Nat} (short : count + 1 < pathLimit)
    (long : pathLimit < (slashed (count + 1) ++ "a.ogn").utf8ByteSize) :
    collect (oneFile.disk []) [slashed (count + 1)] = .ok [slashed (count + 1) ++ "a.ogn"] ∧
      collect (oneFile.disk []) [slashed (count + 1) ++ "a.ogn"] =
        .error (.missing (slashed (count + 1) ++ "a.ogn")) := by
  have below := filesBelow_slashed short
  rw [join_slashed_succ] at below
  have answered : [slashed (count + 1)].mapM (filesBelow (oneFile.disk [])) =
      .ok [[slashed (count + 1) ++ "a.ogn"]] :=
    mapM_cons_eq_ok_iff.mpr ⟨_, [], below, rfl, rfl⟩
  have nowhere : (oneFile.disk []).kind? (slashed (count + 1) ++ "a.ogn") = none := by
    refine Option.eq_none_iff_forall_ne_some.mpr fun kind leads => ?_
    exact absurd (utf8ByteSize_le_of_kind? leads) (Nat.not_le.mpr long)
  have noRoots : collect (oneFile.disk []) [] = .ok [] := collect_files List.Pairwise.nil (by simp)
  exact ⟨collect_eq_ok_iff.mpr ⟨_, answered, sorted_eq_self (List.pairwise_singleton _ _)⟩,
    collect_append_missing noRoots nowhere⟩

/-- A file is collected through a directory whose own path is just short enough. The path of the
file is longer than any that is looked up, so as a root it leads nowhere. -/
theorem long_path_not_collected_again :
    (oneFile.disk []).Reflects (oneFile.Lists []) ∧
      collect (oneFile.disk []) [slashed 4090] = .ok [slashed 4090 ++ "a.ogn"] ∧
      collect (oneFile.disk []) [slashed 4090 ++ "a.ogn"] =
        .error (.missing (slashed 4090 ++ "a.ogn")) := by
  refine ⟨reflects wellNamed_oneFile, @collect_slashed 4089 (by decide) ?_⟩
  rw [String.utf8ByteSize_append, utf8ByteSize_slashed]
  decide

/-- The same file is found under three spellings, of which the first stays. -/
theorem overlapping_roots_collected :
    (oneFile.disk []).Reflects (oneFile.Lists []) ∧
      collect (oneFile.disk []) ["d//", "d", "d/"] = .ok ["d//a.ogn"] ∧
      (oneFile.disk []).Sought (oneFile.Lists []) ["d//", "d", "d/"] "d//a.ogn" ∧
      collect (oneFile.disk []) ["d//a.ogn"] = .ok ["d//a.ogn"] ∧
      (∃ again, collect (oneFile.disk []) ["d", "d/", "d//", "d"] = .ok again ∧
        again.map components = [[.name "d", .name "a.ogn"]]) ∧
      (oneFile.disk []).kind? "e" = none ∧
      collect (oneFile.disk []) ["d//", "d", "d/", "e", "d"] = .error (.missing "e") := by
  have bare : filesBelow (oneFile.disk []) "d" = .ok ["d/a.ogn"] :=
    @filesBelow_slashed 0 (by decide)
  have once : filesBelow (oneFile.disk []) "d/" = .ok ["d/a.ogn"] :=
    @filesBelow_slashed 1 (by decide)
  have twice : filesBelow (oneFile.disk []) "d//" = .ok ["d//a.ogn"] :=
    @filesBelow_slashed 2 (by decide)
  have ordered : ["d//a.ogn", "d/a.ogn", "d/a.ogn"].Pairwise
      fun one other => (!before other one) = true := by decide
  have collected : collect (oneFile.disk []) ["d//", "d", "d/"] = .ok ["d//a.ogn"] := by
    refine collect_eq_ok_iff.mpr ⟨[["d//a.ogn"], ["d/a.ogn"], ["d/a.ogn"]], ?_, ?_⟩
    · simp [List.mapM_cons, bare, once, twice, bind, Except.bind, pure, Except.pure]
    · have flat : [["d//a.ogn"], ["d/a.ogn"], ["d/a.ogn"]].flatten =
          ["d//a.ogn", "d/a.ogn", "d/a.ogn"] := rfl
      rw [flat, sorted, List.mergeSort_of_pairwise ordered]
      decide
  have located : oneFile.locate [] "e" = .error .notFound := by
    have followed : oneFile.follow linkLimit [] ["e"] = .error .notFound := by
      rw [follow]
      rfl
    exact followed
  have nowhere : oneFile.kind? [] "e" = none := by rw [FileTree.kind?, located]
  have found : ∀ path ∈ ["d//a.ogn"], oneFile.kind? [] path = some .file := by
    intro path listed
    refine kind?_of_collect wellNamed_oneFile collected listed ?_
    rw [List.mem_singleton.mp listed]
    decide
  have reflects : (oneFile.disk []).Reflects (oneFile.Lists []) := reflects wellNamed_oneFile
  obtain ⟨-, sought, -, permuted, again, missing⟩ := collect_exact reflects collected
  exact ⟨reflects, collected, sought _ (by simp), again.mpr found,
    permuted _ (by grind), nowhere, missing "e" ["d"] nowhere⟩

end FileTree

end NodeDescriptor
