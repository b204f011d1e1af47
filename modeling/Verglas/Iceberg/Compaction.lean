import Mathlib.Algebra.GroupWithZero.Nat
import Mathlib.Data.List.Induction
import Mathlib.Data.List.MinMax
import Mathlib.Data.List.Perm.Subperm
import Mathlib.Data.Prod.Lex

/-!
# Compaction groups

A pass merges small files of one partition group by group.  The planner packs the small files of
each partition into bins, the larger files first, each into the fullest bin that has room, and takes
the bin of the most files.  Every commit leaves fewer small files, and a table in which the planner
finds no group has no two small files of one partition that fit into a group.
-/

namespace Verglas.Iceberg

open List

/-- A data file of the table. -/
structure DataFile (Partition : Type*) where
  path : String
  size : Nat
  partition : Partition
deriving DecidableEq

/-- A bin is opened with its first file. -/
structure Bin (Partition : Type*) where
  bytes : Nat
  first : DataFile Partition
  rest : List (DataFile Partition)

/-- The files that a commit removes and those that it carries forward. -/
structure Group (Partition : Type*) where
  toMerge : List (DataFile Partition)
  kept : List (DataFile Partition)
deriving DecidableEq

/-- No group is larger. -/
def maxFileGroupSizeBytes : Nat := 100 * 1024 * 1024 * 1024

/-- The lower edge of the healthy sizes: three quarters of the target. -/
def minFileSizeBytes (target : Nat) : Nat :=
  min (target * 75) (2 ^ 64 - 1) / 100

variable {Partition : Type*}

/-- The files of a bin. -/
def Bin.members (bin : Bin Partition) : List (DataFile Partition) := bin.first :: bin.rest

section Planner

variable (target maxFilesPerGroup : Nat) (files : List (DataFile Partition))

/-- A file goes into the fullest bin with room for it or else, if it fits at all, into a new one. -/
def place (bins : List (Bin Partition)) (file : DataFile Partition) : List (Bin Partition) :=
  match (bins.zipIdx.filter fun entry => entry.1.members.length < maxFilesPerGroup ∧
      entry.1.bytes + file.size ≤ maxFileGroupSizeBytes).reverse.argmax (·.1.bytes) with
  | some (_, index) =>
    bins.modify index fun bin => ⟨bin.bytes + file.size, bin.first, bin.rest ++ [file]⟩
  | none => bins ++
      if 0 < maxFilesPerGroup ∧ file.size ≤ maxFileGroupSizeBytes then [⟨file.size, file, []⟩]
      else []

/-- The bins of one partition's small files. -/
def pack : List (Bin Partition) :=
  files.foldl (place maxFilesPerGroup) []

/-- The larger file first, and files of one size by their paths. -/
def sortFiles : List (DataFile Partition) :=
  files.mergeSort fun left right =>
    right.size < left.size ∨ right.size = left.size ∧ left.path ≤ right.path

variable [DecidableEq Partition]

/-- The files of a partition below the healthy sizes. -/
def smallFiles (partition : Partition) : List (DataFile Partition) :=
  files.filter fun file => file.size < minFileSizeBytes target ∧ file.partition = partition

/-- The next group; `order` is the order in which the partitions are visited. -/
def planOneGroup (order : List Partition) : Option (Group Partition) :=
  let bins := order.flatMap fun partition =>
    (pack maxFilesPerGroup (sortFiles (smallFiles target files partition))).filter
      (2 ≤ ·.members.length)
  (bins.argmax fun bin => toLex (bin.members.length, bin.bytes)).map fun bin =>
    ⟨bin.members, files.filter (·.path ∉ bin.members.map DataFile.path)⟩

/-- A group is committed: its files give way to files of the target size and at most one other. -/
def Commits (before after : List (DataFile Partition)) : Prop :=
  ∃ order group added, planOneGroup target maxFilesPerGroup before order = some group ∧
    added.countP (·.size ≠ target) ≤ 1 ∧ after = group.kept ++ added

end Planner

variable {target maxFilesPerGroup : Nat} {bins : List (Bin Partition)}
  {files before after : List (DataFile Partition)}

/-- What one placement does. -/
theorem place_cases (maxFilesPerGroup : Nat) (bins : List (Bin Partition))
    (file : DataFile Partition) :
    (∃ front bin back, bins = front ++ bin :: back ∧ place maxFilesPerGroup bins file =
      front ++ ⟨bin.bytes + file.size, bin.first, bin.rest ++ [file]⟩ :: back) ∨
    (∀ bin ∈ bins, bin.members.length < maxFilesPerGroup →
      maxFileGroupSizeBytes < bin.bytes + file.size) ∧
      place maxFilesPerGroup bins file = bins ++
        if 0 < maxFilesPerGroup ∧ file.size ≤ maxFileGroupSizeBytes then [⟨file.size, file, []⟩]
        else [] := by
  rw [place]
  split
  · rename_i chosen index found
    have listed := mem_reverse.mp (argmax_mem found)
    have position := mem_zipIdx_iff_getElem?.mp (mem_filter.mp listed).1
    obtain ⟨front, bin, back, rfl, _, modified⟩ := List.exists_of_modify _
      (List.getElem?_eq_some_iff.mp position).1
    exact .inl ⟨front, bin, back, rfl, modified⟩
  · rename_i unfit
    rw [argmax_eq_none, reverse_eq_nil_iff, filter_eq_nil_iff] at unfit
    refine .inr ⟨fun bin member => ?_, rfl⟩
    obtain ⟨index, _, rfl⟩ := mem_iff_getElem.mp member
    simpa using unfit (bins[index], index) (by simp [mem_zipIdx_iff_getElem?])

/-- What the bins hold of the files that were packed: no file twice and, as long as no bin holds two
files, every file that fits at all in a bin of its own. -/
structure Packed (maxFilesPerGroup : Nat) (bins : List (Bin Partition))
    (files : List (DataFile Partition)) : Prop where
  once : (bins.flatMap Bin.members).Subperm files
  alone : (∀ bin ∈ bins, bin.members.length < 2) → 2 ≤ maxFilesPerGroup →
    files.Pairwise (fun left right => maxFileGroupSizeBytes < left.size + right.size) ∧
      ∀ file ∈ files, file.size ≤ maxFileGroupSizeBytes → ∃ bin ∈ bins, bin.bytes = file.size

theorem Packed.place (packed : Packed maxFilesPerGroup bins files) (file : DataFile Partition) :
    Packed maxFilesPerGroup (place maxFilesPerGroup bins file) (files ++ [file]) := by
  obtain ⟨once, alone⟩ := packed
  obtain ⟨front, bin, back, rfl, placed⟩ | ⟨full, placed⟩ := place_cases maxFilesPerGroup bins file
  · rw [placed]
    refine ⟨List.Perm.subperm ?_ |>.trans (once.append (.refl [file])), fun single => ?_⟩
    · simp only [flatMap_append, flatMap_cons, Bin.members, cons_append, append_assoc]
      exact .append_left _ (.cons _ (.append_left _ (@perm_append_comm _ [file] _)))
    · have pair := single _ (mem_append_right _ mem_cons_self)
      simp only [Bin.members, length_cons, length_append] at pair
      omega
  · rw [placed]
    refine ⟨?_, fun single two => ?_⟩
    · rw [flatMap_append]
      refine once.append ?_
      split
      · exact .refl _
      · exact nil_subperm
    · obtain ⟨pairwise, held⟩ := alone (fun bin mem => single bin (mem_append_left _ mem)) two
      refine ⟨pairwise_append.mpr ⟨pairwise, pairwise_singleton _ _, ?_⟩, ?_⟩
      · rintro other listed _ is_file
        cases mem_singleton.mp is_file
        by_contra fits
        obtain ⟨bin, mem, bytes⟩ := held other listed (by omega)
        have less := single bin (mem_append_left _ mem)
        have more := full bin mem (by omega)
        omega
      · intro other listed fits
        rcases mem_append.mp listed with old | new
        · obtain ⟨bin, mem, bytes⟩ := held other old fits
          exact ⟨bin, mem_append_left _ mem, bytes⟩
        · cases mem_singleton.mp new
          rw [if_pos ⟨by omega, fits⟩]
          exact ⟨_, mem_append_right _ mem_cons_self, rfl⟩

theorem packed_pack (maxFilesPerGroup : Nat) (files : List (DataFile Partition)) :
    Packed maxFilesPerGroup (pack maxFilesPerGroup files) files := by
  induction files using reverseRecOn with
  | nil => exact ⟨.refl _, fun _ _ => ⟨.nil, nofun⟩⟩
  | append_singleton files file induction =>
    rw [pack, foldl_concat, ← pack]
    exact induction.place file

variable [DecidableEq Partition]

theorem Commits.countP_lt (commits : Commits target maxFilesPerGroup before after) :
    after.countP (·.size < minFileSizeBytes target) <
      before.countP (·.size < minFileSizeBytes target) := by
  obtain ⟨order, group, added, planned, others, rfl⟩ := commits
  obtain ⟨bin, chosen, rfl⟩ := Option.map_eq_some_iff.mp planned
  obtain ⟨partition, _, mem⟩ := mem_flatMap.mp (argmax_mem chosen)
  obtain ⟨packed, two⟩ := mem_filter.mp mem
  have least : minFileSizeBytes target ≤ target := by
    rw [minFileSizeBytes]
    omega
  have small : added.countP (·.size < minFileSizeBytes target) ≤ 1 := by
    refine (countP_mono_left fun file _ below => ?_).trans others
    simp only [decide_eq_true_eq] at below ⊢
    omega
  have members : bin.members.Subperm (smallFiles target before partition) :=
    (sublist_flatten_of_mem (mem_map_of_mem packed)).subperm.trans
      ((packed_pack _ _).once.trans (mergeSort_perm _ _).subperm)
  have merged : 2 ≤ (before.filter (·.path ∈ bin.members.map DataFile.path)).countP
      (·.size < minFileSizeBytes target) := by
    rw [countP_filter]
    refine (of_decide_eq_true two).trans ?_
    refine Nat.le_trans ?_ ((members.countP_le _).trans filter_sublist.countP_le)
    refine (countP_eq_length.mpr fun file mem => ?_).ge
    have below := of_decide_eq_true (mem_filter.mp (members.subset mem)).2
    simp [below.1, mem_map_of_mem mem]
  have split := before.countP_eq_countP_filter_add (·.size < minFileSizeBytes target)
    (·.path ∈ bin.members.map DataFile.path)
  simp only [countP_append, ← decide_not] at split ⊢
  omega

/-- Compaction stops after finitely many commits.  When the planner finds no group, no two small
files of one partition fit into a group. -/
theorem compaction_drains (target maxFilesPerGroup : Nat) :
    WellFounded (fun after before : List (DataFile Partition) =>
      Commits target maxFilesPerGroup before after) ∧
    ∀ (order : List Partition) (files : List (DataFile Partition)),
      (∀ file ∈ files, file.partition ∈ order) →
      planOneGroup target maxFilesPerGroup files order = none → 2 ≤ maxFilesPerGroup →
        ∀ partition, (smallFiles target files partition).Pairwise fun left right =>
          maxFileGroupSizeBytes < left.size + right.size := by
  refine ⟨Subrelation.wf Commits.countP_lt (InvImage.wf _ Nat.lt_wfRel.wf),
    fun order files covers drained two partition => ?_⟩
  by_cases listed : partition ∈ order
  · have sorted : (sortFiles (smallFiles target files partition)).Perm _ := mergeSort_perm _ _
    refine (sorted.pairwise_iff fun apart => Nat.add_comm _ _ ▸ apart).mp
      ((packed_pack maxFilesPerGroup _).alone (fun bin mem => ?_) two).1
    rw [planOneGroup, Option.map_eq_none_iff, argmax_eq_none, flatMap_eq_nil_iff] at drained
    simpa using filter_eq_nil_iff.mp (drained partition listed) bin mem
  · have empty : smallFiles target files partition = [] :=
      filter_eq_nil_iff.mpr fun file mem small =>
        listed ((of_decide_eq_true small).2 ▸ covers file mem)
    exact empty ▸ .nil

/-- Two files of 60 GiB in one partition exceed a group together; the two files of the other
partition are merged by a commit, after which the planner finds no group. -/
theorem compaction_drains_merged :
    let large (path : String) : DataFile Bool := ⟨path, 60 * 1024 ^ 3, true⟩
    let after := [large "a", large "b", ⟨"e", 3, false⟩]
    Commits maxFileGroupSizeBytes 2 [large "a", large "b", ⟨"c", 2, false⟩, ⟨"d", 1, false⟩] after ∧
      ∀ partition, (smallFiles maxFileGroupSizeBytes after partition).Pairwise fun left right =>
        maxFileGroupSizeBytes < left.size + right.size := by
  intro large after
  refine ⟨⟨[true, false], ⟨[⟨"c", 2, false⟩, ⟨"d", 1, false⟩], [large "a", large "b"]⟩,
    [⟨"e", 3, false⟩], ?_, by decide, rfl⟩, (compaction_drains maxFileGroupSizeBytes 2).2
      [true, false] after (by decide) ?_ le_rfl⟩
  all_goals
    rw [planOneGroup, flatMap_cons, flatMap_singleton, sortFiles, sortFiles,
      mergeSort_of_pairwise (by decide), mergeSort_of_pairwise (by decide)]
    decide

end Verglas.Iceberg
