import Mathlib.Data.List.Lex
import Mathlib.Data.List.MinMax

/-!
# The logical-key map

A key of the object store is attributed to a table by its prefix and within the table to a metadata
object, a data file or a column chunk.  The roots of all tables of all buckets stand in one sorted
vector, and the table of a key is the last one whose root is not behind the key.  That root need not
be a prefix of the key, although an earlier one is.
-/

namespace Verglas.Tables

open List

/-- A text as the list of its units, in the order in which texts are compared. -/
abbrev Key (α : Type*) := List α

/-- The format of a data file. -/
inductive FileFormat where
  | parquet
  | avro
  | orc
  deriving DecidableEq, Repr

/-- The bytes of a column chunk. -/
structure ChunkSpan where
  start : Nat
  stop : Nat
  column : Nat
  rowGroup : Nat
  deriving DecidableEq, Repr

/-- A data file of a table, with its chunks in order if its footer is known. -/
structure FileMeta where
  fileId : Nat
  format : FileFormat
  chunks : Option (List ChunkSpan)
  apart : ∀ spans, chunks = some spans →
    spans.Pairwise (fun left right => left.stop ≤ right.start) ∧
      ∀ span ∈ spans, span.start ≤ span.stop

/-- What a metadata object is. -/
inductive MetaKind where
  | metadataJson
  | manifestList
  | manifest
  | footer (file : Nat)
  | other
  deriving DecidableEq, Repr

/-- What a key is taken for. -/
inductive Classify where
  | unknown
  | tableMetadata (table : Nat) (kind : MetaKind)
  | tableData (table file : Nat) (chunk : Option (Nat × Nat))
  deriving DecidableEq, Repr

namespace FileMeta

/-- The column chunk in which a range starts: the last span that starts no later. -/
def resolveChunk (file : FileMeta) (start : Nat) : Option (Nat × Nat) :=
  if file.format = .parquet then do
    let spans ← file.chunks
    let span ← (spans.takeWhile (·.start ≤ start)).getLast?
    if start < span.stop then some (span.column, span.rowGroup) else none
  else none

/-- The range starts at or behind the end of the last chunk. -/
def isFooterRange (file : FileMeta) (start : Nat) : Bool :=
  if file.format = .parquet then
    match file.chunks.bind List.getLast? with
    | some last => last.stop ≤ start
    | none => false
  else false

/-- The column chunk that holds the start of a range. -/
def chunkAt (file : FileMeta) (start : Nat) : Option (Nat × Nat) :=
  if file.format = .parquet then do
    let spans ← file.chunks
    let span ← spans.find? (fun span => span.start ≤ start && start < span.stop)
    some (span.column, span.rowGroup)
  else none

end FileMeta

variable {α Bucket : Type*}

/-- What the mapper knows of a table. -/
structure TableIndex (α Bucket : Type*) where
  table : Nat
  bucket : Bucket
  root : Key α
  metadataPrefix : Key α
  byPath : Key α → Option FileMeta
  metaPaths : Key α → Option MetaKind

namespace TableIndex

variable [DecidableEq α]

/-- What a key under the root of a table is, with the chunks of ranges resolved in some way. -/
def assess (index : TableIndex α Bucket) (chunkOf : FileMeta → Nat → Option (Nat × Nat))
    (key : Key α) (range : Option Nat) : Classify :=
  match index.metaPaths key with
  | some kind => .tableMetadata index.table kind
  | none =>
    match index.byPath key, range with
    | some file, some start =>
      match chunkOf file start with
      | some chunk => .tableData index.table file.fileId (some chunk)
      | none =>
        if file.isFooterRange start then .tableMetadata index.table (.footer file.fileId)
        else .tableData index.table file.fileId none
    | some file, none => .tableData index.table file.fileId none
    | none, _ =>
      if index.metadataPrefix.isPrefixOf key then .tableMetadata index.table .other
      else .unknown

/-- What a key is by the chunk that holds the start of the range. -/
def judge (index : TableIndex α Bucket) : Key α → Option Nat → Classify :=
  index.assess FileMeta.chunkAt

/-- The table has something to say about a key. -/
def Recognises (index : TableIndex α Bucket) (key : Key α) : Prop :=
  (index.metaPaths key).isSome ∨ (index.byPath key).isSome ∨ index.metadataPrefix <+: key

end TableIndex

/-- The tables in the order of their roots. -/
structure MapperState (α Bucket : Type*) [LinearOrder α] where
  tablePrefixes : List (TableIndex α Bucket)
  sorted : tablePrefixes.Pairwise (·.root ≤ ·.root)
  distinct : ∀ left ∈ tablePrefixes, ∀ right ∈ tablePrefixes, left.bucket = right.bucket →
    left.root = right.root → left = right

namespace MapperState

variable [LinearOrder α] [DecidableEq Bucket]

/-- The last table whose root is not behind a key. -/
def predecessor (state : MapperState α Bucket) (key : Key α) : Option (TableIndex α Bucket) :=
  (state.tablePrefixes.takeWhile (·.root ≤ key)).getLast?

/-- Attribute a key, and the start of a range in it, to a table. -/
def classify (state : MapperState α Bucket) (bucket : Bucket) (key : Key α)
    (range : Option Nat) : Classify :=
  match state.predecessor key with
  | none => .unknown
  | some index =>
    if index.root.isPrefixOf key && index.bucket = bucket then
      index.assess FileMeta.resolveChunk key range
    else .unknown

/-- The table of a bucket with the longest root that is a prefix of a key. -/
def IsLongest (state : MapperState α Bucket) (bucket : Bucket) (key : Key α)
    (index : TableIndex α Bucket) : Prop :=
  (index ∈ state.tablePrefixes ∧ index.bucket = bucket ∧ index.root <+: key) ∧
    ∀ other ∈ state.tablePrefixes, other.bucket = bucket → other.root <+: key →
      other.root.length ≤ index.root.length

/-- The key is judged against the table with the longest root. -/
def Judged (state : MapperState α Bucket) (bucket : Bucket) (key : Key α) (range : Option Nat)
    (result : Classify) : Prop :=
  (∃ index, state.IsLongest bucket key index ∧ result = index.judge key range) ∨
    (∀ index ∈ state.tablePrefixes, index.bucket = bucket → ¬ index.root <+: key) ∧
      result = .unknown

/-- No root behind that of a table is before the key. -/
def Last (state : MapperState α Bucket) (key : Key α) (index : TableIndex α Bucket) : Prop :=
  ∃ before behind, state.tablePrefixes = before ++ index :: behind ∧
    ∀ other ∈ behind, key < other.root

end MapperState

/-- In spans that are in order and apart, the last one that starts no later than a position is the
only one that can hold it. -/
theorem getLast?_takeWhile_eq_find? {spans : List ChunkSpan} {position : Nat}
    (apart : spans.Pairwise (fun left right => left.stop ≤ right.start))
    (proper : ∀ span ∈ spans, span.start ≤ span.stop) :
    ((spans.takeWhile (·.start ≤ position)).getLast?.filter (position < ·.stop)) =
      spans.find? (fun span => span.start ≤ position && position < span.stop) := by
  induction spans with
  | nil => rfl
  | cons span spans induction =>
    obtain ⟨behind, apart⟩ := pairwise_cons.mp apart
    have next := induction apart (forall_mem_cons.mp proper).2
    have ordered := proper span mem_cons_self
    have none_before : position < span.stop → spans.takeWhile (·.start ≤ position) = [] ∧
          spans.find? (fun span => span.start ≤ position && position < span.stop) = none := by
      intro short
      have later : ∀ other ∈ spans, position < other.start :=
        fun other member => Nat.lt_of_lt_of_le short (behind other member)
      refine ⟨?_, find?_eq_none.mpr ?_⟩
      · cases spans with
        | nil => rfl
        | cons first rest =>
          have first_later := later first mem_cons_self
          exact takeWhile_cons_of_neg (by simpa using first_later)
      · intro other member
        have first := later other member
        simp only [Bool.and_eq_true, decide_eq_true_eq]
        omega
    by_cases starts : span.start ≤ position
    · rw [takeWhile_cons_of_pos (by simpa using starts), getLast?_cons, find?_cons]
      by_cases short : position < span.stop
      · simp [starts, short, none_before short]
      cases last : (spans.takeWhile (·.start ≤ position)).getLast? with
      | none =>
        rw [last] at next
        simp [Option.filter, short, ← next]
      | some final =>
        rw [last] at next
        simpa [short] using next
    · rw [takeWhile_cons_of_neg (by simpa using starts), find?_cons]
      simp [starts, none_before (by omega)]

theorem FileMeta.resolveChunk_eq_chunkAt (file : FileMeta) (start : Nat) :
    file.resolveChunk start = file.chunkAt start := by
  unfold FileMeta.resolveChunk FileMeta.chunkAt
  cases parsed : file.chunks with
  | none => rfl
  | some spans =>
    obtain ⟨apart, proper⟩ := file.apart spans parsed
    have found := @getLast?_takeWhile_eq_find? spans start apart proper
    cases last : (spans.takeWhile (·.start ≤ start)).getLast? with
    | none =>
      simp [last, ← found]
    | some final =>
      by_cases short : start < final.stop
      · simp [last, ← found, Option.filter, short]
      · simp [last, ← found, Option.filter, short]

theorem TableIndex.assess_eq_judge [DecidableEq α] (index : TableIndex α Bucket) (key : Key α)
    (range : Option Nat) :
    index.assess FileMeta.resolveChunk key range = index.judge key range := by
  rw [TableIndex.judge, show FileMeta.resolveChunk = FileMeta.chunkAt from
    funext fun file => funext file.resolveChunk_eq_chunkAt]

theorem TableIndex.judge_eq_unknown [DecidableEq α] {index : TableIndex α Bucket} {key : Key α}
    {range : Option Nat} : index.judge key range = .unknown ↔ ¬ index.Recognises key := by
  simp only [judge, assess, Recognises]
  cases known : index.metaPaths key with
  | some kind => simp
  | none =>
    cases stored : index.byPath key with
    | some file =>
      cases range with
      | none => simp
      | some start =>
        cases chunk : file.chunkAt start with
        | some chunk => simp [chunk]
        | none =>
          by_cases tail : file.isFooterRange start = true
          · simp [chunk, tail]
          · simp [chunk, tail]
    | none => simp

theorem getLast?_takeWhile_eq_some_iff {β : Type*} {p : β → Bool} {list : List β} {last : β}
    (first : list.Pairwise fun left right => p right = true → p left = true) :
    (list.takeWhile p).getLast? = some last ↔
      p last = true ∧ ∃ before behind, list = before ++ last :: behind ∧
        ∀ other ∈ behind, p other = false := by
  have filtered : list.takeWhile p = list.filter p := by
    induction list with
    | nil => rfl
    | cons head list induction =>
      obtain ⟨before, first⟩ := pairwise_cons.mp first
      cases holds : p head with
      | true => simp [holds, induction first]
      | false =>
        have none : ∀ other ∈ list, p other = false := fun other member =>
          Bool.eq_false_iff.mpr fun later => by simp [before other member later] at holds
        simpa [holds] using none
  rw [filtered, ← head?_reverse, ← filter_reverse, head?_filter, find?_eq_some_iff_append]
  refine and_congr_right fun _ => ⟨?_, ?_⟩
  · rintro ⟨behind, before, same, fails⟩
    refine ⟨before.reverse, behind.reverse, ?_, by simpa using fails⟩
    simpa using congrArg reverse same
  · rintro ⟨before, behind, rfl, fails⟩
    exact ⟨behind.reverse, before.reverse, by simp, by simpa using fails⟩

namespace MapperState

variable [LinearOrder α] [DecidableEq Bucket] {state : MapperState α Bucket} {bucket : Bucket}
  {key : Key α} {index : TableIndex α Bucket}

omit [DecidableEq Bucket] in
theorem root_le (under : index.root <+: key) : index.root ≤ key := by
  obtain ⟨rest, rfl⟩ := under
  cases rest with
  | nil => simp
  | cons unit rest =>
    have shorter := List.Lex.append_left (· < ·) (@List.Lex.nil _ _ unit rest) index.root
    rw [append_nil] at shorter
    exact le_of_lt shorter

omit [DecidableEq Bucket] in
theorem predecessor_eq_some_iff :
    state.predecessor key = some index ↔ index.root ≤ key ∧ state.Last key index := by
  rw [predecessor, getLast?_takeWhile_eq_some_iff]
  · simp [Last]
  · exact state.sorted.imp fun order before => by
      simp only [decide_eq_true_eq] at before ⊢
      exact order.trans before

omit [DecidableEq Bucket] in
theorem length_le_of_predecessor {other : TableIndex α Bucket}
    (found : state.predecessor key = some index) (under : index.root <+: key)
    (member : other ∈ state.tablePrefixes) (under_other : other.root <+: key) :
    other.root.length ≤ index.root.length := by
  obtain ⟨-, before, behind, tables, later⟩ := predecessor_eq_some_iff.mp found
  have sorted := state.sorted
  rw [tables] at member sorted
  have order : other.root ≤ index.root := by
    simp only [mem_append, mem_cons] at member
    rcases member with earlier | rfl | behind_key
    · exact (pairwise_append.mp sorted).2.2 other earlier index mem_cons_self
    · exact le_refl _
    · exact absurd (root_le under_other) (not_le.mpr (later other behind_key))
  rcases prefix_or_prefix_of_prefix under_other under with shorter | longer
  · exact shorter.length_le
  · exact (congrArg length (le_antisymm order (root_le longer))).le

omit [DecidableEq Bucket] in
theorem IsLongest.unique {other : TableIndex α Bucket} (longest : state.IsLongest bucket key index)
    (again : state.IsLongest bucket key other) : index = other := by
  obtain ⟨⟨member, same, under⟩, most⟩ := longest
  obtain ⟨⟨member_other, same_other, under_other⟩, most_other⟩ := again
  have length := le_antisymm (most_other index member same under)
    (most other member_other same_other under_other)
  refine state.distinct index member other member_other (same.trans same_other.symm) ?_
  rcases prefix_or_prefix_of_prefix under under_other with shorter | longer
  · exact shorter.eq_of_length length
  · exact (longer.eq_of_length length.symm).symm

theorem exists_isLongest (member : index ∈ state.tablePrefixes) (same : index.bucket = bucket)
    (under : index.root <+: key) : ∃ longest, state.IsLongest bucket key longest := by
  let candidates := state.tablePrefixes.filter fun other =>
    other.bucket = bucket ∧ other.root <+: key
  have candidate : ∀ {other}, other ∈ candidates ↔
      other ∈ state.tablePrefixes ∧ other.bucket = bucket ∧ other.root <+: key := by
    simp [candidates]
  cases most : candidates.argmax (·.root.length) with
  | none =>
    have empty := argmax_eq_none.mp most
    have present := candidate.mpr ⟨member, same, under⟩
    rw [empty] at present
    cases present
  | some longest =>
    exact ⟨longest, candidate.mp (argmax_mem most), fun other member same under =>
      le_of_mem_argmax (f := fun other : TableIndex α Bucket => other.root.length)
        (candidate.mpr ⟨member, same, under⟩) most⟩

/-- A key is judged against its predecessor if that is a table of the bucket with a root that is a
prefix of the key, and not known otherwise. -/
theorem classify_cases (range : Option Nat) :
    (∃ index, state.predecessor key = some index ∧ index.bucket = bucket ∧ index.root <+: key ∧
        state.IsLongest bucket key index ∧
        state.classify bucket key range = index.judge key range) ∨
      (∀ index, state.predecessor key = some index → index.bucket = bucket →
        ¬ index.root <+: key) ∧ state.classify bucket key range = .unknown := by
  cases found : state.predecessor key with
  | none => exact .inr ⟨by simp, by simp [classify, found]⟩
  | some index =>
    by_cases attributed : index.bucket = bucket ∧ index.root <+: key
    · obtain ⟨same, under⟩ := attributed
      obtain ⟨-, before, behind, tables, -⟩ := predecessor_eq_some_iff.mp found
      refine .inl ⟨index, rfl, same, under, ⟨⟨by simp [tables], same, under⟩, ?_⟩, ?_⟩
      · exact fun other member _ under_other =>
          length_le_of_predecessor found under member under_other
      · simp [classify, found, same, under, index.assess_eq_judge]
    · refine .inr ⟨?_, ?_⟩
      · rintro other ⟨⟩ same under
        exact attributed ⟨same, under⟩
      · rw [not_and'] at attributed
        simp only [classify, found]
        exact if_neg (by simpa using attributed)

/-- A key is judged against the table of its bucket with the longest root exactly when no root
between that table and the key stands behind it in the vector, or the table does not recognise the
key. -/
theorem classify_longest_iff (state : MapperState α Bucket) (bucket : Bucket) (key : Key α)
    (range : Option Nat) :
    state.Judged bucket key range (state.classify bucket key range) ↔
      ∀ index, state.IsLongest bucket key index → index.Recognises key →
        state.Last key index := by
  rcases @classify_cases α Bucket _ _ state bucket key range with
    ⟨index, found, same, under, longest, result⟩ | ⟨apart, result⟩
  · rw [result]
    refine iff_of_true (.inl ⟨index, longest, rfl⟩) fun other again _ => ?_
    rw [← longest.unique again]
    exact (predecessor_eq_some_iff.mp found).2
  · rw [result]
    constructor
    · rintro (⟨index, longest, unknown⟩ | ⟨none, -⟩) other again recognised
      · rw [longest.unique again] at unknown
        exact absurd recognised (TableIndex.judge_eq_unknown.mp unknown.symm)
      · exact absurd again.1.2.2 (none other again.1.1 again.1.2.1)
    · intro last
      by_cases some_under : ∃ index ∈ state.tablePrefixes, index.bucket = bucket ∧
          index.root <+: key
      · obtain ⟨index, member, same, under⟩ := some_under
        obtain ⟨longest, isLongest⟩ := exists_isLongest member same under
        refine .inl ⟨longest, isLongest,
          (TableIndex.judge_eq_unknown.mpr fun recognised => ?_).symm⟩
        have found := predecessor_eq_some_iff.mpr
          ⟨root_le isLongest.1.2.2, last longest isLongest recognised⟩
        exact apart longest found isLongest.1.2.1 isLongest.1.2.2
      · refine .inr ⟨fun index member same under => ?_, rfl⟩
        exact some_under ⟨index, member, same, under⟩

/-- A table at a root with one file, and metadata below it. -/
def tableAt (table : Nat) (root file : Key Nat) : TableIndex Nat Unit where
  table
  bucket := ()
  root
  metadataPrefix := root ++ [9]
  byPath key := if key = file then some ⟨0, .avro, none, by simp⟩ else none
  metaPaths _ := none

/-- A table at the root `[1, 0]` with the file `[1, 0, 5]`, and another one nested in it. -/
def nested : MapperState Nat Unit where
  tablePrefixes := [tableAt 1 [1, 0] [1, 0, 5], tableAt 2 [1, 0, 2, 0] [1, 0, 2, 0, 5]]
  sorted := by
    simp only [List.pairwise_cons, List.mem_singleton, forall_eq]
    exact ⟨@root_le Nat Unit _ _ (tableAt 1 [1, 0] [1, 0, 5]) ⟨[2, 0], rfl⟩, by simp⟩
  distinct := by simp [tableAt]

/-- A file of the outer table behind the nested root is not known. -/
theorem nested_root_hides_file :
    ¬ nested.Judged () [1, 0, 5] none (nested.classify () [1, 0, 5] none) := by
  have unknown : nested.classify () [1, 0, 5] none = .unknown := by decide
  rintro (⟨index, ⟨⟨member, -, under⟩, -⟩, judged⟩ | ⟨none, -⟩)
  · simp only [nested, mem_cons, not_mem_nil, or_false] at member
    rcases member with rfl | rfl
    · cases judged
    · exact absurd under (by decide)
  · exact none _ mem_cons_self rfl (by decide)

end MapperState
end Verglas.Tables
