import Mathlib.Data.Finset.Basic
import Mathlib.Data.Finset.Image
import Mathlib.Data.String.Basic

/-!
# Vector buckets

A bucket is a namespace with a control table and two tables for each index.  Creating and deleting
them takes several operations on the catalog, and a call ends at the first one that fails.
-/

namespace Verglas.Semantic

/-- The control table of a bucket. -/
def bucketControlTable : String := "verglas_vector_bucket"

/-- The control table of an index. -/
def indexControlTable (index : String) : String := "verglas_vector_index_" ++ index

/-- The tables in the namespace of a bucket, if the namespace exists. -/
abbrev Bucket := Option (Finset String)

/-- The operations on the catalog of which the calls are made. -/
inductive CatalogOp where
  | ensureNamespace
  | createTable (name : String)
  | useTable (name : String)
  | listTables
  | dropTable (name : String)
  | dropNamespace

/-- The bucket after an operation, unless the operation fails. -/
def CatalogOp.run : CatalogOp → Bucket → Option Bucket
  | .ensureNamespace, bucket => some (bucket.or (some ∅))
  | _, none => none
  | .createTable name, some tables =>
    if name ∈ tables then none else some (some (insert name tables))
  | .useTable name, some tables => if name ∈ tables then some tables else none
  | .listTables, some tables =>
    if ∃ table ∈ tables, table ≠ bucketControlTable then none else some tables
  | .dropTable name, some tables => if name ∈ tables then some (tables.erase name) else none
  | .dropNamespace, some tables => if tables = ∅ then some none else none

/-- Run operations up to the first that fails. -/
def execute : List CatalogOp → Bucket → Bucket
  | [], bucket => bucket
  | operation :: rest, bucket =>
    match operation.run bucket with
    | none => bucket
    | some next => execute rest next

/-- The calls that change the tables of a bucket. -/
inductive BucketCall where
  | createVectorBucket (tagged : Bool)
  | createIndex (index : String) (encrypted tagged : Bool)
  | deleteIndex (index : String)
  | deleteVectorBucket

/-- The length that a name must have. -/
def validateResourceName (name : String) : Bool :=
  3 ≤ name.utf8ByteSize && name.utf8ByteSize ≤ 63

/-- The operations of a call; tags are committed to a control table, and an index without an
encryption of its own reads that of the bucket. -/
def BucketCall.operations : BucketCall → List CatalogOp
  | .createVectorBucket tagged =>
    [.ensureNamespace, .createTable bucketControlTable] ++
      if tagged then [.useTable bucketControlTable] else []
  | .createIndex index encrypted tagged =>
    if validateResourceName index then
      (if encrypted then [] else [.useTable bucketControlTable]) ++
        [.ensureNamespace, .createTable index, .ensureNamespace,
          .createTable (indexControlTable index)] ++
        if tagged then [.useTable (indexControlTable index)] else []
    else []
  | .deleteIndex index => [.dropTable (indexControlTable index), .dropTable index]
  | .deleteVectorBucket => [.listTables, .dropTable bucketControlTable, .dropNamespace]

/-- A call in which the operation at `fault` fails without effect. -/
def BucketCall.run (call : BucketCall) (fault : Option Nat) (bucket : Bucket) : Bucket :=
  execute (fault.elim call.operations call.operations.take) bucket

/-- Delete the named indexes and then the bucket. -/
def tearDown (names : List String) (bucket : Bucket) : Bucket :=
  BucketCall.deleteVectorBucket.run none
    (names.foldl (fun bucket index => (BucketCall.deleteIndex index).run none bucket) bucket)

/-- Runs of calls on an unused bucket name; `admits` restricts the calls and their faults. -/
inductive BucketRun (admits : Bucket → BucketCall → Option Nat → Prop) : Bucket → Prop
  | start : BucketRun admits none
  | step {bucket : Bucket} (run : BucketRun admits bucket) (call : BucketCall)
      (fault : Option Nat) (admitted : admits bucket call fault) :
      BucketRun admits (call.run fault bucket)

/-- The name of an index is not that of a control table. -/
def Plain (index : String) : Prop :=
  index ≠ bucketControlTable ∧ ∀ other, index ≠ indexControlTable other

theorem ne_indexControlTable {name : String}
    (apart : name.toList.take 21 ≠ "verglas_vector_index_".toList) (index : String) :
    name ≠ indexControlTable index := by
  rintro rfl
  refine apart ?_
  change ("verglas_vector_index_" ++ index).toList.take 21 = _
  rw [String.toList_append]
  exact List.take_left' rfl

@[grind .] theorem bucketControlTable_ne (index : String) :
    bucketControlTable ≠ indexControlTable index :=
  ne_indexControlTable (by decide) index

@[grind →] theorem indexControlTable_inj {left right : String}
    (same : indexControlTable left = indexControlTable right) : left = right := by
  have chars : ("verglas_vector_index_" ++ left).toList =
      ("verglas_vector_index_" ++ right).toList := congrArg String.toList same
  rw [String.toList_append, String.toList_append] at chars
  exact String.toList_inj.mp (List.append_cancel_left chars)

/-- A bucket has its control table and both tables of some of the named indexes. -/
structure Tidy (names : List String) (tables : Finset String) : Prop where
  control : bucketControlTable ∈ tables
  paired : ∀ index ∈ names, index ∈ tables ↔ indexControlTable index ∈ tables
  known : ∀ table ∈ tables, table = bucketControlTable ∨
    ∃ index ∈ names, table = index ∨ table = indexControlTable index

namespace Tidy

variable {names : List String} {tables : Finset String} {index : String}
  (plain : ∀ index ∈ names, Plain index) (tidy : Tidy names tables)

include tidy

theorem deleteVectorBucket :
    BucketCall.deleteVectorBucket.run none (some tables) = none ∨
      BucketCall.deleteVectorBucket.run none (some tables) = some tables ∧
        ∃ index ∈ names, index ∈ tables := by
  obtain ⟨control, paired, known⟩ := tidy
  rw [BucketCall.run, Option.elim_none, BucketCall.operations]
  by_cases other : ∃ table ∈ tables, table ≠ bucketControlTable
  · refine .inr ⟨?_, by grind⟩
    simp only [execute, CatalogOp.run, if_pos other]
  · have alone : tables = {bucketControlTable} := by grind
    subst alone
    exact .inl rfl

include plain

theorem createIndex (listed : index ∈ names) (encrypted tagged : Bool) :
    ∃ after, (BucketCall.createIndex index encrypted tagged).run none (some tables) = some after ∧
      Tidy names after := by
  obtain ⟨control, paired, known⟩ := tidy
  rw [BucketCall.run, Option.elim_none, BucketCall.operations]
  split
  · by_cases member : index ∈ tables
    · refine ⟨tables, ?_, control, paired, known⟩
      cases encrypted <;> simp [execute, CatalogOp.run, control, member]
    · have fresh : indexControlTable index ∉ insert index tables := by grind [Plain]
      refine ⟨insert (indexControlTable index) (insert index tables), ?_, ?_, ?_, ?_⟩
      · cases encrypted <;> cases tagged <;>
          simp [execute, CatalogOp.run, control, member, fresh]
      · simp [control]
      · grind [Plain]
      · grind
  · exact ⟨tables, rfl, control, paired, known⟩

theorem deleteIndex (index : String) :
    ∃ after ⊆ tables, (BucketCall.deleteIndex index).run none (some tables) = some after ∧
      Tidy names after ∧ (index ∈ names → index ∉ after) := by
  obtain ⟨control, paired, known⟩ := tidy
  rw [BucketCall.run, Option.elim_none, BucketCall.operations]
  by_cases member : indexControlTable index ∈ tables
  · have listed : index ∈ names := by grind [Plain]
    have own : index ∈ tables.erase (indexControlTable index) := by grind [Plain]
    refine ⟨(tables.erase (indexControlTable index)).erase index, by grind, ?_, ⟨?_, ?_, ?_⟩,
      by simp⟩
    · simp only [execute, CatalogOp.run, member, own, if_true]
    · grind [Plain]
    · grind [Plain]
    · grind
  · refine ⟨tables, by rfl, ?_, ⟨control, paired, known⟩,
      fun listed => mt (paired index listed).mp member⟩
    simp [execute, CatalogOp.run, member]

theorem deleteIndexes (listed : List String) :
    ∃ after ⊆ tables, listed.foldl
        (fun bucket index => (BucketCall.deleteIndex index).run none bucket) (some tables) =
          some after ∧
      Tidy names after ∧ ∀ index ∈ names, index ∈ listed → index ∉ after := by
  induction listed generalizing tables with
  | nil => exact ⟨tables, by rfl, rfl, tidy, nofun⟩
  | cons name rest induction =>
    obtain ⟨middle, shrunk, deleted, still, gone⟩ := tidy.deleteIndex plain name
    obtain ⟨after, smaller, done, final, others⟩ := induction still
    refine ⟨after, smaller.trans shrunk, ?_, final, by grind⟩
    rw [List.foldl_cons, deleted, done]

end Tidy

/-- An operation that fails on a catalog or leaves it as it is. -/
def CatalogOp.Idle (operation : CatalogOp) (bucket : Bucket) : Prop :=
  ∀ next ∈ operation.run bucket, next = bucket

instance (operation : CatalogOp) (bucket : Bucket) : Decidable (operation.Idle bucket) :=
  inferInstanceAs (Decidable (∀ next ∈ operation.run bucket, next = bucket))

variable {bucket : Bucket}

theorem execute_of_idle {operations : List CatalogOp}
    (idle : ∀ operation ∈ operations, operation.Idle bucket) :
    execute operations bucket = bucket := by
  induction operations with
  | nil => rfl
  | cons operation rest induction =>
    rw [List.forall_mem_cons] at idle
    rw [execute]
    split
    · rfl
    · rename_i next ran
      rw [idle.1 next ran]
      exact induction idle.2

theorem execute_append_of_idle {back : List CatalogOp}
    (idle : ∀ operation ∈ back, ∀ bucket, operation.Idle bucket) (front : List CatalogOp)
    (bucket : Bucket) : execute (front ++ back) bucket = execute front bucket := by
  induction front generalizing bucket with
  | nil => exact execute_of_idle fun operation mem => idle operation mem bucket
  | cons operation rest induction =>
    rw [List.cons_append, execute, execute]
    split
    · rfl
    · exact induction _

/-- Indexes are created with listed names and in existing buckets.  No operation before a fault
changes the catalog of the call, or none behind it changes any catalog. -/
def Whole (names : List String) (bucket : Bucket) (call : BucketCall) (fault : Option Nat) : Prop :=
  (∀ index encrypted tagged, call = .createIndex index encrypted tagged →
    index ∈ names ∧ (encrypted → bucket.isSome)) ∧
  ∀ position ∈ fault,
    (∀ operation ∈ call.operations.take position, operation.Idle bucket) ∨
      ∀ operation ∈ call.operations.drop position, ∀ later, operation.Idle later

variable {names : List String}

/-- Such a fault leaves the bucket as it was or as the whole call leaves it. -/
theorem Whole.run_eq {call : BucketCall} {fault : Option Nat}
    (whole : Whole names bucket call fault) :
    call.run fault bucket = bucket ∨ call.run fault bucket = call.run none bucket := by
  cases fault with
  | none => exact .inr rfl
  | some position =>
    refine (whole.2 position rfl).imp execute_of_idle fun idle => ?_
    have complete := execute_append_of_idle idle (call.operations.take position) bucket
    rw [List.take_append_drop] at complete
    exact complete.symm

theorem BucketRun.tidy (plain : ∀ index ∈ names, Plain index)
    (run : BucketRun (Whole names) bucket) :
    ∀ tables, bucket = some tables → Tidy names tables := by
  induction run with
  | start => exact nofun
  | @step bucket _ call fault admitted induction =>
    have named := admitted.1
    rcases admitted.run_eq with unchanged | complete
    · rw [unchanged]
      exact induction
    rw [complete]
    cases bucket with
    | none =>
      cases call with
      | createVectorBucket tagged =>
        have created : (BucketCall.createVectorBucket tagged).run none none =
            some {bucketControlTable} := by
          cases tagged <;> rfl
        rw [created]
        rintro _ ⟨⟩
        exact ⟨by simp, by grind [Plain], by simp⟩
      | createIndex index encrypted tagged =>
        obtain ⟨_, present⟩ := named index encrypted tagged rfl
        cases encrypted with
        | true => cases present rfl
        | false =>
          rw [BucketCall.run, Option.elim_none, BucketCall.operations]
          split <;> exact nofun
      | deleteIndex | deleteVectorBucket => exact nofun
    | some tables =>
      have tidy := induction tables rfl
      cases call with
      | createVectorBucket tagged =>
        simpa [BucketCall.run, BucketCall.operations, execute, CatalogOp.run, tidy.control]
          using tidy
      | createIndex index encrypted tagged =>
        obtain ⟨after, created, still⟩ :=
          tidy.createIndex plain (named index encrypted tagged rfl).1 encrypted tagged
        rw [created]
        rintro _ ⟨⟩
        exact still
      | deleteIndex index =>
        obtain ⟨after, _, deleted, still, _⟩ := tidy.deleteIndex plain index
        rw [deleted]
        rintro _ ⟨⟩
        exact still
      | deleteVectorBucket =>
        rcases tidy.deleteVectorBucket with gone | ⟨kept, _⟩
        · rw [gone]
          exact nofun
        · rw [kept]
          exact induction

/-- If every fault comes before the first change of its call or behind the last, and indexes are
created in existing buckets and not with the names of control tables, deleting every index and then
the bucket leaves nothing behind. -/
theorem bucket_torn_down (names : List String) (plain : ∀ index ∈ names, Plain index)
    (bucket : Bucket) (run : BucketRun (Whole names) bucket) : tearDown names bucket = none := by
  rw [tearDown]
  cases bucket with
  | none =>
    rw [List.foldl_fixed' fun _ => rfl]
    rfl
  | some tables =>
    obtain ⟨after, _, deleted, tidy, gone⟩ := (run.tidy plain tables rfl).deleteIndexes plain names
    rw [deleted]
    rcases tidy.deleteVectorBucket with done | ⟨_, index, listed, left⟩
    · exact done
    · exact absurd left (gone index listed listed)

/-- A fault in the last operation of `DeleteVectorBucket` leaves a namespace that no deletion
removes. -/
theorem bucket_undeletable :
    ∃ bucket, BucketRun (fun _ _ _ => True) bucket ∧ bucket ≠ none ∧
      ∀ names times, (tearDown names)^[times] bucket = bucket := by
  have reached : BucketRun (fun _ _ _ => True) none := .start
  have created := reached.step (.createVectorBucket false) none trivial
  have deleted := created.step .deleteVectorBucket (some 2) trivial
  refine ⟨_, deleted, by decide, fun names times => Function.iterate_fixed ?_ times⟩
  rw [tearDown, List.foldl_fixed' fun _ => rfl]
  rfl

/-- Creating an index fails before its first table and is repeated, and its deletion fails. -/
theorem bucket_torn_down_repeated :
    ∃ bucket, BucketRun (Whole ["abc"]) bucket ∧
      bucket = some {indexControlTable "abc", "abc", bucketControlTable} ∧
      tearDown ["abc"] bucket = none := by
  have plain : ∀ index ∈ ["abc"], Plain index := by
    simpa [Plain] using ⟨by decide, fun other => ne_indexControlTable (by decide) other⟩
  have reached : BucketRun (Whole ["abc"]) none := .start
  have created := reached.step (.createVectorBucket true) none ⟨nofun, nofun⟩
  have failed := created.step (.createIndex "abc" false false) (some 2)
    ⟨by simp, by rintro _ ⟨⟩; exact .inl (by decide)⟩
  have repeated := failed.step (.createIndex "abc" false false) none ⟨by simp, nofun⟩
  have undeleted := repeated.step (.deleteIndex "abc") (some 0)
    ⟨nofun, by rintro _ ⟨⟩; exact .inl nofun⟩
  exact ⟨_, undeleted, by decide, bucket_torn_down _ plain _ undeleted⟩

end Verglas.Semantic
