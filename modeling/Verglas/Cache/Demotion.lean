import Mathlib.Data.List.Dedup
import Mathlib.Algebra.BigOperators.Group.List.Basic
import Mathlib.Algebra.GroupWithZero.Nat

/-!
# Retired objects

An object that a table no longer needs is demoted, and hard-evicted when its grace period is over.
Demotion sets a bit in the keys under which data blocks of the object are looked up.  Data blocks,
metadata blocks and pinned suffixes are stored under keys of their own; the two stores are one list
over all keys, and a fill is the key that it has computed and not yet stored.
-/

namespace Verglas.Cache

open List

variable {Object : Type*}

/-- One block of one version of an object. -/
structure BlockKey (Object : Type*) where
  object : Object
  etag : String
  blockIndex : Nat
  deriving DecidableEq

/-- The keys of the block store and of the metadata store. -/
inductive EntryKey (Object : Type*) where
  | data (block : BlockKey Object) (generation : Nat)
  | metadata (block : BlockKey Object) (generation : Nat)
  | suffix (object : Object) (etag : String) (len generation : Nat)
  deriving DecidableEq

namespace EntryKey

def object : EntryKey Object → Object
  | .data block _ | .metadata block _ => block.object
  | .suffix object _ _ _ => object

def etag : EntryKey Object → String
  | .data block _ | .metadata block _ => block.etag
  | .suffix _ etag _ _ => etag

def isData : EntryKey Object → Bool
  | .data _ _ => true
  | .metadata _ _ | .suffix _ _ _ _ => false

end EntryKey

/-- What the cache knows of an object: its version and its size. -/
structure Mapping where
  etag : String
  size : Nat

/-- A file that left the live set, to be demoted. -/
structure DemoteRequest (Object : Type*) where
  key : Object
  size : Nat

/-- What the engine knew of an object when it was demoted; a hard eviction carries the same. -/
structure DemoteReceipt (Object : Type*) where
  key : Object
  etag : Option String
  size : Nat
  generation : Nat

/-- A receipt and the end of its grace period. -/
structure Demotion (Object : Type*) extends DemoteReceipt Object where
  hardEvictAtMs : Nat

/-- The engine and the schedule of the retirement scheduler. -/
structure HybridCacheEngine (Object : Type*) where
  purgeGeneration : Nat := 0
  demotions : List Object := []
  resident : List (EntryKey Object) := []
  fills : List (EntryKey Object) := []
  mapping : Object → Option Mapping := fun _ => none
  retiredBytesPending : BitVec 64 := 0
  schedule : List (Demotion Object) := []

/-- The bit that no live generation carries. -/
def demotedGenerationBit : Nat := 2 ^ 63

/-- The blocks of an object of this size. -/
def blockCount (blockBytes size : Nat) : Nat := (size + blockBytes - 1) / blockBytes

variable [DecidableEq Object]

/-- Records a demotion; a known ETag is not overwritten by an unknown one. -/
def record (schedule : List (Demotion Object)) (demotion : Demotion Object) :
    List (Demotion Object) :=
  let known := (schedule.find? fun other => other.key = demotion.key).bind (·.etag)
  { demotion with etag := demotion.etag.or known } ::
    schedule.filter fun other => other.key ≠ demotion.key

/-- Whether a hard eviction removes an entry. -/
def DemoteReceipt.removes (blockBytes : Nat) (eviction : DemoteReceipt Object) :
    EntryKey Object → Bool
  | .data block generation | .metadata block generation =>
    block.object = eviction.key ∧ eviction.etag = some block.etag ∧
      block.blockIndex < blockCount blockBytes eviction.size ∧ generation = eviction.generation
  | .suffix _ _ _ _ => false

namespace HybridCacheEngine

variable (engine : HybridCacheEngine Object)

/-- The key of a data block; its generation is poisoned while the object is demoted. -/
def blockEntryKey (block : BlockKey Object) : EntryKey Object :=
  .data block (if block.object ∈ engine.demotions then
    engine.purgeGeneration ||| demotedGenerationBit else engine.purgeGeneration)

/-- The key of a metadata block; its generation is never poisoned. -/
def metaBlockKey (block : BlockKey Object) : EntryKey Object :=
  .metadata block engine.purgeGeneration

/-- The key of a cached suffix of an object. -/
def metaSuffixKey (object : Object) (etag : String) (len : Nat) : EntryKey Object :=
  .suffix object etag len engine.purgeGeneration

/-- The keys under which a read of the object looks, and under which its fills store. -/
inductive Looks (object : Object) : EntryKey Object → Prop
  | data (etag : String) (index : Nat) : Looks object (engine.blockEntryKey ⟨object, etag, index⟩)
  | metadata (etag : String) (index : Nat) :
      Looks object (engine.metaBlockKey ⟨object, etag, index⟩)
  | suffix (etag : String) (len : Nat) : Looks object (engine.metaSuffixKey object etag len)

/-- Metadata is always admitted, data when the gate lets it and its key is not poisoned. -/
def admits (gate : Bool) : EntryKey Object → Bool
  | .data _ generation => gate && generation &&& demotedGenerationBit == 0
  | .metadata _ _ | .suffix _ _ _ _ => true

/-- What is remembered of a demoted file for its eviction. -/
def receipt (file : DemoteRequest Object) : DemoteReceipt Object where
  key := file.key
  etag := (engine.mapping file.key).map Mapping.etag
  size := if 0 < file.size then file.size else ((engine.mapping file.key).map Mapping.size).getD 0
  generation := engine.purgeGeneration

/-- The keys of the files that are not demoted yet. -/
def newly (files : List (DemoteRequest Object)) : List Object :=
  ((files.map DemoteRequest.key).filter (· ∉ engine.demotions)).dedup

/-- Demotes the files of one commit and records their receipts. -/
def retire (files : List (DemoteRequest Object)) (deadline : Nat) : HybridCacheEngine Object :=
  { engine with
    demotions := engine.demotions ++ engine.newly files
    retiredBytesPending := engine.retiredBytesPending + .ofNat 64
      (((files.map engine.receipt).filter (·.key ∈ engine.newly files)).map (·.size)).sum
    schedule := (files.map fun file => ⟨engine.receipt file, deadline⟩).foldl record
      engine.schedule }

/-- Remove the blocks, mappings and demotions that the receipts name. -/
def hardEvict (blockBytes : Nat) (evictions : List (DemoteReceipt Object)) :
    HybridCacheEngine Object :=
  { engine with
    resident := engine.resident.filter fun entry => !evictions.any (·.removes blockBytes entry)
    mapping := fun key => if key ∈ evictions.map (·.key) then none else engine.mapping key
    demotions := engine.demotions.filter (· ∉ evictions.map (·.key))
    retiredBytesPending := engine.retiredBytesPending - .ofNat 64
      ((evictions.filter (·.key ∈ engine.demotions)).map (·.size)).sum }

/-- The demotions whose deadline has passed. -/
def expired (now : Nat) : List (DemoteReceipt Object) :=
  (engine.schedule.filter fun demotion => demotion.hardEvictAtMs ≤ now).map (·.toDemoteReceipt)

/-- Evict the expired demotions and forget them. -/
def sweepExpired (blockBytes now : Nat) : HybridCacheEngine Object :=
  { engine.hardEvict blockBytes (engine.expired now) with
    schedule := engine.schedule.filter fun demotion => ¬demotion.hardEvictAtMs ≤ now }

end HybridCacheEngine

/-- What can happen to the engine. -/
inductive EngineEvent (Object : Type*) where
  | map (object : Object) (mapping : Option Mapping)
  /-- A fill computes the key that it will store under. -/
  | fill (entry : EntryKey Object)
  | admission (entry : EntryKey Object) (gate : Bool)
  | evict (entry : EntryKey Object)
  | retire (files : List (DemoteRequest Object)) (deadline : Nat)
  | sweep (now : Nat)
  | purge

section Runs

variable (blockBytes : Nat) (versions : Object → String → Nat)

/-- The entry lies within the version of its object. -/
def EntryKey.Inside : EntryKey Object → Prop
  | .data block _ | .metadata block _ =>
    block.blockIndex < blockCount blockBytes (versions block.object block.etag)
  | .suffix _ _ _ _ => True

namespace HybridCacheEngine

/-- What an event does. -/
def apply (engine : HybridCacheEngine Object) : EngineEvent Object → HybridCacheEngine Object
  | .map object mapping =>
    { engine with mapping := Function.update engine.mapping object mapping }
  | .fill entry => { engine with fills := entry :: engine.fills }
  | .admission entry gate =>
    { engine with
      fills := engine.fills.erase entry
      resident := if admits gate entry then entry :: engine.resident else engine.resident }
  | .evict entry => { engine with resident := engine.resident.erase entry }
  | .retire files deadline => engine.retire files deadline
  | .sweep now => engine.sweepExpired blockBytes now
  | .purge => { engine with purgeGeneration := engine.purgeGeneration + 1 }

/-- A fill stores a block of its object under the key of that moment, and ends once. -/
def Possible (engine : HybridCacheEngine Object) : EngineEvent Object → Prop
  | .fill entry => engine.Looks entry.object entry ∧ entry.Inside blockBytes versions
  | .admission entry _ => entry ∈ engine.fills
  | _ => True

/-- The engines that allowed events lead to. -/
inductive Run (allowed : HybridCacheEngine Object → EngineEvent Object → Prop) :
    HybridCacheEngine Object → Prop
  | start : Run allowed {}
  | step {engine : HybridCacheEngine Object} {event : EngineEvent Object}
      (run : Run allowed engine) (possible : engine.Possible blockBytes versions event)
      (ok : allowed engine event) : Run allowed (engine.apply blockBytes event)

end HybridCacheEngine

end Runs

namespace HybridCacheEngine

variable {blockBytes : Nat} {versions : Object → String → Nat} {engine : HybridCacheEngine Object}

variable {event : EngineEvent Object} {entry : EntryKey Object}
  {allowed : HybridCacheEngine Object → EngineEvent Object → Prop} {generation : Nat}
  {demotions schedule : List (Demotion Object)}

theorem mem_resident_apply (member : entry ∈ (engine.apply blockBytes event).resident) :
    entry ∈ engine.resident ∨ ∃ gate, event = .admission entry gate ∧ admits gate entry := by
  cases event with
  | admission other gate =>
    simp only [apply] at member
    split at member
    · rename_i admitted
      rcases mem_cons.mp member with rfl | old
      · exact .inr ⟨gate, rfl, admitted⟩
      · exact .inl old
    · exact .inl member
  | evict other => exact .inl (mem_of_mem_erase member)
  | sweep now => exact .inl (mem_of_mem_filter member)
  | _ => exact .inl member

/-- A key that is stored or about to be was so before, or a fill has just computed it. -/
theorem mem_entries_apply (possible : engine.Possible blockBytes versions event)
    (member : entry ∈ (engine.apply blockBytes event).resident ++
      (engine.apply blockBytes event).fills) :
    entry ∈ engine.resident ++ engine.fills ∨ event = .fill entry := by
  rcases mem_append.mp member with stored | filling
  · rcases mem_resident_apply stored with old | ⟨gate, rfl, _⟩
    · exact .inl (mem_append_left _ old)
    · exact .inl (mem_append_right _ possible)
  · cases event with
    | fill other =>
      rcases mem_cons.mp filling with rfl | old
      · exact .inr rfl
      · exact .inl (mem_append_right _ old)
    | admission other gate => exact .inl (mem_append_right _ (mem_of_mem_erase filling))
    | _ => exact .inl (mem_append_right _ filling)

theorem mem_demotions_apply {object : Object}
    (member : object ∈ (engine.apply blockBytes event).demotions) :
    object ∈ engine.demotions ∨
      ∃ files deadline, event = .retire files deadline ∧ object ∈ files.map DemoteRequest.key := by
  cases event with
  | retire files deadline =>
    rcases mem_append.mp member with old | new
    · exact .inl old
    · exact .inr ⟨files, deadline, rfl, mem_of_mem_filter (mem_dedup.mp new)⟩
  | sweep now => exact .inl (mem_of_mem_filter member)
  | _ => exact .inl member

/-- No data block is stored under a poisoned key. -/
theorem Run.live (run : Run blockBytes versions allowed engine) {block : BlockKey Object}
    (stored : .data block generation ∈ engine.resident) :
    generation &&& demotedGenerationBit = 0 := by
  induction run with
  | start => cases stored
  | step _ _ _ induction =>
    rcases mem_resident_apply stored with old | ⟨gate, _, admitted⟩
    · exact induction old
    · simp only [admits, Bool.and_eq_true, beq_iff_eq] at admitted
      exact admitted.2

/-- The objects that are demoted have no metadata blocks and no suffixes: none is stored or about to
be stored when an object is demoted, and none is filled while it is. -/
def MetadataApart (engine : HybridCacheEngine Object) : EngineEvent Object → Prop
  | .retire files _ => ∀ entry ∈ engine.resident ++ engine.fills,
      entry.object ∈ files.map DemoteRequest.key → entry.isData
  | .fill entry => entry.object ∈ engine.demotions → entry.isData
  | _ => True

theorem isData_of_demoted (run : Run blockBytes versions MetadataApart engine)
    (member : entry ∈ engine.resident ++ engine.fills) (demoted : entry.object ∈ engine.demotions) :
    entry.isData := by
  induction run with
  | start => cases demoted
  | step _ possible apart induction =>
    rcases mem_entries_apply possible member with old | rfl
    · rcases mem_demotions_apply demoted with before | ⟨files, deadline, rfl, new⟩
      · exact induction old before
      · exact apart entry old new
    · exact apart demoted

/-- In every state, nothing is stored under a key where a read of a demoted object looks. -/
theorem demoted_not_served (run : Run blockBytes versions MetadataApart engine) (object : Object)
    (demoted : object ∈ engine.demotions) (entry : EntryKey Object)
    (stored : entry ∈ engine.resident) : ¬engine.Looks object entry := by
  intro looks
  have data : entry.object ∈ engine.demotions → entry.isData :=
    isData_of_demoted run (mem_append_left _ stored)
  cases looks with
  | data etag index =>
    have live := run.live stored
    rw [if_pos demoted, Nat.and_or_distrib_right, Nat.and_self, Nat.or_eq_zero_iff] at live
    exact absurd live.2 (by decide)
  | metadata etag index | suffix etag len => exact nomatch data demoted

/-- A metadata file that is demoted is still read from the metadata store. -/
theorem metadata_served_when_demoted :
    ∃ engine : HybridCacheEngine String, Run 4096 (fun _ _ => 10) (fun _ _ => True) engine ∧
      "v1.metadata.json" ∈ engine.demotions ∧
        ∃ entry ∈ engine.resident, engine.Looks "v1.metadata.json" entry := by
  have inside : 0 < blockCount 4096 10 := by decide
  have filled := @Run.step String _ 4096 (fun _ _ => 10) (fun _ _ => True) _
    (.fill (.metadata ⟨"v1.metadata.json", "e", 0⟩ 0)) .start ⟨.metadata "e" 0, inside⟩ trivial
  have stored := @Run.step _ _ _ _ _ _ (.admission _ true) filled mem_cons_self trivial
  have demoted := @Run.step _ _ _ _ _ _ (.retire [⟨"v1.metadata.json", 0⟩] 7) stored trivial trivial
  exact ⟨_, demoted, mem_cons_self, _, mem_cons_self, .metadata "e" 0⟩

/-- A data block outlives the demotion of its file and is not read. -/
theorem demoted_not_served_data :
    ∃ engine : HybridCacheEngine String, "part-0.parquet" ∈ engine.demotions ∧
      .data ⟨"part-0.parquet", "e", 0⟩ 0 ∈ engine.resident ∧
        ¬engine.Looks "part-0.parquet" (.data ⟨"part-0.parquet", "e", 0⟩ 0) := by
  have inside : 0 < blockCount 4096 10 := by decide
  have filled := @Run.step String _ 4096 (fun _ _ => 10) MetadataApart _
    (.fill (.data ⟨"part-0.parquet", "e", 0⟩ 0)) .start ⟨.data "e" 0, inside⟩ nofun
  have stored := @Run.step _ _ _ _ _ _ (.admission _ true) filled mem_cons_self trivial
  have demoted := @Run.step _ _ _ _ _ _ (.retire [⟨"part-0.parquet", 10⟩] 7) stored trivial
    (fun entry member _ => mem_singleton.mp member ▸ rfl)
  exact ⟨_, mem_cons_self, mem_cons_self,
    demoted_not_served demoted _ mem_cons_self _ mem_cons_self⟩

/-- The entry is a block that is filed under the current generation, or one that is not admitted. -/
def Current (engine : HybridCacheEngine Object) : EntryKey Object → Prop
  | .data _ generation =>
    generation = engine.purgeGeneration ∨ generation &&& demotedGenerationBit ≠ 0
  | .metadata _ generation => generation = engine.purgeGeneration
  | .suffix _ _ _ _ => False

/-- Every demotion of an object carries the size of its one version and names it once; no suffix of
a demoted object is pinned, and nothing of it lies under another generation. -/
def Enumerable (versions : Object → String → Nat) (version : Object → String)
    (engine : HybridCacheEngine Object) : EngineEvent Object → Prop
  | .retire files _ => (files.map DemoteRequest.key).Nodup ∧ ∀ file ∈ files,
      (engine.receipt file).size = versions file.key (version file.key) ∧
        (∀ etag ∈ (engine.receipt file).etag, etag = version file.key) ∧
        ∀ entry ∈ engine.resident ++ engine.fills, entry.object = file.key → engine.Current entry
  | .fill entry => entry.object ∈ engine.demotions → engine.Current entry
  | .purge => engine.demotions = []
  | _ => True

/-- The demotion knows the size and the generation under which the blocks are filed. -/
structure Accurate (versions : Object → String → Nat) (version : Object → String)
    (generation : Nat) (demotion : Demotion Object) : Prop where
  size : demotion.size = versions demotion.key (version demotion.key)
  etag : ∀ etag ∈ demotion.etag, etag = version demotion.key
  generation : demotion.generation = generation

/-- Schedule, demotions and gauge agree. -/
structure Accounted (versions : Object → String → Nat) (version : Object → String)
    (engine : HybridCacheEngine Object) : Prop where
  nodup : engine.demotions.Nodup
  single : (engine.schedule.map (·.key)).Nodup
  scheduled : ∀ key, key ∈ engine.schedule.map (·.key) ↔ key ∈ engine.demotions
  accurate : ∀ demotion ∈ engine.schedule,
    Accurate versions version engine.purgeGeneration demotion
  gauge : engine.retiredBytesPending =
    .ofNat 64 (engine.demotions.map fun key => versions key (version key)).sum

variable {version : Object → String}

theorem keys_record (schedule : List (Demotion Object)) (demotion : Demotion Object) :
    (record schedule demotion).map (·.key) =
      demotion.key :: (schedule.map (·.key)).filter (· ≠ demotion.key) := by
  rw [record, map_cons, filter_map]
  rfl

theorem mem_keys_foldl_record {key : Object} :
    key ∈ (demotions.foldl record schedule).map (·.key) ↔
      key ∈ schedule.map (·.key) ∨ key ∈ demotions.map (·.key) := by
  induction demotions generalizing schedule with
  | nil => simp
  | cons demotion demotions induction =>
    rw [foldl_cons, induction, keys_record, map_cons, mem_cons, mem_cons, mem_filter]
    by_cases same : key = demotion.key <;> simp [same]

theorem nodup_keys_foldl_record (single : (schedule.map (·.key)).Nodup) :
    ((demotions.foldl record schedule).map (·.key)).Nodup := by
  induction demotions generalizing schedule with
  | nil => exact single
  | cons demotion demotions induction =>
    refine induction ?_
    rw [keys_record, nodup_cons]
    exact ⟨by simp, single.filter _⟩

theorem accurate_foldl_record
    (old : ∀ demotion ∈ schedule, Accurate versions version generation demotion)
    (new : ∀ demotion ∈ demotions, Accurate versions version generation demotion) :
    ∀ demotion ∈ demotions.foldl record schedule,
      Accurate versions version generation demotion := by
  induction demotions generalizing schedule with
  | nil => exact old
  | cons first demotions induction =>
    refine induction (fun demotion member => ?_)
      (forall_mem_cons.mp new).2
    have accurate := new first mem_cons_self
    rcases mem_cons.mp member with rfl | kept
    · refine ⟨accurate.size, fun etag known => ?_, accurate.generation⟩
      rcases Option.or_eq_some_iff.mp known with own | ⟨_, earlier⟩
      · exact accurate.etag etag own
      · obtain ⟨other, found, known⟩ := Option.bind_eq_some_iff.mp earlier
        have same : other.key = first.key := by simpa using find?_some found
        rw [(old other (mem_of_find?_eq_some found)).etag etag known, same]
    · exact old demotion (mem_of_mem_filter kept)

theorem Accounted.retire (accounted : Accounted versions version engine)
    {files : List (DemoteRequest Object)} {deadline : Nat}
    (enumerable : engine.Enumerable versions version (.retire files deadline)) :
    Accounted versions version (engine.retire files deadline) := by
  obtain ⟨distinct, facts⟩ := enumerable
  have keys : (files.map fun file => (⟨engine.receipt file, deadline⟩ : Demotion Object)).map
      (·.key) = files.map DemoteRequest.key := by
    rw [map_map]
    rfl
  have newly_eq : engine.newly files =
      (files.map DemoteRequest.key).filter (· ∉ engine.demotions) :=
    (distinct.filter _).dedup
  refine ⟨?_, nodup_keys_foldl_record accounted.single, fun key => ?_,
    accurate_foldl_record accounted.accurate ?_, ?_⟩
  · refine nodup_append.mpr ⟨accounted.nodup, nodup_dedup _, ?_⟩
    rintro key old _ new rfl
    rw [newly_eq, mem_filter, decide_eq_true_iff] at new
    exact new.2 old
  · rw [HybridCacheEngine.retire, mem_keys_foldl_record, accounted.scheduled, keys,
      mem_append, newly_eq, mem_filter]
    by_cases old : key ∈ engine.demotions <;> simp [old]
  · intro demotion member
    obtain ⟨file, listed, rfl⟩ := mem_map.mp member
    exact ⟨(facts file listed).1, (facts file listed).2.1, rfl⟩
  · have sizes : ((files.map engine.receipt).filter (·.key ∈ engine.newly files)).map (·.size) =
        (engine.newly files).map fun key => versions key (version key) := by
      have picked : (files.map DemoteRequest.key).filter (· ∈ engine.newly files) =
          engine.newly files := by
        rw [newly_eq]
        refine filter_congr fun key member => ?_
        simp [member]
      conv_rhs => rw [← picked]
      rw [filter_map, filter_map, map_map, map_map]
      refine map_congr_left fun file member => ?_
      exact (facts file (mem_of_mem_filter member)).1
    rw [HybridCacheEngine.retire, accounted.gauge, sizes, map_append, sum_append, BitVec.ofNat_add]

theorem Accounted.sweep (accounted : Accounted versions version engine) (now : Nat) :
    Accounted versions version (engine.sweepExpired blockBytes now) := by
  have expired_mem : ∀ key, key ∈ (engine.expired now).map (·.key) ↔
      ∃ demotion ∈ engine.schedule, demotion.hardEvictAtMs ≤ now ∧ demotion.key = key := by
    simp [expired, and_assoc]
  have unique : ∀ left ∈ engine.schedule, ∀ right ∈ engine.schedule, left.key = right.key →
      left = right := fun left first right second same =>
    inj_on_of_nodup_map accounted.single first second same
  refine ⟨accounted.nodup.filter _, accounted.single.sublist ((filter_sublist).map _),
    fun key => ?_,
    fun demotion member => accounted.accurate demotion (mem_of_mem_filter member), ?_⟩
  · change key ∈ (engine.schedule.filter _).map (·.key) ↔ key ∈ engine.demotions.filter _
    rw [mem_filter, ← accounted.scheduled, decide_eq_true_iff, expired_mem]
    constructor
    · intro kept
      obtain ⟨demotion, member, rfl⟩ := mem_map.mp kept
      obtain ⟨listed, waits⟩ := mem_filter.mp member
      refine ⟨mem_map_of_mem listed, ?_⟩
      rintro ⟨other, other_listed, due, same⟩
      cases unique other other_listed demotion listed same
      exact of_decide_eq_true waits due
    · rintro ⟨listed, waits⟩
      obtain ⟨demotion, member, rfl⟩ := mem_map.mp listed
      refine mem_map_of_mem (mem_filter.mpr ⟨member, decide_eq_true fun due => ?_⟩)
      exact waits ⟨demotion, member, due, rfl⟩
  · -- what is subtracted is what the swept objects had added
    have gone_mem : ∀ key ∈ (engine.expired now).map (·.key), key ∈ engine.demotions := by
      intro key gone
      obtain ⟨demotion, listed, _, rfl⟩ := (expired_mem key).mp gone
      exact (accounted.scheduled _).mp (mem_map_of_mem listed)
    have gone_nodup : ((engine.expired now).map (·.key)).Nodup := by
      rw [expired, map_map]
      exact accounted.single.sublist ((filter_sublist).map _)
    have sizes : ((engine.expired now).filter (·.key ∈ engine.demotions)).map (·.size) =
        ((engine.expired now).map (·.key)).map fun key => versions key (version key) := by
      rw [filter_eq_self.mpr fun eviction member =>
        decide_eq_true (gone_mem _ (mem_map_of_mem member)), map_map]
      refine map_congr_left fun eviction member => ?_
      obtain ⟨demotion, listed, rfl⟩ := mem_map.mp member
      exact (accounted.accurate demotion (mem_of_mem_filter listed)).size
    have swept : (engine.demotions.filter (· ∈ (engine.expired now).map (·.key))).Perm
        ((engine.expired now).map (·.key)) := by
      refine (perm_ext_iff_of_nodup (accounted.nodup.filter _) gone_nodup).mpr fun key => ?_
      rw [mem_filter, decide_eq_true_iff, and_iff_right_of_imp (gone_mem key)]
    have total := ((filter_append_perm (fun key => key ∈ (engine.expired now).map (·.key))
      engine.demotions).map fun key => versions key (version key)).sum_eq
    rw [map_append, sum_append, (swept.map _).sum_eq, Nat.add_comm] at total
    change engine.retiredBytesPending - .ofNat 64 _ = _
    rw [accounted.gauge, ← total, sizes, BitVec.ofNat_add, BitVec.add_sub_cancel]
    simp only [sweepExpired, hardEvict, decide_not]

theorem accounted_of_run (run : Run blockBytes versions (Enumerable versions version) engine) :
    Accounted versions version engine := by
  induction run with
  | start => exact ⟨.nil, .nil, fun _ => Iff.rfl, nofun, rfl⟩
  | @step _ event _ _ enumerable accounted =>
    cases event with
    | retire files deadline => exact accounted.retire enumerable
    | sweep now => exact accounted.sweep now
    | purge =>
      refine ⟨accounted.nodup, accounted.single, accounted.scheduled, fun demotion member => ?_,
        accounted.gauge⟩
      have demoted := (accounted.scheduled _).mp (mem_map_of_mem member)
      rw [show _ = [] from enumerable] at demoted
      cases demoted
    | _ =>
      exact ⟨accounted.nodup, accounted.single, accounted.scheduled, accounted.accurate,
        accounted.gauge⟩

theorem Run.inside (run : Run blockBytes versions allowed engine)
    (member : entry ∈ engine.resident ++ engine.fills) : entry.Inside blockBytes versions := by
  induction run with
  | start => cases member
  | step _ possible _ induction =>
    rcases mem_entries_apply possible member with old | rfl
    · exact induction old
    · exact possible.2

theorem current_of_demoted (run : Run blockBytes versions (Enumerable versions version) engine)
    (member : entry ∈ engine.resident ++ engine.fills) (demoted : entry.object ∈ engine.demotions) :
    engine.Current entry := by
  induction run with
  | start => cases demoted
  | @step _ event _ possible enumerable induction =>
    rcases mem_entries_apply possible member with old | rfl
    · rcases mem_demotions_apply demoted with before | ⟨files, deadline, rfl, new⟩
      · have current := induction old before
        cases event with
        | purge =>
          rw [show _ = [] from enumerable] at before
          cases before
        | _ => exact current
      · obtain ⟨file, listed, same⟩ := mem_map.mp new
        exact (enumerable.2 file listed).2.2 entry old same.symm
    · exact enumerable demoted

/-- The gauge counts the objects that are demoted, and a sweep leaves nothing of an object that it
evicts and whose ETag was known. -/
theorem hard_eviction_frees_everything
    (run : Run blockBytes versions (Enumerable versions version) engine) :
    engine.retiredBytesPending =
        .ofNat 64 (engine.demotions.map fun key => versions key (version key)).sum ∧
      ∀ now, ∀ eviction ∈ engine.expired now, ∀ etag ∈ eviction.etag,
        ∀ entry ∈ (engine.sweepExpired blockBytes now).resident,
          entry.object = eviction.key → entry.etag ≠ etag := by
  have accounted := accounted_of_run run
  refine ⟨accounted.gauge, fun now eviction due etag known entry kept same_object same_etag => ?_⟩
  subst same_etag
  obtain ⟨stored, spared⟩ := mem_filter.mp kept
  have member : entry ∈ engine.resident ++ engine.fills := mem_append_left _ stored
  obtain ⟨demotion, listed, rfl⟩ := mem_map.mp due
  have accurate := accounted.accurate demotion (mem_of_mem_filter listed)
  have demoted : entry.object ∈ engine.demotions := by
    rw [same_object, ← accounted.scheduled]
    exact mem_map_of_mem (mem_of_mem_filter listed)
  have current := current_of_demoted run member demoted
  have inside := run.inside member
  have sizes : demotion.size = versions entry.object entry.etag := by
    rw [accurate.etag _ known, same_object]
    exact accurate.size
  have removed : demotion.removes blockBytes entry = true := by
    cases entry with
    | data block generation =>
      have filed : generation = engine.purgeGeneration :=
        current.resolve_right fun poisoned => poisoned (run.live stored)
      exact decide_eq_true ⟨same_object, known, sizes ▸ inside,
        filed.trans accurate.generation.symm⟩
    | metadata block generation =>
      exact decide_eq_true ⟨same_object, known, sizes ▸ inside,
        current.trans accurate.generation.symm⟩
    | suffix object etag len generation => exact current.elim
  rw [any_eq_true.mpr ⟨_, due, removed⟩] at spared
  cases spared

/-- The pinned footer of an evicted file stays, and the gauge of a file that is demoted twice with
two sizes runs below zero. -/
theorem footer_outlives_eviction :
    (∃ engine : HybridCacheEngine String, Run 4096 (fun _ _ => 10) (fun _ _ => True) engine ∧
      ∃ eviction ∈ engine.expired 7, "e" ∈ eviction.etag ∧
        .suffix eviction.key "e" 8 0 ∈ (engine.sweepExpired 4096 7).resident) ∧
    ∃ engine : HybridCacheEngine String, Run 4096 (fun _ _ => 10) (fun _ _ => True) engine ∧
      (engine.sweepExpired 4096 7).demotions = [] ∧
        (engine.sweepExpired 4096 7).retiredBytesPending = -6 := by
  constructor
  · have known := @Run.step String _ 4096 (fun _ _ => 10) (fun _ _ => True) _
      (.map "part-0.parquet" (some ⟨"e", 10⟩)) .start trivial trivial
    have filled := @Run.step _ _ _ _ _ _ (.fill (.suffix "part-0.parquet" "e" 8 0)) known
      ⟨.suffix "e" 8, trivial⟩ trivial
    have stored := @Run.step _ _ _ _ _ _ (.admission _ true) filled mem_cons_self trivial
    have demoted := @Run.step _ _ _ _ _ _ (.retire [⟨"part-0.parquet", 10⟩] 7) stored trivial
      trivial
    exact ⟨_, demoted, _, mem_cons_self, rfl, by decide⟩
  · have first := @Run.step String _ 4096 (fun _ _ => 10) (fun _ _ => True) _
      (.retire [⟨"part-0.parquet", 4⟩] 7) .start trivial trivial
    have second := @Run.step _ _ _ _ _ _ (.retire [⟨"part-0.parquet", 10⟩] 7) first trivial trivial
    exact ⟨_, second, by decide, by decide⟩

/-- A file whose only block is stored, demoted and swept. -/
theorem hard_eviction_frees_everything_block :
    ∃ engine : HybridCacheEngine String,
      engine.retiredBytesPending = .ofNat 64 10 ∧
        .data ⟨"part-0.parquet", "e", 0⟩ 0 ∈ engine.resident ∧
          ∀ entry ∈ (engine.sweepExpired 4096 7).resident,
            entry.object = "part-0.parquet" → entry.etag ≠ "e" := by
  have inside : 0 < blockCount 4096 10 := by decide
  have known := @Run.step String _ 4096 (fun _ _ => 10)
    (Enumerable (fun _ _ => 10) fun _ => "e") _ (.map "part-0.parquet" (some ⟨"e", 10⟩)) .start
    trivial trivial
  have filled := @Run.step _ _ _ _ _ _ (.fill (.data ⟨"part-0.parquet", "e", 0⟩ 0)) known
    ⟨.data "e" 0, inside⟩ nofun
  have stored := @Run.step _ _ _ _ _ _ (.admission _ true) filled mem_cons_self trivial
  have demoted := @Run.step _ _ _ _ _ _ (.retire [⟨"part-0.parquet", 10⟩] 7) stored trivial
    ⟨by decide, fun file listed => by
      rw [mem_singleton.mp listed]
      refine ⟨by decide, fun etag known => (Option.some.inj known).symm, fun entry member _ => ?_⟩
      rw [mem_singleton.mp member]
      exact .inl rfl⟩
  have result := hard_eviction_frees_everything demoted
  exact ⟨_, result.1, mem_cons_self, result.2 7 _ mem_cons_self "e" rfl⟩

end HybridCacheEngine

end Verglas.Cache
