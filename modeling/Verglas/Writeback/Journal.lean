import Mathlib.Data.List.AList
import Mathlib.Data.String.Basic
import Verglas.Lib.OrderedMap

/-!
# Write-back journals

An acknowledged object that has not reached its origin is described by a journal file.  A dirty
index in memory names one dirty journal for each origin key; the read path and the recovery after a
crash find objects through it.  What the fragments of an object reassemble to is a parameter of the
modules that read objects.
-/

namespace Verglas.Writeback

open AList

abbrev Bytes := List UInt8

/-- Origin identity of an object: storage binding, bucket and key. -/
structure CacheKey where
  storageBindingId : String
  bucket : String
  key : String
  deriving DecidableEq, Repr

/-- Whether the object still has to reach the origin. -/
inductive JournalState where
  | dirty
  | clean
  deriving DecidableEq, Repr

/-- The node that holds a fragment. -/
structure Placement where
  index : Nat
  node : String
  deriving DecidableEq, Repr

/-- The journal of a write-back object. -/
structure Journal where
  objectId : String
  storageBindingId : String
  bucket : String
  key : String
  objectLen : Nat
  state : JournalState
  placements : List Placement := []
  deriving DecidableEq, Repr

/-- The origin identity under which the dirty index files a journal. -/
def Journal.indexKey (journal : Journal) : CacheKey :=
  ⟨journal.storageBindingId, journal.bucket, journal.key⟩

def propagationAttempts : Nat := 8

theorem count_empty : 0 = (∅ : AList fun _ : CacheKey => String).keys.length := rfl

/-- One object id for each origin key, with a counter that lets readers skip an empty index. -/
structure DirtyIndex where
  entries : AList fun _ : CacheKey => String := ∅
  count : Nat := 0
  counted : count = entries.keys.length := by exact count_empty

namespace DirtyIndex

def holder (index : DirtyIndex) (key : CacheKey) : Option String := index.entries.lookup key

/-- Name an object for a key, counting a new key. -/
def insert (index : DirtyIndex) (key : CacheKey) (objectId : String) : DirtyIndex where
  entries := index.entries.insert key objectId
  count := if (index.holder key).isNone then index.count + 1 else index.count
  counted := by
    rw [keys_insert, List.length_cons, index.counted]
    by_cases member : key ∈ index.entries.keys
    · have found : (index.holder key).isNone = false := by
        have present := lookup_isSome.mpr (mem_keys.mpr member)
        rw [holder, Option.isNone_eq_false_iff]
        exact present
      have positive := List.length_pos_of_mem member
      rw [found, List.length_erase_of_mem member]
      simp only [Bool.false_eq_true, if_false]
      omega
    · have missing : (index.holder key).isNone = true := by
        rw [holder, Option.isNone_iff_eq_none, lookup_eq_none]
        exact fun present => member (mem_keys.mp present)
      rw [missing, List.erase_of_not_mem member]
      rfl

/-- Forget an object if the index names it for its key. -/
def remove (index : DirtyIndex) (key : CacheKey) (objectId : String) : DirtyIndex :=
  if holds : index.holder key = some objectId then
    { entries := index.entries.erase key
      count := index.count - 1
      counted := by
        have member : key ∈ index.entries.keys :=
          mem_keys.mp (lookup_isSome.mp (by rw [← holder, holds]; rfl))
        rw [keys_erase, List.length_erase_of_mem member, index.counted] }
  else index

/-- The dirty object of a key; an empty index is not searched. -/
def find (index : DirtyIndex) (key : CacheKey) : Option String :=
  if index.count = 0 then none else index.holder key

/-- Object ids that the index names, in the order of its table. -/
def objectIds (index : DirtyIndex) : List String := index.entries.entries.map Sigma.snd

/-- The counter never hides an entry. -/
theorem find_eq_holder (index : DirtyIndex) (key : CacheKey) :
    index.find key = index.holder key := by
  rw [find]
  split
  · rename_i zero
    have empty : index.entries.keys = [] := by
      rw [← List.length_eq_zero_iff, ← index.counted, zero]
    have missing : key ∉ index.entries := by
      intro present
      have listed := mem_keys.mp present
      rw [empty] at listed
      cases listed
    exact (lookup_eq_none.mpr missing).symm
  · rfl

@[simp] theorem holder_empty (key : CacheKey) : ({} : DirtyIndex).holder key = none :=
  lookup_empty key

@[simp] theorem holder_insert_self (index : DirtyIndex) (key : CacheKey) (objectId : String) :
    (index.insert key objectId).holder key = some objectId :=
  lookup_insert _

variable {key other : CacheKey}

theorem holder_insert_of_ne (index : DirtyIndex) (objectId : String) (ne : other ≠ key) :
    (index.insert key objectId).holder other = index.holder other :=
  lookup_insert_ne ne

theorem holder_remove_of_ne (index : DirtyIndex) (objectId : String) (ne : other ≠ key) :
    (index.remove key objectId).holder other = index.holder other := by
  rw [remove]
  split
  · exact lookup_erase_ne ne
  · rfl

/-- Removal leaves a key to a later object and frees it otherwise. -/
theorem holder_remove_self (index : DirtyIndex) (key : CacheKey) (objectId : String) :
    (index.remove key objectId).holder key =
      if index.holder key = some objectId then none else index.holder key := by
  rw [remove]
  split
  · exact lookup_erase _ _
  · rfl

variable {index : DirtyIndex} {objectId : String}

theorem holder_of_remove {named : String}
    (names : (index.remove key objectId).holder other = some named) :
    index.holder other = some named := by
  by_cases same : other = key
  · rw [same, holder_remove_self] at names
    split at names
    · cases names
    · exact same ▸ names
  · rwa [holder_remove_of_ne _ _ same] at names

theorem mem_objectIds : objectId ∈ index.objectIds ↔ ∃ key, index.holder key = some objectId := by
  rw [objectIds, List.mem_map]
  constructor
  · rintro ⟨⟨key, held⟩, member, rfl⟩
    exact ⟨key, mem_lookup_iff.mpr member⟩
  · rintro ⟨key, held⟩
    exact ⟨⟨key, objectId⟩, mem_lookup_iff.mp held, rfl⟩

end DirtyIndex

/-- Journal files by object id, and the dirty index. -/
structure JournalStore where
  files : OrderedMap String Journal := ∅
  dirty : DirtyIndex := {}

namespace JournalStore

variable (store : JournalStore)

def read (objectId : String) : Option Journal := store.files.get objectId

/-- Write a journal file. -/
def writeFsynced (journal : Journal) : JournalStore :=
  { store with files := store.files.insert journal.objectId journal }

/-- Enter a journal into the dirty index. -/
def insertIndex (journal : Journal) : JournalStore :=
  { store with dirty := store.dirty.insert journal.indexKey journal.objectId }

/-- Remove a journal from the index if it is the current holder of its key. -/
def removeIndex (journal : Journal) : JournalStore :=
  { store with dirty := store.dirty.remove journal.indexKey journal.objectId }

def removeFile (objectId : String) : JournalStore :=
  { store with files := store.files.remove objectId }

/-- Write a journal and, if it is dirty, register it in the index. -/
def put (journal : Journal) : JournalStore :=
  if journal.state = .dirty then (store.writeFsynced journal).insertIndex journal
  else store.writeFsynced journal

/-- Rewrite the journal as clean and drop it from the index. -/
def markClean (objectId : String) : JournalStore :=
  match store.read objectId with
  | none => store
  | some journal =>
    (store.writeFsynced { journal with state := .clean }).removeIndex
      { journal with state := .clean }

/-- Add one placement unless its fragment is already recorded. -/
def addPlacement (objectId : String) (placement : Placement) : JournalStore :=
  match store.read objectId with
  | none => store
  | some journal =>
    if journal.placements.any fun known => known.index = placement.index then store
    else store.writeFsynced { journal with placements := journal.placements ++ [placement] }

/-- Drop a journal from the index and remove its file. -/
def delete (objectId : String) : JournalStore :=
  match store.read objectId with
  | none => store.removeFile objectId
  | some journal => (store.removeIndex journal).removeFile objectId

def findDirty (key : CacheKey) : Option String := store.dirty.find key

def dirtyObjectIds : List String := store.dirty.objectIds

def list : List Journal := store.files.values

section Retire

variable {store} {objectId : String} {journal : Journal}

theorem read_writeFsynced (store : JournalStore) (journal : Journal) (other : String) :
    (store.writeFsynced journal).read other =
      if other = journal.objectId then some journal else store.read other :=
  OrderedMap.get_insert _ _ _ _

theorem read_removeFile (store : JournalStore) (objectId other : String) :
    (store.removeFile objectId).read other =
      if other = objectId then none else store.read other :=
  OrderedMap.get_remove _ _ _

@[simp] theorem read_removeIndex (store : JournalStore) (journal : Journal) (other : String) :
    (store.removeIndex journal).read other = store.read other := rfl

theorem findDirty_eq_holder (store : JournalStore) (key : CacheKey) :
    store.findDirty key = store.dirty.holder key :=
  DirtyIndex.find_eq_holder _ _

theorem retire_eq (found : store.read objectId = some journal)
    (named : journal.objectId = objectId) :
    (store.markClean objectId).delete objectId =
      { files := (store.files.insert objectId { journal with state := .clean }).remove objectId
        dirty :=
          (store.dirty.remove journal.indexKey objectId).remove journal.indexKey objectId } := by
  have marked : store.markClean objectId =
      (store.writeFsynced { journal with state := .clean }).removeIndex
        { journal with state := .clean } := by
    rw [markClean, found]
  have reread : (store.markClean objectId).read objectId =
      some { journal with state := .clean } := by
    rw [marked, read_removeIndex, read_writeFsynced, if_pos named.symm]
  rw [delete, reread, marked]
  subst named
  rfl

theorem read_retire (found : store.read objectId = some journal)
    (named : journal.objectId = objectId) (other : String) :
    ((store.markClean objectId).delete objectId).read other =
      if other = objectId then none else store.read other := by
  rw [retire_eq found named, read, OrderedMap.get_remove, OrderedMap.get_insert]
  split
  · rfl
  · rfl

theorem holder_retire (found : store.read objectId = some journal)
    (named : journal.objectId = objectId) (other : CacheKey) :
    ((store.markClean objectId).delete objectId).dirty.holder other =
      if other = journal.indexKey ∧ store.dirty.holder other = some objectId then none
      else store.dirty.holder other := by
  rw [retire_eq found named]
  by_cases same : other = journal.indexKey
  · subst same
    rw [DirtyIndex.holder_remove_self, DirtyIndex.holder_remove_self]
    split_ifs with first second third <;> simp_all
  · rw [DirtyIndex.holder_remove_of_ne _ _ same, DirtyIndex.holder_remove_of_ne _ _ same,
      if_neg fun both => same both.1]

end Retire

end JournalStore

/-- One journal while a store opens: a journal without a binding is upgraded when a binding is
given, and a dirty one is indexed. -/
def openJournal (legacyBinding : Option String) (opened : JournalStore × Nat) (journal : Journal) :
    JournalStore × Nat :=
  let upgraded :=
    match legacyBinding with
    | some binding =>
      if journal.storageBindingId = "" then
        let bound := { journal with storageBindingId := binding }
        (opened.1.writeFsynced bound, opened.2 + 1, bound)
      else (opened.1, opened.2, journal)
    | none => (opened.1, opened.2, journal)
  if upgraded.2.2.state = .dirty then (upgraded.1.insertIndex upgraded.2.2, upgraded.2.1)
  else (upgraded.1, upgraded.2.1)

/-- Open the store over the files that a previous run left, and count the upgraded journals. -/
def openInner (legacyBinding : Option String) (files : OrderedMap String Journal) :
    JournalStore × Nat :=
  (JournalStore.list { files }).foldl (openJournal legacyBinding) ({ files }, 0)

/-- Open a store on the files of an earlier one. -/
def openStore (files : OrderedMap String Journal) : JournalStore := (openInner none files).1

end Verglas.Writeback
