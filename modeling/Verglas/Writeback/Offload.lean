import Verglas.Cache.Range
import Verglas.Writeback.Journal

/-!
# The offload stream and the read path

Small acknowledged objects accumulate in the offload stream of their binding and bucket.  A flush
packs them into one origin object and records in the pack index where each key lies in it.  A read
takes a dirty journal first, then the pack index, and the origin last.
-/

namespace Verglas.Writeback

open Cache (ReadRange ReadError)

/-- One acknowledged object that waits in an offload stream. -/
structure PendingEntry where
  objectId : String
  key : String
  len : Nat
  deriving DecidableEq, Repr

/-- The accumulator of one offload stream. -/
structure OffloadBuffer where
  pending : List PendingEntry := []
  bytes : Nat := 0
  deriving DecidableEq, Repr

namespace OffloadBuffer

/-- Queue an entry; the new size is returned. -/
def push (buffer : OffloadBuffer) (entry : PendingEntry) : OffloadBuffer × Nat :=
  (⟨buffer.pending ++ [entry], buffer.bytes + entry.len⟩, buffer.bytes + entry.len)

/-- Remove and return every buffered entry, or nothing from an empty buffer. -/
def takeAll (buffer : OffloadBuffer) : Option (List PendingEntry) × OffloadBuffer :=
  if buffer.pending = [] then (none, buffer) else (some buffer.pending, {})

/-- Append one object; the batch to flush is returned once the total reaches the limit. -/
def append (sizeLimit : Nat) (buffer : OffloadBuffer) (entry : PendingEntry) :
    Option (List PendingEntry) × OffloadBuffer :=
  let (pushed, total) := buffer.push entry
  if sizeLimit ≤ total then pushed.takeAll else (none, pushed)

/-- An append either keeps the object in the buffer or hands out the whole buffer with it. -/
theorem append_cases (sizeLimit : Nat) (buffer : OffloadBuffer) (entry : PendingEntry) :
    (buffer.append sizeLimit entry = (none, (buffer.push entry).1)) ∨
      buffer.append sizeLimit entry = (some (buffer.pending ++ [entry]), {}) := by
  by_cases reached : sizeLimit ≤ (buffer.push entry).2
  · right
    have nonempty : (buffer.push entry).1.pending ≠ [] := by simp [push]
    simp only [append, reached, if_true, takeAll, if_neg nonempty]
    rfl
  · left
    simp only [append, reached, if_false]

variable {sizeLimit : Nat} {buffer rest : OffloadBuffer} {entry : PendingEntry}

theorem append_none (kept : buffer.append sizeLimit entry = (none, rest)) :
    rest = (buffer.push entry).1 := by
  rcases append_cases sizeLimit buffer entry with pushed | flushed
  · cases kept.symm.trans pushed
    rfl
  · cases kept.symm.trans flushed

variable {batch : List PendingEntry}

theorem append_some (reached : buffer.append sizeLimit entry = (some batch, rest)) :
    batch = buffer.pending ++ [entry] ∧ rest = {} := by
  rcases append_cases sizeLimit buffer entry with pushed | flushed
  · cases reached.symm.trans pushed
  · cases reached.symm.trans flushed
    exact ⟨rfl, rfl⟩

theorem takeAll_some (taken : buffer.takeAll = (some batch, rest)) :
    batch = buffer.pending ∧ rest = {} := by
  rw [takeAll] at taken
  split at taken
  · cases taken
  · cases taken
    exact ⟨rfl, rfl⟩

end OffloadBuffer

/-- Where the bytes of one key lie after its stream was packed. -/
structure PackIndexEntry where
  packKey : String
  offset : Nat
  length : Nat
  deriving DecidableEq, Repr

/-- The pack index of one process. -/
abbrev PackIndex := CacheKey → Option PackIndexEntry

/-- Pack objects live under a reserved prefix. -/
def Reserved (key : String) : Prop := "_verglas/packs/".toList <+: key.toList

instance (key : String) : Decidable (Reserved key) := inferInstanceAs (Decidable (_ <+: _))

/-- The origin object that holds the entry of a key. -/
def PackIndexEntry.pack (key : CacheKey) (entry : PackIndexEntry) : CacheKey :=
  { key with key := entry.packKey }

/-- Resolve a byte range against an object size as the write-back reader does. -/
def resolveRange (range : ReadRange) (size : Nat) : Except ReadError (Nat × Nat) :=
  match range with
  | .full => .ok (0, size)
  | .tail first => if first < size then .ok (first, size) else .error .invalidRange
  | .bounded first last =>
    if first < size then .ok (first, min (last + 1) size) else .error .invalidRange
  | .suffix length => .ok (size - min length size, size)

/-- The served part of a body. -/
def slice (bytes : Bytes) (served : Nat × Nat) : Bytes :=
  (bytes.drop served.1).take (served.2 - served.1)

variable {range : ReadRange} {served : Nat × Nat}

theorem resolveRange_eq_of_cache {size : Nat}
    (resolved : Cache.resolveRange range size = .ok served) :
    resolveRange range size = .ok served := by
  cases range with
  | full | tail first => exact resolved
  | bounded first last =>
    simp only [Cache.resolveRange] at resolved
    split at resolved
    · rename_i ordered
      rw [resolveRange, if_pos ordered.2]
      exact resolved
    · cases resolved
  | suffix length =>
    simp only [Cache.resolveRange] at resolved
    split at resolved
    · cases resolved
      simp only [resolveRange, Except.ok.injEq, Prod.mk.injEq, and_true]
      omega
    · cases resolved

/-- The resolved range of a read and its bytes. -/
structure ObjectGet where
  range : Nat × Nat
  body : Bytes
  deriving DecidableEq, Repr

section Get

variable (contents : String → Bytes) (journals : JournalStore) (packs : PackIndex)
  (origin : CacheKey → Option Bytes)

/-- The ordinary read path serves what the origin holds. -/
def innerGet (key : CacheKey) (range : ReadRange) : Except ReadError ObjectGet :=
  match origin key with
  | none => .error .notFound
  | some object =>
    (Cache.resolveRange range object.length).map fun served => ⟨served, slice object served⟩

/-- The dirty journal of a key. -/
def dirtyJournal (key : CacheKey) : Option Journal :=
  match journals.findDirty key with
  | none => none
  | some objectId => journals.read objectId

/-- Read a range of a packed key from its pack object. -/
def getFromPack (key : CacheKey) (entry : PackIndexEntry) (range : ReadRange) :
    Except ReadError ObjectGet :=
  match resolveRange range entry.length with
  | .error error => .error error
  | .ok served =>
    match innerGet origin (entry.pack key)
        (.bounded (entry.offset + served.1) (entry.offset + (served.2 - 1))) with
    | .error error => .error error
    | .ok got =>
      if got.body.length ≠ served.2 - served.1 then
        .error (.backend "packed read returned an unexpected length")
      else .ok ⟨served, got.body⟩

/-- Read a range of an object that was reassembled. -/
def getReassembled (bytes : Bytes) (range : ReadRange) : Except ReadError ObjectGet :=
  match resolveRange range bytes.length with
  | .error error => .error error
  | .ok served =>
    if served.2 < served.1 then .error .sliceInverted else .ok ⟨served, slice bytes served⟩

/-- Serve a dirty object from its fragments, a flushed object from its pack, and anything else from
the ordinary read path. -/
def getObject (key : CacheKey) (range : ReadRange) : Except ReadError ObjectGet :=
  match dirtyJournal journals key with
  | some journal => getReassembled (contents journal.objectId) range
  | none =>
    match packs key with
    | some entry => getFromPack origin key entry range
    | none => innerGet origin key range

def get (key : CacheKey) (range : ReadRange) : Except ReadError Bytes :=
  (getObject contents journals packs origin key range).map ObjectGet.body

end Get

section Full

variable {contents : String → Bytes} {journals : JournalStore} {packs : PackIndex}
  {origin : CacheKey → Option Bytes} {key : CacheKey} {body : Bytes}

/-- The pack object of an entry holds the body, which is not empty, in the entry's range. -/
def Packed (origin : CacheKey → Option Bytes) (key : CacheKey) (entry : PackIndexEntry)
    (body : Bytes) : Prop :=
  ∃ pack, origin (entry.pack key) = some pack ∧ slice pack (entry.offset, entry.offset +
    entry.length) = body ∧ entry.length = body.length ∧ body ≠ []

theorem slice_append_of_eq {bytes more : Bytes} {offset length : Nat}
    (sliced : slice bytes (offset, offset + length) = body) (length_eq : length = body.length) :
    slice (bytes ++ more) (offset, offset + length) = body := by
  have fits : length ≤ (bytes.drop offset).length := by
    have sliced_length := congrArg List.length sliced
    simp only [slice, List.length_take] at sliced_length
    omega
  simp only [slice, Nat.add_sub_cancel_left] at sliced ⊢
  rw [List.drop_append, List.take_append_of_le_length fits, sliced]

theorem slice_full (bytes : Bytes) : slice bytes (0, bytes.length) = bytes := by
  simp [slice]

theorem getReassembled_eq {bytes : Bytes}
    (resolved : Cache.resolveRange range bytes.length = .ok served) :
    getReassembled bytes range = .ok ⟨served, slice bytes served⟩ := by
  simp only [getReassembled, resolveRange_eq_of_cache resolved]
  rw [if_neg (Nat.not_lt.mpr (Cache.resolveRange_inside resolved).1)]

theorem get_full_of_dirty {journal : Journal} {objectId : String}
    (named : journals.findDirty key = some objectId)
    (found : journals.read objectId = some journal) :
    get contents journals packs origin key .full = .ok (contents journal.objectId) := by
  simp [get, getObject, getReassembled, dirtyJournal, named, found, resolveRange, Except.map,
    slice_full]

theorem dirtyJournal_of_none (unnamed : journals.findDirty key = none) :
    dirtyJournal journals key = none := by
  simp [dirtyJournal, unnamed]

theorem get_full_of_packed {entry : PackIndexEntry} (unnamed : journals.findDirty key = none)
    (row : packs key = some entry) (packed : Packed origin key entry body) :
    get contents journals packs origin key .full = .ok body := by
  obtain ⟨pack, stored, sliced, length_eq, nonempty⟩ := packed
  have positive := List.length_pos_iff.mpr nonempty
  have inside : entry.offset + entry.length ≤ pack.length := by
    have sliced_length := congrArg List.length sliced
    simp only [slice, List.length_take, List.length_drop] at sliced_length
    omega
  have last : entry.offset + (entry.length - 1) + 1 = entry.offset + entry.length := by omega
  have read : innerGet origin (entry.pack key)
      (.bounded (entry.offset + 0) (entry.offset + (entry.length - 1))) =
        .ok ⟨(entry.offset, entry.offset + entry.length), body⟩ := by
    rw [innerGet, stored]
    simp only [Cache.resolveRange, Nat.add_zero]
    rw [if_pos (by omega), last, Nat.min_eq_left inside]
    simp only [Except.map, sliced]
  simp only [get, getObject, dirtyJournal_of_none unnamed, row, getFromPack, resolveRange, read]
  rw [if_neg (by simp [length_eq])]
  rfl

theorem get_full_of_origin (unnamed : journals.findDirty key = none) (unpacked : packs key = none)
    (stored : origin key = some body) :
    get contents journals packs origin key .full = .ok body := by
  simp [get, getObject, dirtyJournal_of_none unnamed, unpacked, innerGet, stored,
    Cache.resolveRange, Except.map, slice_full]

end Full

end Verglas.Writeback
