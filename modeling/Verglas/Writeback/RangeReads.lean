import Verglas.Writeback.Offload

/-!
# Ranges of write-back objects

An object is read from its dirty journal, from a slice of a pack, or from the origin through the
cache.  The reader resolves ranges on its own for the first two, and `ranges_answered_alike_iff`
says for which ranges the three answers agree.
-/

namespace Verglas.Writeback

open List

open Cache (ReadRange ReadError)

/-- What the reader looks at. -/
structure ReadState where
  contents : String → Bytes
  journals : JournalStore
  packs : PackIndex
  origin : CacheKey → Option Bytes

namespace ReadState

def get (state : ReadState) (key : CacheKey) (range : ReadRange) : Except ReadError ObjectGet :=
  getObject state.contents state.journals state.packs state.origin key range

/-- The body is that of a dirty journal. -/
def HoldsDirty (state : ReadState) (key : CacheKey) (body : Bytes) : Prop :=
  ∃ journal, dirtyJournal state.journals key = some journal ∧
    state.contents journal.objectId = body

/-- The body is a slice of a pack object. -/
def HoldsPacked (state : ReadState) (key : CacheKey) (body : Bytes) : Prop :=
  dirtyJournal state.journals key = none ∧ ∃ entry pack, state.packs key = some entry ∧
    state.origin (entry.pack key) = some pack ∧ entry.offset + entry.length ≤ pack.length ∧
    slice pack (entry.offset, entry.offset + entry.length) = body

/-- The body is an ordinary object of the origin. -/
def HoldsOrdinary (state : ReadState) (key : CacheKey) (body : Bytes) : Prop :=
  dirtyJournal state.journals key = none ∧ state.packs key = none ∧ state.origin key = some body

end ReadState

/-- Two failures are of one kind; a panic is like no failure. -/
def SameKind : ReadError → ReadError → Prop
  | .notFound, .notFound | .invalidRange, .invalidRange | .backend _, .backend _ => True
  | _, _ => False

/-- Two reads return the same range and bytes, or fail in the same way. -/
def SameAnswer : Except ReadError ObjectGet → Except ReadError ObjectGet → Prop
  | .ok left, .ok right => left = right
  | .error left, .error right => SameKind left right
  | _, _ => False

/-- The ranges that are resolved alike for an object of the given size: not the whole of an empty
object, no inverted bounds inside the object, no empty suffix and no suffix of an empty object. -/
def Regular (range : ReadRange) (size : Nat) : Prop :=
  match range with
  | .full => 0 < size
  | .tail _ => True
  | .bounded first last => first < size → first ≤ last
  | .suffix length => 0 < length ∧ 0 < size

instance (range : ReadRange) (size : Nat) : Decidable (Regular range size) := by
  unfold Regular
  split <;> infer_instance

section Paths

variable {state : ReadState} {key : CacheKey} {body : Bytes}

theorem ReadState.HoldsDirty.get_eq (holds : state.HoldsDirty key body) (range : ReadRange) :
    state.get key range = getReassembled body range := by
  obtain ⟨journal, dirty, body_eq⟩ := holds
  rw [ReadState.get, getObject, dirty]
  exact congrArg (getReassembled · range) body_eq

theorem ReadState.HoldsOrdinary.get_eq (holds : state.HoldsOrdinary key body)
    (range : ReadRange) :
    state.get key range =
      (Cache.resolveRange range body.length).map fun served => ⟨served, slice body served⟩ := by
  obtain ⟨clean, unpacked, stored⟩ := holds
  rw [ReadState.get, getObject, clean, unpacked]
  rw [innerGet, stored]

variable {bytes : Bytes} {offset length : Nat} {served : Nat × Nat}
  {origin : CacheKey → Option Bytes} {entry : PackIndexEntry}

theorem length_of_slice (inside : offset + length ≤ bytes.length)
    (sliced : slice bytes (offset, offset + length) = body) : length = body.length := by
  rw [← sliced]
  simp only [slice, length_take, length_drop]
  omega

theorem slice_slice (inside : served.2 ≤ length) :
    slice bytes (offset + served.1, offset + served.2) =
      slice (slice bytes (offset, offset + length)) served := by
  simp only [slice, Nat.add_sub_cancel_left, Nat.add_sub_add_left]
  rw [drop_take, take_take, drop_drop, Nat.min_eq_left (by omega)]

theorem getFromPack_of_served {pack : Bytes} {range : ReadRange}
    (stored : origin (entry.pack key) = some pack)
    (inside : entry.offset + entry.length ≤ pack.length)
    (resolved : resolveRange range entry.length = .ok served) (nonempty : served.1 < served.2)
    (within : served.2 ≤ entry.length) :
    getFromPack origin key entry range =
      .ok ⟨served, slice (slice pack (entry.offset, entry.offset + entry.length)) served⟩ := by
  have last : entry.offset + (served.2 - 1) + 1 = entry.offset + served.2 := by omega
  have length : (slice pack (entry.offset + served.1, entry.offset + served.2)).length =
      served.2 - served.1 := by
    simp only [slice, length_take, length_drop]
    omega
  have read : innerGet origin (entry.pack key)
      (.bounded (entry.offset + served.1) (entry.offset + (served.2 - 1))) =
        .ok ⟨(entry.offset + served.1, entry.offset + served.2),
          slice pack (entry.offset + served.1, entry.offset + served.2)⟩ := by
    rw [innerGet, stored]
    simp only [Cache.resolveRange]
    rw [if_pos (by omega), last, Nat.min_eq_left (by omega)]
    rfl
  simp only [getFromPack, resolved, read]
  rw [if_neg (not_not_intro length), slice_slice within]

/-- The whole of an empty entry is asked for as one byte, and cannot be read. -/
theorem getFromPack_full_empty (empty : entry.length = 0) :
    ∃ error, getFromPack origin key entry .full = .error error := by
  simp only [getFromPack, resolveRange, empty, Nat.zero_sub, Nat.add_zero]
  cases read : innerGet origin (entry.pack key) (.bounded entry.offset entry.offset) with
  | error error => exact ⟨error, rfl⟩
  | ok got =>
    have one : got.body.length = 1 := by
      rw [innerGet] at read
      split at read
      · cases read
      simp only [Cache.resolveRange] at read
      split at read
      · rename_i ordered
        cases read
        simp only [slice, length_take, length_drop]
        omega
      · cases read
    exact ⟨_, if_pos (by rw [one]; decide)⟩

end Paths

variable {range : ReadRange} {size : Nat}

theorem Regular.refused {error : ReadError} (regular : Regular range size)
    (refused : Cache.resolveRange range size = .error error) :
    error = .invalidRange ∧ resolveRange range size = .error .invalidRange := by
  cases range with
  | full => cases refused
  | tail first =>
    simp only [Cache.resolveRange] at refused
    split at refused
    · cases refused
    · rename_i beyond
      cases refused
      exact ⟨rfl, if_neg beyond⟩
  | bounded first last =>
    simp only [Cache.resolveRange] at refused
    split at refused
    · cases refused
    · rename_i unordered
      cases refused
      exact ⟨rfl, if_neg fun below => unordered ⟨regular below, below⟩⟩
  | suffix length =>
    have both : 0 < length ∧ 0 < size := regular
    rw [Cache.resolveRange, if_pos both] at refused
    cases refused

theorem Regular.nonempty {served : Nat × Nat} (regular : Regular range size)
    (resolved : Cache.resolveRange range size = .ok served) : served.1 < served.2 := by
  cases range with
  | full =>
    cases resolved
    exact regular
  | tail first =>
    simp only [Cache.resolveRange] at resolved
    split at resolved
    · cases resolved
      assumption
    · cases resolved
  | bounded first last =>
    simp only [Cache.resolveRange] at resolved
    split at resolved
    · rename_i ordered
      cases resolved
      exact Nat.lt_min.mpr ⟨Nat.lt_succ_of_le ordered.1, ordered.2⟩
    · cases resolved
  | suffix length =>
    have both : 0 < length ∧ 0 < size := regular
    rw [Cache.resolveRange, if_pos both] at resolved
    cases resolved
    exact Nat.sub_lt both.2 both.1

section Agreement

variable {dirty packed ordinary : ReadState} {key : CacheKey} {body : Bytes}

theorem Regular.answers (regular : Regular range body.length)
    (holdsDirty : dirty.HoldsDirty key body) (holdsPacked : packed.HoldsPacked key body)
    (holdsOrdinary : ordinary.HoldsOrdinary key body) :
    SameAnswer (dirty.get key range) (ordinary.get key range) ∧
      SameAnswer (packed.get key range) (ordinary.get key range) := by
  obtain ⟨clean, entry, pack, row, stored, inside, sliced⟩ := holdsPacked
  have length_eq := length_of_slice inside sliced
  have packed_eq : packed.get key range = getFromPack packed.origin key entry range := by
    rw [ReadState.get, getObject, clean, row]
  rw [holdsDirty.get_eq, holdsOrdinary.get_eq, packed_eq]
  cases resolved : Cache.resolveRange range body.length with
  | ok served =>
    have within := (Cache.resolveRange_inside resolved).2
    have wb_resolved : resolveRange range entry.length = .ok served := by
      rw [length_eq]
      exact resolveRange_eq_of_cache resolved
    rw [getReassembled_eq resolved, getFromPack_of_served stored inside wb_resolved
      (regular.nonempty resolved) (length_eq ▸ within), sliced]
    exact ⟨rfl, rfl⟩
  | error error =>
    obtain ⟨rfl, refused⟩ := regular.refused resolved
    rw [getReassembled, getFromPack, length_eq, refused]
    exact ⟨trivial, trivial⟩

/-- A dirty journal, a slice of a pack and an ordinary object answer a range alike exactly when the
range is regular for the object. -/
theorem ranges_answered_alike_iff (holdsDirty : dirty.HoldsDirty key body)
    (holdsPacked : packed.HoldsPacked key body) (holdsOrdinary : ordinary.HoldsOrdinary key body)
    (range : ReadRange) :
    SameAnswer (dirty.get key range) (ordinary.get key range) ∧
        SameAnswer (packed.get key range) (ordinary.get key range) ↔
      Regular range body.length := by
  refine ⟨?_, fun regular => regular.answers holdsDirty holdsPacked holdsOrdinary⟩
  rintro ⟨dirtySame, packedSame⟩
  cases range with
  | full =>
    by_contra empty
    have no_bytes : body.length = 0 := Nat.eq_zero_of_not_pos empty
    obtain ⟨clean, entry, pack, row, stored, inside, sliced⟩ := holdsPacked
    have no_entry : entry.length = 0 := (length_of_slice inside sliced).trans no_bytes
    obtain ⟨error, failed⟩ := @getFromPack_full_empty key packed.origin entry no_entry
    rw [holdsOrdinary.get_eq, ReadState.get, getObject, clean, row] at packedSame
    dsimp only at packedSame
    rw [failed] at packedSame
    exact packedSame
  | tail first => trivial
  | bounded first last =>
    intro below
    by_contra inverted
    -- The ordinary path refuses, the dirty one returns nothing or panics.
    rw [holdsDirty.get_eq, holdsOrdinary.get_eq, getReassembled, resolveRange, if_pos below,
      Cache.resolveRange, if_neg fun ordered => inverted ordered.1] at dirtySame
    dsimp only at dirtySame
    split at dirtySame <;> exact dirtySame
  | suffix length =>
    by_contra irregular
    have refused : ¬ (0 < length ∧ 0 < body.length) := irregular
    rw [holdsDirty.get_eq, holdsOrdinary.get_eq, getReassembled, resolveRange,
      Cache.resolveRange, if_neg refused] at dirtySame
    dsimp only at dirtySame
    rw [if_neg (Nat.not_lt.mpr (Nat.sub_le _ _))] at dirtySame
    exact dirtySame

end Agreement

def note : CacheKey := ⟨"main", "bucket", "note"⟩

/-- The note is acknowledged and not yet propagated. -/
def dirtyNote (body : Bytes) : ReadState where
  contents := fun _ => body
  journals := JournalStore.put {} ⟨"draft", "main", "bucket", "note", body.length, .dirty, []⟩
  packs := fun _ => none
  origin := fun _ => none

/-- The note lies between two bytes of a pack. -/
def packedNote (body : Bytes) : ReadState where
  contents := fun _ => []
  journals := {}
  packs := Function.update (fun _ => none) note (some ⟨"_verglas/packs/1", 1, body.length⟩)
  origin := Function.update (fun _ => none) ⟨"main", "bucket", "_verglas/packs/1"⟩
    (some (9 :: body ++ [9]))

def ordinaryNote (body : Bytes) : ReadState where
  contents := fun _ => []
  journals := {}
  packs := fun _ => none
  origin := Function.update (fun _ => none) note (some body)

theorem dirtyNote_holds (body : Bytes) : (dirtyNote body).HoldsDirty note body :=
  ⟨_, rfl, rfl⟩

theorem packedNote_holds (body : Bytes) : (packedNote body).HoldsPacked note body := by
  refine ⟨rfl, ⟨"_verglas/packs/1", 1, body.length⟩, 9 :: body ++ [9], rfl, ?_, ?_, ?_⟩
  · rfl
  · simp only [cons_append, length_cons, length_append, length_nil]
    omega
  · simp [slice]

theorem ordinaryNote_holds (body : Bytes) : (ordinaryNote body).HoldsOrdinary note body :=
  ⟨rfl, rfl, rfl⟩

/-- The last zero bytes of a note, its bytes from the second back to the first, and the whole of an
empty note are answered differently. -/
theorem irregular_ranges_differ :
    (dirtyNote [1, 2]).get note (.suffix 0) = .ok ⟨(2, 2), []⟩ ∧
      (ordinaryNote [1, 2]).get note (.suffix 0) = .error .invalidRange ∧
      (dirtyNote [1, 2, 3]).get note (.bounded 2 0) = .error .sliceInverted ∧
      (ordinaryNote [1, 2, 3]).get note (.bounded 2 0) = .error .invalidRange ∧
      (packedNote []).get note .full =
        .error (.backend "packed read returned an unexpected length") ∧
      (ordinaryNote []).get note .full = .ok ⟨(0, 0), []⟩ :=
  ⟨rfl, rfl, rfl, rfl, rfl, rfl⟩

/-- The second byte of a note is read alike. -/
theorem ranges_answered_alike_iff_second :
    SameAnswer ((dirtyNote [1, 2]).get note (.tail 1)) ((ordinaryNote [1, 2]).get note (.tail 1)) ∧
      SameAnswer ((packedNote [1, 2]).get note (.tail 1))
        ((ordinaryNote [1, 2]).get note (.tail 1)) ∧
      (packedNote [1, 2]).get note (.tail 1) = .ok ⟨(1, 2), [2]⟩ := by
  have alike := (ranges_answered_alike_iff (dirtyNote_holds [1, 2]) (packedNote_holds [1, 2])
    (ordinaryNote_holds [1, 2]) (.tail 1)).mpr trivial
  exact ⟨alike.1, alike.2, rfl⟩

end Verglas.Writeback
