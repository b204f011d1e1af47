import Verglas.Cache.StreamingCodec

/-!
# Reassembly from bad fragments

The fragments that reassembly is given may be truncated, extended, duplicated, out of range or of
another number of stripes.  An index or a length that does not fit the geometry is refused before
the checksum is looked at, and a fragment whose checksum matches is trusted to be as long as the
longest one.  `reassemble_tolerates_iff` says which lists are answered as documented.
-/

namespace Verglas.Cache

open Consensus List

/-- The error stands for a panic. -/
def CodecError.panics : CodecError → Bool
  | .sliceOutOfBounds | .divisionByZero => true
  | _ => false

/-- The outcome stands for a panic. -/
def Panics {α : Type*} (outcome : Except CodecError α) : Prop :=
  ∃ error, outcome = .error error ∧ error.panics

/-- Every data fragment is among those that are kept. -/
def DataComplete (crc32c : Bytes → UInt32) (geometry : Geometry) (fragments : List Fragment) :
    Prop :=
  ∀ index < geometry.k, (keptAt crc32c fragments index).isSome

/-- How many distinct fragments verify. -/
def distinctVerified (crc32c : Bytes → UInt32) (geometry : Geometry) (fragments : List Fragment) :
    Nat :=
  (List.range geometry.total).countP fun index => (keptAt crc32c fragments index).isSome

/-- `k` distinct fragments of an encoded body are in the list, and all others fail their
checksums.  The encoder only returns for a valid geometry. -/
structure Carries (code : ErasureCode UInt8) (crc32c : Bytes → UInt32) (geometry : Geometry)
    (objectLen : Nat) (fragments : List Fragment) (body : Bytes) : Prop where
  valid : geometry.Valid
  encoded : ∃ encoded, encodeWith code crc32c geometry body = .ok encoded ∧
    encoded.objectLen = objectLen ∧
    geometry.k ≤ ((fragments.filter (· ∈ encoded.fragments)).map Fragment.index).dedup.length ∧
    ∀ fragment ∈ fragments, fragment ∈ encoded.fragments ∨ ¬ fragment.verify crc32c

/-- What reassembly promises for a list of fragments: it does not panic, and a body that the list
carries is returned. -/
def Tolerates (code : ErasureCode UInt8) (crc32c : Bytes → UInt32) (geometry : Geometry)
    (objectLen : Nat) (fragments : List Fragment) : Prop :=
  ¬ Panics (reassemble code crc32c geometry objectLen fragments) ∧
    ∀ body, Carries code crc32c geometry objectLen fragments body →
      reassemble code crc32c geometry objectLen fragments = .ok body

/-- The lists of fragments that reassembly can take. -/
structure Harmless (code : ErasureCode UInt8) (crc32c : Bytes → UInt32) (geometry : Geometry)
    (objectLen : Nat) (fragments : List Fragment) : Prop where
  /-- With a chunk of no bytes, a misfit is met before any fragment that verifies. -/
  chunk : geometry.chunk = 0 → ∀ fragment,
    fragments.find? (fun fragment => !decide (fragment.Fits geometry) || fragment.verify crc32c) =
      some fragment → ¬ fragment.Fits geometry
  /-- When the stripes are read, no fragment that is read is shorter than one that verifies. -/
  level : (∀ fragment ∈ fragments, fragment.Fits geometry) →
    geometry.k ≤ distinctVerified crc32c geometry fragments →
    DataComplete crc32c geometry fragments ∨ code.accepts geometry.k geometry.m geometry.chunk →
    ∀ index < geometry.total, (DataComplete crc32c geometry fragments → index < geometry.k) →
      ∀ kept, keptAt crc32c fragments index = some kept →
        ∀ other ∈ fragments, other.verify crc32c → other.bytes.length ≤ kept.bytes.length
  /-- Beside the fragments of an encoded body, damaged ones fit the geometry too. -/
  fits : (∃ body, Carries code crc32c geometry objectLen fragments body) →
    ∀ fragment ∈ fragments, fragment.Fits geometry

variable {code : ErasureCode UInt8} {crc32c : Bytes → UInt32} {geometry : Geometry}

variable {fragments : List Fragment} {state : Slots} {slots : List (Option Fragment)} {stripe : Nat}

namespace Slots.Reflects

variable {fragments : List Fragment} {state : Slots}

theorem stripes_le_iff (reflects : state.Reflects crc32c geometry fragments)
    (fits : ∀ fragment ∈ fragments, fragment.Fits geometry) (length : Nat) :
    state.numStripes * geometry.chunk ≤ length ↔
      ∀ other ∈ fragments, other.verify crc32c → other.bytes.length ≤ length := by
  have whole : ∀ other ∈ fragments,
      other.bytes.length / geometry.chunk * geometry.chunk = other.bytes.length :=
    fun other member => Nat.div_mul_cancel (Nat.dvd_of_mod_eq_zero (fits other member).2)
  constructor
  · intro covered other member verified
    calc other.bytes.length
        = other.bytes.length / geometry.chunk * geometry.chunk := (whole other member).symm
      _ ≤ state.numStripes * geometry.chunk :=
          Nat.mul_le_mul_right _ (reflects.covers other member verified)
      _ ≤ length := covered
  · intro shorter
    rcases reflects.attained with none | ⟨other, member, verified, longest⟩
    · rw [none, Nat.zero_mul]
      exact Nat.zero_le _
    · rw [← longest, whole other member]
      exact shorter other member verified

end Slots.Reflects

theorem Slots.supply_misfit {fragment : Fragment} (misfit : ¬ fragment.Fits geometry) :
    ∃ error, state.supply crc32c geometry fragment = .error error ∧ error.panics = false := by
  rw [Slots.supply]
  split
  · exact ⟨_, rfl, rfl⟩
  · rename_i inside
    rw [if_pos fun whole => misfit ⟨Nat.not_le.mp inside, whole⟩]
    exact ⟨_, rfl, rfl⟩

theorem Slots.foldlM_misfit (positive : geometry.chunk ≠ 0) {indexed : List Fragment}
    (reflects : state.Reflects crc32c geometry indexed)
    (misfit : ∃ fragment ∈ fragments, ¬ fragment.Fits geometry) :
    ∃ error, fragments.foldlM (Slots.supply crc32c geometry) state = .error error ∧
      error.panics = false := by
  induction fragments generalizing state indexed with
  | nil =>
    obtain ⟨fragment, member, _⟩ := misfit
    exact absurd member not_mem_nil
  | cons fragment fragments induction =>
    rw [foldlM_cons]
    by_cases fits : fragment.Fits geometry
    · obtain ⟨next, supplied, next_reflects⟩ := reflects.supply positive fits
      rw [supplied]
      refine induction next_reflects ?_
      obtain ⟨other, member, misfit⟩ := misfit
      rcases mem_cons.mp member with rfl | rest
      · exact absurd fits misfit
      · exact ⟨other, rest, misfit⟩
    · obtain ⟨error, refused, returned⟩ := Slots.supply_misfit fits
      rw [refused]
      exact ⟨error, rfl, returned⟩

/-- With a chunk of no bytes, only the first fragment that is a misfit or verifies matters. -/
theorem Slots.foldlM_zero (zero : geometry.chunk = 0) (fragments : List Fragment) (state : Slots) :
    fragments.foldlM (Slots.supply crc32c geometry) state =
      match fragments.find? fun fragment =>
        !decide (fragment.Fits geometry) || fragment.verify crc32c with
      | none => .ok state
      | some fragment =>
        if fragment.Fits geometry then .error .divisionByZero
        else state.supply crc32c geometry fragment := by
  induction fragments with
  | nil => rfl
  | cons fragment fragments induction =>
    rw [foldlM_cons, find?_cons]
    by_cases fits : fragment.Fits geometry
    · by_cases verified : fragment.verify crc32c
      · simp only [fits, verified, decide_true, Bool.not_true, Bool.or_true, if_true]
        rw [Slots.supply, if_neg (Nat.not_le.mpr fits.1), if_neg (not_not_intro fits.2),
          if_pos verified, if_pos zero]
        rfl
      · have erased : state.supply crc32c geometry fragment = .ok state := by
          rw [Slots.supply, if_neg (Nat.not_le.mpr fits.1), if_neg (not_not_intro fits.2),
            if_neg verified]
        simp only [fits, verified, decide_true, Bool.not_true, Bool.or_self, erased]
        exact induction
    · obtain ⟨error, refused, _⟩ := @Slots.supply_misfit crc32c geometry state fragment fits
      simp only [fits, decide_false, Bool.not_false, Bool.true_or, if_false]
      rw [refused]
      rfl

/-- The cells are the slots, each cut to one chunk. -/
def Cut (geometry : Geometry) : List (Option Fragment) → List (Option Bytes) → Prop :=
  List.Forall₂ fun slot cell => slot.isSome = cell.isSome ∧
    ∀ bytes, cell = some bytes → bytes.length = geometry.chunk

theorem Cut.present {cells : List (Option Bytes)} (cut : Cut geometry slots cells) :
    (present cells).length = slots.countP Option.isSome ∧
      ∀ part ∈ Cache.present cells, part.1 < slots.length ∧ part.2.length = geometry.chunk := by
  constructor
  · rw [length_present]
    induction cut with
    | nil => rfl
    | cons head _ induction => rw [countP_cons, countP_cons, induction, head.1]
  · rintro ⟨index, bytes⟩ member
    obtain ⟨bound, found⟩ := List.getElem?_eq_some_iff.mp (mem_present.mp member)
    have inside : index < slots.length := by
      rw [cut.length_eq]
      exact bound
    exact ⟨inside, (cut.get inside bound).2 bytes found⟩

theorem spans_of_reached (reached : ∀ fragment, some fragment ∈ slots →
      (stripe + 1) * geometry.chunk ≤ fragment.bytes.length) :
    ∃ cells, spans geometry stripe slots = .ok cells ∧ Cut geometry slots cells := by
  induction slots with
  | nil => exact ⟨[], rfl, .nil⟩
  | cons slot slots induction =>
    obtain ⟨cells, read, related⟩ := induction fun fragment member =>
      reached fragment (mem_cons_of_mem _ member)
    rw [spans] at read ⊢
    rw [mapM_cons, read]
    cases slot with
    | none => exact ⟨none :: cells, rfl, .cons ⟨rfl, by simp⟩ related⟩
    | some fragment =>
      have bound := reached fragment mem_cons_self
      have ordered : stripe * geometry.chunk ≤ (stripe + 1) * geometry.chunk :=
        Nat.mul_le_mul_right _ (Nat.le_succ _)
      simp only [slice?, if_pos (And.intro ordered bound)]
      refine ⟨_, rfl, .cons ⟨rfl, ?_⟩ related⟩
      rintro bytes ⟨⟩
      rw [length_drop, length_take, Nat.add_mul, Nat.one_mul]
      rw [Nat.add_mul, Nat.one_mul] at bound
      omega

theorem spans_of_short (short : ∃ fragment, some fragment ∈ slots ∧
      fragment.bytes.length < (stripe + 1) * geometry.chunk) :
    spans geometry stripe slots = .error .sliceOutOfBounds := by
  rw [spans]
  apply mapM_eq_error
  · intro slot _
    cases slot with
    | none => exact .inl ⟨none, rfl⟩
    | some fragment =>
      cases cut : fragment.bytes.slice? (stripe * geometry.chunk)
          ((stripe + 1) * geometry.chunk) with
      | none => exact .inr (by simp only [cut])
      | some span => exact .inl ⟨some span, by simp only [cut]⟩
  · obtain ⟨fragment, member, ends⟩ := short
    have beyond : ¬ (stripe * geometry.chunk ≤ (stripe + 1) * geometry.chunk ∧
        (stripe + 1) * geometry.chunk ≤ fragment.bytes.length) :=
      fun bounds => Nat.not_lt.mpr bounds.2 ends
    refine ⟨some fragment, member, ?_⟩
    simp only [slice?, if_neg beyond]

/-- The slots that are read: the data when all of it is there, and everything otherwise. -/
def Slots.reads (geometry : Geometry) (state : Slots) : List (Option Fragment) :=
  if (state.slots.take geometry.k).all Option.isSome then state.slots.take geometry.k
  else state.slots

theorem mapM_restored {data : List (Option Bytes)} {restored : List (Nat × Bytes)}
    (error : CodecError) (missing : ∀ slot < data.length, slot ∉ (present data).map Prod.fst →
      (restored.lookup slot).isSome) :
    ∃ shards : List Bytes, (data.zipIdx.mapM fun entry =>
      match entry.1.or (restored.lookup entry.2) with
      | some shard => .ok shard
      | none => .error error) = Except.ok shards := by
  apply mapM_isOk
  rintro ⟨cell, index⟩ member
  have cell_at := mem_zipIdx_iff_getElem?.mp member
  cases cell with
  | some shard => exact ⟨shard, rfl⟩
  | none =>
    have unsupplied : index ∉ (present data).map Prod.fst := by
      intro supplied
      obtain ⟨⟨_, bytes⟩, entry, rfl⟩ := mem_map.mp supplied
      rw [mem_present.mp entry] at cell_at
      cases cell_at
    obtain ⟨shard, restored_eq⟩ := Option.isSome_iff_exists.mp
      (missing index (List.getElem?_eq_some_iff.mp cell_at).1 unsupplied)
    exact ⟨shard, by simp only [Option.none_or, restored_eq]⟩

section Stripe

variable {state : Slots} {stripe : Nat}

theorem mapM_stripes_unreadable (unreadable : ¬ ((state.slots.take geometry.k).all Option.isSome ∨
      code.accepts geometry.k geometry.m geometry.chunk)) (count : Nat) :
    (∃ stripes, (List.range count).mapM (reassembleStripe code geometry state) = .ok stripes) ∨
      (List.range count).mapM (reassembleStripe code geometry state) = .error .backend := by
  obtain ⟨incomplete, refused⟩ := not_or.mp unreadable
  have each (stripe : Nat) : reassembleStripe code geometry state stripe = .error .backend := by
    rw [reassembleStripe, if_neg incomplete, if_neg refused]
  cases count with
  | zero => exact .inl ⟨[], rfl⟩
  | succ last =>
    exact .inr (mapM_eq_error (fun stripe _ => .inr (each stripe))
      ⟨last, mem_range.mpr (Nat.lt_succ_self last), each last⟩)

variable (decodes : code.DecodesAny) (length : state.slots.length = geometry.total)
  (enough : geometry.k ≤ state.slots.countP Option.isSome)
  (readable : (state.slots.take geometry.k).all Option.isSome ∨
    code.accepts geometry.k geometry.m geometry.chunk)

include decodes length enough readable

theorem reassembleStripe_of_reached (reached : ∀ fragment, some fragment ∈ state.reads geometry →
      (stripe + 1) * geometry.chunk ≤ fragment.bytes.length) :
    ∃ bytes, reassembleStripe code geometry state stripe = .ok bytes := by
  rw [Slots.reads] at reached
  rw [reassembleStripe]
  split at reached
  · rename_i complete
    obtain ⟨cells, read, _⟩ := spans_of_reached reached
    rw [if_pos complete, read]
    exact ⟨_, rfl⟩
  · rename_i incomplete
    obtain ⟨data, readData, dataCells⟩ := spans_of_reached fun fragment member =>
      reached fragment (take_subset geometry.k state.slots member)
    obtain ⟨parity, readParity, parityCells⟩ := spans_of_reached fun fragment member =>
      reached fragment (drop_subset geometry.k state.slots member)
    rw [if_neg incomplete, if_pos (readable.resolve_left incomplete), readData]
    simp only [bind, Except.bind]
    rw [readParity]
    dsimp only
    obtain ⟨dataCount, dataInside⟩ := dataCells.present
    obtain ⟨parityCount, parityInside⟩ := parityCells.present
    have dataLength : (state.slots.take geometry.k).length = geometry.k := by
      rw [length_take, length, Geometry.total]
      omega
    have parityLength : (state.slots.drop geometry.k).length = geometry.m := by
      rw [length_drop, length, Geometry.total]
      omega
    have counted : geometry.k ≤ (present data).length + (present parity).length := by
      rwa [dataCount, parityCount, ← countP_append, take_append_drop]
    obtain ⟨restored, decoded, missing⟩ := decodes (readable.resolve_left incomplete)
      (nodup_present data) (nodup_present parity) (dataLength ▸ dataInside)
      (parityLength ▸ parityInside) counted
    rw [decoded]
    have data_length : data.length = geometry.k := dataCells.length_eq.symm.trans dataLength
    obtain ⟨shards, all⟩ := mapM_restored
      (.insufficientFragments geometry.k state.available) (data_length ▸ missing)
    exact ⟨shards.flatten, congrArg (Except.map flatten) all⟩

omit decodes length enough in
theorem reassembleStripe_of_short (short : ∃ fragment, some fragment ∈ state.reads geometry ∧
      fragment.bytes.length < (stripe + 1) * geometry.chunk) :
    reassembleStripe code geometry state stripe = .error .sliceOutOfBounds := by
  rw [Slots.reads] at short
  rw [reassembleStripe]
  split at short
  · rename_i complete
    rw [if_pos complete, spans_of_short short]
    rfl
  · rename_i incomplete
    rw [if_neg incomplete, if_pos (readable.resolve_left incomplete)]
    by_cases shortData : ∃ fragment, some fragment ∈ state.slots.take geometry.k ∧
        fragment.bytes.length < (stripe + 1) * geometry.chunk
    · rw [spans_of_short shortData]
      rfl
    · have reached : ∀ fragment, some fragment ∈ state.slots.take geometry.k →
          (stripe + 1) * geometry.chunk ≤ fragment.bytes.length :=
        fun fragment member => Nat.not_lt.mp fun ends => shortData ⟨fragment, member, ends⟩
      obtain ⟨data, read, _⟩ := spans_of_reached reached
      obtain ⟨fragment, member, ends⟩ := short
      have inParity : some fragment ∈ state.slots.drop geometry.k := by
        rw [← take_append_drop geometry.k state.slots] at member
        rcases mem_append.mp member with inData | inParity
        · exact absurd ⟨fragment, inData, ends⟩ shortData
        · exact inParity
      rw [read]
      simp only [bind, Except.bind]
      rw [spans_of_short ⟨fragment, inParity, ends⟩]

theorem mapM_stripes_of_short {count : Nat}
    (short : ∃ fragment, some fragment ∈ state.reads geometry ∧
      fragment.bytes.length < count * geometry.chunk) :
    (List.range count).mapM (reassembleStripe code geometry state) =
      .error .sliceOutOfBounds := by
  apply mapM_eq_error
  · intro stripe _
    by_cases ends : ∃ fragment, some fragment ∈ state.reads geometry ∧
        fragment.bytes.length < (stripe + 1) * geometry.chunk
    · exact .inr (reassembleStripe_of_short readable ends)
    · refine .inl (reassembleStripe_of_reached decodes length enough readable ?_)
      exact fun fragment read => Nat.not_lt.mp fun less => ends ⟨fragment, read, less⟩
  · cases count with
    | zero =>
      obtain ⟨fragment, _, less⟩ := short
      rw [Nat.zero_mul] at less
      exact absurd less (Nat.not_lt_zero _)
    | succ last =>
      exact ⟨last, mem_range.mpr (Nat.lt_succ_self last), reassembleStripe_of_short readable short⟩

end Stripe

namespace Slots.Reflects

variable {fragments : List Fragment} {state : Slots}
  (reflects : state.Reflects crc32c geometry fragments)

include reflects

theorem length_slots :
    state.slots.length = geometry.total := by
  rw [reflects.slots, length_map, length_range]

theorem available_eq :
    state.available = distinctVerified crc32c geometry fragments := by
  rw [reflects.available, reflects.slots, countP_map]
  rfl

theorem take_slots :
    state.slots.take geometry.k = (List.range geometry.k).map (keptAt crc32c fragments) := by
  rw [reflects.slots, ← map_take, take_range, Geometry.total,
    Nat.min_eq_left (Nat.le_add_right _ _)]

theorem complete_iff :
    (state.slots.take geometry.k).all Option.isSome ↔ DataComplete crc32c geometry fragments := by
  rw [reflects.take_slots, all_map, all_eq_true]
  simp only [mem_range, Function.comp_apply]
  rfl

theorem mem_reads (fragment : Fragment) :
    some fragment ∈ state.reads geometry ↔ ∃ index < geometry.total,
      (DataComplete crc32c geometry fragments → index < geometry.k) ∧
        keptAt crc32c fragments index = some fragment := by
  rw [Slots.reads]
  split
  · rename_i complete
    have complete := reflects.complete_iff.mp complete
    rw [reflects.take_slots, mem_map]
    constructor
    · rintro ⟨index, inside, kept⟩
      have inside := mem_range.mp inside
      exact ⟨index, inside.trans_le (Nat.le_add_right _ _), fun _ => inside, kept⟩
    · rintro ⟨index, _, inside, kept⟩
      exact ⟨index, mem_range.mpr (inside complete), kept⟩
  · rename_i incomplete
    have incomplete := fun complete => incomplete (reflects.complete_iff.mpr complete)
    rw [reflects.slots, mem_map]
    constructor
    · rintro ⟨index, inside, kept⟩
      exact ⟨index, mem_range.mp inside, fun complete => absurd complete incomplete, kept⟩
    · rintro ⟨index, inside, _, kept⟩
      exact ⟨index, mem_range.mpr inside, kept⟩

end Slots.Reflects

section Call

variable {fragments : List Fragment} {objectLen : Nat}

/-- With a chunk of no bytes the call divides by zero where the first fragment that is a misfit or
verifies fits. -/
theorem panics_zero_iff (zero : geometry.chunk = 0) :
    Panics (reassemble code crc32c geometry objectLen fragments) ↔ ∃ fragment,
      fragments.find? (fun fragment => !decide (fragment.Fits geometry) ||
        fragment.verify crc32c) = some fragment ∧ fragment.Fits geometry := by
  rw [reassemble, Slots.foldlM_zero zero]
  cases fragments.find? fun fragment =>
      !decide (fragment.Fits geometry) || fragment.verify crc32c with
  | none =>
    constructor
    · rintro ⟨error, failed, panics⟩
      simp only [bind, Except.bind] at failed
      split at failed
      · cases failed
        cases panics
      · simp only [Slots.empty, range_zero, mapM_nil, pure, Except.pure] at failed
        cases failed
    · rintro ⟨fragment, found, _⟩
      cases found
  | some fragment =>
    by_cases fits : fragment.Fits geometry
    · simp only [if_pos fits]
      exact ⟨fun _ => ⟨fragment, rfl, fits⟩, fun _ => ⟨.divisionByZero, rfl, rfl⟩⟩
    · obtain ⟨error, refused, returned⟩ :=
        @Slots.supply_misfit crc32c geometry (Slots.empty geometry) fragment fits
      simp only [if_neg fits, refused]
      constructor
      · rintro ⟨other, failed, panics⟩
        cases failed
        rw [returned] at panics
        cases panics
      · rintro ⟨other, found, otherFits⟩
        cases found
        exact absurd otherFits fits

theorem reassemble_misfit (positive : geometry.chunk ≠ 0)
    (misfit : ∃ fragment ∈ fragments, ¬ fragment.Fits geometry) :
    ∃ error, reassemble code crc32c geometry objectLen fragments = .error error ∧
      error.panics = false := by
  obtain ⟨error, refused, returned⟩ :=
    Slots.foldlM_misfit positive (Slots.Reflects.empty crc32c geometry) misfit
  rw [reassemble, refused]
  exact ⟨error, rfl, returned⟩

/-- Fragments that fit are sliced beyond an end where one that is read is shorter than one that
verifies. -/
theorem panics_fit_iff (decodes : code.DecodesAny) (positive : geometry.chunk ≠ 0)
    (fits : ∀ fragment ∈ fragments, fragment.Fits geometry) :
    Panics (reassemble code crc32c geometry objectLen fragments) ↔
      geometry.k ≤ distinctVerified crc32c geometry fragments ∧
      (DataComplete crc32c geometry fragments ∨
        code.accepts geometry.k geometry.m geometry.chunk) ∧
      ∃ index < geometry.total, (DataComplete crc32c geometry fragments → index < geometry.k) ∧
        ∃ kept, keptAt crc32c fragments index = some kept ∧
          ∃ other ∈ fragments, other.verify crc32c ∧ kept.bytes.length < other.bytes.length := by
  obtain ⟨state, folded, reflects⟩ := (Slots.Reflects.empty crc32c geometry).foldlM positive fits
  rw [nil_append] at reflects
  rw [reassemble, folded]
  simp only [bind, Except.bind, ← reflects.available_eq]
  split
  · rename_i few
    constructor
    · rintro ⟨error, failed, panics⟩
      cases failed
      cases panics
    · exact fun conditions => absurd few (Nat.not_lt.mpr conditions.1)
  · rename_i many
    have enough : geometry.k ≤ state.slots.countP Option.isSome := by
      rw [← reflects.available]
      exact Nat.not_lt.mp many
    by_cases readable : (state.slots.take geometry.k).all Option.isSome ∨
        code.accepts geometry.k geometry.m geometry.chunk
    · by_cases short : ∃ fragment, some fragment ∈ state.reads geometry ∧
          fragment.bytes.length < state.numStripes * geometry.chunk
      · rw [mapM_stripes_of_short decodes reflects.length_slots enough readable short]
        obtain ⟨kept, read, less⟩ := short
        obtain ⟨index, inside, used, kept_at⟩ := (reflects.mem_reads kept).mp read
        have longer := mt (reflects.stripes_le_iff fits kept.bytes.length).mpr (Nat.not_le.mpr less)
        push Not at longer
        refine ⟨fun _ => ⟨Nat.not_lt.mp many, readable.imp_left reflects.complete_iff.mp, index,
          inside, used, kept, kept_at, longer⟩, fun _ => ⟨.sliceOutOfBounds, rfl, rfl⟩⟩
      · have reached : ∀ fragment, some fragment ∈ state.reads geometry →
            state.numStripes * geometry.chunk ≤ fragment.bytes.length :=
          fun fragment read => Nat.not_lt.mp fun less => short ⟨fragment, read, less⟩
        obtain ⟨stripes, all⟩ := mapM_isOk (range state.numStripes) fun stripe member =>
          reassembleStripe_of_reached decodes reflects.length_slots enough readable
            fun fragment read => (Nat.mul_le_mul_right _ (mem_range.mp member)).trans
              (reached fragment read)
        rw [all]
        constructor
        · rintro ⟨error, failed, _⟩
          cases failed
        · rintro ⟨_, _, index, inside, used, kept, kept_at, other, member, verified, less⟩
          have read := (reflects.mem_reads kept).mpr ⟨index, inside, used, kept_at⟩
          have bound :=
            (reflects.stripes_le_iff fits _).mp (reached kept read) other member verified
          exact absurd less (Nat.not_lt.mpr bound)
    · constructor
      · rintro ⟨error, failed, panics⟩
        rcases mapM_stripes_unreadable readable state.numStripes with ⟨stripes, all⟩ | refused
        · rw [all] at failed
          cases failed
        · rw [refused] at failed
          cases failed
          cases panics
      · rintro ⟨_, taken, _⟩
        exact absurd (taken.imp_left reflects.complete_iff.mpr) readable

/-- The call does not panic where a chunk of no bytes meets no fitting fragment that verifies and
the fragments that are read are as long as the others. -/
theorem not_panics_iff (decodes : code.DecodesAny)
    (beside : (∃ body, Carries code crc32c geometry objectLen fragments body) →
      ∀ fragment ∈ fragments, fragment.Fits geometry) :
    ¬ Panics (reassemble code crc32c geometry objectLen fragments) ↔
      Harmless code crc32c geometry objectLen fragments := by
  by_cases zero : geometry.chunk = 0
  · rw [panics_zero_iff zero]
    constructor
    · intro safe
      refine ⟨fun _ fragment found fits => safe ⟨fragment, found, fits⟩, ?_, beside⟩
      intro fits _ _ _ _ _ kept _ other member _
      -- A fragment of whole chunks of no bytes is empty.
      have empty : other.bytes.length = 0 := by
        have whole := (fits other member).2
        rwa [zero, Nat.mod_zero] at whole
      rw [empty]
      exact Nat.zero_le _
    · rintro harmless ⟨fragment, found, fits⟩
      exact harmless.chunk zero fragment found fits
  · by_cases fits : ∀ fragment ∈ fragments, fragment.Fits geometry
    · rw [panics_fit_iff decodes zero fits]
      constructor
      · intro safe
        refine ⟨fun none => absurd none zero, ?_, beside⟩
        intro _ enough readable index inside used kept kept_at other member verified
        exact Nat.not_lt.mp fun less => safe ⟨enough, readable, index, inside, used, kept, kept_at,
          other, member, verified, less⟩
      · rintro harmless ⟨enough, readable, index, inside, used, kept, kept_at, other, member,
          verified, less⟩
        exact absurd less (Nat.not_lt.mpr
          (harmless.level fits enough readable index inside used kept kept_at other member
            verified))
    · have misfit : ∃ fragment ∈ fragments, ¬ fragment.Fits geometry := by
        push Not at fits
        exact fits
      obtain ⟨error, refused, returned⟩ := reassemble_misfit zero misfit
      constructor
      · exact fun _ => ⟨fun none => absurd none zero, fun all => absurd all fits, beside⟩
      · rintro - ⟨other, failed, panics⟩
        rw [refused] at failed
        cases failed
        rw [returned] at panics
        cases panics

/-- Reassembly keeps its promise for exactly the harmless lists of fragments. -/
theorem reassemble_tolerates_iff (lawful : code.Lawful) (decodes : code.DecodesAny) :
    Tolerates code crc32c geometry objectLen fragments ↔
      Harmless code crc32c geometry objectLen fragments := by
  constructor
  · rintro ⟨safe, exact⟩
    refine (not_panics_iff decodes ?_).mp safe
    rintro ⟨body, carries⟩
    by_contra misfit
    push Not at misfit
    obtain ⟨error, refused, _⟩ := reassemble_misfit carries.valid.chunk_pos.ne' misfit
    have returned := exact body carries
    rw [refused] at returned
    cases returned
  · intro harmless
    refine ⟨(not_panics_iff decodes harmless.fits).mpr harmless, ?_⟩
    intro body carries
    have fits := harmless.fits ⟨body, carries⟩
    obtain ⟨valid, encoded, done, rfl, enough, others⟩ := carries
    refine reassemble_encodeWith lawful valid done ?_ enough
    intro fragment member
    refine (others fragment member).imp_right fun damaged => ?_
    exact ⟨(fits fragment member).1, (fits fragment member).2, damaged⟩

end Call

def twoBytes : Encoded :=
  ⟨⟨1, 1, 2⟩, 2, [Fragment.new castagnoli 0 [1, 2], Fragment.new castagnoli 1 [1, 2]]⟩

set_option maxRecDepth 10000 in
/-- Two fragments that verify have different numbers of stripes, and the call panics.  A truncated
mirror fails its checksum, and the call refuses it instead of reading the other fragment. -/
theorem bad_fragments_not_tolerated :
    Panics (reassemble .mirror castagnoli ⟨1, 1, 2⟩ 4
        [Fragment.new castagnoli 0 [1, 2], Fragment.new castagnoli 1 [1, 2, 3, 4]]) ∧
      Carries .mirror castagnoli ⟨1, 1, 2⟩ 2
        [⟨1, [1], castagnoli [1, 2]⟩, Fragment.new castagnoli 0 [1, 2]] [1, 2] ∧
      reassemble .mirror castagnoli ⟨1, 1, 2⟩ 2
        [⟨1, [1], castagnoli [1, 2]⟩, Fragment.new castagnoli 0 [1, 2]] =
          .error (.fragmentLength 1 1 2) := by
  refine ⟨⟨.sliceOutOfBounds, rfl, rfl⟩, ⟨⟨by decide, by decide⟩, twoBytes,
    rfl, rfl, by decide, ?_⟩, rfl⟩
  intro fragment member
  rcases mem_cons.mp member with rfl | intact
  · exact .inr (by decide)
  · exact .inl (mem_singleton.mp intact ▸ mem_cons_self)

/-- The mirror of two bytes is read when the data fragment is damaged. -/
theorem reassemble_tolerates_iff_damaged :
    Tolerates .mirror castagnoli ⟨1, 1, 2⟩ 2
      [⟨0, [9, 9], castagnoli [1, 2]⟩, Fragment.new castagnoli 1 [1, 2]] := by
  refine (reassemble_tolerates_iff ErasureCode.mirror_lawful ErasureCode.mirror_decodesAny).mpr
    ⟨by decide, ?_, fun _ => by decide⟩
  intro _ _ _ index _ _ kept kept_at other member verified
  have kept_eq : kept = Fragment.new castagnoli 1 [1, 2] := by
    obtain ⟨given, checks, _⟩ := keptAt_eq_some kept_at
    rcases mem_cons.mp given with rfl | intact
    · exact absurd checks (by decide +kernel)
    · exact mem_singleton.mp intact
  rcases mem_cons.mp member with rfl | intact
  · exact absurd verified (by decide +kernel)
  · rw [kept_eq, mem_singleton.mp intact]

end Verglas.Cache
