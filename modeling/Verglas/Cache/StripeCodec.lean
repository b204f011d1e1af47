import Verglas.Cluster.Fragments
import Verglas.Lib.Blocks

/-!
# The stripe codec of write-back objects

An object is cut into stripes of `k * chunk` bytes, the last one filled with zeros.  A stripe gives
`k` data shards and `m` parity shards, and fragment `i` of the object is shard `i` of every stripe
in order.  The Reed-Solomon backend is a parameter `code`, and with `m = 0` it is not used.
-/

namespace Verglas.Cache

open Consensus List

def maxStripeChunk : Nat := 4 * 1024 * 1024

/-- Why encoding or reassembling fails. -/
inductive CodecError where
  | invalidGeometry (k m : Nat) (reason : String)
  | backend
  | insufficientFragments (needed available : Nat)
  | fragmentIndex (index total : Nat)
  | fragmentLength (index actual chunk : Nat)
  /-- A slice beyond the end of a fragment, which panics. -/
  | sliceOutOfBounds
  /-- A division by a chunk of no bytes, which panics. -/
  | divisionByZero
  deriving DecidableEq, Repr

/-- One fragment with the checksum that was recorded for it. -/
structure Fragment where
  index : Nat
  bytes : Bytes
  checksum : UInt32
  deriving DecidableEq

/-- `k` data and `m` parity fragments, in chunks of `chunk` bytes. -/
structure Geometry where
  k : Nat
  m : Nat
  chunk : Nat
  deriving DecidableEq, Repr

def roundUpEven (n : Nat) : Nat := if n % 2 = 0 then n else n + 1

namespace Geometry

/-- Only `k` is checked. -/
def validate (k m : Nat) : Except CodecError Unit :=
  if k = 0 then .error (.invalidGeometry k m "k must be at least 1") else .ok ()

/-- The geometry for an object of known length. -/
def forObject (k m objectLen : Nat) : Except CodecError Geometry := do
  validate k m
  let target := max ((objectLen + max k 1 - 1) / max k 1) 2
  return ⟨k, m, roundUpEven (min target maxStripeChunk)⟩

/-- The geometry with an explicit chunk. -/
def streaming (k m chunk : Nat) : Except CodecError Geometry := do
  validate k m
  return ⟨k, m, roundUpEven (max chunk 2)⟩

/-- The number of fragments. -/
def total (geometry : Geometry) : Nat := geometry.k + geometry.m

/-- Bytes of the object that one stripe covers. -/
def stripeDataLen (geometry : Geometry) : Nat := geometry.k * geometry.chunk

/-- What the two constructors establish and the codec relies on. -/
structure Valid (geometry : Geometry) : Prop where
  k_pos : 0 < geometry.k
  chunk_pos : 0 < geometry.chunk

variable {geometry : Geometry}

theorem Valid.stripe_pos (valid : geometry.Valid) : 0 < geometry.stripeDataLen :=
  Nat.mul_pos valid.k_pos valid.chunk_pos

theorem le_roundUpEven (n : Nat) : n ≤ roundUpEven n := by
  rw [roundUpEven]
  split <;> omega

theorem streaming_eq_ok {k m chunk : Nat} (built : streaming k m chunk = .ok geometry) :
    geometry.Valid ∧ geometry = ⟨k, m, roundUpEven (max chunk 2)⟩ := by
  by_cases zero : k = 0
  · simp [streaming, validate, zero, bind, Except.bind] at built
  simp only [streaming, validate, zero, if_false, bind, Except.bind, pure, Except.pure,
    Except.ok.injEq] at built
  have chunk_ge : max chunk 2 ≤ roundUpEven (max chunk 2) := le_roundUpEven _
  subst built
  refine ⟨⟨Nat.pos_of_ne_zero zero, ?_⟩, rfl⟩
  simp only
  omega

end Geometry

section Codec

variable (code : ErasureCode UInt8) (crc32c : Bytes → UInt32)

/-- The shards of one full stripe: its data chunks and their parity. -/
def encodeOneStripe (geometry : Geometry) (stripe : Bytes) : Except CodecError (List Bytes) :=
  let originals := chunksExact geometry.chunk stripe
  if geometry.m = 0 then .ok originals
  else
    match code.encode geometry.k geometry.m geometry.chunk originals with
    | none => .error .backend
    | some recovery => .ok (originals ++ recovery)

/-- An encoder that hands the shards of each stripe to its caller. -/
structure StreamingStripeEncoder where
  geometry : Geometry
  stripeBuf : Bytes
  objectLen : Nat

namespace StreamingStripeEncoder

def new (geometry : Geometry) : StreamingStripeEncoder := ⟨geometry, [], 0⟩

/-- Feed bytes, and encode the stripes that they complete. -/
def push (encoder : StreamingStripeEncoder) (data : Bytes) :
    Except CodecError (List (List Bytes) × StreamingStripeEncoder) := do
  let buffer := encoder.stripeBuf ++ data
  let stripe := encoder.geometry.stripeDataLen
  let shards ← (chunksExact stripe buffer).mapM (encodeOneStripe code encoder.geometry)
  return (shards,
    { encoder with
      stripeBuf := blockRest stripe buffer
      objectLen := encoder.objectLen + data.length })

/-- Encode what is left, filled with zeros, and return the length of the object. -/
def finish (encoder : StreamingStripeEncoder) : Except CodecError (List (List Bytes) × Nat) := do
  let last := lastBlock encoder.geometry.stripeDataLen 0 encoder.stripeBuf
  let shards ← last.mapM (encodeOneStripe code encoder.geometry)
  return (shards, encoder.objectLen)

end StreamingStripeEncoder

def Fragment.new (index : Nat) (bytes : Bytes) : Fragment := ⟨index, bytes, crc32c bytes⟩

def Fragment.verify (fragment : Fragment) : Bool := crc32c fragment.bytes = fragment.checksum

/-- An encoded object. -/
structure Encoded where
  geometry : Geometry
  objectLen : Nat
  fragments : List Fragment

/-- The encoder of a whole object: fragments so far and the bytes of the open stripe. -/
structure StripeEncoder where
  geometry : Geometry
  fragments : List Bytes
  stripeBuf : Bytes
  objectLen : Nat

namespace StripeEncoder

def new (geometry : Geometry) : StripeEncoder :=
  ⟨geometry, List.replicate geometry.total [], [], 0⟩

/-- Append each shard of a stripe to its fragment. -/
def appendShards (fragments : List Bytes) (shards : List Bytes) : List Bytes :=
  fragments.zipWith (· ++ ·) shards

/-- Encode the stripes that the data completes. -/
def push (encoder : StripeEncoder) (data : Bytes) : Except CodecError StripeEncoder := do
  let buffer := encoder.stripeBuf ++ data
  let stripe := encoder.geometry.stripeDataLen
  let shards ← (chunksExact stripe buffer).mapM (encodeOneStripe code encoder.geometry)
  return { encoder with
    fragments := shards.foldl appendShards encoder.fragments
    stripeBuf := blockRest stripe buffer
    objectLen := encoder.objectLen + data.length }

/-- Encode what is left, padded with zeros. -/
def finish (encoder : StripeEncoder) : Except CodecError Encoded := do
  let last := lastBlock encoder.geometry.stripeDataLen 0 encoder.stripeBuf
  let shards ← last.mapM (encodeOneStripe code encoder.geometry)
  let fragments := shards.foldl appendShards encoder.fragments
  return ⟨encoder.geometry, encoder.objectLen,
    fragments.mapIdx (Fragment.new crc32c)⟩

end StripeEncoder

/-- Encode a whole body. -/
def encodeWith (geometry : Geometry) (body : Bytes) : Except CodecError Encoded := do
  let encoder ← (StripeEncoder.new geometry).push code body
  encoder.finish code crc32c

def encode (k m : Nat) (body : Bytes) : Except CodecError Encoded := do
  let geometry ← Geometry.forObject k m body.length
  encodeWith code crc32c geometry body

/-- The fragments to reassemble from, by index, with the number of stripes and of fragments. -/
structure Slots where
  slots : List (Option Fragment)
  numStripes : Nat
  available : Nat

/-- No fragment is placed. -/
def Slots.empty (geometry : Geometry) : Slots :=
  ⟨List.replicate geometry.total none, 0, 0⟩

/-- Index one more fragment.  A fragment that fails its checksum is an erasure, and the first one at
an index is kept. -/
def Slots.supply (geometry : Geometry) (state : Slots) (fragment : Fragment) :
    Except CodecError Slots :=
  if geometry.total ≤ fragment.index then .error (.fragmentIndex fragment.index geometry.total)
  else if fragment.bytes.length % geometry.chunk ≠ 0 then
    .error (.fragmentLength fragment.index fragment.bytes.length geometry.chunk)
  else if fragment.verify crc32c then
    if geometry.chunk = 0 then .error .divisionByZero else
    let numStripes := max state.numStripes (fragment.bytes.length / geometry.chunk)
    if state.slots[fragment.index]? = some none then
      .ok ⟨state.slots.set fragment.index (some fragment), numStripes, state.available + 1⟩
    else .ok { state with numStripes }
  else .ok state

/-- The part of each fragment that belongs to one stripe. -/
def spans (geometry : Geometry) (stripe : Nat) (slots : List (Option Fragment)) :
    Except CodecError (List (Option Bytes)) :=
  slots.mapM fun
    | none => .ok none
    | some fragment =>
      match fragment.bytes.slice? (stripe * geometry.chunk) ((stripe + 1) * geometry.chunk) with
      | none => .error .sliceOutOfBounds
      | some span => .ok (some span)

/-- The filled slots with their indices. -/
def present {α : Type*} (entries : List (Option α)) : List (Nat × α) :=
  entries.zipIdx.filterMap fun entry => entry.1.map fun value => (entry.2, value)

/-- The data of one stripe: copied when every data fragment is there, and decoded otherwise. -/
def reassembleStripe (geometry : Geometry) (state : Slots) (stripe : Nat) :
    Except CodecError Bytes := do
  if (state.slots.take geometry.k).all Option.isSome then
    let data ← spans geometry stripe (state.slots.take geometry.k)
    return data.reduceOption.flatten
  else if code.accepts geometry.k geometry.m geometry.chunk then
    let data ← spans geometry stripe (state.slots.take geometry.k)
    let parity ← spans geometry stripe (state.slots.drop geometry.k)
    match code.decode geometry.k geometry.m geometry.chunk (present data) (present parity) with
    | none => .error .backend
    | some restored =>
      let shards ← data.zipIdx.mapM fun entry =>
        match entry.1.or (restored.lookup entry.2) with
        | some shard => .ok shard
        | none => .error (.insufficientFragments geometry.k state.available)
      return shards.flatten
  else .error .backend

/-- The object of the given length, from any `k` distinct verified fragments. -/
def reassemble (geometry : Geometry) (objectLen : Nat) (fragments : List Fragment) :
    Except CodecError Bytes := do
  let state ← fragments.foldlM (Slots.supply crc32c geometry) (Slots.empty geometry)
  if state.available < geometry.k then
    .error (.insufficientFragments geometry.k state.available)
  else
    let stripes ← (List.range state.numStripes).mapM (reassembleStripe code geometry state)
    return stripes.flatten.take objectLen

end Codec

section Stripes

variable {code : ErasureCode UInt8} {crc32c : Bytes → UInt32} {geometry : Geometry}

/-- The shards of a stripe: its data in `k` chunks, and the parity that the backend adds. -/
structure IsStripe (code : ErasureCode UInt8) (geometry : Geometry) (stripe : Bytes)
    (originals recovery : List Bytes) : Prop where
  count : originals.length = geometry.k
  widths : ∀ shard ∈ originals, shard.length = geometry.chunk
  flatten : originals.flatten = stripe
  parity : geometry.m = 0 ∧ recovery = [] ∨
    code.encode geometry.k geometry.m geometry.chunk originals = some recovery

variable {shards stripes : List Bytes} {body : Bytes} {encoded : Encoded} {α : Type*}
  {state : Slots} {fragments : List Fragment}

variable {stripe : Bytes} {cells : List (Option Bytes)} {fragment : Fragment} {after : Slots}
  {objectLen : Nat}

theorem encodeOneStripe_eq_ok (valid : geometry.Valid)
    (full : stripe.length = geometry.stripeDataLen)
    (encoded : encodeOneStripe code geometry stripe = .ok shards) :
    ∃ originals recovery, IsStripe code geometry stripe originals recovery ∧
      shards = originals ++ recovery := by
  have count : (chunksExact geometry.chunk stripe).length = geometry.k := by
    rw [length_chunksExact, full, Geometry.stripeDataLen, Nat.mul_div_cancel _ valid.chunk_pos]
  have widths : ∀ shard ∈ chunksExact geometry.chunk stripe, shard.length = geometry.chunk :=
    fun shard member => length_of_mem_chunksExact valid.chunk_pos member
  have whole : (chunksExact geometry.chunk stripe).flatten = stripe :=
    flatten_chunksExact valid.chunk_pos full
  simp only [encodeOneStripe] at encoded
  split at encoded
  · rename_i identity
    cases encoded
    exact ⟨_, [], ⟨count, widths, whole, .inl ⟨identity, rfl⟩⟩, (append_nil _).symm⟩
  · split at encoded
    · cases encoded
    · rename_i recovery found
      cases encoded
      exact ⟨_, recovery, ⟨count, widths, whole, .inr found⟩, rfl⟩

theorem encodeOneStripe_mirror {m chunk : Nat} (positive : 0 < chunk)
    (full : stripe.length = chunk) :
    encodeOneStripe .mirror ⟨1, m, chunk⟩ stripe = .ok (List.replicate (m + 1) stripe) := by
  simp only [encodeOneStripe, chunksExact_self positive full]
  split
  · rename_i none
    rw [none]
    rfl
  · rfl

namespace IsStripe

variable {stripe : Bytes} {originals recovery : List Bytes}

theorem length_recovery (lawful : code.Lawful)
    (shards : IsStripe code geometry stripe originals recovery) :
    recovery.length = geometry.m ∧ ∀ shard ∈ recovery, shard.length = geometry.chunk := by
  rcases shards.parity with ⟨identity, rfl⟩ | encoded
  · exact ⟨identity.symm, fun shard member => absurd member not_mem_nil⟩
  · exact lawful.recovery encoded shards.count shards.widths

theorem length_shards (lawful : code.Lawful)
    (shards : IsStripe code geometry stripe originals recovery) :
    (originals ++ recovery).length = geometry.total := by
  rw [length_append, shards.count, (shards.length_recovery lawful).1, Geometry.total]

end IsStripe

/-- The rows of shards that encode a list of full stripes. -/
def Encodes (code : ErasureCode UInt8) (geometry : Geometry) (stripes : List Bytes)
    (rows : List (List Bytes)) : Prop :=
  List.Forall₂ (fun stripe row => ∃ originals recovery,
    IsStripe code geometry stripe originals recovery ∧ row = originals ++ recovery) stripes rows

variable {rows : List (List Bytes)}

theorem mapM_encodeOneStripe_eq_ok (valid : geometry.Valid)
    (full : ∀ stripe ∈ stripes, stripe.length = geometry.stripeDataLen)
    (encoded : stripes.mapM (encodeOneStripe code geometry) = .ok rows) :
    Encodes code geometry stripes rows := by
  have related := mapM_eq_ok_iff.mp encoded
  clear encoded
  induction related with
  | nil => exact .nil
  | cons head _ induction =>
    exact .cons (encodeOneStripe_eq_ok valid (full _ mem_cons_self) head)
      (induction (forall_mem_cons.mp full).2)

variable {index : Nat} {row : List Bytes}

namespace Encodes

variable {stripes : List Bytes} {rows : List (List Bytes)}

theorem hasColumn (lawful : code.Lawful) (encodes : Encodes code geometry stripes rows)
    (inside : index < geometry.total) : HasColumn geometry.chunk rows index := by
  induction encodes with
  | nil => exact fun row member => absurd member not_mem_nil
  | cons head _ induction =>
    obtain ⟨originals, recovery, shards, rfl⟩ := head
    have bound : index < (originals ++ recovery).length := by
      rw [shards.length_shards lawful]
      exact inside
    intro row member
    rcases mem_cons.mp member with rfl | rest
    · refine ⟨_, List.getElem?_eq_getElem bound, ?_⟩
      rcases mem_append.mp (getElem_mem bound) with original | added
      · exact shards.widths _ original
      · exact (shards.length_recovery lawful).2 _ added
    · exact induction row rest

theorem length_of_mem (lawful : code.Lawful) (encodes : Encodes code geometry stripes rows)
    (member : row ∈ rows) : row.length = geometry.total := by
  induction encodes with
  | nil => exact absurd member not_mem_nil
  | cons head _ induction =>
    rcases mem_cons.mp member with rfl | rest
    · obtain ⟨originals, recovery, shards, rfl⟩ := head
      exact shards.length_shards lawful
    · exact induction rest

theorem append {moreStripes : List Bytes} {moreRows : List (List Bytes)}
    (encodes : Encodes code geometry stripes rows)
    (more : Encodes code geometry moreStripes moreRows) :
    Encodes code geometry (stripes ++ moreStripes) (rows ++ moreRows) :=
  rel_append encodes more

end Encodes

/-- The encoder has seen the stream, and the rows encode its whole stripes. -/
structure StreamingStripeEncoder.Fed (code : ErasureCode UInt8) (geometry : Geometry)
    (stream : Bytes) (rows : List (List Bytes)) (encoder : StreamingStripeEncoder) : Prop where
  geometry_eq : encoder.geometry = geometry
  buffer : encoder.stripeBuf = blockRest geometry.stripeDataLen stream
  length : encoder.objectLen = stream.length
  encodes : Encodes code geometry (chunksExact geometry.stripeDataLen stream) rows

namespace StreamingStripeEncoder

variable {stream data : Bytes} {rows more : List (List Bytes)}
  {encoder after : StreamingStripeEncoder}

theorem fed_new (geometry : Geometry) : (new geometry).Fed code geometry [] [] where
  geometry_eq := rfl
  buffer := by simp [new, blockRest]
  length := rfl
  encodes := by
    rw [chunksExact, length_nil, Nat.zero_div]
    exact .nil

theorem Fed.push (valid : geometry.Valid) (fed : encoder.Fed code geometry stream rows)
    (pushed : encoder.push code data = .ok (more, after)) :
    after.Fed code geometry (stream ++ data) (rows ++ more) := by
  rw [StreamingStripeEncoder.push, fed.geometry_eq, fed.buffer, Except.bind_eq_ok_iff] at pushed
  obtain ⟨shards, encoded, ⟨⟩⟩ := pushed
  have full := mapM_encodeOneStripe_eq_ok valid
    (fun _ member => length_of_mem_chunksExact valid.stripe_pos member) encoded
  refine ⟨rfl, ?_, ?_, ?_⟩
  · exact (blockRest_append_rest valid.stripe_pos stream data).symm
  · rw [length_append, ← fed.length]
  · rw [chunksExact_append_rest valid.stripe_pos]
    exact fed.encodes.append full

theorem Fed.finish {length : Nat} (valid : geometry.Valid)
    (fed : encoder.Fed code geometry stream rows)
    (finished : encoder.finish code = .ok (more, length)) :
    length = stream.length ∧
      Encodes code geometry (paddedBlocks geometry.stripeDataLen 0 stream) (rows ++ more) := by
  rw [StreamingStripeEncoder.finish, fed.geometry_eq, fed.buffer, Except.bind_eq_ok_iff] at finished
  obtain ⟨shards, encoded, ⟨⟩⟩ := finished
  refine ⟨fed.length, fed.encodes.append (mapM_encodeOneStripe_eq_ok valid ?_ encoded)⟩
  intro stripe member
  exact length_of_mem_paddedBlocks valid.stripe_pos (mem_append_right _ member)

end StreamingStripeEncoder

theorem StripeEncoder.foldl_appendShards {count : Nat} {fragments : List Bytes}
    (rows_length : ∀ row ∈ rows, row.length = count) (length : fragments.length = count) :
    rows.foldl appendShards fragments =
      (List.range count).map fun index => fragments.getD index [] ++ column rows index := by
  induction rows generalizing fragments with
  | nil =>
    apply ext_getElem
    · simp [length]
    · intro index bound _
      have inside : index < fragments.length := bound
      simp [getD_eq_getElem?_getD, List.getElem?_eq_getElem inside]
  | cons row rows induction =>
    have row_length := rows_length row mem_cons_self
    have appended : (appendShards fragments row).length = count := by
      rw [appendShards, length_zipWith, length, row_length, Nat.min_self]
    rw [foldl_cons, induction (forall_mem_cons.mp rows_length).2 appended]
    apply map_congr_left
    intro index member
    have bound := mem_range.mp member
    have joined : (appendShards fragments row).getD index [] =
        fragments.getD index [] ++ row.getD index [] := by
      simp only [appendShards, getD_eq_getElem?_getD, List.getElem?_zipWith,
        List.getElem?_eq_getElem (length ▸ bound), List.getElem?_eq_getElem (row_length ▸ bound),
        Option.getD_some]
    rw [joined, append_assoc]
    rfl

/-- The shards of each stripe of a body. -/
def stripeRows (code : ErasureCode UInt8) (geometry : Geometry) (body : Bytes) :
    Except CodecError (List (List Bytes)) :=
  (paddedBlocks geometry.stripeDataLen 0 body).mapM (encodeOneStripe code geometry)

theorem stripeRows_eq_ok (valid : geometry.Valid)
    (encoded : stripeRows code geometry body = .ok rows) :
    Encodes code geometry (paddedBlocks geometry.stripeDataLen 0 body) rows :=
  mapM_encodeOneStripe_eq_ok valid
    (fun _ member => length_of_mem_paddedBlocks valid.stripe_pos member) encoded

/-- What encoding a whole body produces: fragment `i` holds column `i` of the body's stripes. -/
theorem encodeWith_eq_ok (lawful : code.Lawful) (valid : geometry.Valid)
    (done : encodeWith code crc32c geometry body = .ok encoded) :
    ∃ rows, stripeRows code geometry body = .ok rows ∧
      encoded.geometry = geometry ∧ encoded.objectLen = body.length ∧
      encoded.fragments =
        (List.range geometry.total).map fun index =>
          Fragment.new crc32c index (column rows index) := by
  rw [encodeWith, StripeEncoder.push] at done
  simp only [StripeEncoder.new, nil_append] at done
  obtain ⟨encoder, pushed, done⟩ := Except.bind_eq_ok_iff.mp done
  obtain ⟨rows, whole, ⟨⟩⟩ := Except.bind_eq_ok_iff.mp pushed
  obtain ⟨lastRows, last, ⟨⟩⟩ := Except.bind_eq_ok_iff.mp done
  have all_rows : stripeRows code geometry body = .ok (rows ++ lastRows) := by
    rw [stripeRows, paddedBlocks, mapM_append, whole, last]
    rfl
  have row_lengths : ∀ row ∈ rows ++ lastRows, row.length = geometry.total :=
    fun row member => (stripeRows_eq_ok valid all_rows).length_of_mem lawful member
  refine ⟨rows ++ lastRows, all_rows, rfl, Nat.zero_add _, ?_⟩
  rw [← foldl_append, StripeEncoder.foldl_appendShards row_lengths (by simp)]
  apply ext_getElem
  · simp
  · intro index _ _
    have start : (replicate geometry.total ([] : Bytes)).getD index [] = [] := by
      rw [getD_eq_getElem?_getD, List.getElem?_replicate]
      split <;> rfl
    simp only [getElem_mapIdx, List.getElem_map, getElem_range, start, nil_append]

theorem mem_present {entries : List (Option α)} {value : α} :
    (index, value) ∈ present entries ↔ entries[index]? = some (some value) := by
  simp only [present, mem_filterMap, Prod.exists, mem_zipIdx_iff_getElem?,
    Option.map_eq_some_iff, Prod.mk.injEq]
  constructor
  · rintro ⟨entry, position, found, kept, rfl, rfl, rfl⟩
    exact found
  · exact fun found => ⟨some value, index, found, value, rfl, rfl, rfl⟩

theorem nodup_present (entries : List (Option α)) : ((present entries).map Prod.fst).Nodup := by
  have positions : (entries.zipIdx.map Prod.snd).Nodup := by
    rw [zipIdx_map_snd]
    exact nodup_range'
  rw [List.Nodup, pairwise_map] at positions ⊢
  refine positions.filterMap _ ?_
  intro left right apart kept keptMem other otherMem
  obtain ⟨_, _, rfl⟩ := Option.map_eq_some_iff.mp keptMem
  obtain ⟨_, _, rfl⟩ := Option.map_eq_some_iff.mp otherMem
  exact apart

theorem length_present (entries : List (Option α)) :
    (present entries).length = entries.countP Option.isSome := by
  have entries_eq : entries.zipIdx.map Prod.fst = entries := zipIdx_map_fst 0 entries
  nth_rewrite 2 [← entries_eq]
  rw [present, length_filterMap_eq_countP, countP_map]
  apply countP_congr
  simp

theorem reduceOption_eq_of_supplies (supplies : ErasureCode.Supplies shards (present cells))
    (length : cells.length = shards.length) (complete : cells.all Option.isSome) :
    cells.reduceOption = shards := by
  have cells_eq : cells = shards.map some := by
    apply ext_getElem
    · rw [length, length_map]
    · intro index bound _
      obtain ⟨shard, shard_eq⟩ := Option.isSome_iff_exists.mp
        (all_eq_true.mp complete _ (getElem_mem bound))
      have found : cells[index]? = some (some shard) := by
        rw [List.getElem?_eq_getElem bound, shard_eq]
      have agrees := supplies.agrees (index, shard) (mem_present.mpr found)
      rw [shard_eq, List.getElem_map, (List.getElem?_eq_some_iff.mp agrees).2]
  rw [cells_eq]
  exact filterMap_map.trans filterMap_some

theorem mapM_cells_eq {restored : List (Nat × Bytes)} {error : CodecError}
    (supplies : ErasureCode.Supplies shards (present cells)) (length : cells.length = shards.length)
    (missing : ∀ slot < shards.length, slot ∉ (present cells).map Prod.fst →
      restored.lookup slot = shards[slot]?) :
    (cells.zipIdx.mapM fun entry =>
      match entry.1.or (restored.lookup entry.2) with
      | some shard => Except.ok shard
      | none => .error error) = .ok shards := by
  rw [mapM_eq_ok_iff, forall₂_iff_get]
  refine ⟨by rw [length_zipIdx, length], ?_⟩
  intro index bound shardBound
  have inside : index < cells.length := by rwa [length_zipIdx] at bound
  have cell_eq : cells[index].or (restored.lookup index) = some shards[index] := by
    rw [← List.getElem?_eq_getElem shardBound]
    cases cell : cells[index] with
    | some shard =>
      have found : cells[index]? = some (some shard) := by
        rw [List.getElem?_eq_getElem inside, cell]
      exact (supplies.agrees (index, shard) (mem_present.mpr found)).symm
    | none =>
      refine missing index (length ▸ inside) ?_
      intro supplied
      obtain ⟨⟨_, shard⟩, member, rfl⟩ := mem_map.mp supplied
      have found := mem_present.mp member
      rw [List.getElem?_eq_getElem inside, cell] at found
      cases found
  simp only [get_eq_getElem, getElem_zipIdx, Nat.zero_add, cell_eq]

/-- Every fragment in the slots is the column of the rows at its index. -/
structure Slots.Agree (geometry : Geometry) (rows : List (List Bytes))
    (slots : List (Option Fragment)) : Prop where
  length : slots.length = geometry.total
  column : ∀ index fragment, slots[index]? = some (some fragment) →
    fragment.index = index ∧ fragment.bytes = column rows index

/-- The chunks of one row that fragments carry. -/
def cellsOf (row : List Bytes) (part : List (Option Fragment)) : List (Option Bytes) :=
  part.map (Option.map fun fragment => row.getD fragment.index [])

namespace Slots.Agree

variable {rows : List (List Bytes)} {slots : List (Option Fragment)}

theorem spans_eq (lawful : code.Lawful) (encodes : Encodes code geometry stripes rows)
    {stripe : Nat} (at_stripe : rows[stripe]? = some row) (agree : Agree geometry rows slots)
    {part : List (Option Fragment)} (inside : part ⊆ slots) :
    spans geometry stripe part = .ok (cellsOf row part) := by
  rw [spans, mapM_eq_ok_iff, cellsOf, forall₂_map_right_iff, forall₂_same]
  intro slot member
  cases slot with
  | none => rfl
  | some fragment =>
    obtain ⟨index, found⟩ := mem_iff_getElem?.mp (inside member)
    obtain ⟨rfl, bytes_eq⟩ := agree.column index fragment found
    have bound : fragment.index < geometry.total := by
      rw [← agree.length]
      exact (List.getElem?_eq_some_iff.mp found).1
    have has := encodes.hasColumn lawful bound
    obtain ⟨cell, cell_at, _⟩ := has row (mem_of_getElem? at_stripe)
    simp only [bytes_eq, has.slice_column at_stripe, cell_at, Option.map_some,
      getD_eq_getElem?_getD, Option.getD_some]

variable {stripe : Bytes} {originals recovery : List Bytes}

theorem supplies_data (agree : Agree geometry rows slots)
    (shards : IsStripe code geometry stripe originals recovery) :
    ErasureCode.Supplies originals
      (present (cellsOf (originals ++ recovery) (slots.take geometry.k))) where
  nodup := nodup_present _
  agrees := by
    rintro ⟨index, shard⟩ member
    rw [mem_present, cellsOf, List.getElem?_map, List.getElem?_take] at member
    split at member
    · rename_i below
      obtain ⟨slot, found, mapped⟩ := Option.map_eq_some_iff.mp member
      obtain ⟨fragment, rfl, rfl⟩ := Option.map_eq_some_iff.mp mapped
      rw [(agree.column index fragment found).1, getD_eq_getElem?_getD,
        List.getElem?_append_left (shards.count ▸ below),
        List.getElem?_eq_getElem (shards.count ▸ below), Option.getD_some]
    · cases member

theorem supplies_parity (lawful : code.Lawful) (agree : Agree geometry rows slots)
    (shards : IsStripe code geometry stripe originals recovery) :
    ErasureCode.Supplies recovery
      (present (cellsOf (originals ++ recovery) (slots.drop geometry.k))) where
  nodup := nodup_present _
  agrees := by
    rintro ⟨index, shard⟩ member
    rw [mem_present, cellsOf, List.getElem?_map, List.getElem?_drop] at member
    obtain ⟨slot, found, mapped⟩ := Option.map_eq_some_iff.mp member
    obtain ⟨fragment, rfl, rfl⟩ := Option.map_eq_some_iff.mp mapped
    have bound : geometry.k + index < geometry.total := by
      rw [← agree.length]
      exact (List.getElem?_eq_some_iff.mp found).1
    have below : index < recovery.length := by
      rw [(shards.length_recovery lawful).1]
      rw [Geometry.total] at bound
      omega
    rw [(agree.column _ fragment found).1, getD_eq_getElem?_getD, ← shards.count,
      List.getElem?_append_right (Nat.le_add_right _ _), Nat.add_sub_cancel_left,
      List.getElem?_eq_getElem below, Option.getD_some]

/-- With `k` fragments in the slots, a stripe is reassembled as it was written. -/
theorem reassembleStripe_eq (lawful : code.Lawful) (encodes : Encodes code geometry stripes rows)
    {slot : Nat} (agree : Agree geometry rows state.slots)
    (at_slot : rows[slot]? = some (originals ++ recovery))
    (shards : IsStripe code geometry stripe originals recovery)
    (enough : geometry.k ≤ (present state.slots).length) :
    reassembleStripe code geometry state slot = .ok stripe := by
  have data := agree.spans_eq lawful encodes at_slot (take_subset geometry.k state.slots)
  have parity := agree.spans_eq lawful encodes at_slot (drop_subset geometry.k state.slots)
  have suppliesData := agree.supplies_data shards
  have suppliesParity := agree.supplies_parity lawful shards
  have data_length :
      (cellsOf (originals ++ recovery) (state.slots.take geometry.k)).length = geometry.k := by
    rw [cellsOf, length_map, length_take, agree.length, Geometry.total]
    omega
  have counted : geometry.k ≤
      (present (cellsOf (originals ++ recovery) (state.slots.take geometry.k))).length +
      (present (cellsOf (originals ++ recovery) (state.slots.drop geometry.k))).length := by
    rw [length_present, length_present, cellsOf, countP_map, cellsOf, countP_map]
    simp only [Function.comp_def, Option.isSome_map]
    rwa [← countP_append, take_append_drop, ← length_present]
  have complete_iff : (state.slots.take geometry.k).all Option.isSome =
      (cellsOf (originals ++ recovery) (state.slots.take geometry.k)).all Option.isSome := by
    simp only [cellsOf, all_map, Function.comp_def, Option.isSome_map]
  rw [reassembleStripe, complete_iff, data]
  generalize cellsOf (originals ++ recovery) (state.slots.take geometry.k) = cells at *
  have lengths : cells.length = originals.length := data_length.trans shards.count.symm
  simp only [bind, Except.bind, pure, Except.pure]
  split
  · rename_i complete
    rw [reduceOption_eq_of_supplies suppliesData lengths complete, shards.flatten]
  · rename_i incomplete
    rcases shards.parity with ⟨identity, rfl⟩ | encoded
    · -- Without parity, `k` fragments are all of the data.
      have none_supplied :
          present (cellsOf (originals ++ []) (state.slots.drop geometry.k)) = [] :=
        eq_nil_iff_forall_not_mem.mpr fun part member => by
          have agrees := suppliesParity.agrees part member
          simp at agrees
      rw [none_supplied, length_nil, Nat.add_zero, length_present] at counted
      have full : cells.countP Option.isSome = cells.length :=
        Nat.le_antisymm countP_le_length (data_length ▸ counted)
      exact absurd (all_eq_true.mpr (countP_eq_length.mp full)) incomplete
    · obtain ⟨restored, decoded, missing⟩ := lawful.restores encoded shards.count shards.widths
        suppliesData suppliesParity counted
      rw [if_pos (lawful.accepts encoded), parity]
      dsimp only
      rw [decoded]
      dsimp only
      rw [mapM_cells_eq suppliesData lengths (shards.count ▸ missing)]
      exact congrArg Except.ok shards.flatten

end Slots.Agree

/-- The fragment has an index and whole chunks of the geometry. -/
def Fragment.Fits (geometry : Geometry) (fragment : Fragment) : Prop :=
  fragment.index < geometry.total ∧ fragment.bytes.length % geometry.chunk = 0

instance (geometry : Geometry) (fragment : Fragment) : Decidable (fragment.Fits geometry) :=
  inferInstanceAs (Decidable (_ ∧ _))

/-- The fragment that is kept for an index: the first one there that verifies. -/
def keptAt (crc32c : Bytes → UInt32) (fragments : List Fragment) (index : Nat) : Option Fragment :=
  fragments.find? fun fragment => fragment.verify crc32c && fragment.index == index

theorem keptAt_snoc (fragments : List Fragment) (fragment : Fragment) (index : Nat) :
    keptAt crc32c (fragments ++ [fragment]) index = (keptAt crc32c fragments index).or
      (if fragment.verify crc32c ∧ fragment.index = index then some fragment else none) := by
  rw [keptAt, find?_append, keptAt, find?_singleton]
  simp only [Bool.and_eq_true, beq_iff_eq]

theorem keptAt_eq_some {kept : Fragment} (found : keptAt crc32c fragments index = some kept) :
    kept ∈ fragments ∧ kept.verify crc32c ∧ kept.index = index := by
  have holds := find?_some found
  simp only [Bool.and_eq_true, beq_iff_eq] at holds
  exact ⟨mem_of_find?_eq_some found, holds⟩

/-- What the slots are once a list of fragments is indexed. -/
structure Slots.Reflects (crc32c : Bytes → UInt32) (geometry : Geometry)
    (fragments : List Fragment) (state : Slots) : Prop where
  slots : state.slots = (List.range geometry.total).map (keptAt crc32c fragments)
  available : state.available = state.slots.countP Option.isSome
  covers : ∀ fragment ∈ fragments, fragment.verify crc32c →
    fragment.bytes.length / geometry.chunk ≤ state.numStripes
  attained : state.numStripes = 0 ∨ ∃ fragment ∈ fragments, fragment.verify crc32c ∧
    fragment.bytes.length / geometry.chunk = state.numStripes

namespace Slots.Reflects

theorem empty (crc32c : Bytes → UInt32) (geometry : Geometry) :
    (Slots.empty geometry).Reflects crc32c geometry [] where
  slots := by
    apply ext_getElem
    · simp [Slots.empty]
    · simp [Slots.empty, keptAt]
  available := by simp [Slots.empty, countP_replicate]
  covers := fun _ member => absurd member not_mem_nil
  attained := .inl rfl

theorem getElem?_slots (reflects : state.Reflects crc32c geometry fragments)
    (inside : index < geometry.total) :
    state.slots[index]? = some (keptAt crc32c fragments index) := by
  rw [reflects.slots, List.getElem?_map, List.getElem?_range inside, Option.map_some]

theorem supply (positive : geometry.chunk ≠ 0) (reflects : state.Reflects crc32c geometry fragments)
    (fits : fragment.Fits geometry) :
    ∃ after, state.supply crc32c geometry fragment = .ok after ∧
      after.Reflects crc32c geometry (fragments ++ [fragment]) := by
  have mem_snoc : ∀ other, other ∈ fragments ++ [fragment] ↔ other ∈ fragments ∨ other = fragment :=
    fun other => by rw [mem_append, mem_singleton]
  rw [Slots.supply, if_neg (Nat.not_le.mpr fits.1), if_neg (not_not_intro fits.2)]
  by_cases verified : fragment.verify crc32c
  · rw [if_pos verified, if_neg positive]
    have covers : ∀ other ∈ fragments ++ [fragment], other.verify crc32c →
        other.bytes.length / geometry.chunk ≤
          max state.numStripes (fragment.bytes.length / geometry.chunk) := by
      intro other member checks
      rcases (mem_snoc other).mp member with before | rfl
      · exact (reflects.covers other before checks).trans (Nat.le_max_left _ _)
      · exact Nat.le_max_right _ _
    have attained : max state.numStripes (fragment.bytes.length / geometry.chunk) = 0 ∨
        ∃ other ∈ fragments ++ [fragment], other.verify crc32c ∧
          other.bytes.length / geometry.chunk =
            max state.numStripes (fragment.bytes.length / geometry.chunk) := by
      rcases Nat.le_total state.numStripes (fragment.bytes.length / geometry.chunk) with less | more
      · exact .inr ⟨fragment, (mem_snoc _).mpr (.inr rfl), verified, (Nat.max_eq_right less).symm⟩
      rw [Nat.max_eq_left more]
      rcases reflects.attained with none | ⟨other, member, checks, longest⟩
      · exact .inl none
      · exact .inr ⟨other, (mem_snoc _).mpr (.inl member), checks, longest⟩
    rw [reflects.getElem?_slots fits.1]
    split
    · rename_i free
      have free_at : keptAt crc32c fragments fragment.index = none := Option.some.inj free
      refine ⟨_, rfl, ?_, ?_, covers, attained⟩
      · change state.slots.set fragment.index (some fragment) = _
        rw [reflects.slots]
        apply ext_getElem (by simp)
        intro index _ _
        rw [getElem_set, getElem_map, getElem_map, getElem_range, keptAt_snoc]
        split
        · rename_i same
          rw [← same, free_at, if_pos ⟨verified, rfl⟩, Option.none_or]
        · rename_i apart
          rw [if_neg fun kept => apart kept.2, Option.or_none]
      · have bound : fragment.index < state.slots.length := by
          rw [reflects.slots, length_map, length_range]
          exact fits.1
        have empty_slot : state.slots[fragment.index] = none := by
          have found := reflects.getElem?_slots fits.1
          rw [free_at, List.getElem?_eq_getElem bound] at found
          exact Option.some.inj found
        change state.available + 1 = (state.slots.set fragment.index (some fragment)).countP _
        rw [reflects.available, countP_set bound, empty_slot]
        simp
    · rename_i taken
      refine ⟨_, rfl, ?_, reflects.available, covers, attained⟩
      rw [reflects.slots]
      apply map_congr_left
      intro index _
      rw [keptAt_snoc]
      by_cases here : fragment.index = index
      · subst here
        cases kept : keptAt crc32c fragments fragment.index with
        | none => exact absurd (congrArg some kept) taken
        | some first => rfl
      · rw [if_neg fun kept => here kept.2, Option.or_none]
  · rw [if_neg verified]
    refine ⟨state, rfl, ?_, reflects.available, ?_, ?_⟩
    · rw [reflects.slots]
      apply map_congr_left
      intro index _
      rw [keptAt_snoc, if_neg fun kept => verified kept.1, Option.or_none]
    · intro other member checks
      rcases (mem_snoc other).mp member with before | rfl
      · exact reflects.covers other before checks
      · exact absurd checks verified
    · rcases reflects.attained with none | ⟨other, member, checks, longest⟩
      · exact .inl none
      · exact .inr ⟨other, (mem_snoc _).mpr (.inl member), checks, longest⟩

theorem foldlM (positive : geometry.chunk ≠ 0) (reflects : state.Reflects crc32c geometry fragments)
    {more : List Fragment} (fits : ∀ fragment ∈ more, fragment.Fits geometry) :
    ∃ after, more.foldlM (Slots.supply crc32c geometry) state = .ok after ∧
      after.Reflects crc32c geometry (fragments ++ more) := by
  induction more generalizing fragments state with
  | nil => exact ⟨state, rfl, by rwa [append_nil]⟩
  | cons fragment more induction =>
    obtain ⟨next, supplied, next_reflects⟩ := reflects.supply positive (fits fragment mem_cons_self)
    obtain ⟨after, folded, after_reflects⟩ :=
      induction next_reflects (forall_mem_cons.mp fits).2
    refine ⟨after, ?_, by simpa using after_reflects⟩
    rw [foldlM_cons, supplied]
    exact folded

end Slots.Reflects

/-- A fragment that can be supplied: inside the geometry, of whole chunks, and the column of its
index unless its checksum gives it away. -/
structure Fragment.Sound (crc32c : Bytes → UInt32) (geometry : Geometry) (rows : List (List Bytes))
    (fragment : Fragment) : Prop where
  inside : fragment.index < geometry.total
  whole : fragment.bytes.length % geometry.chunk = 0
  column : fragment.verify crc32c → fragment.bytes = column rows fragment.index

variable {rows : List (List Bytes)}

theorem Slots.Reflects.agree (reflects : state.Reflects crc32c geometry fragments)
    (supplied : ∀ fragment ∈ fragments, fragment.Sound crc32c geometry rows) :
    Agree geometry rows state.slots where
  length := by rw [reflects.slots, length_map, length_range]
  column index fragment found := by
    rw [reflects.slots, List.getElem?_map] at found
    obtain ⟨position, listed, kept⟩ := Option.map_eq_some_iff.mp found
    obtain ⟨bound, rfl⟩ := List.getElem?_eq_some_iff.mp listed
    rw [getElem_range] at kept
    obtain ⟨member, verified, rfl⟩ := keptAt_eq_some kept
    exact ⟨rfl, (supplied fragment member).column verified⟩

theorem Slots.available_supply (supplied : state.supply crc32c geometry fragment = .ok after) :
    after.available ≤ state.available + 1 := by
  simp only [Slots.supply] at supplied
  split at supplied
  · cases supplied
  split at supplied
  · cases supplied
  split at supplied
  · split at supplied
    · cases supplied
    split at supplied
    · cases supplied
      exact Nat.le_refl _
    · cases supplied
      exact Nat.le_succ _
  · cases supplied
    exact Nat.le_succ _

theorem Slots.available_foldlM
    (folded : fragments.foldlM (Slots.supply crc32c geometry) state = .ok after) :
    after.available ≤ state.available + fragments.length := by
  induction fragments generalizing state with
  | nil =>
    cases folded
    exact Nat.le_refl _
  | cons fragment fragments induction =>
    rw [foldlM_cons, Except.bind_eq_ok_iff] at folded
    obtain ⟨next, supplied, folded⟩ := folded
    have first := Slots.available_supply supplied
    have rest := induction folded
    rw [length_cons]
    omega

theorem le_length_of_reassemble
    (done : reassemble code crc32c geometry objectLen fragments = .ok body) :
    geometry.k ≤ fragments.length := by
  rw [reassemble, Except.bind_eq_ok_iff] at done
  obtain ⟨state, folded, done⟩ := done
  have bound := Slots.available_foldlM folded
  simp only [Slots.empty, Nat.zero_add] at bound
  by_contra few
  have short : state.available < geometry.k := by omega
  rw [if_pos short] at done
  cases done

/-- Fragments of which `k` distinct ones verify reassemble to the stripes that were encoded. -/
theorem reassemble_of_stripes {chosen : List Nat} (lawful : code.Lawful) (valid : geometry.Valid)
    (encodes : Encodes code geometry stripes rows)
    (supplied : ∀ fragment ∈ fragments, fragment.Sound crc32c geometry rows)
    (distinct : chosen.Nodup) (enough : geometry.k ≤ chosen.length)
    (verified : ∀ index ∈ chosen, ∃ fragment ∈ fragments,
      fragment.index = index ∧ fragment.verify crc32c) :
    reassemble code crc32c geometry objectLen fragments = .ok (stripes.flatten.take objectLen) := by
  obtain ⟨state, folded, reflects⟩ := (Slots.Reflects.empty crc32c geometry).foldlM
    valid.chunk_pos.ne' fun fragment member =>
      ⟨(supplied fragment member).inside, (supplied fragment member).whole⟩
  have filled : chosen ⊆ (present state.slots).map Prod.fst := by
    intro index member
    obtain ⟨fragment, given, rfl, checks⟩ := verified index member
    have kept : (keptAt crc32c fragments fragment.index).isSome :=
      find?_isSome.mpr ⟨fragment, given, by simp [checks]⟩
    obtain ⟨first, first_eq⟩ := Option.isSome_iff_exists.mp kept
    have slot := reflects.getElem?_slots (supplied fragment given).inside
    exact mem_map.mpr ⟨(_, first), mem_present.mpr (first_eq ▸ slot), rfl⟩
  have available : geometry.k ≤ (present state.slots).length := by
    have bound := (subperm_of_subset distinct filled).length_le
    rw [length_map] at bound
    omega
  have stripes_of : ∀ fragment ∈ fragments, fragment.verify crc32c →
      fragment.bytes.length / geometry.chunk = stripes.length := by
    intro fragment member checks
    have sound := supplied fragment member
    rw [sound.column checks, (encodes.hasColumn lawful sound.inside).length_column,
      Nat.mul_div_cancel _ valid.chunk_pos, encodes.length_eq]
  have numStripes : state.numStripes = stripes.length := by
    rcases reflects.attained with none | ⟨fragment, member, checks, longest⟩
    · obtain ⟨index, member⟩ := exists_mem_of_length_pos (valid.k_pos.trans_le enough)
      obtain ⟨fragment, given, _, checks⟩ := verified index member
      have covered := reflects.covers fragment given checks
      rw [stripes_of fragment given checks] at covered
      omega
    · rw [← longest, stripes_of fragment member checks]
  have each : (range state.numStripes).mapM (reassembleStripe code geometry state) =
      .ok stripes := by
    rw [mapM_eq_ok_iff, forall₂_iff_get]
    refine ⟨by rw [length_range, numStripes], ?_⟩
    intro slot _ bound
    have rowBound : slot < rows.length := encodes.length_eq ▸ bound
    obtain ⟨originals, recovery, shards, row_eq⟩ := List.Forall₂.get encodes bound rowBound
    rw [get_eq_getElem, getElem_range]
    refine (reflects.agree supplied).reassembleStripe_eq lawful encodes ?_ shards available
    rw [List.getElem?_eq_getElem rowBound, ← row_eq]
    rfl
  have enough_available : ¬ state.available < geometry.k := by
    rw [reflects.available, ← length_present]
    omega
  rw [reassemble, folded]
  simp only [bind, Except.bind, pure, Except.pure, if_neg enough_available, each]

theorem mem_fragments_iff (lawful : code.Lawful) (valid : geometry.Valid)
    (done : encodeWith code crc32c geometry body = .ok encoded) :
    ∃ rows, stripeRows code geometry body = .ok rows ∧ encoded.objectLen = body.length ∧
      ∀ fragment, fragment ∈ encoded.fragments ↔ fragment.index < geometry.total ∧
        fragment.bytes = column rows fragment.index ∧ fragment.verify crc32c := by
  obtain ⟨rows, rows_eq, _, length, fragments_eq⟩ := encodeWith_eq_ok lawful valid done
  refine ⟨rows, rows_eq, length, fun fragment => ?_⟩
  rw [fragments_eq, mem_map]
  constructor
  · rintro ⟨index, inside, rfl⟩
    exact ⟨mem_range.mp inside, rfl, decide_eq_true rfl⟩
  · rintro ⟨inside, bytes_eq, verified⟩
    refine ⟨fragment.index, mem_range.mpr inside, ?_⟩
    rw [← bytes_eq, Fragment.new, of_decide_eq_true verified]

/-- An encoded body is reassembled from `k` distinct ones of its fragments, beside which there may
be fragments of whole chunks that fail their checksums. -/
theorem reassemble_encodeWith (lawful : code.Lawful) (valid : geometry.Valid)
    (done : encodeWith code crc32c geometry body = .ok encoded)
    (supplied : ∀ fragment ∈ fragments, fragment ∈ encoded.fragments ∨
      fragment.index < geometry.total ∧ fragment.bytes.length % geometry.chunk = 0 ∧
        ¬ fragment.verify crc32c)
    (enough : geometry.k ≤
      ((fragments.filter (· ∈ encoded.fragments)).map Fragment.index).dedup.length) :
    reassemble code crc32c geometry encoded.objectLen fragments = .ok body := by
  obtain ⟨rows, rows_eq, length, mem_iff⟩ := mem_fragments_iff lawful valid done
  have encodes := stripeRows_eq_ok valid rows_eq
  have sound : ∀ fragment ∈ fragments, fragment.Sound crc32c geometry rows := by
    intro fragment member
    rcases supplied fragment member with original | ⟨inside, whole, damaged⟩
    · obtain ⟨inside, bytes_eq, _⟩ := (mem_iff fragment).mp original
      refine ⟨inside, ?_, fun _ => bytes_eq⟩
      rw [bytes_eq, (encodes.hasColumn lawful inside).length_column, Nat.mul_mod_left]
    · exact ⟨inside, whole, fun verified => absurd verified damaged⟩
  rw [length, reassemble_of_stripes lawful valid encodes sound (nodup_dedup _) enough ?_,
    take_flatten_paddedBlocks valid.stripe_pos]
  intro index member
  obtain ⟨fragment, given, rfl⟩ := mem_map.mp (mem_dedup.mp member)
  obtain ⟨listed, original⟩ := mem_filter.mp given
  exact ⟨fragment, listed, rfl, ((mem_iff fragment).mp (of_decide_eq_true original)).2.2⟩

end Stripes

/-- The Reed-Solomon backend accepts every stripe of even width with these numbers of shards. -/
def Supports (code : ErasureCode UInt8) (k m : Nat) : Prop :=
  ∀ width originals, 0 < width → width % 2 = 0 → originals.length = k →
    (∀ shard ∈ originals, shard.length = width) → code.encode k m width originals ≠ none

section Support

variable {code : ErasureCode UInt8} {k m : Nat}

theorem mapM_isOk {α β ε : Type} {f : α → Except ε β} (entries : List α)
    (each : ∀ entry ∈ entries, ∃ value, f entry = .ok value) :
    ∃ values, entries.mapM f = .ok values := by
  induction entries with
  | nil => exact ⟨[], rfl⟩
  | cons entry rest induction =>
    obtain ⟨value, first⟩ := each entry mem_cons_self
    obtain ⟨values, others⟩ := induction (forall_mem_cons.mp each).2
    exact ⟨value :: values, by rw [mapM_cons, first, others]; rfl⟩

theorem encodeWith_isOk {geometry : Geometry} (crc32c : Bytes → UInt32) (valid : geometry.Valid)
    (taken : geometry.m = 0 ∨ geometry.chunk % 2 = 0 ∧ Supports code geometry.k geometry.m)
    (body : Bytes) : ∃ encoded, encodeWith code crc32c geometry body = .ok encoded := by
  have stripes : ∀ stripe ∈ paddedBlocks geometry.stripeDataLen 0 body,
      ∃ shards, encodeOneStripe code geometry stripe = .ok shards := by
    intro stripe member
    rw [encodeOneStripe]
    split
    · exact ⟨_, rfl⟩
    rename_i parity
    obtain ⟨even, supports⟩ := taken.resolve_left parity
    have full := length_of_mem_paddedBlocks valid.stripe_pos member
    have count : (chunksExact geometry.chunk stripe).length = geometry.k := by
      rw [length_chunksExact, full, Geometry.stripeDataLen, Nat.mul_div_cancel _ valid.chunk_pos]
    have accepted := supports geometry.chunk (chunksExact geometry.chunk stripe) valid.chunk_pos
      even count fun shard within => length_of_mem_chunksExact valid.chunk_pos within
    split
    · exact absurd ‹_› accepted
    · exact ⟨_, rfl⟩
  obtain ⟨rows, whole⟩ := mapM_isOk (chunksExact geometry.stripeDataLen body)
    fun stripe member => stripes stripe (mem_append_left _ member)
  obtain ⟨lastRows, last⟩ := mapM_isOk
    (lastBlock geometry.stripeDataLen 0 (blockRest geometry.stripeDataLen body))
    fun stripe member => stripes stripe (mem_append_right _ member)
  simp only [bind, Except.bind, encodeWith, StripeEncoder.push, StripeEncoder.new, nil_append,
    whole, pure, Except.pure, StripeEncoder.finish, last]
  exact ⟨_, rfl⟩

end Support

end Verglas.Cache
