import Verglas.Cache.StripeCodec
import Verglas.Lib.Castagnoli

/-!
# Streaming a body through the stripe encoder

A caller feeds the streaming encoder pieces of any sizes and appends shard `i` of every stripe that
it is handed to fragment `i`.  Pushing a body in pieces is pushing it at once, so the fragments are
those of the encoder that holds the whole body, and they reassemble to the body.
-/

namespace Verglas.Cache

open Consensus List

section Streaming

variable (code : ErasureCode UInt8) (crc32c : Bytes → UInt32)

/-- Push one piece after another, and collect the rows of shards that the sink is given. -/
def StreamingStripeEncoder.pushAll (encoder : StreamingStripeEncoder) :
    List Bytes → Except CodecError (List (List Bytes) × StreamingStripeEncoder)
  | [] => .ok ([], encoder)
  | piece :: pieces => do
      let (rows, next) ← encoder.push code piece
      let (more, last) ← next.pushAll pieces
      return (rows ++ more, last)

/-- Stream the pieces of a body into a sink that appends each shard to its fragment. -/
def streamPieces (geometry : Geometry) (pieces : List Bytes) : Except CodecError Encoded := do
  let (rows, encoder) ← (StreamingStripeEncoder.new geometry).pushAll code pieces
  let (last, objectLen) ← encoder.finish code
  let fragments :=
    (rows ++ last).foldl StripeEncoder.appendShards (List.replicate geometry.total [])
  return ⟨geometry, objectLen, fragments.mapIdx (Fragment.new crc32c)⟩

end Streaming

variable {code : ErasureCode UInt8} {crc32c : Bytes → UInt32} {geometry : Geometry}

namespace StreamingStripeEncoder

variable {encoder : StreamingStripeEncoder}

theorem push_append (positive : 0 < encoder.geometry.stripeDataLen) (front back : Bytes) :
    encoder.push code (front ++ back) = (do
      let (rows, next) ← encoder.push code front
      let (more, last) ← next.push code back
      return (rows ++ more, last)) := by
  simp only [push]
  rw [← append_assoc, chunksExact_append_rest positive (encoder.stripeBuf ++ front) back,
    mapM_append, blockRest_append_rest positive (encoder.stripeBuf ++ front) back]
  cases first : (chunksExact encoder.geometry.stripeDataLen (encoder.stripeBuf ++ front)).mapM
      (encodeOneStripe code encoder.geometry) with
  | error error => rfl
  | ok rows =>
    cases second : (chunksExact encoder.geometry.stripeDataLen
        (blockRest encoder.geometry.stripeDataLen (encoder.stripeBuf ++ front) ++ back)).mapM
        (encodeOneStripe code encoder.geometry) with
    | error error => simp [bind, Except.bind, pure, Except.pure, second]
    | ok more =>
      simp [bind, Except.bind, pure, Except.pure, second, Nat.add_assoc]

theorem push_nil (short : encoder.stripeBuf.length < encoder.geometry.stripeDataLen) :
    encoder.push code [] = .ok ([], encoder) := by
  simp only [push, append_nil, chunksExact_eq_nil short, blockRest_eq_self short]
  rfl

theorem push_eq_ok {data : Bytes} {rows : List (List Bytes)} {next : StreamingStripeEncoder}
    (pushed : encoder.push code data = .ok (rows, next)) :
    next.geometry = encoder.geometry ∧
      next.stripeBuf = blockRest encoder.geometry.stripeDataLen (encoder.stripeBuf ++ data) := by
  rw [push, Except.bind_eq_ok_iff] at pushed
  obtain ⟨shards, _, ⟨⟩⟩ := pushed
  exact ⟨rfl, rfl⟩

theorem pushAll_eq_push (short : encoder.stripeBuf.length < encoder.geometry.stripeDataLen)
    (pieces : List Bytes) : encoder.pushAll code pieces = encoder.push code pieces.flatten := by
  have positive : 0 < encoder.geometry.stripeDataLen := Nat.zero_lt_of_lt short
  induction pieces generalizing encoder with
  | nil => exact (push_nil short).symm
  | cons piece pieces induction =>
    rw [flatten_cons, push_append positive, pushAll]
    cases pushed : encoder.push code piece with
    | error error => rfl
    | ok outcome =>
      obtain ⟨rows, next⟩ := outcome
      obtain ⟨geometry_eq, buffer_eq⟩ := push_eq_ok pushed
      have next_short : next.stripeBuf.length < next.geometry.stripeDataLen := by
        rw [geometry_eq, buffer_eq]
        exact length_blockRest_lt positive _
      simp only [bind, Except.bind]
      rw [induction next_short (geometry_eq ▸ positive)]

end StreamingStripeEncoder

theorem streamPieces_eq (valid : geometry.Valid) (pieces : List Bytes) :
    streamPieces code crc32c geometry pieces = encodeWith code crc32c geometry pieces.flatten := by
  have short : (StreamingStripeEncoder.new geometry).stripeBuf.length <
      (StreamingStripeEncoder.new geometry).geometry.stripeDataLen := valid.stripe_pos
  rw [streamPieces, StreamingStripeEncoder.pushAll_eq_push short]
  simp only [StreamingStripeEncoder.push, encodeWith, StripeEncoder.push,
    StreamingStripeEncoder.new, StripeEncoder.new, nil_append]
  cases whole : (chunksExact geometry.stripeDataLen pieces.flatten).mapM
      (encodeOneStripe code geometry) with
  | error error => rfl
  | ok rows =>
    simp only [bind, Except.bind, pure, Except.pure, StreamingStripeEncoder.finish,
      StripeEncoder.finish]
    cases last : (lastBlock geometry.stripeDataLen 0 (blockRest geometry.stripeDataLen
        pieces.flatten)).mapM (encodeOneStripe code geometry) with
    | error error => rfl
    | ok lastRows => simp only [foldl_append]

/-- The streamed fragments of a body are those of the whole-body encoder, they exist when the
backend takes the geometry, and any `k` distinct ones reassemble to the body. -/
theorem streaming_round_trip (lawful : code.Lawful) (valid : geometry.Valid)
    (pieces : List Bytes) :
    streamPieces code crc32c geometry pieces =
        encodeWith code crc32c geometry pieces.flatten ∧
      (geometry.m = 0 ∨ geometry.chunk % 2 = 0 ∧ Supports code geometry.k geometry.m →
        ∃ encoded, streamPieces code crc32c geometry pieces = .ok encoded) ∧
      ∀ encoded, streamPieces code crc32c geometry pieces = .ok encoded →
        ∀ fragments ⊆ encoded.fragments,
          geometry.k ≤ (fragments.map Fragment.index).dedup.length →
          reassemble code crc32c geometry encoded.objectLen fragments = .ok pieces.flatten := by
  rw [streamPieces_eq valid]
  refine ⟨rfl, fun taken => encodeWith_isOk crc32c valid taken pieces.flatten, ?_⟩
  intro encoded done fragments intact enough
  refine reassemble_encodeWith lawful valid done (fun _ member => .inl (intact member)) ?_
  rwa [filter_eq_self.mpr fun _ member => decide_eq_true (intact member)]

def mirroredThree : Encoded :=
  ⟨⟨1, 2, 2⟩, 3, (List.range 3).map fun index => Fragment.new castagnoli index [1, 2, 3, 0]⟩

/-- Three bytes arrive in two pieces and are read from the last mirror. -/
theorem streaming_round_trip_mirrors :
    streamPieces .mirror castagnoli ⟨1, 2, 2⟩ [[1], [2, 3]] = .ok mirroredThree ∧
      reassemble .mirror castagnoli ⟨1, 2, 2⟩ 3 (mirroredThree.fragments.drop 2) =
        .ok [1, 2, 3] := by
  have streamed : streamPieces .mirror castagnoli ⟨1, 2, 2⟩ [[1], [2, 3]] = .ok mirroredThree := rfl
  obtain ⟨_, _, reads⟩ := @streaming_round_trip .mirror castagnoli ⟨1, 2, 2⟩
    ErasureCode.mirror_lawful ⟨by decide, by decide⟩ [[1], [2, 3]]
  exact ⟨streamed, reads mirroredThree streamed _ (drop_subset 2 _) (by decide)⟩

end Verglas.Cache
