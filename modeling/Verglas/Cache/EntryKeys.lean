import Verglas.CacheNode.PayloadTransport
import Verglas.Lib.Reader

/-!
# Keys of cache entries on disk

The stores write the key in front of every entry, and recovery reads it back without knowing where
it ends.  A string stands behind its length, a number has eight bytes, and the key of a metadata
entry starts with a tag.
-/

namespace Verglas.Cache.Foyer

open Consensus CacheNode Endian Reader

/-- A string, whose length is a machine word. -/
structure Text where
  text : String
  fits : (asBytes text).length < 2 ^ 64

def Text.len (text : Text) : Nat := (asBytes text.text).length

/-- An object of a bucket behind a storage binding. -/
structure CacheKey where
  storageBindingId : Text
  bucket : Text
  key : Text

/-- One block of one version of an object. -/
structure BlockKey where
  object : CacheKey
  etag : Text
  blockBytes : BitVec 64
  blockIndex : BitVec 64

/-- The key of a block in the data cache. -/
structure BlockEntryKey where
  block : BlockKey
  generation : BitVec 64

/-- The key of a block or of the end of an object in the metadata cache. -/
inductive MetaEntryKey
  | block (block : BlockKey) (generation : BitVec 64)
  | suffix (object : CacheKey) (etag : Text) (len generation : BitVec 64)

/-- Why a persisted key cannot be read. -/
inductive FoyerError
  | unexpectedEof
  | invalidData

abbrev FoyerReader := Reader FoyerError

/-- A string behind its 64-bit length. -/
def writeBytes (text : Text) : Bytes := toLe 8 text.len ++ asBytes text.text

def readU64 : FoyerReader (BitVec 64) := wordLe .unexpectedEof 8

/-- Bytes behind their 64-bit length. -/
def readBytes : FoyerReader Bytes := do
  take .unexpectedEof (← readU64).toNat

/-- A counted string; it must be valid UTF-8. -/
def readString : FoyerReader Text := do
  match fromUtf8 (← readBytes) with
  | some text =>
    -- A word has counted the bytes.
    if fits : (asBytes text).length < 2 ^ 64 then return ⟨text, fits⟩ else throw .invalidData
  | none => throw .invalidData

variable (rest : Bytes)

@[simp] theorem readU64_append (word : BitVec 64) :
    readU64 (toLe 8 word.toNat ++ rest) = .ok (word, rest) :=
  wordLe_ok_iff.mpr rfl

@[simp] theorem readString_append (text : Text) :
    readString (writeBytes text ++ rest) = .ok (text, rest) := by
  have read : readBytes (writeBytes text ++ rest) = .ok (asBytes text.text, rest) :=
    (counted_ok_iff fun _ _ => wordLe_ok_iff).mpr ⟨text.fits, rfl⟩
  rw [readString, bind_ok_iff]
  refine ⟨_, _, read, ?_⟩
  simp only [fromUtf8_asBytes, dif_pos text.fits, pure_ok_iff, and_self]

/-- What both kinds of keys start with. -/
def writeVersion (object : CacheKey) (etag : Text) : Bytes :=
  writeBytes object.storageBindingId ++ (writeBytes object.bucket ++
    (writeBytes object.key ++ writeBytes etag))

/-- An object and its version. -/
def readVersion : FoyerReader (CacheKey × Text) := do
  let storageBindingId ← readString
  let bucket ← readString
  let key ← readString
  let etag ← readString
  return (⟨storageBindingId, bucket, key⟩, etag)

/-- The size that an object and its version are estimated at. -/
def versionSize (object : CacheKey) (etag : Text) : Nat :=
  8 + object.storageBindingId.len + 8 + object.bucket.len + 8 + object.key.len + 8 + etag.len

@[simp] theorem readVersion_append (object : CacheKey) (etag : Text) :
    readVersion (writeVersion object etag ++ rest) = .ok ((object, etag), rest) := by
  simp [readVersion, writeVersion]

@[simp] theorem length_writeVersion (object : CacheKey) (etag : Text) :
    (writeVersion object etag).length = versionSize object etag := by
  simp only [writeVersion, writeBytes, versionSize, Text.len, List.length_append, length_toLe]
  omega

namespace BlockEntryKey

def encode (key : BlockEntryKey) : Bytes :=
  writeVersion key.block.object key.block.etag ++ (toLe 8 key.block.blockBytes.toNat ++
    (toLe 8 key.block.blockIndex.toNat ++ toLe 8 key.generation.toNat))

def decode : FoyerReader BlockEntryKey := do
  let (object, etag) ← readVersion
  let blockBytes ← readU64
  let index ← readU64
  let generation ← readU64
  return ⟨⟨object, etag, blockBytes, index⟩, generation⟩

def estimatedSize (key : BlockEntryKey) : Nat :=
  versionSize key.block.object key.block.etag + 8 + 8 + 8

@[simp] theorem decode_append (key : BlockEntryKey) (rest : Bytes) :
    decode (key.encode ++ rest) = .ok (key, rest) := by
  simp [decode, encode]

@[simp] theorem length_encode (key : BlockEntryKey) : key.encode.length = key.estimatedSize := by
  simp [encode, estimatedSize]

end BlockEntryKey

namespace MetaEntryKey

def encode : MetaEntryKey → Bytes
  | .block blockKey generation => 0 :: BlockEntryKey.encode ⟨blockKey, generation⟩
  | .suffix object etag len generation =>
    1 :: (writeVersion object etag ++ (toLe 8 len.toNat ++ toLe 8 generation.toNat))

def decode : FoyerReader MetaEntryKey := do
  match ← u8 .unexpectedEof with
  | 0 =>
    let entry ← BlockEntryKey.decode
    return block entry.block entry.generation
  | _ =>
    let (object, etag) ← readVersion
    let len ← readU64
    let generation ← readU64
    return suffix object etag len generation

def estimatedSize : MetaEntryKey → Nat
  | .block blockKey generation => 1 + BlockEntryKey.estimatedSize ⟨blockKey, generation⟩
  | .suffix object etag _ _ => 1 + (versionSize object etag + 8 + 8)

theorem decode_append (key : MetaEntryKey) (rest : Bytes) :
    decode (key.encode ++ rest) = .ok (key, rest) := by
  cases key <;> simp [decode, encode]

theorem length_encode (key : MetaEntryKey) : key.encode.length = key.estimatedSize := by
  cases key <;> simp [encode, estimatedSize] <;> omega

end MetaEntryKey

/-- The keys of both stores are read back exactly, whatever follows them, are as long as they say,
and none of them is the beginning of another one. -/
theorem entry_keys_persist :
    ((∀ (key : BlockEntryKey) rest, BlockEntryKey.decode (key.encode ++ rest) = .ok (key, rest)) ∧
      (∀ key : BlockEntryKey, key.encode.length = key.estimatedSize) ∧
      ∀ left right : BlockEntryKey, left.encode <+: right.encode → left = right) ∧
    (∀ (key : MetaEntryKey) rest, MetaEntryKey.decode (key.encode ++ rest) = .ok (key, rest)) ∧
      (∀ key : MetaEntryKey, key.encode.length = key.estimatedSize) ∧
      ∀ left right : MetaEntryKey, left.encode <+: right.encode → left = right :=
  ⟨⟨BlockEntryKey.decode_append, BlockEntryKey.length_encode,
      fun _ _ => eq_of_isPrefix BlockEntryKey.decode_append⟩,
    MetaEntryKey.decode_append, MetaEntryKey.length_encode,
    fun _ _ => eq_of_isPrefix MetaEntryKey.decode_append⟩

end Verglas.Cache.Foyer
