import Verglas.Lib.Reader
import Verglas.CacheNode.PayloadTransport

/-!
# Frames of the WAL protocol

Requests and responses between a compute node and its timeline group: a tag, then the fields in
order, integers big-endian and byte strings behind a four-byte length.  A decoder refuses bytes
behind the last field, so a frame and its message determine each other.
-/

namespace Verglas.Safekeeper

open Consensus CacheNode

/-- Defects of a frame. -/
inductive WalWireError
  | truncated
  | unknownTag (tag : UInt8)
  | fieldTooLarge
  | invalidUtf8
  | invalidPresence (marker : UInt8)
  | trailingBytes
  deriving DecidableEq

/-- Bytes behind their 32-bit length. -/
def putBytes (value : Bytes) : Except WalWireError Bytes :=
  if value.length < 2 ^ 32 then .ok (Endian.toBe 4 value.length ++ value)
  else .error .fieldTooLarge

@[simp] theorem putBytes_ok_iff {value spelled : Bytes} :
    putBytes value = .ok spelled ↔
      value.length < 2 ^ 32 ∧ Endian.toBe 4 value.length ++ value = spelled := by
  rw [putBytes]
  split <;> simp_all

/-- A presence byte and the word, if there is one. -/
def putOptionalU64 : Option (BitVec 64) → Bytes
  | some value => 1 :: Endian.toBe 8 value.toNat
  | none => [0]

abbrev WalReader := Reader WalWireError

namespace WalReader

def u8 : WalReader UInt8 := Reader.u8 .truncated
def u32 : WalReader (BitVec 32) := Reader.wordBe .truncated 4
def u64 : WalReader (BitVec 64) := Reader.wordBe .truncated 8
def u128 : WalReader (BitVec 128) := Reader.wordBe .truncated 16

/-- Bytes behind their 32-bit length. -/
def bytes : WalReader Bytes := do
  Reader.take .truncated (← u32).toNat

/-- `String::from_utf8` of a field. -/
def text : WalReader String := do
  match fromUtf8 (← bytes) with
  | some text => return text
  | none => throw .invalidUtf8

/-- A word behind its presence byte. -/
def optionalU64 : WalReader (Option (BitVec 64)) := do
  match ← u8 with
  | 0 => return none
  | 1 => return some (← u64)
  | marker => throw (.invalidPresence marker)

/-- Nothing may be left. -/
def finish : WalReader Unit := fun remaining =>
  if remaining = [] then .ok ((), []) else .error .trailingBytes

variable {frame rest : Bytes}

@[simp] theorem u8_ok_iff {byte : UInt8} : u8 frame = .ok (byte, rest) ↔ frame = byte :: rest :=
  Reader.u8_ok_iff

@[simp] theorem u64_ok_iff {word : BitVec 64} :
    u64 frame = .ok (word, rest) ↔ frame = Endian.toBe 8 word.toNat ++ rest :=
  Reader.wordBe_ok_iff

@[simp] theorem u128_ok_iff {word : BitVec 128} :
    u128 frame = .ok (word, rest) ↔ frame = Endian.toBe 16 word.toNat ++ rest :=
  Reader.wordBe_ok_iff

@[simp] theorem u32_ok_iff {word : BitVec 32} :
    u32 frame = .ok (word, rest) ↔ frame = Endian.toBe 4 word.toNat ++ rest :=
  Reader.wordBe_ok_iff

@[simp] theorem bytes_ok_iff {field : Bytes} :
    bytes frame = .ok (field, rest) ↔
      field.length < 2 ^ 32 ∧ frame = Endian.toBe 4 field.length ++ field ++ rest :=
  Reader.counted_ok_iff fun _ _ => u32_ok_iff

@[simp] theorem text_ok_iff {writer : String} :
    text frame = .ok (writer, rest) ↔ bytes frame = .ok (asBytes writer, rest) := by
  rw [text, Reader.bind_ok_iff]
  constructor
  · rintro ⟨field, left, read, decoded⟩
    cases spelled : fromUtf8 field with
    | none => simp [spelled] at decoded
    | some text =>
      obtain ⟨rfl, rfl⟩ : text = writer ∧ left = rest := by simpa [spelled] using decoded
      rwa [asBytes_of_fromUtf8 spelled]
  · intro read
    exact ⟨_, _, read, by simp [fromUtf8_asBytes]⟩

@[simp] theorem optionalU64_ok_iff {value : Option (BitVec 64)} :
    optionalU64 frame = .ok (value, rest) ↔ frame = putOptionalU64 value ++ rest := by
  rw [optionalU64, Reader.bind_ok_iff]
  constructor
  · rintro ⟨marker, left, read, decoded⟩
    split at decoded <;> cases value <;> simp_all [putOptionalU64]
  · rintro rfl
    cases value with
    | none => exact ⟨0, rest, rfl, rfl⟩
    | some word => exact ⟨1, _, rfl, by simp⟩

@[simp] theorem finish_ok_iff {ended : Unit} :
    finish frame = .ok (ended, rest) ↔ frame = [] ∧ rest = [] := by
  rw [finish]
  split <;> simp_all [eq_comm]

end WalReader

section Frame

variable {α : Type}

/-- A tag followed by the fields of the message. -/
def encodeFrame (tag : α → UInt8) (fields : α → Except WalWireError Bytes) (message : α) :
    Except WalWireError Bytes := do
  return tag message :: (← fields message)

/-- The message of a whole frame; `body` reads the fields that its tag announces. -/
def decodeFrame (body : UInt8 → WalReader α) (frame : Bytes) : Except WalWireError α :=
  StateT.run' (do
    let message ← body (← WalReader.u8)
    WalReader.finish
    return message) frame

/-- `body` reads the fields of the message with that tag, and nothing else. -/
def ReadsFields (tag : α → UInt8) (fields : α → Except WalWireError Bytes)
    (body : UInt8 → WalReader α) : Prop :=
  ∀ byte frame message rest, body byte frame = .ok (message, rest) ↔
    byte = tag message ∧ ∃ front, fields message = .ok front ∧ frame = front ++ rest

theorem encodeFrame_isOk_iff {tag : α → UInt8} {fields : α → Except WalWireError Bytes}
    {message : α} :
    (∃ frame, encodeFrame tag fields message = .ok frame) ↔
      ∃ front, fields message = .ok front := by
  simp [encodeFrame]

theorem decodeFrame_ok_iff {tag : α → UInt8} {fields : α → Except WalWireError Bytes}
    {body : UInt8 → WalReader α} (reads : ReadsFields tag fields body) (frame : Bytes)
    (message : α) :
    decodeFrame body frame = .ok message ↔ encodeFrame tag fields message = .ok frame := by
  have run {read : WalReader α} : StateT.run' read frame = .ok message ↔
      ∃ rest, read frame = .ok (message, rest) := by
    show (read frame).map Prod.fst = _ ↔ _
    cases read frame <;> simp [Except.map, Prod.ext_iff]
  rw [decodeFrame, run]
  simp only [Reader.bind_ok_iff, WalReader.u8_ok_iff, reads _ _ _ _, WalReader.finish_ok_iff,
    Reader.pure_ok_iff, encodeFrame]
  cases written : fields message <;> simp [written, bind, Except.bind, pure, Except.pure, eq_comm]

end Frame

/-- A request that an ingress routes to the leader of its timeline group. -/
inductive WalRequest
  | openTimeline (requestId : BitVec 128) (startLsn : BitVec 64)
  | acquireWriter (requestId : BitVec 128) (writer : String)
  | append (requestId : BitVec 128) (writerEpoch startLsn : BitVec 64) (payload : Bytes)
  | readWal (first last minimumIndex : BitVec 64)
  | status (minimumIndex : BitVec 64)
  | releaseWriter (requestId : BitVec 128) (writerEpoch : BitVec 64)
  deriving DecidableEq

namespace WalRequest

open WalReader Endian

def tag : WalRequest → UInt8
  | acquireWriter .. => 1
  | append .. => 2
  | readWal .. => 3
  | releaseWriter .. => 4
  | status .. => 5
  | openTimeline .. => 6

def fields : WalRequest → Except WalWireError Bytes
  | openTimeline id start => return toBe 16 id.toNat ++ toBe 8 start.toNat
  | acquireWriter id writer => return toBe 16 id.toNat ++ (← putBytes (asBytes writer))
  | append id epoch start payload =>
    return toBe 16 id.toNat ++ toBe 8 epoch.toNat ++ toBe 8 start.toNat ++ (← putBytes payload)
  | readWal first last minimum =>
    return toBe 8 first.toNat ++ toBe 8 last.toNat ++ toBe 8 minimum.toNat
  | releaseWriter id epoch => return toBe 16 id.toNat ++ toBe 8 epoch.toNat
  | status minimum => return toBe 8 minimum.toNat

def body : UInt8 → WalReader WalRequest
  | 6 => return openTimeline (← u128) (← u64)
  | 1 => return acquireWriter (← u128) (← text)
  | 2 => return append (← u128) (← u64) (← u64) (← bytes)
  | 3 => return readWal (← u64) (← u64) (← u64)
  | 4 => return releaseWriter (← u128) (← u64)
  | 5 => return status (← u64)
  | tag => throw (.unknownTag tag)

def encode : WalRequest → Except WalWireError Bytes := encodeFrame tag fields

def decode : Bytes → Except WalWireError WalRequest := decodeFrame body

/-- The variable-length fields fit their length prefix. -/
def Fits : WalRequest → Prop
  | acquireWriter _ writer => (asBytes writer).length < 2 ^ 32
  | append _ _ _ payload => payload.length < 2 ^ 32
  | _ => True

theorem readsFields : ReadsFields tag fields body := by
  intro byte frame request rest
  unfold body
  -- A tag selects one form of request, so only its own form survives on both sides.
  split <;> cases request <;> simp_all [tag, fields, and_comm]

theorem fields_isOk_iff (request : WalRequest) :
    (∃ front, request.fields = .ok front) ↔ request.Fits := by
  cases request <;> simp [fields, Fits]

end WalRequest

/-- A response that the timeline group has applied. -/
inductive WalResponse
  | applied (index : BitVec 64) (writerEpoch walEnd archiveLsn : Option (BitVec 64))
  | walBytes (payload : Bytes)
  | status (index walEnd archiveLsn : BitVec 64)
  deriving DecidableEq

namespace WalResponse

open WalReader Endian

def tag : WalResponse → UInt8
  | applied .. => 1
  | walBytes .. => 2
  | status .. => 3

def fields : WalResponse → Except WalWireError Bytes
  | applied index epoch walEnd archive =>
    return toBe 8 index.toNat ++ putOptionalU64 epoch ++ putOptionalU64 walEnd ++
      putOptionalU64 archive
  | walBytes payload => putBytes payload
  | status index walEnd archive =>
    return toBe 8 index.toNat ++ toBe 8 walEnd.toNat ++ toBe 8 archive.toNat

def body : UInt8 → WalReader WalResponse
  | 1 => return applied (← u64) (← optionalU64) (← optionalU64) (← optionalU64)
  | 2 => return walBytes (← bytes)
  | 3 => return status (← u64) (← u64) (← u64)
  | tag => throw (.unknownTag tag)

def encode : WalResponse → Except WalWireError Bytes := encodeFrame tag fields

def decode : Bytes → Except WalWireError WalResponse := decodeFrame body

/-- The payload fits its length prefix. -/
def Fits : WalResponse → Prop
  | walBytes payload => payload.length < 2 ^ 32
  | _ => True

theorem readsFields : ReadsFields tag fields body := by
  intro byte frame response rest
  unfold body
  split <;> cases response <;> simp_all [tag, fields]

theorem fields_isOk_iff (response : WalResponse) :
    (∃ front, response.fields = .ok front) ↔ response.Fits := by
  cases response <;> simp [fields, Fits]

end WalResponse

/-- A frame is the encoding of at most one message, and decoding accepts exactly the encodings:
the messages that have one are those whose variable-length fields fit. -/
theorem wal_wire_bijection :
    (∀ request : WalRequest, (∃ frame, request.encode = .ok frame) ↔ request.Fits) ∧
    (∀ (frame : Bytes) (request : WalRequest),
      WalRequest.decode frame = .ok request ↔ request.encode = .ok frame) ∧
    (∀ response : WalResponse, (∃ frame, response.encode = .ok frame) ↔ response.Fits) ∧
    ∀ (frame : Bytes) (response : WalResponse),
      WalResponse.decode frame = .ok response ↔ response.encode = .ok frame := by
  refine ⟨fun request => ?_, decodeFrame_ok_iff WalRequest.readsFields, fun response => ?_,
    decodeFrame_ok_iff WalResponse.readsFields⟩
  · rw [← request.fields_isOk_iff, WalRequest.encode, encodeFrame_isOk_iff]
  · rw [← response.fields_isOk_iff, WalResponse.encode, encodeFrame_isOk_iff]

end Verglas.Safekeeper
