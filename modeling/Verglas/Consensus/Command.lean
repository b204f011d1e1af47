import Mathlib.Algebra.GroupWithZero.Nat
import Mathlib.Data.List.Dedup
import Verglas.Consensus.Catalog

/-!
# Replicated commands

This file embeds the values that the Raft log of one consensus group carries: durability
certificates, archive segments, entry headers with their decoded metadata, and the responses of
the state machine.  A certificate, a segment and a header carry what their constructors check, so
a value that the constructors refuse cannot be written down.

SHA-256 is a parameter `sha256` of the constructors that hash.
-/

namespace Verglas.Consensus

abbrev Bytes := List UInt8

abbrev Digest := Vector UInt8 32

abbrev RequestId := Nat

def asBytes (text : String) : Bytes := text.toByteArray.data.toList

/-- What a committed command is for. -/
inductive CommandKind where
  | timelineOpen
  | walArchiveBinding
  | catalog
  | tenantRoot
  | wal
  | writerLease
  | archiveCheckpoint
  | catalogCheckpoint
  | releaseWriter
  | object
  deriving DecidableEq, Repr

/-- A shard for each voter, or the whole body for each. -/
inductive ReplicationMode where
  | coded
  | complete
  deriving DecidableEq, Repr

/-- Too few holders. -/
structure CertificateError where
  required : Nat
  deriving DecidableEq, Repr

/-- The value of a hex digit of either case. -/
def hexValue (digit : Char) : Option Nat :=
  if '0' ≤ digit ∧ digit ≤ '9' then some (digit.toNat - '0'.toNat)
  else if 'a' ≤ digit ∧ digit ≤ 'f' then some (digit.toNat - 'a'.toNat + 10)
  else if 'A' ≤ digit ∧ digit ≤ 'F' then some (digit.toNat - 'A'.toNat + 10)
  else none

def hexDigit (nibble : Nat) : Char :=
  if nibble < 10 then Char.ofNat ('0'.toNat + nibble) else Char.ofNat ('a'.toNat + nibble - 10)

def parseDigits : Nat → List Char → Option Nat
  | value, [] => some value
  | value, digit :: rest => hexValue digit >>= fun nibble => parseDigits (value * 16 + nibble) rest

/-- The unsigned 64-bit reading of a base-sixteen text; a leading plus sign is accepted. -/
def fromStrRadix16 : List Char → Option Nat
  | [] => none
  | '+' :: [] => none
  | '+' :: digits => (parseDigits 0 digits).filter (· < 2 ^ 64)
  | digits => (parseDigits 0 digits).filter (· < 2 ^ 64)

/-- Two hex digits for each byte. -/
def hexDecode : List Char → Option Bytes
  | [] => some []
  | [_] => none
  | high :: low :: rest => do
      let highValue ← hexValue high
      let lowValue ← hexValue low
      let bytes ← hexDecode rest
      return UInt8.ofNat (highValue * 16 + lowValue) :: bytes

def hexEncode (bytes : Bytes) : List Char :=
  bytes.flatMap fun byte => [hexDigit (byte.toNat / 16), hexDigit (byte.toNat % 16)]

/-- Lower-case hexadecimal digits of a number, zero-padded to the fixed width of its type. -/
def lowerHex : Nat → Nat → List Char
  | 0, _ => []
  | width + 1, value => lowerHex width (value / 16) ++ [hexDigit (value % 16)]

/-- The digest that a text of 64 hex digits denotes. -/
def digestOfHex (text : String) : Digest :=
  if length : ((hexDecode text.toList).getD []).length = 32 then
    ⟨((hexDecode text.toList).getD []).toArray, length⟩
  else
    Vector.replicate 32 0

def utf8Length (text : List Char) : Nat := (text.map Char.utf8Size).sum

/-- Decoded fields of an archive name, once the hash text is canonical and the interval proper. -/
def checkArchiveFields (key : String) (hash : List Char) (startLsn endLsn : Nat)
    (bytes : Bytes) : Option (Nat × Nat × Digest) :=
  if hexEncode bytes ≠ hash then none
  else if length : bytes.length = 32 then
    if startLsn ≥ endLsn ∨ key = "" then none
    else some (startLsn, endLsn, ⟨bytes.toArray, length⟩)
  else none

/-- Interval and content hash spelled by a content-addressed archive key. -/
def parseArchiveKey (key : String) : Option (Nat × Nat × Digest) :=
  let name := (key.toList.reverse.takeWhile (· ≠ '/')).reverse
  match name.splitOn '-' with
  | [start, stop, hash] =>
    if utf8Length start ≠ 16 ∨ utf8Length stop ≠ 16 ∨ utf8Length hash ≠ 64 then none
    else do
      let startLsn ← fromStrRadix16 start
      let endLsn ← fromStrRadix16 stop
      let bytes ← hexDecode hash
      checkArchiveFields key hash startLsn endLsn bytes
  | _ => none

/-- Immutable object identity for one contiguous WAL segment named by a committed checkpoint. -/
structure WalArchiveSegment where
  startLsn : Nat
  endLsn : Nat
  key : String
  hash : Digest
  /-- Interval and hash are the ones that the key spells. -/
  canonical : parseArchiveKey key = some (startLsn, endLsn, hash)
  deriving DecidableEq

namespace WalArchiveSegment

/-- Decode the canonical content-addressed key emitted by the WAL archiver. -/
def fromKey (key : String) : Except CertificateError WalArchiveSegment :=
  match parsed : parseArchiveKey key with
  | none => .error ⟨1⟩
  | some (startLsn, endLsn, hash) => .ok ⟨startLsn, endLsn, key, hash, parsed⟩

theorem key_of_fromKey {key : String} {segment : WalArchiveSegment}
    (decoded : fromKey key = .ok segment) : segment.key = key := by
  rw [fromKey] at decoded
  split at decoded
  · cases decoded
  · cases decoded
    rfl

def length (segment : WalArchiveSegment) : Nat := segment.endLsn - segment.startLsn

theorem start_lt_end (segment : WalArchiveSegment) : segment.startLsn < segment.endLsn := by
  have canonical := segment.canonical
  simp only [parseArchiveKey] at canonical
  split at canonical
  · split at canonical
    · cases canonical
    simp only [Option.bind_eq_bind, Option.bind_eq_some_iff] at canonical
    obtain ⟨start, _, stop, _, bytes, _, checked⟩ := canonical
    simp only [checkArchiveFields] at checked
    split_ifs at checked with _ _ proper
    simp only [Option.some.injEq, Prod.mk.injEq] at checked
    omega
  · cases canonical

end WalArchiveSegment

/-- A majority of the voters. -/
def electionQuorum (count : Nat) : Nat := count / 2 + 1

/-- Durable representations that the mode's commit rule demands. -/
def requiredHolders (mode : ReplicationMode) (k m : Nat) : Nat :=
  match mode with
  | .coded => k + m - electionQuorum (k + m) + k
  | .complete => electionQuorum (k + m)

/-- The holders as the source's ordered set lists them. -/
def sortedHolders (holders : List Nat) : List Nat := (holders.dedup).insertionSort (· ≤ ·)

/-- One payload durability certificate committed by Raft. -/
structure PayloadCertificate where
  mode : ReplicationMode
  k : Nat
  m : Nat
  voters : List Nat
  holders : List Nat
  k_pos : 0 < k
  voters_length : voters.length = k + m
  voters_ne_zero : 0 ∉ voters
  voters_nodup : voters.Nodup
  holders_sorted : holders.Pairwise (· < ·)
  holders_subset : ∀ holder ∈ holders, holder ∈ voters
  durable : requiredHolders mode k m ≤ holders.length
  deriving DecidableEq

theorem sortedHolders_pairwise (holders : List Nat) :
    (sortedHolders holders).Pairwise (· < ·) := by
  have sorted : (sortedHolders holders).Pairwise (· ≤ ·) := List.pairwise_insertionSort _ _
  have nodup : (sortedHolders holders).Nodup :=
    (List.perm_insertionSort _ _).nodup_iff.mpr holders.nodup_dedup
  exact (sorted.and nodup).imp fun ⟨le, ne⟩ => lt_of_le_of_ne le ne

namespace PayloadCertificate

/-- Geometry that `withVoters` refuses before it counts holders. -/
def Misplaced (k m : Nat) (voters holders : List Nat) : Prop :=
  k = 0 ∨ k + m = 0 ∨ voters.length ≠ k + m ∨ 0 ∈ voters ∨ voters.dedup.length ≠ k + m ∨
    0 ∈ holders ∨ ¬∀ holder ∈ holders, holder ∈ voters

instance (k m : Nat) (voters holders : List Nat) : Decidable (Misplaced k m voters holders) :=
  inferInstanceAs (Decidable (_ ∨ _))

/-- Certify a set of holders. -/
def withVoters (mode : ReplicationMode) (k m : Nat) (voters holders : List Nat) :
    Except CertificateError PayloadCertificate :=
  if 2 ^ 64 ≤ k + m then .error ⟨2 ^ 64 - 1⟩
  else if placed : Misplaced k m voters (sortedHolders holders) then .error ⟨k + m⟩
  else if durable : (sortedHolders holders).length < requiredHolders mode k m ∨
      k + m < (sortedHolders holders).length then
    .error ⟨requiredHolders mode k m⟩
  else
    .ok
      { mode, k, m, voters
        holders := sortedHolders holders
        k_pos := by
          simp only [Misplaced, not_or] at placed
          omega
        voters_length := by
          simp only [Misplaced, not_or, not_not] at placed
          exact placed.2.2.1
        voters_ne_zero := by
          simp only [Misplaced, not_or] at placed
          exact placed.2.2.2.1
        voters_nodup := by
          simp only [Misplaced, not_or, not_not] at placed
          exact List.dedup_eq_self.mp ((List.dedup_sublist voters).eq_of_length
            (placed.2.2.2.2.1.trans placed.2.2.1.symm))
        holders_sorted := sortedHolders_pairwise holders
        holders_subset := by
          simp only [Misplaced, not_or, not_not] at placed
          exact placed.2.2.2.2.2.2
        durable := by omega }

theorem withVoters_ok {mode : ReplicationMode} {k m : Nat} {voters holders : List Nat}
    {certificate : PayloadCertificate}
    (accepted : withVoters mode k m voters holders = .ok certificate) :
    certificate.mode = mode ∧ certificate.k = k ∧ certificate.m = m ∧
      certificate.voters = voters ∧ certificate.holders = sortedHolders holders := by
  rw [withVoters] at accepted
  split at accepted
  · cases accepted
  split at accepted
  · cases accepted
  split at accepted
  · cases accepted
  · cases accepted
    exact ⟨rfl, rfl, rfl, rfl, rfl⟩

end PayloadCertificate

/-- Small domain metadata fully replicated with every Raft header. -/
inductive EntryMetadata where
  | none
  | walStart (start : Nat)
  | walArchiveBinding (bucket : String)
  | wal (start stop : Nat)
  | archive (segment : WalArchiveSegment)
  | catalog (batch : CatalogBatch)
  | catalogCheckpoint (appliedIndex : Nat)
  | warehouseRoute (warehouse group : String)
  deriving DecidableEq

namespace EntryMetadata

/-- What the decorator of each metadata checks of the command kind and the body length. -/
def Fits (kind : CommandKind) (payloadLen : Nat) : EntryMetadata → Prop
  | none => True
  | walStart _ => kind = .timelineOpen ∧ payloadLen = 0
  | walArchiveBinding bucket =>
    kind = .walArchiveBinding ∧ payloadLen = (asBytes bucket).length ∧ bucket ≠ ""
  | wal start stop => kind = .wal ∧ start ≤ stop ∧ stop - start = payloadLen
  | archive segment => kind = .archiveCheckpoint ∧ payloadLen = (asBytes segment.key).length
  | catalog _ => kind = .catalog
  | catalogCheckpoint appliedIndex => kind = .catalogCheckpoint ∧ appliedIndex ≠ 0
  | warehouseRoute warehouse group => kind = .tenantRoot ∧ warehouse ≠ "" ∧ group ≠ ""

instance (kind : CommandKind) (payloadLen : Nat) :
    (metadata : EntryMetadata) → Decidable (metadata.Fits kind payloadLen)
  | none => inferInstanceAs (Decidable True)
  | walStart _ => inferInstanceAs (Decidable (kind = _ ∧ _))
  | walArchiveBinding _ => inferInstanceAs (Decidable (kind = _ ∧ _ ∧ _))
  | wal _ _ => inferInstanceAs (Decidable (kind = _ ∧ _ ∧ _))
  | archive _ => inferInstanceAs (Decidable (kind = _ ∧ _))
  | catalog _ => inferInstanceAs (Decidable (kind = _))
  | catalogCheckpoint _ => inferInstanceAs (Decidable (kind = _ ∧ _))
  | warehouseRoute _ _ => inferInstanceAs (Decidable (kind = _ ∧ _ ∧ _))

end EntryMetadata

/-- The immutable small command replicated identically by Raft. -/
structure EntryHeader where
  group : String
  configurationGeneration : Nat
  kind : CommandKind
  request : RequestId
  payloadLen : Nat
  payloadHash : Digest
  writerEpoch : Option Nat
  certificate : Option PayloadCertificate
  inlineBody : Option Bytes
  metadata : EntryMetadata
  group_ne_empty : group ≠ ""
  one_body : certificate.isSome = !inlineBody.isSome
  inline_length : ∀ body ∈ inlineBody, body.length = payloadLen
  fits : metadata.Fits kind payloadLen
  deriving DecidableEq

namespace EntryHeader

/-- The header of a command whose body is staged. -/
def new (group : String) (configurationGeneration : Nat) (kind : CommandKind)
    (request : RequestId) (payloadLen : Nat) (payloadHash : Digest) (writerEpoch : Option Nat)
    (certificate : PayloadCertificate) : Except CertificateError EntryHeader :=
  if group_empty : group = "" then .error ⟨1⟩
  else
    .ok
      { group, configurationGeneration, kind, request, payloadLen, payloadHash, writerEpoch
        certificate := some certificate
        inlineBody := none
        metadata := .none
        group_ne_empty := group_empty
        one_body := rfl
        inline_length := by simp
        fits := trivial }

/-- The header of a command that carries its body. -/
def newInline (sha256 : Bytes → Digest) (group : String) (configurationGeneration : Nat)
    (kind : CommandKind) (request : RequestId) (writerEpoch : Option Nat) (body : Bytes) :
    Except CertificateError EntryHeader :=
  if group_empty : group = "" then .error ⟨1⟩
  else
    .ok
      { group, configurationGeneration, kind, request, writerEpoch
        payloadLen := body.length
        payloadHash := sha256 body
        certificate := none
        inlineBody := some body
        metadata := .none
        group_ne_empty := group_empty
        one_body := rfl
        inline_length := by simp
        fits := trivial }

/-- Bind metadata that fits the kind and the length of the header. -/
def decorate (header : EntryHeader) (metadata : EntryMetadata) :
    Except CertificateError EntryHeader :=
  if fits : metadata.Fits header.kind header.payloadLen then
    .ok { header with metadata, fits }
  else
    .error ⟨1⟩

/-- Attach the range of a WAL append. -/
def withWalRange (header : EntryHeader) (start stop : Nat) :
    Except CertificateError EntryHeader :=
  header.decorate (.wal start stop)

def withWalStart (header : EntryHeader) (start : Nat) : Except CertificateError EntryHeader :=
  header.decorate (.walStart start)

def withWalArchiveBucket (header : EntryHeader) (bucket : String) :
    Except CertificateError EntryHeader :=
  header.decorate (.walArchiveBinding bucket)

/-- Bind a verified object-store WAL archive watermark, whose body is the object key. -/
def withArchiveSegment (sha256 : Bytes → Digest) (header : EntryHeader)
    (segment : WalArchiveSegment) : Except CertificateError EntryHeader :=
  if header.payloadHash ≠ sha256 (asBytes segment.key) then .error ⟨1⟩
  else header.decorate (.archive segment)

/-- Attach a catalog batch. -/
def withCatalogBatch (header : EntryHeader) (batch : CatalogBatch) :
    Except CertificateError EntryHeader :=
  header.decorate (.catalog batch)

def withCatalogCheckpoint (header : EntryHeader) (appliedIndex : Nat) :
    Except CertificateError EntryHeader :=
  header.decorate (.catalogCheckpoint appliedIndex)

def withWarehouseRoute (header : EntryHeader) (warehouse group : String) :
    Except CertificateError EntryHeader :=
  header.decorate (.warehouseRoute warehouse group)

theorem decorate_eq_ok {header decorated : EntryHeader} {metadata : EntryMetadata}
    (decoration : header.decorate metadata = .ok decorated) :
    ∃ fits, decorated = { header with metadata, fits } := by
  rw [decorate] at decoration
  split at decoration
  · rename_i fits
    exact ⟨fits, by injection decoration with equal; exact equal.symm⟩
  · cases decoration

end EntryHeader

/-- The identity of a log entry. -/
structure LogId where
  term : Nat
  index : Nat
  deriving DecidableEq, Repr

/-- What the members of a group replicate. -/
inductive RaftCommand where
  | commit (header : EntryHeader)
  | repair (index configurationGeneration : Nat) (certificate : PayloadCertificate)
  | releaseWal (throughLsn : Nat)
  deriving DecidableEq

/-- The voter sets of a configuration. -/
structure Membership where
  configs : List (OrderedMap Nat Unit) := []
  deriving DecidableEq

/-- What a log entry carries. -/
inductive EntryPayload where
  | blank
  | membership (membership : Membership)
  | normal (command : RaftCommand)
  deriving DecidableEq

/-- An entry of the Raft log. -/
structure Entry where
  logId : LogId
  payload : EntryPayload
  deriving DecidableEq

/-- How the state machine answered a command. -/
inductive AppliedOutcome where
  | committed
  | duplicate
  | conflictingRetry
  | staleWriterEpoch
  | walGap
  | invalidArchiveCheckpoint
  | catalogConflict
  deriving DecidableEq, Repr

/-- The answer to an applied entry. -/
structure RaftResponse where
  index : Nat
  writerEpoch : Option Nat := none
  outcome : AppliedOutcome
  walEnd : Option Nat := none
  archiveLsn : Option Nat := none
  catalogChanged : Bool := false
  deriving DecidableEq, Repr

/-- Why a payload operation fails. -/
inductive PayloadError where
  | invalidGeometry
  | insufficientDurability (required durable : Nat)
  | unknownHolder
  | reconstructionUnavailable
  | corruptRepresentation
  | transport (message : String)
  | io (message : String)
  deriving DecidableEq, Repr

end Verglas.Consensus
