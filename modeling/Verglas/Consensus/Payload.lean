import Verglas.Consensus.Command
import Verglas.Lib.Stripe

/-!
# The distributed payload store

A body too large for a header is staged on the voters before its header is proposed, sealed with
the term and index of the header once that has committed, and read back from any sufficient set of
certified holders.  The network is a parameter of each operation: it says which loads answer, and
which writes answer, fail without effect, or take effect although their reply is lost.
-/

namespace Verglas.Consensus

/-- Bytes of one shard: an even number, at least two, that lets `k` shards hold the body. -/
def shardWidth (k length : Nat) : Nat :=
  let width := max ((length + k - 1) / k) 2
  width + width % 2

theorem shardWidth_pos (k length : Nat) : 0 < shardWidth k length := by
  simp only [shardWidth]
  omega

theorem length_le_mul_shardWidth {k : Nat} (k_pos : 0 < k) (length : Nat) :
    length ≤ k * shardWidth k length := by
  have wide : (length + k - 1) / k ≤ shardWidth k length := by
    simp only [shardWidth]
    omega
  have rounded : length + k - 1 < k * ((length + k - 1) / k + 1) := Nat.lt_mul_div_succ _ k_pos
  have scaled : k * ((length + k - 1) / k) ≤ k * shardWidth k length := Nat.mul_le_mul_left k wide
  rw [Nat.mul_add, Nat.mul_one] at rounded
  omega

variable (code : ErasureCode UInt8)

/-- The shards of a body, in one stripe. -/
def encode (k m : Nat) (body : Bytes) : Option (List Bytes) :=
  code.encodeStripe k m (shardWidth k body.length) 0 body

/-- The body that some shards give. -/
def decode (k m length : Nat) (parts : List (Nat × Bytes)) : Option Bytes :=
  code.decodeStripe k m length parts

/-- Identity under which a voter keeps one representation. -/
structure FragmentKey where
  hash : Digest
  group : String
  configurationGeneration : Nat
  request : RequestId
  deriving DecidableEq

/-- One self-describing representation; term and index are zero until it is sealed. -/
structure PayloadRepresentation where
  term : Nat
  index : Nat
  group : String
  configurationGeneration : Nat
  mode : ReplicationMode
  hash : Digest
  request : RequestId
  length : Nat
  slot : Nat
  bytes : Bytes
  deriving DecidableEq

namespace PayloadRepresentation

def key (representation : PayloadRepresentation) : FragmentKey :=
  ⟨representation.hash, representation.group, representation.configurationGeneration,
    representation.request⟩

/-- The shard that the representation supplies to the decoder. -/
def part (representation : PayloadRepresentation) : Nat × Bytes :=
  (representation.slot, representation.bytes)

end PayloadRepresentation

/-- What every voter holds under every key. -/
def Fragments := Nat → FragmentKey → Option PayloadRepresentation

namespace Fragments

/-- Replace what a voter holds under a key. -/
def write (fragments : Fragments) (voter : Nat) (key : FragmentKey)
    (held : Option PayloadRepresentation) : Fragments :=
  fun other otherKey => if other = voter ∧ otherKey = key then held else fragments other otherKey

end Fragments

/-- How a voter answers a request; a failed one may have taken effect. -/
inductive Reply where
  | answered
  | failed (error : PayloadError) (landed : Bool)
  deriving DecidableEq

/-- The store took effect, whatever was answered. -/
def Reply.landed : Reply → Bool
  | .answered => true
  | .failed _ landed => landed

/-- Fate of the requests of one operation, by voter. -/
structure Network where
  /-- Error of a load; `none` when the voter answers. -/
  load : Nat → Option PayloadError := fun _ => none
  store : Nat → Reply := fun _ => .answered
  delete : Nat → Reply := fun _ => .answered

/-- Load the representation of a voter. -/
def loadFrom (network : Network) (fragments : Fragments) (key : FragmentKey) (voter : Nat) :
    Except PayloadError (Option PayloadRepresentation) :=
  match network.load voter with
  | some error => .error error
  | none => .ok (fragments voter key)

/-- Writes that took effect, of one new content per voter. -/
def landWrites (fate : Nat → Reply) (key : FragmentKey) :
    List (Nat × Option PayloadRepresentation) → Fragments → Fragments
  | [], fragments => fragments
  | (voter, held) :: rest, fragments =>
    landWrites fate key rest
      (if (fate voter).landed then fragments.write voter key held else fragments)

/-- Count the answered writes; a failure other than a lost reply stops the operation. -/
def countAnswered (fate : Nat → Reply) : List Nat → Except PayloadError Nat
  | [] => .ok 0
  | voter :: rest =>
    match fate voter with
    | .answered => (countAnswered fate rest).map (· + 1)
    | .failed (.transport _) _ => countAnswered fate rest
    | .failed error _ => .error error

/-- Representations that reconstruct the body. -/
def reconstructionThreshold (certificate : PayloadCertificate) : Nat :=
  match certificate.mode with
  | .complete => 1
  | .coded => certificate.k

/-- Slot of a voter in the certified voter ordering. -/
def slotOf (voters : List Nat) (voter : Nat) : Option Nat :=
  if voter ∈ voters then some (voters.idxOf voter) else none

/-- A distributed payload store with its coding geometry and voter ordering. -/
structure DistributedPayloadStore where
  k : Nat
  m : Nat
  voters : List Nat
  k_pos : 0 < k
  m_pos : 0 < m
  voters_length : voters.length = k + m
  voters_nodup : voters.Nodup
  voters_ne_zero : 0 ∉ voters

/-- Result of a successful staging. -/
structure StagedPayload where
  hash : Digest
  length : Nat
  certificate : PayloadCertificate

/-- A body to be staged on the voters. -/
structure StageRequest where
  request : RequestId
  group : String
  configurationGeneration : Nat
  mode : ReplicationMode
  body : Bytes

/-- Bytes of every slot in the selected mode. -/
def slotBytes (k m : Nat) (voters : List Nat) (mode : ReplicationMode) (body : Bytes) :
    Option (List Bytes) :=
  match mode with
  | .coded => encode code k m body
  | .complete => some (voters.map fun _ => body)

variable (sha256 : Bytes → Digest)

namespace StageRequest

def key (staging : StageRequest) : FragmentKey :=
  ⟨sha256 staging.body, staging.group, staging.configurationGeneration, staging.request⟩

/-- The representation of one slot, sealed with `term` and `index` or with zeros. -/
def representation (staging : StageRequest) (term index slot : Nat) (bytes : Bytes) :
    PayloadRepresentation :=
  { term, index, slot, bytes
    group := staging.group
    configurationGeneration := staging.configurationGeneration
    mode := staging.mode
    hash := sha256 staging.body
    request := staging.request
    length := staging.body.length }

end StageRequest

/-- Stage a body on every voter and certify the first sufficient set of answers.  All store requests
run concurrently; `completion` lists the voters in the order in which their requests finish. -/
def DistributedPayloadStore.stage (store : DistributedPayloadStore) (staging : StageRequest)
    (completion : List Nat) (network : Network) (fragments : Fragments) :
    Except PayloadError StagedPayload × Fragments :=
  let required := requiredHolders staging.mode store.k store.m
  match slotBytes code store.k store.m store.voters staging.mode staging.body with
  | none => (.error .reconstructionUnavailable, fragments)
  | some shards =>
    let staged := landWrites network.store (staging.key sha256)
      (store.voters.map fun voter =>
        let slot := store.voters.idxOf voter
        (voter, some (staging.representation sha256 0 0 slot (shards.getD slot []))))
      fragments
    let durable := (completion.filter fun voter => network.store voter = .answered).take required
    if durable.length = required then
      match PayloadCertificate.withVoters staging.mode store.k store.m store.voters durable with
      | .error _ => (.error (.insufficientDurability required required), staged)
      | .ok certificate =>
        (.ok ⟨sha256 staging.body, staging.body.length, certificate⟩, staged)
    else
      (.error (.insufficientDurability required durable.length), staged)

/-- Exact allocation identity rewritten with a committed Raft seal. -/
structure SealRequest where
  hash : Digest
  group : String
  configurationGeneration : Nat
  request : RequestId
  term : Nat
  index : Nat
  certificate : PayloadCertificate

namespace SealRequest

def key (sealing : SealRequest) : FragmentKey :=
  ⟨sealing.hash, sealing.group, sealing.configurationGeneration, sealing.request⟩

/-- A loaded representation that does not belong to the allocation, or that carries another
seal. -/
def mismatch (sealing : SealRequest) (slot : Nat) (record : PayloadRepresentation) : Bool :=
  record.request ≠ sealing.request ∨ record.group ≠ sealing.group ∨
    record.configurationGeneration ≠ sealing.configurationGeneration ∨
    record.mode ≠ sealing.certificate.mode ∨ record.hash ≠ sealing.hash ∨ record.slot ≠ slot ∨
    (record.term ≠ 0 ∧ (record.term ≠ sealing.term ∨ record.index ≠ sealing.index))

/-- A representation with the seal's term and index. -/
def stamp (sealing : SealRequest) (record : PayloadRepresentation) : PayloadRepresentation :=
  { record with term := sealing.term, index := sealing.index }

end SealRequest

/-- Check what the holders answered: the number of holders that are sealed already, and the
representations to rewrite. -/
def loadUnsealed (sealing : SealRequest) (network : Network) (fragments : Fragments) :
    List Nat → Except PayloadError (Nat × List (Nat × PayloadRepresentation))
  | [] => .ok (0, [])
  | voter :: rest =>
    match loadFrom network fragments sealing.key voter with
    | .ok none | .error (.transport _) => loadUnsealed sealing network fragments rest
    | .error error => .error error
    | .ok (some record) =>
      match slotOf sealing.certificate.voters voter with
      | none => .error .unknownHolder
      | some slot =>
        if sealing.mismatch slot record then .error .corruptRepresentation
        else
          (loadUnsealed sealing network fragments rest).map fun (alreadySealed, pending) =>
            if record.term = sealing.term ∧ record.index = sealing.index then
              (alreadySealed + 1, pending)
            else
              (alreadySealed, (voter, sealing.stamp record) :: pending)

/-- Store the stamped representations and count the answers. -/
def storeSeals (request : SealRequest) (network : Network) (fragments : Fragments)
    (alreadySealed : Nat) (pending : List (Nat × PayloadRepresentation)) :
    Except PayloadError Unit × Fragments :=
  let stored := landWrites network.store request.key
    (pending.map fun rewrite => (rewrite.1, some rewrite.2)) fragments
  match countAnswered network.store (pending.map Prod.fst) with
  | .error error => (.error error, stored)
  | .ok answered =>
    if alreadySealed + answered < reconstructionThreshold request.certificate then
      (.error .reconstructionUnavailable, stored)
    else
      (.ok (), stored)

/-- Stamp the log position on the held representations. -/
def sealPayload (request : SealRequest) (network : Network) (fragments : Fragments) :
    Except PayloadError Unit × Fragments :=
  if request.term = 0 ∨ request.index = 0 then (.error .corruptRepresentation, fragments)
  else
    match loadUnsealed request network fragments request.certificate.holders with
    | .error error => (.error error, fragments)
    | .ok (alreadySealed, pending) =>
      storeSeals request network fragments alreadySealed pending

/-- A body to be read back, with the identity of its commit. -/
structure ReconstructRequest where
  hash : Digest
  group : String
  configurationGeneration : Nat
  request : RequestId
  length : Nat
  term : Nat
  index : Nat
  certificate : PayloadCertificate

namespace ReconstructRequest

def key (read : ReconstructRequest) : FragmentKey :=
  ⟨read.hash, read.group, read.configurationGeneration, read.request⟩

/-- A loaded representation that is not the sealed one of the allocation. -/
def mismatch (read : ReconstructRequest) (slot : Nat) (record : PayloadRepresentation) : Bool :=
  record.group ≠ read.group ∨ record.configurationGeneration ≠ read.configurationGeneration ∨
    record.mode ≠ read.certificate.mode ∨ record.hash ≠ read.hash ∨
    record.request ≠ read.request ∨ record.length ≠ read.length ∨ record.slot ≠ slot ∨
    record.term ≠ read.term ∨ record.index ≠ read.index

end ReconstructRequest

/-- Collect the representations of the holders that answered. -/
def loadRecords (read : ReconstructRequest) (network : Network) (fragments : Fragments) :
    List Nat → Except PayloadError (List PayloadRepresentation)
  | [] => .ok []
  | voter :: rest =>
    match loadFrom network fragments read.key voter with
    | .ok none | .error (.transport _) => loadRecords read network fragments rest
    | .error error => .error error
    | .ok (some record) =>
      match slotOf read.certificate.voters voter with
      | none => .error .unknownHolder
      | some slot =>
        if read.mismatch slot record then .error .corruptRepresentation
        else (loadRecords read network fragments rest).map (record :: ·)

/-- Whether two representations belong to different allocations. -/
def differs (first record : PayloadRepresentation) : Bool :=
  record.group ≠ first.group ∨ record.configurationGeneration ≠ first.configurationGeneration ∨
    record.mode ≠ first.mode ∨ record.hash ≠ first.hash ∨ record.request ≠ first.request ∨
    record.length ≠ first.length

/-- The body held by a complete copy, or decoded from the collected shards. -/
def decodeRecords (certificate : PayloadCertificate) (first : PayloadRepresentation)
    (records : List PayloadRepresentation) : Option Bytes :=
  match certificate.mode with
  | .complete => some first.bytes
  | .coded =>
    decode code certificate.k certificate.m first.length
      (records.map PayloadRepresentation.part)

/-- The body that the collected representations decode to, checked against length and hash. -/
def assemble (read : ReconstructRequest) (records : List PayloadRepresentation) :
    Except PayloadError Bytes :=
  if records.length < reconstructionThreshold read.certificate then
    .error .reconstructionUnavailable
  else
    match records.head? with
    | none => .error .reconstructionUnavailable
    | some first =>
      if first.hash ≠ read.hash ∨ first.mode ≠ read.certificate.mode ∨
          records.any (differs first) then
        .error .corruptRepresentation
      else
        match decodeRecords code read.certificate first records with
        | none => .error .reconstructionUnavailable
        | some body =>
          if body.length ≠ first.length ∨ sha256 body ≠ read.hash then
            .error .corruptRepresentation
          else .ok body

/-- Read the body from the holders. -/
def reconstruct (read : ReconstructRequest) (network : Network) (fragments : Fragments) :
    Except PayloadError Bytes :=
  match loadRecords read network fragments read.certificate.holders with
  | .error error => .error error
  | .ok records => assemble code sha256 read records

/-- Source allocation and target placement of one immutable body repair. -/
structure RepairRequest where
  source : ReconstructRequest
  targetConfigurationGeneration : Nat
  targetVoters : List Nat

namespace RepairRequest

def key (repair : RepairRequest) : FragmentKey :=
  ⟨repair.source.hash, repair.source.group, repair.targetConfigurationGeneration,
    repair.source.request⟩

/-- The unsealed target representation of one slot. -/
def representation (repair : RepairRequest) (slot : Nat) (bytes : Bytes) :
    PayloadRepresentation :=
  { slot, bytes
    term := 0
    index := 0
    group := repair.source.group
    configurationGeneration := repair.targetConfigurationGeneration
    mode := repair.source.certificate.mode
    hash := repair.source.hash
    request := repair.source.request
    length := repair.source.length }

end RepairRequest

/-- Store one representation after the other, up to the first failure. -/
def storeInOrder (fate : Nat → Reply) (key : FragmentKey) :
    List (Nat × PayloadRepresentation) → Fragments → Except PayloadError Unit × Fragments
  | [], fragments => (.ok (), fragments)
  | (voter, held) :: rest, fragments =>
    let stored := if (fate voter).landed then fragments.write voter key (some held) else fragments
    match fate voter with
    | .answered => storeInOrder fate key rest stored
    | .failed error _ => (.error error, stored)

/-- Copy a body to every target voter under the target generation. -/
def DistributedPayloadStore.repair (store : DistributedPayloadStore) (repair : RepairRequest)
    (network : Network) (fragments : Fragments) :
    Except PayloadError PayloadCertificate × Fragments :=
  if repair.targetVoters.length ≠ store.k + store.m ∨
      repair.targetVoters.dedup.length ≠ repair.targetVoters.length then
    (.error .invalidGeometry, fragments)
  else
    match reconstruct code sha256 repair.source network fragments with
    | .error error => (.error error, fragments)
    | .ok body =>
      match PayloadCertificate.withVoters repair.source.certificate.mode store.k store.m
          repair.targetVoters repair.targetVoters with
      | .error _ => (.error .invalidGeometry, fragments)
      | .ok repaired =>
        match slotBytes code store.k store.m repair.targetVoters
            repair.source.certificate.mode body with
        | none => (.error .reconstructionUnavailable, fragments)
        | some shards =>
          let targets := repair.targetVoters.map fun voter =>
            let slot := repair.targetVoters.idxOf voter
            (voter, repair.representation slot (shards.getD slot []))
          match storeInOrder network.store repair.key targets fragments with
          | (.error error, after) => (.error error, after)
          | (.ok (), after) => (.ok repaired, after)

/-- Check the copies that answered before any deletion begins. -/
def checkRelease (release : ReconstructRequest) (network : Network) (fragments : Fragments) :
    List Nat → Except PayloadError Unit
  | [] => .ok ()
  | voter :: rest =>
    match slotOf release.certificate.voters voter with
    | none => .error .unknownHolder
    | some slot =>
      match loadFrom network fragments release.key voter with
      | .error (.transport _) => checkRelease release network fragments rest
      | .error error => .error error
      | .ok none => checkRelease release network fragments rest
      | .ok (some record) =>
        if release.mismatch slot record then .error .corruptRepresentation
        else checkRelease release network fragments rest

/-- Check the holders, then delete what every voter holds. -/
def release (request : ReconstructRequest) (network : Network) (fragments : Fragments) :
    Except PayloadError Unit × Fragments :=
  match checkRelease request network fragments request.certificate.holders with
  | .error error => (.error error, fragments)
  | .ok () =>
    let deleted := landWrites network.delete request.key
      (request.certificate.voters.map fun voter => (voter, none)) fragments
    match countAnswered network.delete request.certificate.voters with
    | .error error => (.error error, deleted)
    | .ok _ => (.ok (), deleted)

end Verglas.Consensus
