import Verglas.Consensus.Payload
import Verglas.Consensus.WalTiling
import Verglas.Lib.Splice

/-!
# One consensus group

The operations of a group join the payload store and the replicated state machine.  A write stages
its body when it is too large for the header, proposes the header, and seals the staged body with
the log identity under which it committed.  A read takes headers from the local state machine and
bodies from the headers or from the payload store.

The fate of payload requests, the answer of the Raft write and the local state are arguments.  Reads
start where the linearizable fence of Raft has succeeded.
-/

namespace Verglas.Consensus

/-- Why an operation of a group fails. -/
inductive GroupError where
  | payload (error : PayloadError)
  | invalidCertificate
  | raft (message : String)
  | notLeader (leader : Option Nat)
  | notCommitted (index : Nat)
  | wrongGroup
  | conflictingRetry
  | staleWriterEpoch
  | walRangeOverflow
  | walGap
  | invalidArchiveCheckpoint
  | catalogEncoding
  | catalogConflict
  | walOutOfRange
  deriving DecidableEq, Repr

def inlinePayloadThresholdBytes : Nat := 4096

/-- A member of a group with its payload store. -/
structure ConsensusGroup where
  group : String
  configurationGeneration : Nat
  payloads : DistributedPayloadStore
  group_ne_empty : group ≠ ""
  generation_ne_zero : configurationGeneration ≠ 0

/-- A command with its body and the metadata that its header is to carry. -/
structure Submission where
  request : RequestId
  kind : CommandKind
  mode : ReplicationMode := .complete
  body : Bytes := []
  writerEpoch : Option Nat := none
  metadata : EntryMetadata := .none

namespace Submission

def commit (request : RequestId) (kind : CommandKind) (mode : ReplicationMode) (body : Bytes)
    (writerEpoch : Option Nat) : Submission :=
  { request, kind, mode, body, writerEpoch }

/-- Open a timeline at an LSN. -/
def openTimeline (request : RequestId) (startLsn : Nat) : Submission :=
  { request, kind := .timelineOpen, metadata := .walStart startLsn }

def bindWalArchive (request : RequestId) (bucket : String) : Submission :=
  { request, kind := .walArchiveBinding, body := asBytes bucket
    metadata := .walArchiveBinding bucket }

/-- Claim the next writer epoch, as the local state knows it. -/
def acquireWriter (request : RequestId) (state : StateMachineData) (writer : String) :
    Submission :=
  { request, kind := .writerLease, body := asBytes writer
    writerEpoch := some (state.writerEpoch + 1) }

/-- Append WAL, unless its end overflows. -/
def appendWalMode (request : RequestId) (writerEpoch startLsn : Nat) (body : Bytes)
    (mode : ReplicationMode) : Except GroupError Submission :=
  if 2 ^ 64 ≤ startLsn + body.length then .error .walRangeOverflow
  else
    .ok
      { request, kind := .wal, mode, body, writerEpoch := some writerEpoch
        metadata := .wal startLsn (startLsn + body.length) }

def releaseWriter (request : RequestId) (writerEpoch : Nat) : Submission :=
  { request, kind := .releaseWriter, writerEpoch := some writerEpoch }

/-- Record that an archive object covers the WAL up to `endLsn`. -/
def archiveCheckpoint (request : RequestId) (endLsn : Nat) (object : String) :
    Except GroupError Submission :=
  match WalArchiveSegment.fromKey object with
  | .error _ => .error .invalidArchiveCheckpoint
  | .ok segment =>
    if segment.endLsn ≠ endLsn then .error .invalidArchiveCheckpoint
    else
      .ok
        { request, kind := .archiveCheckpoint, body := asBytes object
          metadata := .archive segment }

/-- Commit a catalog transaction, whose body is its JSON text. -/
def commitCatalog (toJson : CatalogBatch → Option Bytes) (request : RequestId)
    (batch : CatalogBatch) : Except GroupError Submission :=
  match toJson batch with
  | none => .error .catalogEncoding
  | some body => .ok { request, kind := .catalog, body, metadata := .catalog batch }

/-- Record that an export object covers the catalog up to `appliedIndex`. -/
def catalogCheckpoint (request : RequestId) (appliedIndex : Nat) (object : String) :
    Submission :=
  { request, kind := .catalogCheckpoint, body := asBytes object
    metadata := .catalogCheckpoint appliedIndex }

def registerWarehouse (request : RequestId) (warehouse route : String) : Submission :=
  { request, kind := .tenantRoot, body := asBytes (warehouse ++ "\x00" ++ route)
    metadata := .warehouseRoute warehouse route }

end Submission

variable (code : ErasureCode UInt8) (sha256 : Bytes → Digest)

/-- Attach the metadata of a submission. -/
def EntryHeader.bind (header : EntryHeader) : EntryMetadata → Except CertificateError EntryHeader
  | .none => .ok header
  | .walStart start => header.withWalStart start
  | .walArchiveBinding bucket => header.withWalArchiveBucket bucket
  | .wal start stop => header.withWalRange start stop
  | .archive segment => header.withArchiveSegment sha256 segment
  | .catalog batch => header.withCatalogBatch batch
  | .catalogCheckpoint appliedIndex => header.withCatalogCheckpoint appliedIndex
  | .warehouseRoute warehouse group => header.withWarehouseRoute warehouse group

/-- The header for a built base, with the staged body that it certifies. -/
def finishHeader (metadata : EntryMetadata) (staged : Option StagedPayload) :
    Except CertificateError EntryHeader → Except GroupError (EntryHeader × Option StagedPayload)
  | .error _ => .error .invalidCertificate
  | .ok base =>
    match base.bind sha256 metadata with
    | .error _ => .error .invalidCertificate
    | .ok header => .ok (header, staged)

/-- A refused command is an error of the call. -/
def closeOutcome (response : RaftResponse) : Except GroupError RaftResponse :=
  match response.outcome with
  | .committed | .duplicate => .ok response
  | .conflictingRetry => .error .conflictingRetry
  | .staleWriterEpoch => .error .staleWriterEpoch
  | .walGap => .error .walGap
  | .invalidArchiveCheckpoint => .error .invalidArchiveCheckpoint
  | .catalogConflict => .error .catalogConflict

/-- What the environment decides during a write. -/
structure WriteEnvironment where
  completion : List Nat
  staging : Network
  write : Except GroupError RaftResponse
  applied : StateMachineData
  sealing : Network

namespace ConsensusGroup

variable (self : ConsensusGroup) (submission : Submission)

/-- The staging request of a submission. -/
def staging : StageRequest where
  request := submission.request
  group := self.group
  configurationGeneration := self.configurationGeneration
  mode := submission.mode
  body := submission.body

/-- Build the header of a submission, staging its body first when it is too large to travel
inside the header. -/
def prepareHeader (completion : List Nat) (network : Network) (fragments : Fragments) :
    Except GroupError (EntryHeader × Option StagedPayload) × Fragments :=
  if submission.body.length ≤ inlinePayloadThresholdBytes then
    (finishHeader sha256 submission.metadata none
      (EntryHeader.newInline sha256 self.group self.configurationGeneration submission.kind
        submission.request submission.writerEpoch submission.body), fragments)
  else
    match self.payloads.stage code sha256 (self.staging submission) completion network
        fragments with
    | (.error error, after) => (.error (.payload error), after)
    | (.ok staged, after) =>
      (finishHeader sha256 submission.metadata (some staged)
        (EntryHeader.new self.group self.configurationGeneration submission.kind
          submission.request staged.length staged.hash submission.writerEpoch
          staged.certificate), after)

/-- Seal a staged body with the log identity under which its request committed. -/
def sealCommitted (request : RequestId) (staged : StagedPayload) (index : Nat)
    (state : StateMachineData) (network : Network) (fragments : Fragments) :
    Except GroupError Unit × Fragments :=
  match state.committedLogIds.get index with
  | none => (.error (.notCommitted index), fragments)
  | some logId =>
    match sealPayload
        { hash := staged.hash, group := self.group
          configurationGeneration := self.configurationGeneration, request
          term := logId.term, index := logId.index, certificate := staged.certificate }
        network fragments with
    | (.error error, after) => (.error (.payload error), after)
    | (.ok (), after) => (.ok (), after)

/-- Seal what was staged if the command committed, now or earlier, and answer the caller. -/
def acknowledge (request : RequestId) (staged : Option StagedPayload) (response : RaftResponse)
    (state : StateMachineData) (network : Network) (fragments : Fragments) :
    Except GroupError RaftResponse × Fragments :=
  match staged with
  | none => (closeOutcome response, fragments)
  | some staged =>
    if response.outcome = .committed ∨ response.outcome = .duplicate then
      match self.sealCommitted request staged response.index state network fragments with
      | (.error error, after) => (.error error, after)
      | (.ok (), after) => (closeOutcome response, after)
    else (closeOutcome response, fragments)

/-- Stage a body durably and commit only its immutable header through Raft. -/
def commitHeader (environment : WriteEnvironment) (fragments : Fragments) :
    Except GroupError RaftResponse × Fragments :=
  match self.prepareHeader code sha256 submission environment.completion environment.staging
      fragments with
  | (.error error, after) => (.error error, after)
  | (.ok (_, staged), after) =>
    match environment.write with
    | .error error => (.error error, after)
    | .ok response =>
      self.acknowledge submission.request staged response environment.applied
        environment.sealing after

end ConsensusGroup

/-- Current allocation of a staged header: the latest repair, or the one that it committed with. -/
def currentAllocation (state : StateMachineData) (index : Nat) (header : EntryHeader) :
    Except GroupError RepairAllocation :=
  match state.repairs.get index with
  | some repair => .ok repair
  | none =>
    match header.certificate with
    | none => .error .invalidCertificate
    | some certificate =>
      match state.committedLogIds.get index with
      | none => .error (.notCommitted index)
      | some logId => .ok ⟨header.configurationGeneration, certificate, logId⟩

/-- Request that reads a header's body from one of its allocations. -/
def EntryHeader.readFrom (header : EntryHeader) (allocation : RepairAllocation) :
    ReconstructRequest where
  hash := header.payloadHash
  group := header.group
  configurationGeneration := allocation.configurationGeneration
  request := header.request
  length := header.payloadLen
  term := allocation.logId.term
  index := allocation.logId.index
  certificate := allocation.certificate

/-- The seal request of the same representation. -/
def ReconstructRequest.sealing (read : ReconstructRequest) : SealRequest where
  hash := read.hash
  group := read.group
  configurationGeneration := read.configurationGeneration
  request := read.request
  term := read.term
  index := read.index
  certificate := read.certificate

/-- Seal a committed payload, then read it back. -/
def sealThenReconstruct (sealing reading : Network) (fragments : Fragments)
    (read : ReconstructRequest) : Except PayloadError Bytes :=
  match sealPayload read.sealing sealing fragments with
  | (.error error, _) => .error error
  | (.ok (), sealed) => reconstruct code sha256 read reading sealed

/-- What `repairCommitted` does before it proposes a repair: seal the current allocation of a header
and copy the body to the target voters, one generation later. -/
def ConsensusGroup.repairBody (self : ConsensusGroup) (header : EntryHeader)
    (source : RepairAllocation) (targetVoters : List Nat) (sealing copying : Network)
    (fragments : Fragments) : Except GroupError PayloadCertificate × Fragments :=
  let read := header.readFrom source
  match sealPayload read.sealing sealing fragments with
  | (.error error, after) => (.error (.payload error), after)
  | (.ok (), sealed) =>
    match self.payloads.repair code sha256
        ⟨read, source.configurationGeneration + 1, targetVoters⟩ copying sealed with
    | (.error error, after) => (.error (.payload error), after)
    | (.ok certificate, after) => (.ok certificate, after)

section Reads

variable (fetch : ReconstructRequest → Except PayloadError Bytes) (state : StateMachineData)

/-- Body of a retained header: its inline body, or what the payload store returns for its current
allocation. -/
def readCommitted (index : Nat) (header : EntryHeader) : Except GroupError Bytes :=
  match header.inlineBody with
  | some body => .ok body
  | none =>
    match currentAllocation state index header with
    | .error error => .error error
    | .ok allocation => (fetch (header.readFrom allocation)).mapError .payload

/-- The body of the entry committed at an index. -/
def ConsensusGroup.read (self : ConsensusGroup) (index : Nat) : Except GroupError Bytes :=
  match state.committed.get index with
  | none => .error (.notCommitted index)
  | some header =>
    if header.group ≠ self.group then .error .wrongGroup
    else readCommitted fetch state index header

/-- Verify every retained representation before this replica serves authority. -/
def verifyCommittedPrefix : List (Nat × EntryHeader) → Except GroupError Unit
  | [] => .ok ()
  | (index, header) :: rest =>
    match readCommitted fetch state index header with
    | .error error => .error error
    | .ok _ => verifyCommittedPrefix rest

/-- Verify every committed payload. -/
def readFence : Except GroupError Unit := verifyCommittedPrefix fetch state state.committed.entries

/-- The bucket that the WAL is archived to. -/
def walArchiveBinding : Except GroupError (Option String) :=
  (readFence fetch state).map fun _ => state.walArchiveBucket

/-- Read a WAL range once the index is applied. -/
def readWalAfterFence (start stop minimumIndex : Nat) : Except GroupError Bytes :=
  if appliedIndex state < minimumIndex then .error (.notCommitted minimumIndex)
  else
    splice WalBlock.start WalBlock.stop
      (fun block => readCommitted fetch state block.index block.header)
      .walOutOfRange stop start [] (walBlocks state)

/-- Read a nonempty WAL range. -/
def readWal (start stop minimumIndex : Nat) : Except GroupError Bytes :=
  if stop ≤ start then .error .walOutOfRange
  else readWalAfterFence fetch state start stop minimumIndex

end Reads

/-- Release the original and the latest repaired representation of one header. -/
def releaseCommittedPayload (state : StateMachineData) (index : Nat) (header : EntryHeader)
    (network : Network) (fragments : Fragments) : Except PayloadError Unit × Fragments :=
  match header.certificate with
  | none => (.ok (), fragments)
  | some certificate =>
    match state.committedLogIds.get index with
    | none => (.error .corruptRepresentation, fragments)
    | some logId =>
      match release (header.readFrom ⟨header.configurationGeneration, certificate, logId⟩)
          network fragments with
      | (.error error, after) => (.error error, after)
      | (.ok (), after) =>
        match state.repairs.get index with
        | none => (.ok (), after)
        | some repair => release (header.readFrom repair) network after

/-- Release the selected headers one after the other, stopping at the first failure. -/
def releasePayloads (state : StateMachineData) (network : Network) :
    List (Nat × EntryHeader) → Fragments → Except PayloadError Unit × Fragments
  | [], fragments => (.ok (), fragments)
  | (index, header) :: rest, fragments =>
    match releaseCommittedPayload state index header network fragments with
    | (.error error, after) => (.error error, after)
    | (.ok (), after) => releasePayloads state network rest after

/-- Release the payloads of archived WAL. -/
def releaseCheckpointedWalPayloads (state : StateMachineData) (network : Network)
    (fragments : Fragments) : Except PayloadError Unit × Fragments :=
  releasePayloads state network
    (state.committed.entries.filter fun entry => walCovered state.archiveLsn entry.1 entry.2)
    fragments

/-- Release the payloads that a catalog checkpoint covers. -/
def releaseCheckpointedCatalogPayloads (state : StateMachineData) (network : Network)
    (fragments : Fragments) : Except PayloadError Unit × Fragments :=
  match state.catalogCheckpoint with
  | none => (.ok (), fragments)
  | some (appliedIndex, _) =>
    releasePayloads state network
      (state.committed.entries.filter fun entry => catalogCovered appliedIndex entry.1 entry.2)
      fragments

end Verglas.Consensus
