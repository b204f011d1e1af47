import Verglas.Consensus.Command

/-!
# The timeline and catalog state machine

This file embeds the state that every replica of a consensus group derives from the committed log,
the application of one entry, and the two ways in which history is pruned: a replicated
`ReleaseWal` command and the local catalog compaction of a snapshot.
-/

namespace Verglas.Consensus

/-- What a group remembers of an applied request, to answer its retries. -/
structure AppliedIdentity where
  index : Nat
  group : String
  kind : CommandKind
  hash : Digest
  writerEpoch : Option Nat
  walEnd : Option Nat
  archiveLsn : Option Nat
  catalogChanged : Bool
  deriving DecidableEq

/-- Latest committed replacement allocation and the log identity that sealed it. -/
structure RepairAllocation where
  configurationGeneration : Nat
  certificate : PayloadCertificate
  logId : LogId
  deriving DecidableEq

/-- The last applied membership. -/
structure StoredMembership where
  logId : Option LogId := none
  membership : Membership := {}
  deriving DecidableEq

/-- Applied state of one replica. -/
structure StateMachineData where
  lastApplied : Option LogId := none
  membership : StoredMembership := {}
  /-- The retained headers, by the index of their entry. -/
  committed : OrderedMap Nat EntryHeader := ∅
  committedLogIds : OrderedMap Nat LogId := ∅
  /-- Where a retained body was copied to last. -/
  repairs : OrderedMap Nat RepairAllocation := ∅
  /-- Every applied request, also of headers that were pruned. -/
  retries : OrderedMap RequestId AppliedIdentity := ∅
  /-- The epoch of the last lease, and whether its writer may append. -/
  writerEpoch : Nat := 0
  writerActive : Bool := false
  /-- Where WAL is archived; a timeline opens only once this is bound. -/
  walArchiveBucket : Option String := none
  /-- The timeline was opened. -/
  walInitialized : Bool := false
  /-- End of the committed WAL. -/
  walEnd : Nat := 0
  /-- WAL below this position is archived. -/
  archiveLsn : Nat := 0
  namespaces : OrderedMap String Unit := ∅
  /-- The metadata location of each table. -/
  tables : OrderedMap String String := ∅
  records : CatalogRecords := {}
  /-- The group of each warehouse. -/
  warehouses : OrderedMap String String := ∅
  /-- The index and the key of the last catalog export. -/
  catalogCheckpoint : Option (Nat × String) := none
  deriving DecidableEq

/-- An entry that stops the node. -/
structure StorageError where
  message : String
  deriving DecidableEq, Repr

/-- The answer to a request that was applied before. -/
def retryResponse (previous : AppliedIdentity) (header : EntryHeader) : RaftResponse :=
  let same := previous.group = header.group ∧ previous.kind = header.kind ∧
    previous.hash = header.payloadHash ∧ previous.writerEpoch = header.writerEpoch
  { index := previous.index
    writerEpoch := previous.writerEpoch
    outcome := if same then .duplicate else .conflictingRetry
    walEnd := if same then previous.walEnd else none
    archiveLsn := if same then previous.archiveLsn else none
    catalogChanged := decide same && previous.catalogChanged }

/-- Whether the writer fence admits the command. -/
def epochValid (state : StateMachineData) (header : EntryHeader) : Bool :=
  match header.kind with
  | .timelineOpen => state.walArchiveBucket.isSome
  | .walArchiveBinding => true
  | .writerLease => state.walInitialized && header.writerEpoch = some (state.writerEpoch + 1)
  | .wal => state.writerActive && header.writerEpoch = some state.writerEpoch
  | .releaseWriter => state.writerActive && header.writerEpoch = some state.writerEpoch
  | .catalog => true
  | .catalogCheckpoint => true
  | .tenantRoot => true
  | .object => true
  | .archiveCheckpoint => true

/-- State and reported positions after the transition of the decoded metadata. -/
structure MetadataEffect where
  state : StateMachineData
  walEnd : Option Nat := none
  archiveLsn : Option Nat := none
  catalogChanged : Bool := false

/-- Transition of the decoded metadata, or the closed answer that refuses it. -/
def applyMetadata (state : StateMachineData) (index : Nat) (header : EntryHeader) :
    Except RaftResponse MetadataEffect :=
  match header.metadata with
  | .none => .ok { state }
  | .walStart start =>
    if state.walInitialized then
      if start > state.walEnd then
        .error { index, outcome := .walGap, walEnd := some state.walEnd }
      else
        .ok { state, walEnd := some state.walEnd }
    else
      .ok
        { state := { state with walInitialized := true, walEnd := start, archiveLsn := start }
          walEnd := some start }
  | .walArchiveBinding bucket =>
    match state.walArchiveBucket with
    | some existing =>
      if existing ≠ bucket then .error { index, outcome := .catalogConflict }
      else .ok { state }
    | none => .ok { state := { state with walArchiveBucket := some bucket } }
  | .wal start stop =>
    if start ≠ state.walEnd then
      .error
        { index, writerEpoch := some state.writerEpoch, outcome := .walGap
          walEnd := some state.walEnd }
    else
      .ok { state := { state with walEnd := stop }, walEnd := some stop }
  | .archive segment =>
    if segment.startLsn ≠ state.archiveLsn ∨ segment.endLsn > state.walEnd then
      .error
        { index, writerEpoch := some state.writerEpoch, outcome := .invalidArchiveCheckpoint
          walEnd := some state.walEnd, archiveLsn := some state.archiveLsn }
    else
      .ok
        { state := { state with archiveLsn := segment.endLsn }
          archiveLsn := some segment.endLsn }
  | .catalog batch =>
    match batch.apply state.namespaces state.tables, batch.applyRecords state.records with
    | .ok (namespaces, tables), .ok records =>
      .ok { state := { state with namespaces, tables, records }, catalogChanged := true }
    | _, _ => .error { index, outcome := .catalogConflict }
  | .catalogCheckpoint appliedIndex =>
    if appliedIndex > index then .error { index, outcome := .catalogConflict }
    else
      let hash := String.ofList (hexEncode header.payloadHash.toList)
      .ok { state := { state with catalogCheckpoint := some (appliedIndex, hash) } }
  | .warehouseRoute warehouse group =>
    match state.warehouses.get warehouse with
    | some existing =>
      if existing ≠ group then .error { index, outcome := .catalogConflict }
      else .ok { state }
    | none =>
      .ok { state := { state with warehouses := state.warehouses.insert warehouse group } }

/-- Lease transition that follows an accepted command. -/
def applyLease (state : StateMachineData) (header : EntryHeader) : StateMachineData :=
  if header.kind = .writerLease then
    { state with
      writerEpoch := header.writerEpoch.getD state.writerEpoch
      writerActive := true }
  else if header.kind = .releaseWriter then { state with writerActive := false }
  else state

/-- Identity retained for the retries of an accepted command. -/
def appliedIdentity (effect : MetadataEffect) (logId : LogId) (header : EntryHeader) :
    AppliedIdentity :=
  { index := logId.index
    group := header.group
    kind := header.kind
    hash := header.payloadHash
    writerEpoch := header.writerEpoch
    walEnd := if header.kind = .writerLease then some effect.state.walEnd else effect.walEnd
    archiveLsn := effect.archiveLsn
    catalogChanged := effect.catalogChanged }

/-- Make an accepted command visible at its index. -/
def recordCommit (effect : MetadataEffect) (logId : LogId) (header : EntryHeader) :
    StateMachineData :=
  let leased := applyLease effect.state header
  { leased with
    retries := leased.retries.insert header.request (appliedIdentity effect logId header)
    committed := leased.committed.insert logId.index header
    committedLogIds := leased.committedLogIds.insert logId.index logId }

/-- The answer that reports an applied command. -/
def commitResponse (identity : AppliedIdentity) : RaftResponse :=
  { index := identity.index
    writerEpoch := identity.writerEpoch
    outcome := .committed
    walEnd := identity.walEnd
    archiveLsn := identity.archiveLsn
    catalogChanged := identity.catalogChanged }

/-- Apply a command, unless its request was applied before. -/
def applyCommit (state : StateMachineData) (logId : LogId) (header : EntryHeader) :
    StateMachineData × RaftResponse :=
  match state.retries.get header.request with
  | some previous => (state, retryResponse previous header)
  | none =>
    if !epochValid state header then
      (state,
        { index := logId.index, writerEpoch := some state.writerEpoch
          outcome := .staleWriterEpoch })
    else
      match applyMetadata state logId.index header with
      | .error response => (state, response)
      | .ok effect =>
        (recordCommit effect logId header,
          commitResponse (appliedIdentity effect logId header))

/-- Apply a `Repair` command, which fails when the retained header does not admit it. -/
def applyRepair (state : StateMachineData) (logId : LogId) (index generation : Nat)
    (certificate : PayloadCertificate) : Except StorageError StateMachineData :=
  match state.committed.get index with
  | none => .error ⟨"repair references an unknown committed header"⟩
  | some header =>
    match header.certificate with
    | none =>
      .error
        ⟨"repair targets an inline-committed header with no external representation"⟩
    | some headerCertificate =>
      if certificate.mode ≠ headerCertificate.mode ∨ certificate.k ≠ headerCertificate.k ∨
          certificate.m ≠ headerCertificate.m ∨
          certificate.voters.length ≠ headerCertificate.voters.length ∨
          generation ≤ header.configurationGeneration ∨
          (state.repairs.get index).any (generation ≤ ·.configurationGeneration) then
        .error ⟨"repair changes immutable payload coding identity"⟩
      else
        .ok
          { state with
            repairs := state.repairs.insert index ⟨generation, certificate, logId⟩ }

/-- Remove the headers that `covered` selects, with their log identities and repairs. -/
def pruneHeaders (state : StateMachineData) (covered : Nat → EntryHeader → Bool) :
    StateMachineData :=
  let compacted :=
    (state.committed.entries.filter fun entry => covered entry.1 entry.2).map Prod.fst
  { state with
    committed := state.committed.retain fun index _ => index ∉ compacted
    committedLogIds := state.committedLogIds.retain fun index _ => index ∉ compacted
    repairs := state.repairs.retain fun index _ => index ∉ compacted }

/-- WAL headers whose bytes end at or below a released position. -/
def walCovered (throughLsn : Nat) (_ : Nat) (header : EntryHeader) : Bool :=
  match header.metadata with
  | .wal _ stop => stop ≤ throughLsn
  | _ => false

/-- Remove checkpoint-covered WAL headers; retry identities and archive headers remain. -/
def compactCheckpointedWalHistory (state : StateMachineData) (throughLsn : Nat) :
    StateMachineData :=
  pruneHeaders state (walCovered throughLsn)

/-- Catalog headers at or below an applied index. -/
def catalogCovered (appliedIndex : Nat) (index : Nat) (header : EntryHeader) : Bool :=
  index ≤ appliedIndex ∧ header.kind = .catalog

/-- Remove catalog headers whose materialized effects are covered by the checkpoint. -/
def compactCheckpointedCatalogHistory (state : StateMachineData) : StateMachineData :=
  match state.catalogCheckpoint with
  | none => state
  | some (appliedIndex, _) => pruneHeaders state (catalogCovered appliedIndex)

/-- Apply one entry of the committed log.  The applied position moves even when the command stops
the replica. -/
def applyEntry (before : StateMachineData) (entry : Entry) :
    StateMachineData × Except StorageError RaftResponse :=
  let state := { before with lastApplied := some entry.logId }
  match entry.payload with
  | .blank => (state, .ok { index := entry.logId.index, outcome := .committed })
  | .membership membership =>
    ({ state with membership := ⟨some entry.logId, membership⟩ },
      .ok { index := entry.logId.index, outcome := .committed })
  | .normal (.commit header) =>
    let (applied, response) := applyCommit state entry.logId header
    (applied, .ok response)
  | .normal (.repair index generation certificate) =>
    match applyRepair state entry.logId index generation certificate with
    | .error error => (state, .error error)
    | .ok repaired => (repaired, .ok { index := entry.logId.index, outcome := .committed })
  | .normal (.releaseWal throughLsn) =>
    if throughLsn > state.archiveLsn then
      (state, .error ⟨"WAL release exceeds the committed archive checkpoint"⟩)
    else
      (compactCheckpointedWalHistory state throughLsn,
        .ok
          { index := entry.logId.index, outcome := .committed
            walEnd := some state.walEnd, archiveLsn := some state.archiveLsn })

/-- Apply a batch of entries, stopping at the first command that fails. -/
def apply (state : StateMachineData) :
    List Entry → StateMachineData × Except StorageError (List RaftResponse)
  | [] => (state, .ok [])
  | entry :: rest =>
    match applyEntry state entry with
    | (applied, .error error) => (applied, .error error)
    | (applied, .ok response) =>
      let (final, responses) := apply applied rest
      (final, responses.map (response :: ·))

/-- A snapshot: the position it covers and the state image. -/
structure Snapshot where
  lastLogId : Option LogId
  lastMembership : StoredMembership
  data : StateMachineData

/-- Compact the state and take a snapshot of it. -/
def buildSnapshot (state : StateMachineData) : StateMachineData × Snapshot :=
  let compacted := compactCheckpointedCatalogHistory state
  (compacted, ⟨compacted.lastApplied, compacted.membership, compacted⟩)

/-- The state that a snapshot holds. -/
def installSnapshot (snapshot : Snapshot) : StateMachineData :=
  { snapshot.data with
    lastApplied := snapshot.lastLogId
    membership := snapshot.lastMembership }

/-- The last applied index, or zero. -/
def appliedIndex (state : StateMachineData) : Nat := (state.lastApplied.map LogId.index).getD 0

/-- Step of the archive scan: each segment must start where the previous one ended. -/
def scanArchive (found : Option Nat × List WalArchiveSegment) (header : EntryHeader) :
    Except PayloadError (Option Nat × List WalArchiveSegment) :=
  match header.metadata with
  | .archive segment =>
    if found.1.any (segment.startLsn ≠ ·) then .error .corruptRepresentation
    else .ok (some segment.endLsn, found.2 ++ [segment])
  | _ => .ok found

/-- Ordered checkpoint identities that exactly cover the archived WAL prefix. -/
def archivedWalSegments (state : StateMachineData) (throughLsn : Nat) :
    Except PayloadError (List WalArchiveSegment) :=
  if throughLsn ≠ state.archiveLsn then .error .corruptRepresentation
  else do
    let (cursor, segments) ← state.committed.values.foldlM scanArchive (none, [])
    if cursor.all (· = throughLsn) then .ok segments else .error .corruptRepresentation

end Verglas.Consensus
