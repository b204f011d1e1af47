import Verglas.Consensus.StateMachine

/-!
# What one log entry can do

Inversion lemmas for the application of an entry.  Every later invariant is derived from these
statements and does not unfold the state machine again.
-/

namespace Verglas.Consensus

variable {state : StateMachineData} {index : Nat} {header : EntryHeader}

variable {response : RaftResponse} {effect : MetadataEffect} {before after : StateMachineData}
  {entry : Entry}

theorem applyMetadata_error_outcome_ne
    (refused : applyMetadata state index header = .error response) :
    response.outcome ≠ .committed ∧ response.outcome ≠ .duplicate := by
  unfold applyMetadata at refused
  split at refused <;> (try split at refused) <;> (try split at refused) <;>
    first
    | cases refused; done
    | (injection refused with equal; subst equal; simp)

/-- A `Commit` command is either answered without effect or recorded; a duplicate has a known
request. -/
theorem applyCommit_cases (state : StateMachineData) (logId : LogId) (header : EntryHeader) :
    (∃ response, applyCommit state logId header = (state, response) ∧
      response.outcome ≠ .committed ∧
      (response.outcome = .duplicate → (state.retries.get header.request).isSome)) ∨
    ∃ effect, state.retries.get header.request = none ∧ epochValid state header = true ∧
      applyMetadata state logId.index header = .ok effect ∧
      applyCommit state logId header =
        (recordCommit effect logId header,
          commitResponse (appliedIdentity effect logId header)) := by
  unfold applyCommit
  cases known : state.retries.get header.request with
  | some previous =>
    refine .inl ⟨_, rfl, ?_, fun _ => rfl⟩
    simp only [retryResponse]
    split <;> simp
  | none =>
    by_cases fenced : epochValid state header = true
    · cases transition : applyMetadata state logId.index header with
      | error response =>
        obtain ⟨closed, unknown⟩ := applyMetadata_error_outcome_ne transition
        exact .inl ⟨response, by simp [fenced], closed, fun known => absurd known unknown⟩
      | ok effect => exact .inr ⟨effect, rfl, fenced, rfl, by simp [fenced]⟩
    · refine .inl ⟨⟨logId.index, some state.writerEpoch, .staleWriterEpoch, none, none, false⟩,
        ?_, by simp, by simp⟩
      simp [fenced]

/-- The metadata transition of an accepted command, by the WAL positions that it moves. -/
inductive WalEffect (state : StateMachineData) (header : EntryHeader) :
    StateMachineData → Prop
  /-- The positions stay where they are; a WAL range or an archive segment would move them. -/
  | idle {next : StateMachineData}
      (not_wal : ∀ start stop, header.metadata ≠ .wal start stop)
      (not_archive : ∀ segment, header.metadata ≠ .archive segment)
      (not_opened : ∀ start, header.metadata = .walStart start →
        state.walInitialized = true ∧ start ≤ state.walEnd)
      (walInitialized : next.walInitialized = state.walInitialized)
      (walEnd : next.walEnd = state.walEnd)
      (archiveLsn : next.archiveLsn = state.archiveLsn) : WalEffect state header next
  | opened (start : Nat) (metadata : header.metadata = .walStart start)
      (closed : state.walInitialized = false) :
      WalEffect state header
        { state with walInitialized := true, walEnd := start, archiveLsn := start }
  | appended (stop : Nat) (metadata : header.metadata = .wal state.walEnd stop) :
      WalEffect state header { state with walEnd := stop }
  | archived (segment : WalArchiveSegment) (metadata : header.metadata = .archive segment)
      (starts : segment.startLsn = state.archiveLsn) (within : segment.endLsn ≤ state.walEnd) :
      WalEffect state header { state with archiveLsn := segment.endLsn }

theorem walEffect_of_applyMetadata (accepted : applyMetadata state index header = .ok effect) :
    WalEffect state header effect.state := by
  unfold applyMetadata at accepted
  cases metadata : header.metadata with
  | walStart start =>
    simp only [metadata] at accepted
    split at accepted
    · rename_i initialized
      split at accepted
      · cases accepted
      cases accepted
      refine .idle (by simp [metadata]) (by simp [metadata]) ?_ rfl rfl rfl
      intro other equal
      rw [metadata] at equal
      injection equal with equal
      exact ⟨initialized, by omega⟩
    · rename_i closed
      cases accepted
      exact .opened start metadata (by simpa using closed)
  | wal start stop =>
    simp only [metadata] at accepted
    split at accepted
    · cases accepted
    · rename_i contiguous
      cases accepted
      exact .appended stop (by rw [metadata, not_not.mp contiguous])
  | archive segment =>
    simp only [metadata] at accepted
    split at accepted
    · cases accepted
    rename_i admitted
    cases accepted
    rw [not_or, not_not, not_lt] at admitted
    exact .archived segment metadata admitted.1 admitted.2
  | _ =>
    simp only [metadata] at accepted
    repeat' split at accepted
    all_goals
      cases accepted
      try exact .idle (by simp [metadata]) (by simp [metadata]) (by simp [metadata]) rfl rfl rfl

/-- Fields that no metadata transition touches. -/
structure MetadataFrame (before after : StateMachineData) : Prop where
  lastApplied : after.lastApplied = before.lastApplied
  membership : after.membership = before.membership
  committed : after.committed = before.committed
  committedLogIds : after.committedLogIds = before.committedLogIds
  repairs : after.repairs = before.repairs
  retries : after.retries = before.retries
  writerEpoch : after.writerEpoch = before.writerEpoch
  writerActive : after.writerActive = before.writerActive

theorem metadataFrame_of_applyMetadata (accepted : applyMetadata state index header = .ok effect) :
    MetadataFrame state effect.state := by
  unfold applyMetadata at accepted
  split at accepted <;> (try split at accepted) <;> (try split at accepted) <;>
    first
    | cases accepted; done
    | (cases accepted; exact ⟨rfl, rfl, rfl, rfl, rfl, rfl, rfl, rfl⟩)

theorem applyLease_eq (state : StateMachineData) (header : EntryHeader) :
    applyLease state header =
      { state with
        writerEpoch := (applyLease state header).writerEpoch
        writerActive := (applyLease state header).writerActive } := by
  unfold applyLease
  split
  · rfl
  · split <;> rfl

section RecordCommit

variable (effect : MetadataEffect) (logId : LogId) (header : EntryHeader)

@[simp] theorem recordCommit_committed :
    (recordCommit effect logId header).committed =
      effect.state.committed.insert logId.index header := by
  simp only [recordCommit]
  rw [applyLease_eq]

@[simp] theorem recordCommit_committedLogIds :
    (recordCommit effect logId header).committedLogIds =
      effect.state.committedLogIds.insert logId.index logId := by
  simp only [recordCommit]
  rw [applyLease_eq]

@[simp] theorem recordCommit_retries :
    (recordCommit effect logId header).retries =
      effect.state.retries.insert header.request (appliedIdentity effect logId header) := by
  simp only [recordCommit]
  rw [applyLease_eq]

@[simp] theorem recordCommit_repairs :
    (recordCommit effect logId header).repairs = effect.state.repairs := by
  simp only [recordCommit]
  rw [applyLease_eq]

@[simp] theorem recordCommit_lastApplied :
    (recordCommit effect logId header).lastApplied = effect.state.lastApplied := by
  simp only [recordCommit]
  rw [applyLease_eq]

@[simp] theorem recordCommit_walInitialized :
    (recordCommit effect logId header).walInitialized = effect.state.walInitialized := by
  simp only [recordCommit]
  rw [applyLease_eq]

@[simp] theorem recordCommit_walEnd :
    (recordCommit effect logId header).walEnd = effect.state.walEnd := by
  simp only [recordCommit]
  rw [applyLease_eq]

@[simp] theorem recordCommit_archiveLsn :
    (recordCommit effect logId header).archiveLsn = effect.state.archiveLsn := by
  simp only [recordCommit]
  rw [applyLease_eq]

theorem recordCommit_writerActive (active : (recordCommit effect logId header).writerActive) :
    header.kind = .writerLease ∨ effect.state.writerActive := by
  simp only [recordCommit, applyLease] at active
  split at active
  · exact .inl ‹_›
  · split at active
    · cases active
    · exact .inr active

end RecordCommit

/-- What a log entry did to a replica that applied it. -/
inductive Applied (before : StateMachineData) (entry : Entry) :
    StateMachineData → RaftResponse → Prop
  | blank (payload : entry.payload = .blank) :
      Applied before entry { before with lastApplied := some entry.logId }
        { index := entry.logId.index, outcome := .committed }
  | membership (membership : Membership) (payload : entry.payload = .membership membership) :
      Applied before entry
        { before with
          lastApplied := some entry.logId
          membership := ⟨some entry.logId, membership⟩ }
        { index := entry.logId.index, outcome := .committed }
  | refused (header : EntryHeader) (response : RaftResponse)
      (payload : entry.payload = .normal (.commit header))
      (closed : response.outcome ≠ .committed)
      (known : response.outcome = .duplicate → (before.retries.get header.request).isSome) :
      Applied before entry { before with lastApplied := some entry.logId } response
  | recorded (header : EntryHeader) (effect : MetadataEffect)
      (payload : entry.payload = .normal (.commit header))
      (fresh : before.retries.get header.request = none)
      (fenced : epochValid { before with lastApplied := some entry.logId } header = true)
      (transition : applyMetadata { before with lastApplied := some entry.logId }
        entry.logId.index header = .ok effect) :
      Applied before entry (recordCommit effect entry.logId header)
        (commitResponse (appliedIdentity effect entry.logId header))
  | repaired (index generation : Nat) (certificate : PayloadCertificate)
      (after : StateMachineData)
      (payload : entry.payload = .normal (.repair index generation certificate))
      (accepted : applyRepair { before with lastApplied := some entry.logId } entry.logId index
        generation certificate = .ok after) :
      Applied before entry after { index := entry.logId.index, outcome := .committed }
  | released (throughLsn : Nat) (payload : entry.payload = .normal (.releaseWal throughLsn))
      (archived : throughLsn ≤ before.archiveLsn) :
      Applied before entry
        (compactCheckpointedWalHistory { before with lastApplied := some entry.logId } throughLsn)
        { index := entry.logId.index, outcome := .committed
          walEnd := some before.walEnd, archiveLsn := some before.archiveLsn }

theorem applied_of_applyEntry (step : applyEntry before entry = (after, .ok response)) :
    Applied before entry after response := by
  unfold applyEntry at step
  cases payload : entry.payload with
  | blank =>
    simp only [payload] at step
    cases step
    exact .blank payload
  | membership membership =>
    simp only [payload] at step
    cases step
    exact .membership membership payload
  | normal command =>
    cases command with
    | commit header =>
      simp only [payload] at step
      rcases applyCommit_cases { before with lastApplied := some entry.logId } entry.logId
        header with ⟨answer, commit_eq, closed, known⟩ |
          ⟨effect, fresh, fenced, transition, commit_eq⟩
      · rw [commit_eq] at step
        cases step
        exact .refused header answer payload closed known
      · rw [commit_eq] at step
        cases step
        exact .recorded header effect payload fresh fenced transition
    | repair index generation certificate =>
      simp only [payload] at step
      split at step
      · cases step
      · cases step
        exact .repaired index generation certificate _ payload ‹_›
    | releaseWal throughLsn =>
      simp only [payload] at step
      split at step
      · cases step
      · cases step
        exact .released throughLsn payload (not_lt.mp ‹_›)

theorem applyEntry_fst_of_error {error : StorageError}
    (failed : (applyEntry before entry).2 = .error error) :
    (applyEntry before entry).1 = { before with lastApplied := some entry.logId } := by
  unfold applyEntry at failed ⊢
  cases payload : entry.payload with
  | blank | membership membership => simp [payload] at failed
  | normal command =>
    cases command with
    | commit header => simp [payload] at failed
    | repair index generation certificate =>
      simp only [payload] at failed ⊢
      split at failed
      · rfl
      · cases failed
    | releaseWal throughLsn =>
      simp only [payload] at failed ⊢
      split at failed
      · rename_i exceeds
        rw [if_pos exceeds]
      · cases failed

/-- Whatever its answer, an entry either applies or moves the applied position only. -/
theorem applyEntry_cases (before : StateMachineData) (entry : Entry) :
    (∃ response, Applied before entry (applyEntry before entry).1 response) ∨
      (applyEntry before entry).1 = { before with lastApplied := some entry.logId } := by
  cases answer : (applyEntry before entry).2 with
  | ok response => exact .inl ⟨response, applied_of_applyEntry (Prod.ext rfl answer)⟩
  | error error => exact .inr (applyEntry_fst_of_error answer)

theorem applyRepair_ok {logId : LogId} {generation : Nat} {certificate : PayloadCertificate}
    (accepted : applyRepair state logId index generation certificate = .ok after) :
    after = { state with repairs := state.repairs.insert index ⟨generation, certificate, logId⟩ } ∧
      ∃ header headerCertificate, state.committed.get index = some header ∧
        header.certificate = some headerCertificate ∧
        certificate.mode = headerCertificate.mode ∧ certificate.k = headerCertificate.k ∧
        certificate.m = headerCertificate.m ∧ header.configurationGeneration < generation ∧
        ∀ existing ∈ state.repairs.get index, existing.configurationGeneration < generation := by
  unfold applyRepair at accepted
  split at accepted
  · cases accepted
  rename_i header known
  split at accepted
  · cases accepted
  rename_i headerCertificate staged
  split at accepted
  · cases accepted
  rename_i admitted
  cases accepted
  simp only [not_or, not_not, not_le, Option.any_eq_true, not_exists, not_and,
    decide_eq_true_eq] at admitted
  obtain ⟨mode, k, m, _, generation_lt, later⟩ := admitted
  exact ⟨rfl, header, headerCertificate, known, staged, mode, k, m, generation_lt,
    fun existing member => later existing member⟩

theorem mem_compacted_iff {covered : Nat → EntryHeader → Bool} :
    index ∈ (state.committed.entries.filter fun entry => covered entry.1 entry.2).map Prod.fst ↔
      ∃ header, state.committed.get index = some header ∧ covered index header := by
  simp only [List.mem_map, List.mem_filter, Prod.exists, exists_and_right, exists_eq_right,
    OrderedMap.get_eq_some_iff]

@[simp] theorem entries_committed_pruneHeaders (state : StateMachineData)
    (covered : Nat → EntryHeader → Bool) :
    (pruneHeaders state covered).committed.entries =
      state.committed.entries.filter fun entry => !covered entry.1 entry.2 := by
  simp only [pruneHeaders, OrderedMap.entries_retain]
  apply List.filter_congr
  intro entry member
  have known := OrderedMap.get_eq_some_of_mem member
  simp only [mem_compacted_iff, known, Option.some.injEq, exists_eq_left', decide_not]
  cases covered entry.1 entry.2 <;> simp

end Verglas.Consensus
