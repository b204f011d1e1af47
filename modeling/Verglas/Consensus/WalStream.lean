import Verglas.Consensus.History
import Verglas.Lib.Splice

/-!
# The WAL stream of a log

The committed WAL payloads of a log, in commit order, are one byte stream that starts at the first
LSN of the timeline.  A replica retains a suffix of the appends and every archive checkpoint; this
file relates what it retains to the stream.
-/

namespace Verglas.Consensus

open List Option

/-- What a reading finds among all headers that the log recorded, in commit order. -/
def recorded {γ : Type*} (reading : Nat × EntryHeader → Option γ) (log : List Entry) : List γ :=
  (history log).filterMap reading

/-- WAL appends that the log recorded. -/
def recordedBlocks (log : List Entry) : List WalBlock := recorded walBlock log

/-- First LSN of the timeline. -/
def streamStart (log : List Entry) : Nat := (recorded walStart log).head?.getD 0

/-- The concatenation of all committed WAL payloads, given the committed body at each index. -/
def walStream (log : List Entry) (bodies : Nat → Bytes) : Bytes :=
  (recordedBlocks log).flatMap fun block => bodies block.index

/-- A replica retains a suffix of the recorded appends and all openings and archive checkpoints; the
recorded appends are contiguous from the first LSN to the tail. -/
structure WalHistory (log : List Entry) (state : StateMachineData) : Prop where
  closed : state.walInitialized = false → recordedBlocks log = []
  starts : retained walStart state = recorded walStart log
  segments : archiveSegments state = recorded archiveSegment log
  blocks : walBlocks state <:+ recordedBlocks log
  tiled : Contiguous WalBlock.start WalBlock.stop (streamStart log) (recordedBlocks log)
    state.walEnd

namespace WalHistory

variable {log : List Entry} {state before after : StateMachineData}

theorem empty : WalHistory [] {} where
  closed _ := rfl
  starts := rfl
  segments := rfl
  blocks := suffix_refl _
  tiled := .nil 0

/-- The facts depend on the recorded history, the readings and the watermarks only, and the
retained appends may shrink from the front. -/
theorem of_readings (facts : WalHistory log before) {longer : List Entry}
    (same_history : history longer = history log)
    (starts : retained walStart after = retained walStart before)
    (segments : archiveSegments after = archiveSegments before)
    (blocks : walBlocks after <:+ walBlocks before)
    (initialized : after.walInitialized = before.walInitialized)
    (tail : after.walEnd = before.walEnd) : WalHistory longer after := by
  have recorded_eq : ∀ {γ : Type} (reading : Nat × EntryHeader → Option γ),
      recorded reading longer = recorded reading log := by
    intro γ reading
    rw [recorded, recorded, same_history]
  constructor
  · rw [initialized, recordedBlocks, recorded_eq]
    exact facts.closed
  · rw [starts, recorded_eq]
    exact facts.starts
  · rw [segments, recorded_eq]
    exact facts.segments
  · rw [recordedBlocks, recorded_eq]
    exact blocks.trans facts.blocks
  · rw [streamStart, recordedBlocks, recorded_eq, recorded_eq, tail]
    exact facts.tiled

theorem buildSnapshot (facts : WalHistory log state) :
    WalHistory log (buildSnapshot state).1 := by
  simp only [Consensus.buildSnapshot, compactCheckpointedCatalogHistory]
  split
  · exact facts
  refine facts.of_readings rfl
    (retained_pruneHeaders fun entry selected => (catalogCovered_ignored selected).2.2)
    (retained_pruneHeaders fun entry selected => (catalogCovered_ignored selected).2.1) ?_ rfl rfl
  rw [walBlocks, retained_pruneHeaders fun entry covered => (catalogCovered_ignored covered).1]
  exact suffix_refl _

theorem release (facts : WalHistory log state) (throughLsn : Nat) :
    WalHistory log (compactCheckpointedWalHistory state throughLsn) := by
  refine facts.of_readings rfl
    (retained_pruneHeaders fun entry selected => (walCovered_ignored selected).2)
    (retained_pruneHeaders fun entry selected => (walCovered_ignored selected).1) ?_ rfl rfl
  obtain ⟨front, whole⟩ := facts.blocks
  have run := facts.tiled
  rw [← whole] at run
  obtain ⟨_, _, retained_run⟩ := run.split_append
  obtain ⟨dropped, split_eq, _⟩ := retained_run.filter_eq_back throughLsn
  rw [walBlocks_compactCheckpointedWalHistory]
  exact ⟨dropped, split_eq.symm⟩

variable {entry : Entry}

theorem record {effect : MetadataEffect} {header : EntryHeader} (facts : WalHistory log before)
    (tiled : WalTiled before)
    (history_eq : history (log ++ [entry]) = history log ++ [(entry.logId.index, header)])
    (below : ∀ found ∈ before.committed.entries, found.1 < entry.logId.index)
    (fenced : epochValid before header = true) (frame : MetadataFrame before effect.state)
    (moved : WalEffect before header effect.state) :
    WalHistory (log ++ [entry]) (recordCommit effect entry.logId header) := by
  have recorded_eq : ∀ {γ : Type} (reading : Nat × EntryHeader → Option γ),
      recorded reading (log ++ [entry]) =
        recorded reading log ++ (reading (entry.logId.index, header)).toList := by
    intro γ reading
    rw [recorded, history_eq, filterMap_append]
    cases found : reading (entry.logId.index, header) <;> simp [recorded, found]
  have retained_eq : ∀ {γ : Type} (reading : Nat × EntryHeader → Option γ),
      retained reading (recordCommit effect entry.logId header) =
        retained reading before ++ (reading (entry.logId.index, header)).toList :=
    fun reading => retained_recordCommit frame.committed below
  have starts : retained walStart (recordCommit effect entry.logId header) =
      recorded walStart (log ++ [entry]) := by
    rw [retained_eq, recorded_eq, facts.starts]
  have segments : archiveSegments (recordCommit effect entry.logId header) =
      recorded archiveSegment (log ++ [entry]) := by
    rw [archiveSegments, retained_eq, recorded_eq, ← facts.segments]
    rfl
  have blocks : walBlocks (recordCommit effect entry.logId header) <:+
      recordedBlocks (log ++ [entry]) := by
    obtain ⟨front, whole⟩ := facts.blocks
    refine ⟨front, ?_⟩
    rw [walBlocks, retained_eq, recordedBlocks, recorded_eq, ← append_assoc]
    exact congrArg (· ++ _) whole
  have start_same : (∀ start, header.metadata = .walStart start → before.walInitialized = true) →
      streamStart (log ++ [entry]) = streamStart log := by
    intro reopened
    have kept := @WalTiled.timelineStart_recordCommit _ effect entry.logId header tiled
      frame.committed below reopened
    simp only [timelineStart, starts, facts.starts] at kept
    rw [streamStart, kept, streamStart]
  have recordedBlocks_eq : recordedBlocks (log ++ [entry]) =
      recordedBlocks log ++ (walBlock (entry.logId.index, header)).toList := recorded_eq walBlock
  refine ⟨?_, starts, segments, blocks, ?_⟩
  · intro closed
    rw [recordCommit_walInitialized] at closed
    have closed_before : before.walInitialized = false := by
      generalize effect.state = next at moved closed
      cases moved with
      | idle _ _ _ initialized => rw [← initialized, closed]
      | opened => cases closed
      | appended | archived => exact closed
    have no_block : walBlock (entry.logId.index, header) = none := by
      rw [eq_none_iff_forall_ne_some]
      intro block found
      obtain ⟨equal, metadata⟩ := walBlock_eq_some.mp found
      have header_eq : header = block.header := congrArg Prod.snd equal
      rw [← header_eq] at metadata
      rw [tiled.open_of_wal fenced metadata] at closed_before
      cases closed_before
    rw [recordedBlocks_eq, facts.closed closed_before, no_block]
    rfl
  · rw [recordCommit_walEnd, recordedBlocks_eq]
    generalize effect.state = next at moved
    cases moved with
    | idle not_wal _ not_opened _ tail =>
      have no_block : walBlock (entry.logId.index, header) = none := by
        cases metadata : header.metadata <;> simp_all [walBlock]
      rw [no_block, toList_none, append_nil, tail,
        start_same fun start opened => (not_opened start opened).1]
      exact facts.tiled
    | opened start metadata closed =>
      have first : streamStart (log ++ [entry]) = start := by
        have none_before : recorded walStart log = [] := by
          rw [← facts.starts, ← head?_eq_none_iff, ← not_isSome_iff_eq_none]
          exact Bool.eq_false_iff.mp (tiled.started.trans closed)
        rw [streamStart, recorded_eq, none_before]
        simp [walStart, metadata]
      rw [facts.closed closed, first]
      simp only [walBlock, metadata, toList_none, append_nil]
      exact .nil start
    | appended stop metadata =>
      have ordered : before.walEnd ≤ stop := by
        have fits := header.fits
        rw [metadata] at fits
        exact fits.2.1
      rw [start_same (by simp [metadata])]
      simp only [walBlock, metadata, toList_some]
      exact facts.tiled.concat rfl ordered
    | archived segment metadata starts within =>
      rw [start_same (by simp [metadata])]
      simp only [walBlock, metadata, toList_none, append_nil]
      exact facts.tiled

theorem applied {response : RaftResponse} (facts : WalHistory log before)
    (replica : ReplicaAt log before)
    (increasing : ∀ last ∈ before.lastApplied, last.index < entry.logId.index)
    (step : applyEntry before entry = (after, .ok response)) :
    WalHistory (log ++ [entry]) after := by
  have unrecorded : recordedBy before entry = none → history (log ++ [entry]) = history log := by
    intro nothing
    rw [history_concat, ← recordedBy_congr replica.core_eq, nothing, toList_none,
      append_nil]
  have ignored : recordedBy before entry = none →
      WalHistory (log ++ [entry]) { before with lastApplied := some entry.logId } := fun nothing =>
    facts.of_readings (unrecorded nothing) rfl rfl (suffix_refl _) rfl rfl
  cases applied_of_applyEntry step with
  | blank payload => exact ignored (recordedBy_of_not_commit (by simp [payload]))
  | membership membership payload =>
    exact (ignored (recordedBy_of_not_commit (by simp [payload]))).of_readings rfl rfl rfl
      (suffix_refl _) rfl rfl
  | refused header response payload closed known =>
    exact ignored (by rw [recordedBy_of_commit payload step, if_neg closed])
  | recorded header effect payload fresh fenced transition =>
    have here : WalHistory log { before with lastApplied := some entry.logId } :=
      facts.of_readings rfl rfl rfl (suffix_refl _) rfl rfl
    have tiled : WalTiled { before with lastApplied := some entry.logId } :=
      replica.walTiled.of_readings rfl rfl rfl rfl rfl rfl fun _ => rfl
    refine here.record tiled ?_ (below_of_increasing replica.indicesApplied increasing) fenced
      (metadataFrame_of_applyMetadata transition) (walEffect_of_applyMetadata transition)
    rw [history_concat, ← recordedBy_congr replica.core_eq, recordedBy_of_commit payload step]
    rfl
  | repaired index generation certificate after payload accepted =>
    rw [(applyRepair_ok accepted).1]
    exact (ignored (recordedBy_of_not_commit (by simp [payload]))).of_readings rfl rfl rfl
      (suffix_refl _) rfl rfl
  | released throughLsn payload archived =>
    exact (ignored (recordedBy_of_not_commit (by simp [payload]))).release throughLsn

end WalHistory

/-- Every replica retains a suffix of the WAL that its log recorded. -/
theorem ReplicaAt.walHistory {log : List Entry} {state : StateMachineData}
    (replica : ReplicaAt log state) : WalHistory log state := by
  induction replica with
  | empty => exact .empty
  | apply replica increasing step ih => exact ih.applied replica increasing step
  | buildSnapshot _ ih | installSnapshot _ ih => exact ih.buildSnapshot

/-- The bodies with which the headers of a log committed: their lengths and inline copies agree with
the headers, and SHA-256 singles them out. -/
structure CommittedBodies (sha256 : Bytes → Digest) (log : List Entry) (bodies : Nat → Bytes) :
    Prop where
  length : ∀ index header, (index, header) ∈ history log →
    (bodies index).length = header.payloadLen
  inline : ∀ index header, (index, header) ∈ history log →
    ∀ body ∈ header.inlineBody, body = bodies index
  identified : ∀ index header, (index, header) ∈ history log →
    ∀ bytes, sha256 bytes = header.payloadHash → bytes = bodies index

section Stream

variable {sha256 : Bytes → Digest} {log : List Entry} {bodies : Nat → Bytes}
  {state : StateMachineData}

theorem CommittedBodies.sized (committed : CommittedBodies sha256 log bodies) :
    ∀ block ∈ recordedBlocks log, (bodies block.index).length = block.stop - block.start := by
  intro block member
  obtain ⟨entry, recorded, found⟩ := mem_filterMap.mp member
  obtain ⟨rfl, metadata⟩ := walBlock_eq_some.mp found
  have fits := block.header.fits
  rw [metadata] at fits
  rw [committed.length _ _ recorded]
  obtain ⟨_, _, length_eq⟩ := fits
  omega

theorem ReplicaAt.retained_stream (replica : ReplicaAt log state)
    (committed : CommittedBodies sha256 log bodies) :
    ∃ origin ≤ state.archiveLsn, streamStart log ≤ origin ∧
      Contiguous WalBlock.start WalBlock.stop origin (walBlocks state) state.walEnd ∧
      ∀ start stop, origin ≤ start →
        window origin ((walBlocks state).flatMap fun block => bodies block.index) start stop =
          window (streamStart log) (walStream log bodies) start stop := by
  have facts := replica.walHistory
  obtain ⟨front, whole⟩ := facts.blocks
  have run := facts.tiled
  rw [← whole] at run
  obtain ⟨middle, front_run, back_run⟩ := run.split_append
  have sized := committed.sized
  have front_length : (front.flatMap fun block => bodies block.index).length =
      middle - streamStart log := front_run.length_flatMap fun block member =>
    sized block (whole ▸ mem_append_left _ member)
  refine ⟨middle, ?_, front_run.origin_le_limit, back_run, ?_⟩
  · obtain ⟨origin, origin_le, tiled_run⟩ := replica.walTiled.blocks
    rw [back_run.origin_eq tiled_run]
    exact origin_le
  · intro start stop start_ge
    rw [walStream, ← whole, flatMap_append]
    exact (window_append_back _ front_length front_run.origin_le_limit start_ge).symm

end Stream

end Verglas.Consensus
