import Verglas.Consensus.Replica
import Verglas.Lib.Contiguous

/-!
# The WAL tiling of a timeline

Three histories describe the WAL of a timeline: the retained WAL headers, the retained archive
checkpoints and the two watermarks.  This file proves that they stay aligned on every replica: the
WAL headers are contiguous up to the tail and reach back at least to the archive watermark, and the
archive segments are contiguous from the first LSN of the timeline to the watermark.
-/

namespace Verglas.Consensus

open List Option

/-- A retained WAL header with the byte range that it appends. -/
structure WalBlock where
  index : Nat
  header : EntryHeader
  start : Nat
  stop : Nat
  deriving DecidableEq

/-- The WAL block of a committed entry. -/
def walBlock (entry : Nat × EntryHeader) : Option WalBlock :=
  match entry.2.metadata with
  | .wal start stop => some ⟨entry.1, entry.2, start, stop⟩
  | _ => none

/-- The archived segment of a committed entry. -/
def archiveSegment (entry : Nat × EntryHeader) : Option WalArchiveSegment :=
  match entry.2.metadata with
  | .archive segment => some segment
  | _ => none

/-- Where a committed entry opens the timeline. -/
def walStart (entry : Nat × EntryHeader) : Option Nat :=
  match entry.2.metadata with
  | .walStart start => some start
  | _ => none

/-- What a reading finds among the retained headers, in index order. -/
def retained {γ : Type*} (reading : Nat × EntryHeader → Option γ) (state : StateMachineData) :
    List γ :=
  state.committed.entries.filterMap reading

def walBlocks (state : StateMachineData) : List WalBlock := retained walBlock state

def archiveSegments (state : StateMachineData) : List WalArchiveSegment :=
  retained archiveSegment state

/-- First LSN of the timeline: the position of the first retained opening. -/
def timelineStart (state : StateMachineData) : Option Nat := (retained walStart state).head?

/-- Retained headers lie at or below the applied position. -/
def IndicesApplied (state : StateMachineData) : Prop :=
  ∀ entry ∈ state.committed.entries, ∃ last ∈ state.lastApplied, entry.1 ≤ last.index

variable {state before after : StateMachineData} {entry : Nat × EntryHeader}

theorem indicesApplied_pruneHeaders (applied : IndicesApplied state)
    (covered : Nat → EntryHeader → Bool) : IndicesApplied (pruneHeaders state covered) := by
  intro entry member
  exact applied entry (mem_of_mem_filter member)

theorem indicesApplied_buildSnapshot (applied : IndicesApplied state) :
    IndicesApplied (buildSnapshot state).1 := by
  simp only [buildSnapshot, compactCheckpointedCatalogHistory]
  split
  · exact applied
  · exact indicesApplied_pruneHeaders applied _

theorem below_of_increasing (applied : IndicesApplied state) {index : Nat}
    (increasing : ∀ last ∈ state.lastApplied, last.index < index) :
    ∀ entry ∈ state.committed.entries, entry.1 < index := by
  intro entry member
  obtain ⟨last, last_eq, le⟩ := applied entry member
  exact le.trans_lt (increasing last last_eq)

variable {response : RaftResponse}

theorem indicesApplied_applied {entry : Entry} (applied : IndicesApplied before)
    (increasing : ∀ last ∈ before.lastApplied, last.index < entry.logId.index)
    (step : Applied before entry after response) : IndicesApplied after := by
  have moved : ∀ state : StateMachineData, state.committed = before.committed →
      state.lastApplied = some entry.logId → IndicesApplied state := by
    intro state committed_eq last_eq found member
    rw [committed_eq] at member
    exact ⟨entry.logId, last_eq, (below_of_increasing applied increasing found member).le⟩
  cases step with
  | blank | membership | refused => exact moved _ rfl rfl
  | recorded header effect payload fresh fenced transition =>
    have frame := metadataFrame_of_applyMetadata transition
    intro found member
    rw [recordCommit_lastApplied, frame.lastApplied]
    rw [recordCommit_committed, frame.committed] at member
    refine ⟨entry.logId, rfl, ?_⟩
    rcases OrderedMap.mem_entries_insert member with rfl | older
    · exact le_rfl
    · exact (below_of_increasing applied increasing found older).le
  | repaired index generation certificate after payload accepted =>
    rw [(applyRepair_ok accepted).1]
    exact moved _ rfl rfl
  | released throughLsn payload archived =>
    exact indicesApplied_pruneHeaders
      (moved { before with lastApplied := some entry.logId } rfl rfl) _

variable {log : List Entry}

theorem ReplicaAt.indicesApplied (replica : ReplicaAt log state) : IndicesApplied state := by
  induction replica with
  | empty => simp [IndicesApplied]
  | apply _ increasing step ih =>
    exact indicesApplied_applied ih increasing (applied_of_applyEntry step)
  | buildSnapshot _ ih | installSnapshot _ ih => exact indicesApplied_buildSnapshot ih

section Retained

variable {γ : Type*} {reading : Nat × EntryHeader → Option γ}

theorem retained_recordCommit {effect : MetadataEffect} {logId : LogId} {header : EntryHeader}
    (committed_eq : effect.state.committed = before.committed)
    (below : ∀ entry ∈ before.committed.entries, entry.1 < logId.index) :
    retained reading (recordCommit effect logId header) =
      retained reading before ++ (reading (logId.index, header)).toList := by
  rw [retained, recordCommit_committed, committed_eq,
    OrderedMap.entries_insert_of_forall_lt below, filterMap_append]
  cases found : reading (logId.index, header) <;> simp [retained, found]

theorem retained_pruneHeaders {covered : Nat → EntryHeader → Bool}
    (ignored : ∀ entry, covered entry.1 entry.2 = true → reading entry = none) :
    retained reading (pruneHeaders state covered) = retained reading state := by
  rw [retained, entries_committed_pruneHeaders, filterMap_filter, retained]
  apply filterMap_congr
  intro entry _
  cases selected : covered entry.1 entry.2 with
  | false => rfl
  | true => simp [ignored entry selected]

end Retained

theorem walBlock_eq_some {block : WalBlock} :
    walBlock entry = some block ↔
      entry = (block.index, block.header) ∧
        block.header.metadata = .wal block.start block.stop := by
  simp only [walBlock]
  constructor
  · intro found
    split at found
    · rename_i metadata
      cases found
      exact ⟨rfl, metadata⟩
    · cases found
  · rintro ⟨equal, metadata⟩
    cases equal
    simp [metadata]

theorem walBlocks_compactCheckpointedWalHistory (state : StateMachineData) (throughLsn : Nat) :
    walBlocks (compactCheckpointedWalHistory state throughLsn) =
      (walBlocks state).filter fun block => throughLsn < block.stop := by
  simp only [walBlocks, retained, compactCheckpointedWalHistory, entries_committed_pruneHeaders,
    filterMap_filter, filter_filterMap]
  apply filterMap_congr
  intro entry _
  cases metadata : entry.2.metadata <;> simp [walBlock, walCovered, metadata, Option.filter]

theorem catalogCovered_ignored {appliedIndex : Nat}
    (covered : catalogCovered appliedIndex entry.1 entry.2 = true) :
    walBlock entry = none ∧ archiveSegment entry = none ∧ walStart entry = none := by
  have kind : entry.2.kind = .catalog := by
    simp only [catalogCovered, decide_eq_true_eq] at covered
    exact covered.2
  have fits := entry.2.fits
  cases metadata : entry.2.metadata <;>
    simp_all [EntryMetadata.Fits, walBlock, archiveSegment, walStart]

theorem walCovered_ignored {throughLsn : Nat}
    (covered : walCovered throughLsn entry.1 entry.2 = true) :
    archiveSegment entry = none ∧ walStart entry = none := by
  cases metadata : entry.2.metadata <;>
    simp_all [walCovered, archiveSegment, walStart]

/-- Alignment of the WAL headers, the archive checkpoints and the watermarks. -/
structure WalTiled (state : StateMachineData) : Prop where
  /-- Nothing is appended or archived before the timeline opens. -/
  closed : state.walInitialized = false → state.writerActive = false ∧ state.walEnd = 0 ∧
    state.archiveLsn = 0 ∧ walBlocks state = [] ∧ archiveSegments state = []
  archived_le : state.archiveLsn ≤ state.walEnd
  /-- Retained WAL headers run up to the tail from some position at or below the watermark. -/
  blocks : ∃ origin ≤ state.archiveLsn,
    Contiguous WalBlock.start WalBlock.stop origin (walBlocks state) state.walEnd
  started : (timelineStart state).isSome = state.walInitialized
  /-- Archive segments run from the first LSN to the watermark. -/
  segments : Contiguous WalArchiveSegment.startLsn WalArchiveSegment.endLsn
    ((timelineStart state).getD 0) (archiveSegments state) state.archiveLsn

theorem walTiled_empty : WalTiled {} where
  closed _ := ⟨rfl, rfl, rfl, rfl, rfl⟩
  archived_le := le_rfl
  blocks := ⟨0, le_rfl, .nil 0⟩
  started := rfl
  segments := .nil 0

/-- The alignment depends on the readings and the watermarks only. -/
theorem WalTiled.of_readings (tiled : WalTiled before)
    (blocks_eq : walBlocks after = walBlocks before)
    (segments_eq : archiveSegments after = archiveSegments before)
    (start_eq : timelineStart after = timelineStart before)
    (walInitialized : after.walInitialized = before.walInitialized)
    (walEnd : after.walEnd = before.walEnd) (archiveLsn : after.archiveLsn = before.archiveLsn)
    (writerActive : after.walInitialized = false → after.writerActive = before.writerActive) :
    WalTiled after := by
  constructor
  · intro closed
    rw [writerActive closed, walEnd, archiveLsn, blocks_eq, segments_eq]
    exact tiled.closed (walInitialized ▸ closed)
  · rw [walEnd, archiveLsn]
    exact tiled.archived_le
  · rw [walEnd, archiveLsn, blocks_eq]
    exact tiled.blocks
  · rw [walInitialized, start_eq]
    exact tiled.started
  · rw [archiveLsn, start_eq, segments_eq]
    exact tiled.segments

theorem WalTiled.release (tiled : WalTiled state) {throughLsn : Nat}
    (archived : throughLsn ≤ state.archiveLsn) :
    WalTiled (compactCheckpointedWalHistory state throughLsn) := by
  have segments_eq : archiveSegments (compactCheckpointedWalHistory state throughLsn) =
      archiveSegments state :=
    retained_pruneHeaders fun entry selected => (walCovered_ignored selected).1
  have start_eq : timelineStart (compactCheckpointedWalHistory state throughLsn) =
      timelineStart state :=
    congrArg head? (retained_pruneHeaders fun entry selected => (walCovered_ignored selected).2)
  have blocks_eq := walBlocks_compactCheckpointedWalHistory state throughLsn
  constructor
  · intro closed
    obtain ⟨inactive, end_eq, archive_eq, no_blocks, no_segments⟩ := tiled.closed closed
    rw [blocks_eq, no_blocks, segments_eq]
    exact ⟨inactive, end_eq, archive_eq, rfl, no_segments⟩
  · exact tiled.archived_le
  · obtain ⟨origin, origin_le, run⟩ := tiled.blocks
    obtain ⟨middle, middle_le, rest⟩ := run.filter_lt throughLsn
    rw [blocks_eq]
    exact ⟨middle, middle_le.trans (max_le origin_le archived), rest⟩
  · rw [start_eq]
    exact tiled.started
  · rw [start_eq, segments_eq]
    exact tiled.segments

section Record

variable {before : StateMachineData} {effect : MetadataEffect} {logId : LogId}
  {header : EntryHeader}

theorem WalTiled.timelineStart_recordCommit (tiled : WalTiled before)
    (committed_eq : effect.state.committed = before.committed)
    (below : ∀ entry ∈ before.committed.entries, entry.1 < logId.index)
    (reopened : ∀ start, header.metadata = .walStart start → before.walInitialized = true) :
    timelineStart (recordCommit effect logId header) = timelineStart before := by
  have started := tiled.started
  simp only [timelineStart] at started ⊢
  rw [retained_recordCommit committed_eq below]
  cases starts : retained walStart before with
  | cons start rest => rfl
  | nil =>
    have no_start : walStart (logId.index, header) = none := by
      cases metadata : header.metadata <;> simp_all [walStart]
    rw [no_start]
    rfl

theorem WalTiled.open_of_wal (tiled : WalTiled before)
    (fenced : epochValid before header = true) {start stop : Nat}
    (metadata : header.metadata = .wal start stop) : before.walInitialized = true := by
  by_contra closed
  have inactive := (tiled.closed (by simpa using closed)).1
  have kind : header.kind = .wal := by
    have fits := header.fits
    rw [metadata] at fits
    exact fits.1
  simp [epochValid, kind, inactive] at fenced

theorem WalTiled.record (tiled : WalTiled before)
    (below : ∀ entry ∈ before.committed.entries, entry.1 < logId.index)
    (fenced : epochValid before header = true)
    (frame : MetadataFrame before effect.state)
    (moved : WalEffect before header effect.state) :
    WalTiled (recordCommit effect logId header) := by
  have blocks_eq : walBlocks (recordCommit effect logId header) =
      walBlocks before ++ (walBlock (logId.index, header)).toList :=
    retained_recordCommit frame.committed below
  have segments_eq : archiveSegments (recordCommit effect logId header) =
      archiveSegments before ++ (archiveSegment (logId.index, header)).toList :=
    retained_recordCommit frame.committed below
  have start_eq := @WalTiled.timelineStart_recordCommit _ _ logId header tiled frame.committed below
  generalize after_eq : effect.state = after at moved
  cases moved with
  | idle not_wal not_archive not_opened initialized_eq end_eq archive_eq =>
    have no_block : walBlock (logId.index, header) = none := by
      cases metadata : header.metadata <;> simp_all [walBlock]
    have no_segment : archiveSegment (logId.index, header) = none := by
      cases metadata : header.metadata <;> simp_all [archiveSegment]
    rw [no_block, toList_none, append_nil] at blocks_eq
    rw [no_segment, toList_none, append_nil] at segments_eq
    have start_same := start_eq fun start opened => (not_opened start opened).1
    refine tiled.of_readings blocks_eq segments_eq start_same (by simp [after_eq, initialized_eq])
      (by simp [after_eq, end_eq]) (by simp [after_eq, archive_eq]) ?_
    intro closed
    rw [recordCommit_walInitialized, after_eq, initialized_eq] at closed
    rw [(tiled.closed closed).1, Bool.eq_false_iff]
    intro active
    rcases recordCommit_writerActive effect logId header active with lease | active
    · simp [epochValid, lease, closed] at fenced
    · simp [frame.writerActive, (tiled.closed closed).1] at active
  | opened start metadata closed =>
    obtain ⟨_, _, _, no_blocks, no_segments⟩ := tiled.closed closed
    have first : timelineStart (recordCommit effect logId header) = some start := by
      have none_before : retained walStart before = [] := by
        rw [← head?_eq_none_iff, ← not_isSome_iff_eq_none]
        exact Bool.eq_false_iff.mp (tiled.started.trans closed)
      rw [timelineStart, retained_recordCommit frame.committed below, none_before]
      simp [walStart, metadata]
    rw [no_blocks] at blocks_eq
    rw [no_segments] at segments_eq
    simp only [walBlock, archiveSegment, metadata, toList_none, append_nil]
      at blocks_eq segments_eq
    constructor
    · simp [after_eq]
    · simp [after_eq]
    · rw [blocks_eq, recordCommit_walEnd, recordCommit_archiveLsn, after_eq]
      exact ⟨start, le_rfl, .nil start⟩
    · simp [first, after_eq]
    · rw [first, segments_eq, recordCommit_archiveLsn, after_eq]
      exact .nil start
  | appended stop metadata =>
    have opened := tiled.open_of_wal fenced metadata
    have start_same := start_eq fun _ _ => opened
    have ordered : before.walEnd ≤ stop := by
      have fits := header.fits
      rw [metadata] at fits
      exact fits.2.1
    simp only [walBlock, archiveSegment, metadata, toList_none, toList_some,
      append_nil] at blocks_eq segments_eq
    constructor
    · simp [after_eq, opened]
    · simp only [recordCommit_archiveLsn, recordCommit_walEnd, after_eq]
      exact tiled.archived_le.trans ordered
    · obtain ⟨origin, origin_le, run⟩ := tiled.blocks
      rw [blocks_eq, recordCommit_walEnd, recordCommit_archiveLsn, after_eq]
      exact ⟨origin, origin_le, run.concat rfl ordered⟩
    · rw [start_same, recordCommit_walInitialized, after_eq]
      exact tiled.started
    · rw [start_same, segments_eq, recordCommit_archiveLsn, after_eq]
      exact tiled.segments
  | archived segment metadata starts within =>
    have proper := segment.start_lt_end
    have opened : before.walInitialized = true := by
      by_contra closed
      have end_eq := (tiled.closed (by simpa using closed)).2.1
      omega
    have start_same := start_eq fun _ _ => opened
    simp only [walBlock, archiveSegment, metadata, toList_none, toList_some,
      append_nil] at blocks_eq segments_eq
    constructor
    · simp [after_eq, opened]
    · simp only [recordCommit_archiveLsn, recordCommit_walEnd, after_eq]
      exact within
    · obtain ⟨origin, origin_le, run⟩ := tiled.blocks
      rw [blocks_eq, recordCommit_walEnd, recordCommit_archiveLsn, after_eq]
      exact ⟨origin, origin_le.trans (starts ▸ proper.le), run⟩
    · rw [start_same, recordCommit_walInitialized, after_eq]
      exact tiled.started
    · rw [start_same, segments_eq, recordCommit_archiveLsn, after_eq]
      exact tiled.segments.concat starts proper.le

end Record

theorem WalTiled.applied {entry : Entry} (tiled : WalTiled before) (applied : IndicesApplied before)
    (increasing : ∀ last ∈ before.lastApplied, last.index < entry.logId.index)
    (step : Applied before entry after response) : WalTiled after := by
  have here : WalTiled { before with lastApplied := some entry.logId } :=
    tiled.of_readings rfl rfl rfl rfl rfl rfl fun _ => rfl
  cases step with
  | blank | refused => exact here
  | membership => exact tiled.of_readings rfl rfl rfl rfl rfl rfl fun _ => rfl
  | recorded header effect payload fresh fenced transition =>
    exact here.record (below_of_increasing applied increasing) fenced
      (metadataFrame_of_applyMetadata transition) (walEffect_of_applyMetadata transition)
  | repaired index generation certificate after payload accepted =>
    rw [(applyRepair_ok accepted).1]
    exact tiled.of_readings rfl rfl rfl rfl rfl rfl fun _ => rfl
  | released throughLsn payload archived => exact here.release archived

theorem WalTiled.buildSnapshot (tiled : WalTiled state) : WalTiled (buildSnapshot state).1 := by
  simp only [Consensus.buildSnapshot, compactCheckpointedCatalogHistory]
  split
  · exact tiled
  exact tiled.of_readings
    (retained_pruneHeaders fun entry selected => (catalogCovered_ignored selected).1)
    (retained_pruneHeaders fun entry selected => (catalogCovered_ignored selected).2.1)
    (congrArg head?
      (retained_pruneHeaders fun entry selected => (catalogCovered_ignored selected).2.2))
    rfl rfl rfl fun _ => rfl

/-- Every replica keeps its WAL history aligned with its watermarks. -/
theorem ReplicaAt.walTiled (replica : ReplicaAt log state) : WalTiled state := by
  induction replica with
  | empty => exact walTiled_empty
  | apply replica increasing step ih =>
    exact ih.applied replica.indicesApplied increasing (applied_of_applyEntry step)
  | buildSnapshot _ ih | installSnapshot _ ih => exact ih.buildSnapshot

theorem foldlM_scanArchive {entries : List (Nat × EntryHeader)} {origin limit : Nat}
    (run : Contiguous WalArchiveSegment.startLsn WalArchiveSegment.endLsn origin
      (entries.filterMap archiveSegment) limit)
    {cursor : Option Nat} (cursor_eq : cursor = none ∨ cursor = some origin)
    (found : List WalArchiveSegment) :
    ∃ final, (entries.map Prod.snd).foldlM scanArchive (cursor, found) =
        .ok (final, found ++ entries.filterMap archiveSegment) ∧
      (final = none ∨ final = some limit) := by
  induction entries generalizing origin cursor found with
  | nil =>
    cases run
    exact ⟨cursor, by simp [pure, Except.pure], cursor_eq⟩
  | cons entry rest ih =>
    simp only [map_cons, foldlM_cons]
    cases reading : archiveSegment entry with
    | none =>
      rw [filterMap_cons_none reading] at run ⊢
      have skipped : scanArchive (cursor, found) entry.2 = .ok (cursor, found) := by
        simp only [archiveSegment] at reading
        split at reading
        · cases reading
        · simp only [scanArchive]
      rw [skipped]
      exact ih run cursor_eq found
    | some segment =>
      rw [filterMap_cons_some reading] at run ⊢
      have metadata : entry.2.metadata = .archive segment := by
        simp only [archiveSegment] at reading
        split at reading
        · cases reading
          assumption
        · cases reading
      cases run with
      | cons starts ordered following =>
        have scanned : scanArchive (cursor, found) entry.2 =
            .ok (some segment.endLsn, found ++ [segment]) := by
          rcases cursor_eq with rfl | rfl <;> simp [scanArchive, metadata, starts]
        obtain ⟨final, result, final_eq⟩ := ih following (.inr rfl) (found ++ [segment])
        rw [append_assoc, singleton_append] at result
        refine ⟨final, ?_, final_eq⟩
        rw [scanned]
        exact result

theorem WalTiled.archivedWalSegments_eq (tiled : WalTiled state) :
    archivedWalSegments state state.archiveLsn = .ok (archiveSegments state) := by
  obtain ⟨final, scan, final_eq⟩ := foldlM_scanArchive tiled.segments (.inl rfl) []
  have covered : final.all (· = state.archiveLsn) := by
    rcases final_eq with rfl | rfl <;> simp
  simp only [archivedWalSegments, OrderedMap.values, ne_eq, not_true_eq_false, if_false]
  rw [scan]
  simp [bind, Except.bind, covered, archiveSegments, retained]

/-- On every replica the archive watermark stays within the WAL; the retained WAL headers are
contiguous and cover the bytes from the watermark to the tail; the retained archive segments tile
exactly the interval from the first LSN of the timeline to the watermark, and the archive scan
finds them. -/
theorem replica_wal_tiling (replica : ReplicaAt log state) :
    (state.walInitialized = true → state.archiveLsn ≤ state.walEnd) ∧
      ((walBlocks state).IsChain fun left right => right.start = left.stop) ∧
      (∀ lsn, state.archiveLsn ≤ lsn → lsn < state.walEnd →
        ∃ block ∈ walBlocks state, block.start ≤ lsn ∧ lsn < block.stop) ∧
      (state.walInitialized = true → ∃ start, timelineStart state = some start ∧
        Contiguous WalArchiveSegment.startLsn WalArchiveSegment.endLsn start
          (archiveSegments state) state.archiveLsn) ∧
      (state.walInitialized = false → archiveSegments state = []) ∧
      archivedWalSegments state state.archiveLsn = .ok (archiveSegments state) := by
  have tiled := replica.walTiled
  obtain ⟨origin, origin_le, run⟩ := tiled.blocks
  refine ⟨fun _ => tiled.archived_le, run.isChain, ?_, ?_, ?_, tiled.archivedWalSegments_eq⟩
  · intro lsn lower upper
    exact run.exists_mem_of_lt (origin_le.trans lower) upper
  · intro opened
    obtain ⟨start, start_eq⟩ := isSome_iff_exists.mp (tiled.started.trans opened)
    have segments := tiled.segments
    rw [start_eq] at segments
    exact ⟨start, start_eq, segments⟩
  · intro closed
    exact (tiled.closed closed).2.2.2.2

theorem inline_one_body (body : Bytes) :
    (none : Option PayloadCertificate).isSome = !(some body).isSome := rfl

theorem inline_length (body : Bytes) : ∀ bytes ∈ some body, bytes.length = body.length := by
  simp

/-- A header that carries its body. -/
def inlineHeader (group : String) (request : RequestId) (kind : CommandKind) (epoch : Option Nat)
    (body : Bytes) (hash : String) (metadata : EntryMetadata)
    (fits : metadata.Fits kind body.length) (named : group ≠ "") : EntryHeader where
  group := group
  configurationGeneration := 1
  kind := kind
  request := request
  payloadLen := body.length
  payloadHash := digestOfHex hash
  writerEpoch := epoch
  certificate := none
  inlineBody := some body
  metadata := metadata
  group_ne_empty := named
  one_body := inline_one_body body
  inline_length := inline_length body
  fits := fits

/-- The entry at an index that commits a header with its body; the index names the request. -/
def inlineEntry (group : String) (index : Nat) (kind : CommandKind) (epoch : Option Nat)
    (body : Bytes) (hash : String) (metadata : EntryMetadata)
    (fits : metadata.Fits kind body.length) (named : group ≠ "") : Entry :=
  ⟨⟨1, index⟩,
    .normal (.commit (inlineHeader group index kind epoch body hash metadata fits named))⟩

/-- The archive object of the first four bytes of the short timeline. -/
def shortSegment : WalArchiveSegment where
  startLsn := 0
  endLsn := 4
  key := "timeline/0000000000000000-0000000000000004-" ++
    "9f64a747e1b97f131fabb6b447296c9b6f0201e79fb3c5356e6c77e89b6a806a"
  hash := digestOfHex "9f64a747e1b97f131fabb6b447296c9b6f0201e79fb3c5356e6c77e89b6a806a"
  canonical := by decide

theorem timeline_ne_empty : "timeline" ≠ "" := by decide

theorem lease_fits : EntryMetadata.none.Fits .writerLease ([] : Bytes).length := by decide

theorem append_fits : (EntryMetadata.wal 4 8).Fits .wal ([5, 6, 7, 8] : Bytes).length := by decide

/-- Eight bytes of WAL in two appends; the first is archived and released. -/
def shortTimeline : List Entry :=
  [ inlineEntry "timeline" 1 .walArchiveBinding none (asBytes "archive")
      "0eb3e36bfb24dcd9bb1d1bece1531216b59539a8fde17ee80224af0653c92aa3"
      (.walArchiveBinding "archive") (by decide) (by decide),
    inlineEntry "timeline" 2 .timelineOpen none []
      "e3b0c44298fc1c149afbf4c8996fb92427ae41e4649b934ca495991b7852b855"
      (.walStart 0) (by decide) (by decide),
    inlineEntry "timeline" 3 .writerLease (some 1) []
      "e3b0c44298fc1c149afbf4c8996fb92427ae41e4649b934ca495991b7852b855"
      .none (by decide) (by decide),
    inlineEntry "timeline" 4 .wal (some 1) [1, 2, 3, 4]
      "9f64a747e1b97f131fabb6b447296c9b6f0201e79fb3c5356e6c77e89b6a806a"
      (.wal 0 4) (by decide) (by decide),
    inlineEntry "timeline" 5 .archiveCheckpoint none (asBytes shortSegment.key)
      "10836f2f3046e571215fca962c73dcd12d7665c66229c639f7c351947c50683f"
      (.archive shortSegment) (by decide) (by decide),
    ⟨⟨1, 6⟩, .normal (.releaseWal 4)⟩,
    inlineEntry "timeline" 7 .wal (some 1) [5, 6, 7, 8]
      "55e5509f8052998294266ee5b50cb592938191fb5d67f73cac2e60b0276b1bdd"
      (.wal 4 8) (by decide) (by decide) ]

theorem shortTimeline_replica : ReplicaAt shortTimeline (replay shortTimeline) :=
  ReplicaAt.of_apply (by decide) (by decide)

theorem replica_wal_tiling_short :
    (replay shortTimeline).archiveLsn = 4 ∧ (replay shortTimeline).walEnd = 8 ∧
      (walBlocks (replay shortTimeline)).map WalBlock.index = [7] ∧
      ∀ lsn, (replay shortTimeline).archiveLsn ≤ lsn → lsn < (replay shortTimeline).walEnd →
        ∃ block ∈ walBlocks (replay shortTimeline), block.start ≤ lsn ∧ lsn < block.stop :=
  ⟨by decide, by decide, by decide, (replica_wal_tiling shortTimeline_replica).2.2.1⟩

end Verglas.Consensus
