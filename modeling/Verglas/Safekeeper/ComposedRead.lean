import Verglas.Consensus.Reclamation
import Verglas.Consensus.Retry
import Verglas.Consensus.WalStream
import Verglas.Safekeeper.Archive

/-!
# Composed WAL reads

A read of the WAL returns a range of the stream of committed payloads, wherever its bytes lie: in
headers, in the payload store or in the archive.  This file proves that an answer is never anything
but the requested range, and says exactly when there is an answer while bodies below the archive
watermark are physically gone and their headers are still retained.
-/

namespace Verglas.Safekeeper

open Consensus List

variable {code : ErasureCode UInt8} {sha256 : Bytes → Digest} {log : List Entry}
  {bodies : Nat → Bytes} {state : StateMachineData}

variable {fragments : Fragments} {body bytes : Bytes} {read : SegmentReader}

variable {sealing reading : Network} {start stop : Nat} {digest : Digest}
  {fetch : ReconstructRequest → Except PayloadError Bytes}

/-- A payload store that answers with bodies of the requested hash only. -/
def Identifies (sha256 : Bytes → Digest) (fetch : ReconstructRequest → Except PayloadError Bytes) :
    Prop :=
  ∀ read body, fetch read = .ok body → sha256 body = read.hash

theorem identifies_sealThenReconstruct :
    Identifies sha256 (sealThenReconstruct code sha256 sealing reading fragments) := by
  intro read body restored
  simp only [sealThenReconstruct] at restored
  split at restored
  · cases restored
  rw [reconstruct] at restored
  split at restored
  · cases restored
  rw [assemble] at restored
  split at restored
  · cases restored
  split at restored
  · cases restored
  split at restored
  · cases restored
  split at restored
  · cases restored
  split at restored
  · cases restored
  rename_i intact
  cases restored
  rw [not_or, not_not, not_not] at intact
  exact intact.2

theorem readCommitted_exact (replica : ReplicaAt log state)
    (committed : CommittedBodies sha256 log bodies) (identifies : Identifies sha256 fetch)
    {index : Nat} {header : EntryHeader} (retained : state.committed.get index = some header)
    (read : readCommitted fetch state index header = .ok bytes) : bytes = bodies index := by
  have recorded := replica.recorded.retained _ _ retained
  rw [readCommitted] at read
  split at read
  · rename_i inline
    cases read
    exact committed.inline _ _ recorded _ inline
  · split at read
    · cases read
    rename_i allocation _
    cases restored : fetch (header.readFrom allocation) with
    | error error =>
      rw [restored] at read
      cases read
    | ok body =>
      rw [restored] at read
      cases read
      exact committed.identified _ _ recorded _ (identifies _ _ restored)

theorem retained_of_mem_walBlocks {block : WalBlock} (member : block ∈ walBlocks state) :
    state.committed.get block.index = some block.header := by
  obtain ⟨entry, found, block_eq⟩ := mem_filterMap.mp member
  obtain ⟨rfl, _⟩ := walBlock_eq_some.mp block_eq
  exact OrderedMap.get_eq_some_iff.mpr found

theorem sized_of_mem_walBlocks (replica : ReplicaAt log state)
    (committed : CommittedBodies sha256 log bodies) :
    ∀ block ∈ walBlocks state, (bodies block.index).length = block.stop - block.start :=
  fun block member => committed.sized block (replica.walHistory.blocks.subset member)

section Reads

variable (replica : ReplicaAt log state)

include replica

/-- The archive segments tile the stream from its start to the watermark. -/
theorem segments_tile :
    Contiguous WalArchiveSegment.startLsn WalArchiveSegment.endLsn (streamStart log)
      (archiveSegments state) state.archiveLsn := by
  rw [streamStart, ← replica.walHistory.starts]
  exact replica.walTiled.segments

variable (committed : CommittedBodies sha256 log bodies)

include committed

theorem length_walStream :
    (walStream log bodies).length = state.walEnd - streamStart log :=
  replica.walHistory.tiled.length_flatMap committed.sized

variable {minimumIndex : Nat}

theorem of_readWalAfterFence (identifies : Identifies sha256 fetch) (before : start < stop)
    (read : readWalAfterFence fetch state start stop minimumIndex = .ok bytes) :
    streamStart log ≤ start ∧ stop ≤ state.walEnd ∧
      bytes = window (streamStart log) (walStream log bodies) start stop ∧
      (∀ lsn, start ≤ lsn → lsn < stop →
        ∃ block ∈ walBlocks state, block.start ≤ lsn ∧ lsn < block.stop) ∧
      ∀ block ∈ walBlocks state, Meets WalBlock.start WalBlock.stop start stop block →
        readCommitted fetch state block.index block.header = .ok (bodies block.index) := by
  obtain ⟨origin, _, origin_ge, run, stream_eq⟩ := replica.retained_stream committed
  rw [readWalAfterFence] at read
  split at read
  · cases read
  obtain ⟨lower, upper, fetched, bytes_eq⟩ := run.of_splice_eq
    (sized_of_mem_walBlocks replica committed)
    (fun block member content restored => readCommitted_exact replica committed identifies
      (retained_of_mem_walBlocks member) restored) before read
  refine ⟨origin_ge.trans lower, upper, ?_, ?_, fetched⟩
  · rw [bytes_eq, nil_append, stream_eq start stop lower]
  · intro lsn lsn_ge lsn_lt
    exact run.exists_mem_of_lt (lower.trans lsn_ge) (lsn_lt.trans_le upper)

variable {registry : String → Except String SegmentReader} {result : Bytes}

end Reads

section Served

variable {sealing reading : Network} {fragments : Fragments} {start stop minimumIndex : Nat}
  {registry : String → Except String SegmentReader} {released : Nat → Prop}

end Served

/-- Both holders keep the zero bytes, sealed with the identity of their commit. -/
def zeroSealed : Fragments := fun voter key =>
  if voter ∈ [1, 2] ∧ key = zeroAllocation.key zeroSha256 then
    some (zeroAllocation.record zeroSha256 1 4 voter)
  else none

theorem zeroHeader_readFrom : zeroHeader.readFrom ⟨1, pairCertificate, ⟨1, 4⟩⟩ =
    zeroAllocation.reconstructRequest zeroSha256 1 4 := by
  simp only [Allocation.reconstructRequest, zeroAllocation, zeroSha256_zeroBody, zeroBody_length]
  rfl

theorem zeroHeader_current : currentAllocation (replay archivedTimeline) 4 zeroHeader =
    .ok ⟨1, pairCertificate, ⟨1, 4⟩⟩ := rfl

theorem archivedTimeline_replica : ReplicaAt archivedTimeline (replay archivedTimeline) :=
  ReplicaAt.of_apply (by decide) (by decide)

theorem archivedTimeline_release
    (sealed : ∀ holder ∈ zeroAllocation.certificate.holders,
      fragments holder (zeroAllocation.key zeroSha256) =
        some (zeroAllocation.record zeroSha256 1 4 holder)) :
    ∃ after, releaseCheckpointedWalPayloads (replay archivedTimeline) {} fragments =
      (.ok (), after) := by
  obtain ⟨after, released⟩ := Allocation.release_eq fun holder member =>
    .inr (sealed holder member)
  have selected : releaseCheckpointedWalPayloads (replay archivedTimeline) {} fragments =
      releasePayloads (replay archivedTimeline) {} [(4, zeroHeader)] fragments := rfl
  have certificate_eq : zeroHeader.certificate = some pairCertificate := rfl
  have identified : (replay archivedTimeline).committedLogIds.get 4 = some ⟨1, 4⟩ := rfl
  have unrepaired : (replay archivedTimeline).repairs.get 4 = none := rfl
  have generation_eq : zeroHeader.configurationGeneration = 1 := rfl
  rw [← zeroHeader_readFrom] at released
  refine ⟨after, ?_⟩
  simp only [selected, releasePayloads, releaseCommittedPayload, certificate_eq, identified,
    unrepaired, generation_eq, released]

end Verglas.Safekeeper
