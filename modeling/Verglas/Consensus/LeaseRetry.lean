import Verglas.Consensus.Retry

/-!
# Retries of a writer acquisition

`acquire_writer` takes the epoch of its command from the local state on every call, and the identity
of a request binds that epoch.  A retry whose local state has applied the lease asks for the epoch
after it and is refused as a conflict; the simulated and the durable group answer the same retry
from the epoch that they recorded.
-/

namespace Verglas.Consensus

open ConsensusGroup

variable {code : ErasureCode UInt8} {sha256 : Bytes → Digest}

namespace Submission

theorem acquireWriter_carries {earlier later : ConsensusGroup} (same_group : later.group =
    earlier.group) {request : RequestId} {writer : String} {first second : StateMachineData}
    {header retried : EntryHeader}
    (carries : earlier.Carries sha256 (.acquireWriter request first writer) header)
    (carries_again : later.Carries sha256 (.acquireWriter request second writer) retried)
    {identity : AppliedIdentity} (same : identity.Matches header) :
    identity.Matches retried ↔ second.writerEpoch = first.writerEpoch := by
  have epoch_is : identity.writerEpoch = some (first.writerEpoch + 1) := by
    rw [same.writerEpoch, carries.writerEpoch]
    rfl
  have retried_epoch : retried.writerEpoch = some (second.writerEpoch + 1) := by
    rw [carries_again.writerEpoch]
    rfl
  constructor
  · intro matching
    have epochs := matching.writerEpoch
    rw [epoch_is, retried_epoch] at epochs
    exact (Nat.succ.inj (Option.some.inj epochs)).symm
  · intro epochs
    exact ⟨by rw [same.group, carries.group, carries_again.group, same_group],
        by rw [same.kind, carries.kind, carries_again.kind]; rfl,
        by rw [same.hash, carries.hash, carries_again.hash]; rfl,
        by rw [epoch_is, retried_epoch, epochs]⟩

end Submission

/-- The lease of a committed acquisition is returned to its retry if and only if the local state of
the retry still has the epoch before the lease, and the writer's name travels inside the header or
the replica that answers retains it; from any other epoch the retry is a conflict. -/
theorem lease_retry_iff {log : List Entry} (proper : Proper log) {earlier later : ConsensusGroup}
    (same_group : later.group = earlier.group) {request : RequestId} {writer : String}
    {firstLocal retryLocal : StateMachineData} {completion : List Nat} {network : Network}
    {before stored fragments : Fragments} {header : EntryHeader} {staged : Option StagedPayload}
    (prepared : earlier.prepareHeader code sha256 (.acquireWriter request firstLocal writer)
      completion network before = (.ok (header, staged), stored))
    {position : Nat} {logId : LogId} {lease : RaftResponse}
    (logged : log[position]? = some ⟨logId, .normal (.commit header)⟩)
    (leased : (applyEntry (replay (log.take position)) ⟨logId, .normal (.commit header)⟩).2 =
      .ok lease)
    (committed : lease.outcome = .committed) {retry : WriteEnvironment} {retryPosition : Nat}
    (ordered : position < retryPosition)
    (retry_commits : CommitsAt code sha256 log retryPosition later
      (.acquireWriter request retryLocal writer) retry fragments)
    {length : Nat} (applied : ReplicaAt (log.take length) retry.applied)
    (healthy : Healthy code sha256 later (.acquireWriter request retryLocal writer) retry
      fragments) :
    ((∃ answer, (later.commitHeader code sha256 (.acquireWriter request retryLocal writer) retry
        fragments).1 = .ok answer ∧ answer.outcome = .duplicate ∧ answer.index = lease.index ∧
        answer.writerEpoch = some (firstLocal.writerEpoch + 1)) ↔
      retryLocal.writerEpoch = firstLocal.writerEpoch ∧
        ((asBytes writer).length ≤ inlinePayloadThresholdBytes ∨
          (retry.applied.committedLogIds.get lease.index).isSome)) ∧
    (retryLocal.writerEpoch ≠ firstLocal.writerEpoch →
      (later.commitHeader code sha256 (.acquireWriter request retryLocal writer) retry
        fragments).1 = .error .conflictingRetry) := by
  obtain ⟨carries, ⟨binds, _⟩, _⟩ := prepareHeader_ok prepared
  obtain ⟨identity, known, matching, index_eq, _⟩ :=
    identity_at_later ordered logged leased (.inl committed)
  have binds_again : (Submission.acquireWriter request retryLocal writer).metadata.Binds sha256
      .writerLease (asBytes writer).length (sha256 (asBytes writer)) := binds
  obtain ⟨retried, retriedStaged, after, prepared_again⟩ :=
    prepareHeader_of_binds binds_again healthy.stages
  obtain ⟨carries_again, _⟩ := prepareHeader_ok prepared_again
  obtain ⟨retryId, answer, _, retry_answer, retry_written⟩ :=
    retry_commits retried retriedStaged after prepared_again
  have same_request : header.request = retried.request := by
    rw [carries.request, carries_again.request]
    rfl
  rw [same_request] at known
  rw [applyEntry_of_known rfl known] at retry_answer
  injection retry_answer with answer_is
  have matches_iff := Submission.acquireWriter_carries same_group carries carries_again matching
  by_cases epochs : retryLocal.writerEpoch = firstLocal.writerEpoch
  · have answered := retryResponse_of_matches (matches_iff.mpr epochs)
    rw [answer_is] at answered
    have outcome : answer.outcome = .duplicate := by rw [answered]
    have index : answer.index = lease.index := by rw [answered, ← index_eq]
    have epoch : answer.writerEpoch = some (firstLocal.writerEpoch + 1) := by
      rw [answered]
      change identity.writerEpoch = _
      rw [matching.writerEpoch, carries.writerEpoch]
      rfl
    have closes := commitHeader_ok_iff proper prepared_again retry_written
      (.inr outcome) applied healthy
    rw [index] at closes
    refine ⟨⟨?_, ?_⟩, fun differs => absurd epochs differs⟩
    · rintro ⟨other, accepted, _⟩
      obtain ⟨_, other_written, _⟩ := of_commitHeader_ok accepted
      rw [retry_written] at other_written
      cases other_written
      exact ⟨epochs, closes.mp accepted⟩
    · rintro ⟨_, kept⟩
      exact ⟨answer, closes.mpr kept, outcome, index, epoch⟩
  · have conflict := (retryResponse_outcome identity retried).2
      fun matching' => epochs (matches_iff.mp matching')
    rw [answer_is] at conflict
    have refused : (later.commitHeader code sha256 (.acquireWriter request retryLocal writer) retry
        fragments).1 = .error .conflictingRetry := by
      simp only [commitHeader, prepared_again, retry_written,
        acknowledge, closeOutcome, conflict]
      cases retriedStaged <;> simp
    refine ⟨iff_of_false ?_ fun holds => epochs holds.1, fun _ => refused⟩
    rintro ⟨other, accepted, _⟩
    rw [refused] at accepted
    cases accepted

def computeSha256 (body : Bytes) : Digest :=
  if body = asBytes "compute-1" then
    digestOfHex "4a9c955c6a24f92ec45019d0cca90548b8c4a1c0da8e1803cc89ff87b1d93e21"
  else Vector.replicate 32 0

/-- The acquisition of an epoch by the writer, under the third request. -/
def computeLease (epoch : Nat) : EntryHeader :=
  inlineHeader "timeline" 3 .writerLease (some epoch) (asBytes "compute-1")
    "4a9c955c6a24f92ec45019d0cca90548b8c4a1c0da8e1803cc89ff87b1d93e21" .none ⟨⟩ timeline_ne_empty

def leasedTimeline : List Entry :=
  openedTimeline ++ [⟨⟨1, 3⟩, .normal (.commit (computeLease 1))⟩]

def retriedLease (epoch : Nat) : List Entry :=
  leasedTimeline ++ [⟨⟨1, 4⟩, .normal (.commit (computeLease epoch))⟩]

def leaseResponse (outcome : AppliedOutcome) (walEnd : Option Nat) : RaftResponse :=
  { index := 3, writerEpoch := some 1, outcome, walEnd }

def leaseEnvironment (response : RaftResponse) : WriteEnvironment where
  completion := []
  staging := {}
  write := .ok response
  applied := replay leasedTimeline
  sealing := {}

theorem computeLease_prepared (state : StateMachineData) (epoch : Nat)
    (next : state.writerEpoch + 1 = epoch) :
    timelineGroup.prepareHeader .mirror computeSha256 (.acquireWriter 3 state "compute-1") [] {}
      noFragments = (.ok (computeLease epoch, none), noFragments) := by
  subst next
  rfl

theorem computeLease_commitsAt {state : StateMachineData} {epoch : Nat} {response : RaftResponse}
    (next : state.writerEpoch + 1 = epoch)
    (answered : (applyEntry (replay leasedTimeline)
      ⟨⟨1, 4⟩, .normal (.commit (computeLease epoch))⟩).2 = .ok response) :
    CommitsAt .mirror computeSha256 (retriedLease epoch) 3 timelineGroup
      (.acquireWriter 3 state "compute-1") (leaseEnvironment response) noFragments := by
  intro header staged after prepared
  rw [leaseEnvironment, computeLease_prepared state epoch next] at prepared
  cases prepared
  exact ⟨_, _, rfl, answered, rfl⟩

/-- The reply to the first acquisition is lost; its retry, on a replica that has applied the lease,
asks for the second epoch and is refused as a conflict. -/
theorem retry_of_applied_lease_conflicts :
    (applyEntry (replay openedTimeline) ⟨⟨1, 3⟩, .normal (.commit (computeLease 1))⟩).2 =
        .ok (leaseResponse .committed (some 0)) ∧
      timelineGroup.prepareHeader .mirror computeSha256
        (.acquireWriter 3 (replay openedTimeline) "compute-1") [] {} noFragments =
          (.ok (computeLease 1, none), noFragments) ∧
      ReplicaAt leasedTimeline (replay leasedTimeline) ∧
      CommitsAt .mirror computeSha256 (retriedLease 2) 3 timelineGroup
        (.acquireWriter 3 (replay leasedTimeline) "compute-1")
        (leaseEnvironment (leaseResponse .conflictingRetry none)) noFragments ∧
      (timelineGroup.commitHeader .mirror computeSha256
        (.acquireWriter 3 (replay leasedTimeline) "compute-1")
        (leaseEnvironment (leaseResponse .conflictingRetry none)) noFragments).1 =
          .error .conflictingRetry :=
  ⟨rfl, computeLease_prepared _ 1 rfl, ReplicaAt.of_apply (by decide) (by decide),
    computeLease_commitsAt (by decide) rfl, rfl⟩

/-- A retry on a replica that has not yet applied the lease is given it again. -/
theorem lease_retry_iff_unapplied :
    ∃ answer, (timelineGroup.commitHeader .mirror computeSha256
        (.acquireWriter 3 (replay openedTimeline) "compute-1")
        (leaseEnvironment (leaseResponse .duplicate (some 0))) noFragments).1 = .ok answer ∧
      answer.outcome = .duplicate ∧ answer.index = 3 ∧ answer.writerEpoch = some 1 := by
  have proper : Proper (retriedLease 1) := .of_forall (by decide)
  have replica : ReplicaAt ((retriedLease 1).take 3) (replay leasedTimeline) :=
    ReplicaAt.of_apply (by decide) (by decide)
  have healthy : Healthy .mirror computeSha256 timelineGroup
      (.acquireWriter 3 (replay openedTimeline) "compute-1")
      (leaseEnvironment (leaseResponse .duplicate (some 0))) noFragments :=
    ⟨fun large => absurd large (by decide), fun _ _ => rfl, fun _ _ => rfl⟩
  have leased : (applyEntry (replay ((retriedLease 1).take 2))
      ⟨⟨1, 3⟩, .normal (.commit (computeLease 1))⟩).2 = .ok (leaseResponse .committed (some 0)) :=
    rfl
  exact (lease_retry_iff proper rfl (computeLease_prepared _ 1 rfl) rfl leased rfl (by decide)
    (computeLease_commitsAt rfl rfl) replica healthy).1.mpr ⟨rfl, .inl (by decide)⟩

end Verglas.Consensus
