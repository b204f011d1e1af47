import Verglas.Consensus.Reclamation
import Verglas.Consensus.Retry

/-!
# Attempts that reuse one request

An attempt to commit a large body stages it before the state machine can recognise its request, and
all attempts of one request write under one key.  This file follows the representations under that
key through attempts in either mode, lost replies, acknowledgements and reads, and says when the
committed body can still be read.
-/

namespace Verglas.Consensus

open List Option ConsensusGroup

variable {code : ErasureCode UInt8} {sha256 : Bytes → Digest}

theorem landWrites_eq_or_mem (fate : Nat → Reply) (key : FragmentKey)
    (writes : List (Nat × Option PayloadRepresentation)) (fragments : Fragments) (voter : Nat)
    (other : FragmentKey) :
    landWrites fate key writes fragments voter other = fragments voter other ∨
      other = key ∧ (voter, landWrites fate key writes fragments voter other) ∈ writes := by
  induction writes generalizing fragments with
  | nil => exact .inl rfl
  | cons write rest ih =>
    obtain ⟨target, held⟩ := write
    rw [landWrites]
    rcases ih (if (fate target).landed then fragments.write target key held else fragments) with
      kept | ⟨key_eq, member⟩
    · rw [kept]
      split
      · simp only [Fragments.write]
        split
        · rename_i here
          exact .inr ⟨here.2, by rw [here.1]; exact mem_cons_self⟩
        · exact .inl rfl
      · exact .inl rfl
    · exact .inr ⟨key_eq, mem_cons_of_mem _ member⟩

variable {fragments : Fragments} {log : List Entry} {header : EntryHeader} {length : Nat}
  {state : StateMachineData}

variable {request : SealRequest} {network : Network} {voters : List Nat} {submission : Submission}
  {stored : Fragments} {final : StateMachineData} {index : Nat} {logId : LogId}

theorem stamped_of_loadUnsealed {found : Nat × List (Nat × PayloadRepresentation)}
    (loaded : loadUnsealed request network fragments voters = .ok found) :
    ∀ rewrite ∈ found.2, ∃ record, fragments rewrite.1 request.key = some record ∧
      rewrite.2 = request.stamp record := by
  induction voters generalizing found with
  | nil =>
    cases loaded
    simp
  | cons voter rest ih =>
    rw [loadUnsealed] at loaded
    split at loaded
    · exact ih loaded
    · exact ih loaded
    · cases loaded
    · rename_i record answered
      have held : fragments voter request.key = some record := by
        simp only [loadFrom] at answered
        split at answered
        · cases answered
        · exact Except.ok.inj answered
      split at loaded
      · cases loaded
      split at loaded
      · cases loaded
      cases rest_eq : loadUnsealed request network fragments rest with
      | error error =>
        rw [rest_eq] at loaded
        cases loaded
      | ok later =>
        rw [rest_eq] at loaded
        cases loaded
        split
        · exact fun rewrite member => ih rest_eq rewrite member
        intro rewrite member
        rcases mem_cons.mp member with rfl | inRest
        · exact ⟨record, held, rfl⟩
        · exact ih rest_eq rewrite inRest

theorem sealPayload_eq_or_stamp (request : SealRequest) (network : Network)
    (fragments : Fragments) (voter : Nat) (key : FragmentKey) :
    (sealPayload request network fragments).2 voter key = fragments voter key ∨
      key = request.key ∧ ∃ record, fragments voter key = some record ∧
        (sealPayload request network fragments).2 voter key = some (request.stamp record) := by
  rw [sealPayload]
  split
  · exact .inl rfl
  split
  · exact .inl rfl
  rename_i alreadySealed pending loaded
  have stored : (storeSeals request network fragments alreadySealed pending).2 =
      landWrites network.store request.key
        (pending.map fun rewrite => (rewrite.1, some rewrite.2)) fragments := by
    simp only [storeSeals]
    split
    · rfl
    · split <;> rfl
  rw [stored]
  refine (landWrites_eq_or_mem _ _ _ _ _ _).imp_right ?_
  rintro ⟨rfl, member⟩
  obtain ⟨rewrite, pending_mem, rewrite_eq⟩ := mem_map.mp member
  obtain ⟨voter_eq, held_eq⟩ := Prod.mk.inj rewrite_eq
  obtain ⟨record, held, stamp_eq⟩ := stamped_of_loadUnsealed loaded rewrite pending_mem
  exact ⟨rfl, record, voter_eq ▸ held, by rw [← held_eq, stamp_eq]⟩

theorem loadUnsealed_of_mismatch (subset : ∀ voter ∈ voters, voter ∈ request.certificate.voters)
    (loads : ∀ voter ∈ voters, network.load voter = none)
    (foreign : ∃ voter ∈ voters, ∃ record, fragments voter request.key = some record ∧
      request.mismatch (request.certificate.voters.idxOf voter) record = true) :
    loadUnsealed request network fragments voters = .error .corruptRepresentation := by
  induction voters with
  | nil => simp at foreign
  | cons voter rest ih =>
    have rest_eq : (∃ other ∈ rest, ∃ record, fragments other request.key = some record ∧
        request.mismatch (request.certificate.voters.idxOf other) record = true) →
        loadUnsealed request network fragments rest = .error .corruptRepresentation :=
      ih (forall_mem_cons.mp subset).2
        (forall_mem_cons.mp loads).2
    have slot_eq : slotOf request.certificate.voters voter =
        some (request.certificate.voters.idxOf voter) :=
      if_pos (subset voter mem_cons_self)
    rw [loadUnsealed, loadFrom, loads voter mem_cons_self]
    obtain ⟨other, member, record, held, mismatched⟩ := foreign
    rcases mem_cons.mp member with rfl | inRest
    · simp only [held, slot_eq, mismatched, if_true]
    have failed := rest_eq ⟨other, inRest, record, held, mismatched⟩
    cases fragments voter request.key with
    | none => exact failed
    | some own =>
      simp only [slot_eq, failed]
      split <;> rfl

variable {sealing reading : Network}

theorem sealThenReconstruct_of_mismatch {read : ReconstructRequest}
    (loads : ∀ holder ∈ read.certificate.holders, sealing.load holder = none)
    (foreign : ∃ holder ∈ read.certificate.holders, ∃ record,
      fragments holder read.key = some record ∧
      read.sealing.mismatch (read.certificate.voters.idxOf holder) record = true) :
    sealThenReconstruct code sha256 sealing reading fragments read =
      .error .corruptRepresentation := by
  have stopped : loadUnsealed read.sealing sealing fragments read.sealing.certificate.holders =
      .error .corruptRepresentation :=
    loadUnsealed_of_mismatch read.certificate.holders_subset loads foreign
  rw [sealThenReconstruct, sealPayload, stopped]
  by_cases unset : read.sealing.term = 0 ∨ read.sealing.index = 0
  · simp only [if_pos unset]
  · simp only [if_neg unset]

/-- The representation of one voter in a staging, sealed or with zeros. -/
def DistributedPayloadStore.placement (code : ErasureCode UInt8) (sha256 : Bytes → Digest)
    (store : DistributedPayloadStore) (staging : StageRequest) (term index voter : Nat) :
    Option PayloadRepresentation :=
  (slotBytes code store.k store.m store.voters staging.mode staging.body).map fun shards =>
    staging.representation sha256 term index (store.voters.idxOf voter)
      (shards.getD (store.voters.idxOf voter) [])

/-- Staging, certified or not, replaces what the voters whose write took effect keep under its
key. -/
theorem stage_snd (store : DistributedPayloadStore) (staging : StageRequest)
    (completion : List Nat) (network : Network) (fragments : Fragments) (voter : Nat) :
    (store.stage code sha256 staging completion network fragments).2 voter (staging.key sha256) =
      if voter ∈ store.voters ∧ (network.store voter).landed = true then
        (store.placement code sha256 staging 0 0 voter).or (fragments voter (staging.key sha256))
      else fragments voter (staging.key sha256) := by
  rw [DistributedPayloadStore.stage, DistributedPayloadStore.placement]
  split
  · rename_i uncoded
    simp [uncoded]
  · rename_i shards coded
    have landed := landWrites_map network.store (staging.key sha256)
      (fun voter => some (staging.representation sha256 0 0 (store.voters.idxOf voter)
        (shards.getD (store.voters.idxOf voter) []))) store.voters fragments voter
      (staging.key sha256)
    simp only [true_and] at landed
    rw [coded, map_some, some_or, ← landed]
    dsimp only
    split
    · split <;> rfl
    · rfl

/-- Mode of an attempt and fate of its staging requests. -/
structure StagingAttempt where
  mode : ReplicationMode
  network : Network

namespace ConsensusGroup

variable (self : ConsensusGroup) (request : RequestId) (body : Bytes)

/-- The staging request of a body in a mode. -/
def stagingIn (mode : ReplicationMode) : StageRequest :=
  ⟨request, self.group, self.configurationGeneration, mode, body⟩

/-- The fragment key that every attempt at a body writes under. -/
def attemptKey (sha256 : Bytes → Digest) : FragmentKey :=
  ⟨sha256 body, self.group, self.configurationGeneration, request⟩

/-- The attempt leaves its slot's bytes at the voter. -/
def landsOn (code : ErasureCode UInt8) (voter : Nat) (attempt : StagingAttempt) : Bool :=
  (slotBytes code self.payloads.k self.payloads.m self.payloads.voters attempt.mode body).isSome &&
    decide (voter ∈ self.payloads.voters) && (attempt.network.store voter).landed

/-- Mode of the last attempt, the newest first, whose staging write took effect on a voter. -/
def lastMode (code : ErasureCode UInt8) (attempts : List StagingAttempt) (voter : Nat) :
    Option ReplicationMode :=
  (attempts.find? (self.landsOn body code voter)).map StagingAttempt.mode

end ConsensusGroup

/-- What voters keep while attempts reuse one request with one body.  The indices are the attempts
so far, newest first, the headers that they proposed, and the representations of the voters.  A
proposed header may stand in the log or not, and its answer may arrive at any time or never. -/
inductive AttemptRun (code : ErasureCode UInt8) (sha256 : Bytes → Digest)
    (issuer : ConsensusGroup) (request : RequestId) (body : Bytes) (log : List Entry) :
    List StagingAttempt → List (EntryHeader × Option StagedPayload) → Fragments → Prop
  | start (fragments : Fragments) : AttemptRun code sha256 issuer request body log [] [] fragments
  | prepare {attempts : List StagingAttempt} {proposals : List (EntryHeader × Option StagedPayload)}
      {fragments after : Fragments} {submission : Submission} {completion : List Nat}
      {network : Network} {outcome : Except GroupError (EntryHeader × Option StagedPayload)}
      (run : AttemptRun code sha256 issuer request body log attempts proposals fragments)
      (request_eq : submission.request = request) (body_eq : submission.body = body)
      (prepared : issuer.prepareHeader code sha256 submission completion network fragments =
        (outcome, after)) :
      AttemptRun code sha256 issuer request body log (⟨submission.mode, network⟩ :: attempts)
        (outcome.toOption.toList ++ proposals) after
  | acknowledge {attempts : List StagingAttempt}
      {proposals : List (EntryHeader × Option StagedPayload)} {fragments : Fragments}
      {header : EntryHeader} {staged : Option StagedPayload} {response : RaftResponse}
      {length : Nat} {state : StateMachineData} (network : Network)
      (run : AttemptRun code sha256 issuer request body log attempts proposals fragments)
      (proposed : (header, staged) ∈ proposals) (answered : Answered log header response)
      (replica : ReplicaAt (log.take length) state) :
      AttemptRun code sha256 issuer request body log attempts proposals
        (issuer.acknowledge request staged response state network fragments).2
  | read {attempts : List StagingAttempt} {proposals : List (EntryHeader × Option StagedPayload)}
      {fragments : Fragments} {index length : Nat} {header : EntryHeader}
      {allocation : RepairAllocation} {state : StateMachineData} (network : Network)
      (run : AttemptRun code sha256 issuer request body log attempts proposals fragments)
      (replica : ReplicaAt (log.take length) state)
      (retained : state.committed.get index = some header) (request_eq : header.request = request)
      (unrepaired : state.repairs.get index = none)
      (current : currentAllocation state index header = .ok allocation) :
      AttemptRun code sha256 issuer request body log attempts proposals
        (sealPayload (header.readFrom allocation).sealing network fragments).2
  | elsewhere {attempts : List StagingAttempt}
      {proposals : List (EntryHeader × Option StagedPayload)} {fragments after : Fragments}
      (run : AttemptRun code sha256 issuer request body log attempts proposals fragments)
      (untouched : AgreeAt (issuer.attemptKey request body sha256) after fragments) :
      AttemptRun code sha256 issuer request body log attempts proposals after

theorem AttemptRun.commitHeader {self : ConsensusGroup} {request : RequestId} {body : Bytes}
    {attempts : List StagingAttempt} {proposals : List (EntryHeader × Option StagedPayload)}
    (run : AttemptRun code sha256 self request body log attempts proposals fragments)
    (request_eq : submission.request = request) (body_eq : submission.body = body)
    {environment : WriteEnvironment} {staged : Option StagedPayload}
    (prepared : self.prepareHeader code sha256 submission environment.completion
      environment.staging fragments = (.ok (header, staged), stored))
    (answered : ∀ response, environment.write = .ok response → Answered log header response)
    (replica : ReplicaAt (log.take length) environment.applied) :
    AttemptRun code sha256 self request body log
      (⟨submission.mode, environment.staging⟩ :: attempts) ((header, staged) :: proposals)
      (self.commitHeader code sha256 submission environment fragments).2 := by
  have staging := run.prepare request_eq body_eq prepared
  rw [ConsensusGroup.commitHeader, prepared]
  dsimp only
  split
  · exact staging
  · rename_i response written
    rw [request_eq]
    exact staging.acknowledge environment.sealing mem_cons_self (answered response written) replica

/-- The request was recorded under this log identity. -/
def RecordedAs (log : List Entry) (request : RequestId) (logId : LogId) : Prop :=
  ∃ header, (logId.index, header) ∈ history log ∧ ⟨logId, .normal (.commit header)⟩ ∈ log ∧
    header.request = request

theorem RecordedAs.unique (whole : ReplicaAt log final) {request : RequestId} {left right : LogId}
    (left_recorded : RecordedAs log request left) (right_recorded : RecordedAs log request right) :
    left = right := by
  obtain ⟨leftHeader, left_mem, left_logged, left_request⟩ := left_recorded
  obtain ⟨rightHeader, right_mem, right_logged, right_request⟩ := right_recorded
  have index_eq := whole.index_eq_of_request_eq left_mem right_mem
    (left_request.trans right_request.symm)
  exact congrArg Entry.logId (whole.increasing.eq_of_index_eq left_logged right_logged index_eq)

theorem recordedAs_of_retained (replica : ReplicaAt (log.take length) state)
    (retained : state.committed.get index = some header)
    (identified : state.committedLogIds.get index = some logId) :
    RecordedAs log header.request logId := by
  obtain ⟨found, found_eq, logged, index_eq⟩ := replica.recorded.logIds _ _ identified
  rw [retained] at found_eq
  cases found_eq
  refine ⟨header, ?_, mem_of_mem_take logged, rfl⟩
  rw [index_eq]
  exact mem_history_of_take (replica.recorded.retained _ _ retained)

section Run

variable {self : ConsensusGroup} {request : RequestId} {body : Bytes} {log : List Entry}
  {attempts : List StagingAttempt} {proposals : List (EntryHeader × Option StagedPayload)}
  {fragments : Fragments}

theorem lastMode_cons (attempt : StagingAttempt) (voter : Nat) :
    self.lastMode body code (attempt :: attempts) voter =
      if self.landsOn body code voter attempt = true then some attempt.mode
      else self.lastMode body code attempts voter := by
  simp only [lastMode, find?_cons]
  split <;> simp_all

/-- The stamp of a representation: zeros, or the log identity of the request. -/
def Stamped (log : List Entry) (request : RequestId) (term index : Nat) : Prop :=
  (term = 0 ∧ index = 0) ∨ RecordedAs log request ⟨term, index⟩

/-- A voter keeps its representation of the body in one mode. -/
def Keeps (code : ErasureCode UInt8) (sha256 : Bytes → Digest) (self : ConsensusGroup)
    (request : RequestId) (body : Bytes) (log : List Entry) (mode : ReplicationMode)
    (fragments : Fragments) (voter : Nat) : Prop :=
  ∃ term index record, Stamped log request term index ∧
    self.payloads.placement code sha256 (self.stagingIn request body mode) term index voter =
      some record ∧
    fragments voter (self.attemptKey request body sha256) = some record

variable {mode : ReplicationMode} {voter : Nat} {staged : Option StagedPayload}

theorem Keeps.congr {after : Fragments}
    (keeps : Keeps code sha256 self request body log mode fragments voter)
    (same : after voter (self.attemptKey request body sha256) =
      fragments voter (self.attemptKey request body sha256)) :
    Keeps code sha256 self request body log mode after voter := by
  obtain ⟨term, index, record, stamped, placed, held⟩ := keeps
  exact ⟨term, index, record, stamped, placed, same.trans held⟩

theorem Keeps.sealed (keeps : Keeps code sha256 self request body log mode fragments voter)
    {sealing : SealRequest} (recorded : RecordedAs log request ⟨sealing.term, sealing.index⟩)
    (network : Network) :
    Keeps code sha256 self request body log mode (sealPayload sealing network fragments).2
      voter := by
  rcases sealPayload_eq_or_stamp sealing network fragments voter
    (self.attemptKey request body sha256) with same | ⟨_, record, held, stamped⟩
  · exact keeps.congr same
  obtain ⟨term, index, kept, _, placed, kept_held⟩ := keeps
  rw [kept_held] at held
  cases held
  refine ⟨sealing.term, sealing.index, _, .inr recorded, ?_, stamped⟩
  simp only [DistributedPayloadStore.placement, map_eq_some_iff] at placed ⊢
  obtain ⟨shards, coded, rfl⟩ := placed
  exact ⟨shards, coded, rfl⟩

variable {final : StateMachineData}

theorem acknowledge_snd (whole : ReplicaAt log final) (request_eq : header.request = request)
    {response : RaftResponse} (answered : Answered log header response)
    (replica : ReplicaAt (log.take length) state) (network : Network) :
    (self.acknowledge request staged response state network fragments).2 = fragments ∨
      ∃ sealing : SealRequest, RecordedAs log request ⟨sealing.term, sealing.index⟩ ∧
        (self.acknowledge request staged response state network fragments).2 =
          (sealPayload sealing network fragments).2 := by
  cases staged with
  | none => exact .inl rfl
  | some payload =>
    simp only [acknowledge]
    split
    · rename_i acknowledged
      cases identified : state.committedLogIds.get response.index with
      | none =>
        left
        simp only [sealCommitted, identified]
      | some logId =>
        refine .inr ⟨⟨payload.hash, self.group, self.configurationGeneration, request,
          logId.term, logId.index, payload.certificate⟩, ?_, ?_⟩
        · obtain ⟨recorded, recorded_mem, same_request⟩ := answered.recorded whole acknowledged
          obtain ⟨found, retained, _⟩ := replica.recorded.logIds _ _ identified
          have found_mem := mem_history_of_take (replica.recorded.retained _ _ retained)
          have found_eq := whole.increasing.header_eq found_mem recorded_mem
          rw [← request_eq, ← same_request, ← found_eq]
          exact recordedAs_of_retained replica retained identified
        · simp only [sealCommitted, identified]
          generalize sealPayload _ network fragments = effect
          obtain ⟨answer, after⟩ := effect
          cases answer <;> rfl
    · exact .inl rfl

section Attempts

variable (run : AttemptRun code sha256 self request body log attempts proposals fragments)

include run

theorem AttemptRun.prepared_of_mem :
    ∀ header staged, (header, staged) ∈ proposals →
      ∃ submission completion network stored after, submission.request = request ∧
        submission.body = body ∧ ⟨submission.mode, network⟩ ∈ attempts ∧
        self.prepareHeader code sha256 submission completion network stored =
          (.ok (header, staged), after) := by
  induction run with
  | start => simp
  | @prepare attempts proposals fragments after submission completion network outcome _ request_eq
      body_eq prepared ih =>
    intro header staged member
    rcases mem_append.mp member with here | earlier
    · cases outcome with
      | error error => cases here
      | ok found =>
        cases mem_singleton.mp here
        exact ⟨submission, completion, network, fragments, after, request_eq, body_eq,
          mem_cons_self, prepared⟩
    · obtain ⟨older, placed, reached, stored, left, request_eq, body_eq, tried, prepared⟩ :=
        ih header staged earlier
      exact ⟨older, placed, reached, stored, left, request_eq, body_eq,
        mem_cons_of_mem _ tried, prepared⟩
  | acknowledge _ _ _ _ _ ih | read _ _ _ _ _ _ _ ih | elsewhere _ _ ih => exact ih

theorem AttemptRun.proposed_request (header : EntryHeader) (staged : Option StagedPayload)
    (proposed : (header, staged) ∈ proposals) :
    header.request = request := by
  obtain ⟨_, _, _, _, _, request_eq, _, _, prepared⟩ := run.prepared_of_mem header staged proposed
  rw [(prepareHeader_ok prepared).1.request, request_eq]

/-- Every voter that a staging write reached keeps its representation in the mode of the last such
write. -/
theorem AttemptRun.keeps (whole : ReplicaAt log final)
    (large : inlinePayloadThresholdBytes < body.length) :
    ∀ voter mode, self.lastMode body code attempts voter = some mode →
      Keeps code sha256 self request body log mode fragments voter := by
  induction run with
  | start => simp [lastMode]
  | @prepare attempts proposals fragments after submission completion network outcome _ request_eq
      body_eq prepared ih =>
    subst request_eq body_eq
    intro voter mode last
    have after_eq : after = (self.payloads.stage code sha256 (self.staging submission) completion
        network fragments).2 := by
      rw [prepareHeader, if_neg (Nat.not_le.mpr large)] at prepared
      split at prepared
      · rename_i staged
        cases prepared
        rw [staged]
      · rename_i staged
        cases prepared
        rw [staged]
    have written := @stage_snd code sha256 self.payloads (self.staging submission) completion
      network fragments voter
    rw [← after_eq] at written
    rw [lastMode_cons] at last
    split at last
    · -- The new write took effect here.
      rename_i lands
      cases last
      simp only [landsOn, Bool.and_eq_true, decide_eq_true_eq] at lands
      obtain ⟨⟨coded, voter_mem⟩, landed⟩ := lands
      obtain ⟨shards, coded⟩ := isSome_iff_exists.mp coded
      obtain ⟨record, placed⟩ : ∃ record, self.payloads.placement code sha256
          (self.staging submission) 0 0 voter = some record := by
        rw [DistributedPayloadStore.placement]
        exact ⟨_, map_eq_some_iff.mpr ⟨shards, coded, rfl⟩⟩
      rw [if_pos ⟨voter_mem, landed⟩, placed, some_or] at written
      exact ⟨0, 0, record, .inl ⟨rfl, rfl⟩, placed, written⟩
    · rename_i misses
      refine (ih voter mode last).congr (written.trans ?_)
      split
      · rename_i reached
        have uncoded : self.payloads.placement code sha256 (self.staging submission) 0 0 voter =
            none := by
          rw [DistributedPayloadStore.placement, map_eq_none_iff, ← not_isSome_iff_eq_none]
          intro coded
          apply misses
          simp only [landsOn, Bool.and_eq_true, decide_eq_true_eq]
          exact ⟨⟨coded, reached.1⟩, reached.2⟩
        rw [uncoded, none_or]
        rfl
      · rfl
  | acknowledge network run proposed answered replica ih =>
    intro voter mode last
    rcases acknowledge_snd whole (run.proposed_request _ _ proposed) answered replica network with
      same | ⟨sealing, recorded, sealed⟩
    · rw [same]
      exact ih voter mode last
    · rw [sealed]
      exact (ih voter mode last).sealed recorded network
  | read network run replica retained request_eq unrepaired current ih =>
    intro voter mode last
    simp only [currentAllocation, unrepaired] at current
    split at current
    · cases current
    split at current
    · cases current
    rename_i identified
    cases current
    have recorded := recordedAs_of_retained replica retained identified
    rw [request_eq] at recorded
    exact (ih voter mode last).sealed recorded network
  | elsewhere run untouched ih =>
    intro voter mode last
    exact (ih voter mode last).congr (untouched voter)

/-- A proposed header of a large body certifies an allocation of it, and a staging write has reached
every certified holder. -/
theorem AttemptRun.certified (large : inlinePayloadThresholdBytes < body.length)
    (header : EntryHeader) (staged : Option StagedPayload)
    (proposed : (header, staged) ∈ proposals) :
    header.group = self.group ∧ header.payloadLen = body.length ∧
      header.configurationGeneration = self.configurationGeneration ∧
      header.payloadHash = sha256 body ∧
      ∃ allocation : Allocation code, header.certificate = some allocation.certificate ∧
        allocation.staging = self.stagingIn request body allocation.certificate.mode ∧
        allocation.certificate.k = self.payloads.k ∧ allocation.certificate.m = self.payloads.m ∧
        allocation.certificate.voters = self.payloads.voters ∧
        ∀ holder ∈ allocation.certificate.holders,
          (self.lastMode body code attempts holder).isSome := by
  obtain ⟨submission, _, network, _, _, rfl, rfl, tried, prepared⟩ :=
    run.prepared_of_mem header staged proposed
  obtain ⟨carries, _, ⟨small, _⟩ | ⟨_, payload, rfl, certified, accepted⟩⟩ :=
    prepareHeader_ok prepared
  · exact absurd small (Nat.not_le.mpr large)
  obtain ⟨_, _, allocation, staging_eq, certificate_eq, k_eq, m_eq, voters_eq, held⟩ :=
    stage_ok accepted
  have mode_eq : allocation.certificate.mode = submission.mode := by
    rw [allocation.mode_eq, staging_eq]
    rfl
  refine ⟨carries.group, carries.length, carries.generation, carries.hash, allocation,
    by rw [certified, certificate_eq], ?_, k_eq, m_eq, voters_eq, fun holder holder_mem => ?_⟩
  · rw [staging_eq, mode_eq]
    rfl
  · have lands : self.landsOn submission.body code holder ⟨submission.mode, network⟩ = true := by
      have coded := allocation.coded
      rw [staging_eq, k_eq, m_eq, voters_eq] at coded
      simp only [landsOn, Bool.and_eq_true, decide_eq_true_eq]
      refine ⟨⟨isSome_iff_exists.mpr ⟨_, coded⟩, ?_⟩, ?_⟩
      · exact voters_eq ▸ allocation.certificate.holders_subset holder holder_mem
      · rw [(held holder holder_mem).1]
        rfl
    rw [lastMode, isSome_map, find?_isSome]
    exact ⟨_, tried, lands⟩

/-- What the body of a committed header reads as after any attempts, with its certified holders
reachable. -/
theorem AttemptRun.read_eq (lawful : code.Lawful) (whole : ReplicaAt log final)
    (proper : Proper log) (large : inlinePayloadThresholdBytes < body.length)
    (proposed : (header, staged) ∈ proposals) {certificate : PayloadCertificate}
    (certified : header.certificate = some certificate)
    (replica : ReplicaAt (log.take length) state)
    (retained : state.committed.get index = some header)
    (unrepaired : state.repairs.get index = none)
    (loads : ∀ holder ∈ certificate.holders, sealing.load holder = none)
    (stores : ∀ holder ∈ certificate.holders, sealing.store holder = .answered)
    (reads : ∀ holder ∈ certificate.holders, reading.load holder = none) :
    self.read (sealThenReconstruct code sha256 sealing reading fragments) state index =
      if ∀ holder ∈ certificate.holders,
          self.lastMode body code attempts holder = some certificate.mode then .ok body
      else .error (.payload .corruptRepresentation) := by
  obtain ⟨group_eq, length_eq, generation_eq, hash_eq, allocation, certificate_eq, staging_eq, k_eq,
    m_eq, voters_eq, reached⟩ := run.certified large header staged proposed
  rw [certified] at certificate_eq
  cases certificate_eq
  obtain ⟨logId, identified⟩ := isSome_iff_exists.mp (replica.recorded.identified _ _ retained)
  have recorded := recordedAs_of_retained replica retained identified
  rw [run.proposed_request _ _ proposed] at recorded
  obtain ⟨_, _, logged, _⟩ := recorded
  obtain ⟨term_pos, index_pos⟩ := proper _ logged _ rfl
  have key_eq : allocation.key sha256 = self.attemptKey request body sha256 := by
    rw [Allocation.key, staging_eq]
    rfl
  have request_eq :
      header.readFrom ⟨header.configurationGeneration, allocation.certificate, logId⟩ =
      allocation.reconstructRequest sha256 logId.term logId.index := by
    simp only [EntryHeader.readFrom, Allocation.reconstructRequest, staging_eq,
      stagingIn, group_eq, length_eq, generation_eq, hash_eq,
      run.proposed_request _ _ proposed]
  have inline : header.inlineBody = none := inlineBody_of_staged (by rw [certified]; rfl)
  have current : currentAllocation state index header =
      .ok ⟨header.configurationGeneration, allocation.certificate, logId⟩ := by
    simp only [currentAllocation, unrepaired, certified, identified]
  have read_is : self.read (sealThenReconstruct code sha256 sealing reading fragments) state index =
      (sealThenReconstruct code sha256 sealing reading fragments
        (allocation.reconstructRequest sha256 logId.term logId.index)).mapError .payload := by
    simp only [ConsensusGroup.read, retained, group_eq, ne_eq, not_true_eq_false, if_false,
      readCommitted, inline, current, request_eq]
  -- In the committed mode a representation is the staged one of the allocation or the sealed one.
  have record_eq : ∀ holder term index record, self.payloads.placement code sha256
      (self.stagingIn request body allocation.certificate.mode) term index holder = some record →
      record = allocation.record sha256 term index holder := by
    intro holder term index record placed
    simp only [DistributedPayloadStore.placement, map_eq_some_iff] at placed
    obtain ⟨shards, coded, rfl⟩ := placed
    have same := allocation.coded
    rw [k_eq, m_eq, voters_eq, staging_eq] at same
    have shards_eq : some shards = some allocation.shards := coded.symm.trans same
    cases shards_eq
    rw [Allocation.record, voters_eq, staging_eq]
  rw [read_is]
  split
  · rename_i same_mode
    have kept : ∀ holder ∈ allocation.certificate.holders,
        fragments holder (allocation.key sha256) = some (allocation.record sha256 0 0 holder) ∨
        fragments holder (allocation.key sha256) =
          some (allocation.record sha256 logId.term logId.index holder) := by
      intro holder member
      obtain ⟨term, index, record, stamped, placed, held⟩ :=
        run.keeps whole large holder _ (same_mode holder member)
      rw [key_eq, held, record_eq holder term index record placed]
      rcases stamped with ⟨rfl, rfl⟩ | other
      · exact .inl rfl
      · have id_eq := other.unique whole ⟨_, ‹_›, logged, ‹_›⟩
        cases id_eq
        exact .inr rfl
    rw [Allocation.sealThenReconstruct_eq term_pos index_pos
      (fun holder member => .inr (kept holder member))
      (fun holder member => by rcases kept holder member with held | held <;> rw [held] <;> simp)
      loads stores lawful reads, staging_eq]
    rfl
  · rename_i other_mode
    push Not at other_mode
    obtain ⟨holder, member, mode_ne⟩ := other_mode
    obtain ⟨mode, last⟩ := isSome_iff_exists.mp (reached holder member)
    obtain ⟨term, index, record, _, placed, held⟩ := run.keeps whole large holder mode last
    have foreign : (allocation.reconstructRequest sha256 logId.term logId.index).sealing.mismatch
        (allocation.certificate.voters.idxOf holder) record = true := by
      simp only [DistributedPayloadStore.placement, map_eq_some_iff] at placed
      obtain ⟨shards, _, rfl⟩ := placed
      have differs : mode ≠ allocation.certificate.mode := by
        rintro rfl
        exact mode_ne last
      simp [SealRequest.mismatch, StageRequest.representation, stagingIn,
        Allocation.reconstructRequest, ReconstructRequest.sealing, differs]
    rw [sealThenReconstruct_of_mismatch loads ⟨holder, member, record,
      by rw [Allocation.reconstructRequest_key, key_eq, held], foreign⟩]
    rfl

end Attempts

/-- After any attempts to commit one body under one request, the committed body is read with its
certified holders reachable if and only if, on each of them, the last attempt whose staging write
took effect used the mode of the committed certificate. -/
theorem retried_body_readable_iff (lawful : code.Lawful) (whole : ReplicaAt log final)
    (proper : Proper log)
    (run : AttemptRun code sha256 self request body log attempts proposals fragments)
    (proposed : (header, staged) ∈ proposals) (replica : ReplicaAt (log.take length) state)
    (retained : state.committed.get index = some header)
    (unrepaired : state.repairs.get index = none)
    (reachable : ∀ certificate, header.certificate = some certificate →
      ∀ holder ∈ certificate.holders, sealing.load holder = none ∧
      sealing.store holder = .answered ∧ reading.load holder = none) :
    self.read (sealThenReconstruct code sha256 sealing reading fragments) state index = .ok body ↔
      ∀ certificate, header.certificate = some certificate → ∀ holder ∈ certificate.holders,
        self.lastMode body code attempts holder = some certificate.mode := by
  rcases Nat.lt_or_ge inlinePayloadThresholdBytes body.length with large | small
  · obtain ⟨_, _, _, _, allocation, certified, _⟩ := run.certified large header staged proposed
    have holders := reachable _ certified
    rw [run.read_eq lawful whole proper large proposed certified replica retained unrepaired
      (fun holder member => (holders holder member).1)
      (fun holder member => (holders holder member).2.1)
      (fun holder member => (holders holder member).2.2)]
    simp only [certified, some.injEq, forall_eq']
    split
    · rename_i same
      exact iff_of_true rfl same
    · rename_i differs
      exact iff_of_false (by simp) differs
  · obtain ⟨group_eq, inline⟩ : header.group = self.group ∧ header.inlineBody = some body := by
      obtain ⟨_, _, _, _, _, _, rfl, _, prepared⟩ := run.prepared_of_mem header staged proposed
      obtain ⟨carries, _, ⟨_, _, inline⟩ | ⟨large, _⟩⟩ := prepareHeader_ok prepared
      · exact ⟨carries.group, inline⟩
      · exact absurd small (Nat.not_le.mpr large)
    have unstaged : header.certificate = none := by
      have one_body := header.one_body
      rw [inline] at one_body
      simpa using one_body
    refine iff_of_true ?_ (by simp [unstaged])
    simp only [ConsensusGroup.read, retained, group_eq, ne_eq, not_true_eq_false, if_false,
      readCommitted, inline]

end Run

def codedAppend : Submission := { zeroAppend with mode := .coded }

def codedCertificate : PayloadCertificate :=
  { pairCertificate with mode := .coded, durable := by decide }

def codedPayload : StagedPayload := { zeroPayload with certificate := codedCertificate }

def codedHeader : EntryHeader :=
  { zeroHeader with certificate := some codedCertificate, one_body := rfl }

theorem codedAppend_prepared (fragments : Fragments) :
    ∃ stored, timelineGroup.prepareHeader .mirror zeroSha256 codedAppend [1, 2, 3] {} fragments =
        (.ok (codedHeader, some codedPayload), stored) := by
  have staged : (mirrorStore.stage .mirror zeroSha256 (timelineGroup.staging codedAppend) [1, 2, 3]
      {} fragments).1 = .ok ⟨zeroSha256 zeroBody, zeroBody.length, codedCertificate⟩ := rfl
  have large : ¬codedAppend.body.length ≤ inlinePayloadThresholdBytes := by
    rw [show codedAppend.body = zeroBody from rfl, zeroBody_length]
    decide
  have payloads_eq : timelineGroup.payloads = mirrorStore := rfl
  rw [zeroSha256_zeroBody, zeroBody_length] at staged
  rw [prepareHeader, if_neg large, payloads_eq]
  generalize mirrorStore.stage .mirror zeroSha256 (timelineGroup.staging codedAppend) [1, 2, 3] {}
    fragments = outcome at staged ⊢
  obtain ⟨answer, stored⟩ := outcome
  cases staged
  exact ⟨stored, rfl⟩

def codedTimeline : List Entry := zeroTimeline ++ [⟨⟨1, 5⟩, .normal (.commit codedHeader)⟩]

theorem codedTimeline_replica : ReplicaAt codedTimeline (replay codedTimeline) :=
  ReplicaAt.of_apply (by decide) (by decide)

theorem codedTimeline_proper : Proper codedTimeline := .of_forall (by decide)

theorem codedTimeline_retained : (replay codedTimeline).committed.get 4 = some zeroHeader := rfl

theorem ReplicaAt.take_length (replica : ReplicaAt log state) :
    ReplicaAt (log.take log.length) state := by
  rw [List.take_length]
  exact replica

def lostReply (applied : StateMachineData) : WriteEnvironment where
  completion := [1, 2, 3]
  staging := {}
  write := .error (.raft "connection closed")
  applied := applied
  sealing := {}

theorem zeroAppend_lost (replica : ReplicaAt log state) :
    ∃ first, timelineGroup.commitHeader .mirror zeroSha256 zeroAppend (lostReply state)
        noFragments = (.error (.raft "connection closed"), first) ∧
      AttemptRun .mirror zeroSha256 timelineGroup 9 zeroBody log [⟨.complete, {}⟩]
        [(zeroHeader, some zeroPayload)] first := by
  obtain ⟨stored, prepared⟩ := zeroAppend_prepared noFragments
  have staged : timelineGroup.prepareHeader .mirror zeroSha256 zeroAppend
      (lostReply state).completion (lostReply state).staging noFragments =
        (.ok (zeroHeader, some zeroPayload), stored) := prepared
  have run := AttemptRun.commitHeader
    (@AttemptRun.start .mirror zeroSha256 timelineGroup 9 zeroBody log noFragments) rfl rfl staged
    (fun _ written => by cases written) replica.take_length
  have lost : (timelineGroup.commitHeader .mirror zeroSha256 zeroAppend (lostReply state)
      noFragments).1 = .error (.raft "connection closed") := by
    rw [commitHeader, staged]
    rfl
  generalize timelineGroup.commitHeader .mirror zeroSha256 zeroAppend (lostReply state)
    noFragments = outcome at lost run
  obtain ⟨answer, first⟩ := outcome
  cases lost
  exact ⟨first, rfl, run⟩

theorem zeroAppend_again {payload : StagedPayload} {first : Fragments}
    (replica : ReplicaAt log (replay log)) (request_eq : submission.request = 9)
    (body_eq : submission.body = zeroBody)
    (prepared : timelineGroup.prepareHeader .mirror zeroSha256 submission [1, 2, 3] {} first =
      (.ok (header, some payload), stored))
    (answered : Answered log header (zeroResponse .duplicate))
    (retained : (replay log).committedLogIds.get 4 = some ⟨1, 4⟩)
    (run : AttemptRun .mirror zeroSha256 timelineGroup 9 zeroBody log [⟨.complete, {}⟩]
      [(zeroHeader, some zeroPayload)] first) :
    ∃ second, timelineGroup.commitHeader .mirror zeroSha256 submission
        (zeroEnvironment .duplicate (replay log)) first = (.ok (zeroResponse .duplicate), second) ∧
      AttemptRun .mirror zeroSha256 timelineGroup 9 zeroBody log
        [⟨submission.mode, {}⟩, ⟨.complete, {}⟩]
        [(header, some payload), (zeroHeader, some zeroPayload)] second := by
  have staged : timelineGroup.prepareHeader .mirror zeroSha256 submission
      (zeroEnvironment .duplicate (replay log)).completion
      (zeroEnvironment .duplicate (replay log)).staging first =
        (.ok (header, some payload), stored) := prepared
  have again := run.commitHeader request_eq body_eq staged
    (fun response written => by cases written; exact answered) replica.take_length
  have accepted := commitHeader_of_staged staged rfl (.inr rfl) (fun _ _ => rfl)
    (fun _ _ => rfl) retained Nat.one_pos (by decide)
  generalize timelineGroup.commitHeader .mirror zeroSha256 submission
    (zeroEnvironment .duplicate (replay log)) first = outcome at accepted again
  obtain ⟨answer, second⟩ := outcome
  cases accepted
  exact ⟨second, rfl, again⟩

/-- The append commits in complete mode and its answer is lost; the retry in coded mode is
acknowledged as a duplicate, and the committed body then reads as corrupt with every voter
reachable. -/
theorem retry_in_other_mode_corrupts :
    ReplicaAt codedTimeline (replay codedTimeline) ∧
      (replay codedTimeline).committed.get 4 = some zeroHeader ∧
      Answered codedTimeline codedHeader (zeroResponse .duplicate) ∧
      ∃ first second,
        timelineGroup.commitHeader .mirror zeroSha256 zeroAppend (lostReply (replay codedTimeline))
          noFragments = (.error (.raft "connection closed"), first) ∧
        timelineGroup.commitHeader .mirror zeroSha256 codedAppend
          (zeroEnvironment .duplicate (replay codedTimeline)) first =
            (.ok (zeroResponse .duplicate), second) ∧
        timelineGroup.read (sealThenReconstruct .mirror zeroSha256 {} {} second)
          (replay codedTimeline) 4 = .error (.payload .corruptRepresentation) := by
  have answered : Answered codedTimeline codedHeader (zeroResponse .duplicate) :=
    ⟨4, ⟨1, 5⟩, rfl, rfl⟩
  refine ⟨codedTimeline_replica, codedTimeline_retained, answered, ?_⟩
  obtain ⟨first, lost, run⟩ := zeroAppend_lost codedTimeline_replica
  obtain ⟨stored, prepared⟩ := codedAppend_prepared first
  obtain ⟨second, acknowledged, again⟩ := zeroAppend_again codedTimeline_replica rfl rfl prepared
    answered rfl run
  refine ⟨first, second, lost, acknowledged, ?_⟩
  have large : inlinePayloadThresholdBytes < zeroBody.length := by
    rw [zeroBody_length]
    decide
  rw [again.read_eq ErasureCode.mirror_lawful codedTimeline_replica codedTimeline_proper large
    (mem_cons_of_mem _ mem_cons_self)
    (rfl : zeroHeader.certificate = some pairCertificate)
    codedTimeline_replica.take_length codedTimeline_retained rfl (fun _ _ => rfl) (fun _ _ => rfl)
    (fun _ _ => rfl)]
  refine if_neg fun same => ?_
  have first_mode : timelineGroup.lastMode zeroBody .mirror
      [⟨codedAppend.mode, {}⟩, ⟨.complete, {}⟩] 1 = some .coded := rfl
  rw [same 1 (by decide)] at first_mode
  cases first_mode

/-- Retried in its own mode, the body is still read. -/
theorem retried_body_readable_iff_complete :
    ∃ first second,
      timelineGroup.commitHeader .mirror zeroSha256 zeroAppend
        (lostReply (replay repeatedTimeline)) noFragments =
          (.error (.raft "connection closed"), first) ∧
      timelineGroup.commitHeader .mirror zeroSha256 zeroAppend
        (zeroEnvironment .duplicate (replay repeatedTimeline)) first =
          (.ok (zeroResponse .duplicate), second) ∧
      timelineGroup.read (sealThenReconstruct .mirror zeroSha256 {} {} second)
        (replay repeatedTimeline) 4 = .ok zeroBody := by
  have replica : ReplicaAt repeatedTimeline (replay repeatedTimeline) :=
    ReplicaAt.of_apply (by decide) (by decide)
  have proper : Proper repeatedTimeline := .of_forall (by decide)
  obtain ⟨first, lost, run⟩ := zeroAppend_lost replica
  obtain ⟨stored, prepared⟩ := zeroAppend_prepared first
  obtain ⟨second, acknowledged, again⟩ := zeroAppend_again replica rfl rfl prepared
    ⟨4, ⟨1, 5⟩, rfl, rfl⟩ rfl run
  refine ⟨first, second, lost, acknowledged,
    (retried_body_readable_iff ErasureCode.mirror_lawful replica proper again mem_cons_self
      replica.take_length rfl rfl (fun _ _ _ _ => ⟨rfl, rfl, rfl⟩)).mpr ?_⟩
  intro certificate certified holder member
  cases certified
  have reached : ∀ holder ∈ [1, 2], timelineGroup.lastMode zeroBody .mirror
      [⟨zeroAppend.mode, {}⟩, ⟨.complete, {}⟩] holder = some .complete := by
    intro holder member
    rcases mem_pair.mp member with rfl | rfl
    · rfl
    · rfl
  exact reached holder member

end Verglas.Consensus
