import Verglas.Consensus.Group
import Verglas.Consensus.History
import Verglas.Consensus.PayloadQuorum

/-!
# Retries

A request that has committed keeps its identity for ever, and a later command under the same request
is answered from it.  The identity binds the group, the kind, the hash of the body and the writer
epoch.  It does not bind metadata that is not part of the body, and the answer of a retry whose body
was staged depends on the header that later pruning removes.
-/

namespace Verglas.Consensus

open ConsensusGroup

variable {code : ErasureCode UInt8} {sha256 : Bytes → Digest}

variable {state applied : StateMachineData} {header : EntryHeader} {identity : AppliedIdentity}
  {metadata : EntryMetadata} {log : List Entry} {response : RaftResponse} {outcome : AppliedOutcome}

variable {entry : Entry} {bound : EntryHeader} {request : RequestId} {later position : Nat}

/-- A command under a known request is answered from the identity of that request. -/
theorem applyEntry_of_known (payload : entry.payload = .normal (.commit header))
    (known : state.retries.get header.request = some identity) :
    (applyEntry state entry).2 = .ok (retryResponse identity header) := by
  simp [applyEntry, payload, applyCommit, known]

/-- The retry identity matches the command. -/
structure AppliedIdentity.Matches (identity : AppliedIdentity) (header : EntryHeader) : Prop where
  group : identity.group = header.group
  kind : identity.kind = header.kind
  hash : identity.hash = header.payloadHash
  writerEpoch : identity.writerEpoch = header.writerEpoch

theorem retryResponse_of_matches (same : identity.Matches header) :
    retryResponse identity header =
      { commitResponse identity with outcome := .duplicate } := by
  simp [retryResponse, commitResponse, same.group, same.kind, same.hash, same.writerEpoch]

theorem retryResponse_outcome (identity : AppliedIdentity) (header : EntryHeader) :
    ((retryResponse identity header).outcome = .duplicate ↔ identity.Matches header) ∧
      (¬identity.Matches header → (retryResponse identity header).outcome = .conflictingRetry) := by
  simp only [retryResponse]
  split
  · rename_i same
    obtain ⟨group, kind, hash, writerEpoch⟩ := same
    exact ⟨iff_of_true rfl ⟨group, kind, hash, writerEpoch⟩,
      fun differs => absurd ⟨group, kind, hash, writerEpoch⟩ differs⟩
  · rename_i different
    have unmatched : ¬identity.Matches header := fun matching =>
      different ⟨matching.group, matching.kind, matching.hash, matching.writerEpoch⟩
    exact ⟨iff_of_false (by simp) unmatched, fun _ => rfl⟩

/-- Two headers, with the bodies that they stand for, are the same command. -/
structure SameCommand (left right : EntryHeader) (leftBody rightBody : Bytes) : Prop where
  group : left.group = right.group
  kind : left.kind = right.kind
  body : leftBody = rightBody
  writerEpoch : left.writerEpoch = right.writerEpoch
  metadata : left.metadata = right.metadata

variable {index : Nat}

/-- A reused request is a duplicate exactly when it is the same command, and a conflict otherwise,
if and only if the metadata of the two headers agree whenever group, kind, body and writer epoch
do. -/
theorem retry_binds_command_iff (replica : ReplicaAt log state) {committed reused : EntryHeader}
    (earlier : (index, committed) ∈ history log) (same_request : reused.request = committed.request)
    (payload : entry.payload = .normal (.commit reused)) {committedBody reusedBody : Bytes}
    (committed_hash : committed.payloadHash = sha256 committedBody)
    (reused_hash : reused.payloadHash = sha256 reusedBody)
    (no_collision : sha256 reusedBody = sha256 committedBody → reusedBody = committedBody) :
    ∃ response, (applyEntry state entry).2 = .ok response ∧
      (((response.outcome = .duplicate ↔ SameCommand reused committed reusedBody committedBody) ∧
        (¬SameCommand reused committed reusedBody committedBody →
          response.outcome = .conflictingRetry)) ↔
      (reused.group = committed.group → reused.kind = committed.kind →
        reusedBody = committedBody → reused.writerEpoch = committed.writerEpoch →
        reused.metadata = committed.metadata)) := by
  obtain ⟨identity, known, names⟩ := replica.recorded.retries index committed earlier
  rw [← same_request] at known
  obtain ⟨duplicate_iff, conflict⟩ := retryResponse_outcome identity reused
  have matches_iff : identity.Matches reused ↔ reused.group = committed.group ∧
      reused.kind = committed.kind ∧ reusedBody = committedBody ∧
      reused.writerEpoch = committed.writerEpoch := by
    constructor
    · intro same
      refine ⟨by rw [← same.group, names.group], by rw [← same.kind, names.kind],
        no_collision ?_, by rw [← same.writerEpoch, names.writerEpoch]⟩
      rw [← reused_hash, ← same.hash, names.hash, committed_hash]
    · rintro ⟨group, kind, body, writerEpoch⟩
      exact ⟨names.group.trans group.symm, names.kind.trans kind.symm,
        by rw [names.hash, committed_hash, reused_hash, body],
        names.writerEpoch.trans writerEpoch.symm⟩
  refine ⟨_, applyEntry_of_known payload known, ?_⟩
  rw [duplicate_iff, matches_iff]
  constructor
  · rintro ⟨exact_iff, _⟩ group kind body writerEpoch
    exact (exact_iff.mp ⟨group, kind, body, writerEpoch⟩).metadata
  · intro determined
    have exact_iff : (reused.group = committed.group ∧ reused.kind = committed.kind ∧
        reusedBody = committedBody ∧ reused.writerEpoch = committed.writerEpoch) ↔
        SameCommand reused committed reusedBody committedBody := by
      constructor
      · rintro ⟨group, kind, body, writerEpoch⟩
        exact ⟨group, kind, body, writerEpoch, determined group kind body writerEpoch⟩
      · exact fun same => ⟨same.group, same.kind, same.body, same.writerEpoch⟩
    refine ⟨exact_iff, fun different => conflict ?_⟩
    rw [matches_iff, exact_iff]
    exact different

def emptySha256 (body : Bytes) : Digest :=
  if body = [] then
    digestOfHex "e3b0c44298fc1c149afbf4c8996fb92427ae41e4649b934ca495991b7852b855"
  else Vector.replicate 32 0

def timelineGroup : ConsensusGroup where
  group := "timeline"
  configurationGeneration := 1
  payloads := mirrorStore
  group_ne_empty := timeline_ne_empty
  generation_ne_zero := Nat.one_ne_zero

/-- An opening of the timeline at a position, under the second request. -/
def opening (start : Nat) : EntryHeader :=
  inlineHeader "timeline" 2 .timelineOpen none []
    "e3b0c44298fc1c149afbf4c8996fb92427ae41e4649b934ca495991b7852b855" (.walStart start)
    ⟨rfl, rfl⟩ timeline_ne_empty

def openedTimeline : List Entry := shortTimeline.take 2

theorem openedTimeline_replica : ReplicaAt openedTimeline (replay openedTimeline) :=
  ReplicaAt.of_apply (by decide) (by decide)

theorem openedTimeline_history : (2, opening 0) ∈ history openedTimeline := by
  have recorded : (history openedTimeline)[1]? = some (2, opening 0) := rfl
  exact List.mem_of_getElem? recorded

/-- A timeline opened at zero answers `Duplicate` when the same request opens it at one hundred. -/
theorem reopening_elsewhere_is_duplicate :
    (timelineGroup.prepareHeader .mirror emptySha256 (.openTimeline 2 0) [] {}
        fun _ _ => none).1.toOption = some (opening 0, none) ∧
      (timelineGroup.prepareHeader .mirror emptySha256 (.openTimeline 2 100) [] {}
        fun _ _ => none).1.toOption = some (opening 100, none) ∧
      (2, opening 0) ∈ history openedTimeline ∧
      (opening 100).metadata ≠ (opening 0).metadata ∧
      (applyEntry (replay openedTimeline) ⟨⟨1, 3⟩, .normal (.commit (opening 100))⟩).2.toOption =
        some { index := 2, outcome := .duplicate, walEnd := some 0 } :=
  ⟨rfl, rfl, openedTimeline_history, by decide, by decide⟩

/-- The same opening again is a duplicate. -/
theorem retry_binds_command_iff_opening :
    ∃ response, (applyEntry (replay openedTimeline)
        ⟨⟨1, 3⟩, .normal (.commit (opening 0))⟩).2 = .ok response ∧
      response.outcome = .duplicate := by
  have empty_hash : (opening 0).payloadHash = emptySha256 [] := by decide
  obtain ⟨response, answer, binds⟩ := retry_binds_command_iff openedTimeline_replica
    openedTimeline_history rfl
    (rfl : (⟨⟨1, 3⟩, .normal (.commit (opening 0))⟩ : Entry).payload = _) empty_hash empty_hash
    fun _ => rfl
  have exact_iff := (binds.mpr fun _ _ _ _ => rfl).1
  exact ⟨response, answer, exact_iff.mpr ⟨rfl, rfl, rfl, rfl, rfl⟩⟩

/-- What the decorator checks before it binds metadata. -/
def EntryMetadata.Binds (sha256 : Bytes → Digest) (metadata : EntryMetadata) (kind : CommandKind)
    (payloadLen : Nat) (payloadHash : Digest) : Prop :=
  metadata.Fits kind payloadLen ∧
    ∀ segment, metadata = .archive segment → payloadHash = sha256 (asBytes segment.key)

theorem decorate_ok_iff :
    (∃ decorated, header.decorate metadata = .ok decorated) ↔
      metadata.Fits header.kind header.payloadLen := by
  rw [EntryHeader.decorate]
  split
  · rename_i fits
    exact iff_of_true ⟨_, rfl⟩ fits
  · rename_i unfit
    exact iff_of_false (by simp) unfit

theorem bind_ok_iff :
    (∃ bound, header.bind sha256 metadata = .ok bound) ↔
      metadata.Binds sha256 header.kind header.payloadLen header.payloadHash := by
  have plain : (∀ segment, metadata ≠ .archive segment) →
      (metadata.Fits header.kind header.payloadLen ↔
        metadata.Binds sha256 header.kind header.payloadLen header.payloadHash) :=
    fun other => (and_iff_left fun segment equal => absurd equal (other segment)).symm
  cases metadata with
  | none => exact iff_of_true ⟨header, rfl⟩ ⟨trivial, by simp⟩
  | archive segment =>
    simp only [EntryHeader.bind, EntryHeader.withArchiveSegment]
    split
    · rename_i hash_ne
      exact iff_of_false (by simp) fun binds => hash_ne (binds.2 segment rfl)
    · rename_i hash_eq
      rw [decorate_ok_iff]
      refine (and_iff_left ?_).symm
      rintro other equal
      cases equal
      exact not_not.mp hash_eq
  | _ => exact decorate_ok_iff.trans (plain (by simp))

theorem bind_eq_ok (accepted : header.bind sha256 metadata = .ok bound) :
    ∃ fits, bound = { header with metadata := bound.metadata, fits } ∧
      (header.metadata = .none → bound.metadata = metadata) := by
  have decorated (accepted : header.decorate metadata = .ok bound) : ∃ fits,
      bound = { header with metadata := bound.metadata, fits } ∧
        (header.metadata = .none → bound.metadata = metadata) := by
    obtain ⟨fits, rfl⟩ := EntryHeader.decorate_eq_ok accepted
    exact ⟨fits, rfl, fun _ => rfl⟩
  cases metadata with
  | none =>
    cases accepted
    exact ⟨header.fits, rfl, id⟩
  | archive segment =>
    simp only [EntryHeader.bind, EntryHeader.withArchiveSegment] at accepted
    split at accepted
    · cases accepted
    · exact decorated accepted
  | _ => exact decorated accepted

/-- A header that carries the identity of a submission. -/
structure ConsensusGroup.Carries (issuer : ConsensusGroup) (sha256 : Bytes → Digest)
    (submission : Submission) (header : EntryHeader) : Prop where
  group : header.group = issuer.group
  generation : header.configurationGeneration = issuer.configurationGeneration
  kind : header.kind = submission.kind
  request : header.request = submission.request
  length : header.payloadLen = submission.body.length
  hash : header.payloadHash = sha256 submission.body
  writerEpoch : header.writerEpoch = submission.writerEpoch

namespace ConsensusGroup

variable {self : ConsensusGroup} {submission : Submission} {header : EntryHeader}
  {staged : Option StagedPayload} {completion : List Nat} {network : Network}
  {fragments : Fragments}

variable {base : EntryHeader} {after : Fragments}

theorem Carries.of_finishHeader {found : Option StagedPayload}
    (carries : self.Carries sha256 submission base)
    (finished : finishHeader sha256 submission.metadata staged (.ok base) = .ok (header, found)) :
    self.Carries sha256 submission header ∧ found = staged ∧
      submission.metadata.Binds sha256 submission.kind submission.body.length
        (sha256 submission.body) ∧
      (base.metadata = .none → header.metadata = submission.metadata) ∧
      header.inlineBody = base.inlineBody ∧ header.certificate = base.certificate := by
  simp only [finishHeader] at finished
  split at finished
  · cases finished
  rename_i bound accepted
  cases finished
  obtain ⟨fits, bound_eq, metadata⟩ := bind_eq_ok accepted
  refine ⟨?_, rfl, ?_, metadata, by rw [bound_eq], by rw [bound_eq]⟩
  · rw [bound_eq]
    exact ⟨carries.group, carries.generation, carries.kind, carries.request, carries.length,
      carries.hash, carries.writerEpoch⟩
  · rw [← carries.kind, ← carries.length, ← carries.hash]
    exact bind_ok_iff.mp ⟨_, accepted⟩

theorem finishHeader_of_binds (carries : self.Carries sha256 submission base)
    (binds : submission.metadata.Binds sha256 submission.kind submission.body.length
      (sha256 submission.body)) :
    ∃ header, finishHeader sha256 submission.metadata staged (.ok base) = .ok (header, staged) := by
  rw [← carries.kind, ← carries.length, ← carries.hash] at binds
  obtain ⟨bound, accepted⟩ := bind_ok_iff.mpr binds
  exact ⟨bound, by simp only [finishHeader, accepted]⟩

theorem newInline_carries (self : ConsensusGroup) (submission : Submission) :
    ∃ base, EntryHeader.newInline sha256 self.group self.configurationGeneration submission.kind
        submission.request submission.writerEpoch submission.body = .ok base ∧
      self.Carries sha256 submission base ∧ base.metadata = .none ∧
      base.inlineBody = some submission.body := by
  simp only [EntryHeader.newInline, dif_neg self.group_ne_empty]
  exact ⟨_, rfl, ⟨rfl, rfl, rfl, rfl, rfl, rfl, rfl⟩, rfl, rfl⟩

theorem new_carries (self : ConsensusGroup) (submission : Submission) {staged : StagedPayload}
    (hash_eq : staged.hash = sha256 submission.body)
    (length_eq : staged.length = submission.body.length) :
    ∃ base, EntryHeader.new self.group self.configurationGeneration submission.kind
        submission.request staged.length staged.hash submission.writerEpoch staged.certificate =
          .ok base ∧
      self.Carries sha256 submission base ∧ base.metadata = .none ∧
      base.certificate = some staged.certificate := by
  simp only [EntryHeader.new, dif_neg self.group_ne_empty]
  exact ⟨_, rfl, ⟨rfl, rfl, rfl, rfl, length_eq, hash_eq, rfl⟩, rfl, rfl⟩

theorem prepareHeader_ok
    (prepared : self.prepareHeader code sha256 submission completion network fragments =
      (.ok (header, staged), after)) :
    self.Carries sha256 submission header ∧
      (submission.metadata.Binds sha256 submission.kind submission.body.length
        (sha256 submission.body) ∧ header.metadata = submission.metadata) ∧
      ((submission.body.length ≤ inlinePayloadThresholdBytes ∧ staged = none ∧
          header.inlineBody = some submission.body) ∨
        inlinePayloadThresholdBytes < submission.body.length ∧ ∃ payload, staged = some payload ∧
          header.certificate = some payload.certificate ∧
          self.payloads.stage code sha256 (self.staging submission) completion network fragments =
            (.ok payload, after)) := by
  rw [prepareHeader] at prepared
  split at prepared
  · rename_i small
    obtain ⟨base, built, carries, bare, inline⟩ := @newInline_carries sha256 self submission
    rw [built] at prepared
    obtain ⟨finished, rfl⟩ := Prod.mk.inj prepared
    obtain ⟨carried, staged_eq, binds, metadata, body_eq, _⟩ := carries.of_finishHeader finished
    exact ⟨carried, ⟨binds, metadata bare⟩, .inl ⟨small, staged_eq, body_eq.trans inline⟩⟩
  · rename_i large
    split at prepared
    · cases prepared
    rename_i payload stored accepted
    obtain ⟨hash_eq, length_eq, _⟩ := stage_ok accepted
    obtain ⟨base, built, carries, bare, certified⟩ :=
      self.new_carries submission hash_eq length_eq
    rw [built] at prepared
    obtain ⟨finished, rfl⟩ := Prod.mk.inj prepared
    obtain ⟨carried, staged_eq, binds, metadata, _, certificate_eq⟩ :=
      carries.of_finishHeader finished
    exact ⟨carried, ⟨binds, metadata bare⟩, .inr ⟨not_le.mp large, payload, staged_eq,
      certificate_eq.trans certified, accepted⟩⟩

theorem metadata_of_prepareHeader
    (prepared : self.prepareHeader code sha256 submission completion network fragments =
      (.ok (header, staged), after)) : header.metadata = submission.metadata :=
  (prepareHeader_ok prepared).2.1.2

theorem prepareHeader_of_binds
    (binds : submission.metadata.Binds sha256 submission.kind submission.body.length
      (sha256 submission.body))
    (stages : inlinePayloadThresholdBytes < submission.body.length → ∃ payload stored,
      self.payloads.stage code sha256 (self.staging submission) completion network fragments =
        (.ok payload, stored)) :
    ∃ header staged after, self.prepareHeader code sha256 submission completion network fragments =
      (.ok (header, staged), after) := by
  rw [prepareHeader]
  split
  · obtain ⟨base, built, carries, _⟩ := @newInline_carries sha256 self submission
    obtain ⟨header, finished⟩ := @finishHeader_of_binds sha256 _ _ none _ carries binds
    rw [built, finished]
    exact ⟨header, none, fragments, rfl⟩
  · rename_i large
    obtain ⟨payload, stored, accepted⟩ := stages (not_le.mp large)
    obtain ⟨hash_eq, length_eq, _⟩ := stage_ok accepted
    obtain ⟨base, built, carries, _⟩ := self.new_carries submission hash_eq length_eq
    obtain ⟨header, finished⟩ := @finishHeader_of_binds sha256 _ _ (some payload) _ carries binds
    rw [accepted]
    dsimp only
    rw [built, finished]
    exact ⟨header, some payload, stored, rfl⟩

end ConsensusGroup

theorem retries_applyEntry (known : state.retries.get request = some identity) (entry : Entry) :
    (applyEntry state entry).1.retries.get request = some identity := by
  rcases applyEntry_cases state entry with ⟨response, step⟩ | unchanged
  · generalize (applyEntry state entry).1 = after at step
    cases step with
    | recorded header effect payload fresh fenced transition =>
      have retries_eq : effect.state.retries = state.retries :=
        (metadataFrame_of_applyMetadata transition).retries
      have request_ne : request ≠ header.request := by
        rintro rfl
        rw [known] at fresh
        cases fresh
      rw [recordCommit_retries, OrderedMap.get_insert_of_ne request_ne, retries_eq, known]
    | repaired index generation certificate after payload accepted =>
      rw [(applyRepair_ok accepted).1]
      exact known
    | _ => exact known
  · rw [unchanged]
    exact known

theorem retries_replay {earlier : Nat} (ordered : earlier ≤ later)
    (known : (replay (log.take earlier)).retries.get request = some identity) :
    (replay (log.take later)).retries.get request = some identity := by
  induction ordered with
  | refl => exact known
  | @step position _ ih =>
    rw [List.take_add_one]
    cases log[position]? with
    | none => simpa using ih
    | some entry =>
      rw [Option.toList_some, replay_concat]
      exact retries_applyEntry ih entry

/-- Two answers agree in what they report of the command. -/
def SameAnswer (left right : RaftResponse) : Prop :=
  left.index = right.index ∧ left.walEnd = right.walEnd ∧ left.archiveLsn = right.archiveLsn ∧
    left.catalogChanged = right.catalogChanged

/-- An acknowledged command leaves an identity that matches it and repeats its answer. -/
theorem identity_of_acknowledged (payload : entry.payload = .normal (.commit header))
    (answer : (applyEntry state entry).2 = .ok response)
    (acknowledged : response.outcome = .committed ∨ response.outcome = .duplicate) :
    ∃ identity, (applyEntry state entry).1.retries.get header.request = some identity ∧
      identity.Matches header ∧ SameAnswer (commitResponse identity) response := by
  obtain ⟨after, step⟩ : ∃ after, applyEntry state entry = (after, .ok response) :=
    ⟨_, Prod.ext rfl answer⟩
  cases known : state.retries.get header.request with
  | some identity =>
    rw [applyEntry_of_known payload known] at answer
    injection answer with response_eq
    have matching : identity.Matches header := by
      by_contra unmatched
      have conflict := (retryResponse_outcome identity header).2 unmatched
      rw [response_eq] at conflict
      rcases acknowledged with committed | duplicate
      · rw [committed] at conflict
        cases conflict
      · rw [duplicate] at conflict
        cases conflict
    rw [retryResponse_of_matches matching] at response_eq
    refine ⟨identity, retries_applyEntry known entry, matching, ?_⟩
    rw [← response_eq]
    exact ⟨rfl, rfl, rfl, rfl⟩
  | none =>
    have refused_ne : ∀ {other : EntryHeader}, entry.payload = .normal (.commit other) →
        (state.retries.get other.request).isSome → False := by
      intro other other_payload found
      rw [payload] at other_payload
      cases other_payload
      rw [known] at found
      cases found
    rw [step]
    cases applied_of_applyEntry step with
    | refused other _ other_payload closed duplicate =>
      rcases acknowledged with committed | again
      · exact absurd committed closed
      · exact (refused_ne other_payload (duplicate again)).elim
    | recorded other effect other_payload fresh fenced transition =>
      rw [payload] at other_payload
      cases other_payload
      refine ⟨appliedIdentity effect entry.logId header, ?_, ⟨rfl, rfl, rfl, rfl⟩, rfl, rfl,
        rfl, rfl⟩
      rw [recordCommit_retries, OrderedMap.get_insert_self]
    | blank other_payload | membership _ other_payload | repaired _ _ _ _ other_payload
    | released _ other_payload => rw [payload] at other_payload; cases other_payload

theorem identity_at_later (ordered : position < later) {logId : LogId}
    (logged : log[position]? = some ⟨logId, .normal (.commit header)⟩)
    (answer : (applyEntry (replay (log.take position)) ⟨logId, .normal (.commit header)⟩).2 =
      .ok response)
    (acknowledged : response.outcome = .committed ∨ response.outcome = .duplicate) :
    ∃ identity, (replay (log.take later)).retries.get header.request = some identity ∧
      identity.Matches header ∧ SameAnswer (commitResponse identity) response := by
  obtain ⟨identity, known, described⟩ := identity_of_acknowledged rfl answer acknowledged
  refine ⟨identity, ?_, described⟩
  apply retries_replay (Nat.succ_le_of_lt ordered)
  rw [List.take_add_one, logged, Option.toList_some, replay_concat]
  exact known

theorem Answered.recorded (answered : Answered log header response) {final : StateMachineData}
    (whole : ReplicaAt log final)
    (acknowledged : response.outcome = .committed ∨ response.outcome = .duplicate) :
    ∃ other, (response.index, other) ∈ history log ∧ other.request = header.request := by
  obtain ⟨position, entryId, logged, answer⟩ := answered
  obtain ⟨identity, known_later, _, index_eq, _⟩ := identity_at_later
    (lt_of_lt_of_le (Nat.lt_succ_self position) (le_max_left _ log.length)) logged answer
    acknowledged
  rw [List.take_of_length_le (le_max_right _ _)] at known_later
  have core_eq := congrArg StateMachineData.retries whole.core_eq
  have retries_eq : final.retries = (replay log).retries := core_eq
  rw [← retries_eq] at known_later
  obtain ⟨index, other, recorded, request_eq, names⟩ := whole.recorded.known _ _ known_later
  have response_eq : response.index = index := index_eq.symm.trans names.index
  exact ⟨other, response_eq ▸ recorded, request_eq⟩

/-- Entries that carry a command have a positive term and index. -/
def Proper (log : List Entry) : Prop :=
  ∀ entry ∈ log, ∀ command, entry.payload = .normal command →
    0 < entry.logId.term ∧ 0 < entry.logId.index

theorem Proper.of_forall
    (positive : ∀ entry ∈ log, 0 < entry.logId.term ∧ 0 < entry.logId.index) : Proper log :=
  fun entry member _ _ => positive entry member

/-- The header that a write prepares commits at a position of the log, and the write is given its
answer. -/
def CommitsAt (code : ErasureCode UInt8) (sha256 : Bytes → Digest) (log : List Entry)
    (position : Nat) (issuer : ConsensusGroup) (submission : Submission)
    (environment : WriteEnvironment) (fragments : Fragments) : Prop :=
  ∀ header staged after,
    issuer.prepareHeader code sha256 submission environment.completion environment.staging
      fragments = (.ok (header, staged), after) →
    ∃ logId response, log[position]? = some ⟨logId, .normal (.commit header)⟩ ∧
      (applyEntry (replay (log.take position)) ⟨logId, .normal (.commit header)⟩).2 =
        .ok response ∧
      environment.write = .ok response

/-- The payload store stages the body of the write, and every voter answers its seal. -/
structure Healthy (code : ErasureCode UInt8) (sha256 : Bytes → Digest) (issuer : ConsensusGroup)
    (submission : Submission) (environment : WriteEnvironment) (fragments : Fragments) :
    Prop where
  stages : inlinePayloadThresholdBytes < submission.body.length → ∃ payload stored,
    issuer.payloads.stage code sha256 (issuer.staging submission) environment.completion
      environment.staging fragments = (.ok payload, stored)
  loads : ∀ voter ∈ issuer.payloads.voters, environment.sealing.load voter = none
  stores : ∀ voter ∈ issuer.payloads.voters, environment.sealing.store voter = .answered

theorem closeOutcome_eq_ok_iff {answer : RaftResponse} :
    closeOutcome response = .ok answer ↔
      answer = response ∧ (response.outcome = .committed ∨ response.outcome = .duplicate) := by
  unfold closeOutcome
  cases response.outcome <;> simp [eq_comm]

variable {length : Nat}

namespace ConsensusGroup

variable {self : ConsensusGroup} {submission : Submission} {environment : WriteEnvironment}
  {fragments : Fragments} {response : RaftResponse}

/-- An acknowledged write prepared its header, and its command committed now or earlier. -/
theorem of_commitHeader_ok
    (acknowledged : (self.commitHeader code sha256 submission environment fragments).1 =
      .ok response) :
    (∃ header staged after, self.prepareHeader code sha256 submission environment.completion
        environment.staging fragments = (.ok (header, staged), after)) ∧
      environment.write = .ok response ∧
      (response.outcome = .committed ∨ response.outcome = .duplicate) := by
  rw [commitHeader] at acknowledged
  split at acknowledged
  · cases acknowledged
  rename_i header staged after prepared
  refine ⟨⟨header, staged, after, prepared⟩, ?_⟩
  split at acknowledged
  · cases acknowledged
  rename_i answer written
  have closed : closeOutcome answer = .ok response := by
    unfold acknowledge at acknowledged
    split at acknowledged
    · exact acknowledged
    split at acknowledged
    · split at acknowledged
      · cases acknowledged
      · exact acknowledged
    · exact acknowledged
  obtain ⟨rfl, outcome⟩ := closeOutcome_eq_ok_iff.mp closed
  exact ⟨written, outcome⟩

variable {stored : Fragments} {payload : StagedPayload} {logId : LogId}

theorem sealCommitted_of_stage {completion : List Nat} {staging sealing : Network}
    (staged : self.payloads.stage code sha256 (self.staging submission) completion staging
      fragments = (.ok payload, stored))
    (loads : ∀ voter ∈ self.payloads.voters, sealing.load voter = none)
    (stores : ∀ voter ∈ self.payloads.voters, sealing.store voter = .answered)
    (identified : state.committedLogIds.get index = some logId) (term_pos : 0 < logId.term)
    (index_pos : 0 < logId.index) :
    (self.sealCommitted submission.request payload index state sealing stored).1 = .ok () := by
  obtain ⟨hash_eq, _, allocation, staging_eq, certificate_eq, _, _, voters_eq, held⟩ :=
    stage_ok staged
  have holder_voter : ∀ holder ∈ allocation.certificate.holders, holder ∈ self.payloads.voters :=
    fun holder member => voters_eq ▸ allocation.certificate.holders_subset holder member
  have sealed := Allocation.sealPayload_of_answers term_pos index_pos
    (fun holder member => .inr (.inl (held holder member).2))
    (fun holder member => by rw [(held holder member).2]; simp)
    (fun holder member => loads holder (holder_voter holder member))
    (fun holder member => stores holder (holder_voter holder member))
  have hash_is : payload.hash = sha256 submission.body := hash_eq
  simp only [Allocation.sealRequest, staging_eq, certificate_eq, ConsensusGroup.staging] at sealed
  simp only [sealCommitted, identified, hash_is, sealed]

theorem commitHeader_of_staged
    (prepared : self.prepareHeader code sha256 submission environment.completion
      environment.staging fragments = (.ok (header, some payload), stored))
    (written : environment.write = .ok response)
    (outcome : response.outcome = .committed ∨ response.outcome = .duplicate)
    (loads : ∀ voter ∈ self.payloads.voters, environment.sealing.load voter = none)
    (stores : ∀ voter ∈ self.payloads.voters, environment.sealing.store voter = .answered)
    (identified : environment.applied.committedLogIds.get response.index = some logId)
    (term_pos : 0 < logId.term) (index_pos : 0 < logId.index) :
    (self.commitHeader code sha256 submission environment fragments).1 = .ok response := by
  obtain ⟨_, _, ⟨_, unstaged, _⟩ | ⟨_, _, payload_eq, _, staged⟩⟩ := prepareHeader_ok prepared
  · cases unstaged
  · cases payload_eq
    have sealed := sealCommitted_of_stage staged loads stores identified term_pos index_pos
    have closes : closeOutcome response = .ok response := closeOutcome_eq_ok_iff.mpr ⟨rfl, outcome⟩
    simp only [commitHeader, prepared, written, acknowledge, if_pos outcome]
    split
    · rename_i failed
      rw [failed] at sealed
      cases sealed
    · exact closes

/-- A write whose command committed, now or earlier, is acknowledged exactly when its body travels
inside the header or the replica that answers still retains the header. -/
theorem commitHeader_ok_iff (proper : Proper log) {after : Fragments}
    {staged : Option StagedPayload}
    (prepared : self.prepareHeader code sha256 submission environment.completion
      environment.staging fragments = (.ok (header, staged), after))
    (written : environment.write = .ok response)
    (outcome : response.outcome = .committed ∨ response.outcome = .duplicate)
    (applied : ReplicaAt (log.take length) environment.applied)
    (healthy : Healthy code sha256 self submission environment fragments) :
    (self.commitHeader code sha256 submission environment fragments).1 = .ok response ↔
      submission.body.length ≤ inlinePayloadThresholdBytes ∨
        (environment.applied.committedLogIds.get response.index).isSome := by
  obtain ⟨_, _, ⟨small, rfl, _⟩ | ⟨large, payload, rfl, _⟩⟩ := prepareHeader_ok prepared
  · refine iff_of_true ?_ (.inl small)
    simp only [commitHeader, prepared, written]
    exact closeOutcome_eq_ok_iff.mpr ⟨rfl, outcome⟩
  · cases identified : environment.applied.committedLogIds.get response.index with
    | none =>
      refine iff_of_false ?_ (by simpa using large)
      intro accepted
      simp only [commitHeader, prepared, written, acknowledge, if_pos outcome, sealCommitted,
        identified] at accepted
      cases accepted
    | some logId =>
      obtain ⟨_, _, logged, _⟩ := applied.recorded.logIds _ _ identified
      obtain ⟨term_pos, index_pos⟩ := proper _ (List.mem_of_mem_take logged) _ rfl
      exact iff_of_true (commitHeader_of_staged prepared written outcome healthy.loads
        healthy.stores identified term_pos index_pos) (.inr rfl)

end ConsensusGroup

/-- The retry of an acknowledged write is acknowledged with the original answer if and only if its
body travels inside the header or the replica that answers still retains the header. -/
theorem exact_retry_iff (proper : Proper log) {earlier later : ConsensusGroup}
    (same_group : later.group = earlier.group) {submission : Submission}
    {first retry : WriteEnvironment} {before fragments : Fragments}
    (acknowledged : (earlier.commitHeader code sha256 submission first before).1 = .ok response)
    {retryPosition : Nat}
    (first_commits : CommitsAt code sha256 log position earlier submission first before)
    (retry_commits : CommitsAt code sha256 log retryPosition later submission retry fragments)
    (ordered : position < retryPosition) (applied : ReplicaAt (log.take length) retry.applied)
    (healthy : Healthy code sha256 later submission retry fragments) :
    (∃ answer, (later.commitHeader code sha256 submission retry fragments).1 = .ok answer ∧
      answer.index = response.index ∧ answer.walEnd = response.walEnd ∧
      answer.archiveLsn = response.archiveLsn ∧
      answer.catalogChanged = response.catalogChanged) ↔
    submission.body.length ≤ inlinePayloadThresholdBytes ∨
      (retry.applied.committedLogIds.get response.index).isSome := by
  obtain ⟨⟨header, staged, after, prepared⟩, written, outcome⟩ :=
    of_commitHeader_ok acknowledged
  obtain ⟨logId, answered, at_position, answer_eq, write_eq⟩ :=
    first_commits header staged after prepared
  rw [written] at write_eq
  cases write_eq
  obtain ⟨carries, ⟨binds, _⟩, _⟩ := prepareHeader_ok prepared
  -- The identity left by the first commit is still there when the retry applies.
  obtain ⟨identity, known_later, matching, repeats⟩ :=
    identity_at_later ordered at_position answer_eq outcome
  obtain ⟨retried, retriedStaged, stored, prepared_again⟩ :=
    prepareHeader_of_binds binds healthy.stages
  obtain ⟨carries_again, _⟩ := prepareHeader_ok prepared_again
  obtain ⟨retryId, answer, _, retry_answer, retry_written⟩ :=
    retry_commits retried retriedStaged stored prepared_again
  have same_identity : identity.Matches retried :=
    ⟨by rw [matching.group, carries.group, carries_again.group, same_group],
      by rw [matching.kind, carries.kind, carries_again.kind],
      by rw [matching.hash, carries.hash, carries_again.hash],
      by rw [matching.writerEpoch, carries.writerEpoch, carries_again.writerEpoch]⟩
  rw [carries.request, ← carries_again.request] at known_later
  rw [applyEntry_of_known rfl known_later, retryResponse_of_matches same_identity] at retry_answer
  injection retry_answer with answer_is
  have repeats : SameAnswer answer response := answer_is ▸ repeats
  have closes := commitHeader_ok_iff proper prepared_again retry_written
    (.inr (by rw [← answer_is])) applied healthy
  rw [repeats.1] at closes
  rw [← closes]
  constructor
  · rintro ⟨other, accepted, _⟩
    obtain ⟨_, other_written, _⟩ := of_commitHeader_ok accepted
    rw [retry_written] at other_written
    cases other_written
    exact accepted
  · exact fun accepted => ⟨answer, accepted, repeats⟩

theorem zeroSha256_zeroBody : zeroSha256 zeroBody =
    digestOfHex "7ca5bd879f393d9dd05b14f38add9c0fc6b67928f7f2d261b2e47a32ee8219e3" :=
  if_pos rfl

theorem zeroBody_length : zeroBody.length = 5000 := List.length_replicate

def zeroAppend : Submission where
  request := 9
  kind := .wal
  body := zeroBody
  writerEpoch := some 1
  metadata := .wal 0 5000

def zeroPayload : StagedPayload where
  hash := digestOfHex "7ca5bd879f393d9dd05b14f38add9c0fc6b67928f7f2d261b2e47a32ee8219e3"
  length := 5000
  certificate := pairCertificate

def zeroHeader : EntryHeader where
  group := "timeline"
  configurationGeneration := 1
  kind := .wal
  request := 9
  payloadLen := 5000
  payloadHash := digestOfHex "7ca5bd879f393d9dd05b14f38add9c0fc6b67928f7f2d261b2e47a32ee8219e3"
  writerEpoch := some 1
  certificate := some pairCertificate
  inlineBody := none
  metadata := .wal 0 5000
  group_ne_empty := timeline_ne_empty
  one_body := pair_one_body
  inline_length := by simp
  fits := by decide

theorem zeroAppend_staged (fragments : Fragments) :
    ∃ stored, mirrorStore.stage .mirror zeroSha256 (timelineGroup.staging zeroAppend) [1, 2, 3] {}
      fragments = (.ok zeroPayload, stored) := by
  have staged : (mirrorStore.stage .mirror zeroSha256 (timelineGroup.staging zeroAppend) [1, 2, 3]
      {} fragments).1 = .ok ⟨zeroSha256 zeroBody, zeroBody.length, pairCertificate⟩ := rfl
  rw [zeroSha256_zeroBody, zeroBody_length] at staged
  generalize mirrorStore.stage .mirror zeroSha256 (timelineGroup.staging zeroAppend) [1, 2, 3] {}
    fragments = outcome at staged ⊢
  exact ⟨outcome.2, Prod.ext staged rfl⟩

theorem zeroAppend_prepared (fragments : Fragments) :
    ∃ stored, timelineGroup.prepareHeader .mirror zeroSha256 zeroAppend [1, 2, 3] {} fragments =
        (.ok (zeroHeader, some zeroPayload), stored) := by
  obtain ⟨stored, staged⟩ := zeroAppend_staged fragments
  have large : ¬zeroAppend.body.length ≤ inlinePayloadThresholdBytes := by
    rw [zeroAppend, zeroBody_length]
    decide
  refine ⟨stored, ?_⟩
  rw [prepareHeader, if_neg large]
  have payloads_eq : timelineGroup.payloads = mirrorStore := rfl
  rw [payloads_eq, staged]
  rfl

def zeroSegment : WalArchiveSegment where
  startLsn := 0
  endLsn := 5000
  key := "timeline/0000000000000000-0000000000001388-" ++
    "7ca5bd879f393d9dd05b14f38add9c0fc6b67928f7f2d261b2e47a32ee8219e3"
  hash := digestOfHex "7ca5bd879f393d9dd05b14f38add9c0fc6b67928f7f2d261b2e47a32ee8219e3"
  canonical := by decide

/-- The short timeline up to its lease, with the zero bytes appended instead. -/
def zeroTimeline : List Entry := shortTimeline.take 3 ++ [⟨⟨1, 4⟩, .normal (.commit zeroHeader)⟩]

/-- The checkpoint of the zero bytes. -/
def zeroCheckpoint : EntryHeader :=
  inlineHeader "timeline" 5 .archiveCheckpoint none (asBytes zeroSegment.key)
    "71b288d5664325751cc23460bbdb9237834fbe40b3db8fcdffbb3d8a7658fa56"
    (.archive zeroSegment) (by decide) timeline_ne_empty

/-- The zero bytes archived. -/
def archivedTimeline : List Entry :=
  zeroTimeline ++ [⟨⟨1, 5⟩, .normal (.commit zeroCheckpoint)⟩]

/-- The zero bytes archived, released and appended again. -/
def retriedTimeline : List Entry :=
  archivedTimeline ++
    [⟨⟨1, 6⟩, .normal (.releaseWal 5000)⟩, ⟨⟨1, 7⟩, .normal (.commit zeroHeader)⟩]

def zeroResponse (outcome : AppliedOutcome) : RaftResponse :=
  { index := 4, writerEpoch := some 1, outcome, walEnd := some 5000 }

/-- A write of the zero bytes that every voter answers. -/
def zeroEnvironment (outcome : AppliedOutcome) (applied : StateMachineData) :
    WriteEnvironment where
  completion := [1, 2, 3]
  staging := {}
  write := .ok (zeroResponse outcome)
  applied := applied
  sealing := {}

theorem zeroAppend_commitsAt (fragments : Fragments)
    (logged : log[position]? = some ⟨⟨1, index⟩, .normal (.commit zeroHeader)⟩)
    (answered : (applyEntry (replay (log.take position))
      ⟨⟨1, index⟩, .normal (.commit zeroHeader)⟩).2 = .ok (zeroResponse outcome)) :
    CommitsAt .mirror zeroSha256 log position timelineGroup zeroAppend
      (zeroEnvironment outcome applied) fragments := by
  intro header staged after prepared
  obtain ⟨stored, prepared_eq⟩ := zeroAppend_prepared fragments
  rw [show (zeroEnvironment outcome applied).completion = [1, 2, 3] from rfl,
    show (zeroEnvironment outcome applied).staging = {} from rfl, prepared_eq] at prepared
  cases prepared
  exact ⟨_, _, logged, answered, rfl⟩

theorem zeroAppend_healthy (outcome : AppliedOutcome) (applied : StateMachineData)
    (fragments : Fragments) : Healthy .mirror zeroSha256 timelineGroup zeroAppend
      (zeroEnvironment outcome applied) fragments where
  stages _ := by
    obtain ⟨stored, staged⟩ := zeroAppend_staged fragments
    exact ⟨_, _, staged⟩
  loads _ _ := rfl
  stores _ _ := rfl

theorem zeroAppend_acknowledged (fragments : Fragments)
    (committed : (zeroResponse outcome).outcome = .committed ∨
      (zeroResponse outcome).outcome = .duplicate)
    (retained : applied.committedLogIds.get 4 = some ⟨1, 4⟩) :
    (timelineGroup.commitHeader .mirror zeroSha256 zeroAppend (zeroEnvironment outcome applied)
      fragments).1 = .ok (zeroResponse outcome) := by
  obtain ⟨stored, prepared⟩ := zeroAppend_prepared fragments
  exact commitHeader_of_staged prepared rfl committed (fun _ _ => rfl)
    (fun _ _ => rfl) retained (by decide) (by decide)

theorem zeroAppend_unacknowledged (fragments : Fragments)
    (committed : (zeroResponse outcome).outcome = .committed ∨
      (zeroResponse outcome).outcome = .duplicate)
    (pruned : applied.committedLogIds.get 4 = none) :
    (timelineGroup.commitHeader .mirror zeroSha256 zeroAppend (zeroEnvironment outcome applied)
      fragments).1 = .error (.notCommitted 4) := by
  obtain ⟨stored, prepared⟩ := zeroAppend_prepared fragments
  simp only [commitHeader, zeroEnvironment, prepared, acknowledge]
  rw [if_pos committed]
  simp only [sealCommitted, zeroResponse, pruned]

def noFragments : Fragments := fun _ _ => none

/-- An acknowledged append of five thousand bytes is archived and released; its retry, with every
voter answering, fails with `NotCommitted`. -/
theorem retry_after_release_fails :
    CommitsAt .mirror zeroSha256 retriedTimeline 3 timelineGroup zeroAppend
        (zeroEnvironment .committed (replay zeroTimeline)) noFragments ∧
      (timelineGroup.commitHeader .mirror zeroSha256 zeroAppend
        (zeroEnvironment .committed (replay zeroTimeline)) noFragments).1 =
          .ok (zeroResponse .committed) ∧
      CommitsAt .mirror zeroSha256 retriedTimeline 6 timelineGroup zeroAppend
        (zeroEnvironment .duplicate (replay retriedTimeline)) noFragments ∧
      ReplicaAt retriedTimeline (replay retriedTimeline) ∧
      Healthy .mirror zeroSha256 timelineGroup zeroAppend
        (zeroEnvironment .duplicate (replay retriedTimeline)) noFragments ∧
      (timelineGroup.commitHeader .mirror zeroSha256 zeroAppend
        (zeroEnvironment .duplicate (replay retriedTimeline)) noFragments).1 =
          .error (.notCommitted 4) :=
  ⟨zeroAppend_commitsAt _ rfl rfl, zeroAppend_acknowledged _ (.inl rfl) (by decide),
    zeroAppend_commitsAt _ rfl rfl, ReplicaAt.of_apply (by decide) (by decide),
    zeroAppend_healthy _ _ _, zeroAppend_unacknowledged _ (.inr rfl) (by decide)⟩

def repeatedTimeline : List Entry :=
  zeroTimeline ++ [⟨⟨1, 5⟩, .normal (.commit zeroHeader)⟩]

/-- Retried before its release, the append is acknowledged again at its index. -/
theorem exact_retry_iff_retained :
    ∃ answer, (timelineGroup.commitHeader .mirror zeroSha256 zeroAppend
        (zeroEnvironment .duplicate (replay zeroTimeline)) noFragments).1 = .ok answer ∧
      answer.index = 4 ∧ answer.walEnd = some 5000 := by
  have proper : Proper repeatedTimeline := .of_forall (by decide)
  have replica : ReplicaAt (repeatedTimeline.take 4) (replay zeroTimeline) :=
    ReplicaAt.of_apply (by decide) (by decide)
  have first : CommitsAt .mirror zeroSha256 repeatedTimeline 3 timelineGroup zeroAppend
      (zeroEnvironment .committed (replay zeroTimeline)) noFragments :=
    zeroAppend_commitsAt _ rfl rfl
  have again : CommitsAt .mirror zeroSha256 repeatedTimeline 4 timelineGroup zeroAppend
      (zeroEnvironment .duplicate (replay zeroTimeline)) noFragments :=
    zeroAppend_commitsAt _ rfl rfl
  obtain ⟨answer, acknowledged, index_eq, walEnd_eq, _⟩ :=
    (exact_retry_iff proper rfl (zeroAppend_acknowledged noFragments (.inl rfl) (by decide))
      first again (by decide) replica (zeroAppend_healthy .duplicate _ _)).mpr (.inr (by decide))
  exact ⟨answer, acknowledged, index_eq, walEnd_eq⟩

end Verglas.Consensus
