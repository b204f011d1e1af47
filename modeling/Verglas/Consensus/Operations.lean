import Verglas.Consensus.Retry
import Verglas.Consensus.Snapshot

/-!
# The operations of a group, interleaved

Commits, archive checkpoints with their release, repair runs and the snapshots of every replica run
concurrently.  A deployment holds the committed log, the commands that operations have handed to
Raft and that may still enter it, the operations that are under way, and the replicas.  A replica
whose `apply` returns a storage error stops.
-/

namespace Verglas.Consensus

open List ConsensusGroup

variable {ι : Type*}

/-- A group: its log, its members and the operations that are under way. -/
structure Deployment (ι : Type*) where
  log : List Entry := []
  pending : List RaftCommand := []
  nodes : ι → Node := fun _ => {}
  /-- Calls of `archiveCheckpoint` that wait for the answer to their header, with their end LSN. -/
  archiving : List (EntryHeader × Nat) := []
  /-- Headers that runs of `repairCommitted` have listed and not repaired yet. -/
  repairing : List (ι × Nat × EntryHeader) := []
  stopped : List ι := []

/-- What can happen in a group. -/
inductive Event (ι : Type*) where
  | commit (header : EntryHeader)
  | archiveCheckpoint (header : EntryHeader) (endLsn : Nat)
  /-- `archiveCheckpoint` is answered on a replica and hands `ReleaseWal` to Raft. -/
  | releaseWal (id : ι) (header : EntryHeader) (endLsn : Nat)
  | listCommitted (id : ι)
  /-- `repairCommitted` has copied the body of a listed header and hands `Repair` to Raft. -/
  | repair (id : ι) (index : Nat) (header : EntryHeader) (targetVoters : List Nat)
  | append (entry : Entry)
  | apply (id : ι)
  | build (id : ι) (imageWritten snapshotWritten : Bool)
  | restart (id : ι)
  | install (id donor : ι) (imageWritten snapshotWritten : Bool)

/-- The entry that a node applies next. -/
def Deployment.next (deployment : Deployment ι) (id : ι) : Option Entry :=
  deployment.log[(deployment.nodes id).position]?

/-- Replace a node. -/
def Deployment.setNode [DecidableEq ι] (deployment : Deployment ι) (id : ι) (node : Node) :
    Deployment ι :=
  { deployment with nodes := Function.update deployment.nodes id node }

section Steps

variable [DecidableEq ι] (code : ErasureCode UInt8) (sha256 : Bytes → Digest) (k m : Nat)

/-- One event.  The payload store of the group codes every body into `k` and `m` shards. -/
inductive Step (deployment : Deployment ι) : Event ι → Deployment ι → Prop
  | commit {issuer : ConsensusGroup} {submission : Submission} {completion : List Nat}
      {network : Network} {fragments after : Fragments} {header : EntryHeader}
      {staged : Option StagedPayload} (geometry : issuer.payloads.k = k ∧ issuer.payloads.m = m)
      (prepared : issuer.prepareHeader code sha256 submission completion network fragments =
        (.ok (header, staged), after)) :
      Step deployment (.commit header)
        { deployment with pending := .commit header :: deployment.pending }
  | archiveCheckpoint {issuer : ConsensusGroup} {request : RequestId} {endLsn : Nat}
      {object : String} {submission : Submission} {completion : List Nat} {network : Network}
      {fragments after : Fragments} {header : EntryHeader} {staged : Option StagedPayload}
      (geometry : issuer.payloads.k = k ∧ issuer.payloads.m = m)
      (submitted : Submission.archiveCheckpoint request endLsn object = .ok submission)
      (prepared : issuer.prepareHeader code sha256 submission completion network fragments =
        (.ok (header, staged), after)) :
      Step deployment (.archiveCheckpoint header endLsn)
        { deployment with
          pending := .commit header :: deployment.pending
          archiving := (header, endLsn) :: deployment.archiving }
  | releaseWal {id : ι} {header : EntryHeader} {endLsn : Nat} {response : RaftResponse}
      (waiting : (header, endLsn) ∈ deployment.archiving)
      (answered : Answered (deployment.log.take (deployment.nodes id).position) header response)
      (acknowledged : response.outcome = .committed ∨ response.outcome = .duplicate) :
      Step deployment (.releaseWal id header endLsn)
        { deployment with
          pending := .releaseWal endLsn :: deployment.pending
          archiving := deployment.archiving.erase (header, endLsn) }
  | listCommitted (id : ι) :
      Step deployment (.listCommitted id)
        { deployment with
          repairing := (deployment.nodes id).state.committed.entries.map (id, ·) ++
            deployment.repairing }
  | repair {id : ι} {index : Nat} {header : EntryHeader} {issuer : ConsensusGroup}
      {source : RepairAllocation} {targetVoters : List Nat} {sealing copying : Network}
      {fragments after : Fragments} {certificate : PayloadCertificate}
      (geometry : issuer.payloads.k = k ∧ issuer.payloads.m = m)
      (listed : (id, index, header) ∈ deployment.repairing) (staged : header.inlineBody = none)
      (current : currentAllocation (deployment.nodes id).state index header = .ok source)
      (repaired : issuer.repairBody code sha256 header source targetVoters sealing copying
        fragments = (.ok certificate, after)) :
      Step deployment (.repair id index header targetVoters)
        { deployment with
          pending := .repair index (source.configurationGeneration + 1) certificate ::
            deployment.pending
          repairing := deployment.repairing.erase (id, index, header) }
  | append {entry : Entry} {command : RaftCommand}
      (increasing : ∀ last ∈ deployment.log.getLast?, last.logId.index < entry.logId.index)
      (handed : command ∈ deployment.pending) (payload : entry.payload = .normal command) :
      Step deployment (.append entry)
        { deployment with
          log := deployment.log ++ [entry]
          pending := deployment.pending.erase command }
  /-- Blank and membership entries of Raft itself. -/
  | appendOwn {entry : Entry}
      (increasing : ∀ last ∈ deployment.log.getLast?, last.logId.index < entry.logId.index)
      (own : ∀ command, entry.payload ≠ .normal command) :
      Step deployment (.append entry) { deployment with log := deployment.log ++ [entry] }
  | apply {id : ι} {entry : Entry} {state : StateMachineData} {response : RaftResponse}
      (next : deployment.next id = some entry)
      (applied : applyEntry (deployment.nodes id).state entry = (state, .ok response)) :
      Step deployment (.apply id)
        (deployment.setNode id
          { deployment.nodes id with position := (deployment.nodes id).position + 1, state })
  | stop {id : ι} {entry : Entry} {error : StorageError} (next : deployment.next id = some entry)
      (failed : (applyEntry (deployment.nodes id).state entry).2 = .error error) :
      Step deployment (.apply id) { deployment with stopped := id :: deployment.stopped }
  | build (id : ι) (imageWritten snapshotWritten : Bool) :
      Step deployment (.build id imageWritten snapshotWritten)
        (deployment.setNode id ((deployment.nodes id).build imageWritten snapshotWritten))
  | restart (id : ι) :
      Step deployment (.restart id) (deployment.setNode id (deployment.nodes id).restart)
  | install {id donor : ι} {position : Nat} {sent : Snapshot}
      (current : (deployment.nodes donor).snapshot = some (position, sent))
      (imageWritten snapshotWritten : Bool) :
      Step deployment (.install id donor imageWritten snapshotWritten)
        (deployment.setNode id
          ((deployment.nodes id).install position sent imageWritten snapshotWritten))

/-- Deployments that the events meeting a condition lead to. -/
inductive Reachable (condition : Deployment ι → Event ι → Prop) : Deployment ι → Prop
  | start : Reachable condition {}
  | step {before after : Deployment ι} {event : Event ι} (reached : Reachable condition before)
      (happens : Step code sha256 k m before event after) (admitted : condition before event) :
      Reachable condition after

end Steps

/-- The replica still retains the header that the entry repairs, and it has recorded no repair of
the same or a later generation for it. -/
def RepairAdmitted (state : StateMachineData) (entry : Entry) : Prop :=
  ∀ index generation certificate,
    entry.payload = .normal (.repair index generation certificate) →
    (state.committed.get index).isSome ∧
      ∀ existing, state.repairs.get index = some existing →
        existing.configurationGeneration < generation

/-- The condition under which no replica stops: an acknowledged archive checkpoint was recorded with
its own archive segment, and repairs are admitted where they are applied. -/
def Admissible (deployment : Deployment ι) : Event ι → Prop
  | .releaseWal _ header _ => ∀ index other, (index, other) ∈ history deployment.log →
      other.request = header.request → other.metadata = header.metadata
  | .apply id => ∀ entry, deployment.next id = some entry →
      RepairAdmitted (deployment.nodes id).state entry
  | _ => True

/-- Nothing is appended or archived before the timeline opens. -/
def Settled (state : StateMachineData) : Prop :=
  state.walInitialized = false →
    state.writerActive = false ∧ state.walEnd = 0 ∧ state.archiveLsn = 0

variable {before state : StateMachineData} {header : EntryHeader} {log : List Entry}
  {index position : Nat} {certificate : PayloadCertificate} {node : Node}

theorem Settled.record {effect : MetadataEffect} {logId : LogId} (settled : Settled before)
    (fenced : epochValid before header = true)
    (transition : applyMetadata before logId.index header = .ok effect) :
    Settled (recordCommit effect logId header) ∧
      before.archiveLsn ≤ (recordCommit effect logId header).archiveLsn := by
  have frame := metadataFrame_of_applyMetadata transition
  have moved := walEffect_of_applyMetadata transition
  -- A lease needs an open timeline, so no command activates the writer of a closed one.
  have inactive : before.walInitialized = false →
      (recordCommit effect logId header).writerActive = false := by
    intro closed
    by_contra active
    rcases recordCommit_writerActive effect logId header (by simpa using active) with lease | active
    · simp [epochValid, lease, closed] at fenced
    · rw [frame.writerActive, (settled closed).1] at active
      cases active
  rw [Settled, recordCommit_walInitialized, recordCommit_walEnd, recordCommit_archiveLsn]
  generalize effect.state = after at moved
  cases moved with
  | idle _ _ _ initialized tail archive =>
    rw [initialized, tail, archive]
    exact ⟨fun closed => ⟨inactive closed, (settled closed).2⟩, le_rfl⟩
  | opened start metadata closed =>
    refine ⟨fun impossible => (by cases impossible), ?_⟩
    rw [(settled closed).2.2]
    exact Nat.zero_le _
  | appended stop metadata =>
    refine ⟨fun closed => ?_, le_rfl⟩
    have kind : header.kind = .wal := by
      have fits := header.fits
      rw [metadata] at fits
      exact fits.1
    simp [epochValid, kind, (settled closed).1] at fenced
  | archived segment metadata starts within =>
    have proper := segment.start_lt_end
    refine ⟨fun closed => ?_, by dsimp only; omega⟩
    have tail := (settled closed).2.1
    omega

theorem Settled.applyEntry (settled : Settled before) (entry : Entry) :
    Settled (applyEntry before entry).1 ∧
      before.archiveLsn ≤ (Consensus.applyEntry before entry).1.archiveLsn := by
  rcases applyEntry_cases before entry with ⟨response, step⟩ | unchanged
  · generalize (Consensus.applyEntry before entry).1 = after at step
    cases step with
    | recorded header effect payload fresh fenced transition =>
      have here : Settled { before with lastApplied := some entry.logId } := settled
      exact here.record fenced transition
    | repaired index generation certificate after payload accepted =>
      rw [(applyRepair_ok accepted).1]
      exact ⟨settled, le_rfl⟩
    | _ => exact ⟨settled, le_rfl⟩
  · rw [unchanged]
    exact ⟨settled, le_rfl⟩

theorem settled_replay (log : List Entry) : Settled (replay log) := by
  induction log using reverseRecOn with
  | nil => exact fun _ => ⟨rfl, rfl, rfl⟩
  | append_singleton log entry ih =>
    rw [replay_concat]
    exact (ih.applyEntry entry).1

theorem archiveLsn_replay_concat (log : List Entry) (entry : Entry) :
    (replay log).archiveLsn ≤ (replay (log ++ [entry])).archiveLsn := by
  rw [replay_concat]
  exact ((settled_replay log).applyEntry entry).2

theorem archiveLsn_replay_append (log more : List Entry) :
    (replay log).archiveLsn ≤ (replay (log ++ more)).archiveLsn := by
  induction more using reverseRecOn with
  | nil => rw [append_nil]
  | append_singleton more entry ih =>
    rw [← append_assoc]
    exact ih.trans (archiveLsn_replay_concat _ _)

theorem endLsn_le_archiveLsn {segment : WalArchiveSegment}
    (recorded : (index, header) ∈ history log) (metadata : header.metadata = .archive segment) :
    segment.endLsn ≤ (replay log).archiveLsn := by
  induction log using reverseRecOn with
  | nil => cases recorded
  | append_singleton log entry ih =>
    rw [history_concat, mem_append, Option.mem_toList] at recorded
    rcases recorded with earlier | here
    · exact (ih earlier).trans (archiveLsn_replay_concat log entry)
    obtain ⟨effect, transition, after_eq⟩ := transition_of_recordedBy here
    have moved := walEffect_of_applyMetadata transition
    rw [replay_concat, after_eq, recordCommit_archiveLsn]
    generalize effect.state = after at moved
    cases moved with
    | idle _ not_archive => exact absurd metadata (not_archive segment)
    | opened start other | appended stop other => rw [metadata] at other; cases other
    | archived found other =>
      rw [metadata] at other
      cases other
      exact le_rfl

/-- What the operations guarantee of a command that they hand over after `log`. -/
def CommandSound (k m : Nat) (log : List Entry) : RaftCommand → Prop
  | .commit header => ∀ certificate, header.certificate = some certificate →
      certificate.k = k ∧ certificate.m = m
  | .repair index generation certificate => ∃ header original, (index, header) ∈ history log ∧
      header.certificate = some original ∧ certificate.mode = original.mode ∧
      certificate.k = original.k ∧ certificate.m = original.m ∧
      header.configurationGeneration < generation
  | .releaseWal throughLsn => throughLsn ≤ (replay log).archiveLsn

variable {k m : Nat} {command : RaftCommand}

/-- A command stays sound while others enter the log before it. -/
theorem CommandSound.concat (sound : CommandSound k m log command) (entry : Entry) :
    CommandSound k m (log ++ [entry]) command := by
  cases command with
  | commit header => exact sound
  | repair index generation certificate =>
    obtain ⟨header, original, recorded, rest⟩ := sound
    exact ⟨header, original, mem_history_concat recorded entry, rest⟩
  | releaseWal throughLsn => exact le_trans sound (archiveLsn_replay_concat log entry)

/-- What the operations guarantee of an entry that enters after `log`. -/
def EntrySound (k m : Nat) (log : List Entry) (entry : Entry) : Prop :=
  ∀ command, entry.payload = .normal command → CommandSound k m log command

theorem applyRepair_isOk_iff (replica : ReplicaAt log state) {logId : LogId} {generation : Nat}
    (sound : CommandSound k m log (.repair index generation certificate)) :
    (∃ after, applyRepair { state with lastApplied := some logId } logId index generation
        certificate = .ok after) ↔
      (state.committed.get index).isSome ∧
        ∀ existing, state.repairs.get index = some existing →
          existing.configurationGeneration < generation := by
  constructor
  · rintro ⟨after, accepted⟩
    obtain ⟨_, header, _, known, _, _, _, _, _, later⟩ := applyRepair_ok accepted
    exact ⟨Option.isSome_iff_exists.mpr ⟨header, known⟩, later⟩
  · rintro ⟨retained, later⟩
    obtain ⟨header, original, recorded, staged, mode, k_eq, m_eq, newer⟩ := sound
    obtain ⟨found, known⟩ := Option.isSome_iff_exists.mp retained
    have found_eq : found = header :=
      replica.increasing.header_eq (replica.recorded.retained _ _ known) recorded
    subst found_eq
    have voters_eq : certificate.voters.length = original.voters.length := by
      rw [certificate.voters_length, original.voters_length, k_eq, m_eq]
    have unchanged : (state.repairs.get index).any (generation ≤ ·.configurationGeneration) =
        false := by
      cases repair : state.repairs.get index with
      | none => rfl
      | some existing => simpa using later existing repair
    simp only [applyRepair, known, staged, mode, k_eq, m_eq, voters_eq, unchanged, ne_eq,
      not_true_eq_false, Bool.false_eq_true, or_false, not_le.mpr newer, if_false]
    exact ⟨_, rfl⟩

variable {entry : Entry}

/-- A sound entry is answered exactly when its repair, if it is one, is admitted. -/
theorem answered_iff_repairAdmitted (replica : ReplicaAt log state)
    (sound : EntrySound k m log entry) :
    (∃ response, (applyEntry state entry).2 = .ok response) ↔ RepairAdmitted state entry := by
  cases payload : entry.payload with
  | blank | membership membership => simp [applyEntry, RepairAdmitted, payload]
  | normal command =>
    cases command with
    | commit header => simp [applyEntry, RepairAdmitted, payload]
    | repair index generation certificate =>
      have admitted_iff : RepairAdmitted state entry ↔ (state.committed.get index).isSome ∧
            ∀ existing, state.repairs.get index = some existing →
              existing.configurationGeneration < generation := by
        constructor
        · exact fun admitted => admitted index generation certificate payload
        · intro admitted other later target other_payload
          rw [payload] at other_payload
          cases other_payload
          exact admitted
      rw [admitted_iff, ← @applyRepair_isOk_iff _ _ _ _ _ _ replica entry.logId _ (sound _ payload)]
      simp only [applyEntry, payload]
      split
      · rename_i error refused
        simp [refused]
      · rename_i after accepted
        simp [accepted]
    | releaseWal throughLsn =>
      have archived : throughLsn ≤ (replay log).archiveLsn := sound _ payload
      have core_eq := congrArg StateMachineData.archiveLsn replica.core_eq
      have archive_eq : state.archiveLsn = (replay log).archiveLsn := core_eq
      have within : ¬throughLsn > state.archiveLsn := by omega
      simp [applyEntry, RepairAdmitted, payload, within]

/-- A state that a replica reaches after the first `position` entries. -/
structure ReachedAt (log : List Entry) (position : Nat) (state : StateMachineData) : Prop where
  within : position ≤ log.length
  replica : ReplicaAt (log.take position) state

theorem ReachedAt.concat (reached : ReachedAt log position state) (entry : Entry) :
    ReachedAt (log ++ [entry]) position state where
  within := by
    rw [length_append]
    exact reached.within.trans (Nat.le_add_right _ _)
  replica := by
    rw [take_append_of_le_length reached.within]
    exact reached.replica

theorem ReachedAt.apply {after : StateMachineData} {entry : Entry} {response : RaftResponse}
    (reached : ReachedAt log position before) (increasing : Increasing log)
    (next : log[position]? = some entry)
    (applied : applyEntry before entry = (after, .ok response)) :
    ReachedAt log (position + 1) after := by
  have within : position < log.length := (List.getElem?_eq_some_iff.mp next).1
  have prefix_eq : log.take (position + 1) = log.take position ++ [entry] := by
    rw [take_add_one, next, Option.toList_some]
  refine ⟨within, ?_⟩
  rw [prefix_eq]
  refine .apply reached.replica ?_ applied
  intro last last_eq
  rw [reached.replica.lastApplied_eq] at last_eq
  obtain ⟨final, final_eq, rfl⟩ := Option.mem_map.mp last_eq
  have ordered : Increasing (log.take (position + 1)) := increasing.sublist (take_sublist _ _)
  rw [prefix_eq, Increasing, pairwise_append] at ordered
  exact ordered.2.2 final (mem_of_getLast? final_eq) entry (by simp)

/-- Everything a node holds, live or on disk, was reached along the log. -/
structure Node.Grounded (log : List Entry) (node : Node) : Prop where
  state : ReachedAt log node.position node.state
  image : ReachedAt log node.imagePosition node.image
  snapshot : ∀ position sent, node.snapshot = some (position, sent) →
    ReachedAt log position (installSnapshot sent)

theorem Node.grounded_empty (log : List Entry) : Node.Grounded log {} where
  state := ⟨Nat.zero_le _, .empty⟩
  image := ⟨Nat.zero_le _, .empty⟩
  snapshot := by simp

theorem Node.Grounded.concat (grounded : node.Grounded log) (entry : Entry) :
    node.Grounded (log ++ [entry]) where
  state := grounded.state.concat entry
  image := grounded.image.concat entry
  snapshot position sent current := (grounded.snapshot position sent current).concat entry

theorem Node.Grounded.build (grounded : node.Grounded log) (imageWritten snapshotWritten : Bool) :
    (node.build imageWritten snapshotWritten).Grounded log := by
  have built : ReachedAt log node.position (buildSnapshot node.state).1 :=
    ⟨grounded.state.within, .buildSnapshot grounded.state.replica⟩
  refine ⟨built, ?_, ?_⟩
  · cases imageWritten with
    | false => exact grounded.image
    | true => exact built
  · intro position sent current
    cases snapshotWritten with
    | false => exact grounded.snapshot position sent current
    | true =>
      cases current
      exact built

theorem Node.Grounded.install (grounded : node.Grounded log) {sent : Snapshot}
    (received : ReachedAt log position (installSnapshot sent))
    (imageWritten snapshotWritten : Bool) :
    (node.install position sent imageWritten snapshotWritten).Grounded log := by
  refine ⟨received, ?_, ?_⟩
  · cases imageWritten with
    | false => exact grounded.image
    | true => exact received
  · intro other taken current
    cases snapshotWritten with
    | false => exact grounded.snapshot other taken current
    | true =>
      cases current
      exact received

/-- What holds in every deployment that admissible events lead to. -/
structure Deployment.Sound (k m : Nat) (deployment : Deployment ι) : Prop where
  increasing : Increasing deployment.log
  logged : Throughout (EntrySound k m) deployment.log
  pending : ∀ command ∈ deployment.pending, CommandSound k m deployment.log command
  archiving : ∀ header endLsn, (header, endLsn) ∈ deployment.archiving →
    ∃ segment, header.metadata = .archive segment ∧ segment.endLsn = endLsn
  repairing : ∀ id index header, (id, index, header) ∈ deployment.repairing →
    (index, header) ∈ history deployment.log
  nodes : ∀ id, (deployment.nodes id).Grounded deployment.log
  running : deployment.stopped = []

theorem Deployment.sound_empty : Deployment.Sound k m ({} : Deployment ι) where
  increasing := .nil
  logged := by simp [Throughout]
  pending := by simp
  archiving := by simp
  repairing := by simp
  nodes _ := Node.grounded_empty []
  running := rfl

namespace Deployment.Sound

variable {deployment : Deployment ι}

theorem hand (sound : deployment.Sound k m) (accepted : CommandSound k m deployment.log command) :
    Deployment.Sound k m { deployment with pending := command :: deployment.pending } where
  __ := sound
  pending other member := by
    rcases mem_cons.mp member with rfl | member
    · exact accepted
    · exact sound.pending other member

theorem setNode [DecidableEq ι] (sound : deployment.Sound k m) {id : ι}
    (grounded : node.Grounded deployment.log) : (deployment.setNode id node).Sound k m where
  __ := sound
  nodes other := by
    by_cases same : other = id
    · subst same
      simpa [Deployment.setNode] using grounded
    · simpa [Deployment.setNode, Function.update_of_ne same] using sound.nodes other

theorem extend (sound : deployment.Sound k m)
    (increasing : ∀ last ∈ deployment.log.getLast?, last.logId.index < entry.logId.index)
    (accepted : EntrySound k m deployment.log entry) :
    Deployment.Sound k m { deployment with log := deployment.log ++ [entry] } where
  increasing := sound.increasing.concat increasing
  logged := sound.logged.concat accepted
  pending command member := (sound.pending command member).concat entry
  archiving := sound.archiving
  repairing id index header member :=
    mem_history_concat (sound.repairing id index header member) entry
  nodes id := (sound.nodes id).concat entry
  running := sound.running

end Deployment.Sound

variable {source : RepairAllocation} {targetVoters : List Nat} {sealing copying : Network}
  {deployment : Deployment ι}

section Steps

variable {code : ErasureCode UInt8} {sha256 : Bytes → Digest} {issuer : ConsensusGroup}
  {fragments after : Fragments} {header : EntryHeader} {certificate : PayloadCertificate}

theorem commandSound_of_prepareHeader {submission : Submission} {completion : List Nat}
    {network : Network} {staged : Option StagedPayload}
    (geometry : issuer.payloads.k = k ∧ issuer.payloads.m = m)
    (prepared : issuer.prepareHeader code sha256 submission completion network fragments =
      (.ok (header, staged), after)) : CommandSound k m log (.commit header) := by
  intro certificate certified
  obtain ⟨_, _, ⟨_, _, inline⟩ | ⟨_, payload, _, certificate_eq, accepted⟩⟩ :=
    prepareHeader_ok prepared
  · have one_body := header.one_body
    rw [certified, inline] at one_body
    cases one_body
  · obtain ⟨_, _, allocation, _, allocated, k_eq, m_eq, _⟩ := stage_ok accepted
    rw [certified] at certificate_eq
    cases certificate_eq
    rw [← allocated, k_eq, m_eq]
    exact geometry

theorem ConsensusGroup.repairBody_ok
    (repaired : issuer.repairBody code sha256 header source targetVoters sealing copying
      fragments = (.ok certificate, after)) :
    certificate.mode = source.certificate.mode ∧ certificate.k = issuer.payloads.k ∧
      certificate.m = issuer.payloads.m ∧ certificate.voters = targetVoters := by
  simp only [repairBody] at repaired
  split at repaired
  · cases repaired
  split at repaired <;> cases repaired
  rename_i copied
  simp only [DistributedPayloadStore.repair] at copied
  split at copied
  · cases copied
  split at copied
  · cases copied
  split at copied
  · cases copied
  rename_i found certified
  obtain ⟨mode, k_eq, m_eq, voters_eq, _⟩ := PayloadCertificate.withVoters_ok certified
  split at copied
  · cases copied
  split at copied <;> cases copied
  exact ⟨mode, k_eq, m_eq, voters_eq⟩

/-- A repair copies the current allocation of a recorded header into the next generation. -/
theorem Deployment.Sound.repair_sound (sound : deployment.Sound k m) {id : ι}
    (geometry : issuer.payloads.k = k ∧ issuer.payloads.m = m)
    (listed : (id, index, header) ∈ deployment.repairing)
    (current : currentAllocation (deployment.nodes id).state index header = .ok source)
    (repaired : issuer.repairBody code sha256 header source targetVoters sealing copying
      fragments = (.ok certificate, after)) :
    CommandSound k m deployment.log
      (.repair index (source.configurationGeneration + 1) certificate) := by
  have recorded := sound.repairing id index header listed
  obtain ⟨mode, k_eq, m_eq, _⟩ := repairBody_ok repaired
  -- The source is the header's own allocation or a repair that replaced it.
  obtain ⟨original, staged, source_mode, newer⟩ : ∃ original,
      header.certificate = some original ∧ source.certificate.mode = original.mode ∧
      header.configurationGeneration ≤ source.configurationGeneration := by
    have replica := (sound.nodes id).state.replica
    rw [currentAllocation] at current
    split at current
    · rename_i repair known
      cases current
      obtain ⟨found, original, retained, replaces⟩ := replica.recorded.repairs _ _ known
      have found_mem := mem_history_of_take (replica.recorded.retained _ _ retained)
      cases sound.increasing.header_eq found_mem recorded
      exact ⟨original, replaces.staged, replaces.mode, replaces.generation.le⟩
    · split at current
      · cases current
      rename_i original staged
      split at current
      · cases current
      · cases current
        exact ⟨original, staged, rfl, le_rfl⟩
  obtain ⟨entry, member, _, payload⟩ := mem_log_of_mem_history recorded
  obtain ⟨position, found⟩ := mem_iff_getElem?.mp member
  obtain ⟨original_k, original_m⟩ := sound.logged position entry found _ payload original staged
  refine ⟨header, original, recorded, staged, mode.trans source_mode, ?_, ?_,
    Nat.lt_succ_of_le newer⟩
  · rw [k_eq, geometry.1, original_k]
  · rw [m_eq, geometry.2, original_m]

theorem Deployment.Sound.step [DecidableEq ι] {before after : Deployment ι} {event : Event ι}
    (sound : before.Sound k m) (happens : Step code sha256 k m before event after)
    (admitted : Admissible before event) : after.Sound k m := by
  cases happens with
  | commit geometry prepared => exact sound.hand (commandSound_of_prepareHeader geometry prepared)
  | archiveCheckpoint geometry submitted prepared =>
    have handed := sound.hand (commandSound_of_prepareHeader geometry prepared)
    refine { handed with archiving := ?_ }
    intro header endLsn member
    rcases mem_cons.mp member with equal | member
    · cases equal
      rw [metadata_of_prepareHeader prepared]
      rw [Submission.archiveCheckpoint] at submitted
      split at submitted
      · cases submitted
      split at submitted
      · cases submitted
      · rename_i segment _ ends
        cases submitted
        exact ⟨segment, rfl, not_not.mp ends⟩
    · exact sound.archiving header endLsn member
  | @releaseWal id header endLsn response waiting answered acknowledged =>
    obtain ⟨segment, metadata, rfl⟩ := sound.archiving _ _ waiting
    obtain ⟨other, recorded, request_eq⟩ :=
      answered.recorded (sound.nodes id).state.replica acknowledged
    have logged := mem_history_of_take recorded
    have other_metadata := (admitted _ other logged request_eq).trans metadata
    have released : CommandSound k m before.log (.releaseWal segment.endLsn) :=
      endLsn_le_archiveLsn logged other_metadata
    have handed := sound.hand released
    exact { handed with
      archiving := fun header endLsn member =>
        sound.archiving header endLsn (mem_of_mem_erase member) }
  | listCommitted id =>
    refine { sound with repairing := ?_ }
    intro other index header member
    rcases mem_append.mp member with listed | earlier
    · obtain ⟨entry, entry_mem, equal⟩ := mem_map.mp listed
      cases equal
      exact mem_history_of_take ((sound.nodes _).state.replica.recorded.retained _ _
        (OrderedMap.get_eq_some_of_mem entry_mem))
    · exact sound.repairing other index header earlier
  | repair geometry listed staged current repaired =>
    have handed := sound.hand (sound.repair_sound geometry listed current repaired)
    exact { handed with
      repairing := fun id index header member =>
        sound.repairing id index header (mem_of_mem_erase member) }
  | append increasing handed payload =>
    have extended := sound.extend increasing fun command other => by
      rw [payload] at other
      cases other
      exact sound.pending _ handed
    exact { extended with
      pending := fun command member =>
        extended.pending command (mem_of_mem_erase member) }
  | appendOwn increasing own =>
    exact sound.extend increasing fun command payload => absurd payload (own command)
  | @apply id entry state response next applied =>
    have node := sound.nodes id
    exact sound.setNode ⟨node.state.apply sound.increasing next applied, node.image, node.snapshot⟩
  | stop next failed =>
    obtain ⟨response, answered⟩ := (answered_iff_repairAdmitted (sound.nodes _).state.replica
      (sound.logged _ _ next)).mpr (admitted _ next)
    rw [failed] at answered
    cases answered
  | build id imageWritten snapshotWritten =>
    exact sound.setNode ((sound.nodes id).build imageWritten snapshotWritten)
  | restart id =>
    have node := sound.nodes id
    exact sound.setNode ⟨node.image, node.image, node.snapshot⟩
  | @install id donor position sent current imageWritten snapshotWritten =>
    exact sound.setNode ((sound.nodes id).install
      ((sound.nodes donor).snapshot position sent current) imageWritten snapshotWritten)

theorem Deployment.sound_of_reachable [DecidableEq ι]
    (run : Reachable code sha256 k m Admissible deployment) : deployment.Sound k m := by
  induction run with
  | start => exact Deployment.sound_empty
  | step _ happens admitted ih => exact ih.step happens admitted

/-- In every run of admissible events no replica stops, and a replica answers the entry that it
applies next exactly when it admits that entry. -/
theorem admissible_run_never_stops [DecidableEq ι]
    (run : Reachable code sha256 k m Admissible deployment) :
    deployment.stopped = [] ∧ ∀ id entry, deployment.next id = some entry →
      ((∃ response, (applyEntry (deployment.nodes id).state entry).2 = .ok response) ↔
        RepairAdmitted (deployment.nodes id).state entry) := by
  have sound := Deployment.sound_of_reachable run
  exact ⟨sound.running, fun id entry next =>
    answered_iff_repairAdmitted (sound.nodes id).state.replica (sound.logged _ entry next)⟩

variable [DecidableEq ι] {condition : Deployment ι → Event ι → Prop} {deployment : Deployment ι}

theorem Reachable.grounded (run : Reachable code sha256 k m condition deployment) :
    Increasing deployment.log ∧ ∀ id, (deployment.nodes id).Grounded deployment.log := by
  induction run with
  | start => exact ⟨.nil, fun _ => Node.grounded_empty []⟩
  | @step before _ _ _ happens _ ih =>
    obtain ⟨ordered, nodes⟩ := ih
    have set_node {id : ι} {node : Node} (grounded : node.Grounded before.log) :
        ∀ other, ((before.setNode id node).nodes other).Grounded before.log :=
      (Function.forall_update_iff _ (p := fun _ (held : Node) => held.Grounded before.log)).mpr
        ⟨grounded, fun other _ => nodes other⟩
    cases happens with
    | append increasing | appendOwn increasing =>
      exact ⟨ordered.concat increasing, fun id => (nodes id).concat _⟩
    | @apply id _ _ _ next applied =>
      exact ⟨ordered, set_node { nodes id with
        state := (nodes id).state.apply ordered next applied }⟩
    | build id _ _ => exact ⟨ordered, set_node ((nodes id).build _ _)⟩
    | restart id => exact ⟨ordered, set_node { nodes id with state := (nodes id).image }⟩
    | @install id donor _ _ current _ _ =>
      exact ⟨ordered, set_node ((nodes id).install ((nodes donor).snapshot _ _ current) _ _)⟩
    | _ => exact ⟨ordered, nodes⟩

/-- In every run, also one in which overlapping repairs stop replicas, what a replica has applied,
the image that it restarts from and the snapshots that it sends agree with replays of parts of one
log on all but the retained history. -/
theorem held_states_replay (run : Reachable code sha256 k m condition deployment) (id : ι) :
    (deployment.nodes id).state.core =
        (replay (deployment.log.take (deployment.nodes id).position)).core ∧
      (deployment.nodes id).image.core =
        (replay (deployment.log.take (deployment.nodes id).imagePosition)).core ∧
      ∀ position sent, (deployment.nodes id).snapshot = some (position, sent) →
        (installSnapshot sent).core = (replay (deployment.log.take position)).core := by
  obtain ⟨state, image, snapshot⟩ := run.grounded.2 id
  exact ⟨state.replica.core_eq, image.replica.core_eq,
    fun position sent current => (snapshot position sent current).replica.core_eq⟩

end Steps

variable {code : ErasureCode UInt8} {sha256 : Bytes → Digest}

theorem Reachable.mono [DecidableEq ι] {condition weaker : Deployment ι → Event ι → Prop}
    (implies : ∀ deployment event, condition deployment event → weaker deployment event)
    (run : Reachable code sha256 k m condition deployment) :
    Reachable code sha256 k m weaker deployment := by
  induction run with
  | start => exact .start
  | step _ happens admitted ih => exact .step ih happens (implies _ _ admitted)

/-- Five thousand zero bytes committed as an object. -/
def zeroObject : Submission := .commit 9 .object .complete zeroBody none

def objectHeader : EntryHeader :=
  { zeroHeader with kind := .object, writerEpoch := none, metadata := .none, fits := trivial }

theorem zeroObject_prepared (fragments : Fragments) :
    ∃ stored, timelineGroup.prepareHeader .mirror zeroSha256 zeroObject [1, 2, 3] {} fragments =
        (.ok (objectHeader, some zeroPayload), stored) := by
  obtain ⟨stored, staged⟩ := zeroAppend_staged fragments
  have large : ¬zeroObject.body.length ≤ inlinePayloadThresholdBytes := by
    rw [zeroObject, Submission.commit, zeroBody_length]
    decide
  refine ⟨stored, ?_⟩
  rw [prepareHeader, if_neg large]
  have payloads_eq : timelineGroup.payloads = mirrorStore := rfl
  have staging_eq : timelineGroup.staging zeroObject = timelineGroup.staging zeroAppend := rfl
  rw [payloads_eq, staging_eq, staged]
  rfl

def trioCertificate : PayloadCertificate :=
  { pairCertificate with
    holders := [1, 2, 3]
    holders_sorted := by decide
    holders_subset := by decide
    durable := by decide }

theorem storeInOrder_of_answered {fate : Nat → Reply} (key : FragmentKey)
    {targets : List (Nat × PayloadRepresentation)}
    (answered : ∀ target ∈ targets, fate target.1 = .answered) (fragments : Fragments) :
    ∃ after, storeInOrder fate key targets fragments = (.ok (), after) := by
  induction targets generalizing fragments with
  | nil => exact ⟨fragments, rfl⟩
  | cons target rest ih =>
    obtain ⟨voter, held⟩ := target
    have answer : fate voter = .answered := answered _ mem_cons_self
    simp only [storeInOrder, answer]
    exact ih (forall_mem_cons.mp answered).2 _

theorem repairBody_of_answered {issuer : ConsensusGroup} {fragments sealed : Fragments}
    {body : Bytes} {shards : List Bytes}
    (seals : sealPayload (header.readFrom source).sealing sealing fragments = (.ok (), sealed))
    (reads : reconstruct code sha256 (header.readFrom source) copying sealed = .ok body)
    (certified : PayloadCertificate.withVoters source.certificate.mode issuer.payloads.k
      issuer.payloads.m targetVoters targetVoters = .ok certificate)
    (coded : slotBytes code issuer.payloads.k issuer.payloads.m targetVoters
      source.certificate.mode body = some shards)
    (answered : ∀ voter ∈ targetVoters, copying.store voter = .answered) :
    ∃ after, issuer.repairBody code sha256 header source targetVoters sealing copying fragments =
      (.ok certificate, after) := by
  obtain ⟨_, k_eq, m_eq, voters_eq, _⟩ := PayloadCertificate.withVoters_ok certified
  have length_eq : targetVoters.length = issuer.payloads.k + issuer.payloads.m := by
    rw [← voters_eq, certificate.voters_length, k_eq, m_eq]
  have distinct : targetVoters.dedup = targetVoters :=
    dedup_eq_self.mpr (voters_eq ▸ certificate.voters_nodup)
  have mode_eq : (header.readFrom source).certificate.mode = source.certificate.mode := rfl
  simp only [repairBody, seals, DistributedPayloadStore.repair, distinct, length_eq,
    ne_eq, not_true_eq_false, or_self, if_false, reads, mode_eq, certified, coded]
  generalize targets_eq : targetVoters.map _ = targets
  have all_answered : ∀ target ∈ targets, copying.store target.1 = .answered := by
    rw [← targets_eq]
    simpa using answered
  obtain ⟨after, stored⟩ := storeInOrder_of_answered _ all_answered sealed
  exact ⟨after, by rw [stored]⟩

def objectAllocation : RepairAllocation := ⟨1, pairCertificate, ⟨1, 1⟩⟩

theorem objectHeader_readFrom : objectHeader.readFrom objectAllocation =
    zeroAllocation.reconstructRequest zeroSha256 1 1 := by
  simp only [Allocation.reconstructRequest, zeroAllocation, zeroSha256_zeroBody, zeroBody_length]
  rfl

theorem zeroObject_copied {voters : List Nat} {certificate : PayloadCertificate}
    {shards : List Bytes} (enough : reconstructionThreshold zeroAllocation.certificate ≤
      (zeroAllocation.certificate.holders.filter fun holder => holder ∈ voters).length)
    (certified : PayloadCertificate.withVoters .complete timelineGroup.payloads.k
      timelineGroup.payloads.m voters voters = .ok certificate)
    (coded : slotBytes .mirror timelineGroup.payloads.k timelineGroup.payloads.m voters .complete
      zeroBody = some shards) :
    ∃ after, timelineGroup.repairBody .mirror zeroSha256 objectHeader objectAllocation voters
      (onlyReaching voters) (onlyReaching voters) zeroStaged = (.ok certificate, after) := by
  have sealing_eq : ∀ allocation : Allocation .mirror,
      (allocation.reconstructRequest zeroSha256 1 1).sealing =
        allocation.sealRequest zeroSha256 1 1 := fun _ => rfl
  obtain ⟨seals, reads⟩ := @Allocation.seal_then_reconstruct _ zeroSha256 zeroAllocation 1 1
    zeroStaged ErasureCode.mirror_lawful Nat.one_pos Nat.one_pos
    (fun holder member => zeroStaged_holder member) voters enough _ _
    (onlyReaching_serves _) (onlyReaching_serves _)
  rw [← sealing_eq, ← objectHeader_readFrom] at seals
  rw [← objectHeader_readFrom] at reads
  exact repairBody_of_answered seals reads certified coded
    fun voter member => ((onlyReaching_serves _ voter).1 member).2

theorem Step.append_head [DecidableEq ι] {rest : List RaftCommand}
    (increasing : ∀ last ∈ deployment.log.getLast?, last.logId.index < entry.logId.index)
    (handed : deployment.pending = command :: rest) (payload : entry.payload = .normal command) :
    Step code sha256 k m deployment (.append entry)
      { deployment with log := deployment.log ++ [entry], pending := rest } := by
  have appended := @Step.append _ _ code sha256 k m deployment entry command increasing
    (handed ▸ mem_cons_self) payload
  rwa [handed, erase_cons_head] at appended

def overlappingLog : List Entry :=
  [⟨⟨1, 1⟩, .normal (.commit objectHeader)⟩,
    ⟨⟨1, 2⟩, .normal (.repair 1 2 trioCertificate)⟩,
    ⟨⟨1, 3⟩, .normal (.repair 1 2 trioCertificate)⟩]

def objectNode : Node := { position := 1, state := replay (overlappingLog.take 1) }

/-- Replica one has applied the object; the two repairs follow in the log. -/
def overlapping : Deployment Nat where
  log := overlappingLog
  nodes := Function.update (fun _ => {}) 1 objectNode

/-- Two runs of `repairCommitted` list the object, copy it and propose its second generation before
either proposal is applied. -/
theorem overlapping_reachable : Reachable .mirror zeroSha256 1 2 Admissible overlapping := by
  obtain ⟨stored, prepared⟩ := zeroObject_prepared noFragments
  obtain ⟨copied, repaired⟩ := @zeroObject_copied [1, 2, 3] trioCertificate _ (by decide) rfl rfl
  have empty : Reachable .mirror zeroSha256 1 2 (@Admissible Nat) {} := .start
  have committed := empty.step (.commit ⟨rfl, rfl⟩ prepared) trivial
  have logged : Reachable .mirror zeroSha256 1 2 (@Admissible Nat)
      { log := overlappingLog.take 1 } :=
    committed.step (Step.append_head (by simp) rfl rfl) trivial
  have applied : Reachable .mirror zeroSha256 1 2 (@Admissible Nat)
      { overlapping with log := overlappingLog.take 1 } := by
    refine logged.step (Step.apply rfl rfl : Step _ _ _ _ _ (.apply 1) _) ?_
    rintro entry next index generation certificate payload
    cases next
    cases payload
  have listed : Reachable .mirror zeroSha256 1 2 (@Admissible Nat)
      { overlapping with
        log := overlappingLog.take 1
        repairing := [(1, 1, objectHeader), (1, 1, objectHeader)] } :=
    (applied.step (.listCommitted 1) trivial).step (.listCommitted 1) trivial
  have proposed : Reachable .mirror zeroSha256 1 2 (@Admissible Nat)
      { overlapping with
        log := overlappingLog.take 1
        pending := [.repair 1 2 trioCertificate, .repair 1 2 trioCertificate] } := by
    have once := listed.step (.repair ⟨rfl, rfl⟩ mem_cons_self rfl rfl repaired) trivial
    have twice := once.step (.repair ⟨rfl, rfl⟩ mem_cons_self rfl rfl repaired) trivial
    rwa [erase_cons_head] at twice
  exact (proposed.step (Step.append_head (by simp [overlappingLog]) rfl rfl) trivial).step
    (Step.append_head (by simp [overlappingLog]) rfl rfl) trivial

/-- The first repair is applied and the second one stops the replica. -/
theorem overlapping_repairs_stop :
    ∃ deployment : Deployment Nat,
      Reachable .mirror zeroSha256 1 2 (fun _ _ => True) deployment ∧ deployment.stopped = [1] := by
  have run := overlapping_reachable.mono fun _ _ _ => trivial
  have applied := run.step (Step.apply rfl rfl : Step _ _ _ _ _ (.apply 1) _) trivial
  exact ⟨_, applied.step (Step.stop rfl rfl : Step _ _ _ _ _ (.apply 1) _) trivial, rfl⟩

/-- Replica one applies the first repair and builds a snapshot, which replica two installs. -/
theorem held_states_replay_first :
    ∃ deployment : Deployment Nat,
      Reachable .mirror zeroSha256 1 2 (fun _ _ => True) deployment ∧
      (deployment.nodes 2).position = 2 ∧
      (deployment.nodes 2).state.core = (replay (overlappingLog.take 2)).core ∧
      ∃ sent, (deployment.nodes 1).snapshot = some (2, sent) ∧
        (installSnapshot sent).core = (replay (overlappingLog.take 2)).core := by
  have run := overlapping_reachable.mono fun _ _ _ => trivial
  have applied := run.step (Step.apply rfl rfl : Step _ _ _ _ _ (.apply 1) _) trivial
  have built := applied.step (.build 1 true true) trivial
  have installed := built.step (@Step.install Nat _ _ _ _ _ _ 2 1 _ _ rfl true true) trivial
  exact ⟨_, installed, rfl, (held_states_replay installed 2).1, _, rfl,
    (held_states_replay installed 1).2.2 _ _ rfl⟩

/-- Before the second repair nothing has stopped, and the first one is answered. -/
theorem admissible_run_never_stops_first :
    overlapping.stopped = [] ∧
      ∃ response, (applyEntry (overlapping.nodes 1).state
        ⟨⟨1, 2⟩, .normal (.repair 1 2 trioCertificate)⟩).2 = .ok response := by
  obtain ⟨running, answered⟩ := admissible_run_never_stops overlapping_reachable
  refine ⟨running, (answered 1 _ rfl).mpr ?_⟩
  intro index generation certificate payload
  cases payload
  refine ⟨rfl, ?_⟩
  intro existing known
  cases known

end Verglas.Consensus
