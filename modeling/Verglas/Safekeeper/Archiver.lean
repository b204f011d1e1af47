import Verglas.Consensus.Attempts
import Verglas.Consensus.Operations
import Verglas.Safekeeper.ArchiveKey
import Verglas.Safekeeper.ComposedRead

/-!
# The segment archiver

An archiver run reads a range of committed WAL, uploads it under a content-addressed key, verifies
the object, commits an archive checkpoint and releases the bodies behind it.  Runs interleave with
each other and with the growing log, and any of them may fail between two steps.  WAL leaves the
group only behind durable archive objects all the same.

The object store creates objects and never changes one.  A step may use any replica.  The bodies of
the group lie in one payload store, which the release deletes from.
-/

namespace Verglas.Safekeeper

open Consensus List Function

def walSegmentBytes : Nat := 16 * 1024 * 1024

/-- End of the segment that starts at an LSN or contains it; the addition saturates. -/
def segmentEnd (start : Nat) : Nat :=
  if start % walSegmentBytes = 0 then min (start + walSegmentBytes) (2 ^ 64 - 1)
  else min (start + (walSegmentBytes - start % walSegmentBytes)) (2 ^ 64 - 1)

/-- Where one run of `SegmentArchiver::archive` stands. -/
inductive ArchiverRun where
  | reading (request : RequestId) (start stop minimumIndex : Nat)
  | uploading (request : RequestId) (start stop : Nat) (bytes : Bytes)
  | verifying (request : RequestId) (start stop : Nat) (object : ArchiveObject)
  | checkpointing (request : RequestId) (start stop : Nat) (object : ArchiveObject)
  | committing (header : EntryHeader) (stop : Nat)
  | releasing (stop : Nat)
  | proposing (stop : Nat)
  | confirming (stop : Nat)
  deriving DecidableEq

/-- A timeline group with its payload store, its archive store and every archiver run that is under
way. -/
structure ArchiveSystem where
  log : List Entry := []
  /-- Commands that were handed to the group and may enter its log at any time. -/
  pending : List RaftCommand := []
  fragments : Fragments := noFragments
  objects : String → Option Bytes := fun _ => none
  runs : List ArchiverRun := []

namespace ArchiveSystem

/-- A run goes on. -/
def advance (system : ArchiveSystem) (run next : ArchiverRun) : ArchiveSystem :=
  { system with runs := next :: system.runs.erase run }

/-- A run is over. -/
def drop (system : ArchiveSystem) (run : ArchiverRun) : ArchiveSystem :=
  { system with runs := system.runs.erase run }

/-- Create an object unless there is one. -/
def create (system : ArchiveSystem) (key : String) (bytes : Bytes) : ArchiveSystem :=
  { system with
    objects := update system.objects key (some ((system.objects key).getD bytes)) }

/-- An entry commits. -/
def append (system : ArchiveSystem) (entry : Entry) : ArchiveSystem :=
  { system with log := system.log ++ [entry] }

end ArchiveSystem

/-- The entry commits an archive checkpoint or a release. -/
def Entry.IsArchival (entry : Entry) : Prop :=
  (∃ header segment, entry.payload = .normal (.commit header) ∧
    header.metadata = .archive segment) ∨
  ∃ throughLsn, entry.payload = .normal (.releaseWal throughLsn)

section Steps

variable (code : ErasureCode UInt8) (sha256 : Bytes → Digest) (root : String)

/-- One step of a run or of the group. -/
inductive ArchiveStep (system : ArchiveSystem) : ArchiveSystem → Prop
  | spawnArchive {position : Nat} {state : StateMachineData} (request : RequestId)
      (replica : ReplicaAt (system.log.take position) state)
      (complete : segmentEnd state.archiveLsn ≤ state.walEnd)
      (proper : state.archiveLsn < segmentEnd state.archiveLsn) :
      ArchiveStep system
        { system with
          runs := .reading request state.archiveLsn (segmentEnd state.archiveLsn)
            (appliedIndex state) :: system.runs }
  | flushTimelineTail {position : Nat} {state : StateMachineData} (request : RequestId)
      (replica : ReplicaAt (system.log.take position) state) (machine : state.walEnd < 2 ^ 64)
      (nonempty : state.archiveLsn ≠ state.walEnd) :
      ArchiveStep system
        { system with
          runs := .reading request state.archiveLsn state.walEnd (appliedIndex state) ::
            system.runs }
  | read {position : Nat} {state : StateMachineData} {request : RequestId}
      {start stop minimumIndex : Nat} {bytes : Bytes} {sealing reading : Network}
      (running : .reading request start stop minimumIndex ∈ system.runs)
      (replica : ReplicaAt (system.log.take position) state)
      (answered : readWal (sealThenReconstruct code sha256 sealing reading system.fragments) state
        start stop minimumIndex = .ok bytes) (exact_length : bytes.length = stop - start) :
      ArchiveStep system
        (system.advance (.reading request start stop minimumIndex)
          (.uploading request start stop bytes))
  | upload {request : RequestId} {start stop : Nat} {bytes : Bytes}
      (running : .uploading request start stop bytes ∈ system.runs) :
      ArchiveStep system
        ((system.create (archiveObject sha256 root start stop bytes).key bytes).advance
          (.uploading request start stop bytes)
          (.verifying request start stop (archiveObject sha256 root start stop bytes)))
  /-- The upload took effect, but its answer was lost. -/
  | uploadLost {request : RequestId} {start stop : Nat} {bytes : Bytes}
      (running : .uploading request start stop bytes ∈ system.runs) :
      ArchiveStep system
        ((system.create (archiveObject sha256 root start stop bytes).key bytes).drop
          (.uploading request start stop bytes))
  | verify {request : RequestId} {start stop : Nat} {object : ArchiveObject} {bytes : Bytes}
      (running : .verifying request start stop object ∈ system.runs)
      (found : system.objects object.key = some bytes)
      (verified : object.verifyBytes sha256 bytes = .ok ()) :
      ArchiveStep system
        (system.advance (.verifying request start stop object)
          (.checkpointing request start stop object))
  | checkpoint {request : RequestId} {start stop : Nat} {object : ArchiveObject}
      {issuer : ConsensusGroup} {submission : Submission} {completion : List Nat}
      {network : Network} {after : Fragments} {header : EntryHeader} {staged : Option StagedPayload}
      (running : .checkpointing request start stop object ∈ system.runs)
      (submitted : Submission.archiveCheckpoint request stop object.key = .ok submission)
      (prepared : issuer.prepareHeader code sha256 submission completion network
        system.fragments = (.ok (header, staged), after)) :
      ArchiveStep system
        ({ system with pending := .commit header :: system.pending, fragments := after }.advance
          (.checkpointing request start stop object) (.committing header stop))
  | acknowledge {position : Nat} {header : EntryHeader} {stop : Nat} {response : RaftResponse}
      (running : .committing header stop ∈ system.runs)
      (answered : Answered (system.log.take position) header response)
      (acknowledged : response.outcome = .committed ∨ response.outcome = .duplicate) :
      ArchiveStep system (system.advance (.committing header stop) (.releasing stop))
  /-- The bodies below the watermark of a replica are released. -/
  | release {position : Nat} {state : StateMachineData} {stop : Nat} {network : Network}
      {after : Fragments} (running : .releasing stop ∈ system.runs)
      (replica : ReplicaAt (system.log.take position) state)
      (outcome : releaseCheckpointedWalPayloads state network system.fragments = (.ok (), after)) :
      ArchiveStep system
        ({ system with fragments := after }.advance (.releasing stop) (.proposing stop))
  /-- The first failure ends the run; what was deleted before it stays so. -/
  | releaseFailed {position : Nat} {state : StateMachineData} {stop : Nat} {network : Network}
      {after : Fragments} {error : PayloadError} (running : .releasing stop ∈ system.runs)
      (replica : ReplicaAt (system.log.take position) state)
      (outcome : releaseCheckpointedWalPayloads state network system.fragments =
        (.error error, after)) :
      ArchiveStep system ({ system with fragments := after }.drop (.releasing stop))
  | propose {stop : Nat} (running : .proposing stop ∈ system.runs) :
      ArchiveStep system
        ({ system with pending := .releaseWal stop :: system.pending }.advance
          (.proposing stop) (.confirming stop))
  | confirm {position : Nat} {state : StateMachineData} {stop : Nat}
      (running : .confirming stop ∈ system.runs)
      (replica : ReplicaAt (system.log.take position) state) (covered : stop ≤ state.archiveLsn) :
      ArchiveStep system (system.drop (.confirming stop))
  /-- The other operations of the group stage, seal and copy bodies and delete none. -/
  | write {after : Fragments}
      (keeps : ∀ voter key, system.fragments voter key ≠ none → after voter key ≠ none) :
      ArchiveStep system { system with fragments := after }
  | crash {run : ArchiverRun} (running : run ∈ system.runs) : ArchiveStep system (system.drop run)
  | appendPending {entry : Entry} {command : RaftCommand} (handed : command ∈ system.pending)
      (payload : entry.payload = .normal command) : ArchiveStep system (system.append entry)
  | appendOther {entry : Entry} (other : ¬Entry.IsArchival entry) :
      ArchiveStep system (system.append entry)

/-- Any number of steps. -/
def ArchiveRun : ArchiveSystem → ArchiveSystem → Prop :=
  Relation.ReflTransGen (ArchiveStep code sha256 root)

end Steps

/-- The bytes are a nonempty range of the committed WAL stream. -/
structure InStream (log : List Entry) (bodies : Nat → Bytes) (start stop : Nat) (bytes : Bytes) :
    Prop where
  opened : recorded walStart log ≠ []
  lower : streamStart log ≤ start
  proper : start < stop
  upper : stop ≤ streamStart log + (walStream log bodies).length
  bytes_eq : bytes = window (streamStart log) (walStream log bodies) start stop

variable {code : ErasureCode UInt8} {sha256 : Bytes → Digest} {root : String} {log : List Entry}
  {bodies : Nat → Bytes} {state : StateMachineData} {start stop : Nat} {bytes : Bytes}
  {system before after : ArchiveSystem}

theorem recorded_append {γ : Type*} (reading : Nat × EntryHeader → Option γ)
    (front back : List Entry) : recorded reading (front ++ back) =
      recorded reading front ++ (historyFrom (replay front) back).filterMap reading := by
  rw [recorded, history_append, filterMap_append, recorded]

variable {segment : WalArchiveSegment}

theorem metadata_of_archiveSegment {entry : Nat × EntryHeader}
    (found : archiveSegment entry = some segment) : entry.2.metadata = .archive segment := by
  rw [archiveSegment] at found
  split at found
  · rename_i other metadata
    cases found
    exact metadata
  · cases found

theorem streamStart_append (opened : recorded walStart log ≠ []) (more : List Entry) :
    streamStart (log ++ more) = streamStart log := by
  obtain ⟨first, rest, starts⟩ := exists_cons_of_ne_nil opened
  rw [streamStart, streamStart, recorded_append, starts, cons_append, head?_cons, head?_cons]

theorem InStream.append (range : InStream log bodies start stop bytes) (more : List Entry) :
    InStream (log ++ more) bodies start stop bytes := by
  have opened : recorded walStart (log ++ more) ≠ [] := by
    rw [recorded_append]
    exact append_ne_nil_of_left_ne_nil range.opened _
  have same_start := streamStart_append range.opened more
  have stream_eq : walStream (log ++ more) bodies = walStream log bodies ++
      ((historyFrom (replay log) more).filterMap walBlock).flatMap
        fun block => bodies block.index := by
    rw [walStream, recordedBlocks, recorded_append, flatMap_append]
    rfl
  have upper := range.upper
  refine ⟨opened, same_start ▸ range.lower, range.proper, ?_, ?_⟩
  · rw [same_start, stream_eq, length_append]
    omega
  · rw [range.bytes_eq, same_start, stream_eq]
    exact (window_append_front _ (Nat.add_sub_cancel_left _ _).symm range.lower
      range.proper.le upper).symm

theorem CommittedBodies.take (committed : CommittedBodies sha256 log bodies) (position : Nat) :
    CommittedBodies sha256 (log.take position) bodies where
  length index header member := committed.length index header (mem_history_of_take member)
  inline index header member := committed.inline index header (mem_history_of_take member)
  identified index header member := committed.identified index header (mem_history_of_take member)

theorem opened_of_walEnd_pos (replica : ReplicaAt log state) (behind : 0 < state.walEnd) :
    recorded walStart log ≠ [] := by
  intro unopened
  have facts := replica.walHistory
  have closed : state.walInitialized = false := by
    rw [← replica.walTiled.started, timelineStart, facts.starts, unopened]
    rfl
  have empty := (replica.walTiled.closed closed).2.1
  omega

variable {header : EntryHeader}

/-- A recorded append whose header a replica has pruned lies below its watermark. -/
theorem stop_le_archiveLsn_of_pruned (replica : ReplicaAt log state) {index : Nat}
    (member : (index, header) ∈ history log) (metadata : header.metadata = .wal start stop)
    (pruned : state.committed.get index = none) : stop ≤ state.archiveLsn := by
  have facts := replica.walHistory
  obtain ⟨front, whole⟩ := facts.blocks
  have run := facts.tiled
  rw [← whole] at run
  obtain ⟨middle, front_run, back_run⟩ := run.split_append
  obtain ⟨origin, origin_le, tiled_run⟩ := replica.walTiled.blocks
  have middle_eq : middle = origin := back_run.origin_eq tiled_run
  have block : (⟨index, header, start, stop⟩ : WalBlock) ∈ recordedBlocks log :=
    mem_filterMap.mpr ⟨(index, header), member, walBlock_eq_some.mpr ⟨rfl, metadata⟩⟩
  rw [← whole] at block
  rcases mem_append.mp block with dropped | kept
  · have below := (front_run.ordered_of_mem dropped).2.2
    dsimp only at below
    omega
  · have retained := retained_of_mem_walBlocks kept
    rw [pruned] at retained
    cases retained

section Invariant

variable (sha256) (root) (bodies)

/-- The object under the key of a segment holds the range of the stream that the key spells. -/
def Archived (system : ArchiveSystem) (segment : WalArchiveSegment) : Prop :=
  ∃ bytes, system.objects segment.key = some bytes ∧
    InStream system.log bodies segment.startLsn segment.endLsn bytes

/-- A command that commits an archive checkpoint commits that of an archived segment. -/
def ArchivedCommand (system : ArchiveSystem) (command : RaftCommand) : Prop :=
  ∀ header segment, command = .commit header → header.metadata = .archive segment →
    Archived bodies system segment

/-- What a run knows about the range that it archives. -/
def ArchiverRun.Sound (system : ArchiveSystem) : ArchiverRun → Prop
  | .reading _ _ stop _ => stop < 2 ^ 64
  | .uploading _ start stop bytes =>
    stop < 2 ^ 64 ∧ InStream system.log bodies start stop bytes
  | .verifying _ start stop object =>
    stop < 2 ^ 64 ∧ ∃ bytes, InStream system.log bodies start stop bytes ∧
      object = archiveObject sha256 root start stop bytes
  | .checkpointing _ start stop object =>
    stop < 2 ^ 64 ∧ ∃ bytes, InStream system.log bodies start stop bytes ∧
      object = archiveObject sha256 root start stop bytes ∧
      system.objects object.key = some bytes
  | .committing _ _ | .releasing _ | .proposing _ | .confirming _ => True

/-- Checkpoints name archived segments, wherever they stand. -/
structure ArchiveInvariant (system : ArchiveSystem) : Prop where
  runs : ∀ run ∈ system.runs, run.Sound sha256 root bodies system
  pending : ∀ command ∈ system.pending, ArchivedCommand bodies system command
  logged : ∀ entry ∈ system.log, ∀ command, entry.payload = .normal command →
    ArchivedCommand bodies system command

/-- No stored object shares its digest with a different range of the stream. -/
def CollisionFree (system : ArchiveSystem) : Prop :=
  ∀ key found start stop bytes, system.objects key = some found →
    InStream system.log bodies start stop bytes → sha256 found = sha256 bytes → found = bytes

end Invariant

/-- The log is extended and objects are only added. -/
structure Grows (before after : ArchiveSystem) : Prop where
  log : ∃ more, after.log = before.log ++ more
  objects : ∀ key bytes, before.objects key = some bytes → after.objects key = some bytes

theorem Grows.of_eq (log_eq : after.log = before.log)
    (objects_eq : after.objects = before.objects) : Grows before after :=
  ⟨⟨[], by rw [log_eq, append_nil]⟩, fun key bytes found => by rw [objects_eq, found]⟩

theorem Grows.create (system : ArchiveSystem) (key : String) (bytes : Bytes) :
    Grows system (system.create key bytes) where
  log := ⟨[], (List.append_nil _).symm⟩
  objects := by
    intro other content found
    by_cases same : other = key
    · subst same
      simp [ArchiveSystem.create, found]
    · simp [ArchiveSystem.create, update_of_ne same, found]

theorem Grows.trans {middle : ArchiveSystem} (first : Grows before middle)
    (second : Grows middle after) : Grows before after := by
  obtain ⟨more, middle_eq⟩ := first.log
  obtain ⟨rest, after_eq⟩ := second.log
  refine ⟨⟨more ++ rest, by rw [after_eq, middle_eq, append_assoc]⟩, ?_⟩
  intro key bytes found
  exact second.objects key bytes (first.objects key bytes found)

theorem Grows.append (system : ArchiveSystem) (entry : Entry) :
    Grows system (system.append entry) :=
  ⟨⟨[entry], rfl⟩, fun _ _ found => found⟩

variable {command : RaftCommand} {run : ArchiverRun}

section Growth

variable (grows : Grows before after)
include grows

theorem InStream.grow (range : InStream before.log bodies start stop bytes) :
    InStream after.log bodies start stop bytes := by
  obtain ⟨more, log_eq⟩ := grows.log
  rw [log_eq]
  exact range.append more

theorem Archived.grow (archived : Archived bodies before segment) :
    Archived bodies after segment := by
  obtain ⟨bytes, found, range⟩ := archived
  exact ⟨bytes, grows.objects _ _ found, range.grow grows⟩

theorem ArchivedCommand.grow (archived : ArchivedCommand bodies before command) :
    ArchivedCommand bodies after command :=
  fun header segment equal metadata => (archived header segment equal metadata).grow grows

theorem ArchiverRun.Sound.grow (sound : run.Sound sha256 root bodies before) :
    run.Sound sha256 root bodies after := by
  cases run with
  | reading => exact sound
  | uploading => exact ⟨sound.1, sound.2.grow grows⟩
  | verifying =>
    obtain ⟨bounded, bytes, range, object_eq⟩ := sound
    exact ⟨bounded, bytes, range.grow grows, object_eq⟩
  | checkpointing =>
    obtain ⟨bounded, bytes, range, object_eq, found⟩ := sound
    exact ⟨bounded, bytes, range.grow grows, object_eq, grows.objects _ _ found⟩
  | committing | releasing | proposing | confirming => trivial

theorem CollisionFree.of_grows (unique : CollisionFree sha256 bodies after) :
    CollisionFree sha256 bodies before :=
  fun key found start stop bytes stored range same =>
    unique key found start stop bytes (grows.objects _ _ stored) (range.grow grows) same

theorem CommittedBodies.of_grows (committed : CommittedBodies sha256 after.log bodies) :
    CommittedBodies sha256 before.log bodies := by
  obtain ⟨more, log_eq⟩ := grows.log
  have shorter := CommittedBodies.take committed before.log.length
  rwa [log_eq, take_left] at shorter

end Growth

/-- The invariant follows growth once whatever is new satisfies it. -/
theorem ArchiveInvariant.grow (invariant : ArchiveInvariant sha256 root bodies before)
    (grows : Grows before after)
    (runs : ∀ run ∈ after.runs, run ∈ before.runs ∨ run.Sound sha256 root bodies after)
    (pending : ∀ command ∈ after.pending, command ∈ before.pending ∨
      ArchivedCommand bodies after command)
    (logged : ∀ entry ∈ after.log, entry ∈ before.log ∨
      ∀ command, entry.payload = .normal command → ArchivedCommand bodies after command) :
    ArchiveInvariant sha256 root bodies after where
  runs run member := (runs run member).elim (fun old => (invariant.runs run old).grow grows) id
  pending command member :=
    (pending command member).elim (fun old => (invariant.pending command old).grow grows) id
  logged entry member := (logged entry member).elim
    (fun old command payload => (invariant.logged entry old command payload).grow grows) id

theorem ArchiveStep.grows (happens : ArchiveStep code sha256 root before after) :
    Grows before after := by
  cases happens with
  | spawnArchive | flushTimelineTail | read | verify | checkpoint | acknowledge | propose |
      release | releaseFailed | confirm | write | crash => exact .of_eq rfl rfl
  | upload | uploadLost => exact (Grows.create _ _ _).trans (.of_eq rfl rfl)
  | appendPending | appendOther => exact .append _ _

namespace ArchiveInvariant

variable (invariant : ArchiveInvariant sha256 root bodies system)
include invariant

variable {next : ArchiverRun}

theorem begin_run (sound : next.Sound sha256 root bodies system) {others : List ArchiverRun}
    (kept : others ⊆ system.runs) :
    ArchiveInvariant sha256 root bodies { system with runs := next :: others } := by
  refine invariant.grow (.of_eq rfl rfl) ?_ (fun _ old => .inl old) fun _ old => .inl old
  intro run member
  rcases mem_cons.mp member with rfl | other
  · exact .inr sound
  · exact .inl (kept other)

theorem advance (run : ArchiverRun) (sound : next.Sound sha256 root bodies system) :
    ArchiveInvariant sha256 root bodies (system.advance run next) :=
  invariant.begin_run sound erase_subset

theorem drop (run : ArchiverRun) : ArchiveInvariant sha256 root bodies (system.drop run) :=
  invariant.grow (.of_eq rfl rfl) (fun _ member => .inl (mem_of_mem_erase member))
    (fun _ old => .inl old) fun _ old => .inl old

theorem create (key : String) (bytes : Bytes) :
    ArchiveInvariant sha256 root bodies (system.create key bytes) :=
  invariant.grow (.create _ _ _) (fun _ old => .inl old) (fun _ old => .inl old)
    fun _ old => .inl old

theorem hand (sound : ArchivedCommand bodies system command) :
    ArchiveInvariant sha256 root bodies
      { system with pending := command :: system.pending } := by
  refine invariant.grow (.of_eq rfl rfl) (fun _ old => .inl old) ?_ fun _ old => .inl old
  intro other member
  rcases mem_cons.mp member with rfl | old
  · exact .inr sound
  · exact .inl old

theorem append {entry : Entry}
    (sound : ∀ command, entry.payload = .normal command → ArchivedCommand bodies system command) :
    ArchiveInvariant sha256 root bodies (system.append entry) := by
  refine invariant.grow (.append _ _) (fun _ old => .inl old) (fun _ old => .inl old) ?_
  intro other member
  rcases mem_append.mp member with old | last
  · exact .inl old
  · rw [mem_singleton.mp last]
    exact .inr fun command payload => (sound command payload).grow (.append _ _)

theorem store (fragments : Fragments) :
    ArchiveInvariant sha256 root bodies { system with fragments } :=
  invariant.grow (.of_eq rfl rfl) (fun _ old => .inl old) (fun _ old => .inl old)
    fun _ old => .inl old

end ArchiveInvariant

variable {issuer : ConsensusGroup} {submission : Submission}

theorem archivedCommand_of_checkpoint {request : RequestId} {object : ArchiveObject}
    {completion : List Nat} {network : Network} {fragments storage : Fragments}
    {staged : Option StagedPayload}
    (sound : (ArchiverRun.checkpointing request start stop object).Sound sha256 root bodies system)
    (submitted : Submission.archiveCheckpoint request stop object.key = .ok submission)
    (prepared : issuer.prepareHeader code sha256 submission completion network fragments =
      (.ok (header, staged), storage)) : ArchivedCommand bodies system (.commit header) := by
  obtain ⟨bounded, bytes, range, rfl, found⟩ := sound
  rintro _ segment ⟨rfl⟩ metadata
  rw [ConsensusGroup.metadata_of_prepareHeader prepared] at metadata
  rw [Submission.archiveCheckpoint] at submitted
  split at submitted
  · cases submitted
  rename_i decoded accepted
  split at submitted
  · cases submitted
  cases submitted
  cases metadata
  obtain ⟨key_eq, start_eq, stop_eq, _⟩ := fromKey_archiveKey range.proper bounded accepted
  refine ⟨bytes, ?_, ?_⟩
  · rw [key_eq]
    exact found
  · rw [start_eq, stop_eq]
    exact range

theorem ArchiveInvariant.step (invariant : ArchiveInvariant sha256 root bodies before)
    (happens : ArchiveStep code sha256 root before after)
    (committed : CommittedBodies sha256 before.log bodies)
    (unique : CollisionFree sha256 bodies before) : ArchiveInvariant sha256 root bodies after := by
  cases happens with
  | @spawnArchive position state request replica complete proper =>
    have bounded : segmentEnd state.archiveLsn < 2 ^ 64 := by
      rw [segmentEnd]
      split <;> omega
    refine invariant.begin_run ?_ (.refl _)
    exact bounded
  | flushTimelineTail request replica machine nonempty =>
    refine invariant.begin_run ?_ (.refl _)
    exact machine
  | @read position _ _ _ _ _ _ _ _ running replica answered exact_length =>
    have logged := CommittedBodies.take committed position
    rw [readWal] at answered
    split at answered
    · cases answered
    rename_i proper
    obtain ⟨lower, upper, bytes_eq, _⟩ :=
      of_readWalAfterFence replica logged identifies_sealThenReconstruct (Nat.not_le.mp proper)
        answered
    have length_eq := length_walStream replica logged
    have range : InStream (before.log.take position) bodies _ _ _ :=
      ⟨opened_of_walEnd_pos replica (by omega), lower, Nat.not_le.mp proper, by omega, bytes_eq⟩
    have whole := range.append (before.log.drop position)
    rw [take_append_drop] at whole
    exact invariant.advance _ ⟨invariant.runs _ running, whole⟩
  | upload running =>
    obtain ⟨bounded, range⟩ := invariant.runs _ running
    exact (invariant.create _ _).advance _ ⟨bounded, _, range, rfl⟩
  | uploadLost running => exact (invariant.create _ _).drop _
  | verify running found verified =>
    obtain ⟨bounded, bytes, range, rfl⟩ := invariant.runs _ running
    rw [ArchiveObject.verifyBytes] at verified
    split at verified
    · cases verified
    rename_i intact
    rw [not_or, not_not, not_not] at intact
    cases unique _ _ _ _ bytes found range intact.2
    exact invariant.advance _ ⟨bounded, _, range, rfl, found⟩
  | checkpoint running submitted prepared =>
    have archived := archivedCommand_of_checkpoint (invariant.runs _ running) submitted prepared
    exact ((invariant.hand archived).store _).advance _ trivial
  | acknowledge running => exact invariant.advance _ trivial
  | release => exact (invariant.store _).advance _ trivial
  | releaseFailed => exact (invariant.store _).drop _
  | write keeps => exact invariant.store _
  | propose running =>
    have harmless : ∀ stop, ArchivedCommand bodies before (.releaseWal stop) :=
      fun stop header segment equal => by cases equal
    exact (invariant.hand (harmless _)).advance _ trivial
  | confirm | crash => exact invariant.drop _
  | appendPending handed payload =>
    refine invariant.append fun command other => ?_
    rw [payload] at other
    cases other
    exact invariant.pending _ handed
  | appendOther other =>
    refine invariant.append ?_
    rintro command payload header segment rfl metadata
    exact absurd (.inl ⟨header, segment, payload, metadata⟩) other

theorem ArchiveRun.invariant (reached : ArchiveRun code sha256 root {} system)
    (committed : CommittedBodies sha256 system.log bodies)
    (unique : CollisionFree sha256 bodies system) :
    ArchiveInvariant sha256 root bodies system := by
  induction reached with
  | refl => constructor <;> simp
  | tail _ happens induction =>
    have grows := happens.grows
    have committed_before := CommittedBodies.of_grows grows committed
    have unique_before := unique.of_grows grows
    exact (induction committed_before unique_before).step happens committed_before unique_before

/-- The key is that of a representation of the header's body. -/
def IsBodyOf (header : EntryHeader) (key : FragmentKey) : Prop :=
  key.hash = header.payloadHash ∧ key.group = header.group ∧ key.request = header.request

/-- The key is that of the body of a recorded append below the watermark of the group. -/
def BelowWatermark (log : List Entry) (key : FragmentKey) : Prop :=
  ∃ index header start stop, (index, header) ∈ history log ∧ IsBodyOf header key ∧
    header.metadata = .wal start stop ∧ stop ≤ (replay log).archiveLsn

variable {position : Nat}

section Bodies

variable {network : Network} {fragments : Fragments} {voter : Nat} {key : FragmentKey}

theorem release_eq_or (request : ReconstructRequest) :
    (release request network fragments).2 voter key = fragments voter key ∨ key = request.key := by
  rw [release]
  split
  · exact .inl rfl
  · have landed := landWrites_eq_or_mem network.delete request.key
      (request.certificate.voters.map fun voter => (voter, none)) fragments voter key
    split <;> exact landed.imp_right And.left

theorem releaseCommittedPayload_eq_or (index : Nat) (header : EntryHeader) :
    (releaseCommittedPayload state index header network fragments).2 voter key =
      fragments voter key ∨ IsBodyOf header key := by
  have touched : ∀ allocation before after result,
      release (header.readFrom allocation) network before = (result, after) →
      after voter key = before voter key ∨ IsBodyOf header key := by
    intro allocation before after result released
    have kept := @release_eq_or network before voter key (header.readFrom allocation)
    rw [released] at kept
    refine kept.imp_right ?_
    rintro rfl
    exact ⟨rfl, rfl, rfl⟩
  rw [releaseCommittedPayload]
  split
  · exact .inl rfl
  split
  · exact .inl rfl
  split
  · exact touched _ _ _ _ ‹_›
  rename_i middle original
  split
  · exact touched _ _ _ _ original
  · rename_i repair _
    rcases touched _ _ _ _ original with same | own
    · rw [← same]
      exact touched repair _ _ _ rfl
    · exact .inr own

theorem releasePayloads_eq_or (selected : List (Nat × EntryHeader)) :
    (releasePayloads state network selected fragments).2 voter key = fragments voter key ∨
      ∃ entry ∈ selected, IsBodyOf entry.2 key := by
  induction selected generalizing fragments with
  | nil => exact .inl rfl
  | cons entry rest induction =>
    obtain ⟨index, header⟩ := entry
    have first := @releaseCommittedPayload_eq_or state network fragments voter key index header
    rw [releasePayloads]
    rcases first with same | body
    · split
      · rename_i error after failed
        rw [failed] at same
        exact .inl same
      · rename_i after passed
        rw [passed] at same
        refine (@induction after).imp (fun kept => kept.trans same) ?_
        rintro ⟨entry, member, body⟩
        exact ⟨entry, mem_cons_of_mem _ member, body⟩
    · exact .inr ⟨_, mem_cons_self, body⟩

variable {completion : List Nat}

theorem stage_keeps (store : DistributedPayloadStore) (staging : StageRequest)
    (present : fragments voter key ≠ none) :
    (store.stage code sha256 staging completion network fragments).2 voter key ≠ none := by
  have landed : ∀ writes : List (Nat × Option PayloadRepresentation),
      (∀ write ∈ writes, write.2 ≠ none) →
      landWrites network.store (staging.key sha256) writes fragments voter key ≠ none := by
    intro writes stored
    rcases landWrites_eq_or_mem network.store (staging.key sha256) writes fragments voter key with
      kept | ⟨_, written⟩
    · rw [kept]
      exact present
    · exact stored _ written
  rw [DistributedPayloadStore.stage]
  split
  · exact present
  · dsimp only
    split
    · split <;> exact landed _ (by simp)
    · exact landed _ (by simp)

theorem prepareHeader_keeps {after : Fragments}
    {result : Except GroupError (EntryHeader × Option StagedPayload)}
    (prepared : issuer.prepareHeader code sha256 submission completion network fragments =
      (result, after)) (present : fragments voter key ≠ none) : after voter key ≠ none := by
  have kept := @stage_keeps code sha256 network fragments voter key completion issuer.payloads
    (issuer.staging submission) present
  rw [ConsensusGroup.prepareHeader] at prepared
  split at prepared
  · cases prepared
    exact present
  split at prepared
  · rename_i staged
    cases prepared
    rwa [staged] at kept
  · rename_i staged
    cases prepared
    rwa [staged] at kept

/-- A replica releases bodies below its own watermark only, and the group's is not behind it. -/
theorem below_of_released {after : Fragments} {result : Except PayloadError Unit}
    (replica : ReplicaAt (log.take position) state)
    (outcome : releaseCheckpointedWalPayloads state network fragments = (result, after))
    (present : fragments voter key ≠ none) (left : after voter key = none) :
    BelowWatermark log key := by
  have released := @releasePayloads_eq_or state network fragments voter key
    (state.committed.entries.filter fun entry => walCovered state.archiveLsn entry.1 entry.2)
  rw [← releaseCheckpointedWalPayloads, outcome] at released
  obtain ⟨⟨index, header⟩, selected, body⟩ :=
    released.resolve_left fun same => present (same.symm.trans left)
  obtain ⟨member, covered⟩ := mem_filter.mp selected
  have recorded := replica.recorded.retained index header (OrderedMap.get_eq_some_iff.mpr member)
  have watermark := congrArg StateMachineData.archiveLsn replica.core_eq
  have same : state.archiveLsn = (replay (log.take position)).archiveLsn := watermark
  have behind := archiveLsn_replay_append (log.take position) (log.drop position)
  rw [take_append_drop] at behind
  rw [walCovered] at covered
  split at covered
  · rename_i start stop metadata
    have stop_le := of_decide_eq_true covered
    exact ⟨index, header, start, stop, mem_history_of_take recorded, body, metadata,
      by omega⟩
  · cases covered

theorem ArchiveStep.below_of_left (happens : ArchiveStep code sha256 root before after)
    (present : before.fragments voter key ≠ none) (left : after.fragments voter key = none) :
    BelowWatermark before.log key := by
  cases happens with
  | checkpoint running submitted prepared =>
    exact absurd left (prepareHeader_keeps prepared present)
  | release running replica outcome | releaseFailed running replica outcome =>
    exact below_of_released replica outcome present left
  | write keeps => exact absurd left (keeps voter key present)
  | _ => exact absurd left present

/-- What has left the payload store since some point of a run lies below the watermark. -/
theorem ArchiveRun.below_of_left (run : ArchiveRun code sha256 root before after)
    (present : before.fragments voter key ≠ none) (left : after.fragments voter key = none) :
    BelowWatermark after.log key := by
  induction run with
  | refl => exact absurd left present
  | @tail middle after _ happens induction =>
    have below : BelowWatermark middle.log key := by
      by_cases gone : middle.fragments voter key = none
      · exact induction gone
      · exact happens.below_of_left gone left
    obtain ⟨index, header, start, stop, recorded, body, metadata, stop_le⟩ := below
    obtain ⟨more, log_eq⟩ := happens.grows.log
    rw [log_eq]
    refine ⟨index, header, start, stop, ?_, body, metadata,
      stop_le.trans (archiveLsn_replay_append _ _)⟩
    rw [history_append]
    exact mem_append_left _ recorded

end Bodies

/-- In every reachable system and on every replica, each position of the stream below the watermark
lies in an archive object that holds its range of the stream.  Every body that has left the payload
store is that of an append below the watermark, and so is whatever a replica has pruned. -/
theorem wal_released_behind_archive (reached : ArchiveRun code sha256 root {} system)
    (committed : CommittedBodies sha256 system.log bodies)
    (unique : CollisionFree sha256 bodies system)
    (replica : ReplicaAt (system.log.take position) state) :
    (∀ lsn, streamStart system.log ≤ lsn → lsn < state.archiveLsn →
      ∃ key bytes lower upper, system.objects key = some bytes ∧
        InStream system.log bodies lower upper bytes ∧ lower ≤ lsn ∧ lsn < upper) ∧
      (∀ before, ArchiveRun code sha256 root before system →
        ∀ voter key, before.fragments voter key ≠ none → system.fragments voter key = none →
        ∃ index header start stop, (index, header) ∈ history system.log ∧ IsBodyOf header key ∧
          header.metadata = .wal start stop ∧ stop ≤ (replay system.log).archiveLsn) ∧
      ∀ index header start stop, (index, header) ∈ history (system.log.take position) →
        header.metadata = .wal start stop → state.committed.get index = none →
        stop ≤ state.archiveLsn := by
  have invariant := reached.invariant committed unique
  refine ⟨?_, fun before run voter key present left => run.below_of_left present left,
    fun index header start stop member metadata pruned =>
      stop_le_archiveLsn_of_pruned replica member metadata pruned⟩
  intro lsn lower below
  have opened : recorded walStart (system.log.take position) ≠ [] := by
    have archived_le := replica.walTiled.archived_le
    apply opened_of_walEnd_pos replica
    omega
  have same_start := streamStart_append opened (system.log.drop position)
  rw [take_append_drop] at same_start
  obtain ⟨segment, member, start_le, lt_stop⟩ :=
    (segments_tile replica).exists_mem_of_lt (same_start ▸ lower) below
  rw [replica.walHistory.segments] at member
  obtain ⟨⟨index, header⟩, logged, found⟩ := mem_filterMap.mp member
  obtain ⟨entry, entry_member, _, payload⟩ := mem_log_of_mem_history (mem_history_of_take logged)
  obtain ⟨bytes, stored, range⟩ := invariant.logged entry entry_member _ payload header segment rfl
    (metadata_of_archiveSegment found)
  exact ⟨segment.key, bytes, segment.startLsn, segment.endLsn, stored, range, start_le, lt_stop⟩

theorem ArchiveRun.of_not_archival (fragments : Fragments)
    (others : ∀ entry ∈ log, ¬Entry.IsArchival entry) :
    ArchiveRun code sha256 root {} { log, fragments } := by
  induction log using reverseRecOn with
  | nil => exact .single (.write fun _ _ present => absurd rfl present)
  | append_singleton log entry induction =>
    have earlier := induction fun other member => others other (mem_append_left _ member)
    exact earlier.tail (.appendOther (others entry (by simp)))

/-- The bodies that commit on the archived timeline. -/
def zeroBodies : Nat → Bytes
  | 1 => asBytes "archive"
  | 4 => zeroBody
  | 5 => asBytes zeroSegment.key
  | _ => []

theorem zeroSha256_cases {digest : Digest} (hashed : zeroSha256 bytes = digest) :
    bytes = zeroBody ∧ digest = zeroSegment.hash ∨
      bytes = asBytes zeroSegment.key ∧ digest = zeroCheckpoint.payloadHash ∨
      digest = Vector.replicate 32 0 := by
  rw [zeroSha256] at hashed
  split at hashed
  · exact .inl ⟨‹_›, hashed.symm⟩
  split at hashed
  · exact .inr (.inl ⟨‹_›, hashed.symm⟩)
  · exact .inr (.inr hashed.symm)

theorem zeroBody_of_hash (hashed : zeroSha256 bytes = zeroSegment.hash) : bytes = zeroBody := by
  rcases zeroSha256_cases hashed with ⟨same, _⟩ | ⟨_, other⟩ | other
  · exact same
  · exact absurd other (by decide)
  · exact absurd other (by decide)

theorem zeroBodies_committed :
    CommittedBodies zeroSha256 (retriedTimeline.take 6) zeroBodies := by
  obtain ⟨binding, opening, lease, history_eq, rows⟩ : ∃ binding opening lease : EntryHeader,
      history (retriedTimeline.take 6) =
        [(1, binding), (2, opening), (3, lease), (4, zeroHeader), (5, zeroCheckpoint)] ∧
      ∀ entry ∈ [(1, binding), (2, opening), (3, lease)],
        entry.2.inlineBody = some (zeroBodies entry.1) ∧
          entry.2.payloadLen = (zeroBodies entry.1).length ∧
          entry.2.payloadHash ≠ zeroSegment.hash ∧
          entry.2.payloadHash ≠ zeroCheckpoint.payloadHash ∧
          entry.2.payloadHash ≠ Vector.replicate 32 0 :=
    ⟨_, _, _, rfl, by decide⟩
  have split : ∀ index header, (index, header) ∈ history (retriedTimeline.take 6) →
      (index, header) ∈ [(1, binding), (2, opening), (3, lease)] ∨
        index = 4 ∧ header = zeroHeader ∨ index = 5 ∧ header = zeroCheckpoint := by
    intro index header member
    rw [history_eq] at member
    simpa [or_assoc] using member
  refine ⟨fun index header member => ?_, fun index header member => ?_,
    fun index header member => ?_⟩
  · rcases split index header member with row | ⟨rfl, rfl⟩ | ⟨rfl, rfl⟩
    · exact (rows _ row).2.1.symm
    · exact zeroBody_length
    · rfl
  · rcases split index header member with row | ⟨rfl, rfl⟩ | ⟨rfl, rfl⟩
    · rw [(rows _ row).1]
      rintro _ ⟨⟩
      rfl
    · rintro _ ⟨⟩
    · rintro _ ⟨⟩
      rfl
  · intro bytes hashed
    rcases split index header member with row | ⟨rfl, rfl⟩ | ⟨rfl, rfl⟩
    · obtain ⟨_, _, first, second, third⟩ := rows _ row
      rcases zeroSha256_cases hashed with ⟨_, same⟩ | ⟨_, same⟩ | same
      · exact absurd same first
      · exact absurd same second
      · exact absurd same third
    · exact zeroBody_of_hash hashed
    · rcases zeroSha256_cases hashed with ⟨_, same⟩ | ⟨same, _⟩ | same
      · exact absurd same (by decide)
      · exact same
      · exact absurd same (by decide)

theorem zeroTimeline_read {fetch : ReconstructRequest → Except PayloadError Bytes} {body : Bytes}
    (fetched : fetch (zeroHeader.readFrom ⟨1, pairCertificate, ⟨1, 4⟩⟩) = .ok body)
    (length : body.length = 5000) : readWal fetch (replay zeroTimeline) 0 5000 4 = .ok body := by
  have read : readCommitted fetch (replay zeroTimeline) 4 zeroHeader = .ok body := by
    have staged : zeroHeader.inlineBody = none := rfl
    have current : currentAllocation (replay zeroTimeline) 4 zeroHeader =
        .ok ⟨1, pairCertificate, ⟨1, 4⟩⟩ := rfl
    simp only [readCommitted, staged, current, fetched, Except.mapError]
  have blocks : walBlocks (replay zeroTimeline) = [⟨4, zeroHeader, 0, 5000⟩] := rfl
  have applied : appliedIndex (replay zeroTimeline) = 4 := rfl
  have sliced : body.slice? 0 5000 = some body := by
    rw [slice?, if_pos ⟨by decide, length.ge⟩, take_of_length_le length.le, drop_zero]
  simp [readWal, readWalAfterFence, applied, blocks, splice, read, sliced]

theorem zeroSealed_read : sealThenReconstruct .mirror zeroSha256 {} {} zeroSealed
    (zeroHeader.readFrom ⟨1, pairCertificate, ⟨1, 4⟩⟩) = .ok zeroBody := by
  have sealed : ∀ holder ∈ zeroAllocation.certificate.holders,
      zeroSealed holder (zeroAllocation.key zeroSha256) =
        some (zeroAllocation.record zeroSha256 1 4 holder) := fun _ member =>
    if_pos ⟨member, rfl⟩
  rw [zeroHeader_readFrom]
  exact Allocation.sealThenReconstruct_eq Nat.one_pos (by decide)
    (fun holder member => .inr (.inr (sealed holder member)))
    (fun holder member => by rw [sealed holder member]; exact Option.some_ne_none _)
    (fun _ _ => rfl) (fun _ _ => rfl) ErasureCode.mirror_lawful (fun _ _ => rfl)

theorem ArchiveSystem.advance_cons {rest : List ArchiverRun} (runs : system.runs = run :: rest)
    (next : ArchiverRun) : system.advance run next = { system with runs := next :: rest } := by
  rw [advance, runs, erase_cons_head]

/-- The timeline of the zero bytes before anything is archived. -/
def zeroSystem : ArchiveSystem := { log := zeroTimeline, fragments := zeroSealed }

/-- The same after a flush that leaves the given payload store. -/
def flushedSystem (stored : Fragments) : ArchiveSystem where
  log := retriedTimeline.take 6
  pending := [.releaseWal 5000, .commit zeroCheckpoint]
  fragments := stored
  objects := update (fun _ => none) zeroSegment.key (some zeroBody)
  runs := [.confirming 5000]

theorem flushedSystem_run {stored : Fragments}
    (released : releaseCheckpointedWalPayloads (replay archivedTimeline) {} zeroSealed =
      (.ok (), stored)) :
    ArchiveRun .mirror zeroSha256 "timeline" zeroSystem (flushedSystem stored) := by
  have before : ReplicaAt (zeroTimeline.take 4) (replay zeroTimeline) :=
    ReplicaAt.of_apply (by decide) (by decide)
  have whole : ReplicaAt (archivedTimeline.take 5) (replay archivedTimeline) :=
    archivedTimeline_replica
  have unarchived : (replay zeroTimeline).archiveLsn ≠ (replay zeroTimeline).walEnd := by decide
  have machine : (replay zeroTimeline).walEnd < 2 ^ 64 := by decide
  have reading : ArchiveRun .mirror zeroSha256 "timeline" zeroSystem
      { zeroSystem with runs := [.reading 5 0 5000 4] } :=
    .single (.flushTimelineTail 5 before machine unarchived)
  have uploading := reading.tail (.read mem_cons_self before
    (zeroTimeline_read zeroSealed_read zeroBody_length) zeroBody_length)
  have verifying := uploading.tail (.upload mem_cons_self)
  have object_eq : archiveObject zeroSha256 "timeline" 0 5000 zeroBody =
      ⟨zeroSegment.key, zeroSegment.hash, 5000⟩ := by
    rw [archiveObject, zeroSha256_zeroBody, zeroBody_length]
    decide
  rw [ArchiveSystem.advance_cons rfl, object_eq] at verifying
  have verified : (⟨zeroSegment.key, zeroSegment.hash, 5000⟩ : ArchiveObject).verifyBytes zeroSha256
      zeroBody = .ok () := by
    rw [ArchiveObject.verifyBytes, zeroSha256_zeroBody, zeroBody_length]
    rfl
  have stored_object : (zeroSystem.create zeroSegment.key zeroBody).objects =
      update (fun _ => none) zeroSegment.key (some zeroBody) := rfl
  have checkpointing := verifying.tail (.verify mem_cons_self
    ((congrFun stored_object _).trans (update_self _ _ _)) verified)
  have prepared : timelineGroup.prepareHeader .mirror zeroSha256
      { request := 5, kind := .archiveCheckpoint, body := asBytes zeroSegment.key
        metadata := .archive zeroSegment } [] {} zeroSealed =
      (.ok (zeroCheckpoint, none), zeroSealed) := rfl
  have committing := checkpointing.tail (.checkpoint mem_cons_self (by rfl) prepared)
  have checkpointed := committing.tail
    (@ArchiveStep.appendPending _ _ _ _ ⟨⟨1, 5⟩, .normal (.commit zeroCheckpoint)⟩ _
      mem_cons_self rfl)
  have answered : Answered (archivedTimeline.take 5) zeroCheckpoint
      { index := 5, outcome := .committed, archiveLsn := some 5000 } := ⟨4, ⟨1, 5⟩, rfl, rfl⟩
  have releasing := checkpointed.tail (.acknowledge mem_cons_self answered (.inl rfl))
  have proposing := releasing.tail (.release mem_cons_self whole released)
  have confirming := proposing.tail (.propose mem_cons_self)
  exact confirming.tail
    (@ArchiveStep.appendPending _ _ _ _ ⟨⟨1, 6⟩, .normal (.releaseWal 5000)⟩ _ mem_cons_self rfl)

/-- The zero bytes are flushed: their object covers the third byte, their body has left the payload
store, and their pruned append lies below the watermark. -/
theorem wal_released_behind_archive_flushed :
    ∃ stored, ArchiveRun .mirror zeroSha256 "timeline" zeroSystem (flushedSystem stored) ∧
      zeroSystem.fragments 1 (zeroAllocation.key zeroSha256) ≠ none ∧
      (flushedSystem stored).fragments 1 (zeroAllocation.key zeroSha256) = none ∧
      (∃ key bytes lower upper, (flushedSystem stored).objects key = some bytes ∧
        InStream (retriedTimeline.take 6) zeroBodies lower upper bytes ∧ lower ≤ 2 ∧ 2 < upper) ∧
      (∃ index header start stop, (index, header) ∈ history (retriedTimeline.take 6) ∧
        IsBodyOf header (zeroAllocation.key zeroSha256) ∧ header.metadata = .wal start stop ∧
          stop ≤ (replay (retriedTimeline.take 6)).archiveLsn) ∧
      (replay (retriedTimeline.take 6)).committed.get 4 = none ∧
        5000 ≤ (replay (retriedTimeline.take 6)).archiveLsn := by
  obtain ⟨stored, released⟩ := @archivedTimeline_release zeroSealed fun _ member =>
    if_pos ⟨member, rfl⟩
  have run := flushedSystem_run released
  have opened : ArchiveRun .mirror zeroSha256 "timeline" {} zeroSystem := by
    apply ArchiveRun.of_not_archival
    simp [zeroTimeline, shortTimeline, Entry.IsArchival, inlineEntry, inlineHeader, zeroHeader]
  have present : zeroSystem.fragments 1 (zeroAllocation.key zeroSha256) ≠ none := by
    have held : zeroSealed 1 (zeroAllocation.key zeroSha256) =
        some (zeroAllocation.record zeroSha256 1 4 1) := if_pos ⟨by decide, rfl⟩
    simp only [zeroSystem, held]
    exact Option.some_ne_none _
  have gone : (flushedSystem stored).fragments 1 (zeroAllocation.key zeroSha256) = none := by
    have left := (releasePayloads_reclaims (fun _ => rfl) released).gone 4 zeroHeader
      (by decide) rfl _ zeroHeader_current 1 (by decide)
    rwa [zeroHeader_readFrom, Allocation.reconstructRequest_key] at left
  have replica : ReplicaAt ((retriedTimeline.take 6).take 6) (replay (retriedTimeline.take 6)) :=
    ReplicaAt.of_apply (by decide) (by decide)
  have unique : CollisionFree zeroSha256 zeroBodies (flushedSystem stored) := by
    intro key found start stop bytes held range same
    have found_eq : found = zeroBody := by
      simp only [flushedSystem, update_apply] at held
      split at held
      · exact (Option.some.inj held).symm
      · cases held
    rw [found_eq, zeroSha256_zeroBody] at same
    rw [found_eq, zeroBody_of_hash same.symm]
  obtain ⟨covered, left, below⟩ := wal_released_behind_archive (opened.trans run)
    zeroBodies_committed unique replica
  have starts : streamStart (retriedTimeline.take 6) ≤ 2 := by decide
  have recorded : (4, zeroHeader) ∈ history ((retriedTimeline.take 6).take 6) := by decide
  refine ⟨stored, run, present, gone, covered 2 starts (by decide),
    left _ run 1 _ present gone, by decide, ?_⟩
  exact below 4 zeroHeader 0 5000 recorded rfl (by decide)

end Verglas.Safekeeper
