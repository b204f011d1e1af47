import Mathlib.Data.List.Induction
import Verglas.Consensus.Command
import Verglas.Lib.Framing

/-!
# The persistent Raft log

A replica keeps its Raft log in two files.  Term, vote and committed position form a small image
that is replaced as a whole; entries live in an append-only file of checksummed frames, one for
each append, truncation and purge.  Opening the store replays the complete frames and cuts an
interrupted last frame off the file.  The JSON codecs and the checksum are parameters.
-/

namespace Verglas.Consensus

open List Framing

/-- A serializer with its parser: what was written is read back. -/
structure Json (α : Type) where
  encode : α → Option Bytes
  decode : Bytes → Option α
  decode_encode : ∀ value bytes, encode value = some bytes → decode bytes = some value

/-- The vote that a node has cast. -/
structure Vote where
  term : Nat
  nodeId : Nat
  committed : Bool
  deriving DecidableEq, Repr

/-- Compact values persisted independently from every entry frame. -/
@[ext] structure LogData where
  lastPurged : Option LogId := none
  committed : Option LogId := none
  vote : Option Vote := none
  deriving DecidableEq, Repr

/-- In-memory log state reconstructed from the image and the frames. -/
@[ext] structure LogStateData where
  metadata : LogData := {}
  entries : OrderedMap Nat Entry := ∅
  deriving DecidableEq

/-- One durable mutation of the entry journal. -/
inductive LogRecord where
  | append (entries : List Entry)
  | truncate (since : Nat)
  | purge (logId : LogId)
  deriving DecidableEq

/-- Why the log file cannot be replayed. -/
inductive LogReadError where
  | frameOverflow
  | corruptFrame
  | undecodable
  deriving DecidableEq, Repr

/-- Recovered journal state, whose compaction boundary is authoritative over the image. -/
structure RecoveredLog where
  entries : OrderedMap Nat Entry := ∅
  lastPurged : Option LogId := none
  deriving DecidableEq

/-- What an append record does to the entries. -/
def insertEntries (log : OrderedMap Nat Entry) (entries : List Entry) : OrderedMap Nat Entry :=
  entries.foldl (fun log entry => log.insert entry.logId.index entry) log

/-- What a truncate record does to the entries. -/
def truncateEntries (log : OrderedMap Nat Entry) (since : Nat) : OrderedMap Nat Entry :=
  log.retain fun index _ => index < since

/-- What a purge record does to the entries. -/
def purgeEntries (log : OrderedMap Nat Entry) (logId : LogId) : OrderedMap Nat Entry :=
  log.retain fun index _ => logId.index + 1 ≤ index

/-- Replay one record. -/
def applyLogRecord (recovered : RecoveredLog) : LogRecord → RecoveredLog
  | .append entries => { recovered with entries := insertEntries recovered.entries entries }
  | .truncate since => { recovered with entries := truncateEntries recovered.entries since }
  | .purge logId =>
    { entries := purgeEntries recovered.entries logId, lastPurged := some logId }

/-- State after a sequence of records. -/
def replayRecords (records : List LogRecord) : RecoveredLog := records.foldl applyLogRecord {}

section Files

variable (json : Json LogRecord) (crc32c : Bytes → UInt32)

/-- Replay the complete frames that follow `offset`; the result names the end of the last one. -/
def recoverFrames (offset : Nat) (rest : Bytes) (recovered : RecoveredLog) :
    Except LogReadError (RecoveredLog × Nat) :=
  if rest = [] then .ok (recovered, offset)
  else
    match _head : readHead crc32c offset rest with
    | .torn => .ok (recovered, offset)
    | .overflow => .error .frameOverflow
    | .corrupt => .error .corruptFrame
    | .payload payload remaining =>
      match json.decode payload with
      | none => .error .undecodable
      | some record =>
        recoverFrames (offset + headerLength + payload.length) remaining
          (applyLogRecord recovered record)
termination_by rest.length
decreasing_by exact length_rest_of_readHead crc32c (by assumption)

/-- Replay the complete frames of an entries file, and the file without an interrupted last
frame. -/
def recoverLogRecords (file : Bytes) : Except LogReadError (RecoveredLog × Bytes) :=
  (recoverFrames json crc32c 0 file {}).map fun (recovered, offset) =>
    (recovered, file.take offset)

/-- Each record is serialized as the payload beside it. -/
def Encoded (records : List LogRecord) (payloads : List Bytes) : Prop :=
  List.Forall₂ (fun record payload => json.encode record = some payload) records payloads

variable {json crc32c} {records : List LogRecord} {payloads : List Bytes}

/-- A file of serialized records is replayed up to its torn tail. -/
theorem recoverFrames_frames (encoded : Encoded json records payloads) {tail : Bytes} {offset : Nat}
    (bounded : offset + (frames crc32c payloads).length < 2 ^ 64)
    (torn : tail = [] ∨
      readHead crc32c (offset + (frames crc32c payloads).length) tail = .torn)
    (recovered : RecoveredLog) :
    recoverFrames json crc32c offset (frames crc32c payloads ++ tail) recovered =
      .ok (records.foldl applyLogRecord recovered,
        offset + (frames crc32c payloads).length) := by
  induction encoded generalizing offset recovered with
  | nil =>
    rw [frames_nil, nil_append, recoverFrames]
    split
    · rfl
    rename_i nonempty
    have torn_head : readHead crc32c offset tail = .torn := torn.resolve_left nonempty
    rw [torn_head]
    rfl
  | @cons record payload records payloads first rest ih =>
    rw [frames_cons, length_append] at bounded torn
    have frame_bound : offset + (frame crc32c payload).length < 2 ^ 64 := by omega
    have size := length_frame crc32c payload
    have nonempty : frame crc32c payload ++
        (frames crc32c payloads ++ tail) ≠ [] := by
      intro empty
      have length := congrArg length empty
      simp [headerLength] at length
    have offset_eq : offset + headerLength + payload.length =
        offset + (frame crc32c payload).length := by omega
    rw [frames_cons, append_assoc, recoverFrames, if_neg nonempty,
      readHead_frame crc32c _ frame_bound]
    simp only [json.decode_encode record payload first, offset_eq]
    rw [ih (by omega) (by rwa [Nat.add_assoc]), foldl_cons, length_append, Nat.add_assoc]

theorem recoverLogRecords_take (encoded : Encoded json records payloads) (cut : Nat)
    (bounded : (frames crc32c payloads).length < 2 ^ 64) :
    let kept := complete crc32c payloads cut
    recoverLogRecords json crc32c ((frames crc32c payloads).take cut) =
      .ok (replayRecords (records.take kept), frames crc32c (payloads.take kept)) := by
  intro kept
  have kept_encoded : Encoded json (records.take kept) (payloads.take kept) :=
    forall₂_take kept encoded
  have kept_bound := length_frames_take_le crc32c payloads kept
  have torn := readHead_tornTail crc32c cut bounded
  rw [take_frames, recoverLogRecords,
    recoverFrames_frames kept_encoded (by omega) (by rwa [Nat.zero_add]), Nat.zero_add]
  simp [Except.map, replayRecords, kept]

theorem recoverLogRecords_frames (encoded : Encoded json records payloads)
    (bounded : (frames crc32c payloads).length < 2 ^ 64) :
    recoverLogRecords json crc32c (frames crc32c payloads) =
      .ok (replayRecords records, frames crc32c payloads) := by
  have replayed : recoverFrames json crc32c 0 (frames crc32c payloads ++ []) {} = _ :=
    recoverFrames_frames encoded (by omega) (.inl rfl) {}
  rw [append_nil, Nat.zero_add] at replayed
  rw [recoverLogRecords, replayed]
  simp [Except.map, replayRecords]

end Files

/-- The files of a log store. -/
structure LogDisk where
  image : Option Bytes := none
  entries : Bytes := []
  deriving DecidableEq

/-- An open store: the state that it shows and its files. -/
structure PersistentLogStore where
  state : LogStateData := {}
  disk : LogDisk := {}
  deriving DecidableEq

/-- A change of the log store. -/
inductive LogOperation where
  | append (entries : List Entry)
  | truncate (logId : LogId)
  | purge (logId : LogId)
  | saveVote (vote : Vote)
  | saveCommitted (committed : Option LogId)
  deriving DecidableEq

section Store

variable (json : Json LogRecord) (image : Json LogData) (crc32c : Bytes → UInt32)

/-- Read the metadata image; a missing file is the empty one. -/
def readImage : Option Bytes → Except LogReadError LogData
  | none => .ok {}
  | some bytes =>
    match image.decode bytes with
    | none => .error .undecodable
    | some data => .ok data

/-- State shown after opening: a purge boundary of the frames overrides the one of the image. -/
def mergeImage (metadata : LogData) (recovered : RecoveredLog) : LogStateData :=
  { metadata :=
      if recovered.lastPurged.isSome then
        { metadata with lastPurged := recovered.lastPurged }
      else metadata
    entries := recovered.entries }

namespace PersistentLogStore

/-- Open a log from its image and its frames. -/
def openStore (disk : LogDisk) : Except LogReadError PersistentLogStore :=
  match readImage image disk.image with
  | .error error => .error error
  | .ok metadata =>
    match recoverLogRecords json crc32c disk.entries with
    | .error error => .error error
    | .ok (recovered, entries) =>
      .ok ⟨mergeImage metadata recovered, { disk with entries }⟩

/-- Write one frame behind the file; a record that cannot be serialized is refused. -/
def writeLogFrame (disk : LogDisk) (record : LogRecord) : Option LogDisk :=
  (json.encode record).map fun payload =>
    { disk with entries := disk.entries ++ frame crc32c payload }

def writeImage (disk : LogDisk) (metadata : LogData) : Option LogDisk :=
  (image.encode metadata).map fun bytes => { disk with image := some bytes }

/-- Write the image, then the state in memory. -/
def saveMetadata (store : PersistentLogStore) (metadata : LogData) :
    Option PersistentLogStore :=
  (writeImage image store.disk metadata).map fun disk =>
    ⟨{ store.state with metadata }, disk⟩

def saveCommitted (store : PersistentLogStore) (committed : Option LogId) :
    Option PersistentLogStore :=
  store.saveMetadata image { store.state.metadata with committed }

def saveVote (store : PersistentLogStore) (vote : Vote) : Option PersistentLogStore :=
  store.saveMetadata image { store.state.metadata with vote := some vote }

/-- Write a frame, then insert the entries. -/
def append (store : PersistentLogStore) (entries : List Entry) : Option PersistentLogStore :=
  (writeLogFrame json crc32c store.disk (.append entries)).map fun disk =>
    ⟨{ store.state with entries := insertEntries store.state.entries entries }, disk⟩

/-- Write a frame, then drop the entries from an index on. -/
def truncate (store : PersistentLogStore) (logId : LogId) : Option PersistentLogStore :=
  (writeLogFrame json crc32c store.disk (.truncate logId.index)).map fun disk =>
    ⟨{ store.state with entries := truncateEntries store.state.entries logId.index }, disk⟩

/-- Write a frame, then drop the entries up to an index. -/
def purge (store : PersistentLogStore) (logId : LogId) : Option PersistentLogStore :=
  (writeLogFrame json crc32c store.disk (.purge logId)).map fun disk =>
    ⟨{ metadata := { store.state.metadata with lastPurged := some logId }
       entries := purgeEntries store.state.entries logId }, disk⟩

/-- An acknowledged operation; `none` when it is not acknowledged. -/
def acknowledge (store : PersistentLogStore) : LogOperation → Option PersistentLogStore
  | .append entries => store.append json crc32c entries
  | .truncate logId => store.truncate json crc32c logId
  | .purge logId => store.purge json crc32c logId
  | .saveVote vote => store.saveVote image vote
  | .saveCommitted committed => store.saveCommitted image committed

end PersistentLogStore

/-- What has been acknowledged: the journal records in order, the vote and the committed
position. -/
structure LogHistory where
  records : List LogRecord := []
  vote : Option Vote := none
  committed : Option LogId := none

/-- What a history holds once an operation is acknowledged. -/
def LogHistory.acknowledge (history : LogHistory) : LogOperation → LogHistory
  | .append entries => { history with records := history.records ++ [.append entries] }
  | .truncate logId => { history with records := history.records ++ [.truncate logId.index] }
  | .purge logId => { history with records := history.records ++ [.purge logId] }
  | .saveVote vote => { history with vote := some vote }
  | .saveCommitted committed => { history with committed }

/-- Files after a crash: the frames of unacknowledged records follow the acknowledged ones, and the
entries file ends at an arbitrary byte. -/
def crashDisk (disk : LogDisk) (inflight : List Bytes) (cut : Nat) : LogDisk :=
  { disk with entries := (disk.entries ++ frames crc32c inflight).take cut }

/-- Number of unacknowledged records whose frames a crash left complete. -/
def keptFrames (disk : LogDisk) (inflight : List Bytes) (cut : Nat) : Nat :=
  complete crc32c inflight (cut - disk.entries.length)

/-- Stores reached by acknowledged operations, and by crashes with a successful reopening.  The
records that a crash left complete join the history. -/
inductive LogReached : LogHistory → PersistentLogStore → Prop
  | create : LogReached {} {}
  | acknowledge {history : LogHistory} {store after : PersistentLogStore}
      (operation : LogOperation) (reached : LogReached history store)
      (acknowledged : store.acknowledge json image crc32c operation = some after) :
      LogReached (history.acknowledge operation) after
  | reopen {history : LogHistory} {store after : PersistentLogStore}
      {inflight : List LogRecord} {payloads : List Bytes} {cut : Nat}
      (reached : LogReached history store) (encoded : Encoded json inflight payloads)
      (bounded : (store.disk.entries ++ frames crc32c payloads).length < 2 ^ 64)
      (covers : store.disk.entries.length ≤ cut)
      (opened : PersistentLogStore.openStore json image crc32c
        (crashDisk crc32c store.disk payloads cut) = .ok after) :
      LogReached
        { history with
          records := history.records ++
            inflight.take (keptFrames crc32c store.disk payloads cut) } after

/-- How an open store relates to what has been acknowledged. -/
structure LogGrounded (history : LogHistory) (store : PersistentLogStore) : Prop where
  /-- The entries file holds exactly the acknowledged records. -/
  frames : ∃ payloads, Encoded json history.records payloads ∧
    store.disk.entries = frames crc32c payloads
  entries_eq : store.state.entries = (replayRecords history.records).entries
  lastPurged_eq :
    store.state.metadata.lastPurged = (replayRecords history.records).lastPurged
  vote_eq : store.state.metadata.vote = history.vote
  committed_eq : store.state.metadata.committed = history.committed
  /-- The image holds the acknowledged vote and position, and no boundary that the frames lack. -/
  image_ok : ∃ data, readImage image store.disk.image = .ok data ∧ data.vote = history.vote ∧
    data.committed = history.committed ∧
    ((replayRecords history.records).lastPurged = none → data.lastPurged = none)

variable {json image crc32c}

variable {metadata : LogData} {recovered : RecoveredLog} {record : LogRecord}
  {records later : List LogRecord} {after : PersistentLogStore}

theorem mergeImage_metadata (older : recovered.lastPurged = none → metadata.lastPurged = none) :
    (mergeImage metadata recovered).metadata =
      { metadata with lastPurged := recovered.lastPurged } := by
  simp only [mergeImage]
  split
  · rfl
  · rename_i missing
    have none_eq : recovered.lastPurged = none := by simpa using missing
    rw [none_eq, ← older none_eq]

theorem replayRecords_concat (records : List LogRecord) (record : LogRecord) :
    replayRecords (records ++ [record]) = applyLogRecord (replayRecords records) record := by
  simp [replayRecords]

theorem lastPurged_eq_none_of_apply
    (missing : (applyLogRecord recovered record).lastPurged = none) :
    recovered.lastPurged = none := by
  cases record with
  | append entries | truncate since => exact missing
  | purge logId => cases missing

theorem lastPurged_eq_none_of_append
    (missing : (replayRecords (records ++ later)).lastPurged = none) :
    (replayRecords records).lastPurged = none := by
  induction later using reverseRecOn with
  | nil => simpa using missing
  | append_singleton later record ih =>
    rw [← append_assoc, replayRecords_concat] at missing
    exact ih (lastPurged_eq_none_of_apply missing)

theorem lastPurged_append_of_forall (kept : ∀ logId, .purge logId ∉ later) :
    (replayRecords (records ++ later)).lastPurged = (replayRecords records).lastPurged := by
  induction later using reverseRecOn with
  | nil => simp
  | append_singleton later record ih =>
    have before := ih fun logId member => kept logId (mem_append_left _ member)
    rw [← append_assoc, replayRecords_concat]
    cases record with
    | append entries | truncate since => exact before
    | purge logId => exact absurd (mem_append_right later mem_cons_self) (kept logId)

variable {history : LogHistory} {store : PersistentLogStore}

section Grounded

variable (grounded : LogGrounded json image crc32c history store)

include grounded

/-- A frame behind the file, with the matching change of the shown state, keeps the store
grounded. -/
theorem LogGrounded.journal {disk : LogDisk}
    (written : PersistentLogStore.writeLogFrame json crc32c store.disk record = some disk)
    {state : LogStateData}
    (applied : (⟨state.entries, state.metadata.lastPurged⟩ : RecoveredLog) =
      applyLogRecord ⟨store.state.entries, store.state.metadata.lastPurged⟩ record)
    (vote_eq : state.metadata.vote = store.state.metadata.vote)
    (committed_eq : state.metadata.committed = store.state.metadata.committed) :
    LogGrounded json image crc32c { history with records := history.records ++ [record] }
      ⟨state, disk⟩ := by
  obtain ⟨payload, encoded, rfl⟩ := Option.map_eq_some_iff.mp written
  obtain ⟨payloads, records_encoded, file_eq⟩ := grounded.frames
  obtain ⟨data, read, data_vote, data_committed, data_purged⟩ := grounded.image_ok
  rw [grounded.entries_eq, grounded.lastPurged_eq] at applied
  have replayed : (⟨state.entries, state.metadata.lastPurged⟩ : RecoveredLog) =
      replayRecords (history.records ++ [record]) := by
    rw [replayRecords_concat]
    exact applied
  exact
    { frames := by
        refine ⟨payloads ++ [payload], ?_, ?_⟩
        · exact rel_append records_encoded (.cons encoded .nil)
        · simp [file_eq]
      entries_eq := congrArg RecoveredLog.entries replayed
      lastPurged_eq := congrArg RecoveredLog.lastPurged replayed
      vote_eq := vote_eq.trans grounded.vote_eq
      committed_eq := committed_eq.trans grounded.committed_eq
      image_ok := ⟨data, read, data_vote, data_committed, fun missing =>
        data_purged (lastPurged_eq_none_of_append missing)⟩ }

theorem LogGrounded.save (saved : store.saveMetadata image metadata = some after)
    (lastPurged_eq : metadata.lastPurged = store.state.metadata.lastPurged) :
    LogGrounded json image crc32c
      { history with vote := metadata.vote, committed := metadata.committed } after := by
  obtain ⟨disk, written, rfl⟩ := Option.map_eq_some_iff.mp saved
  obtain ⟨bytes, encoded, rfl⟩ := Option.map_eq_some_iff.mp written
  exact
    { frames := grounded.frames
      entries_eq := grounded.entries_eq
      lastPurged_eq := lastPurged_eq.trans grounded.lastPurged_eq
      vote_eq := rfl
      committed_eq := rfl
      image_ok := by
        refine ⟨metadata, ?_, rfl, rfl, ?_⟩
        · simp [readImage, image.decode_encode metadata bytes encoded]
        · intro missing
          rw [lastPurged_eq, grounded.lastPurged_eq]
          exact missing }

theorem LogGrounded.acknowledge {operation : LogOperation}
    (acknowledged : store.acknowledge json image crc32c operation = some after) :
    LogGrounded json image crc32c (history.acknowledge operation) after := by
  cases operation with
  | append entries | truncate logId | purge logId =>
    obtain ⟨disk, written, rfl⟩ := Option.map_eq_some_iff.mp acknowledged
    exact grounded.journal written rfl rfl rfl
  | saveVote vote =>
    have saved := grounded.save acknowledged rfl
    simp only [grounded.committed_eq] at saved
    exact saved
  | saveCommitted committed =>
    have saved := grounded.save acknowledged rfl
    simp only [grounded.vote_eq] at saved
    exact saved

/-- Opening a crashed store succeeds: it shows the replay of the complete frames and leaves exactly
those in the file. -/
theorem LogGrounded.open_crash {inflight : List LogRecord} {payloads : List Bytes}
    (encoded : Encoded json inflight payloads)
    (bounded : (store.disk.entries ++ Framing.frames crc32c payloads).length < 2 ^ 64) {cut : Nat}
    (covers : store.disk.entries.length ≤ cut) :
    let kept := keptFrames crc32c store.disk payloads cut
    ∃ after, PersistentLogStore.openStore json image crc32c
        (crashDisk crc32c store.disk payloads cut) = .ok after ∧
      LogGrounded json image crc32c
        { history with records := history.records ++ inflight.take kept } after ∧
      after.disk =
        { store.disk with
          entries := store.disk.entries ++ Framing.frames crc32c (payloads.take kept) } := by
  intro kept
  obtain ⟨acknowledged, records_encoded, file_eq⟩ := grounded.frames
  obtain ⟨data, read, data_vote, data_committed, data_purged⟩ := grounded.image_ok
  have all_encoded : Encoded json (history.records ++ inflight) (acknowledged ++ payloads) :=
    rel_append records_encoded encoded
  have same_length : acknowledged.length = history.records.length := records_encoded.length_eq.symm
  have complete_eq : complete crc32c (acknowledged ++ payloads) cut =
      acknowledged.length + kept := by
    rw [complete_append crc32c payloads (file_eq ▸ covers), ← file_eq]
    rfl
  have recovered := recoverLogRecords_take all_encoded cut
    (by rwa [Framing.frames_append, ← file_eq])
  simp only [complete_eq] at recovered
  rw [frames_append, ← file_eq, take_length_add_append, same_length,
    take_length_add_append, frames_append, ← file_eq] at recovered
  generalize replay_eq : replayRecords (history.records ++ inflight.take kept) = replayed
    at recovered
  have purged_of_none (missing : replayed.lastPurged = none) : data.lastPurged = none := by
    rw [← replay_eq] at missing
    exact data_purged (lastPurged_eq_none_of_append missing)
  have metadata_eq := mergeImage_metadata purged_of_none
  refine ⟨⟨mergeImage data replayed, _⟩, ?_, ?_, rfl⟩
  · rw [PersistentLogStore.openStore, crashDisk]
    simp only [read, recovered]
  · exact
      { frames := by
          refine ⟨acknowledged ++ payloads.take kept, ?_, by simp [file_eq]⟩
          exact rel_append records_encoded (forall₂_take kept encoded)
        entries_eq := by
          rw [replay_eq]
          rfl
        lastPurged_eq := by rw [metadata_eq, replay_eq]
        vote_eq := by
          rw [metadata_eq]
          exact data_vote
        committed_eq := by
          rw [metadata_eq]
          exact data_committed
        image_ok := by
          refine ⟨data, read, data_vote, data_committed, fun missing => purged_of_none ?_⟩
          rwa [replay_eq] at missing }

theorem LogGrounded.openStore_disk (bounded : store.disk.entries.length < 2 ^ 64) :
    PersistentLogStore.openStore json image crc32c store.disk = .ok store := by
  obtain ⟨payloads, encoded, file_eq⟩ := grounded.frames
  obtain ⟨data, read, data_vote, data_committed, data_purged⟩ := grounded.image_ok
  have recovered := recoverLogRecords_frames encoded (by rwa [← file_eq])
  rw [← file_eq] at recovered
  have metadata_eq := mergeImage_metadata data_purged
  have shown : mergeImage data (replayRecords history.records) = store.state := by
    refine LogStateData.ext ?_ grounded.entries_eq.symm
    rw [metadata_eq]
    exact LogData.ext grounded.lastPurged_eq.symm
      (data_committed.trans grounded.committed_eq.symm) (data_vote.trans grounded.vote_eq.symm)
  rw [PersistentLogStore.openStore]
  simp only [read, recovered, shown]

end Grounded

theorem LogReached.grounded (reached : LogReached json image crc32c history store) :
    LogGrounded json image crc32c history store := by
  induction reached with
  | create =>
    exact
      { frames := ⟨[], .nil, rfl⟩
        entries_eq := rfl
        lastPurged_eq := rfl
        vote_eq := rfl
        committed_eq := rfl
        image_ok := ⟨{}, rfl, rfl, rfl, fun _ => rfl⟩ }
  | acknowledge operation _ acknowledged ih => exact ih.acknowledge acknowledged
  | reopen _ encoded bounded covers opened ih =>
    obtain ⟨after, reopened, grounded, _⟩ := ih.open_crash encoded bounded covers
    rw [opened] at reopened
    cases reopened
    exact grounded

/-- Whatever byte a crash cuts the entries file at, at or after the last acknowledged frame,
opening the store replays exactly the complete frames, keeps exactly those in the file, shows the
acknowledged vote and committed position, and opens to the same state again.  The purge boundary is
the one of the last complete purge frame: the acknowledged one unless a purge was in flight and its
frame is complete. -/
theorem reopen_replays_complete_frames (json : Json LogRecord) (image : Json LogData)
    (crc32c : Bytes → UInt32) (history : LogHistory) (store : PersistentLogStore)
    (reached : LogReached json image crc32c history store) (inflight : List LogRecord)
    (payloads : List Bytes) (encoded : Encoded json inflight payloads) (cut : Nat)
    (bounded : (store.disk.entries ++ frames crc32c payloads).length < 2 ^ 64)
    (covers : store.disk.entries.length ≤ cut) :
    let count := keptFrames crc32c store.disk payloads cut
    let records := history.records ++ inflight.take count
    ∃ after,
      PersistentLogStore.openStore json image crc32c
          (crashDisk crc32c store.disk payloads cut) = .ok after ∧
        after.state.entries = (replayRecords records).entries ∧
        after.state.metadata.lastPurged = (replayRecords records).lastPurged ∧
        ((∀ logId, .purge logId ∉ inflight.take count) →
          after.state.metadata.lastPurged = store.state.metadata.lastPurged) ∧
        after.state.metadata.vote = history.vote ∧
        after.state.metadata.committed = history.committed ∧
        after.disk.entries =
          store.disk.entries ++ frames crc32c (payloads.take count) ∧
        PersistentLogStore.openStore json image crc32c after.disk = .ok after := by
  intro count records
  have grounded := reached.grounded
  obtain ⟨after, opened, after_grounded, disk_eq⟩ := grounded.open_crash encoded bounded covers
  have file_eq : after.disk.entries =
      store.disk.entries ++ Framing.frames crc32c (payloads.take count) := by
    rw [disk_eq]
  refine ⟨after, opened, after_grounded.entries_eq, after_grounded.lastPurged_eq, ?_,
    after_grounded.vote_eq, after_grounded.committed_eq, file_eq, ?_⟩
  · intro no_purge
    rw [after_grounded.lastPurged_eq, grounded.lastPurged_eq]
    exact lastPurged_append_of_forall no_purge
  · have shorter := length_frames_take_le crc32c payloads count
    refine after_grounded.openStore_disk ?_
    rw [file_eq]
    simp only [length_append] at bounded ⊢
    omega

end Store

/-- A purge that is in flight. -/
def flightPurge : LogRecord := .purge ⟨1, 2⟩

def flightPayload : Bytes :=
  asBytes ("\x7b\"Purge\":\x7b\"log_id\":\x7b\"leader_id\":\x7b\"term\":1,\"node_id\":1\x7d," ++
    "\"index\":2\x7d\x7d\x7d")

/-- A codec that knows this record alone. -/
def flightJson : Json LogRecord where
  encode record := if record = flightPurge then some flightPayload else none
  decode bytes := if bytes = flightPayload then some flightPurge else none
  decode_encode := by
    intro record bytes encoded
    split at encoded
    · rename_i record_eq
      cases encoded
      rw [if_pos rfl, record_eq]
    · cases encoded

/-- No metadata image is read or written. -/
def unusedImage : Json LogData where
  encode _ := none
  decode _ := none
  decode_encode := by
    intro metadata bytes encoded
    cases encoded

def flightCrc32c (_ : Bytes) : UInt32 := 0xb45958ec

theorem flight_encoded : Encoded flightJson [flightPurge] [flightPayload] :=
  .cons (by simp [flightJson]) .nil

theorem length_flightPayload : flightPayload.length = 67 := by decide +kernel

theorem keptFrames_flight : keptFrames flightCrc32c {} [flightPayload] 79 = 1 := by
  simp [keptFrames, complete, headerLength, length_flightPayload]

/-- A purge that was written but not acknowledged moves the recovered boundary. -/
theorem unacknowledged_purge_recovered :
    LogReached flightJson unusedImage flightCrc32c {} {} ∧
      ({} : PersistentLogStore).state.metadata.lastPurged = none ∧
      ∃ after,
        PersistentLogStore.openStore flightJson unusedImage flightCrc32c
            (crashDisk flightCrc32c {} [flightPayload] 79) = .ok after ∧
          after.state.metadata.lastPurged = some ⟨1, 2⟩ := by
  have grounded : LogGrounded flightJson unusedImage flightCrc32c {} {} :=
    LogReached.create.grounded
  obtain ⟨after, opened, recovered, _⟩ := grounded.open_crash flight_encoded
    (by simp [Framing.headerLength, length_flightPayload]) (Nat.zero_le 79)
  have boundary := recovered.lastPurged_eq
  exact ⟨.create, rfl, after, opened, boundary⟩

/-- Two purges were in flight and the crash cuts the second frame: the first one is recovered, and
the file holds its frame alone. -/
theorem reopen_replays_complete_frames_torn :
    ∃ after,
      PersistentLogStore.openStore flightJson unusedImage flightCrc32c
          (crashDisk flightCrc32c {} [flightPayload, flightPayload] 99) = .ok after ∧
        after.state.metadata.lastPurged = some ⟨1, 2⟩ ∧
        after.disk.entries = frames flightCrc32c [flightPayload] := by
  have count : keptFrames flightCrc32c {} [flightPayload, flightPayload] 99 = 1 := by
    simp [keptFrames, complete, headerLength, length_flightPayload]
  have encoded : Encoded flightJson [flightPurge, flightPurge] [flightPayload, flightPayload] :=
    .cons (by simp [flightJson]) flight_encoded
  obtain ⟨after, opened, _, boundary, _, _, _, file_eq, _⟩ :=
    reopen_replays_complete_frames flightJson unusedImage flightCrc32c {} {} .create _ _ encoded 99
      (by simp [headerLength, length_flightPayload]) (Nat.zero_le 99)
  exact ⟨after, opened, boundary, file_eq⟩

end Verglas.Consensus
