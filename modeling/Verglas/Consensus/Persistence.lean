import Verglas.Consensus.LogStore

/-!
# Group commit of the log frames

One actor writes the frames of a replica's log.  It drains its queue in batches, writes every frame
of a batch in turn, and syncs the file once for the whole batch.  A write that fails may leave any
part of its frame behind, and the frames after it are still written and acknowledged.
-/

namespace Verglas.Consensus

open List Framing

/-- What becomes of one frame write: it succeeds, or it fails after some of its bytes. -/
inductive WriteFate where
  | completed
  | failed (size : Nat)
  deriving DecidableEq, Repr

/-- Requests drained together, and the outcome of the sync that covers them. -/
structure FrameBatch where
  requests : List (LogRecord × WriteFate)
  synced : Bool

/-- One frame write with the sync outcome of its batch. -/
structure FrameWrite where
  record : LogRecord
  fate : WriteFate
  synced : Bool

/-- A record takes the entry at an index out of the log. -/
def LogRecord.Removes (record : LogRecord) (index : Nat) : Prop :=
  match record with
  | .append _ => False
  | .truncate since => since ≤ index
  | .purge logId => index ≤ logId.index

/-- A record that takes entries out of the log. -/
def LogRecord.isRemoval : LogRecord → Bool
  | .append _ => false
  | .truncate _ | .purge _ => true

section Actor

variable (json : Json LogRecord) (crc32c : Bytes → UInt32)

/-- Write one framed record without syncing it. -/
def tryLogFrame (file : Bytes) (record : LogRecord) (fate : WriteFate) : Bytes × Bool :=
  match json.encode record with
  | none => (file, false)
  | some payload =>
    match fate with
    | .completed => (file ++ frame crc32c payload, true)
    | .failed size => (file ++ (frame crc32c payload).take size, false)

/-- Run the writes of one batch in order, with the outcome of each. -/
def runOperations : Bytes → List (LogRecord × WriteFate) → Bytes × List (LogRecord × Bool)
  | file, [] => (file, [])
  | file, (record, fate) :: rest =>
    let written := tryLogFrame json crc32c file record fate
    let later := runOperations written.1 rest
    (later.1, (record, written.2) :: later.2)

/-- Run one drained batch.  The file is synced when some write succeeded, and a failed sync fails
every request that wrote. -/
def runBatch (file : Bytes) (batch : FrameBatch) : Bytes × List (LogRecord × Bool) :=
  let written := runOperations json crc32c file batch.requests
  let syncFailed := written.2.any (·.2) && !batch.synced
  (written.1, written.2.map fun (record, outcome) => (record, outcome && !syncFailed))

/-- Run the actor over its batches; the second component says which records were acknowledged. -/
def runActor : Bytes → List FrameBatch → Bytes × List (LogRecord × Bool)
  | file, [] => (file, [])
  | file, batch :: rest =>
    let drained := runBatch json crc32c file batch
    let later := runActor drained.1 rest
    (later.1, drained.2 ++ later.2)

def FrameBatch.writes (batch : FrameBatch) : List FrameWrite :=
  batch.requests.map fun (record, fate) => ⟨record, fate, batch.synced⟩

/-- The writes of several batches. -/
def frameWrites (batches : List FrameBatch) : List FrameWrite :=
  batches.flatMap FrameBatch.writes

namespace FrameWrite

/-- Bytes that a write adds to the file. -/
def bytes (write : FrameWrite) : Bytes :=
  match json.encode write.record with
  | none => []
  | some payload =>
    match write.fate with
    | .completed => frame crc32c payload
    | .failed size => (frame crc32c payload).take size

/-- The whole frame is in the file, whether or not the write reported success. -/
def lands (write : FrameWrite) : Bool :=
  match json.encode write.record with
  | none => false
  | some payload =>
    match write.fate with
    | .completed => true
    | .failed size => decide ((frame crc32c payload).length ≤ size)

/-- The write is answered with success. -/
def acknowledged (write : FrameWrite) : Bool :=
  (json.encode write.record).isSome && decide (write.fate = .completed) && write.synced

/-- The write left a proper part of its frame in the file. -/
def Torn (write : FrameWrite) : Prop :=
  write.bytes json crc32c ≠ [] ∧ write.lands json crc32c = false

end FrameWrite

/-- Records whose frames are complete in the file. -/
def landedRecords (writes : List FrameWrite) : List LogRecord :=
  (writes.filter fun write => write.lands json crc32c).map FrameWrite.record

/-- The payloads of the records that encode. -/
def attemptedPayloads (writes : List FrameWrite) : List Bytes :=
  writes.filterMap fun write => json.encode write.record

variable {json crc32c}

theorem tryLogFrame_eq (file : Bytes) (record : LogRecord) (fate : WriteFate) (synced : Bool) :
    tryLogFrame json crc32c file record fate =
      (file ++ FrameWrite.bytes json crc32c ⟨record, fate, synced⟩,
        (json.encode record).isSome && decide (fate = .completed)) := by
  rw [tryLogFrame, FrameWrite.bytes]
  cases json.encode record with
  | none => simp
  | some payload =>
    cases fate with
    | completed | failed size => simp

theorem runOperations_eq (file : Bytes) (requests : List (LogRecord × WriteFate))
    (synced : Bool) :
    runOperations json crc32c file requests =
      (file ++ (FrameBatch.writes ⟨requests, synced⟩).flatMap (FrameWrite.bytes json crc32c),
        requests.map fun (record, fate) =>
          (record, (json.encode record).isSome && decide (fate = .completed))) := by
  induction requests generalizing file with
  | nil => simp [runOperations, FrameBatch.writes]
  | cons request rest ih =>
    rw [runOperations, tryLogFrame_eq file _ _ synced, ih]
    simp [FrameBatch.writes]

/-- A batch adds the bytes of its writes, and acknowledges those that succeeded and were synced. -/
theorem runBatch_eq (file : Bytes) (batch : FrameBatch) :
    runBatch json crc32c file batch =
      (file ++ batch.writes.flatMap (FrameWrite.bytes json crc32c),
        batch.writes.map fun write => (write.record, write.acknowledged json)) := by
  rw [runBatch, runOperations_eq file batch.requests batch.synced]
  refine Prod.ext rfl ?_
  simp only [FrameBatch.writes, map_map]
  refine map_congr_left fun request member => ?_
  obtain ⟨record, fate⟩ := request
  simp only [Function.comp_apply, FrameWrite.acknowledged, Prod.mk.injEq, true_and]
  cases outcome : (json.encode record).isSome && decide (fate = .completed) with
  | false => simp
  | true =>
    -- This write succeeded, so the batch is synced and its outcome decides.
    have some_written : (batch.requests.map fun (record, fate) =>
        (record, (json.encode record).isSome && decide (fate = WriteFate.completed))).any
          (·.2) = true :=
      any_eq_true.mpr ⟨_, mem_map_of_mem member, outcome⟩
    rw [some_written]
    simp

theorem runActor_eq (file : Bytes) (batches : List FrameBatch) :
    runActor json crc32c file batches =
      (file ++ (frameWrites batches).flatMap (FrameWrite.bytes json crc32c),
        (frameWrites batches).map fun write => (write.record, write.acknowledged json)) := by
  induction batches generalizing file with
  | nil => simp [runActor, frameWrites]
  | cons batch rest ih =>
    rw [runActor, runBatch_eq, ih]
    simp [frameWrites]

variable (json crc32c) in
/-- What a write does to the file: nothing, a proper part of its frame, or the whole frame. -/
theorem FrameWrite.bytes_cases (write : FrameWrite) :
    (write.lands json crc32c = false ∧ write.bytes json crc32c = []) ∨
      ∃ payload, json.encode write.record = some payload ∧
        ((write.lands json crc32c = true ∧
            write.bytes json crc32c = frame crc32c payload) ∨
          (write.Torn json crc32c ∧ ∃ size < (frame crc32c payload).length,
            write.bytes json crc32c = (frame crc32c payload).take size)) := by
  cases encoded : json.encode write.record with
  | none => exact .inl ⟨by simp [lands, encoded], by simp [bytes, encoded]⟩
  | some payload =>
    cases fate : write.fate with
    | completed =>
      exact .inr ⟨payload, rfl, .inl ⟨by simp [lands, encoded, fate],
        by simp [bytes, encoded, fate]⟩⟩
    | failed size =>
      have bytes_eq : write.bytes json crc32c = (frame crc32c payload).take size := by
        simp [bytes, encoded, fate]
      have lands_eq : write.lands json crc32c =
          decide ((frame crc32c payload).length ≤ size) := by
        simp only [lands, encoded, fate]
      by_cases whole : (frame crc32c payload).length ≤ size
      · refine .inr ⟨payload, rfl, .inl ⟨lands_eq.trans (decide_eq_true whole), ?_⟩⟩
        rw [bytes_eq, take_of_length_le whole]
      · have missing := lands_eq.trans (decide_eq_false whole)
        by_cases empty : write.bytes json crc32c = []
        · exact .inl ⟨missing, empty⟩
        · exact .inr ⟨payload, rfl, .inr ⟨⟨empty, missing⟩, size, by omega, bytes_eq⟩⟩

variable {write : FrameWrite}

theorem FrameWrite.lands_of_acknowledged (acknowledged : write.acknowledged json = true) :
    write.lands json crc32c = true := by
  simp only [FrameWrite.acknowledged, Bool.and_eq_true, decide_eq_true_eq] at acknowledged
  obtain ⟨payload, encoded⟩ := Option.isSome_iff_exists.mp acknowledged.1.1
  simp [lands, encoded, acknowledged.1.2]

@[simp] theorem landedRecords_concat (writes : List FrameWrite) (write : FrameWrite) :
    landedRecords json crc32c (writes ++ [write]) =
      landedRecords json crc32c writes ++
        if write.lands json crc32c then [write.record] else [] := by
  rw [landedRecords, filter_append, map_append]
  split <;> simp_all [landedRecords]

@[simp] theorem attemptedPayloads_concat (writes : List FrameWrite) (write : FrameWrite) :
    attemptedPayloads json (writes ++ [write]) =
      attemptedPayloads json writes ++ (json.encode write.record).toList := by
  rw [attemptedPayloads, filterMap_append]
  cases encoded : json.encode write.record <;> simp [attemptedPayloads, encoded]

variable (json crc32c) in
/-- A file of complete frames, with at most a part of one more behind them. -/
inductive FrameFile (records : List LogRecord) (room : Nat) : Bytes → Prop
  | whole {payloads : List Bytes} (encoded : Encoded json records payloads)
      (fits : (frames crc32c payloads).length ≤ room) :
      FrameFile records room (frames crc32c payloads)
  | torn {payloads : List Bytes} {payload : Bytes} {size : Nat}
      (encoded : Encoded json records payloads)
      (cut : size < (frame crc32c payload).length)
      (fits : (frames crc32c payloads).length + (frame crc32c payload).length ≤
        room) :
      FrameFile records room
        (frames crc32c payloads ++ (frame crc32c payload).take size)

variable {records : List LogRecord} {entries : List Entry} {entry : Entry} {file : Bytes}

theorem FrameFile.recover {room : Nat} (held : FrameFile json crc32c records room file)
    (bounded : room < 2 ^ 64) :
    ∃ kept, recoverLogRecords json crc32c file = .ok (replayRecords records, kept) := by
  cases held with
  | whole encoded fits => exact ⟨_, recoverLogRecords_frames encoded (by omega)⟩
  | @torn payloads payload size encoded cut fits =>
    have torn_head : readHead crc32c (0 + (frames crc32c payloads).length)
        ((frame crc32c payload).take size) = .torn := by
      rw [← append_nil (take _ _)]
      exact readHead_take_frame crc32c (by omega) (.inl rfl) cut
    rw [recoverLogRecords, recoverFrames_frames encoded (by omega) (.inr torn_head)]
    exact ⟨_, rfl⟩

theorem FrameFile.mono {room larger : Nat} (held : FrameFile json crc32c records room file)
    (le : room ≤ larger) : FrameFile json crc32c records larger file := by
  cases held with
  | whole encoded fits => exact .whole encoded (fits.trans le)
  | torn encoded cut fits => exact .torn encoded cut (fits.trans le)

variable {payloads : List Bytes}

theorem frames_of_untorn (encoded : Encoded json records payloads) (writes : List FrameWrite)
    (untorn : ∀ write ∈ writes, ¬ write.Torn json crc32c) :
    ∃ landed, Encoded json (records ++ landedRecords json crc32c writes) landed ∧
      frames crc32c payloads ++ writes.flatMap (FrameWrite.bytes json crc32c) =
        frames crc32c landed ∧
      (frames crc32c landed).length ≤
        (frames crc32c (payloads ++ attemptedPayloads json writes)).length := by
  induction writes using reverseRecOn with
  | nil =>
    refine ⟨payloads, ?_, ?_, ?_⟩ <;> simp [landedRecords, attemptedPayloads, encoded]
  | append_singleton writes write ih =>
    obtain ⟨landed, landed_encoded, file_eq, fits⟩ :=
      ih fun write member => untorn write (mem_append_left _ member)
    have kept := untorn write (by simp)
    rw [flatMap_append, ← append_assoc, file_eq, landedRecords_concat, attemptedPayloads_concat]
    rcases write.bytes_cases json crc32c with
      ⟨missing, empty⟩ | ⟨payload, payload_eq, ⟨lands, bytes_eq⟩ | ⟨torn, _⟩⟩
    · refine ⟨landed, ?_, ?_, ?_⟩
      · simpa [missing] using landed_encoded
      · simp [empty]
      · refine fits.trans ?_
        simp
    · refine ⟨landed ++ [payload], ?_, ?_, ?_⟩
      · rw [if_pos lands, ← append_assoc]
        exact rel_append landed_encoded (.cons payload_eq .nil)
      · simp [bytes_eq]
      · simp only [payload_eq, Option.toList_some, ← append_assoc, frames_append,
          length_append] at fits ⊢
        omega
    · exact absurd torn kept

/-- A run that writes nothing behind a torn frame leaves a readable file. -/
theorem frameFile_of_writes (encoded : Encoded json records payloads) (writes : List FrameWrite)
    (quiet : writes.Pairwise fun earlier later =>
      earlier.Torn json crc32c → later.bytes json crc32c = []) :
    FrameFile json crc32c (records ++ landedRecords json crc32c writes)
      (frames crc32c (payloads ++ attemptedPayloads json writes)).length
      (frames crc32c payloads ++ writes.flatMap (FrameWrite.bytes json crc32c)) := by
  induction writes using reverseRecOn with
  | nil =>
    simp only [landedRecords, attemptedPayloads, filter_nil, map_nil,
      filterMap_nil, flatMap_nil, append_nil]
    exact .whole encoded le_rfl
  | append_singleton writes write ih =>
    rw [pairwise_append] at quiet
    by_cases torn : ∃ earlier ∈ writes, earlier.Torn json crc32c
    · obtain ⟨earlier, member, torn⟩ := torn
      have empty := quiet.2.2 earlier member write (by simp) torn
      have missing : write.lands json crc32c = false := by
        rcases write.bytes_cases json crc32c with
          ⟨missing, _⟩ | ⟨payload, _, ⟨_, bytes_eq⟩ | ⟨torn, _⟩⟩
        · exact missing
        · have length := congrArg length (bytes_eq.symm.trans empty)
          simp [headerLength] at length
        · exact torn.2
      have same : (writes ++ [write]).flatMap (FrameWrite.bytes json crc32c) =
          writes.flatMap (FrameWrite.bytes json crc32c) := by simp [empty]
      rw [same, landedRecords_concat, missing, if_neg (by simp), append_nil]
      exact (ih quiet.1).mono (by simp)
    · have untorn : ∀ earlier ∈ writes, ¬ earlier.Torn json crc32c := by
        intro earlier member held
        exact torn ⟨earlier, member, held⟩
      by_cases last_torn : write.Torn json crc32c
      · obtain ⟨landed, landed_encoded, file_eq, fits⟩ := frames_of_untorn encoded writes untorn
        rcases write.bytes_cases json crc32c with
          ⟨_, empty⟩ | ⟨payload, payload_eq, ⟨lands, _⟩ | ⟨_, size, cut, bytes_eq⟩⟩
        · exact absurd empty last_torn.1
        · exact absurd lands (by simp [last_torn.2])
        · rw [flatMap_append, ← append_assoc, file_eq, landedRecords_concat,
            last_torn.2, if_neg (by simp), append_nil, flatMap_singleton, bytes_eq]
          refine .torn landed_encoded cut ?_
          simp only [attemptedPayloads_concat, payload_eq, Option.toList_some,
            ← append_assoc, frames_append, frames_cons,
            frames_nil, length_append, append_nil] at fits ⊢
          omega
      · have all_untorn : ∀ earlier ∈ writes ++ [write], ¬ earlier.Torn json crc32c :=
          forall_mem_append.mpr ⟨untorn, forall_mem_singleton.mpr last_torn⟩
        obtain ⟨landed, landed_encoded, file_eq, fits⟩ :=
          frames_of_untorn encoded (writes ++ [write]) all_untorn
        rw [file_eq]
        exact .whole landed_encoded fits

/-- The log shows an entry at its index. -/
def RecoveredLog.Shows (recovered : RecoveredLog) (entry : Entry) : Prop :=
  recovered.entries.get entry.logId.index = some entry

variable {log : OrderedMap Nat Entry}

theorem get_insertEntries_of_forall_ne {index : Nat}
    (other : ∀ entry ∈ entries, entry.logId.index ≠ index) :
    (insertEntries log entries).get index = log.get index := by
  induction entries generalizing log with
  | nil => rfl
  | cons first rest ih =>
    have step : insertEntries log (first :: rest) =
        insertEntries (log.insert first.logId.index first) rest := rfl
    rw [step, ih (forall_mem_cons.mp other).2]
    exact OrderedMap.get_insert_of_ne (other first mem_cons_self).symm

theorem get_insertEntries_of_mem (distinct : (entries.map fun entry => entry.logId.index).Nodup)
    (member : entry ∈ entries) :
    (insertEntries log entries).get entry.logId.index = some entry := by
  induction entries generalizing log with
  | nil => cases member
  | cons first rest ih =>
    rw [map_cons, nodup_cons] at distinct
    have step : insertEntries log (first :: rest) =
        insertEntries (log.insert first.logId.index first) rest := rfl
    rw [step]
    rcases mem_cons.mp member with rfl | later
    · rw [get_insertEntries_of_forall_ne, OrderedMap.get_insert_self]
      intro other other_member same
      exact distinct.1 (mem_map.mpr ⟨other, other_member, same⟩)
    · exact ih distinct.2 later

theorem RecoveredLog.Shows.apply {recovered : RecoveredLog} (shown : recovered.Shows entry)
    {record : LogRecord} (kept : ¬ record.Removes entry.logId.index)
    (apart : ∀ entries, record = .append entries →
      ∀ other ∈ entries, other.logId.index ≠ entry.logId.index) :
    (applyLogRecord recovered record).Shows entry := by
  cases record with
  | append entries => exact (get_insertEntries_of_forall_ne (apart entries rfl)).trans shown
  | truncate since =>
    refine OrderedMap.get_retain_eq_some_iff.mpr ⟨shown, ?_⟩
    simpa [LogRecord.Removes] using kept
  | purge logId =>
    refine OrderedMap.get_retain_eq_some_iff.mpr ⟨shown, ?_⟩
    simpa [LogRecord.Removes, Nat.succ_le_iff] using kept

variable (json crc32c) in
/-- Every append that lands is at indexes that the log does not hold, each of them once. -/
def FreshAppends (records : List LogRecord) (writes : List FrameWrite) : Prop :=
  ∀ front write back entries, writes = front ++ write :: back →
    write.lands json crc32c = true → write.record = .append entries →
    (entries.map fun entry => entry.logId.index).Nodup ∧
      ∀ entry ∈ entries,
        (replayRecords (records ++ landedRecords json crc32c front)).entries.get
          entry.logId.index = none

/-- An acknowledged append stays on show until an acknowledged record removes it. -/
theorem shows_after {front back : List FrameWrite}
    (fresh : FreshAppends json crc32c records (front ++ write :: back))
    (removals : ∀ later ∈ back, later.record.isRemoval = true →
      later.lands json crc32c = true → later.acknowledged json = true)
    (lands : write.lands json crc32c = true) (append_eq : write.record = .append entries)
    (member : entry ∈ entries) :
    (replayRecords (records ++ landedRecords json crc32c (front ++ write :: back))).Shows entry ∨
      ∃ later ∈ back, later.acknowledged json = true ∧
        later.record.Removes entry.logId.index := by
  induction back using reverseRecOn with
  | nil =>
    have distinct := (fresh front write [] entries rfl lands append_eq).1
    rw [landedRecords_concat, if_pos lands, ← append_assoc, replayRecords_concat, append_eq]
    exact .inl (get_insertEntries_of_mem distinct member)
  | append_singleton back last ih =>
    have split_eq : front ++ write :: (back ++ [last]) = (front ++ write :: back) ++ [last] := by
      simp
    rw [split_eq] at fresh ⊢
    have earlier := ih (fun front' write' back' entries' eq =>
        fresh front' write' (back' ++ [last]) entries' (by rw [eq]; simp))
      (fun later member => removals later (mem_append_left _ member))
    rcases earlier with shown | ⟨later, later_member, removed⟩
    · rw [landedRecords_concat]
      cases last_lands : last.lands json crc32c with
      | false => exact .inl (by simpa using shown)
      | true =>
        rw [if_pos rfl, ← append_assoc, replayRecords_concat]
        by_cases removes : last.record.Removes entry.logId.index
        · have removal : last.record.isRemoval = true := by
            cases record : last.record with
            | append entries => simp [record, LogRecord.Removes] at removes
            | truncate since | purge logId => rfl
          exact .inr ⟨last, by simp, removals last (by simp) removal last_lands, removes⟩
        · refine .inl (shown.apply removes ?_)
          intro entries' record_eq other other_member same
          have absent := (fresh _ last [] entries' rfl last_lands record_eq).2 other other_member
          rw [same] at absent
          exact absurd (shown.symm.trans absent) (by simp)
    · exact .inr ⟨later, mem_append_left _ later_member, removed⟩

/-- While nothing is written behind a torn frame, every truncation or purge whose frame lands is
acknowledged, and appends go to free indexes, recovery succeeds and finds every acknowledged append
that no later acknowledged truncation or purge removes. -/
theorem acknowledged_appends_survive (json : Json LogRecord) (crc32c : Bytes → UInt32)
    (records : List LogRecord) (payloads : List Bytes) (batches : List FrameBatch)
    (encoded : Encoded json records payloads)
    (bounded : (frames crc32c
      (payloads ++ attemptedPayloads json (frameWrites batches))).length < 2 ^ 64)
    (quiet : (frameWrites batches).Pairwise fun earlier later =>
      earlier.Torn json crc32c → later.bytes json crc32c = [])
    (removals : ∀ write ∈ frameWrites batches, write.record.isRemoval = true →
      write.lands json crc32c = true → write.acknowledged json = true)
    (fresh : FreshAppends json crc32c records (frameWrites batches)) :
    let run := runActor json crc32c (frames crc32c payloads) batches
    ∃ recovered kept,
      recoverLogRecords json crc32c run.1 = .ok (recovered, kept) ∧
        ∀ before after entries, run.2 = before ++ (.append entries, true) :: after →
          ∀ entry ∈ entries,
            recovered.entries.get entry.logId.index = some entry ∨
              ∃ record, (record, true) ∈ after ∧ record.Removes entry.logId.index := by
  intro run
  have run_eq : run = _ := runActor_eq (frames crc32c payloads) batches
  obtain ⟨kept, recovered⟩ := (frameFile_of_writes encoded _ quiet).recover bounded
  rw [run_eq]
  refine ⟨_, kept, recovered, ?_⟩
  intro before after entries acks_eq entry member
  obtain ⟨front, rest, writes_eq, -, rest_eq⟩ := map_eq_append_iff.mp acks_eq
  obtain ⟨write, back, rfl, ack_eq, rfl⟩ := map_eq_cons_iff.mp rest_eq
  obtain ⟨record_eq, acknowledged⟩ := Prod.mk.inj ack_eq
  rw [writes_eq] at fresh removals ⊢
  have shown := shows_after fresh (fun later member => removals later (by simp [member]))
    (FrameWrite.lands_of_acknowledged acknowledged) record_eq member
  rcases shown with shown | ⟨later, later_member, later_acknowledged, removes⟩
  · exact .inl shown
  · refine .inr ⟨later.record, mem_map.mpr ⟨later, later_member, ?_⟩, removes⟩
    rw [later_acknowledged]

end Actor

def blankEntry (index : Nat) : Entry := ⟨⟨1, index⟩, .blank⟩

def pairAppend : LogRecord := .append [blankEntry 1, blankEntry 2]

def nextAppend : LogRecord := .append [blankEntry 3]

/-- JSON of a blank entry, given the digits of its index. -/
def blankJson (digits : String) : String :=
  "\x7b\"log_id\":\x7b\"leader_id\":\x7b\"term\":1,\"node_id\":1\x7d,\"index\":" ++ digits ++
    "\x7d,\"payload\":\"Blank\"\x7d"

def pairPayload : Bytes :=
  asBytes ("\x7b\"Append\":[" ++ blankJson "1" ++ "," ++ blankJson "2" ++ "]\x7d")

def nextPayload : Bytes := asBytes ("\x7b\"Append\":[" ++ blankJson "3" ++ "]\x7d")

theorem length_pairPayload : pairPayload.length = 164 := by decide +kernel

theorem length_nextPayload : nextPayload.length = 88 := by decide +kernel

def appendJson : Json LogRecord where
  encode record :=
    if record = pairAppend then some pairPayload
    else if record = nextAppend then some nextPayload else none
  decode bytes :=
    if bytes = pairPayload then some pairAppend
    else if bytes = nextPayload then some nextAppend else none
  decode_encode := by
    intro record bytes encoded
    split at encoded
    · rename_i record_eq
      cases encoded
      rw [if_pos rfl, record_eq]
    · split at encoded
      · rename_i record_eq
        cases encoded
        have apart : nextPayload ≠ pairPayload := by
          intro same
          have length := congrArg List.length same
          rw [length_pairPayload, length_nextPayload] at length
          omega
        rw [if_neg apart, if_pos rfl, record_eq]
      · cases encoded

def appendCrc32c (bytes : Bytes) : UInt32 :=
  if bytes = pairPayload then 0xa165a8c4 else 0xd5ef5584

theorem encode_pairAppend : appendJson.encode pairAppend = some pairPayload := by
  simp [appendJson]

theorem encode_nextAppend : appendJson.encode nextAppend = some nextPayload := by
  have apart : nextAppend ≠ pairAppend := by decide
  simp [appendJson, apart]

/-- The write of the pair fails behind its header; the next append, drained in the same batch, is
written and synced. -/
def tornBatch : FrameBatch := ⟨[(pairAppend, .failed 12), (nextAppend, .completed)], true⟩

/-- The next append is acknowledged, and recovery takes its frame for the body of the torn one. -/
theorem frame_after_torn_write_lost :
    (runActor appendJson appendCrc32c [] [tornBatch]).2 =
        [(pairAppend, false), (nextAppend, true)] ∧
      recoverLogRecords appendJson appendCrc32c
          (runActor appendJson appendCrc32c [] [tornBatch]).1 = .ok ({}, []) := by
  rw [runActor_eq]
  have acknowledged : (frameWrites [tornBatch]).map
      (fun write => (write.record, write.acknowledged appendJson)) =
        [(pairAppend, false), (nextAppend, true)] := by
    simp [frameWrites, tornBatch, FrameBatch.writes, FrameWrite.acknowledged, encode_nextAppend]
  have file_eq : (frameWrites [tornBatch]).flatMap (FrameWrite.bytes appendJson appendCrc32c) =
      (frame appendCrc32c pairPayload).take 12 ++
        frame appendCrc32c nextPayload := by
    simp [frameWrites, tornBatch, FrameBatch.writes, FrameWrite.bytes, encode_pairAppend,
      encode_nextAppend]
  have swallowed : readHead appendCrc32c 0
      ((frame appendCrc32c pairPayload).take 12 ++
        frame appendCrc32c nextPayload) = .torn := by
    apply readHead_take_frame
    · simp [length_frame, headerLength, length_pairPayload]
    · exact .inr le_rfl
    · simp [length_frame, headerLength, length_pairPayload, length_nextPayload]
  refine ⟨acknowledged, ?_⟩
  rw [nil_append, file_eq, recoverLogRecords, recoverFrames, swallowed]
  split <;> rfl

/-- The other order of events: the pair is acknowledged, and the next append tears. -/
def tornLast : List FrameBatch :=
  [⟨[(pairAppend, .completed)], true⟩, ⟨[(nextAppend, .failed 20)], true⟩]

/-- The pair survives the torn frame behind it. -/
theorem acknowledged_appends_survive_torn_last :
    ∃ recovered kept,
      recoverLogRecords appendJson appendCrc32c
          (runActor appendJson appendCrc32c [] tornLast).1 = .ok (recovered, kept) ∧
        recovered.entries.get 1 = some (blankEntry 1) := by
  have pair_lands : FrameWrite.lands appendJson appendCrc32c ⟨pairAppend, .completed, true⟩ =
      true := by
    simp [FrameWrite.lands, encode_pairAppend]
  have next_missing :
      FrameWrite.lands appendJson appendCrc32c ⟨nextAppend, .failed 20, true⟩ = false := by
    simp [FrameWrite.lands, encode_nextAppend, length_frame, headerLength,
      length_nextPayload]
  have bounded : (frames appendCrc32c
      ([] ++ attemptedPayloads appendJson (frameWrites tornLast))).length < 2 ^ 64 := by
    simp [attemptedPayloads, frameWrites, tornLast, FrameBatch.writes, encode_pairAppend,
      encode_nextAppend, headerLength, length_pairPayload, length_nextPayload]
  have quiet : (frameWrites tornLast).Pairwise fun earlier later =>
      earlier.Torn appendJson appendCrc32c → later.bytes appendJson appendCrc32c = [] := by
    refine .cons ?_ (pairwise_singleton _ _)
    intro later _ torn
    exact absurd (pair_lands.symm.trans torn.2) (by decide)
  have removals : ∀ write ∈ frameWrites tornLast, write.record.isRemoval = true →
      write.lands appendJson appendCrc32c = true → write.acknowledged appendJson = true := by
    intro write member removal
    simp only [frameWrites, tornLast, FrameBatch.writes, flatMap_cons, flatMap_nil,
      map_cons, map_nil, append_nil, cons_append, nil_append,
      mem_cons, not_mem_nil, or_false] at member
    rcases member with rfl | rfl <;> cases removal
  have fresh : FreshAppends appendJson appendCrc32c [] (frameWrites tornLast) := by
    intro front write back entries writes_eq lands record_eq
    cases front with
    | nil =>
      cases writes_eq
      cases record_eq
      exact ⟨by decide, fun entry _ => rfl⟩
    | cons first rest =>
      cases rest with
      | nil =>
        cases writes_eq
        exact absurd (next_missing.symm.trans lands) (by decide)
      | cons second rest => simp [frameWrites, tornLast, FrameBatch.writes] at writes_eq
  obtain ⟨recovered, kept, opened, survives⟩ := acknowledged_appends_survive appendJson
    appendCrc32c [] [] tornLast .nil bounded quiet removals fresh
  have acknowledged : (runActor appendJson appendCrc32c (frames appendCrc32c [])
      tornLast).2 = [] ++ (pairAppend, true) :: [(nextAppend, false)] := by
    rw [runActor_eq]
    simp [frameWrites, tornLast, FrameBatch.writes, FrameWrite.acknowledged, encode_pairAppend]
  refine ⟨recovered, kept, opened, ?_⟩
  have shown := survives [] [(nextAppend, false)] _ acknowledged (blankEntry 1) (by simp)
  rcases shown with shown | ⟨record, member, _⟩
  · exact shown
  · simp at member

end Verglas.Consensus
