import Verglas.Consensus.Transition

/-!
# Replicas of one log

A replica applies the committed log in order.  Between two entries it may build a snapshot, which
compacts its own history, or be replaced by the snapshot of another replica of the same log.  The
retained history therefore differs between replicas; the `core` of the state, everything but the
retained headers with their log identities and repairs, does not.
-/

namespace Verglas.Consensus

open List

/-- A state reached by applying exactly the entries of `log`, with snapshots in between. -/
inductive ReplicaAt : List Entry → StateMachineData → Prop
  | empty : ReplicaAt [] {}
  | apply {log : List Entry} {before after : StateMachineData} {entry : Entry}
      {response : RaftResponse} (replica : ReplicaAt log before)
      (increasing : ∀ last ∈ before.lastApplied, last.index < entry.logId.index)
      (step : applyEntry before entry = (after, .ok response)) :
      ReplicaAt (log ++ [entry]) after
  | buildSnapshot {log : List Entry} {state : StateMachineData}
      (replica : ReplicaAt log state) : ReplicaAt log (buildSnapshot state).1
  | installSnapshot {log : List Entry} {donor : StateMachineData}
      (replica : ReplicaAt log donor) : ReplicaAt log (installSnapshot (buildSnapshot donor).2)

@[simp] theorem installSnapshot_buildSnapshot (state : StateMachineData) :
    installSnapshot (buildSnapshot state).2 = (buildSnapshot state).1 := rfl

variable {state after : StateMachineData} {log : List Entry} {entry : Entry}

theorem ReplicaAt.take (replica : ReplicaAt log state) (length : Nat) :
    ∃ earlier, ReplicaAt (log.take length) earlier := by
  induction replica with
  | empty =>
    rw [take_nil]
    exact ⟨{}, .empty⟩
  | @apply log before after entry response replica increasing step induction =>
    by_cases inside : length ≤ log.length
    · rw [take_append_of_le_length inside]
      exact induction
    · rw [take_of_length_le (by rw [length_append, length_singleton]; omega)]
      exact ⟨after, .apply replica increasing step⟩
  | buildSnapshot _ induction | installSnapshot _ induction => exact induction

variable {before : StateMachineData}

theorem Applied.lastApplied {response : RaftResponse} (step : Applied before entry after response) :
    after.lastApplied = some entry.logId := by
  cases step with
  | recorded header effect payload fresh fenced transition =>
    rw [recordCommit_lastApplied, (metadataFrame_of_applyMetadata transition).lastApplied]
  | repaired index generation certificate after payload accepted =>
    rw [(applyRepair_ok accepted).1]
  | _ => rfl

variable {responses : List RaftResponse}

theorem apply_cons_ok {final : StateMachineData} {rest : List Entry}
    (batch : apply state (entry :: rest) = (final, .ok responses)) :
    ∃ applied response others, applyEntry state entry = (applied, .ok response) ∧
      apply applied rest = (final, .ok others) ∧ responses = response :: others := by
  rw [apply] at batch
  split at batch
  · cases batch
  rename_i applied response step
  cases rest_eq : apply applied rest with
  | mk last outcome =>
    rw [rest_eq] at batch
    cases outcome with
    | error error => cases batch
    | ok others =>
      cases batch
      exact ⟨applied, response, others, step, rest_eq, rfl⟩

variable {batch : List Entry}

/-- A replica that applies a batch without error has applied each of its entries. -/
theorem ReplicaAt.applyBatch (replica : ReplicaAt log before)
    (increasing : (before.lastApplied.toList ++ batch.map Entry.logId).Pairwise
      fun left right => left.index < right.index)
    (applied : Consensus.apply before batch = (after, .ok responses)) :
    ReplicaAt (log ++ batch) after := by
  induction batch generalizing log before responses with
  | nil =>
    cases applied
    simpa using replica
  | cons entry rest ih =>
    obtain ⟨middle, response, others, step, rest_applied, _⟩ := apply_cons_ok applied
    rw [map_cons, pairwise_append] at increasing
    obtain ⟨_, rest_increasing, crossing⟩ := increasing
    have next := ReplicaAt.apply replica
      (fun last member => crossing last (by simpa using member) _ mem_cons_self) step
    have middle_last := (applied_of_applyEntry step).lastApplied
    have whole := ih next (by rw [middle_last]; exact rest_increasing) rest_applied
    rwa [append_assoc, singleton_append] at whole

namespace StateMachineData

/-- The state without retained headers, log identities and repairs. -/
def core (state : StateMachineData) : StateMachineData :=
  { state with committed := ∅, committedLogIds := ∅, repairs := ∅ }

@[simp] theorem core_core (state : StateMachineData) : state.core.core = state.core := rfl

end StateMachineData

/-- An effect whose state keeps its core only. -/
def MetadataEffect.core (effect : MetadataEffect) : MetadataEffect :=
  { effect with state := effect.state.core }

@[simp] theorem core_buildSnapshot (state : StateMachineData) :
    (buildSnapshot state).1.core = state.core := by
  simp only [buildSnapshot, compactCheckpointedCatalogHistory]
  split <;> rfl

/-- The metadata transition neither reads nor writes the retained history. -/
theorem applyMetadata_core (state : StateMachineData) (index : Nat) (header : EntryHeader) :
    applyMetadata state.core index header =
      (applyMetadata state index header).map MetadataEffect.core := by
  have initialized_eq : state.core.walInitialized = state.walInitialized := rfl
  have end_eq : state.core.walEnd = state.walEnd := rfl
  have archive_eq : state.core.archiveLsn = state.archiveLsn := rfl
  have bucket_eq : state.core.walArchiveBucket = state.walArchiveBucket := rfl
  have warehouses_eq : state.core.warehouses = state.warehouses := rfl
  have tables_eq : state.core.tables = state.tables := rfl
  have namespaces_eq : state.core.namespaces = state.namespaces := rfl
  have records_eq : state.core.records = state.records := rfl
  unfold applyMetadata
  cases header.metadata with
  | none => rfl
  | walStart start =>
    simp only [initialized_eq, end_eq]
    split
    · split <;> rfl
    · rfl
  | walArchiveBinding bucket =>
    simp only [bucket_eq]
    split
    · split <;> rfl
    · rfl
  | wal start stop =>
    simp only [end_eq]
    split <;> rfl
  | archive segment =>
    simp only [archive_eq, end_eq]
    split <;> rfl
  | catalog batch =>
    simp only [namespaces_eq, tables_eq, records_eq]
    split <;> rfl
  | catalogCheckpoint appliedIndex =>
    dsimp only
    split <;> rfl
  | warehouseRoute warehouse group =>
    simp only [warehouses_eq]
    split
    · split <;> rfl
    · rfl

theorem core_recordCommit (effect : MetadataEffect) (logId : LogId) (header : EntryHeader) :
    (recordCommit effect logId header).core = (recordCommit effect.core logId header).core := by
  simp only [recordCommit, applyLease, MetadataEffect.core]
  split
  · rfl
  · split <;> rfl

theorem applyCommit_core (state : StateMachineData) (logId : LogId) (header : EntryHeader) :
    (applyCommit state.core logId header).2 = (applyCommit state logId header).2 ∧
      (applyCommit state.core logId header).1.core = (applyCommit state logId header).1.core := by
  have retries_eq : state.core.retries = state.retries := rfl
  have fence_eq : epochValid state.core header = epochValid state header := rfl
  simp only [applyCommit, retries_eq, fence_eq, applyMetadata_core]
  cases state.retries.get header.request with
  | some previous => exact ⟨rfl, rfl⟩
  | none =>
    cases epochValid state header with
    | false => exact ⟨rfl, rfl⟩
    | true =>
      cases applyMetadata state logId.index header with
      | error response => exact ⟨rfl, rfl⟩
      | ok effect => exact ⟨rfl, (core_recordCommit effect logId header).symm⟩

/-- The entry moves a payload. -/
def Entry.IsRepair (entry : Entry) : Prop :=
  ∃ index generation certificate,
    entry.payload = .normal (.repair index generation certificate)

theorem core_applyEntry_repair (repair : entry.IsRepair) (state : StateMachineData) :
    (applyEntry state entry).1.core = { state.core with lastApplied := some entry.logId } := by
  obtain ⟨index, generation, certificate, payload⟩ := repair
  unfold applyEntry
  simp only [payload]
  split
  · rfl
  · rename_i repaired accepted
    rw [(applyRepair_ok accepted).1]
    rfl

theorem applyEntry_core (state : StateMachineData) (entry : Entry) :
    (applyEntry state.core entry).1.core = (applyEntry state entry).1.core ∧
      (¬entry.IsRepair → (applyEntry state.core entry).2 = (applyEntry state entry).2) := by
  by_cases repair : entry.IsRepair
  · refine ⟨?_, fun other => absurd repair other⟩
    rw [core_applyEntry_repair repair, core_applyEntry_repair repair, StateMachineData.core_core]
  unfold applyEntry
  cases payload : entry.payload with
  | blank | membership membership => exact ⟨rfl, fun _ => rfl⟩
  | normal command =>
    cases command with
    | commit header =>
      obtain ⟨answer, after⟩ :=
        applyCommit_core { state with lastApplied := some entry.logId } entry.logId header
      exact ⟨after, fun _ => congrArg Except.ok answer⟩
    | repair index generation certificate =>
      exact absurd ⟨index, generation, certificate, payload⟩ repair
    | releaseWal throughLsn =>
      have archive_eq : state.core.archiveLsn = state.archiveLsn := rfl
      simp only [archive_eq]
      split <;> exact ⟨rfl, fun _ => rfl⟩

theorem applyEntry_congr {left right : StateMachineData} (same : left.core = right.core)
    (entry : Entry) :
    (applyEntry left entry).1.core = (applyEntry right entry).1.core ∧
      (¬entry.IsRepair → (applyEntry left entry).2 = (applyEntry right entry).2) := by
  obtain ⟨left_core, left_answer⟩ := applyEntry_core left entry
  obtain ⟨right_core, right_answer⟩ := applyEntry_core right entry
  rw [same] at left_core left_answer
  exact ⟨left_core.symm.trans right_core,
    fun other => (left_answer other).symm.trans (right_answer other)⟩

/-- The state after the whole log, without any snapshot. -/
def replay (log : List Entry) : StateMachineData :=
  log.foldl (fun state entry => (applyEntry state entry).1) {}

@[simp] theorem replay_concat (log : List Entry) (entry : Entry) :
    replay (log ++ [entry]) = (applyEntry (replay log) entry).1 := by
  simp [replay]

theorem ReplicaAt.core_eq (replica : ReplicaAt log state) : state.core = (replay log).core := by
  induction replica with
  | empty => rfl
  | @apply log before after entry response _ _ step ih =>
    have next := (applyEntry_congr ih entry).1
    rw [step] at next
    rw [replay_concat, next]
  | buildSnapshot _ ih => rw [core_buildSnapshot, ih]
  | installSnapshot _ ih => rw [installSnapshot_buildSnapshot, core_buildSnapshot, ih]

theorem apply_fst_eq_foldl (applied : (apply state batch).2.toOption.isSome) :
    (apply state batch).1 =
      batch.foldl (fun before entry => (applyEntry before entry).1) state := by
  induction batch generalizing state with
  | nil => rfl
  | cons entry rest ih =>
    rw [apply] at applied ⊢
    split at applied
    · cases applied
    rename_i after response step
    have rest_applied : (apply after rest).2.toOption.isSome := by
      cases outcome : (apply after rest).2 with
      | error error => simp [outcome, Except.map, Except.toOption] at applied
      | ok responses => rfl
    rw [foldl_cons, step]
    exact ih rest_applied

theorem ReplicaAt.of_apply
    (increasing : (log.map Entry.logId).Pairwise fun left right => left.index < right.index)
    (applied : (Consensus.apply {} log).2.toOption.isSome) : ReplicaAt log (replay log) := by
  have state_eq := apply_fst_eq_foldl applied
  cases outcome : (Consensus.apply {} log).2 with
  | error error => simp [outcome, Except.toOption] at applied
  | ok responses =>
    exact ReplicaAt.applyBatch .empty (by simpa using increasing) (Prod.ext state_eq outcome)

theorem ReplicaAt.of_prefixes {count position : Nat}
    (applies : ∀ length < count, ((log.take length).map Entry.logId).Pairwise
        (fun left right => left.index < right.index) ∧
      (Consensus.apply {} (log.take length)).2.toOption.isSome) (small : position < count) :
    ReplicaAt (log.take position) (replay (log.take position)) :=
  .of_apply (applies position small).1 (applies position small).2

end Verglas.Consensus
