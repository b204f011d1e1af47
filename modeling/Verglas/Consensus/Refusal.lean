import Verglas.Consensus.WalTiling
import Verglas.Lib.InPlace

/-!
# Refused commands change nothing

A replica applies an entry by assigning the fields of its state one after the other, and answers a
refused command in the middle of that code.  This file embeds the application with its assignments
in their order, so that an assignment before a refusal would stay.
-/

namespace Verglas.Consensus

open InPlace

namespace CatalogBatch

/-- Namespaces and tables, the collections of the first pass. -/
abbrev Tables := OrderedMap String Unit × OrderedMap String String

/-- One action on the namespaces and tables.  Insertions and removals report afterwards whether
they found their key. -/
def actInPlace : CatalogAction → InPlace Tables CatalogBatchError Unit
  | .createNamespace name => do
      let found := (← get).1.contains name
      modify fun next => (next.1.insert name (), next.2)
      if found then throw .invalid
  | .dropNamespace name => do
      if (← get).2.keys.any (fun table => (name ++ ".").toList.isPrefixOf table.toList) then
        throw .invalid
      let found := (← get).1.contains name
      modify fun next => (next.1.remove name, next.2)
      if !found then throw .invalid
  | .putTable table metadataLocation => do
      match rsplitOnce '.' table with
      | none => throw .invalid
      | some (name, _) =>
        if !(← get).1.contains name || metadataLocation = "" then throw .invalid
        modify fun next => (next.1, next.2.insert table metadataLocation)
  | .dropTable table => do
      let found := (← get).2.contains table
      modify fun next => (next.1, next.2.remove table)
      if !found then throw .invalid
  | .putRecord _ _ _ | .deleteRecord _ _ => pure ()

/-- The record action, in place. -/
def actOnRecords : CatalogAction → InPlace CatalogRecords CatalogBatchError Unit
  | .putRecord entity id document => modify fun next => next.put entity id document
  | .deleteRecord entity id => do
      let (found, next) := (← get).remove entity id
      set next
      if found.isNone then throw .invalid
  | _ => pure ()

/-- Check every requirement against the current collections, run the actions on a clone, and
assign the clone. -/
def onClone {σ : Type} (batch : CatalogBatch) (satisfied : σ → CatalogRequirement → Bool)
    (act : CatalogAction → InPlace σ CatalogBatchError Unit) :
    InPlace σ CatalogBatchError Unit := do
  batch.requirements.forM fun requirement => do
    if !satisfied (← get) requirement then throw .invalid
  let (outcome, next) := exec (batch.actions.forM act) (← get)
  match outcome with
  | .error error => throw error
  | .ok () => set next

/-- `CatalogBatch::apply`, in place on a clone. -/
def applyInPlace (batch : CatalogBatch) : InPlace Tables CatalogBatchError Unit :=
  batch.onClone (fun current => satisfied current.1 current.2) actInPlace

/-- `CatalogBatch::apply_records`, in place on a clone. -/
def applyRecordsInPlace (batch : CatalogBatch) : InPlace CatalogRecords CatalogBatchError Unit :=
  batch.onClone recordSatisfied actOnRecords

/-- The code computes `expected`; when it leaves early, the state that it leaves is open. -/
def Computes {σ : Type} (code : InPlace σ CatalogBatchError Unit) (state : σ)
    (expected : Except CatalogBatchError σ) : Prop :=
  match expected with
  | .ok next => exec code state = (.ok (), next)
  | .error error => (exec code state).1 = .error error

theorem actInPlace_computes (action : CatalogAction) (next : Tables) :
    Computes (actInPlace action) next (applyAction next action) := by
  obtain ⟨namespaces, tables⟩ := next
  cases action with
  | createNamespace name =>
    simp only [Computes, actInPlace, applyAction, exec_bind, exec_get, exec_modify]
    cases namespaces.contains name <;> simp
  | dropNamespace name =>
    simp only [Computes, actInPlace, applyAction, exec_bind, exec_get]
    cases tables.keys.any fun table => (name ++ ".").toList.isPrefixOf table.toList with
    | true => simp
    | false => cases found : namespaces.contains name <;> simp [exec_bind, found]
  | putTable table metadataLocation =>
    simp only [Computes, actInPlace, applyAction]
    cases rsplitOnce '.' table with
    | none => simp
    | some parts =>
      simp only [exec_bind, exec_get]
      cases !namespaces.contains parts.1 || decide (metadataLocation = "") <;> simp
  | dropTable table =>
    simp only [Computes, actInPlace, applyAction, exec_bind, exec_get, exec_modify]
    cases tables.contains table <;> simp
  | putRecord entity id document | deleteRecord entity id => rfl

theorem actOnRecords_computes (action : CatalogAction) (next : CatalogRecords) :
    Computes (actOnRecords action) next (applyRecordAction next action) := by
  cases action with
  | deleteRecord entity id =>
    simp only [Computes, actOnRecords, applyRecordAction, exec_bind, exec_get, exec_set]
    cases next.remove entity id with
    | mk found remaining => cases found <;> simp
  | _ => rfl

variable {σ : Type} {act : CatalogAction → InPlace σ CatalogBatchError Unit}
  {change : σ → CatalogAction → Except CatalogBatchError σ}

theorem forM_computes (step : ∀ action next, Computes (act action) next (change next action))
    (actions : List CatalogAction) (next : σ) :
    Computes (actions.forM act) next (actions.foldlM change next) := by
  induction actions generalizing next with
  | nil => rfl
  | cons action rest ih =>
    have here := step action next
    cases changed : change next action with
    | error error =>
      rw [changed, Computes] at here
      have stopped : (action :: rest).foldlM change next = .error error := by
        rw [List.foldlM_cons, changed]
        rfl
      rw [stopped, Computes, exec_forM_cons]
      cases executed : exec (act action) next with
      | mk outcome after =>
        rw [executed] at here
        cases here
        rfl
    | ok after =>
      rw [changed, Computes] at here
      have continued : (action :: rest).foldlM change next = rest.foldlM change after := by
        rw [List.foldlM_cons, changed]
        rfl
      have looped : exec ((action :: rest).forM act) next = exec (rest.forM act) after := by
        rw [exec_forM_cons, here]
      rw [continued, Computes.eq_def, looped]
      exact ih after

theorem exec_requirements (satisfied : σ → CatalogRequirement → Bool)
    (requirements : List CatalogRequirement) (state : σ) :
    exec (requirements.forM fun requirement => do
        if !satisfied (← get) requirement then throw .invalid) state =
      (if requirements.all (satisfied state) then .ok () else .error CatalogBatchError.invalid,
        state) := by
  induction requirements with
  | nil => rfl
  | cons requirement rest ih =>
    rw [exec_forM_cons, List.all_cons]
    simp only [exec_bind, exec_get]
    cases satisfied state requirement with
    | false => rfl
    | true => exact ih

/-- A batch assigns its clone as a whole or leaves the collections as they are. -/
theorem exec_onClone (batch : CatalogBatch) (satisfied : σ → CatalogRequirement → Bool)
    (step : ∀ action next, Computes (act action) next (change next action)) (state : σ) :
    exec (batch.onClone satisfied act) state =
      allOrNothing state
        (if batch.requirements.all (satisfied state) then batch.actions.foldlM change state
          else .error .invalid) := by
  rw [onClone, exec_bind, exec_requirements]
  cases batch.requirements.all (satisfied state) with
  | false => rfl
  | true =>
    have acted := forM_computes step batch.actions state
    simp only [exec_bind, exec_get, if_true]
    cases folded : batch.actions.foldlM change state with
    | ok next | error error =>
      rw [folded, Computes] at acted
      rw [acted]
      rfl

theorem exec_applyInPlace (batch : CatalogBatch) (namespaces : OrderedMap String Unit)
    (tables : OrderedMap String String) :
    exec batch.applyInPlace (namespaces, tables) =
      allOrNothing (namespaces, tables) (batch.apply namespaces tables) :=
  exec_onClone batch _ actInPlace_computes (namespaces, tables)

theorem exec_applyRecordsInPlace (batch : CatalogBatch) (records : CatalogRecords) :
    exec batch.applyRecordsInPlace records =
      allOrNothing records (batch.applyRecords records) :=
  exec_onClone batch _ actOnRecords_computes records

end CatalogBatch

/-- Positions and flags that a commit reports. -/
structure Reported where
  walEnd : Option Nat := none
  archiveLsn : Option Nat := none
  catalogChanged : Bool := false

/-- Assign what the decoded metadata changes, or leave with the answer that refuses it. -/
def metadataInPlace (index : Nat) (header : EntryHeader) :
    InPlace StateMachineData RaftResponse Reported := do
  match header.metadata with
  | .none => return {}
  | .walStart start =>
    if (← get).walInitialized && (← get).walEnd < start then
      throw { index, outcome := .walGap, walEnd := some (← get).walEnd }
    if !(← get).walInitialized then
      modify fun state => { state with walInitialized := true }
      modify fun state => { state with walEnd := start }
      modify fun state => { state with archiveLsn := start }
    return { walEnd := some (← get).walEnd }
  | .walArchiveBinding bucket =>
    match (← get).walArchiveBucket with
    | some existing =>
      if existing ≠ bucket then throw { index, outcome := .catalogConflict }
    | none => modify fun state => { state with walArchiveBucket := some bucket }
    return {}
  | .wal start stop =>
    if start ≠ (← get).walEnd then
      throw
        { index, writerEpoch := some (← get).writerEpoch, outcome := .walGap
          walEnd := some (← get).walEnd }
    modify fun state => { state with walEnd := stop }
    return { walEnd := some stop }
  | .archive segment =>
    if segment.startLsn ≠ (← get).archiveLsn ∨ segment.endLsn > (← get).walEnd then
      throw
        { index, writerEpoch := some (← get).writerEpoch, outcome := .invalidArchiveCheckpoint
          walEnd := some (← get).walEnd, archiveLsn := some (← get).archiveLsn }
    modify fun state => { state with archiveLsn := segment.endLsn }
    return { archiveLsn := some segment.endLsn }
  | .catalog batch =>
    -- Both passes run on clones of the collections.
    let (first, namespaces, tables) :=
      exec batch.applyInPlace ((← get).namespaces, (← get).tables)
    let (second, records) := exec batch.applyRecordsInPlace (← get).records
    if !first.isOk || !second.isOk then throw { index, outcome := .catalogConflict }
    modify fun state => { state with namespaces }
    modify fun state => { state with tables }
    modify fun state => { state with records }
    return { catalogChanged := true }
  | .catalogCheckpoint appliedIndex =>
    if appliedIndex > index then throw { index, outcome := .catalogConflict }
    let hash := String.ofList (hexEncode header.payloadHash.toList)
    modify fun state => { state with catalogCheckpoint := some (appliedIndex, hash) }
    return {}
  | .warehouseRoute warehouse group =>
    match (← get).warehouses.get warehouse with
    | some existing =>
      if existing ≠ group then throw { index, outcome := .catalogConflict }
    | none =>
      modify fun state =>
        { state with warehouses := state.warehouses.insert warehouse group }
    return {}

/-- Leave with the earlier answer when the request is known. -/
def checkRetry (header : EntryHeader) : InPlace StateMachineData RaftResponse Unit := do
  if let some previous := (← get).retries.get header.request then
    throw (retryResponse previous header)

/-- Leave when the writer fence does not admit the command. -/
def checkEpoch (logId : LogId) (header : EntryHeader) :
    InPlace StateMachineData RaftResponse Unit := do
  if !epochValid (← get) header then
    throw
      { index := logId.index, writerEpoch := some (← get).writerEpoch
        outcome := .staleWriterEpoch }

/-- The lease updates of a commit, in place. -/
def leaseInPlace (header : EntryHeader) : InPlace StateMachineData RaftResponse Unit := do
  if header.kind = .writerLease then
    modify fun state => { state with writerEpoch := header.writerEpoch.getD state.writerEpoch }
    modify fun state => { state with writerActive := true }
  else if header.kind = .releaseWriter then
    modify fun state => { state with writerActive := false }

/-- Assign the retry identity and the header of an accepted command. -/
def recordInPlace (logId : LogId) (header : EntryHeader) (reported : Reported) :
    InPlace StateMachineData RaftResponse RaftResponse := do
  let current ← get
  let walEnd := if header.kind = .writerLease then some current.walEnd else reported.walEnd
  leaseInPlace header
  let identity : AppliedIdentity :=
    { index := logId.index, group := header.group, kind := header.kind
      hash := header.payloadHash, writerEpoch := header.writerEpoch, walEnd
      archiveLsn := reported.archiveLsn, catalogChanged := reported.catalogChanged }
  modify fun state => { state with retries := state.retries.insert header.request identity }
  modify fun state => { state with committed := state.committed.insert logId.index header }
  modify fun state =>
    { state with committedLogIds := state.committedLogIds.insert logId.index logId }
  return { index := logId.index, writerEpoch := header.writerEpoch, outcome := .committed
           walEnd, archiveLsn := reported.archiveLsn, catalogChanged := reported.catalogChanged }

/-- Apply a `Commit` command; the exit values are the answers of refused commands. -/
def commitInPlace (logId : LogId) (header : EntryHeader) :
    InPlace StateMachineData RaftResponse RaftResponse := do
  checkRetry header
  checkEpoch logId header
  let reported ← metadataInPlace logId.index header
  recordInPlace logId header reported

/-- A refusal is answered like a success. -/
def answerOf : Except RaftResponse RaftResponse → RaftResponse
  | .ok response | .error response => response

/-- Apply one entry; the exit values are the errors that stop the replica. -/
def entryInPlace (entry : Entry) : InPlace StateMachineData StorageError RaftResponse := do
  modify fun state => { state with lastApplied := some entry.logId }
  match entry.payload with
  | .blank => return { index := entry.logId.index, outcome := .committed }
  | .membership membership =>
    modify fun state => { state with membership := ⟨some entry.logId, membership⟩ }
    return { index := entry.logId.index, outcome := .committed }
  | .normal (.commit header) =>
    -- A refused command goes on with the next entry.
    let (answer, after) := exec (commitInPlace entry.logId header) (← get)
    set after
    return answerOf answer
  | .normal (.repair index generation certificate) =>
    match applyRepair (← get) entry.logId index generation certificate with
    | .error error => throw error
    | .ok repaired => set repaired
    return { index := entry.logId.index, outcome := .committed }
  | .normal (.releaseWal throughLsn) =>
    if throughLsn > (← get).archiveLsn then
      throw ⟨"WAL release exceeds the committed archive checkpoint"⟩
    modify fun state => compactCheckpointedWalHistory state throughLsn
    return { index := entry.logId.index, outcome := .committed
             walEnd := some (← get).walEnd, archiveLsn := some (← get).archiveLsn }

/-- What the assignments of an accepted or refused transition amount to. -/
theorem exec_metadataInPlace (state : StateMachineData) (index : Nat) (header : EntryHeader) :
    exec (metadataInPlace index header) state =
      match applyMetadata state index header with
      | .ok effect => (.ok ⟨effect.walEnd, effect.archiveLsn, effect.catalogChanged⟩, effect.state)
      | .error response => (.error response, state) := by
  unfold metadataInPlace applyMetadata
  cases header.metadata with
  | none => rfl
  | walStart start =>
    simp only [exec_bind, exec_get]
    cases initialized : state.walInitialized with
    | true =>
      by_cases gap : start > state.walEnd
      · simp [gap, exec_bind]
      · simp [gap, initialized, exec_bind, exec_map, Except.map]
    | false => simp [initialized, exec_bind, exec_map, Except.map]
  | walArchiveBinding bucket =>
    simp only [exec_bind, exec_get]
    cases state.walArchiveBucket with
    | none => rfl
    | some existing => by_cases same : existing = bucket <;> simp [same]
  | wal start stop =>
    simp only [exec_bind, exec_get]
    by_cases contiguous : start = state.walEnd <;>
      simp [contiguous, exec_bind, exec_map, Except.map]
  | archive segment =>
    simp only [exec_bind, exec_get]
    by_cases refused : segment.startLsn ≠ state.archiveLsn ∨ segment.endLsn > state.walEnd
    · simp only [if_pos refused, exec_bind, exec_get, exec_throw]
    · simp only [if_neg refused, exec_bind, exec_modify, exec_pure]
  | catalog batch =>
    simp only [exec_bind, exec_get, CatalogBatch.exec_applyInPlace,
      CatalogBatch.exec_applyRecordsInPlace]
    cases batch.apply state.namespaces state.tables with
    | error error => rfl
    | ok next =>
      cases batch.applyRecords state.records with
      | error error | ok records => rfl
  | catalogCheckpoint appliedIndex =>
    by_cases ahead : appliedIndex > index <;> simp [ahead, exec_map, Except.map]
  | warehouseRoute warehouse group =>
    simp only [exec_bind, exec_get]
    cases state.warehouses.get warehouse with
    | none => rfl
    | some existing => by_cases same : existing = group <;> simp [same]

theorem exec_checkRetry (header : EntryHeader) (state : StateMachineData) :
    exec (checkRetry header) state =
      match state.retries.get header.request with
      | some previous => (.error (retryResponse previous header), state)
      | none => (.ok (), state) := by
  simp only [checkRetry, exec_bind, exec_get]
  cases state.retries.get header.request <;> rfl

theorem exec_checkEpoch (logId : LogId) (header : EntryHeader) (state : StateMachineData) :
    exec (checkEpoch logId header) state =
      if epochValid state header then (.ok (), state)
      else
        (.error
          { index := logId.index, writerEpoch := some state.writerEpoch
            outcome := .staleWriterEpoch }, state) := by
  simp only [checkEpoch, exec_bind, exec_get]
  cases epochValid state header <;> rfl

theorem exec_leaseInPlace (header : EntryHeader) (state : StateMachineData) :
    exec (leaseInPlace header) state = (.ok (), applyLease state header) := by
  unfold leaseInPlace applyLease
  split
  · rfl
  · split <;> rfl

theorem exec_commitInPlace (state : StateMachineData) (logId : LogId) (header : EntryHeader) :
    (answerOf (exec (commitInPlace logId header) state).1,
        (exec (commitInPlace logId header) state).2) =
      ((applyCommit state logId header).2, (applyCommit state logId header).1) := by
  simp only [commitInPlace, applyCommit, exec_bind, exec_checkRetry]
  cases state.retries.get header.request with
  | some previous => rfl
  | none =>
    simp only [exec_checkEpoch]
    cases epochValid state header with
    | false => rfl
    | true =>
      simp only [exec_metadataInPlace, if_true]
      cases applyMetadata state logId.index header with
      | error response => rfl
      | ok effect =>
        simp only [recordInPlace, exec_bind, exec_get, exec_leaseInPlace, exec_modify, exec_pure]
        rfl

theorem exec_entryInPlace (state : StateMachineData) (entry : Entry) :
    exec (entryInPlace entry) state = ((applyEntry state entry).2, (applyEntry state entry).1) := by
  simp only [entryInPlace, applyEntry, exec_bind, exec_modify]
  cases entry.payload with
  | blank | membership membership => rfl
  | normal command =>
    cases command with
    | commit header =>
      have computed := exec_commitInPlace { state with lastApplied := some entry.logId }
        entry.logId header
      simp only [exec_bind, exec_get, exec_set, exec_pure]
      rw [Prod.mk.injEq] at computed
      rw [computed.1, computed.2]
    | repair index generation certificate =>
      simp only [exec_bind, exec_get]
      cases applyRepair { state with lastApplied := some entry.logId } entry.logId index
        generation certificate <;> rfl
    | releaseWal throughLsn =>
      simp only [exec_bind, exec_get]
      split <;> rfl

theorem applyMetadata_of_failed {state : StateMachineData} {index : Nat} {header : EntryHeader}
    {batch : CatalogBatch} (metadata : header.metadata = .catalog batch)
    (failed : (exec batch.applyInPlace (state.namespaces, state.tables)).1.isOk = false ∨
      (exec batch.applyRecordsInPlace state.records).1.isOk = false) :
    applyMetadata state index header = .error { index, outcome := .catalogConflict } := by
  rw [CatalogBatch.exec_applyInPlace, CatalogBatch.exec_applyRecordsInPlace] at failed
  simp only [applyMetadata, metadata]
  cases first : batch.apply state.namespaces state.tables with
  | error error => rfl
  | ok next =>
    cases second : batch.applyRecords state.records with
    | error error => rfl
    | ok records =>
      rw [first, second] at failed
      rcases failed with failed | failed <;> cases failed

/-- An entry whose answer is a refusal moves the applied position and nothing else.  A catalog
batch that fails in its first or second pass is such an entry. -/
theorem refused_commands_change_nothing (state : StateMachineData) (entry : Entry) :
    (∀ response after, exec (entryInPlace entry) state = (.ok response, after) →
      response.outcome ∈ [AppliedOutcome.duplicate, .conflictingRetry, .staleWriterEpoch, .walGap,
        .invalidArchiveCheckpoint, .catalogConflict] →
      after = { state with lastApplied := some entry.logId }) ∧
    ∀ header batch, entry.payload = .normal (.commit header) →
      header.metadata = .catalog batch →
      ((exec batch.applyInPlace (state.namespaces, state.tables)).1.isOk = false ∨
        (exec batch.applyRecordsInPlace state.records).1.isOk = false) →
      (exec (entryInPlace entry) state).2 = { state with lastApplied := some entry.logId } := by
  rw [exec_entryInPlace]
  constructor
  · intro response after executed refused
    obtain ⟨answer_eq, after_eq⟩ := Prod.mk.inj executed
    have applied := applied_of_applyEntry (Prod.ext after_eq answer_eq)
    cases applied with
    | refused header _ payload closed known => rfl
    | blank payload | membership membership payload
    | repaired index generation certificate _ payload accepted
    | released throughLsn payload archived => simp at refused
    | recorded header effect payload fresh fenced transition => simp [commitResponse] at refused
  · intro header batch payload metadata failed
    have conflict : applyMetadata { state with lastApplied := some entry.logId }
        entry.logId.index header = .error _ := applyMetadata_of_failed metadata failed
    have kept : (applyCommit { state with lastApplied := some entry.logId } entry.logId
        header).1 = { state with lastApplied := some entry.logId } := by
      rcases applyCommit_cases { state with lastApplied := some entry.logId } entry.logId header
        with ⟨response, commit_eq, _⟩ | ⟨effect, _, _, transition, _⟩
      · rw [commit_eq]
      · rw [conflict] at transition
        cases transition
    simp only [applyEntry, payload]
    exact kept

/-- A batch whose namespace could be created but whose record does not exist. -/
def halfBatch : CatalogBatch :=
  ⟨[], [.createNamespace "sales", .deleteRecord .view "sales.daily"]⟩

def halfEntry : Entry :=
  inlineEntry "warehouse" 1 .catalog none
    (asBytes ("\x7b\"requirements\":[],\"actions\":[\x7b\"CreateNamespace\":\x7b\"namespace\":" ++
      "\"sales\"\x7d\x7d,\x7b\"DeleteRecord\":\x7b\"entity\":\"View\"," ++
      "\"id\":\"sales.daily\"\x7d\x7d]\x7d"))
    "54d2a4f69ba5ece81a4dc9e9dabc1c9af7ddd6a35cfab49aa3b8dacd6e07594d"
    (.catalog halfBatch) rfl (by decide)

/-- The second pass fails after the first one succeeded, and the namespace is not created. -/
theorem refused_commands_change_nothing_half_batch :
    (exec halfBatch.applyInPlace (∅, ∅)).1.isOk = true ∧
      (exec halfBatch.applyRecordsInPlace {}).1.isOk = false ∧
      (exec (entryInPlace halfEntry) {}).2 = { lastApplied := some ⟨1, 1⟩ } := by
  have failed : (exec halfBatch.applyRecordsInPlace {}).1.isOk = false := by
    rw [CatalogBatch.exec_applyRecordsInPlace]
    rfl
  refine ⟨?_, failed, ?_⟩
  · rw [CatalogBatch.exec_applyInPlace]
    rfl
  · exact (refused_commands_change_nothing {} halfEntry).2 _ halfBatch rfl rfl (.inr failed)

end Verglas.Consensus
