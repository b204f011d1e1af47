import Verglas.Consensus.WalTiling

/-!
# Commit history

The history of a log lists every header that its replay records, whether or not a replica has pruned
it since.  A replica retains a part of the history; it keeps a retry identity for all of it.
-/

namespace Verglas.Consensus

open List Option OrderedMap

/-- The commit that applying an entry records, with its index. -/
def recordedBy (state : StateMachineData) (entry : Entry) : Option (Nat × EntryHeader) :=
  match entry.payload, (applyEntry state entry).2 with
  | .normal (.commit header), .ok response =>
    if response.outcome = .committed then some (entry.logId.index, header) else none
  | _, _ => none

/-- Commits recorded while the entries are applied from `state` on. -/
def historyFrom (state : StateMachineData) : List Entry → List (Nat × EntryHeader)
  | [] => []
  | entry :: rest =>
    (recordedBy state entry).toList ++ historyFrom (applyEntry state entry).1 rest

/-- Every commit that the log records, in index order. -/
def history (log : List Entry) : List (Nat × EntryHeader) := historyFrom {} log

theorem historyFrom_append (state : StateMachineData) (front back : List Entry) :
    historyFrom state (front ++ back) =
      historyFrom state front ++
        historyFrom (front.foldl (fun state entry => (applyEntry state entry).1) state) back := by
  induction front generalizing state with
  | nil => rfl
  | cons entry rest ih => simp [historyFrom, ih]

theorem history_append (front back : List Entry) :
    history (front ++ back) = history front ++ historyFrom (replay front) back :=
  historyFrom_append {} front back

@[simp] theorem history_concat (log : List Entry) (entry : Entry) :
    history (log ++ [entry]) = history log ++ (recordedBy (replay log) entry).toList := by
  simp [history_append, historyFrom]

section RecordedBy

variable {before after : StateMachineData} {entry : Entry} {response : RaftResponse}

theorem recordedBy_congr {left right : StateMachineData} (same : left.core = right.core)
    (entry : Entry) : recordedBy left entry = recordedBy right entry := by
  by_cases repair : entry.IsRepair
  · obtain ⟨index, generation, certificate, payload⟩ := repair
    simp [recordedBy, payload]
  · simp only [recordedBy, (applyEntry_congr same entry).2 repair]

variable {header : EntryHeader}

theorem recordedBy_of_commit (payload : entry.payload = .normal (.commit header))
    (step : applyEntry before entry = (after, .ok response)) :
    recordedBy before entry =
      if response.outcome = .committed then some (entry.logId.index, header) else none := by
  simp only [recordedBy, payload, step]

theorem recordedBy_of_not_commit (other : ∀ header, entry.payload ≠ .normal (.commit header)) :
    recordedBy before entry = none := by
  unfold recordedBy
  split
  · exact absurd ‹_› (other _)
  · rfl

variable {index : Nat}

theorem recordedBy_eq_some (recorded : recordedBy before entry = some (index, header)) :
    entry.logId.index = index ∧ entry.payload = .normal (.commit header) := by
  unfold recordedBy at recorded
  split at recorded
  · rename_i found response payload answer
    split at recorded
    · cases recorded
      exact ⟨rfl, payload⟩
    · cases recorded
  · cases recorded

theorem transition_of_recordedBy (recorded : recordedBy before entry = some (index, header)) :
    ∃ effect, applyMetadata { before with lastApplied := some entry.logId } entry.logId.index
        header = .ok effect ∧
      (applyEntry before entry).1 = recordCommit effect entry.logId header := by
  have payload := (recordedBy_eq_some recorded).2
  cases answer : (applyEntry before entry).2 with
  | error error => simp [recordedBy, payload, answer] at recorded
  | ok response =>
    obtain ⟨after, step⟩ : ∃ after, applyEntry before entry = (after, .ok response) :=
      ⟨_, Prod.ext rfl answer⟩
    rw [recordedBy_of_commit payload step] at recorded
    rw [step]
    cases applied_of_applyEntry step with
    | refused other _ other_payload closed => simp [closed] at recorded
    | recorded other effect other_payload fresh fenced transition =>
      rw [payload] at other_payload
      cases other_payload
      exact ⟨effect, transition, rfl⟩
    | blank other_payload | membership _ other_payload | repaired _ _ _ _ other_payload
    | released _ other_payload => rw [payload] at other_payload; cases other_payload

end RecordedBy

variable {log : List Entry} {index : Nat} {entry : Entry} {state before after : StateMachineData}

variable {header leftHeader rightHeader : EntryHeader} {found : Nat × EntryHeader}
  {response : RaftResponse}

theorem mem_log_of_mem_history (recorded : (index, header) ∈ history log) :
    ∃ entry ∈ log, entry.logId.index = index ∧ entry.payload = .normal (.commit header) := by
  induction log using reverseRecOn with
  | nil => cases recorded
  | append_singleton log entry ih =>
    rw [history_concat, mem_append, mem_toList] at recorded
    rcases recorded with earlier | here
    · obtain ⟨found, member, found_eq⟩ := ih earlier
      exact ⟨found, mem_append_left _ member, found_eq⟩
    · exact ⟨entry, by simp, recordedBy_eq_some here⟩

theorem mem_history_concat (recorded : found ∈ history log) (entry : Entry) :
    found ∈ history (log ++ [entry]) := by
  rw [history_concat]
  exact mem_append_left _ recorded

theorem mem_history_of_take {length : Nat} (recorded : found ∈ history (log.take length)) :
    found ∈ history log := by
  rw [← take_append_drop length log, history_append]
  exact mem_append_left _ recorded

/-- The answer that a committed header receives when its entry is applied. -/
def Answered (log : List Entry) (header : EntryHeader) (response : RaftResponse) : Prop :=
  ∃ position logId, log[position]? = some ⟨logId, .normal (.commit header)⟩ ∧
    (applyEntry (replay (log.take position)) ⟨logId, .normal (.commit header)⟩).2 = .ok response

/-- The indices of a log increase. -/
def Increasing (log : List Entry) : Prop :=
  log.Pairwise fun left right => left.logId.index < right.logId.index

theorem Increasing.concat (increasing : Increasing log)
    (above : ∀ last ∈ log.getLast?, last.logId.index < entry.logId.index) :
    Increasing (log ++ [entry]) := by
  refine pairwise_append.mpr ⟨increasing, pairwise_singleton _ _, ?_⟩
  intro earlier member last last_eq
  cases mem_singleton.mp last_eq
  rcases eq_nil_or_concat log with rfl | ⟨front, final, rfl⟩
  · cases member
  rw [concat_eq_append] at member increasing above
  have final_lt := above final (by simp)
  rcases mem_append.mp member with inFront | isFinal
  · have ordered := (pairwise_append.mp increasing).2.2
    exact (ordered earlier inFront final (by simp)).trans final_lt
  · rwa [mem_singleton.mp isFinal]

theorem ReplicaAt.lastApplied_eq (replica : ReplicaAt log state) :
    state.lastApplied = log.getLast?.map Entry.logId := by
  induction replica with
  | empty => rfl
  | apply _ _ step _ => simp [(applied_of_applyEntry step).lastApplied]
  | @buildSnapshot log state _ ih =>
    have kept := congrArg StateMachineData.lastApplied (core_buildSnapshot state)
    exact kept.trans ih
  | @installSnapshot log donor _ ih =>
    have kept := congrArg StateMachineData.lastApplied (core_buildSnapshot donor)
    exact kept.trans ih

theorem ReplicaAt.increasing (replica : ReplicaAt log state) : Increasing log := by
  induction replica with
  | empty => exact .nil
  | @apply log before after entry response replica increasing _ ih =>
    -- The applied position is the last entry.
    rw [replica.lastApplied_eq] at increasing
    exact ih.concat fun last last_eq => increasing last.logId (mem_map_of_mem _ last_eq)
  | buildSnapshot _ ih | installSnapshot _ ih => exact ih

theorem Increasing.eq_of_index_eq (increasing : Increasing log) {left right : Entry}
    (left_mem : left ∈ log) (right_mem : right ∈ log)
    (index_eq : left.logId.index = right.logId.index) : left = right := by
  have nodup : (log.map fun entry => entry.logId.index).Nodup :=
    pairwise_map.mpr (increasing.imp fun order => order.ne)
  exact inj_on_of_nodup_map nodup left_mem right_mem index_eq

theorem Increasing.header_eq (increasing : Increasing log) {left right : EntryHeader}
    (left_mem : (index, left) ∈ history log) (right_mem : (index, right) ∈ history log) :
    left = right := by
  obtain ⟨first, first_mem, first_index, first_payload⟩ := mem_log_of_mem_history left_mem
  obtain ⟨second, second_mem, second_index, second_payload⟩ := mem_log_of_mem_history right_mem
  have same := increasing.eq_of_index_eq first_mem second_mem (first_index.trans second_index.symm)
  rw [← same, first_payload] at second_payload
  injection second_payload with command_eq
  injection command_eq

/-- Every entry of the log has a property of what precedes it. -/
def Throughout (property : List Entry → Entry → Prop) (log : List Entry) : Prop :=
  ∀ position entry, log[position]? = some entry → property (log.take position) entry

theorem Throughout.concat {property : List Entry → Entry → Prop} (holds : Throughout property log)
    (here : property log entry) : Throughout property (log ++ [entry]) := by
  intro position found found_eq
  rcases lt_trichotomy position log.length with earlier | rfl | beyond
  · rw [getElem?_append_left earlier] at found_eq
    rw [take_append_of_le_length earlier.le]
    exact holds position found found_eq
  · rw [getElem?_concat_length] at found_eq
    cases found_eq
    rwa [take_left]
  · rw [getElem?_eq_none (by simp; omega)] at found_eq
    cases found_eq

/-- The retry identity of a header that committed at an index. -/
structure AppliedIdentity.Names (identity : AppliedIdentity) (index : Nat)
    (header : EntryHeader) : Prop where
  index : identity.index = index
  group : identity.group = header.group
  kind : identity.kind = header.kind
  hash : identity.hash = header.payloadHash
  writerEpoch : identity.writerEpoch = header.writerEpoch

/-- A repair replaces the allocation of a staged header by one of the same geometry and of a later
generation. -/
structure RepairAllocation.Replaces (repair : RepairAllocation) (header : EntryHeader)
    (certificate : PayloadCertificate) : Prop where
  staged : header.certificate = some certificate
  mode : repair.certificate.mode = certificate.mode
  k : repair.certificate.k = certificate.k
  m : repair.certificate.m = certificate.m
  generation : header.configurationGeneration < repair.configurationGeneration

/-- The maps of a replica describe the history of its log. -/
structure Recorded (log : List Entry) (state : StateMachineData) : Prop where
  retained : ∀ index header, state.committed.get index = some header →
    (index, header) ∈ history log
  identified : ∀ index header, state.committed.get index = some header →
    (state.committedLogIds.get index).isSome
  logIds : ∀ index logId, state.committedLogIds.get index = some logId →
    ∃ header, state.committed.get index = some header ∧
      ⟨logId, .normal (.commit header)⟩ ∈ log ∧ logId.index = index
  repairs : ∀ index repair, state.repairs.get index = some repair →
    ∃ header certificate, state.committed.get index = some header ∧
      repair.Replaces header certificate
  /-- Every recorded commit keeps its retry identity, and no other request has one. -/
  retries : ∀ index header, (index, header) ∈ history log →
    ∃ identity, state.retries.get header.request = some identity ∧ identity.Names index header
  known : ∀ request identity, state.retries.get request = some identity →
    ∃ index header, (index, header) ∈ history log ∧ header.request = request ∧
      identity.Names index header

theorem recorded_empty : Recorded [] {} where
  retained _ _ found := by cases found
  identified _ _ found := by cases found
  logIds _ _ found := by cases found
  repairs _ _ found := by cases found
  retries _ _ found := by cases found
  known _ _ found := by cases found

/-- Pruning removes the same indices from the headers, the log identities and the repairs. -/
theorem get_pruneHeaders (state : StateMachineData) (covered : Nat → EntryHeader → Bool) :
    ∃ kept : Nat → Prop,
      (∀ index header, state.committed.get index = some header →
        (kept index ↔ covered index header = false)) ∧
      (∀ index header, (pruneHeaders state covered).committed.get index = some header ↔
        state.committed.get index = some header ∧ kept index) ∧
      (∀ index logId, (pruneHeaders state covered).committedLogIds.get index = some logId ↔
        state.committedLogIds.get index = some logId ∧ kept index) ∧
      ∀ index repair, (pruneHeaders state covered).repairs.get index = some repair ↔
        state.repairs.get index = some repair ∧ kept index := by
  refine ⟨fun index => index ∉ (state.committed.entries.filter fun entry =>
    covered entry.1 entry.2).map Prod.fst, ?_, ?_, ?_, ?_⟩
  · intro index header found
    dsimp only
    rw [mem_compacted_iff]
    simp [found]
  all_goals
    intro index value
    simp only [pruneHeaders, get_retain_eq_some_iff, decide_eq_true_eq]

theorem Recorded.prune (recorded : Recorded log state) (covered : Nat → EntryHeader → Bool) :
    Recorded log (pruneHeaders state covered) := by
  obtain ⟨kept, _, headers, ids, allocations⟩ := get_pruneHeaders state covered
  refine ⟨?_, ?_, ?_, ?_, recorded.retries, recorded.known⟩
  · intro index header found
    exact recorded.retained index header ((headers _ _).mp found).1
  · intro index header found
    obtain ⟨found, keep⟩ := (headers _ _).mp found
    obtain ⟨logId, identified⟩ := isSome_iff_exists.mp (recorded.identified _ _ found)
    exact isSome_iff_exists.mpr ⟨logId, (ids _ _).mpr ⟨identified, keep⟩⟩
  · intro index logId found
    obtain ⟨found, keep⟩ := (ids _ _).mp found
    obtain ⟨header, known, logged⟩ := recorded.logIds _ _ found
    exact ⟨header, (headers _ _).mpr ⟨known, keep⟩, logged⟩
  · intro index repair found
    obtain ⟨found, keep⟩ := (allocations _ _).mp found
    obtain ⟨header, certificate, known, replaces⟩ := recorded.repairs _ _ found
    exact ⟨header, certificate, (headers _ _).mpr ⟨known, keep⟩, replaces⟩

theorem Recorded.buildSnapshot (recorded : Recorded log state) :
    Recorded log (buildSnapshot state).1 := by
  simp only [Consensus.buildSnapshot, compactCheckpointedCatalogHistory]
  split
  · exact recorded
  · exact recorded.prune _

theorem Recorded.extend (recorded : Recorded log after) (same : before.core = (replay log).core)
    (nothing : recordedBy before entry = none) : Recorded (log ++ [entry]) after := by
  have history_eq : history (log ++ [entry]) = history log := by
    rw [history_concat, ← recordedBy_congr same, nothing]
    simp
  refine ⟨?_, recorded.identified, ?_, recorded.repairs, ?_, ?_⟩
  · rw [history_eq]
    exact recorded.retained
  · intro index logId found
    obtain ⟨header, known, logged, index_eq⟩ := recorded.logIds index logId found
    exact ⟨header, known, mem_append_left _ logged, index_eq⟩
  · rw [history_eq]
    exact recorded.retries
  · rw [history_eq]
    exact recorded.known

theorem Recorded.congr (recorded : Recorded log before)
    (committed : after.committed = before.committed)
    (committedLogIds : after.committedLogIds = before.committedLogIds)
    (repairs : after.repairs = before.repairs) (retries : after.retries = before.retries) :
    Recorded log after := by
  obtain ⟨retained, identified, logIds, repaired, answered, known⟩ := recorded
  constructor <;> simp only [committed, committedLogIds, repairs, retries] <;> assumption

/-- A recorded commit joins the history and every map at its own index. -/
theorem Recorded.record {effect : MetadataEffect} (recorded : Recorded log before)
    (same : before.core = (replay log).core)
    (below : ∀ found ∈ before.committed.entries, found.1 < entry.logId.index)
    (payload : entry.payload = .normal (.commit header))
    (here : recordedBy before entry = some (entry.logId.index, header))
    (fresh : before.retries.get header.request = none)
    (frame : MetadataFrame { before with lastApplied := some entry.logId } effect.state) :
    Recorded (log ++ [entry]) (recordCommit effect entry.logId header) := by
  have committed_eq : effect.state.committed = before.committed := frame.committed
  have logIds_eq : effect.state.committedLogIds = before.committedLogIds := frame.committedLogIds
  have repairs_eq : effect.state.repairs = before.repairs := frame.repairs
  have retries_eq : effect.state.retries = before.retries := frame.retries
  have history_eq : history (log ++ [entry]) = history log ++ [(entry.logId.index, header)] := by
    rw [history_concat, ← recordedBy_congr same, here]
    simp
  have unused : before.committed.get entry.logId.index = none := by
    rw [get_eq_none_iff]
    intro found member
    exact absurd (below _ member) (lt_irrefl _)
  have other : ∀ index found, before.committed.get index = some found →
      index ≠ entry.logId.index := by
    rintro index found known rfl
    rw [unused] at known
    cases known
  constructor
  · intro index found
    rw [recordCommit_committed, committed_eq, get_insert, history_eq, mem_append, mem_singleton]
    split
    · rename_i index_eq
      intro header_eq
      injection header_eq with header_eq
      exact .inr (by rw [index_eq, header_eq])
    · exact fun known => .inl (recorded.retained index found known)
  · intro index found
    rw [recordCommit_committed, recordCommit_committedLogIds, committed_eq,
      logIds_eq, get_insert, get_insert]
    split
    · exact fun _ => rfl
    · exact recorded.identified index found
  · intro index logId
    rw [recordCommit_committed, recordCommit_committedLogIds, committed_eq,
      logIds_eq, get_insert, get_insert]
    split
    · rename_i index_eq
      intro logId_eq
      injection logId_eq with logId_eq
      subst logId_eq
      refine ⟨header, rfl, ?_, index_eq.symm⟩
      rw [← payload]
      exact mem_append_right _ (mem_singleton.mpr rfl)
    · intro found
      obtain ⟨known, retained, logged, index_eq⟩ := recorded.logIds index logId found
      exact ⟨known, retained, mem_append_left _ logged, index_eq⟩
  · intro index repair
    rw [recordCommit_repairs, repairs_eq, recordCommit_committed, committed_eq]
    intro found
    obtain ⟨known, certificate, retained, replaces⟩ := recorded.repairs index repair found
    rw [get_insert_of_ne (other index known retained)]
    exact ⟨known, certificate, retained, replaces⟩
  · intro index found
    rw [history_eq, mem_append, mem_singleton, recordCommit_retries, retries_eq]
    rintro (earlier | here)
    · obtain ⟨identity, answered, names⟩ := recorded.retries index found earlier
      refine ⟨identity, ?_, names⟩
      rw [get_insert_of_ne, answered]
      intro request_eq
      rw [request_eq, fresh] at answered
      cases answered
    · cases here
      exact ⟨_, get_insert_self _ _ _, rfl, rfl, rfl, rfl, rfl⟩
  · intro request identity
    rw [recordCommit_retries, retries_eq, get_insert, history_eq]
    split
    · rename_i request_eq
      intro identity_eq
      injection identity_eq with identity_eq
      subst identity_eq
      exact ⟨entry.logId.index, header, by simp, request_eq.symm, rfl, rfl, rfl, rfl, rfl⟩
    · intro found
      obtain ⟨index, known, earlier, names⟩ := recorded.known request identity found
      exact ⟨index, known, mem_append_left _ earlier, names⟩

theorem Recorded.applied (recorded : Recorded log before) (same : before.core = (replay log).core)
    (applied : IndicesApplied before)
    (increasing : ∀ last ∈ before.lastApplied, last.index < entry.logId.index)
    (step : applyEntry before entry = (after, .ok response)) : Recorded (log ++ [entry]) after := by
  have here : Recorded log { before with lastApplied := some entry.logId } :=
    recorded.congr rfl rfl rfl rfl
  have ignored : (∀ header, entry.payload ≠ .normal (.commit header)) →
      Recorded log after → Recorded (log ++ [entry]) after :=
    fun other kept => kept.extend same (recordedBy_of_not_commit other)
  cases applied_of_applyEntry step with
  | blank payload => exact ignored (by simp [payload]) here
  | membership membership payload =>
    exact ignored (by simp [payload]) (recorded.congr rfl rfl rfl rfl)
  | refused header response payload closed known =>
    exact here.extend same (by rw [recordedBy_of_commit payload step, if_neg closed])
  | recorded header effect payload fresh fenced transition =>
    refine recorded.record same (below_of_increasing applied increasing) payload ?_ fresh
      (metadataFrame_of_applyMetadata transition)
    rw [recordedBy_of_commit payload step]
    rfl
  | repaired index generation certificate after payload accepted =>
    refine ignored (by simp [payload]) ?_
    obtain ⟨rfl, header, headerCertificate, known, staged, mode, k, m, later, _⟩ :=
      applyRepair_ok accepted
    refine ⟨recorded.retained, recorded.identified, recorded.logIds, ?_, recorded.retries,
      recorded.known⟩
    intro other repair
    rw [get_insert]
    split
    · rename_i index_eq
      intro repair_eq
      injection repair_eq with repair_eq
      subst repair_eq
      exact ⟨header, headerCertificate, by rw [index_eq]; exact known, staged, mode, k, m, later⟩
    · exact recorded.repairs other repair
  | released throughLsn payload archived =>
    exact ignored (by simp [payload]) (here.prune _)

theorem ReplicaAt.recorded (replica : ReplicaAt log state) : Recorded log state := by
  induction replica with
  | empty => exact recorded_empty
  | apply replica increasing step ih =>
    exact ih.applied replica.core_eq replica.indicesApplied increasing step
  | buildSnapshot _ ih | installSnapshot _ ih => exact ih.buildSnapshot

theorem ReplicaAt.index_eq_of_request_eq (replica : ReplicaAt log state) {left right : Nat}
    (left_mem : (left, leftHeader) ∈ history log) (right_mem : (right, rightHeader) ∈ history log)
    (request_eq : leftHeader.request = rightHeader.request) : left = right := by
  obtain ⟨identity, known, names⟩ := replica.recorded.retries _ _ left_mem
  obtain ⟨other, other_known, other_names⟩ := replica.recorded.retries _ _ right_mem
  rw [request_eq, other_known] at known
  cases known
  exact names.index.symm.trans other_names.index

/-- The repair that an entry commits for a header. -/
def repairBy (index : Nat) (entry : Entry) : Option RepairAllocation :=
  match entry.payload with
  | .normal (.repair target generation certificate) =>
    if target = index then some ⟨generation, certificate, entry.logId⟩ else none
  | _ => none

/-- The last repair of a header in the log. -/
def lastRepair (log : List Entry) (index : Nat) : Option RepairAllocation :=
  log.foldl (fun found entry => (repairBy index entry).or found) none

@[simp] theorem lastRepair_concat (log : List Entry) (entry : Entry) (index : Nat) :
    lastRepair (log ++ [entry]) index = (repairBy index entry).or (lastRepair log index) := by
  simp [lastRepair]

theorem repairBy_of_not_repair (other : ¬entry.IsRepair) (index : Nat) :
    repairBy index entry = none := by
  unfold repairBy
  split
  · exact absurd ⟨_, _, _, ‹_›⟩ other
  · rfl

/-- Repairs of retained headers are the last ones of the log, and no repair names a header above the
applied position. -/
structure Repaired (log : List Entry) (state : StateMachineData) : Prop where
  retained : ∀ index header, state.committed.get index = some header →
    state.repairs.get index = lastRepair log index
  below : ∀ index repair, lastRepair log index = some repair →
    ∃ last ∈ state.lastApplied, index ≤ last.index

theorem Repaired.prune (repaired : Repaired log state) (covered : Nat → EntryHeader → Bool) :
    Repaired log (pruneHeaders state covered) where
  retained index header found := by
    obtain ⟨kept, _, headers, _, allocations⟩ := get_pruneHeaders state covered
    obtain ⟨found, keep⟩ := (headers _ _).mp found
    rw [← repaired.retained index header found]
    apply ext
    intro repair
    exact (allocations _ _).trans (and_iff_left keep)
  below := repaired.below

theorem Repaired.buildSnapshot (repaired : Repaired log state) :
    Repaired log (buildSnapshot state).1 := by
  simp only [Consensus.buildSnapshot, compactCheckpointedCatalogHistory]
  split
  · exact repaired
  · exact repaired.prune _

theorem Repaired.applied (repaired : Repaired log before) (recorded : Recorded log before)
    (applied : IndicesApplied before)
    (increasing : ∀ last ∈ before.lastApplied, last.index < entry.logId.index)
    (step : Applied before entry after response) : Repaired (log ++ [entry]) after := by
  have moved : ∀ {state : StateMachineData}, Repaired log state → ¬entry.IsRepair →
      Repaired (log ++ [entry]) state := by
    intro state kept other
    constructor <;> simp only [lastRepair_concat, repairBy_of_not_repair other, none_or]
    · exact kept.retained
    · exact kept.below
  have here : Repaired log { before with lastApplied := some entry.logId } := by
    refine ⟨repaired.retained, fun index repair found => ?_⟩
    obtain ⟨last, last_eq, le⟩ := repaired.below index repair found
    exact ⟨entry.logId, rfl, le.trans (increasing last last_eq).le⟩
  cases step with
  | blank payload | refused header response payload =>
    exact moved here (by simp [Entry.IsRepair, payload])
  | membership membership payload =>
    exact moved ⟨here.retained, here.below⟩ (by simp [Entry.IsRepair, payload])
  | recorded header effect payload fresh fenced transition =>
    have frame := metadataFrame_of_applyMetadata transition
    refine moved ⟨?_, ?_⟩ (by simp [Entry.IsRepair, payload])
    · intro index found
      rw [recordCommit_committed, recordCommit_repairs, frame.committed, frame.repairs, get_insert]
      split
      · -- The new index lies above every earlier repair.
        intro _
        have unrepaired : before.repairs.get index = none := by
          rw [eq_none_iff_forall_ne_some]
          intro repair known
          obtain ⟨header, _, retained, _⟩ := recorded.repairs index repair known
          have lt := below_of_increasing applied increasing _ (get_eq_some_iff.mp retained)
          omega
        have unlogged : lastRepair log index = none := by
          rw [eq_none_iff_forall_ne_some]
          intro repair known
          obtain ⟨last, last_eq, le⟩ := repaired.below index repair known
          have lt := increasing last last_eq
          omega
        exact unrepaired.trans unlogged.symm
      · exact repaired.retained index found
    · rw [recordCommit_lastApplied, frame.lastApplied]
      exact here.below
  | repaired target generation certificate after payload accepted =>
    obtain ⟨rfl, header, _, known, _⟩ := applyRepair_ok accepted
    have repair_eq : ∀ index, lastRepair (log ++ [entry]) index =
        if target = index then some ⟨generation, certificate, entry.logId⟩
        else lastRepair log index := by
      intro index
      simp only [lastRepair_concat, repairBy, payload]
      split <;> simp
    refine ⟨fun index found retained => ?_, fun index repair found => ?_⟩
    · rw [repair_eq, get_insert]
      split
      · rename_i index_eq
        rw [if_pos index_eq.symm]
      · rename_i index_ne
        rw [if_neg (Ne.symm index_ne)]
        exact repaired.retained index found retained
    · rw [repair_eq] at found
      split at found
      · rename_i index_eq
        subst index_eq
        have lt := below_of_increasing applied increasing _ (get_eq_some_iff.mp known)
        exact ⟨entry.logId, rfl, lt.le⟩
      · exact here.below index repair found
  | released throughLsn payload archived =>
    exact moved (here.prune _) (by simp [Entry.IsRepair, payload])

theorem ReplicaAt.repaired (replica : ReplicaAt log state) : Repaired log state := by
  induction replica with
  | empty => exact ⟨fun _ _ found => (by cases found), fun _ _ found => (by cases found)⟩
  | apply replica increasing step ih =>
    exact ih.applied replica.recorded replica.indicesApplied increasing (applied_of_applyEntry step)
  | buildSnapshot _ ih | installSnapshot _ ih => exact ih.buildSnapshot

/-- Replicas of one log that retain an index agree on its header, its log identity and its
repair. -/
theorem ReplicaAt.retained_agree {left right : StateMachineData} (left_replica : ReplicaAt log left)
    (right_replica : ReplicaAt log right) (left_found : left.committed.get index = some leftHeader)
    (right_found : right.committed.get index = some rightHeader) :
    leftHeader = rightHeader ∧ left.committedLogIds.get index = right.committedLogIds.get index ∧
      left.repairs.get index = right.repairs.get index := by
  have increasing := left_replica.increasing
  refine ⟨increasing.header_eq (left_replica.recorded.retained _ _ left_found)
    (right_replica.recorded.retained _ _ right_found), ?_, ?_⟩
  · obtain ⟨leftId, left_id⟩ := isSome_iff_exists.mp
      (left_replica.recorded.identified _ _ left_found)
    obtain ⟨rightId, right_id⟩ := isSome_iff_exists.mp
      (right_replica.recorded.identified _ _ right_found)
    obtain ⟨_, _, left_logged, left_index⟩ := left_replica.recorded.logIds _ _ left_id
    obtain ⟨_, _, right_logged, right_index⟩ := right_replica.recorded.logIds _ _ right_id
    have same := increasing.eq_of_index_eq left_logged right_logged
      (left_index.trans right_index.symm)
    have logId_eq : leftId = rightId := congrArg Entry.logId same
    rw [left_id, right_id, logId_eq]
  · rw [left_replica.repaired.retained _ _ left_found,
      right_replica.repaired.retained _ _ right_found]

end Verglas.Consensus
