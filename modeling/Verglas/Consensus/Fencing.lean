import Verglas.Consensus.History
import Verglas.Consensus.Snapshot

/-!
# Writer fencing

A timeline has at most one writer.  A lease is granted for the epoch after the current one, WAL
bytes and the release of a lease carry the current epoch, and all of these are decided where the
log is applied.  A writer whose epoch is over can therefore neither move the end of the WAL nor the
writer flag again, whatever snapshots and restarts its replicas go through.
-/

namespace Verglas.Consensus

open List Option

/-- What the writer fence reads is unchanged. -/
structure FenceFrame (before after : StateMachineData) : Prop where
  writerEpoch : after.writerEpoch = before.writerEpoch
  writerActive : after.writerActive = before.writerActive
  walInitialized : after.walInitialized = before.walInitialized
  walEnd : after.walEnd = before.walEnd

/-- An entry that records nothing leaves the fence alone; a recorded one passed it. -/
theorem recordedBy_cases (before : StateMachineData) (entry : Entry) :
    (recordedBy before entry = none ∧ FenceFrame before (applyEntry before entry).1) ∨
      ∃ header effect, recordedBy before entry = some (entry.logId.index, header) ∧
        entry.payload = .normal (.commit header) ∧
        epochValid { before with lastApplied := some entry.logId } header = true ∧
        applyMetadata { before with lastApplied := some entry.logId } entry.logId.index header =
          .ok effect ∧
        (applyEntry before entry).1 = recordCommit effect entry.logId header := by
  cases answer : (applyEntry before entry).2 with
  | error error =>
    left
    refine ⟨?_, ?_⟩
    · unfold recordedBy
      rw [answer]
      cases entry.payload with
      | blank | membership membership => rfl
      | normal command => cases command <;> rfl
    · rw [applyEntry_fst_of_error answer]
      exact ⟨rfl, rfl, rfl, rfl⟩
  | ok response =>
    obtain ⟨after, step⟩ : ∃ after, applyEntry before entry = (after, .ok response) :=
      ⟨_, Prod.ext rfl answer⟩
    rw [step]
    cases applied_of_applyEntry step with
    | blank payload | membership membership payload | released throughLsn payload archived =>
      exact .inl ⟨recordedBy_of_not_commit (by simp [payload]), rfl, rfl, rfl, rfl⟩
    | refused header _ payload closed known =>
      refine .inl ⟨?_, rfl, rfl, rfl, rfl⟩
      rw [recordedBy_of_commit payload step, if_neg closed]
    | recorded header effect payload fresh fenced transition =>
      refine .inr ⟨header, effect, ?_, payload, fenced, transition, rfl⟩
      rw [recordedBy_of_commit payload step]
      exact if_pos rfl
    | repaired index generation certificate _ payload accepted =>
      refine .inl ⟨recordedBy_of_not_commit (by simp [payload]), ?_⟩
      rw [(applyRepair_ok accepted).1]
      exact ⟨rfl, rfl, rfl, rfl⟩

variable {index : Nat} {header : EntryHeader} {effect : MetadataEffect} {state : StateMachineData}

theorem walEnd_of_applyMetadata (accepted : applyMetadata state index header = .ok effect)
    (initialized : state.walInitialized = true) (other : header.kind ≠ .wal) :
    effect.state.walEnd = state.walEnd := by
  generalize after_eq : effect.state = after
  have moved := walEffect_of_applyMetadata accepted
  rw [after_eq] at moved
  cases moved with
  | idle _ _ _ _ same => exact same
  | opened start metadata closed => simp [closed] at initialized
  | appended stop metadata =>
    have fits := header.fits
    rw [metadata] at fits
    exact absurd fits.1 other
  | archived segment metadata starts within => rfl

variable {epoch : Nat}

section RecordCommit

variable {state : StateMachineData} {logId : LogId} {header : EntryHeader}
  {effect : MetadataEffect}

theorem recordCommit_lease (lease : header.kind = .writerLease)
    (carried : header.writerEpoch = some epoch) :
    (recordCommit effect logId header).writerEpoch = epoch ∧
      (recordCommit effect logId header).writerActive = true := by
  simp [recordCommit, applyLease, lease, carried]

variable (accepted : applyMetadata state logId.index header = .ok effect)

include accepted

theorem recordCommit_release (release : header.kind = .releaseWriter) :
    (recordCommit effect logId header).writerEpoch = state.writerEpoch ∧
      (recordCommit effect logId header).writerActive = false := by
  have frame := metadataFrame_of_applyMetadata accepted
  simp [recordCommit, applyLease, release, frame.writerEpoch]

theorem recordCommit_other
    (not_lease : header.kind ≠ .writerLease) (not_release : header.kind ≠ .releaseWriter) :
    (recordCommit effect logId header).writerEpoch = state.writerEpoch ∧
      (recordCommit effect logId header).writerActive = state.writerActive := by
  have frame := metadataFrame_of_applyMetadata accepted
  simp [recordCommit, applyLease, not_lease, not_release, frame.writerEpoch, frame.writerActive]

theorem recordCommit_initialized (initialized : state.walInitialized = true) :
    (recordCommit effect logId header).walInitialized = true := by
  rw [recordCommit_walInitialized]
  generalize after_eq : effect.state = after
  have moved := walEffect_of_applyMetadata accepted
  rw [after_eq] at moved
  cases moved with
  | idle _ _ _ same => rw [same, initialized]
  | opened start metadata closed => rfl
  | appended stop metadata | archived segment metadata starts within => exact initialized

end RecordCommit

/-- Epochs of the recorded leases, in log order. -/
def leaseEpochs (history : List (Nat × EntryHeader)) : List (Option Nat) :=
  (history.filter fun commit => commit.2.kind = .writerLease).map fun commit =>
    commit.2.writerEpoch

/-- The lease of an epoch has been given back. -/
def ReleasedIn (history : List (Nat × EntryHeader)) (epoch : Nat) : Prop :=
  ∃ commit ∈ history, commit.2.kind = .releaseWriter ∧ commit.2.writerEpoch = some epoch

/-- An epoch is over: the next lease or its release has been recorded. -/
def SupersededIn (history : List (Nat × EntryHeader)) (epoch : Nat) : Prop :=
  some (epoch + 1) ∈ leaseEpochs history ∨ ReleasedIn history epoch

/-- The fence in terms of the history. -/
structure Fenced (history : List (Nat × EntryHeader)) (state : StateMachineData) : Prop where
  epochs : leaseEpochs history = (List.range state.writerEpoch).map fun epoch => some (epoch + 1)
  released : ∀ epoch, ReleasedIn history epoch → 0 < epoch ∧ epoch ≤ state.writerEpoch
  held : state.writerActive = true → ¬ ReleasedIn history state.writerEpoch
  leased : state.writerActive = true → 0 < state.writerEpoch
  initialized : 0 < state.writerEpoch → state.walInitialized = true

theorem fenced_empty : Fenced [] {} where
  epochs := rfl
  released epoch released := by
    obtain ⟨commit, member, _⟩ := released
    cases member
  held active := by cases active
  leased active := by cases active
  initialized positive := absurd positive (Nat.lt_irrefl 0)

theorem leaseEpochs_concat (history : List (Nat × EntryHeader)) (commit : Nat × EntryHeader) :
    leaseEpochs (history ++ [commit]) =
      leaseEpochs history ++
        if commit.2.kind = .writerLease then [commit.2.writerEpoch] else [] := by
  rw [leaseEpochs, filter_append, map_append]
  split <;> simp_all [leaseEpochs]

theorem releasedIn_concat {history : List (Nat × EntryHeader)} {commit : Nat × EntryHeader} :
    ReleasedIn (history ++ [commit]) epoch ↔
      ReleasedIn history epoch ∨
        (commit.2.kind = .releaseWriter ∧ commit.2.writerEpoch = some epoch) := by
  simp only [ReleasedIn, mem_append, mem_singleton]
  constructor
  · rintro ⟨found, member | rfl, kind, carried⟩
    · exact .inl ⟨found, member, kind, carried⟩
    · exact .inr ⟨kind, carried⟩
  · rintro (⟨found, member, kind, carried⟩ | ⟨kind, carried⟩)
    · exact ⟨found, .inl member, kind, carried⟩
    · exact ⟨commit, .inr rfl, kind, carried⟩

theorem Fenced.frame {history : List (Nat × EntryHeader)} {before after : StateMachineData}
    (fenced : Fenced history before) (frame : FenceFrame before after) :
    Fenced history after where
  epochs := by rw [frame.writerEpoch]; exact fenced.epochs
  released := by rw [frame.writerEpoch]; exact fenced.released
  held := by rw [frame.writerActive, frame.writerEpoch]; exact fenced.held
  leased := by rw [frame.writerActive, frame.writerEpoch]; exact fenced.leased
  initialized := by rw [frame.writerEpoch, frame.walInitialized]; exact fenced.initialized

section Record

variable {history : List (Nat × EntryHeader)} {state : StateMachineData} {logId : LogId}
  {header : EntryHeader} {effect : MetadataEffect} (fenced : Fenced history state)

include fenced

theorem Fenced.carries (admitted : epochValid state header = true)
    (kind : header.kind = .wal ∨ header.kind = .releaseWriter) :
    ∃ epoch, header.writerEpoch = some epoch ∧
      (leaseEpochs history).getLast? = some (some epoch) ∧ ¬ ReleasedIn history epoch := by
  have current : state.writerActive = true ∧ header.writerEpoch = some state.writerEpoch := by
    rcases kind with wal | release
    · simpa [epochValid, wal] using admitted
    · simpa [epochValid, release] using admitted
  refine ⟨state.writerEpoch, current.2, ?_, fenced.held current.1⟩
  obtain ⟨previous, epoch_eq⟩ := Nat.exists_eq_succ_of_ne_zero (fenced.leased current.1).ne'
  rw [fenced.epochs, epoch_eq, range_succ, map_append, map_singleton, getLast?_concat]

/-- An epoch that is over passes the fence with commands only that have no part in it. -/
theorem Fenced.over (superseded : SupersededIn history epoch) :
    0 < state.writerEpoch ∧ epoch ≤ state.writerEpoch ∧
      (state.writerActive = true → epoch ≠ state.writerEpoch) := by
  rcases superseded with next | released
  · rw [fenced.epochs] at next
    obtain ⟨earlier, member, epoch_eq⟩ := mem_map.mp next
    rw [mem_range] at member
    rw [some.injEq] at epoch_eq
    omega
  · obtain ⟨positive, within⟩ := fenced.released epoch released
    refine ⟨by omega, within, ?_⟩
    rintro active rfl
    exact fenced.held active released

theorem Fenced.refuses (superseded : SupersededIn history epoch)
    (carried : header.writerEpoch = some epoch) (admitted : epochValid state header = true) :
    header.kind ≠ .writerLease ∧ header.kind ≠ .releaseWriter ∧ header.kind ≠ .wal := by
  obtain ⟨_, within, inactive⟩ := fenced.over superseded
  refine ⟨?_, ?_, ?_⟩
  · intro kind
    simp only [epochValid, kind, carried, Bool.and_eq_true, decide_eq_true_eq,
      some.injEq] at admitted
    omega
  · intro kind
    simp only [epochValid, kind, carried, Bool.and_eq_true, decide_eq_true_eq,
      some.injEq] at admitted
    exact inactive admitted.1 admitted.2
  · intro kind
    simp only [epochValid, kind, carried, Bool.and_eq_true, decide_eq_true_eq,
      some.injEq] at admitted
    exact inactive admitted.1 admitted.2

variable (accepted : applyMetadata state logId.index header = .ok effect)

include accepted

theorem Fenced.lease (admitted : epochValid state header = true)
    (lease : header.kind = .writerLease) :
    Fenced (history ++ [(logId.index, header)]) (recordCommit effect logId header) := by
  simp only [epochValid, lease, Bool.and_eq_true, decide_eq_true_eq] at admitted
  obtain ⟨started, carried⟩ := admitted
  obtain ⟨epoch_eq, active_eq⟩ := recordCommit_lease lease carried
  have released_iff (epoch : Nat) : ReleasedIn (history ++ [(logId.index, header)]) epoch ↔
      ReleasedIn history epoch := by
    rw [releasedIn_concat]
    simp [lease]
  refine ⟨?_, ?_, ?_, ?_, ?_⟩
  · rw [leaseEpochs_concat, if_pos lease, fenced.epochs, carried, epoch_eq, range_succ,
      map_append, map_singleton]
  · intro epoch released
    have older := fenced.released epoch ((released_iff epoch).mp released)
    rw [epoch_eq]
    omega
  · intro _ released
    rw [epoch_eq, released_iff] at released
    have older := fenced.released _ released
    omega
  · intro _
    rw [epoch_eq]
    omega
  · intro _
    exact recordCommit_initialized accepted started

theorem Fenced.release (admitted : epochValid state header = true)
    (release : header.kind = .releaseWriter) :
    Fenced (history ++ [(logId.index, header)]) (recordCommit effect logId header) := by
  simp only [epochValid, release, Bool.and_eq_true, decide_eq_true_eq] at admitted
  obtain ⟨active, carried⟩ := admitted
  obtain ⟨epoch_eq, active_eq⟩ := recordCommit_release accepted release
  refine ⟨?_, ?_, ?_, ?_, ?_⟩
  · rw [leaseEpochs_concat, if_neg (by simp [release]), append_nil, fenced.epochs, epoch_eq]
  · intro epoch released
    rw [epoch_eq]
    rcases releasedIn_concat.mp released with older | ⟨_, here⟩
    · exact fenced.released epoch older
    · have epoch_now : state.writerEpoch = epoch := some.inj (carried.symm.trans here)
      have positive := fenced.leased active
      omega
  · intro still_active
    rw [active_eq] at still_active
    cases still_active
  · intro still_active
    rw [active_eq] at still_active
    cases still_active
  · intro positive
    rw [epoch_eq] at positive
    exact recordCommit_initialized accepted (fenced.initialized positive)

theorem Fenced.other
    (not_lease : header.kind ≠ .writerLease) (not_release : header.kind ≠ .releaseWriter) :
    Fenced (history ++ [(logId.index, header)]) (recordCommit effect logId header) := by
  obtain ⟨epoch_eq, active_eq⟩ := recordCommit_other accepted not_lease not_release
  have released_iff (epoch : Nat) : ReleasedIn (history ++ [(logId.index, header)]) epoch ↔
      ReleasedIn history epoch := by
    rw [releasedIn_concat]
    simp [not_release]
  refine ⟨?_, ?_, ?_, ?_, ?_⟩
  · rw [leaseEpochs_concat, if_neg not_lease, append_nil, fenced.epochs, epoch_eq]
  · intro epoch released
    rw [epoch_eq]
    exact fenced.released epoch ((released_iff epoch).mp released)
  · intro active released
    rw [active_eq] at active
    rw [epoch_eq, released_iff] at released
    exact fenced.held active released
  · intro active
    rw [active_eq] at active
    rw [epoch_eq]
    exact fenced.leased active
  · intro positive
    rw [epoch_eq] at positive
    exact recordCommit_initialized accepted (fenced.initialized positive)

theorem Fenced.record (admitted : epochValid state header = true) :
    Fenced (history ++ [(logId.index, header)]) (recordCommit effect logId header) := by
  by_cases lease : header.kind = .writerLease
  · exact fenced.lease accepted admitted lease
  by_cases release : header.kind = .releaseWriter
  · exact fenced.release accepted admitted release
  exact fenced.other accepted lease release

end Record

theorem fenced_replay (log : List Entry) : Fenced (history log) (replay log) := by
  induction log using reverseRecOn with
  | nil => exact fenced_empty
  | append_singleton log entry ih =>
    rw [history_concat, replay_concat]
    rcases recordedBy_cases (replay log) entry with
      ⟨nothing, frame⟩ | ⟨header, effect, recorded, _, admitted, accepted, after_eq⟩
    · rw [nothing, toList_none, append_nil]
      exact ih.frame frame
    · rw [recorded, after_eq, toList_some]
      have stamped : Fenced (history log)
          { replay log with lastApplied := some entry.logId } := ih.frame ⟨rfl, rfl, rfl, rfl⟩
      exact stamped.record accepted admitted

theorem carries_of_history (log : List Entry) :
    ∀ front index header back, history log = front ++ (index, header) :: back →
      (header.kind = .wal ∨ header.kind = .releaseWriter) →
      ∃ epoch, header.writerEpoch = some epoch ∧
        (leaseEpochs front).getLast? = some (some epoch) ∧ ¬ ReleasedIn front epoch := by
  induction log using reverseRecOn with
  | nil =>
    intro front index header back split_eq
    simp [history, historyFrom] at split_eq
  | append_singleton log entry ih =>
    intro front index header back split_eq kind
    rw [history_concat] at split_eq
    rcases recordedBy_cases (replay log) entry with
      ⟨nothing, _⟩ | ⟨found, effect, recorded, _, admitted, _⟩
    · rw [nothing, toList_none, append_nil] at split_eq
      exact ih front index header back split_eq kind
    · rw [recorded, toList_some] at split_eq
      rcases eq_nil_or_concat back with rfl | ⟨rest, last, rfl⟩
      · obtain ⟨front_eq, here⟩ := append_inj' split_eq rfl
        cases here
        rw [← front_eq]
        exact (fenced_replay log).carries admitted kind
      · rw [concat_eq_append, ← cons_append, ← append_assoc] at split_eq
        exact ih front index header rest (append_inj' split_eq rfl).1 kind

/-- An entry of an epoch that is over moves neither the end of the WAL nor the writer flag. -/
theorem superseded_entry_harmless {log : List Entry} (follows : state.core = (replay log).core)
    {entry : Entry} (payload : entry.payload = .normal (.commit header))
    (carried : header.writerEpoch = some epoch) (superseded : SupersededIn (history log) epoch) :
    (applyEntry state entry).1.walEnd = state.walEnd ∧
      (applyEntry state entry).1.writerActive = state.writerActive := by
  have same := sameState_of_core follows
  have fenced : Fenced (history log) { state with lastApplied := some entry.logId } :=
    (fenced_replay log).frame
      ⟨same.writerEpoch, same.writerActive, same.walInitialized, same.walEnd⟩
  rcases recordedBy_cases state entry with
    ⟨_, frame⟩ | ⟨found, effect, _, found_payload, admitted, accepted, after_eq⟩
  · exact ⟨frame.walEnd, frame.writerActive⟩
  rw [payload] at found_payload
  cases found_payload
  obtain ⟨not_lease, not_release, not_wal⟩ := fenced.refuses superseded carried admitted
  have initialized := fenced.initialized (fenced.over superseded).1
  have end_eq := walEnd_of_applyMetadata accepted initialized not_wal
  rw [after_eq, recordCommit_walEnd]
  exact ⟨end_eq, (recordCommit_other accepted not_lease not_release).2⟩

/-- The leases of a log have the epochs one, two, three and so on; every recorded WAL or release
carries the epoch of the latest lease and precedes its release; and once the next lease or the
release of an epoch is recorded, no entry of that epoch moves the end of the WAL or the writer flag
of any replica, wherever replicas build snapshots, restart or install them. -/
theorem writer_fencing {ι : Type*} [DecidableEq ι] (log : List Entry) :
    (∃ count, leaseEpochs (history log) = (List.range count).map fun epoch => some (epoch + 1)) ∧
      (∀ front index header back, history log = front ++ (index, header) :: back →
        (header.kind = .wal ∨ header.kind = .releaseWriter) →
        ∃ epoch, header.writerEpoch = some epoch ∧
          (leaseEpochs front).getLast? = some (some epoch) ∧ ¬ ReleasedIn front epoch) ∧
      ∀ cluster : Cluster ι, Relation.ReflTransGen (ClusterStep log) {} cluster →
        ∀ id entry header epoch, log[(cluster.nodes id).position]? = some entry →
          entry.payload = .normal (.commit header) → header.writerEpoch = some epoch →
          SupersededIn (history (log.take (cluster.nodes id).position)) epoch →
          (applyEntry (cluster.nodes id).state entry).1.walEnd =
              (cluster.nodes id).state.walEnd ∧
            (applyEntry (cluster.nodes id).state entry).1.writerActive =
              (cluster.nodes id).state.writerActive := by
  refine ⟨⟨_, (fenced_replay log).epochs⟩, carries_of_history log, ?_⟩
  intro cluster run id entry header epoch _ payload carried superseded
  exact superseded_entry_harmless (Cluster.nodes_faithful_of_run run id).state payload carried
    superseded

def staleAppend : Entry :=
  inlineEntry "timeline" 6 .wal (some 1) [5, 6, 7, 8]
    "55e5509f8052998294266ee5b50cb592938191fb5d67f73cac2e60b0276b1bdd"
    (.wal 4 8) append_fits timeline_ne_empty

/-- The first writer appends again after a second one has taken the lease. -/
def takenOver : List Entry :=
  shortTimeline.take 4 ++
    [ inlineEntry "timeline" 5 .writerLease (some 2) []
        "e3b0c44298fc1c149afbf4c8996fb92427ae41e4649b934ca495991b7852b855"
        .none lease_fits timeline_ne_empty,
      staleAppend ]

/-- The late append leaves the end of the WAL where the second lease found it. -/
theorem writer_fencing_taken_over :
    leaseEpochs (history takenOver) = [some 1, some 2] ∧
      ∃ cluster : Cluster Unit, (cluster.nodes ()).position = 5 ∧
        (cluster.nodes ()).state.walEnd = 4 ∧
        (applyEntry (cluster.nodes ()).state staleAppend).1.walEnd =
          (cluster.nodes ()).state.walEnd := by
  have run : Relation.ReflTransGen (ClusterStep takenOver) ({} : Cluster Unit) _ :=
    ((((Relation.ReflTransGen.refl.tail (.apply () rfl rfl)).tail (.apply () rfl rfl)).tail
      (.apply () rfl rfl)).tail (.apply () rfl rfl)).tail (.apply () rfl rfl)
  have superseded : SupersededIn (history (takenOver.take 5)) 1 := .inl (by decide)
  have harmless := (writer_fencing takenOver).2.2 _ run () staleAppend _ 1 rfl rfl rfl superseded
  exact ⟨by decide, _, rfl, by decide, harmless.1⟩

end Verglas.Consensus
