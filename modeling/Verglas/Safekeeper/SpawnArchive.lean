import Verglas.Safekeeper.Archiver

/-!
# Triggers of the archiver

An acknowledged append triggers the archiver of its timeline on the node that served it.  A trigger
that finds a task of the timeline in flight on the node is dropped, since the task will look at the
committed end again; a task clears its in-flight mark some time after it has looked for the last
time.  A trigger in between is lost, and a complete segment may be left without an archiver.
-/

namespace Verglas.Safekeeper

open Consensus List Function

/-- No retry identity reports an end beyond the tail. -/
def EndsBelow (state : StateMachineData) : Prop :=
  ∀ request identity reported, state.retries.get request = some identity →
    identity.walEnd = some reported → reported ≤ state.walEnd

variable {state : StateMachineData} {header : EntryHeader} {start later checkpointed stop : Nat}

theorem walEnd_le_of_applyMetadata (settled : Settled state) {index : Nat} {effect : MetadataEffect}
    (accepted : applyMetadata state index header = .ok effect) :
    state.walEnd ≤ effect.state.walEnd ∧
      ∀ reported, effect.walEnd = some reported → reported ≤ effect.state.walEnd := by
  cases metadata : header.metadata with
  | walStart start =>
    simp only [applyMetadata, metadata] at accepted
    split at accepted
    · split at accepted
      · cases accepted
      cases accepted
      refine ⟨le_rfl, fun reported same => ?_⟩
      cases same
      exact le_rfl
    · rename_i closed
      cases accepted
      refine ⟨?_, fun reported same => ?_⟩
      · rw [(settled (by simpa using closed)).2.1]
        exact Nat.zero_le _
      · cases same
        exact le_rfl
  | wal start stop =>
    have fits := header.fits
    rw [metadata] at fits
    simp only [applyMetadata, metadata] at accepted
    split at accepted
    · cases accepted
    cases accepted
    have length := fits.2
    refine ⟨?_, fun reported same => ?_⟩
    · dsimp only
      omega
    · cases same
      exact le_rfl
  | _ =>
    simp only [applyMetadata, metadata] at accepted
    repeat' split at accepted
    all_goals
      cases accepted
      try exact ⟨le_rfl, fun _ same => by cases same⟩

theorem EndsBelow.applyEntry (below : EndsBelow state) (settled : Settled state) (entry : Entry) :
    EndsBelow (applyEntry state entry).1 ∧
      state.walEnd ≤ (Consensus.applyEntry state entry).1.walEnd := by
  rcases applyEntry_cases state entry with ⟨response, step⟩ | unchanged
  · generalize (Consensus.applyEntry state entry).1 = after at step
    cases step with
    | recorded header effect payload fresh fenced transition =>
      obtain ⟨forward, reports⟩ := walEnd_le_of_applyMetadata (by exact settled) transition
      have retries_eq : effect.state.retries = state.retries :=
        (metadataFrame_of_applyMetadata transition).retries
      refine ⟨fun request identity reported known reports_end => ?_, by
        rw [recordCommit_walEnd]; exact forward⟩
      rw [recordCommit_walEnd]
      rw [recordCommit_retries, OrderedMap.get_insert] at known
      split at known
      · cases known
        simp only [appliedIdentity] at reports_end
        split at reports_end
        · cases reports_end
          exact le_rfl
        · exact reports reported reports_end
      · rw [retries_eq] at known
        exact (below request identity reported known reports_end).trans forward
    | repaired index generation certificate after payload accepted =>
      rw [(applyRepair_ok accepted).1]
      exact ⟨below, le_rfl⟩
    | _ => exact ⟨below, le_rfl⟩
  · rw [unchanged]
    exact ⟨below, le_rfl⟩

theorem endsBelow_replay (log : List Entry) : EndsBelow (replay log) := by
  induction log using reverseRecOn with
  | nil =>
    intro request identity reported known
    cases known
  | append_singleton log entry induction =>
    rw [replay_concat]
    exact (induction.applyEntry (settled_replay log) entry).1

theorem walEnd_replay_concat (log : List Entry) (entry : Entry) :
    (replay log).walEnd ≤ (replay (log ++ [entry])).walEnd := by
  rw [replay_concat]
  exact ((endsBelow_replay log).applyEntry (settled_replay log) entry).2

/-- Neither the end of the WAL nor the archived position ever moves back. -/
theorem wal_never_moves_back (log more : List Entry) :
    (replay log).walEnd ≤ (replay (log ++ more)).walEnd ∧
      (replay log).archiveLsn ≤ (replay (log ++ more)).archiveLsn := by
  refine ⟨?_, archiveLsn_replay_append log more⟩
  induction more using reverseRecOn with
  | nil => rw [append_nil]
  | append_singleton more entry ih =>
    rw [← append_assoc]
    exact ih.trans (walEnd_replay_concat _ _)

/-- A complete segment lies behind the checkpointed end and not beyond `stop`. -/
def SegmentWaits (checkpointed stop : Nat) : Prop :=
  checkpointed < segmentEnd checkpointed ∧ segmentEnd checkpointed ≤ stop

instance (checkpointed stop : Nat) : Decidable (SegmentWaits checkpointed stop) :=
  inferInstanceAs (Decidable (_ ∧ _))

theorem segmentEnd_eq (start : Nat) :
    segmentEnd start = min (walSegmentBytes * (start / walSegmentBytes + 1)) (2 ^ 64 - 1) := by
  have split := Nat.div_add_mod start walSegmentBytes
  have small : start % walSegmentBytes < walSegmentBytes := Nat.mod_lt _ (by decide)
  rw [segmentEnd, Nat.mul_add, Nat.mul_one]
  split
  · congr 1
    omega
  · congr 1
    omega

theorem segmentEnd_mono (ordered : start ≤ later) : segmentEnd start ≤ segmentEnd later := by
  rw [segmentEnd_eq, segmentEnd_eq]
  exact min_le_min_right _ (Nat.mul_le_mul_left _
    (Nat.add_le_add_right (Nat.div_le_div_right ordered) 1))

theorem segmentEnd_le (start : Nat) : segmentEnd start ≤ 2 ^ 64 - 1 := by
  rw [segmentEnd_eq]
  exact min_le_right _ _

theorem segmentEnd_eq_max (stuck : segmentEnd start ≤ start) : segmentEnd start = 2 ^ 64 - 1 := by
  have split := Nat.div_add_mod start walSegmentBytes
  have small : start % walSegmentBytes < walSegmentBytes := Nat.mod_lt _ (by decide)
  rw [segmentEnd_eq, Nat.mul_add, Nat.mul_one] at stuck ⊢
  omega

/-- Nothing begins to wait when the checkpoint moves forward. -/
theorem SegmentWaits.of_later (ordered : checkpointed ≤ later) (waits : SegmentWaits later stop) :
    SegmentWaits checkpointed stop := by
  obtain ⟨proper, complete⟩ := waits
  have mono := segmentEnd_mono ordered
  refine ⟨?_, mono.trans complete⟩
  by_contra stuck
  have top := segmentEnd_eq_max (not_lt.mp stuck)
  have limit := segmentEnd_le later
  omega

theorem SegmentWaits.mono {further : Nat} (ordered : stop ≤ further)
    (waits : SegmentWaits checkpointed stop) : SegmentWaits checkpointed further :=
  ⟨waits.1, waits.2.trans ordered⟩

/-- Where an archive task stands. -/
inductive ArchivePhase where
  | resolving
  | reading
  | archiving (stop : Nat)
  /-- It has read the ends for the last time, or failed to resolve; the in-flight mark stands. -/
  | leaving
  deriving DecidableEq

/-- The archive tasks of one timeline on one node. -/
structure NodeArchiver where
  inflight : Bool := false
  tasks : List ArchivePhase := []

/-- `spawn_archive`: start a task unless one is in flight. -/
def NodeArchiver.spawnArchive (node : NodeArchiver) : NodeArchiver :=
  if node.inflight then node else ⟨true, node.tasks ++ [.resolving]⟩

/-- One timeline group and its archive tasks on every node. -/
@[ext] structure TriggerSystem (Node : Type*) where
  log : List Entry := []
  nodes : Node → NodeArchiver := fun _ => {}
  /-- Acknowledged appends whose `spawn_archive` has not run yet: the node and the reported end. -/
  calls : List (Node × Nat) := []
  acknowledged : List Nat := []

/-- The kinds of steps. -/
inductive TriggerLabel (Node : Type*) where
  | commit
  | acknowledge
  | call (node : Node)
  | resolve (found : Bool)
  | task

variable {Node : Type*} [DecidableEq Node]

/-- Move a task to a phase. -/
def TriggerSystem.advance (system : TriggerSystem Node) (node : Node) (task : Nat)
    (phase : ArchivePhase) : TriggerSystem Node :=
  { system with
    nodes := update system.nodes node
      { system.nodes node with tasks := (system.nodes node).tasks.set task phase } }

/-- One task of a node ends, and its guard clears the mark. -/
def TriggerSystem.leave (system : TriggerSystem Node) (node : Node) (task : Nat) :
    TriggerSystem Node :=
  { system with
    nodes := update system.nodes node
      ⟨false, (system.nodes node).tasks.eraseIdx task⟩ }

@[simp] theorem TriggerSystem.tasks_advance (system : TriggerSystem Node) (node : Node) (task : Nat)
    (phase : ArchivePhase) : ((system.advance node task phase).nodes node).tasks =
      (system.nodes node).tasks.set task phase := by
  simp [advance]

/-- What a task does after it has read the ends. -/
def afterStatus (committed checkpointed : Nat) : ArchivePhase :=
  if SegmentWaits checkpointed committed then .archiving (segmentEnd checkpointed) else .leaving

/-- One step of the group, of a request handler or of an archive task. -/
inductive TriggerStep (system : TriggerSystem Node) :
    TriggerLabel Node → TriggerSystem Node → Prop
  | commit (entry : Entry) :
      TriggerStep system .commit { system with log := system.log ++ [entry] }
  | acknowledge (node : Node) {header : EntryHeader} {response : RaftResponse} {reported : Nat}
      (answered : Answered system.log header response) (append : header.kind = .wal)
      (acknowledged : response.outcome = .committed ∨ response.outcome = .duplicate)
      (reports : response.walEnd = some reported) :
      TriggerStep system .acknowledge
        { system with
          calls := system.calls ++ [(node, reported)]
          acknowledged := system.acknowledged ++ [reported] }
  | call {node : Node} {reported call : Nat}
      (called : system.calls[call]? = some (node, reported)) :
      TriggerStep system (.call node)
        { system with
          nodes := update system.nodes node (system.nodes node).spawnArchive
          calls := system.calls.eraseIdx call }
  | resolve {node : Node} {task : Nat} (found : Bool)
      (running : (system.nodes node).tasks[task]? = some .resolving) :
      TriggerStep system (.resolve found)
        (system.advance node task (if found then .reading else .leaving))
  | read {node : Node} {task : Nat}
      (running : (system.nodes node).tasks[task]? = some .reading) :
      TriggerStep system .task
        (system.advance node task
          (afterStatus (replay system.log).walEnd (replay system.log).archiveLsn))
  | archived {node : Node} {task stop : Nat}
      (running : (system.nodes node).tasks[task]? = some (.archiving stop))
      (checkpointed : stop ≤ (replay system.log).archiveLsn) :
      TriggerStep system .task (system.advance node task .reading)
  | failed {node : Node} {task stop : Nat}
      (running : (system.nodes node).tasks[task]? = some (.archiving stop)) :
      TriggerStep system .task (system.advance node task .reading)
  | leave {node : Node} {task : Nat}
      (running : (system.nodes node).tasks[task]? = some .leaving) :
      TriggerStep system .task (system.leave node task)

/-- No trigger comes to a node whose task has looked for the last time, and the archive bucket of
the timeline is found. -/
def Prompt (system : TriggerSystem Node) : TriggerLabel Node → Prop
  | .call node => .leaving ∉ (system.nodes node).tasks
  | .resolve found => found = true
  | _ => True

/-- Runs whose steps are all allowed in the state before them. -/
inductive TriggerRun (Allowed : TriggerSystem Node → TriggerLabel Node → Prop) :
    TriggerSystem Node → Prop
  | start : TriggerRun Allowed {}
  | step {before after : TriggerSystem Node} {label : TriggerLabel Node}
      (run : TriggerRun Allowed before) (allowed : Allowed before label)
      (step : TriggerStep before label after) : TriggerRun Allowed after

/-- A node has at most one task, and its mark stands exactly while it has one. -/
structure NodeArchiver.Sound (node : NodeArchiver) : Prop where
  marked : node.inflight = true ↔ node.tasks ≠ []
  single : node.tasks.length ≤ 1

/-- Some task will read the ends again. -/
def TriggerSystem.Active (system : TriggerSystem Node) : Prop :=
  ∃ node, ∃ phase ∈ (system.nodes node).tasks, phase ≠ .leaving

/-- A complete segment below an acknowledged end waits for a trigger that is under way, or for a
task that will read the ends again. -/
structure TriggerSystem.Watched (system : TriggerSystem Node) : Prop where
  nodes : ∀ node, (system.nodes node).Sound
  reached : ∀ reported ∈ system.acknowledged, reported ≤ (replay system.log).walEnd
  attended : ∀ reported ∈ system.acknowledged,
    SegmentWaits (replay system.log).archiveLsn reported →
      (∃ node, (node, reported) ∈ system.calls) ∨ system.Active

section Watched

variable {system : TriggerSystem Node}

omit [DecidableEq Node] in
theorem watched_start : ({} : TriggerSystem Node).Watched where
  nodes _ := ⟨by simp, by simp⟩
  reached _ member := absurd member List.not_mem_nil
  attended _ member := absurd member List.not_mem_nil

theorem NodeArchiver.Sound.spawnArchive {node : NodeArchiver} (sound : node.Sound) :
    node.spawnArchive.Sound := by
  rw [NodeArchiver.spawnArchive]
  split
  · exact sound
  rename_i free
  have none : node.tasks = [] := by
    by_contra some
    exact free (sound.marked.mpr some)
  exact ⟨by simp, by simp [none]⟩

theorem NodeArchiver.Sound.active_spawnArchive {node : NodeArchiver} (sound : node.Sound)
    (prompt : .leaving ∉ node.tasks) : ∃ phase ∈ node.spawnArchive.tasks, phase ≠ .leaving := by
  rw [NodeArchiver.spawnArchive]
  split
  · rename_i marked
    obtain ⟨phase, member⟩ := exists_mem_of_ne_nil _ (sound.marked.mp marked)
    exact ⟨phase, member, fun same => prompt (same ▸ member)⟩
  · exact ⟨.resolving, by simp, by simp⟩

theorem TriggerSystem.Watched.nodes_advance (watched : system.Watched) (node : Node) (task : Nat)
    (phase : ArchivePhase) (other : Node) :
    ((system.advance node task phase).nodes other).Sound := by
  have sound := watched.nodes node
  have moved : NodeArchiver.Sound
      { system.nodes node with tasks := (system.nodes node).tasks.set task phase } :=
    ⟨by rw [sound.marked, ne_eq, ne_eq, set_eq_nil_iff], by
      rw [length_set]; exact sound.single⟩
  exact (forall_update_iff system.nodes (p := fun _ found => found.Sound)).mpr
    ⟨moved, fun place _ => watched.nodes place⟩ other

variable {node : Node} {task : Nat}

theorem TriggerSystem.Watched.advance (watched : system.Watched) {before phase : ArchivePhase}
    (running : (system.nodes node).tasks[task]? = some before) (stays : phase ≠ .leaving) :
    (system.advance node task phase).Watched where
  nodes := watched.nodes_advance node task phase
  reached := watched.reached
  attended _ _ _ := by
    have bound := (List.getElem?_eq_some_iff.mp running).1
    refine .inr ⟨node, phase, ?_, stays⟩
    rw [TriggerSystem.tasks_advance]
    exact List.mem_set bound phase

/-- A task leaves only when no segment below the committed end is left. -/
theorem TriggerSystem.Watched.read (watched : system.Watched)
    (running : (system.nodes node).tasks[task]? = some .reading) :
    (system.advance node task
      (afterStatus (replay system.log).walEnd (replay system.log).archiveLsn)).Watched := by
  rw [afterStatus]
  split
  · exact watched.advance running (by simp)
  · rename_i done
    exact ⟨watched.nodes_advance node task _, watched.reached, fun reported member waits =>
      absurd (waits.mono (watched.reached reported member)) done⟩

theorem TriggerSystem.Watched.leave (watched : system.Watched)
    (running : (system.nodes node).tasks[task]? = some .leaving) :
    (system.leave node task).Watched := by
  have alone : (system.nodes node).tasks = [.leaving] ∧ task = 0 := by
    obtain ⟨bound, found⟩ := List.getElem?_eq_some_iff.mp running
    have single := (watched.nodes node).single
    obtain ⟨only, tasks_eq⟩ := length_eq_one_iff.mp
      (show (system.nodes node).tasks.length = 1 by omega)
    have first : task = 0 := by omega
    subst first
    simp only [tasks_eq, getElem_cons_zero] at found
    exact ⟨by rw [tasks_eq, found], rfl⟩
  refine ⟨?_, watched.reached, fun reported member waits => ?_⟩
  · refine (forall_update_iff system.nodes (p := fun _ found => found.Sound)).mpr
      ⟨?_, fun place _ => watched.nodes place⟩
    rw [alone.1, alone.2]
    exact ⟨by simp, by simp⟩
  · refine (watched.attended reported member waits).imp_right ?_
    rintro ⟨other, phase, running_other, stays⟩
    have apart : other ≠ node := by
      rintro rfl
      rw [alone.1] at running_other
      exact stays (mem_singleton.mp running_other)
    refine ⟨other, phase, ?_, stays⟩
    simpa [TriggerSystem.leave, apart] using running_other

theorem TriggerSystem.Watched.step (watched : system.Watched) {label : TriggerLabel Node}
    {after : TriggerSystem Node} (prompt : Prompt system label)
    (step : TriggerStep system label after) : after.Watched := by
  cases step with
  | commit entry =>
    refine ⟨watched.nodes, fun reported member => ?_, fun reported member waits => ?_⟩
    · exact (watched.reached reported member).trans (walEnd_replay_concat _ entry)
    · exact watched.attended reported member (waits.of_later (archiveLsn_replay_concat _ entry))
  | @acknowledge node header response reported answered append acknowledged reports =>
    refine ⟨watched.nodes, fun other member => ?_, fun other member waits => ?_⟩
    · rcases mem_append.mp member with earlier | new
      · exact watched.reached other earlier
      rw [mem_singleton.mp new]
      obtain ⟨position, logId, logged, answer⟩ := answered
      obtain ⟨identity, known, _, _, walEnd_eq, _⟩ := identity_at_later
        (lt_of_lt_of_le (Nat.lt_succ_self position) (le_max_left _ system.log.length)) logged
        answer acknowledged
      rw [take_of_length_le (le_max_right _ _)] at known
      exact endsBelow_replay _ _ identity reported known (walEnd_eq.trans reports)
    · rcases mem_append.mp member with earlier | new
      · refine (watched.attended other earlier waits).imp_left ?_
        rintro ⟨place, called⟩
        exact ⟨place, mem_append_left _ called⟩
      · rw [mem_singleton.mp new]
        exact .inl ⟨node, mem_append_right _ (mem_singleton.mpr rfl)⟩
  | @call node reported call called =>
    have sound := watched.nodes node
    refine ⟨?_, watched.reached, fun other member waits => .inr ?_⟩
    · exact (forall_update_iff system.nodes (p := fun _ found => found.Sound)).mpr
        ⟨sound.spawnArchive, fun place _ => watched.nodes place⟩
    · obtain ⟨phase, running, stays⟩ := sound.active_spawnArchive prompt
      refine ⟨node, phase, ?_, stays⟩
      simpa only [update_self] using running
  | resolve found running =>
    have resolved : found = true := prompt
    subst resolved
    exact watched.advance running (by simp)
  | read running => exact watched.read running
  | archived running | failed running => exact watched.advance running (by simp)
  | leave running => exact watched.leave running

theorem TriggerRun.watched (run : TriggerRun Prompt system) : system.Watched := by
  induction run with
  | start => exact watched_start
  | step _ allowed step induction => exact induction.step allowed step

end Watched

/-- In a run in which no trigger comes to a node whose task has looked for the last time, and every
archive bucket is found: when no task runs and no trigger is under way, no complete segment below an
acknowledged end waits behind the checkpointed end. -/
theorem no_segment_left_behind {system : TriggerSystem Node} (run : TriggerRun Prompt system)
    (idle : ∀ node, (system.nodes node).tasks = []) (returned : system.calls = []) :
    ∀ reported ∈ system.acknowledged,
      ¬SegmentWaits (replay system.log).archiveLsn reported := by
  intro reported member waits
  rcases run.watched.attended reported member waits with ⟨node, called⟩ | ⟨node, phase, running, _⟩
  · rw [returned] at called
    cases called
  · rw [idle node] at running
    cases running

/-- A timeline that opens eight bytes before the end of its first segment, with two appends of four
bytes. -/
def lateTimeline : List Entry :=
  shortTimeline.take 1 ++
    [ inlineEntry "timeline" 2 .timelineOpen none []
        "e3b0c44298fc1c149afbf4c8996fb92427ae41e4649b934ca495991b7852b855"
        (.walStart 16777208) (by decide) timeline_ne_empty,
      inlineEntry "timeline" 3 .writerLease (some 1) []
        "e3b0c44298fc1c149afbf4c8996fb92427ae41e4649b934ca495991b7852b855"
        .none lease_fits timeline_ne_empty,
      inlineEntry "timeline" 4 .wal (some 1) [1, 2, 3, 4]
        "9f64a747e1b97f131fabb6b447296c9b6f0201e79fb3c5356e6c77e89b6a806a"
        (.wal 16777208 16777212) (by decide) timeline_ne_empty,
      inlineEntry "timeline" 5 .wal (some 1) [5, 6, 7, 8]
        "55e5509f8052998294266ee5b50cb592938191fb5d67f73cac2e60b0276b1bdd"
        (.wal 16777212 16777216) (by decide) timeline_ne_empty ]

def lateResponse (index walEnd : Nat) : RaftResponse :=
  { index, writerEpoch := some 1, outcome := .committed, walEnd := some walEnd }

/-- A group with one node: a part of the timeline is committed and one task stands at a phase. -/
def lateSystem (length : Nat) (node : NodeArchiver) (acknowledged : List Nat) :
    TriggerSystem Unit where
  log := lateTimeline.take length
  nodes := fun _ => node
  acknowledged := acknowledged

/-- The first append is acknowledged, and the task that it triggered has looked for the last
time. -/
theorem lateSystem_leaving {Allowed : TriggerSystem Unit → TriggerLabel Unit → Prop}
    (allowed : ∀ system label, Prompt system label → Allowed system label) :
    TriggerRun Allowed (lateSystem 4 ⟨true, [.leaving]⟩ [16777212]) := by
  have commits : ∀ (system : TriggerSystem Unit) (entry : Entry), TriggerRun Allowed system →
      TriggerRun Allowed { system with log := system.log ++ [entry] } := fun system entry run =>
    run.step (allowed _ .commit trivial) (.commit entry)
  have logged : TriggerRun Allowed ({ log := lateTimeline.take 4 } : TriggerSystem Unit) :=
    commits _ _ (commits _ _ (commits _ _ (commits _ _ .start)))
  obtain ⟨header, answered, append⟩ : ∃ header, Answered (lateTimeline.take 4) header
      (lateResponse 4 16777212) ∧ header.kind = .wal := ⟨_, ⟨3, _, rfl, rfl⟩, rfl⟩
  have acknowledged := logged.step (allowed _ .acknowledge trivial)
    (.acknowledge () answered append (.inl rfl) rfl)
  have called := acknowledged.step (allowed _ (.call ()) (by simp [Prompt]))
    (@TriggerStep.call _ _ _ () 16777212 0 rfl)
  have resolved := called.step (allowed _ (.resolve true) rfl)
    (@TriggerStep.resolve _ _ _ () 0 true rfl)
  have looked := resolved.step (allowed _ .task trivial) (@TriggerStep.read _ _ _ () 0 rfl)
  refine (congrArg (TriggerRun Allowed) ?_).mp looked
  exact TriggerSystem.ext rfl (funext fun _ => rfl) rfl rfl

/-- The second append completes the segment and is acknowledged while the task of the first one is
leaving: its trigger is dropped, and the complete segment is left without an archiver. -/
theorem trigger_lost_while_leaving :
    ∃ system : TriggerSystem Unit, TriggerRun (fun _ _ => True) system ∧
      (∀ node, (system.nodes node).tasks = []) ∧ system.calls = [] ∧
      16777216 ∈ system.acknowledged ∧ (replay system.log).walEnd = 16777216 ∧
      (replay system.log).archiveLsn = 16777208 ∧
      SegmentWaits (replay system.log).archiveLsn 16777216 := by
  have leaving : TriggerRun (fun _ _ => True) (lateSystem 4 ⟨true, [.leaving]⟩ [16777212]) :=
    lateSystem_leaving fun _ _ _ => trivial
  have committed : TriggerRun (fun _ _ => True) (lateSystem 5 ⟨true, [.leaving]⟩ [16777212]) :=
    leaving.step trivial (.commit _)
  obtain ⟨header, answered, append⟩ : ∃ header, Answered (lateTimeline.take 5) header
      (lateResponse 5 16777216) ∧ header.kind = .wal := ⟨_, ⟨4, _, rfl, rfl⟩, rfl⟩
  have acknowledged := committed.step trivial (.acknowledge () answered append (.inl rfl) rfl)
  have called := acknowledged.step trivial (@TriggerStep.call _ _ _ () 16777216 0 rfl)
  have left := called.step trivial (@TriggerStep.leave _ _ _ () 0 rfl)
  exact ⟨_, left, fun _ => rfl, rfl, by decide, by decide, by decide, by decide⟩

/-- The archive object of the eight bytes. -/
def lateSegment : WalArchiveSegment where
  startLsn := 16777208
  endLsn := 16777216
  key := "timeline/0000000000fffff8-0000000001000000-" ++
    "66840dda154e8a113c31dd0ad32f7f3a366a80e8136979d8f5a101d3d29d6f72"
  hash := digestOfHex "66840dda154e8a113c31dd0ad32f7f3a366a80e8136979d8f5a101d3d29d6f72"
  canonical := by decide

/-- The checkpoint of the eight bytes. -/
def lateCheckpoint : Entry :=
  inlineEntry "timeline" 6 .archiveCheckpoint none (asBytes lateSegment.key)
    "4dba205cd6d6bc9bf5ef6b9cf96ec0bc741750ce0eca5bab56b5021d1de75acf"
    (.archive lateSegment) (by decide) timeline_ne_empty

/-- The second append completes the segment after the first task has left: its own task archives the
segment, reads the ends again and leaves. -/
theorem no_segment_left_behind_first :
    ∃ system : TriggerSystem Unit, TriggerRun Prompt system ∧
      system.acknowledged = [16777212, 16777216] ∧ (replay system.log).archiveLsn = 16777216 ∧
      ∀ reported ∈ system.acknowledged,
        ¬SegmentWaits (replay system.log).archiveLsn reported := by
  have left : TriggerRun Prompt (lateSystem 4 {} [16777212]) := by
    have prompt : Prompt (lateSystem 4 ⟨true, [.leaving]⟩ [16777212]) .task := trivial
    refine (congrArg (TriggerRun Prompt) ?_).mp ((lateSystem_leaving fun _ _ allowed =>
      allowed).step prompt (@TriggerStep.leave _ _ _ () 0 rfl))
    exact TriggerSystem.ext rfl (funext fun _ => rfl) rfl rfl
  have committed : TriggerRun Prompt (lateSystem 5 {} [16777212]) :=
    left.step (by trivial) (.commit _)
  obtain ⟨header, answered, append⟩ : ∃ header, Answered (lateTimeline.take 5) header
      (lateResponse 5 16777216) ∧ header.kind = .wal := ⟨_, ⟨4, _, rfl, rfl⟩, rfl⟩
  have acknowledged := committed.step (by trivial) (.acknowledge () answered append (.inl rfl) rfl)
  have called := acknowledged.step (by simp [Prompt, lateSystem])
    (@TriggerStep.call _ _ _ () 16777216 0 rfl)
  have resolved := called.step (by rfl) (@TriggerStep.resolve _ _ _ () 0 true rfl)
  have archiving := resolved.step (by trivial) (@TriggerStep.read _ _ _ () 0 rfl)
  have stored := archiving.step (by trivial) (.commit lateCheckpoint)
  have again := stored.step (by trivial) (@TriggerStep.archived _ _ _ () 0 16777216 rfl (by decide))
  have looked := again.step (by trivial) (@TriggerStep.read _ _ _ () 0 rfl)
  have done := looked.step (by trivial) (@TriggerStep.leave _ _ _ () 0 rfl)
  exact ⟨_, done, rfl, by decide, no_segment_left_behind done (fun _ => rfl) rfl⟩

end Verglas.Safekeeper
