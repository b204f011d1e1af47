import Verglas.Consensus.WalTiling

/-!
# Snapshots do not fork replicas

Replicas of one group apply the same log, each at its own pace.  In between a replica compacts its
live state to build a snapshot, restarts from the last state image on its disk, or installs the
snapshot of another replica.  Whatever is written before a crash, every entry gets the same answer
on every replica, and replicas at the same position agree on all that later answers are computed
from.
-/

namespace Verglas.Consensus

open Function

/-- One replica: its live state, the state image on disk and its current snapshot, each with the
number of log entries that it covers. -/
structure Node where
  position : Nat := 0
  state : StateMachineData := {}
  imagePosition : Nat := 0
  image : StateMachineData := {}
  snapshot : Option (Nat × Snapshot) := none

namespace Node

/-- Compact the live state; the two images are written in order and either write may be lost. -/
def build (node : Node) (imageWritten snapshotWritten : Bool) : Node :=
  let built := buildSnapshot node.state
  { position := node.position
    state := built.1
    imagePosition := if imageWritten then node.position else node.imagePosition
    image := if imageWritten then built.1 else node.image
    snapshot := if snapshotWritten then some (node.position, built.2) else node.snapshot }

/-- Reload the image on disk. -/
def restart (node : Node) : Node :=
  { node with position := node.imagePosition, state := node.image }

/-- Install a received snapshot; its files may fail to be written. -/
def install (node : Node) (position : Nat) (received : Snapshot)
    (imageWritten snapshotWritten : Bool) : Node :=
  { position
    state := installSnapshot received
    imagePosition := if imageWritten then position else node.imagePosition
    image := if imageWritten then installSnapshot received else node.image
    snapshot := if snapshotWritten then some (position, received) else node.snapshot }

end Node

variable {ι : Type*}

/-- Replicas of one log and the answers that they have given so far. -/
structure Cluster (ι : Type*) where
  nodes : ι → Node := fun _ => {}
  answers : List (ι × Nat × RaftResponse) := []

/-- A node applies an entry, builds or installs a snapshot, or restarts. -/
inductive ClusterStep [DecidableEq ι] (log : List Entry) (cluster : Cluster ι) :
    Cluster ι → Prop
  | apply (id : ι) {entry : Entry} {after : StateMachineData} {response : RaftResponse}
      (next : log[(cluster.nodes id).position]? = some entry)
      (applied : applyEntry (cluster.nodes id).state entry = (after, .ok response)) :
      ClusterStep log cluster
        { nodes := update cluster.nodes id
            { cluster.nodes id with
              position := (cluster.nodes id).position + 1
              state := after }
          answers := cluster.answers ++ [(id, (cluster.nodes id).position, response)] }
  | build (id : ι) (imageWritten snapshotWritten : Bool) :
      ClusterStep log cluster
        { cluster with
          nodes := update cluster.nodes id
            ((cluster.nodes id).build imageWritten snapshotWritten) }
  | restart (id : ι) :
      ClusterStep log cluster
        { cluster with nodes := update cluster.nodes id (cluster.nodes id).restart }
  | install (id donor : ι) {position : Nat} {sent : Snapshot}
      (current : (cluster.nodes donor).snapshot = some (position, sent))
      (imageWritten snapshotWritten : Bool) :
      ClusterStep log cluster
        { cluster with
          nodes := update cluster.nodes id
            ((cluster.nodes id).install position sent imageWritten snapshotWritten) }

/-- A state that has the core of the replay of the first `position` entries. -/
def Follows (log : List Entry) (position : Nat) (state : StateMachineData) : Prop :=
  state.core = (replay (log.take position)).core

/-- Everything a node holds, live or on disk, follows the log. -/
structure Node.Faithful (log : List Entry) (node : Node) : Prop where
  state : Follows log node.position node.state
  image : Follows log node.imagePosition node.image
  snapshot : ∀ position sent, node.snapshot = some (position, sent) →
    Follows log position (installSnapshot sent)

theorem follows_empty (log : List Entry) : Follows log 0 {} := rfl

variable {log : List Entry} {position : Nat} {state : StateMachineData} {node : Node}

theorem Follows.buildSnapshot (follows : Follows log position state) :
    Follows log position (buildSnapshot state).1 :=
  (core_buildSnapshot state).trans follows

theorem Follows.apply {entry : Entry} (follows : Follows log position state)
    (next : log[position]? = some entry) :
    Follows log (position + 1) (applyEntry state entry).1 := by
  have prefix_eq : log.take (position + 1) = log.take position ++ [entry] := by
    rw [List.take_add_one, next, Option.toList_some]
  rw [Follows, prefix_eq, replay_concat]
  exact (applyEntry_congr follows entry).1

/-- The answer that the log itself determines for the entry at `position`. -/
def answerAt (log : List Entry) (position : Nat) : Option (Except StorageError RaftResponse) :=
  log[position]?.map fun entry => (applyEntry (replay (log.take position)) entry).2

theorem Follows.answer {entry : Entry} (follows : Follows log position state)
    (next : log[position]? = some entry) (other : ¬entry.IsRepair) :
    answerAt log position = some (applyEntry state entry).2 := by
  rw [answerAt, next, Option.map_some, (applyEntry_congr follows entry).2 other]

theorem Node.Faithful.build (faithful : node.Faithful log) (imageWritten snapshotWritten : Bool) :
    (node.build imageWritten snapshotWritten).Faithful log where
  state := faithful.state.buildSnapshot
  image := by
    cases imageWritten with
    | false => exact faithful.image
    | true => exact faithful.state.buildSnapshot
  snapshot := by
    intro position sent current
    cases snapshotWritten with
    | false => exact faithful.snapshot position sent current
    | true =>
      cases current
      exact faithful.state.buildSnapshot

theorem Node.Faithful.install (faithful : node.Faithful log) {sent : Snapshot}
    (follows : Follows log position (installSnapshot sent)) (imageWritten snapshotWritten : Bool) :
    (node.install position sent imageWritten snapshotWritten).Faithful log where
  state := follows
  image := by
    cases imageWritten with
    | false => exact faithful.image
    | true => exact follows
  snapshot := by
    intro other received current
    cases snapshotWritten with
    | false => exact faithful.snapshot other received current
    | true =>
      cases current
      exact follows

/-- Every node is faithful and every answer is the one that the log determines. -/
structure Cluster.Faithful (log : List Entry) (cluster : Cluster ι) : Prop where
  nodes : ∀ id, (cluster.nodes id).Faithful log
  answers : ∀ id position response, (id, position, response) ∈ cluster.answers →
    answerAt log position = some (.ok response)

theorem Cluster.faithful_empty (log : List Entry) :
    Cluster.Faithful log ({} : Cluster ι) where
  nodes _ := ⟨follows_empty log, follows_empty log, by simp⟩
  answers := by simp

theorem Node.faithful_update [DecidableEq ι] {nodes : ι → Node}
    (faithful : ∀ id, (nodes id).Faithful log) (id : ι) (updated : node.Faithful log) :
    ∀ other, (update nodes id node other).Faithful log := by
  intro other
  by_cases same : other = id
  · subst same
    rwa [update_self]
  · rw [update_of_ne same]
    exact faithful other

theorem ClusterStep.nodes_faithful [DecidableEq ι] {before after : Cluster ι}
    (step : ClusterStep log before after) (faithful : ∀ id, (before.nodes id).Faithful log) :
    ∀ id, (after.nodes id).Faithful log := by
  cases step with
  | @apply id entry next response at_position applied =>
    have node := faithful id
    have advanced := node.state.apply at_position
    rw [applied] at advanced
    exact Node.faithful_update faithful id ⟨advanced, node.image, node.snapshot⟩
  | build id imageWritten snapshotWritten =>
    exact Node.faithful_update faithful id ((faithful id).build imageWritten snapshotWritten)
  | restart id =>
    have node := faithful id
    exact Node.faithful_update faithful id ⟨node.image, node.image, node.snapshot⟩
  | install id donor current imageWritten snapshotWritten =>
    have follows := (faithful donor).snapshot _ _ current
    exact Node.faithful_update faithful id
      ((faithful id).install follows imageWritten snapshotWritten)

variable {cluster : Cluster ι}

theorem Cluster.nodes_faithful_of_run [DecidableEq ι]
    (run : Relation.ReflTransGen (ClusterStep log) {} cluster) :
    ∀ id, (cluster.nodes id).Faithful log := by
  induction run with
  | refl => exact (Cluster.faithful_empty log).nodes
  | tail _ step ih => exact step.nodes_faithful ih

theorem Cluster.Faithful.step [DecidableEq ι] (plain : ∀ entry ∈ log, ¬entry.IsRepair)
    {before after : Cluster ι} (faithful : before.Faithful log)
    (step : ClusterStep log before after) : after.Faithful log := by
  refine ⟨step.nodes_faithful faithful.nodes, ?_⟩
  cases step with
  | @apply id entry next response at_position applied =>
    have node := faithful.nodes id
    intro other position answer member
    rcases List.mem_append.mp member with older | newest
    · exact faithful.answers other position answer older
    · cases List.mem_singleton.mp newest
      rw [node.state.answer at_position (plain entry (List.mem_of_getElem? at_position)), applied]
  | build id imageWritten snapshotWritten | restart id
  | install id donor current imageWritten snapshotWritten => exact faithful.answers

theorem Cluster.faithful_of_run [DecidableEq ι] (plain : ∀ entry ∈ log, ¬entry.IsRepair)
    (run : Relation.ReflTransGen (ClusterStep log) {} cluster) : cluster.Faithful log := by
  induction run with
  | refl => exact Cluster.faithful_empty log
  | tail _ step ih => exact ih.step plain step

/-- Agreement of two replicas on the authoritative state. -/
structure SameState (left right : StateMachineData) : Prop where
  retries : left.retries = right.retries
  writerEpoch : left.writerEpoch = right.writerEpoch
  writerActive : left.writerActive = right.writerActive
  walArchiveBucket : left.walArchiveBucket = right.walArchiveBucket
  walInitialized : left.walInitialized = right.walInitialized
  walEnd : left.walEnd = right.walEnd
  archiveLsn : left.archiveLsn = right.archiveLsn
  namespaces : left.namespaces = right.namespaces
  tables : left.tables = right.tables
  records : left.records = right.records
  warehouses : left.warehouses = right.warehouses
  catalogCheckpoint : left.catalogCheckpoint = right.catalogCheckpoint

theorem sameState_of_core {left right : StateMachineData} (same : left.core = right.core) :
    SameState left right := by
  simp only [StateMachineData.core, StateMachineData.mk.injEq] at same
  obtain ⟨_, _, _, _, _, retries, epoch, active, bucket, initialized, walEnd, archive,
    namespaces, tables, records, warehouses, checkpoint⟩ := same
  exact ⟨retries, epoch, active, bucket, initialized, walEnd, archive, namespaces, tables,
    records, warehouses, checkpoint⟩

/-- Replicas of a log without repairs answer every entry alike and agree on the authoritative
state whenever they have applied the same number of entries, wherever they build snapshots,
restart or install the snapshots of one another. -/
theorem snapshots_do_not_fork [DecidableEq ι] (plain : ∀ entry ∈ log, ¬entry.IsRepair)
    (run : Relation.ReflTransGen (ClusterStep log) {} cluster) :
    (∀ left right position first second, (left, position, first) ∈ cluster.answers →
      (right, position, second) ∈ cluster.answers → first = second) ∧
    ∀ left right, (cluster.nodes left).position = (cluster.nodes right).position →
      SameState (cluster.nodes left).state (cluster.nodes right).state ∧
      ∀ entry, log[(cluster.nodes left).position]? = some entry →
        (applyEntry (cluster.nodes left).state entry).2 =
          (applyEntry (cluster.nodes right).state entry).2 := by
  have faithful := Cluster.faithful_of_run plain run
  constructor
  · intro left right position first second left_answer right_answer
    have determined := faithful.answers left position first left_answer
    rw [faithful.answers right position second right_answer] at determined
    injection determined with equal
    injection equal with equal
    exact equal.symm
  · intro left right position_eq
    have left_follows := (faithful.nodes left).state
    have right_follows := (faithful.nodes right).state
    rw [← position_eq] at right_follows
    have same : (cluster.nodes left).state.core = (cluster.nodes right).state.core :=
      left_follows.trans right_follows.symm
    refine ⟨sameState_of_core same, ?_⟩
    intro entry next
    exact (applyEntry_congr same entry).2 (plain entry (List.mem_of_getElem? next))

theorem lake_ne_empty : "warehouse/lake" ≠ "" := by decide

/-- A catalog commit that creates a namespace. -/
def salesEntry : Entry :=
  inlineEntry "warehouse/lake" 1 .catalog none
    (asBytes ("\x7b\"requirements\":[],\"actions\":[\x7b\"CreateNamespace\":\x7b\"namespace\":" ++
      "\"sales\"\x7d\x7d]\x7d"))
    "f47cf62c46995619392a3c450954cd0b7a2c240360b7df0c2ae8ee0ff3b6da3c"
    (.catalog ⟨[], [.createNamespace "sales"]⟩) rfl lake_ne_empty

/-- A catalog commit that creates a namespace with a table. -/
def peopleEntry : Entry :=
  inlineEntry "warehouse/lake" 2 .catalog none
    (asBytes ("\x7b\"requirements\":[],\"actions\":[\x7b\"CreateNamespace\":\x7b\"namespace\":" ++
      "\"hr\"\x7d\x7d,\x7b\"PutTable\":\x7b\"table\":\"hr.people\",\"metadata_location\":" ++
      "\"s3://lake/people.json\"\x7d\x7d]\x7d"))
    "6134e9e683f500d28a0a6db9f2bd8111b338ae204c38528d07264d8ff23e92a2"
    (.catalog ⟨[], [.createNamespace "hr", .putTable "hr.people" "s3://lake/people.json"]⟩)
    rfl lake_ne_empty

def staffedLog : List Entry := [salesEntry, peopleEntry]

/-- The left replica snapshots after the first catalog commit, the right one installs that snapshot,
and both apply the second commit. -/
theorem snapshots_do_not_fork_short :
    ∃ cluster : Cluster Bool,
      (cluster.answers.map fun answer => (answer.1, answer.2.1)) =
        [(false, 0), (false, 1), (true, 1)] ∧
      (∀ first second, (false, 1, first) ∈ cluster.answers →
        (true, 1, second) ∈ cluster.answers → first = second) ∧
      SameState (cluster.nodes false).state (cluster.nodes true).state ∧
      (cluster.nodes true).state.tables.keys = ["hr.people"] := by
  have plain : ∀ entry ∈ staffedLog, ¬entry.IsRepair := by
    simp [staffedLog, salesEntry, peopleEntry, Entry.IsRepair, inlineEntry]
  have run : Relation.ReflTransGen (ClusterStep staffedLog) ({} : Cluster Bool) _ :=
    ((((Relation.ReflTransGen.refl.tail (.apply false rfl rfl)).tail
      (.build false true true)).tail (.install true false rfl true true)).tail
      (.apply false rfl rfl)).tail (.apply true rfl rfl)
  obtain ⟨answers, states⟩ := snapshots_do_not_fork plain run
  exact ⟨_, by decide, answers false true 1, (states false true rfl).1, by decide⟩

end Verglas.Consensus
