import Mathlib.Data.List.Induction

/-!
# Reading the nodes of a graph

`AddNodes` appends rows, so a node that is edited has several rows.  A read scans the rows of a
snapshot in the order in which the query engine returns them and keeps the last row of each id.
-/

namespace Verglas.Graph

open List

/-- A row of the nodes table; only the id is looked at. -/
structure Node (Data : Type*) where
  id : String
  data : Data
  deriving DecidableEq

variable {Data : Type*}

/-- The position of the last row of each id. -/
def lastIndex (nodes : List (Node Data)) : String → Option Nat :=
  nodes.zipIdx.foldl (fun last entry => Function.update last entry.1.id (some entry.2))
    fun _ => none

/-- One row for each id, the one that was scanned last. -/
def latestNodesById (nodes : List (Node Data)) : List (Node Data) :=
  (nodes.zipIdx.filter fun entry => lastIndex nodes entry.1.id = some entry.2).map Prod.fst

theorem latestNodesById_concat (nodes : List (Node Data)) (node : Node Data) :
    latestNodesById (nodes ++ [node]) =
      (latestNodesById nodes).filter (fun other => other.id ≠ node.id) ++ [node] := by
  have index_eq : lastIndex (nodes ++ [node]) =
      Function.update (lastIndex nodes) node.id (some nodes.length) := by
    simp [lastIndex, zipIdx_append]
  rw [latestNodesById, index_eq, zipIdx_append, filter_append, map_append,
    latestNodesById, filter_map, filter_filter]
  congr 1
  · refine congrArg (map Prod.fst) (filter_congr fun entry member => ?_)
    have position : entry.2 < nodes.length :=
      (List.getElem?_eq_some_iff.mp (List.mem_zipIdx_iff_getElem?.mp member)).1
    by_cases same : entry.1.id = node.id
    · simp [same, Nat.ne_of_gt position]
    · simp [same]
  · simp

theorem filter_latestNodesById (nodes : List (Node Data)) (id : String) :
    (latestNodesById nodes).filter (fun node => node.id = id) =
      (nodes.filter fun node => node.id = id).getLast?.toList := by
  induction nodes using reverseRecOn with
  | nil => rfl
  | append_singleton nodes node induction =>
    rw [latestNodesById_concat, filter_append, filter_append, filter_filter]
    by_cases same : node.id = id
    · simp [same]
    simp only [same, decide_false, filter_nil, Bool.false_eq_true, not_false_eq_true,
      filter_cons_of_neg, append_nil, ← induction]
    refine filter_congr fun other _ => ?_
    by_cases other_same : other.id = id
    · simp [other_same, Ne.symm same]
    · simp [other_same]

/-- A commit to the nodes table; a compaction rewrites files and no rows. -/
inductive Commit (Data : Type*) where
  | addNodes (nodes : List (Node Data))
  | compaction

/-- The rows that a commit adds. -/
def Commit.rows : Commit Data → List (Node Data)
  | .addNodes nodes => nodes
  | .compaction => []

/-- The rows of a snapshot in commit order; a snapshot is the number of its commits. -/
def rowsAt (commits : List (Commit Data)) (snapshot : Nat) : List (Node Data) :=
  (commits.take snapshot).flatMap Commit.rows

/-- The snapshot of the last commit, if there is one. -/
def currentSnapshot (commits : List (Commit Data)) : Option Nat :=
  if commits.isEmpty then none else some commits.length

/-- The snapshot that a read asks for, or else the current one. -/
def resolveSnapshot (commits : List (Commit Data)) (asOf : Option Nat) : Option Nat :=
  asOf.or (currentSnapshot commits)

/-- `Graph::load_nodes`, where `scan` is what the query engine returns of a snapshot. -/
def loadNodes (commits : List (Commit Data)) (scan : Nat → List (Node Data))
    (asOf : Option Nat) : List (Node Data) :=
  match resolveSnapshot commits asOf with
  | none => []
  | some snapshot => latestNodesById (scan snapshot)

/-- A read returns one node for an id that was added up to its snapshot, the one that was written
last, exactly if the scan returns that row behind the other rows of the id. -/
theorem load_nodes_latest_iff (commits : List (Commit Data)) (scan : Nat → List (Node Data))
    (asOf : Option Nat) (snapshot : Nat)
    (resolved : resolveSnapshot commits asOf = some snapshot) (id : String) :
    (loadNodes commits scan asOf).filter (fun node => node.id = id) =
        ((rowsAt commits snapshot).filter fun node => node.id = id).getLast?.toList ↔
      ((scan snapshot).filter fun node => node.id = id).getLast? =
        ((rowsAt commits snapshot).filter fun node => node.id = id).getLast? := by
  have loaded : loadNodes commits scan asOf = latestNodesById (scan snapshot) := by
    rw [loadNodes, resolved]
  rw [loaded, filter_latestNodesById]
  refine ⟨fun same => ?_, congrArg _⟩
  simpa using congrArg head? same

/-- The first row of an edited node, scanned last, is what a read returns. -/
theorem stale_node_read :
    ∃ (commits : List (Commit Nat)) (scan : Nat → List (Node Nat)),
      (∀ snapshot, (scan snapshot).Perm (rowsAt commits snapshot)) ∧
      rowsAt commits 2 = [⟨"a", 1⟩, ⟨"a", 2⟩] ∧ loadNodes commits scan none = [⟨"a", 1⟩] := by
  refine ⟨[.addNodes [⟨"a", 1⟩], .addNodes [⟨"a", 2⟩]],
    fun snapshot => (rowsAt [.addNodes [⟨"a", 1⟩], .addNodes [⟨"a", 2⟩]] snapshot).reverse,
    fun snapshot => reverse_perm _, rfl, by decide⟩

/-- Of three edits the first two are scanned in the wrong order, and the third is returned. -/
theorem load_nodes_latest_iff_edited :
    (loadNodes [.addNodes [⟨"a", 1⟩, ⟨"b", 1⟩], .addNodes [⟨"a", 2⟩], .addNodes [⟨"a", 3⟩]]
      (fun _ => [⟨"a", 2⟩, ⟨"a", 1⟩, ⟨"a", 3⟩, ⟨"b", 1⟩]) none).filter
        (fun node => node.id = "a") = [⟨"a", 3⟩] :=
  (load_nodes_latest_iff _ _ none 3 rfl "a").mpr (by decide)

end Verglas.Graph
