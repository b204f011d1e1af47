import Mathlib.Data.List.Chain
import Verglas.Cache.Demotion

/-!
# The lifecycle of a table's files

The coordinator of one table hears of new snapshots.  It replays the commits between its watermark
and the new snapshot, demotes the files that they removed, and moves the watermark.  A table's
history is a tree: a rollback makes an earlier snapshot the current one again, and the next commit
starts a new branch there.
-/

namespace Verglas.Tables

open Cache List

/-- What a commit did to the data files of its parent. -/
structure Commit where
  parent : Option Int
  sequenceNumber : Nat
  added : List String
  removed : List String

/-- The commits of a table by snapshot id; a commit is younger than its parent. -/
structure Table where
  commit : Int → Commit
  younger : ∀ id parent, (commit id).parent = some parent →
    (commit parent).sequenceNumber < (commit id).sequenceNumber

namespace Table

variable (table : Table)

/-- A commit and its parent. -/
def Child (parent id : Int) : Prop := (table.commit id).parent = some parent

/-- A snapshot and those that lead to it, itself among them. -/
def Lineage : Int → Int → Prop := Relation.ReflTransGen table.Child

/-- A snapshot and those before it. -/
def Descends : Int → Int → Prop := Relation.TransGen table.Child

/-- The data files that a snapshot references. -/
inductive Live : Int → String → Prop
  | added {id : Int} {path : String} (adds : path ∈ (table.commit id).added) : Live id path
  | kept {parent id : Int} {path : String} (child : table.Child parent id) (live : Live parent path)
      (stays : path ∉ (table.commit id).removed) : Live id path

/-- On the way to the snapshot no commit adds a file that it or an earlier one removed. -/
def Unreused (id : Int) : Prop :=
  ∀ child, table.Lineage child id → ∀ path ∈ (table.commit child).added,
    ∀ ancestor, table.Lineage ancestor child → path ∉ (table.commit ancestor).removed

variable {table} {ancestor id : Int} {path : String}

theorem Live.exists_added (live : table.Live id path) :
    ∃ ancestor, path ∈ (table.commit ancestor).added := by
  induction live with
  | added adds => exact ⟨_, adds⟩
  | kept _ _ _ induction => exact induction

/-- A removed file stays dead as long as no commit adds it again. -/
theorem not_live_of_removed (line : table.Lineage ancestor id) (unreused : table.Unreused id)
    (removed : path ∈ (table.commit ancestor).removed) : ¬table.Live id path := by
  induction line with
  | refl =>
    rintro (adds | ⟨_, _, stays⟩)
    · exact unreused _ .refl path adds _ .refl removed
    · exact stays removed
  | @tail parent child before step induction =>
    have earlier : table.Unreused parent := fun other line => unreused other (line.tail step)
    rintro (adds | ⟨is_child, live, _⟩)
    · exact unreused _ .refl path adds _ (before.tail step) removed
    · cases step.symm.trans is_child
      exact induction earlier live

theorem Descends.younger (descends : table.Descends ancestor id) :
    (table.commit ancestor).sequenceNumber < (table.commit id).sequenceNumber := by
  induction descends with
  | single child => exact table.younger _ _ child
  | tail _ child induction => exact induction.trans (table.younger _ _ child)

end Table

/-- A data file as a manifest names it. -/
structure DataFileEntry where
  path : String
  size : Nat
  deriving DecidableEq

/-- What a commit did to the file of an entry. -/
inductive EntryStatus where
  | added
  | deleted
  | existing
  deriving DecidableEq

/-- An entry of a manifest. -/
structure ManifestEntry where
  status : EntryStatus
  file : DataFileEntry

/-- An entry of a manifest list. -/
structure ManifestRef where
  manifestKey : String
  /-- The commit that wrote the manifest. -/
  addedSnapshotId : Option Int

/-- What reading a manifest list or a manifest gives, if it can be read. -/
structure MetadataFetch where
  manifestList : String → Option (List ManifestRef)
  manifest : String → Option (List ManifestEntry)

/-- A snapshot as the metadata lists it. -/
structure SnapshotRef where
  snapshotId : Int
  manifestListKey : String

/-- The files that a commit added and removed. -/
structure SnapshotDiff where
  added : List DataFileEntry
  removed : List DataFileEntry
  deriving DecidableEq

/-- Read what a commit did from the manifests that it wrote; any unreadable one fails the diff. -/
def diffFromSnapshotRef (fetch : MetadataFetch) (snap : SnapshotRef) : Option SnapshotDiff := do
  let refs ← fetch.manifestList snap.manifestListKey
  let manifests ← (refs.filter (·.addedSnapshotId = some snap.snapshotId)).mapM fun ref =>
    fetch.manifest ref.manifestKey
  let files := fun status => (manifests.flatten.filter (·.status = status)).map ManifestEntry.file
  return ⟨files .added, files .deleted⟩

/-- The commits that a notification replays. -/
def snapshotsToProcess (snapshots : List SnapshotRef) (watermark : Option Int)
    (newSnapshot : Int) : List SnapshotRef :=
  let position id := snapshots.findIdx? (·.snapshotId = id)
  match watermark.bind position, position newSnapshot with
  | some start, some stop =>
    if stop ≤ start then [] else (snapshots.take (stop + 1)).drop (start + 1)
  | _, _ => snapshots.filter (·.snapshotId = newSnapshot)

/-- How far the table was replayed, and the metadata that was current then. -/
structure TableWatermark where
  lastSnapshotId : Int
  metadataKey : String
  manifestLists : List (Int × String)

/-- What one call of `on_change` sees; no snapshots if it cannot resolve or read the metadata. -/
structure TableChanged where
  newSnapshot : Int
  bucket : String
  metadataKey : String
  snapshots : Option (List SnapshotRef)
  fetch : MetadataFetch
  deadline : Nat

/-- The coordinator, with what became of each commit that it visited. -/
structure Coordinator where
  engine : HybridCacheEngine (String × String) := {}
  watermark : Option TableWatermark := none
  visits : List (Int × Option SnapshotDiff) := []

/-- The superseded metadata file and the manifest lists of expired snapshots. -/
def deadMetadata (watermark : Option TableWatermark) (metadataKey : String)
    (snapshots : List SnapshotRef) : List String :=
  match watermark with
  | none => []
  | some mark =>
    (if mark.metadataKey ≠ metadataKey ∧ mark.metadataKey ≠ "" then [mark.metadataKey] else []) ++
      (mark.manifestLists.filter fun list =>
        snapshots.all (·.snapshotId ≠ list.1)).map Prod.snd

namespace Coordinator

variable (coordinator : Coordinator)

/-- The commits of one notification, each with its diff if that succeeds. -/
def replayed (change : TableChanged) (snapshots : List SnapshotRef) :
    List (Int × Option SnapshotDiff) :=
  (snapshotsToProcess snapshots (coordinator.watermark.map (·.lastSnapshotId))
    change.newSnapshot).map fun snap => (snap.snapshotId, diffFromSnapshotRef change.fetch snap)

/-- A commit whose diff failed is skipped. -/
def retireCommit (change : TableChanged) (engine : HybridCacheEngine (String × String))
    (visit : Int × Option SnapshotDiff) : HybridCacheEngine (String × String) :=
  match visit.2 with
  | none => engine
  | some diff =>
    engine.retire (diff.removed.map fun file => ⟨(change.bucket, file.path), file.size⟩)
      change.deadline

/-- Handle one notification: replay, retire what is dead and move the watermark. -/
def onChange (change : TableChanged) : Coordinator :=
  match change.snapshots with
  | none => coordinator
  | some snapshots =>
    { engine := ((coordinator.replayed change snapshots).foldl (retireCommit change)
        coordinator.engine).retire
          ((deadMetadata coordinator.watermark change.metadataKey snapshots).map fun key =>
            ⟨(change.bucket, key), 0⟩) change.deadline
      watermark := some ⟨change.newSnapshot, change.metadataKey,
        snapshots.map fun snap => (snap.snapshotId, snap.manifestListKey)⟩
      visits := coordinator.visits ++ coordinator.replayed change snapshots }

/-- Notifications and sweeps of one table; `allowed` restricts what a notification reads. -/
inductive Run (blockBytes : Nat)
    (allowed : Coordinator → TableChanged → List SnapshotRef → Prop) : Coordinator → Prop
  | start : Run blockBytes allowed {}
  | change {coordinator : Coordinator} (run : Run blockBytes allowed coordinator)
      (change : TableChanged)
      (ok : ∀ snapshots ∈ change.snapshots, allowed coordinator change snapshots) :
      Run blockBytes allowed (coordinator.onChange change)
  | sweep {coordinator : Coordinator} (run : Run blockBytes allowed coordinator) (now : Nat) :
      Run blockBytes allowed
        { coordinator with engine := coordinator.engine.sweepExpired blockBytes now }

/-- The second commit replaces the file of the first. -/
def compacted : Table where
  commit id :=
    if id = 1 then ⟨none, 1, ["a"], []⟩ else if id = 2 then ⟨some 1, 2, ["b"], ["a"]⟩
    else ⟨if id = 3 then some 2 else none, 3, [], []⟩
  younger id parent child := by
    by_cases first : id = 1
    · simp [first] at child
    by_cases second : id = 2
    · simp [second] at child
      simp [second, ← child]
    · by_cases third : id = 3
      · simp [third] at child
        simp [third, ← child]
      · simp [first, second, third] at child

/-- A notification about one of the snapshots; the manifest of the second commit can be read or
not. -/
def compactedChange (newSnapshot : Int) (listed : List Int) (readable : Bool) : TableChanged where
  newSnapshot
  bucket := "lake"
  metadataKey := "metadata.json"
  snapshots := some (listed.map fun id => ⟨id, "list"⟩)
  fetch := {
    manifestList := fun _ => some [⟨"manifest", some 2⟩]
    manifest := fun _ =>
      if readable then some [⟨.added, ⟨"b", 20⟩⟩, ⟨.deleted, ⟨"a", 10⟩⟩] else none }
  deadline := 7

theorem compacted_unreused : compacted.Unreused 2 := by
  intro child line path adds ancestor before removed
  have older : (compacted.commit ancestor).sequenceNumber ≤
      (compacted.commit child).sequenceNumber := by
    rcases Relation.reflTransGen_iff_eq_or_transGen.mp before with rfl | descends
    · exact le_rfl
    · exact (Table.Descends.younger descends).le
  by_cases second : ancestor = 2
  · subst second
    cases mem_singleton.mp removed
    by_cases first : child = 1
    · subst first
      exact absurd older (by decide)
    · by_cases same : child = 2
      · subst same
        exact absurd adds (by decide)
      · simp [compacted, first, same] at adds
  · by_cases first : ancestor = 1
    · simp [compacted, first] at removed
    · simp [compacted, first, second] at removed

section Visits

variable (table : Table) (coordinator : Coordinator) (change : TableChanged)
  (snapshots : List SnapshotRef)

end Visits

variable {table : Table} {coordinator : Coordinator} {blockBytes : Nat}

variable {snapshots : List SnapshotRef} {front back : List Int} {newSnapshot : Int}
  {change : TableChanged} {engine : HybridCacheEngine (String × String)} {key : String × String}
  {watermark : Option Int}

section
variable (nodup : (snapshots.map SnapshotRef.snapshotId).Nodup)
include nodup

theorem position_eq {id : Int}
    (ids : snapshots.map SnapshotRef.snapshotId = front ++ id :: back) :
    snapshots.findIdx? (·.snapshotId = id) = some front.length := by
  have found : (snapshots.map SnapshotRef.snapshotId).findIdx? (fun other => other = id) =
      some front.length := by
    rw [ids] at nodup ⊢
    have absent : id ∉ front := fun member =>
      (nodup_append.mp nodup).2.2 id member id mem_cons_self rfl
    have unmatched : front.findIdx? (fun other => decide (other = id)) = none :=
      findIdx?_eq_none_iff.mpr fun other member => decide_eq_false fun same =>
        absent (same ▸ member)
    simp [findIdx?_append, unmatched, findIdx?_cons]
  rwa [findIdx?_map] at found

end

/-- The object is demoted or waits for its hard eviction. -/
def Retired (engine : HybridCacheEngine (String × String)) (key : String × String) : Prop :=
  key ∈ engine.demotions ∨ key ∈ engine.schedule.map (·.key)

variable {files : List (DemoteRequest (String × String))} {deadline : Nat}

theorem retired_retire (retired : Retired (engine.retire files deadline) key) :
    Retired engine key ∨ key ∈ files.map DemoteRequest.key := by
  rcases retired with demoted | scheduled
  · rcases mem_append.mp demoted with old | new
    · exact .inl (.inl old)
    · exact .inr (mem_of_mem_filter (mem_dedup.mp new))
  · rcases HybridCacheEngine.mem_keys_foldl_record.mp scheduled with old | new
    · exact .inl (.inr old)
    · rw [map_map] at new
      exact .inr new

variable {visits : List (Int × Option SnapshotDiff)}

theorem retired_replay (retired : Retired (visits.foldl (retireCommit change) engine) key) :
    Retired engine key ∨
      ∃ visit ∈ visits, ∃ diff ∈ visit.2, ∃ file ∈ diff.removed,
        key = (change.bucket, file.path) := by
  induction visits generalizing engine with
  | nil => exact .inl retired
  | cons first visits induction =>
    rcases induction retired with earlier | ⟨visit, member, rest⟩
    · cases outcome : first.2 with
      | none =>
        rw [retireCommit, outcome] at earlier
        exact .inl earlier
      | some diff =>
        rw [retireCommit, outcome] at earlier
        refine (retired_retire earlier).imp_right fun listed => ?_
        rw [map_map] at listed
        obtain ⟨file, removed, rfl⟩ := mem_map.mp listed
        exact ⟨first, mem_cons_self, diff, outcome, file, removed, rfl⟩
    · exact .inr ⟨visit, mem_cons_of_mem _ member, rest⟩

/-- The table was not rolled back and reuses no path: the watermark and the commits to replay lie on
the lineage of the new snapshot, on which no commit adds a file that was removed.  The manifests say
what their commits removed, and metadata files are no data files. -/
structure InLine (table : Table) (coordinator : Coordinator) (change : TableChanged)
    (snapshots : List SnapshotRef) : Prop where
  forward : ∀ mark ∈ coordinator.watermark, table.Lineage mark.lastSnapshotId change.newSnapshot
  replays : ∀ visit ∈ coordinator.replayed change snapshots,
    table.Lineage visit.1 change.newSnapshot
  unreused : table.Unreused change.newSnapshot
  faithful : ∀ visit ∈ coordinator.replayed change snapshots, ∀ diff ∈ visit.2,
    ∀ file ∈ diff.removed, file.path ∈ (table.commit visit.1).removed
  metadata : ∀ key ∈ deadMetadata coordinator.watermark change.metadataKey snapshots, ∀ id,
    key ∉ (table.commit id).added

theorem retired_sweep {now : Nat} (retired : Retired (engine.sweepExpired blockBytes now) key) :
    Retired engine key :=
  retired.imp mem_of_mem_filter fun scheduled =>
    ((filter_sublist).map _).subset scheduled

/-- What is retired was removed on the lineage of the watermark, or is no data file. -/
structure Orphaned (table : Table) (coordinator : Coordinator) : Prop where
  unreused : ∀ mark ∈ coordinator.watermark, table.Unreused mark.lastSnapshotId
  removed : ∀ key, Retired coordinator.engine key →
    (∃ mark ∈ coordinator.watermark, ∃ id, table.Lineage id mark.lastSnapshotId ∧
      key.2 ∈ (table.commit id).removed) ∨ ∀ id, key.2 ∉ (table.commit id).added

theorem Orphaned.onChange (orphaned : Orphaned table coordinator)
    (read : change.snapshots = some snapshots) (line : InLine table coordinator change snapshots) :
    Orphaned table (coordinator.onChange change) := by
  rw [Coordinator.onChange, read]
  refine ⟨?_, fun key retired => ?_⟩
  · rintro _ ⟨⟩
    exact line.unreused
  · rcases retired_retire retired with replayed | dead
    · rcases retired_replay replayed with old | ⟨visit, member, diff, outcome, file, removed, rfl⟩
      · refine (orphaned.removed key old).imp_left ?_
        rintro ⟨mark, marked, id, ancestor, gone⟩
        exact ⟨_, rfl, id, ancestor.trans (line.forward mark marked), gone⟩
      · refine .inl ⟨_, rfl, visit.1, line.replays visit member, ?_⟩
        exact line.faithful visit member diff outcome file removed
    · rw [map_map] at dead
      obtain ⟨name, listed, rfl⟩ := mem_map.mp dead
      exact .inr (line.metadata name listed)

theorem orphaned_of_run (run : Run blockBytes (InLine table) coordinator) :
    Orphaned table coordinator := by
  induction run with
  | start => exact ⟨nofun, fun key retired => by rcases retired with none | none <;> cases none⟩
  | sweep _ now induction =>
    exact ⟨induction.unreused, fun key retired => induction.removed key (retired_sweep retired)⟩
  | change _ change ok induction =>
    cases read : change.snapshots with
    | none =>
      rw [Coordinator.onChange, read]
      exact induction
    | some snapshots => exact induction.onChange read (ok snapshots read)

/-- In every state, no data file of the snapshot at the watermark is demoted or scheduled for its
hard eviction. -/
theorem live_files_stay_cached (run : Run blockBytes (InLine table) coordinator)
    (mark : TableWatermark) (marked : coordinator.watermark = some mark) (path : String)
    (live : table.Live mark.lastSnapshotId path) (bucket : String) :
    (bucket, path) ∉ coordinator.engine.demotions ∧
      (bucket, path) ∉ coordinator.engine.schedule.map (·.key) := by
  have orphaned := orphaned_of_run run
  refine not_or.mp fun retired => ?_
  rcases orphaned.removed _ retired with ⟨other, is_mark, id, line, gone⟩ | no_data
  · cases marked.symm.trans is_mark
    exact Table.not_live_of_removed line (orphaned.unreused mark marked) gone live
  · obtain ⟨id, adds⟩ := live.exists_added
    exact no_data id adds

/-- After a rollback the file of the first snapshot is live and stays demoted. -/
theorem rolled_back_file_demoted :
    ∃ coordinator, Run 4096 (fun _ _ _ => True) coordinator ∧
      coordinator.watermark.map (·.lastSnapshotId) = some 1 ∧ compacted.Live 1 "a" ∧
        ("lake", "a") ∈ coordinator.engine.demotions := by
  have first := Run.change (Run.start : Run 4096 (fun _ _ _ => True) {})
    (compactedChange 1 [1] true) fun _ _ => trivial
  have second := first.change (compactedChange 2 [1, 2] true) fun _ _ => trivial
  have third := second.change (compactedChange 1 [1, 2] true) fun _ _ => trivial
  exact ⟨_, third, rfl, .added mem_cons_self, by decide⟩

theorem live_files_stay_cached_compacted :
    ∃ coordinator : Coordinator, ("lake", "a") ∈ coordinator.engine.demotions ∧
      ("lake", "b") ∉ coordinator.engine.demotions := by
  have unreused : compacted.Unreused 1 := fun child line =>
    compacted_unreused child (line.tail rfl)
  have first := Run.change (Run.start : Run 4096 (InLine compacted) {}) (compactedChange 1 [1] true)
    (by
      rintro _ ⟨⟩
      refine ⟨nofun, fun visit member => ?_, unreused, fun visit member => ?_, nofun⟩ <;>
        cases mem_singleton.mp member
      · exact .refl
      · rintro _ ⟨⟩ _ ⟨⟩)
  have second := first.change (compactedChange 2 [1, 2] true) (by
    rintro _ ⟨⟩
    refine ⟨?_, fun visit member => ?_, compacted_unreused, fun visit member => ?_, nofun⟩
    · rintro _ ⟨⟩
      exact .single rfl
    · cases mem_singleton.mp member
      exact .refl
    · cases mem_singleton.mp member
      rintro _ ⟨⟩ file removed
      cases mem_singleton.mp removed
      exact mem_cons_self)
  exact ⟨_, by decide, (live_files_stay_cached second _ rfl "b" (.added mem_cons_self) "lake").1⟩

end Coordinator

end Verglas.Tables
