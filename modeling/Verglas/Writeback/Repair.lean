import Verglas.Writeback.Staging

/-!
# Repairing the fragments of a dirty object

A repair pass loads every fragment of an object, re-encodes the object from the healthy ones when
there are at least `k`, places the missing fragments on spare live nodes, and writes the new
placements into the journal.  Meanwhile a straggler of the PUT may add a placement, propagation may
mark the journal clean, and the object may be deleted.  All but `delete` hold the lock of the
journal, so a delete can fall between the read and the write of an update.
-/

namespace Verglas.Writeback

open Cache Cluster List

/-- The counters of a repair pass. -/
structure ObjectRepair where
  scrubbed : Nat := 0
  corrupt : Nat := 0
  repaired : Nat := 0
  deriving DecidableEq, Repr

/-- How far a repair has come.  `returned none` is a repair that failed. -/
inductive RepairPhase where
  | examining (snapshot : CodedJournal) (rest healthy : List Placement) (toRepair : List Nat)
      (stats : ObjectRepair)
  | placing (snapshot : CodedJournal) (fragments : List Fragment) (candidates : List String)
      (indices : List Nat) (placements : List Placement) (stats : ObjectRepair)
  | updating (placements : List Placement) (stats : ObjectRepair)
  | writing (record : CodedJournal) (stats : ObjectRepair)
  | returned (result : Option ObjectRepair)

/-- An object under repair: its journal file, the fragment files of the pod and the repair.  The
last three fields record the fragment indices that the journal has listed so far, and whether the
object was cleaned or deleted meanwhile. -/
structure RepairState where
  file : Option CodedJournal
  plane : FragmentPlane
  phase : RepairPhase
  listed : List Nat
  cleaned : Bool := false
  deleted : Bool := false

/-- The repair has read the journal. -/
def RepairState.start (journal : CodedJournal) (plane : FragmentPlane) : RepairState where
  file := some journal
  plane := plane
  phase := .examining journal journal.placements [] [] {}
  listed := journal.placements.map Placement.index

section Functions

variable (code : ErasureCode UInt8) (crc32c : Bytes → UInt32) (score : String → Nat)
  (live : List String)

/-- Sort one placement into the healthy ones or the indices to repair.  `answers` is false when the
node cannot be reached. -/
def examine (plane : FragmentPlane) (answers : Bool) (objectId : String) (placement : Placement)
    (healthy : List Placement) (toRepair : List Nat) (stats : ObjectRepair) :
    List Placement × List Nat × ObjectRepair :=
  if placement.node ∈ live then
    let scrubbed := { stats with scrubbed := stats.scrubbed + 1 }
    match load plane (fun _ => answers) placement.node ⟨objectId, placement.index⟩ with
    | some loaded =>
      if loaded.isHealthy crc32c then (healthy ++ [placement], toRepair, scrubbed)
      else
        (healthy, toRepair.insert placement.index,
          { scrubbed with corrupt := stats.corrupt + 1 })
    | none => (healthy, toRepair.insert placement.index, scrubbed)
  else (healthy, toRepair.insert placement.index, stats)

/-- Encode a body with the chunk that the journal records. -/
def encodeWithGeometryChunk (k m chunk : Nat) (body : Bytes) : Except CodecError Encoded := do
  let geometry ← Geometry.streaming k m chunk
  encodeWith code crc32c geometry body

/-- The live nodes that hold no healthy fragment. -/
def spareNodes (healthy : List Placement) : List String :=
  (placementOrder score live).filter fun node => node ∉ healthy.map Placement.node

/-- What the repair does once every placement is examined. -/
def planRepair (plane : FragmentPlane) (reachable : String → Bool) (snapshot : CodedJournal)
    (healthy : List Placement) (toRepair : List Nat) (stats : ObjectRepair) : RepairPhase :=
  if toRepair = [] then .returned (some stats)
  else if healthy.length < snapshot.k then .returned (some stats)
  else
    match reassembleObject crc32c plane reachable code
        { snapshot with placements := healthy } with
    | .error _ => .returned none
    | .ok bytes =>
      match encodeWithGeometryChunk code crc32c snapshot.k snapshot.m snapshot.chunk bytes with
      | .error _ => .returned none
      | .ok encoded =>
        .placing snapshot encoded.fragments (spareNodes score live healthy)
          (toRepair.insertionSort (· ≤ ·)) healthy stats

end Functions

/-- Add a placement unless its index is already listed. -/
def CodedJournal.addPlacement (journal : CodedJournal) (placement : Placement) : CodedJournal :=
  if journal.placements.any fun listed => listed.index = placement.index then journal
  else { journal with placements := journal.placements ++ [placement] }

/-- Who takes a step. -/
inductive RepairEvent where
  | repair
  | addPlacement (placement : Placement)
  | markClean
  | delete
  | purge (node : String) (key : FragmentKey)

/-- The repair is between the read and the write of its update, holding the journal's lock. -/
def RepairPhase.Locked : RepairPhase → Prop
  | .writing _ _ => True
  | _ => False

def RepairPhase.Returned : RepairPhase → Prop
  | .returned _ => True
  | _ => False

section Steps

variable (code : ErasureCode UInt8) (crc32c : Bytes → UInt32) (score : String → Nat)
  (live : List String)

/-- A step of the repair or of its environment, until the repair returns. -/
inductive RepairStep (state : RepairState) : RepairEvent → RepairState → Prop where
  | examine {snapshot : CodedJournal} {placement : Placement}
      {rest healthy healthier : List Placement} {toRepair more : List Nat}
      {stats counted : ObjectRepair} (answers : Bool)
      (phase : state.phase = .examining snapshot (placement :: rest) healthy toRepair stats)
      (examined : Writeback.examine crc32c live state.plane answers snapshot.objectId placement
        healthy toRepair stats = (healthier, more, counted)) :
      RepairStep state .repair
        { state with phase := .examining snapshot rest healthier more counted }
  | plan {snapshot : CodedJournal} {healthy : List Placement} {toRepair : List Nat}
      {stats : ObjectRepair} (reachable : String → Bool)
      (phase : state.phase = .examining snapshot [] healthy toRepair stats) :
      RepairStep state .repair
        { state with
          phase := planRepair code crc32c score live state.plane reachable snapshot healthy toRepair
            stats }
  | place {snapshot : CodedJournal} {fragments : List Fragment} {fragment : Fragment}
      {candidates : List String} {node : String} {index : Nat} {indices : List Nat}
      {placements : List Placement} {stats : ObjectRepair}
      (phase : state.phase =
        .placing snapshot fragments candidates (index :: indices) placements stats)
      (popped : candidates.getLast? = some node) (encoded : fragments[index]? = some fragment) :
      RepairStep state .repair
        { state with
          plane := state.plane.storeFragment node
            (FragmentRecord.new crc32c ⟨snapshot.objectId, index⟩ fragment.bytes)
          phase := .placing snapshot fragments candidates.dropLast indices
            (placements ++ [⟨index, node⟩]) { stats with repaired := stats.repaired + 1 } }
  | placeFailed {snapshot : CodedJournal} {fragments : List Fragment} {fragment : Fragment}
      {candidates : List String} {node : String} {index : Nat} {indices : List Nat}
      {placements : List Placement} {stats : ObjectRepair} (landed : Bool)
      (phase : state.phase =
        .placing snapshot fragments candidates (index :: indices) placements stats)
      (popped : candidates.getLast? = some node) (encoded : fragments[index]? = some fragment) :
      RepairStep state .repair
        { state with
          plane := if landed then state.plane.storeFragment node
            (FragmentRecord.new crc32c ⟨snapshot.objectId, index⟩ fragment.bytes) else state.plane
          phase := .returned none }
  | placed {snapshot : CodedJournal} {fragments : List Fragment} {candidates : List String}
      {indices : List Nat} {placements : List Placement} {stats : ObjectRepair}
      (phase : state.phase = .placing snapshot fragments candidates indices placements stats)
      (stop : indices = [] ∨ candidates = []) :
      RepairStep state .repair { state with phase := .updating placements stats }
  | readGone {placements : List Placement} {stats : ObjectRepair}
      (phase : state.phase = .updating placements stats) (gone : state.file = none) :
      RepairStep state .repair { state with phase := .returned (some stats) }
  | read {placements : List Placement} {journal : CodedJournal} {stats : ObjectRepair}
      (phase : state.phase = .updating placements stats) (found : state.file = some journal) :
      RepairStep state .repair
        { state with phase := .writing { journal with placements := placements } stats }
  | write {record : CodedJournal} {stats : ObjectRepair}
      (phase : state.phase = .writing record stats) :
      RepairStep state .repair { state with file := some record, phase := .returned (some stats) }
  | writeFailed {record : CodedJournal} {stats : ObjectRepair} (landed : Bool)
      (phase : state.phase = .writing record stats) :
      RepairStep state .repair
        { state with
          file := if landed then some record else state.file
          phase := .returned none }
  | addPlacement (placement : Placement) (unlocked : ¬ state.phase.Locked)
      (running : ¬ state.phase.Returned) :
      RepairStep state (.addPlacement placement)
        { state with
          file := state.file.map (·.addPlacement placement)
          listed := if state.file.isSome then state.listed ++ [placement.index] else state.listed }
  | markClean (unlocked : ¬ state.phase.Locked) (running : ¬ state.phase.Returned) :
      RepairStep state .markClean
        { state with
          file := state.file.map fun journal => { journal with state := .clean }
          cleaned := state.cleaned || state.file.isSome }
  | delete (running : ¬ state.phase.Returned) :
      RepairStep state .delete { state with file := none, deleted := true }
  | purge (node : String) (key : FragmentKey) (unneeded : state.cleaned ∨ state.deleted)
      (running : ¬ state.phase.Returned) :
      RepairStep state (.purge node key) { state with plane := state.plane.deleteFragment node key }

/-- Steps of a repair and its environment, each of which meets a condition. -/
inductive RepairRun (condition : RepairState → RepairEvent → Prop) (start : RepairState) :
    RepairState → Prop where
  | start : RepairRun condition start start
  | step {state after : RepairState} {event : RepairEvent}
      (run : RepairRun condition start state)
      (step : RepairStep code crc32c score live state event after)
      (allowed : condition state event) : RepairRun condition start after

end Steps

variable {reachable : String → Bool}

section Health

variable {code : ErasureCode UInt8} {crc32c : Bytes → UInt32} {plane : FragmentPlane}
  {objectId : String} {rows : List (List Bytes)} {total : Nat}

/-- A fragment that passes its checksum is the one that was placed. -/
def Intact (crc32c : Bytes → UInt32) (plane : FragmentPlane) (objectId : String)
    (rows : List (List Bytes)) (total : Nat) : Prop :=
  ∀ placement fragment, placement.index < total →
    verifiedFragment crc32c plane (fun _ => true) objectId placement = some fragment →
      fragment.bytes = column rows placement.index

/-- The node of a placement holds its fragment. -/
def Healthy (crc32c : Bytes → UInt32) (plane : FragmentPlane) (objectId : String)
    (rows : List (List Bytes)) (placement : Placement) : Prop :=
  verifiedFragment crc32c plane (fun _ => true) objectId placement =
    some (Fragment.new crc32c placement.index (column rows placement.index))

variable {placement : Placement} {fragment : Fragment}

theorem verifiedFragment_of_reachable
    (found : verifiedFragment crc32c plane reachable objectId placement = some fragment) :
    verifiedFragment crc32c plane (fun _ => true) objectId placement = some fragment := by
  by_cases up : reachable placement.node
  · simpa only [verifiedFragment, load, up, if_true] using found
  · simp [verifiedFragment, load, up] at found

theorem Intact.healthy (intact : Intact crc32c plane objectId rows total)
    (inside : placement.index < total)
    (found : verifiedFragment crc32c plane (fun _ => true) objectId placement = some fragment) :
    Healthy crc32c plane objectId rows placement := by
  have bytes_eq := intact placement fragment inside found
  obtain ⟨index_eq, verified⟩ := verifiedFragment_eq_some found
  have checksum_eq : crc32c fragment.bytes = fragment.checksum := of_decide_eq_true verified
  rw [Healthy, found, Fragment.new, ← bytes_eq, ← index_eq, checksum_eq]

theorem verifiedFragment_storeFragment (node : String) (index : Nat) (placement : Placement) :
    verifiedFragment crc32c (plane.storeFragment node
        (FragmentRecord.new crc32c ⟨objectId, index⟩ (column rows index))) (fun _ => true)
        objectId placement =
      if placement = ⟨index, node⟩ then
        some (Fragment.new crc32c placement.index (column rows placement.index))
      else verifiedFragment crc32c plane (fun _ => true) objectId placement := by
  split
  · rename_i same
    subst same
    refine Stores.verifiedFragment_eq ?_ rfl
    rw [Stores, FragmentPlane.storeFragment]
    exact FragmentPlane.write_self _ _ _ _
  · rename_i apart
    have other : plane.storeFragment node
        (FragmentRecord.new crc32c ⟨objectId, index⟩ (column rows index)) placement.node
        ⟨objectId, placement.index⟩ = plane placement.node ⟨objectId, placement.index⟩ := by
      rw [FragmentPlane.storeFragment, FragmentPlane.write, if_neg]
      rintro ⟨node_eq, key_eq⟩
      refine apart ?_
      cases node_eq
      cases key_eq
      rfl
    simp only [verifiedFragment, load, FragmentPlane.loadFragment, other]

theorem Healthy.storeFragment {node : String} {index : Nat}
    (healthy : Healthy crc32c plane objectId rows placement) :
    Healthy crc32c (plane.storeFragment node
      (FragmentRecord.new crc32c ⟨objectId, index⟩ (column rows index))) objectId rows
      placement := by
  rw [Healthy, verifiedFragment_storeFragment]
  split
  · rfl
  · exact healthy

theorem Intact.storeFragment (intact : Intact crc32c plane objectId rows total) (node : String)
    (index : Nat) :
    Intact crc32c (plane.storeFragment node
      (FragmentRecord.new crc32c ⟨objectId, index⟩ (column rows index))) objectId rows total := by
  intro placement fragment inside found
  rw [verifiedFragment_storeFragment] at found
  split at found
  · cases found
    rfl
  · exact intact placement fragment inside found

theorem Intact.deleteFragment (intact : Intact crc32c plane objectId rows total) (node : String)
    (key : FragmentKey) :
    Intact crc32c (plane.deleteFragment node key) objectId rows total := by
  intro placement fragment inside found
  by_cases same : placement.node = node ∧ FragmentKey.mk objectId placement.index = key
  · simp [verifiedFragment, load, FragmentPlane.loadFragment, FragmentPlane.deleteFragment,
      FragmentPlane.write, same] at found
  · refine intact placement fragment inside ?_
    simpa only [verifiedFragment, load, FragmentPlane.loadFragment, FragmentPlane.deleteFragment,
      FragmentPlane.write, same, if_false] using found

/-- The journal of an object that a PUT has staged: `body` was encoded into `rows`, and the
placements name distinct fragments. -/
structure Staged (code : ErasureCode UInt8) (journal : CodedJournal) (body : Bytes)
    (rows : List (List Bytes)) : Prop where
  valid : journal.geometry.Valid
  chunk : roundUpEven (max journal.chunk 2) = journal.chunk
  rows : stripeRows code journal.geometry body = .ok rows
  length : journal.objectLen = body.length
  distinct : (journal.placements.map Placement.index).Nodup
  inside : ∀ placement ∈ journal.placements, placement.index < journal.geometry.total

namespace Staged

variable {journal : CodedJournal} {body : Bytes}

theorem encodeWithGeometryChunk_eq {encoded : Encoded} (lawful : code.Lawful)
    (staged : Staged code journal body rows)
    (done : encodeWithGeometryChunk code crc32c journal.k journal.m journal.chunk body =
      .ok encoded) :
    encoded.fragments = (List.range journal.geometry.total).map fun index =>
      Fragment.new crc32c index (column rows index) := by
  rw [encodeWithGeometryChunk, Except.bind_eq_ok_iff] at done
  obtain ⟨geometry, built, done⟩ := done
  have geometry_eq : geometry = journal.geometry := by
    rw [(Geometry.streaming_eq_ok built).2, staged.chunk]
    rfl
  rw [geometry_eq] at done
  obtain ⟨again, again_eq, _, _, fragments⟩ := encodeWith_eq_ok lawful staged.valid done
  cases staged.rows.symm.trans again_eq
  exact fragments

theorem reassembleObject_eq (lawful : code.Lawful) (staged : Staged code journal body rows)
    (intact : Intact crc32c plane journal.objectId rows journal.geometry.total)
    (enough : journal.k ≤ (journal.placements.filterMap
      (verifiedFragment crc32c plane reachable journal.objectId)).length) :
    reassembleObject crc32c plane reachable code journal = .ok body :=
  reassembleObject_eq_ok lawful staged.valid (stripeRows_eq_ok staged.valid staged.rows)
    staged.length staged.distinct staged.inside
    (fun placement listed fragment found => intact placement fragment
      (staged.inside placement listed) (verifiedFragment_of_reachable found)) enough

end Staged

end Health

section Invariant

variable {code : ErasureCode UInt8} {crc32c : Bytes → UInt32} {score : String → Nat}
  {live : List String} {journal : CodedJournal} {plane : FragmentPlane} {body : Bytes}
  {rows : List (List Bytes)} {state after : RepairState} {event : RepairEvent}

/-- The object was neither cleaned nor deleted since the repair began. -/
def RepairState.Kept (state : RepairState) : Prop :=
  state.cleaned = false ∧ state.deleted = false

/-- The journal with other placements, clean if the object was cleaned. -/
def CodedJournal.revised (journal : CodedJournal) (cleaned : Bool) (placements : List Placement) :
    CodedJournal :=
  { journal with
    placements := placements
    state := if cleaned then .clean else journal.state }

/-- The journal file has the given placements, unless the object was deleted. -/
def RepairState.Filed (journal : CodedJournal) (placements : List Placement)
    (state : RepairState) : Prop :=
  state.file = if state.deleted then none else some (journal.revised state.cleaned placements)

/-- Placements of all fragments of the journal, at least `k` of them healthy. -/
structure Rebuilt (crc32c : Bytes → UInt32) (journal : CodedJournal) (rows : List (List Bytes))
    (state : RepairState) (placements : List Placement) (missing : List Nat) : Prop where
  indices : (placements.map Placement.index ++ missing).Perm
    (journal.placements.map Placement.index)
  enough : journal.k ≤ placements.length
  healthy : state.Kept → ∀ placement ∈ placements,
    Healthy crc32c state.plane journal.objectId rows placement

/-- What holds in each phase of a repair. -/
def RepairPhase.Sound (crc32c : Bytes → UInt32) (live : List String) (journal : CodedJournal)
    (rows : List (List Bytes)) (state : RepairState) : RepairPhase → Prop
  | .examining snapshot rest healthy toRepair _ =>
    snapshot = journal ∧ state.Filed journal journal.placements ∧
      ∃ done, journal.placements = done ++ rest ∧ healthy.Sublist done ∧
        (healthy.map Placement.index ++ toRepair).Perm (done.map Placement.index) ∧
        (∀ placement ∈ healthy, placement.node ∈ live) ∧
        (state.Kept → ∀ placement ∈ healthy,
          Healthy crc32c state.plane journal.objectId rows placement)
  | .placing snapshot fragments candidates indices placements _ =>
    snapshot = journal ∧ state.Filed journal journal.placements ∧
      fragments = ((List.range journal.geometry.total).map fun index =>
        Fragment.new crc32c index (column rows index)) ∧
      Rebuilt crc32c journal rows state placements indices ∧
      indices.length ≤ candidates.length ∧
      ((journal.placements.map Placement.node).Nodup →
        (placements.map Placement.node ++ candidates).Nodup)
  | .updating placements _ =>
    state.Filed journal journal.placements ∧ Rebuilt crc32c journal rows state placements [] ∧
      ((journal.placements.map Placement.node).Nodup → (placements.map Placement.node).Nodup)
  | .writing record _ => ∃ placements, state.deleted = false ∧
      record = journal.revised state.cleaned placements ∧
      state.Filed journal journal.placements ∧ Rebuilt crc32c journal rows state placements [] ∧
      ((journal.placements.map Placement.node).Nodup → (placements.map Placement.node).Nodup)
  | .returned _ => state.Filed journal journal.placements ∨
      ∃ placements, state.Filed journal placements ∧
        Rebuilt crc32c journal rows state placements [] ∧
        ((journal.placements.map Placement.node).Nodup → (placements.map Placement.node).Nodup)

/-- What a repair of a staged object preserves. -/
structure RepairState.Sound (crc32c : Bytes → UInt32) (live : List String)
    (journal : CodedJournal) (plane : FragmentPlane) (rows : List (List Bytes))
    (state : RepairState) : Prop where
  intact : Intact crc32c state.plane journal.objectId rows journal.geometry.total
  grows : state.Kept → ∀ placement, Healthy crc32c plane journal.objectId rows placement →
    Healthy crc32c state.plane journal.objectId rows placement
  listed : ∀ index ∈ state.listed, index ∈ journal.placements.map Placement.index
  phase : state.phase.Sound crc32c live journal rows state

/-- No straggler adds a fragment that the journal does not list, and the object is not deleted
between the read and the write of the update. -/
def RepairState.Undisturbed (state : RepairState) : RepairEvent → Prop
  | .addPlacement placement => placement.index ∈ state.listed
  | .delete => ¬ state.phase.Locked
  | _ => True

theorem RepairState.sound_start
    (intact : Intact crc32c plane journal.objectId rows journal.geometry.total) :
    (RepairState.start journal plane).Sound crc32c live journal plane rows where
  intact := intact
  grows := fun _ _ healthy => healthy
  listed := fun _ member => member
  phase := ⟨rfl, rfl, [], rfl, List.Sublist.slnil, List.Perm.refl _,
    fun _ listed => absurd listed List.not_mem_nil,
    fun _ _ listed => absurd listed List.not_mem_nil⟩

variable {placement : Placement} {healthy : List Placement} {toRepair : List Nat}
  {stats : ObjectRepair} {index : Nat} {phase : RepairPhase}

theorem examine_cases {answers : Bool} {objectId : String} {healthier : List Placement}
    {more : List Nat} {counted : ObjectRepair}
    (examined : examine crc32c live plane answers objectId placement healthy toRepair stats =
      (healthier, more, counted)) :
    healthier = healthy ++ [placement] ∧ more = toRepair ∧ placement.node ∈ live ∧
        (∃ fragment,
          verifiedFragment crc32c plane (fun _ => true) objectId placement = some fragment) ∨
      healthier = healthy ∧ more = toRepair.insert placement.index := by
  rw [examine] at examined
  split at examined
  · rename_i alive
    split at examined
    · rename_i loaded loaded_eq
      split at examined
      · rename_i passes
        cases examined
        have found : verifiedFragment crc32c plane (fun _ => answers) objectId placement =
            some ⟨placement.index, loaded.bytes, loaded.checksum⟩ := by
          rw [verifiedFragment, loaded_eq]
          exact if_pos passes
        exact .inl ⟨rfl, rfl, alive, _, verifiedFragment_of_reachable found⟩
      · cases examined
        exact .inr ⟨rfl, rfl⟩
    · cases examined
      exact .inr ⟨rfl, rfl⟩
  · cases examined
    exact .inr ⟨rfl, rfl⟩

theorem le_length_spareNodes (live_nodup : live.Nodup) (healthy : List Placement) :
    live.length ≤ (spareNodes score live healthy).length + healthy.length := by
  have ordered : (placementOrder score live).Perm live := perm_insertionSort _ _
  have split := (placementOrder score live).length_eq_length_filter_add
    fun node => node ∉ healthy.map Placement.node
  have taken : ((placementOrder score live).filter
      fun node => !decide (node ∉ healthy.map Placement.node)) ⊆ healthy.map Placement.node := by
    intro node member
    simpa using (mem_filter.mp member).2
  have nodup : ((placementOrder score live).filter
      fun node => !decide (node ∉ healthy.map Placement.node)).Nodup :=
    (ordered.nodup_iff.mpr live_nodup).filter _
  have bound := (subperm_of_subset nodup taken).length_le
  rw [length_map] at bound
  rw [ordered.length_eq] at split
  rw [spareNodes]
  omega

/-- The repair returns without a change, or it plans to place every fragment that is not healthy. -/
theorem planRepair_sound (lawful : code.Lawful) (staged : Staged code journal body rows)
    (live_nodup : live.Nodup) (spare : journal.placements.length ≤ live.length)
    (intact : Intact crc32c state.plane journal.objectId rows journal.geometry.total)
    (filed : state.Filed journal journal.placements) (sublist : healthy.Sublist journal.placements)
    (partition : (healthy.map Placement.index ++ toRepair).Perm
      (journal.placements.map Placement.index))
    (are_healthy : state.Kept → ∀ placement ∈ healthy,
      Healthy crc32c state.plane journal.objectId rows placement) :
    (planRepair code crc32c score live state.plane reachable journal healthy toRepair stats).Sound
      crc32c live journal rows state := by
  rw [planRepair]
  split
  · exact .inl filed
  split
  · exact .inl filed
  rename_i enough
  split
  · exact .inl filed
  rename_i bytes reassembled
  split
  · exact .inl filed
  rename_i encoded encoding
  have healthy_staged : Staged code { journal with placements := healthy } body rows :=
    ⟨staged.valid, staged.chunk, staged.rows, staged.length,
      staged.distinct.sublist (sublist.map _),
      fun placement listed => staged.inside placement (sublist.subset listed)⟩
  have whole := healthy_staged.reassembleObject_eq lawful intact
    (le_length_of_reassembleObject reassembled)
  rw [Except.ok.inj (reassembled.symm.trans whole)] at encoding
  have sorted : (toRepair.insertionSort (· ≤ ·)).Perm toRepair := perm_insertionSort _ _
  have count : healthy.length + toRepair.length = journal.placements.length := by
    simpa using partition.length_eq
  refine ⟨rfl, filed, staged.encodeWithGeometryChunk_eq lawful encoding,
    ⟨(sorted.append_left _).trans partition, Nat.not_lt.mp enough, are_healthy⟩, ?_, ?_⟩
  · have spares : live.length ≤ (spareNodes score live healthy).length + healthy.length :=
      le_length_spareNodes live_nodup healthy
    rw [sorted.length_eq]
    omega
  · intro nodes_nodup
    refine (nodes_nodup.sublist (sublist.map _)).append ?_ ?_
    · exact (((perm_insertionSort _ _).nodup_iff).mpr live_nodup).filter _
    · intro node occupied spareNode
      have unoccupied := (mem_filter.mp spareNode).2
      simp [occupied] at unoccupied

theorem Rebuilt.place {placements : List Placement} {indices : List Nat} {node : String}
    (rebuilt : Rebuilt crc32c journal rows state placements (index :: indices)) :
    Rebuilt crc32c journal rows
      { state with
        plane := state.plane.storeFragment node
          (FragmentRecord.new crc32c ⟨journal.objectId, index⟩ (column rows index))
        phase := phase }
      (placements ++ [⟨index, node⟩]) indices where
  indices := by
    rw [map_append, append_assoc]
    exact rebuilt.indices
  enough := by
    rw [length_append]
    exact Nat.le_add_right_of_le rebuilt.enough
  healthy := by
    intro kept placement listed
    rcases mem_append.mp listed with before | now
    · exact (rebuilt.healthy kept placement before).storeFragment
    · rw [mem_singleton.mp now]
      rw [Healthy, verifiedFragment_storeFragment, if_pos rfl]

theorem bytes_of_fragments {count : Nat} {fragment : Fragment}
    (found : ((List.range count).map fun index =>
      Fragment.new crc32c index (column rows index))[index]? = some fragment) :
    fragment.bytes = column rows index := by
  rw [List.getElem?_map, Option.map_eq_some_iff] at found
  obtain ⟨position, at_index, rfl⟩ := found
  rw [List.getElem?_range (by simpa using (List.getElem?_eq_some_iff.mp at_index).1)] at at_index
  cases at_index
  rfl

/-- A change of the object's fate or of other fragments keeps the phase of the repair. -/
theorem RepairPhase.Sound.transfer (running : ¬ phase.Returned)
    (sound : phase.Sound crc32c live journal rows state)
    (locked : phase.Locked → after.cleaned = state.cleaned ∧ after.deleted = state.deleted)
    (filed : state.Filed journal journal.placements → after.Filed journal journal.placements)
    (kept : after.Kept → state.Kept ∧ after.plane = state.plane) :
    phase.Sound crc32c live journal rows after := by
  have rebuilds : ∀ placements missing, Rebuilt crc32c journal rows state placements missing →
      Rebuilt crc32c journal rows after placements missing := by
    intro placements missing rebuilt
    refine ⟨rebuilt.indices, rebuilt.enough, fun still placement member => ?_⟩
    rw [(kept still).2]
    exact rebuilt.healthy (kept still).1 placement member
  cases phase with
  | examining snapshot rest healthy toRepair stats =>
    obtain ⟨rfl, file, done, placements_eq, sublist, partition, alive, are_healthy⟩ := sound
    refine ⟨rfl, filed file, done, placements_eq, sublist, partition, alive,
      fun still placement member => ?_⟩
    rw [(kept still).2]
    exact are_healthy (kept still).1 placement member
  | placing snapshot fragments candidates indices placements stats =>
    obtain ⟨rfl, file, fragments_eq, rebuilt, spares, nodes⟩ := sound
    exact ⟨rfl, filed file, fragments_eq, rebuilds _ _ rebuilt, spares, nodes⟩
  | updating placements stats =>
    obtain ⟨file, rebuilt, nodes⟩ := sound
    exact ⟨filed file, rebuilds _ _ rebuilt, nodes⟩
  | writing record stats =>
    obtain ⟨placements, undeleted, record_eq, file, rebuilt, nodes⟩ := sound
    obtain ⟨cleaned_eq, deleted_eq⟩ := locked trivial
    exact ⟨placements, deleted_eq.trans undeleted, cleaned_eq ▸ record_eq, filed file,
      rebuilds _ _ rebuilt, nodes⟩
  | returned result => exact absurd trivial running

theorem RepairPhase.Sound.filed (unlocked : ¬ phase.Locked) (running : ¬ phase.Returned)
    (sound : phase.Sound crc32c live journal rows state) :
    state.Filed journal journal.placements := by
  cases phase with
  | examining snapshot rest healthy toRepair stats
  | placing snapshot fragments candidates indices placements stats => exact sound.2.1
  | updating placements stats => exact sound.1
  | writing record stats => exact absurd trivial unlocked
  | returned result => exact absurd trivial running

theorem RepairStep.sound (lawful : code.Lawful) (staged : Staged code journal body rows)
    (live_nodup : live.Nodup) (spare : journal.placements.length ≤ live.length)
    (step : RepairStep code crc32c score live state event after)
    (allowed : RepairState.Undisturbed state event)
    (sound : state.Sound crc32c live journal plane rows) :
    after.Sound crc32c live journal plane rows := by
  obtain ⟨intact, grows, listed, phase_sound⟩ := sound
  have at_phase {now : RepairPhase} (phase : state.phase = now) :
      now.Sound crc32c live journal rows state := phase ▸ phase_sound
  cases step with
  | @examine snapshot placement rest healthy healthier toRepair more stats counted answers phase
      examined =>
    obtain ⟨rfl, filed, done, placements_eq, sublist, partition, alive, are_healthy⟩ :=
      at_phase phase
    have here : placement ∈ snapshot.placements := by simp [placements_eq]
    have placements_eq' : snapshot.placements = (done ++ [placement]) ++ rest := by
      simp [placements_eq]
    refine ⟨intact, grows, listed, rfl, filed, done ++ [placement], placements_eq', ?_⟩
    rcases examine_cases examined with ⟨rfl, rfl, live_node, fragment, found⟩ | ⟨rfl, rfl⟩
    · refine ⟨sublist.append (List.Sublist.refl _), ?_, ?_, ?_⟩
      · have shifted : (healthy.map Placement.index ++ [placement.index] ++ more).Perm
            (placement.index :: (healthy.map Placement.index ++ more)) := by
          rw [append_assoc]
          exact perm_middle
        rw [map_append, map_append]
        exact shifted.trans ((partition.cons _).trans (perm_append_singleton _ _).symm)
      · refine forall_mem_append.mpr ⟨alive, forall_mem_singleton.mpr ?_⟩
        exact live_node
      · intro kept
        refine forall_mem_append.mpr ⟨are_healthy kept, forall_mem_singleton.mpr ?_⟩
        exact intact.healthy (staged.inside placement here) found
    · refine ⟨sublist.trans (sublist_append_left _ _), ?_, alive, are_healthy⟩
      have unlisted : placement.index ∉ toRepair := by
        intro member
        have distinct := staged.distinct
        rw [placements_eq, map_append, map_cons] at distinct
        have earlier : placement.index ∈ done.map Placement.index :=
          partition.subset (mem_append_right _ member)
        exact (disjoint_of_nodup_append distinct) earlier mem_cons_self
      rw [insert_of_not_mem unlisted, map_append]
      exact (perm_middle.trans (partition.cons _)).trans (perm_append_singleton _ _).symm
  | @plan snapshot healthy toRepair stats reachable phase =>
    obtain ⟨rfl, filed, done, placements_eq, sublist, partition, alive, are_healthy⟩ :=
      at_phase phase
    rw [append_nil] at placements_eq
    subst placements_eq
    exact ⟨intact, grows, listed, planRepair_sound lawful staged live_nodup spare intact filed
      sublist partition are_healthy⟩
  | @place snapshot fragments fragment candidates node index indices placements stats phase
      popped encoded =>
    obtain ⟨rfl, filed, rfl, rebuilt, spares, nodes⟩ := at_phase phase
    have bytes_eq := bytes_of_fragments encoded
    rw [bytes_eq]
    have split : candidates.dropLast ++ [node] = candidates :=
      dropLast_append_getLast? node popped
    refine ⟨intact.storeFragment node index, ?_, listed, rfl, filed, rfl, rebuilt.place, ?_, ?_⟩
    · exact fun kept other healthy => (grows kept other healthy).storeFragment
    · rw [← split, length_append, length_cons, length_singleton] at spares
      omega
    · intro nodup
      have before := nodes nodup
      rw [← split] at before
      rw [map_append, append_assoc]
      exact (perm_append_comm.append_left _).nodup_iff.mp before
  | @placeFailed snapshot fragments fragment candidates node index indices placements stats landed
      phase popped encoded =>
    obtain ⟨rfl, filed, rfl, rebuilt, spares, nodes⟩ := at_phase phase
    have bytes_eq := bytes_of_fragments encoded
    rw [bytes_eq]
    cases landed with
    | false => exact ⟨intact, grows, listed, .inl filed⟩
    | true =>
      exact ⟨intact.storeFragment node index,
        fun kept other healthy => (grows kept other healthy).storeFragment, listed,
        .inl filed⟩
  | @placed snapshot fragments candidates indices placements stats phase stop =>
    obtain ⟨rfl, filed, fragments_eq, rebuilt, spares, nodes⟩ := at_phase phase
    have none_left : indices = [] := by
      rcases stop with done | exhausted
      · exact done
      · rw [exhausted, length_nil] at spares
        exact length_eq_zero_iff.mp (Nat.le_zero.mp spares)
    subst none_left
    exact ⟨intact, grows, listed, filed, { rebuilt with },
      fun nodup => (nodes nodup).of_append_left⟩
  | readGone phase gone =>
    exact ⟨intact, grows, listed, .inl (at_phase phase).1⟩
  | @read placements found_journal stats phase found =>
    obtain ⟨filed, rebuilt, nodes⟩ := at_phase phase
    have undeleted : state.deleted = false := by
      by_contra deleted
      rw [RepairState.Filed, if_pos (by simpa using deleted), found] at filed
      cases filed
    have journal_eq : found_journal = journal.revised state.cleaned journal.placements := by
      rw [RepairState.Filed, if_neg (by simp [undeleted]), found] at filed
      exact Option.some.inj filed
    refine ⟨intact, grows, listed, placements, undeleted, ?_, filed,
      { rebuilt with }, nodes⟩
    rw [journal_eq]
    rfl
  | @write record stats phase =>
    obtain ⟨placements, undeleted, record_eq, filed, rebuilt, nodes⟩ := at_phase phase
    refine ⟨intact, grows, listed, .inr ⟨placements, ?_,
      { rebuilt with }, nodes⟩⟩
    rw [RepairState.Filed, record_eq]
    simp [undeleted]
  | @writeFailed record stats landed phase =>
    obtain ⟨placements, undeleted, record_eq, filed, rebuilt, nodes⟩ := at_phase phase
    refine ⟨intact, grows, listed, ?_⟩
    cases landed with
    | false => exact .inl filed
    | true =>
      refine .inr ⟨placements, ?_, { rebuilt with }, nodes⟩
      rw [RepairState.Filed, record_eq]
      simp [undeleted]
  | addPlacement placement unlocked running =>
    have filed := phase_sound.filed unlocked running
    have known : placement.index ∈ journal.placements.map Placement.index :=
      listed placement.index allowed
    have file_eq : state.file.map (·.addPlacement placement) = state.file := by
      rw [filed]
      split
      · rfl
      · obtain ⟨kept, member, index_eq⟩ := mem_map.mp known
        exact congrArg some (if_pos (any_eq_true.mpr ⟨kept, member, decide_eq_true index_eq⟩))
    refine ⟨intact, grows, ?_, phase_sound.transfer running (fun _ => ⟨rfl, rfl⟩) ?_
      fun kept => ⟨kept, rfl⟩⟩
    · intro index member
      split at member
      · rcases mem_append.mp member with before | now
        · exact listed index before
        · rw [mem_singleton.mp now]
          exact known
      · exact listed index member
    · exact fun before => file_eq.trans before
  | markClean unlocked running =>
    have filed := phase_sound.filed unlocked running
    rw [RepairState.Filed] at filed
    have lost : ¬ RepairState.Kept
        { state with
          file := state.file.map fun journal => { journal with state := .clean }
          cleaned := state.cleaned || state.file.isSome } := by
      rintro ⟨uncleaned, undeleted⟩
      rw [if_neg (by simpa using undeleted)] at filed
      simp [filed] at uncleaned
    refine ⟨intact, fun kept => absurd kept lost, listed,
      phase_sound.transfer running (fun locked => absurd locked unlocked) (fun _ => ?_)
        fun kept => absurd kept lost⟩
    by_cases deleted : state.deleted
    · simp [RepairState.Filed, filed, deleted]
    · simp [RepairState.Filed, filed, deleted, CodedJournal.revised]
  | delete running =>
    have unlocked : ¬ state.phase.Locked := allowed
    refine ⟨intact, fun kept => absurd kept.2 (by simp), listed,
      phase_sound.transfer running (fun locked => absurd locked unlocked) (fun _ => rfl)
        fun kept => absurd kept.2 (by simp)⟩
  | purge node key unneeded running =>
    have lost : ¬ RepairState.Kept
        { state with plane := state.plane.deleteFragment node key } := by
      rintro ⟨uncleaned, undeleted⟩
      exact unneeded.elim (ne_true_of_eq_false uncleaned) (ne_true_of_eq_false undeleted)
    exact ⟨intact.deleteFragment node key, fun kept => absurd kept lost, listed,
      phase_sound.transfer running (fun _ => ⟨rfl, rfl⟩) (fun before => before)
        fun kept => absurd kept lost⟩

theorem RepairRun.sound (lawful : code.Lawful) (staged : Staged code journal body rows)
    (live_nodup : live.Nodup) (spare : journal.placements.length ≤ live.length)
    (intact : Intact crc32c plane journal.objectId rows journal.geometry.total)
    (run : RepairRun code crc32c score live RepairState.Undisturbed (.start journal plane) state) :
    state.Sound crc32c live journal plane rows := by
  induction run with
  | start => exact RepairState.sound_start intact
  | step _ step allowed induction =>
    exact step.sound lawful staged live_nodup spare allowed induction

/-- After an undisturbed repair with enough live nodes, the journal lists every fragment it has
listed, placements share no node if they did not before, an object deleted or cleaned meanwhile
stays so, and an object that could be read back still can. -/
theorem repair_keeps_every_fragment (lawful : code.Lawful)
    (staged : Staged code journal body rows)
    (intact : Intact crc32c plane journal.objectId rows journal.geometry.total)
    (live_nodup : live.Nodup) (spare : journal.placements.length ≤ live.length)
    (run : RepairRun code crc32c score live RepairState.Undisturbed (.start journal plane) state)
    (returned : state.phase.Returned) :
    (state.deleted → state.file = none) ∧
    (state.deleted = false → ∃ record, state.file = some record ∧
      (∀ index ∈ state.listed, index ∈ record.placements.map Placement.index) ∧
      ((journal.placements.map Placement.node).Nodup →
        (record.placements.map Placement.node).Nodup) ∧
      (state.cleaned → record.state = .clean) ∧
      (state.cleaned = false →
        (∃ bytes, reassembleObject crc32c plane (fun _ => true) code journal = .ok bytes) →
        reassembleObject crc32c state.plane (fun _ => true) code record = .ok body)) := by
  obtain ⟨intact_now, grows, listed, phase_sound⟩ := run.sound lawful staged live_nodup spare intact
  cases phase : state.phase with
  | examining | placing | updating | writing => rw [phase] at returned; exact returned.elim
  | returned result =>
    rw [phase] at phase_sound
    -- Either the placements are those of the snapshot, or they were all rebuilt.
    obtain ⟨placements, filed, indices, nodes, readable⟩ : ∃ placements,
        state.Filed journal placements ∧
        (placements.map Placement.index).Perm (journal.placements.map Placement.index) ∧
        ((journal.placements.map Placement.node).Nodup → (placements.map Placement.node).Nodup) ∧
        (state.Kept →
          (∃ bytes, reassembleObject crc32c plane (fun _ => true) code journal = .ok bytes) →
          journal.k ≤ (placements.filterMap (verifiedFragment crc32c state.plane
            (fun _ => true) journal.objectId)).length) := by
      rcases phase_sound with filed | ⟨placements, filed, rebuilt, nodes⟩
      · refine ⟨journal.placements, filed, List.Perm.refl _, id, ?_⟩
        rintro kept ⟨bytes, done⟩
        refine (le_length_of_reassembleObject done).trans ?_
        rw [length_filterMap_eq_countP, length_filterMap_eq_countP]
        refine countP_mono_left fun placement member verified => ?_
        obtain ⟨fragment, found⟩ := Option.isSome_iff_exists.mp verified
        have healthy := intact.healthy (staged.inside placement member) found
        rw [grows kept placement healthy]
        rfl
      · have indices := rebuilt.indices
        rw [append_nil] at indices
        refine ⟨placements, filed, indices, nodes, fun kept _ => ?_⟩
        rw [filterMap_congr (rebuilt.healthy kept), length_filterMap_eq_countP]
        simpa using rebuilt.enough
    refine ⟨fun deleted => by rw [filed, if_pos deleted], fun undeleted =>
      ⟨journal.revised state.cleaned placements, by rw [filed, if_neg (by simp [undeleted])],
        fun index member => indices.symm.subset (listed index member), nodes,
        fun cleaned => if_pos cleaned, fun uncleaned before => ?_⟩⟩
    have still_staged : Staged code (journal.revised state.cleaned placements) body rows :=
      ⟨staged.valid, staged.chunk, staged.rows, staged.length,
        indices.nodup_iff.mpr staged.distinct, fun placement member => by
          obtain ⟨original, originalMember, index_eq⟩ :=
            mem_map.mp (indices.subset (mem_map_of_mem member))
          exact index_eq ▸ staged.inside original originalMember⟩
    exact still_staged.reassembleObject_eq lawful intact_now
      (readable ⟨uncleaned, undeleted⟩ before)

end Invariant

/-- The journal of a two-byte object that is coded as three copies, of which two are placed. -/
def twoCopies : CodedJournal where
  objectId := "object"
  storageBindingId := "binding"
  bucket := "bucket"
  key := "key"
  objectLen := 2
  state := .dirty
  placements := [⟨0, "a"⟩, ⟨1, "b"⟩]
  k := 1
  m := 2
  chunk := 2

/-- Nodes `a` and `b` hold the two copies. -/
def twoCopiesPlane : FragmentPlane := fun node key =>
  if node = "a" ∧ key = ⟨"object", 0⟩ ∨ node = "b" ∧ key = ⟨"object", 1⟩ then
    some (fragmentFile [7, 9] 0)
  else none

theorem staged_twoCopies : Staged .mirror twoCopies [7, 9] [[[7, 9], [7, 9], [7, 9]]] where
  valid := ⟨by decide, by decide⟩
  chunk := by decide
  rows := rfl
  length := rfl
  distinct := by decide
  inside := by decide

theorem intact_twoCopies :
    Intact (fun _ => 0) twoCopiesPlane twoCopies.objectId [[[7, 9], [7, 9], [7, 9]]]
      twoCopies.geometry.total := by
  intro placement fragment inside found
  have columns : ∀ index < 3, column [[[7, 9], [7, 9], [7, 9]]] index = ([7, 9] : Bytes) := by
    decide
  have held : ∀ node key, twoCopiesPlane node key = none ∨
      twoCopiesPlane node key = some (fragmentFile [7, 9] 0) := by
    intro node key
    rw [twoCopiesPlane]
    split
    · exact .inr rfl
    · exact .inl rfl
  rw [columns placement.index inside]
  simp only [verifiedFragment, load, if_true, FragmentPlane.loadFragment] at found
  rcases held placement.node ⟨twoCopies.objectId, placement.index⟩ with absent | stored
  · simp [absent] at found
  simp only [stored, splitTrailer_fragmentFile] at found
  have fragment_eq : some (Fragment.mk placement.index [7, 9] 0) = some fragment := found
  cases fragment_eq
  rfl

/-- Rendezvous scores that order the nodes `a`, `c` and `e`. -/
def letterScore (node : String) : Nat :=
  if node = "a" then 3 else if node = "c" then 2 else 1

/-- Some repair of the two copies returns with a journal that no longer lists a fragment. -/
def LosesFragment (live : List String) (index : Nat) : Prop :=
  ∃ state record, RepairRun .mirror (fun _ => 0) letterScore live (fun _ _ => True)
      (.start twoCopies twoCopiesPlane) state ∧
    state.phase.Returned ∧ state.deleted = false ∧ state.file = some record ∧
    index ∈ state.listed ∧ index ∉ record.placements.map Placement.index

/-- With no spare node for the lost fragment 1, the repair drops it from the journal. -/
theorem repair_without_spare_node : LosesFragment ["a"] 1 := by
  have first : RepairRun .mirror (fun _ => 0) letterScore ["a"] (fun _ _ => True)
      (.start twoCopies twoCopiesPlane) _ := .step .start (.examine true rfl rfl) trivial
  have second := first.step (.examine true rfl rfl) trivial
  have planned := second.step (.plan (fun _ => true) rfl) trivial
  have placed := planned.step (.placed rfl (.inr rfl)) trivial
  have read := placed.step (.read rfl rfl) trivial
  exact ⟨_, _, read.step (.write rfl) trivial, trivial, rfl, rfl, by decide, by decide⟩

/-- A straggler that is added while the repair runs is dropped by its update. -/
theorem repair_overwrites_straggler : LosesFragment ["a", "c"] 2 := by
  have added : RepairRun .mirror (fun _ => 0) letterScore ["a", "c"] (fun _ _ => True)
      (.start twoCopies twoCopiesPlane) _ :=
    .step .start (.addPlacement ⟨2, "d"⟩ id id) trivial
  have first := added.step (.examine true rfl rfl) trivial
  have second := first.step (.examine true rfl rfl) trivial
  have planned := second.step (.plan (fun _ => true) rfl) trivial
  have placed := planned.step (.place rfl rfl rfl) trivial
  have stopped := placed.step (.placed rfl (.inl rfl)) trivial
  have read := stopped.step (.read rfl rfl) trivial
  exact ⟨_, _, read.step (.write rfl) trivial, trivial, rfl, rfl, by decide, by decide⟩

theorem run_twoCopies_read (condition : RepairState → RepairEvent → Prop)
    (allowed : ∀ state, condition state .repair) :
    ∃ state record stats, RepairRun .mirror (fun _ => 0) letterScore ["a", "c"] condition
        (.start twoCopies twoCopiesPlane) state ∧
      state.phase = .writing record stats ∧ state.deleted = false ∧ state.cleaned = false ∧
      record.placements = [⟨0, "a"⟩, ⟨1, "c"⟩] := by
  have first : RepairRun .mirror (fun _ => 0) letterScore ["a", "c"] condition
      (.start twoCopies twoCopiesPlane) _ := .step .start (.examine true rfl rfl) (allowed _)
  have second := first.step (.examine true rfl rfl) (allowed _)
  have planned := second.step (.plan (fun _ => true) rfl) (allowed _)
  have placed := planned.step (.place rfl rfl rfl) (allowed _)
  have stopped := placed.step (.placed rfl (.inl rfl)) (allowed _)
  exact ⟨_, _, _, stopped.step (.read rfl rfl) (allowed _), rfl, rfl, rfl, rfl⟩

/-- Repairs lose fragments of a staged object: without a spare node, and when a straggler is added
meanwhile; and they bring back an object that is deleted during the update. -/
theorem repair_forgets :
    Staged .mirror twoCopies [7, 9] [[[7, 9], [7, 9], [7, 9]]] ∧
    Intact (fun _ => 0) twoCopiesPlane twoCopies.objectId [[[7, 9], [7, 9], [7, 9]]]
      twoCopies.geometry.total ∧
    LosesFragment ["a"] 1 ∧ LosesFragment ["a", "c"] 2 ∧
    ∃ state, RepairRun .mirror (fun _ => 0) letterScore ["a", "c"] (fun _ _ => True)
        (.start twoCopies twoCopiesPlane) state ∧
      state.phase.Returned ∧ state.deleted ∧ state.file ≠ none := by
  refine ⟨staged_twoCopies, intact_twoCopies, repair_without_spare_node,
    repair_overwrites_straggler, ?_⟩
  obtain ⟨state, record, stats, read, phase, _⟩ :=
    run_twoCopies_read (fun _ _ => True) fun _ => trivial
  have deleted := read.step (.delete (by rw [phase]; exact id)) trivial
  exact ⟨_, deleted.step (.write phase) trivial, trivial, rfl, nofun⟩

/-- With a spare node and nobody in the way, the lost copy of the object is placed again. -/
theorem repair_twoCopies :
    ∃ state record, RepairRun .mirror (fun _ => 0) letterScore ["a", "c"] RepairState.Undisturbed
        (.start twoCopies twoCopiesPlane) state ∧
      state.file = some record ∧ record.placements = [⟨0, "a"⟩, ⟨1, "c"⟩] ∧
      reassembleObject (fun _ => 0) state.plane (fun _ => true) .mirror record = .ok [7, 9] := by
  obtain ⟨state, record, stats, read, phase, undeleted, uncleaned, placements⟩ :=
    run_twoCopies_read RepairState.Undisturbed fun _ => trivial
  have done := read.step (.write phase) trivial
  obtain ⟨found, file_eq, _, _, _, readable⟩ := (repair_keeps_every_fragment
    ErasureCode.mirror_lawful staged_twoCopies intact_twoCopies (by decide) (by decide) done
    trivial).2 undeleted
  cases file_eq
  exact ⟨_, record, done, rfl, placements, readable uncleaned ⟨[7, 9], rfl⟩⟩

end Verglas.Writeback
