import Verglas.Consensus.Group
import Verglas.Consensus.History
import Verglas.Consensus.PayloadQuorum

/-!
# Reclamation by snapshots

A replica that builds a snapshot first deletes, on every voter, the bodies of the catalog commands
that the catalog checkpoint covers, and then prunes their headers from its own state.  Other
replicas of the same log keep those headers, and their read fence asks for every body that a
retained header names.
-/

namespace Verglas.Consensus

open Function List Option

variable {code : ErasureCode UInt8} {sha256 : Bytes → Digest}

/-- Two fragment planes agree on a key. -/
def AgreeAt (key : FragmentKey) (left right : Fragments) : Prop :=
  ∀ voter, left voter key = right voter key

variable {request : SealRequest} {sealing reading : Network}

section Agree

variable {left right : Fragments} {network : Network}

theorem AgreeAt.landWrites {key : FragmentKey} (agree : AgreeAt key left right)
    (fate : Nat → Reply) (target : FragmentKey)
    (writes : List (Nat × Option PayloadRepresentation)) :
    AgreeAt key (landWrites fate target writes left) (landWrites fate target writes right) := by
  induction writes generalizing left right with
  | nil => exact agree
  | cons write rest ih =>
    apply ih
    intro voter
    split
    · simp only [Fragments.write]
      split
      · rfl
      · exact agree voter
    · exact agree voter

theorem loadUnsealed_congr (agree : AgreeAt request.key left right) (voters : List Nat) :
    loadUnsealed request network left voters = loadUnsealed request network right voters := by
  induction voters with
  | nil => rfl
  | cons voter rest ih => simp only [loadUnsealed, loadFrom, agree voter, ih]

variable {read : ReconstructRequest}

theorem loadRecords_congr (agree : AgreeAt read.key left right) (voters : List Nat) :
    loadRecords read network left voters = loadRecords read network right voters := by
  induction voters with
  | nil => rfl
  | cons voter rest ih => simp only [loadRecords, loadFrom, agree voter, ih]

theorem sealPayload_congr {request : SealRequest} (agree : AgreeAt request.key left right) :
    (sealPayload request network left).1 = (sealPayload request network right).1 ∧
      AgreeAt request.key (sealPayload request network left).2
        (sealPayload request network right).2 := by
  simp only [sealPayload, loadUnsealed_congr agree]
  split
  · exact ⟨rfl, agree⟩
  split
  · exact ⟨rfl, agree⟩
  rename_i alreadySealed pending _
  have stored := agree.landWrites network.store request.key
    (pending.map fun rewrite => (rewrite.1, some rewrite.2))
  simp only [storeSeals]
  split
  · exact ⟨rfl, stored⟩
  · split
    · exact ⟨rfl, stored⟩
    · exact ⟨rfl, stored⟩

/-- A read depends only on what the voters keep under its key. -/
theorem sealThenReconstruct_congr (agree : AgreeAt read.key left right) :
    sealThenReconstruct code sha256 sealing reading left read =
      sealThenReconstruct code sha256 sealing reading right read := by
  have seals := @sealPayload_congr _ _ sealing read.sealing agree
  simp only [sealThenReconstruct]
  cases left_eq : sealPayload read.sealing sealing left with
  | mk left_answer left_after =>
    cases right_eq : sealPayload read.sealing sealing right with
    | mk right_answer right_after =>
      rw [left_eq, right_eq] at seals
      obtain ⟨answer_eq, agree_after⟩ := seals
      subst answer_eq
      cases left_answer with
      | error error => rfl
      | ok sealed =>
        have records : loadRecords read reading left_after read.certificate.holders =
            loadRecords read reading right_after read.certificate.holders :=
          loadRecords_congr agree_after _
        simp only [reconstruct, records]

end Agree

variable {fragments : Fragments} {index : Nat} {header : EntryHeader} {state : StateMachineData}
  {network : Network}

theorem loadUnsealed_of_empty {voters : List Nat}
    (empty : ∀ voter ∈ voters, fragments voter request.key = none)
    (loads : ∀ voter, network.load voter = none) :
    loadUnsealed request network fragments voters = .ok (0, []) := by
  induction voters with
  | nil => rfl
  | cons voter rest ih =>
    rw [loadUnsealed, loadFrom, loads voter, empty voter mem_cons_self]
    exact ih (forall_mem_cons.mp empty).2

theorem sealThenReconstruct_of_empty {read : ReconstructRequest} {sealing reading : Network}
    (empty : ∀ voter ∈ read.certificate.holders, fragments voter read.key = none)
    (loads : ∀ voter, sealing.load voter = none) :
    sealThenReconstruct code sha256 sealing reading fragments read =
      .error (if read.term = 0 ∨ read.index = 0 then .corruptRepresentation
        else .reconstructionUnavailable) := by
  have nothing : loadUnsealed read.sealing sealing fragments read.certificate.holders =
      .ok (0, []) := loadUnsealed_of_empty empty loads
  have positive := Allocation.threshold_pos read.certificate
  have certificate_eq : read.sealing.certificate = read.certificate := rfl
  have term_eq : read.sealing.term = read.term := rfl
  have index_eq : read.sealing.index = read.index := rfl
  simp only [sealThenReconstruct, sealPayload, certificate_eq, term_eq, index_eq, nothing]
  by_cases unset : read.term = 0 ∨ read.index = 0
  · simp only [if_pos unset]
  · simp only [if_neg unset]
    simp [storeSeals, countAnswered, certificate_eq, positive]

section Release

variable {network : Network} {before after : Fragments} {request : ReconstructRequest}

/-- A release that reaches every voter deletes its key on the certified voters. -/
theorem release_ok (answered : ∀ voter, network.delete voter = .answered)
    (released : release request network before = (.ok (), after)) (voter : Nat)
    (key : FragmentKey) :
    after voter key =
      if key = request.key ∧ voter ∈ request.certificate.voters then none
      else before voter key := by
  have landed : ∀ target, (network.delete target).landed = true := by
    intro target
    rw [answered target]
    rfl
  have deleted := landWrites_map network.delete request.key (fun _ => none)
    request.certificate.voters before voter key
  simp only [landed voter, and_true] at deleted
  rw [← deleted]
  unfold release at released
  split at released
  · cases released
  split at released
  · cases released
  · cases released
    rfl

/-- What reclaiming the selected headers leaves of the stored representations. -/
structure Reclaimed (state : StateMachineData) (selected : List (Nat × EntryHeader))
    (before after : Fragments) : Prop where
  shrinks : ∀ voter key, after voter key = none ∨ after voter key = before voter key
  frame : ∀ voter key, (∀ index header, (index, header) ∈ selected →
    header.certificate.isSome → key.request ≠ header.request) → after voter key = before voter key
  gone : ∀ index header, (index, header) ∈ selected → header.certificate.isSome →
    ∀ allocation, currentAllocation state index header = .ok allocation →
    ∀ voter ∈ allocation.certificate.voters, after voter (header.readFrom allocation).key = none

theorem Reclaimed.refl (state : StateMachineData) (fragments : Fragments) :
    Reclaimed state [] fragments fragments :=
  ⟨fun _ _ => .inr rfl, fun _ _ _ => rfl, fun _ _ member => by cases member⟩

variable {state : StateMachineData}

theorem Reclaimed.trans {first second : List (Nat × EntryHeader)} {middle : Fragments}
    (left : Reclaimed state first before middle) (right : Reclaimed state second middle after) :
    Reclaimed state (first ++ second) before after where
  shrinks voter key := by
    rcases right.shrinks voter key with gone | kept
    · exact .inl gone
    · rw [kept]
      exact left.shrinks voter key
  frame voter key other := by
    rw [right.frame voter key fun index header member =>
        other index header (mem_append_right _ member),
      left.frame voter key fun index header member =>
        other index header (mem_append_left _ member)]
  gone index header member staged allocation current voter holder := by
    rcases mem_append.mp member with earlier | later
    · have gone := left.gone index header earlier staged allocation current voter holder
      rcases right.shrinks voter (header.readFrom allocation).key with none_eq | kept
      · exact none_eq
      · rw [kept, gone]
    · exact right.gone index header later staged allocation current voter holder

theorem release_reclaims (answered : ∀ voter, network.delete voter = .answered)
    (released : release request network before = (.ok (), after)) :
    (∀ voter key, after voter key = none ∨ after voter key = before voter key) ∧
      (∀ voter key, key.request ≠ request.request → after voter key = before voter key) ∧
      ∀ voter ∈ request.certificate.voters, after voter request.key = none := by
  have effect := release_ok answered released
  refine ⟨fun voter key => ?_, fun voter key other => ?_, fun voter member => ?_⟩
  · rw [effect]
    split
    · exact .inl rfl
    · exact .inr rfl
  · rw [effect, if_neg]
    rintro ⟨rfl, _⟩
    exact other rfl
  · rw [effect, if_pos ⟨rfl, member⟩]

theorem releaseCommittedPayload_reclaims (answered : ∀ voter, network.delete voter = .answered)
    (released : releaseCommittedPayload state index header network before = (.ok (), after)) :
    Reclaimed state [(index, header)] before after := by
  unfold releaseCommittedPayload at released
  split at released
  · rename_i inline
    cases released
    refine ⟨fun _ _ => .inr rfl, fun _ _ _ => rfl, fun other found member staged => ?_⟩
    cases mem_singleton.mp member
    rw [inline] at staged
    cases staged
  · rename_i certificate staged
    have only : ∀ key : FragmentKey, (∀ other found, (other, found) ∈ [(index, header)] →
        found.certificate.isSome → key.request ≠ found.request) → key.request ≠ header.request :=
      fun key apart => apart index header (by simp) (by rw [staged]; rfl)
    split at released
    · cases released
    rename_i logId identified
    split at released
    · cases released
    rename_i middle original
    obtain ⟨shrinks, frame, gone⟩ := release_reclaims answered original
    split at released
    · rename_i unrepaired
      cases released
      refine ⟨shrinks, fun voter key apart => frame voter key (only key apart), ?_⟩
      intro other found member _ allocation current voter holder
      cases mem_singleton.mp member
      simp only [currentAllocation, unrepaired, staged, identified] at current
      cases current
      exact gone voter holder
    · rename_i repair repaired
      obtain ⟨shrinks', frame', gone'⟩ := release_reclaims answered released
      refine ⟨fun voter key => ?_, fun voter key apart => ?_, ?_⟩
      · rcases shrinks' voter key with none_eq | kept
        · exact .inl none_eq
        · rw [kept]
          exact shrinks voter key
      · rw [frame' voter key (only key apart), frame voter key (only key apart)]
      · intro other found member _ allocation current voter holder
        cases mem_singleton.mp member
        simp only [currentAllocation, repaired] at current
        cases current
        exact gone' voter holder

theorem releasePayloads_reclaims {selected : List (Nat × EntryHeader)}
    (answered : ∀ voter, network.delete voter = .answered)
    (released : releasePayloads state network selected before = (.ok (), after)) :
    Reclaimed state selected before after := by
  induction selected generalizing before with
  | nil =>
    cases released
    exact .refl state _
  | cons entry rest ih =>
    rw [releasePayloads] at released
    split at released
    · cases released
    · rename_i middle first
      exact (releaseCommittedPayload_reclaims answered first).trans (ih released)

end Release

/-- The catalog checkpoint covers the header. -/
def Covered (state : StateMachineData) (index : Nat) (header : EntryHeader) : Prop :=
  ∃ appliedIndex hash, state.catalogCheckpoint = some (appliedIndex, hash) ∧
    catalogCovered appliedIndex index header = true

/-- Building a snapshot reclaims the body of the header. -/
structure Reclaims (state : StateMachineData) (index : Nat) (header : EntryHeader) : Prop where
  retained : state.committed.get index = some header
  staged : header.certificate.isSome
  covered : Covered state index header

theorem covered_congr {left right : StateMachineData} (same : left.core = right.core) :
    Covered left index header ↔ Covered right index header := by
  have core_eq := congrArg StateMachineData.catalogCheckpoint same
  have checkpoint_eq : left.catalogCheckpoint = right.catalogCheckpoint := core_eq
  simp only [Covered, checkpoint_eq]

theorem releaseCheckpointedCatalogPayloads_reclaims {before after : Fragments}
    (answered : ∀ voter, network.delete voter = .answered)
    (released : releaseCheckpointedCatalogPayloads state network before = (.ok (), after)) :
    (∀ voter key, after voter key = none ∨ after voter key = before voter key) ∧
      (∀ voter key, (∀ index header, Reclaims state index header → key.request ≠ header.request) →
        after voter key = before voter key) ∧
      ∀ index header, Reclaims state index header →
        ∀ allocation, currentAllocation state index header = .ok allocation →
        ∀ voter ∈ allocation.certificate.voters,
          after voter (header.readFrom allocation).key = none := by
  unfold releaseCheckpointedCatalogPayloads at released
  split at released
  · rename_i unset
    cases released
    refine ⟨fun _ _ => .inr rfl, fun _ _ _ => rfl, fun index header reclaims => ?_⟩
    obtain ⟨_, _, checkpoint, _⟩ := reclaims.covered
    rw [unset] at checkpoint
    cases checkpoint
  · rename_i appliedIndex hash checkpoint
    have reclaimed := releasePayloads_reclaims answered released
    have selected_iff : ∀ index header, (index, header) ∈ state.committed.entries.filter
        (fun entry => catalogCovered appliedIndex entry.1 entry.2) ↔
        state.committed.get index = some header ∧ Covered state index header := by
      intro index header
      rw [mem_filter, OrderedMap.get_eq_some_iff]
      refine and_congr_right fun _ => ⟨fun covered => ⟨appliedIndex, hash, checkpoint, covered⟩, ?_⟩
      rintro ⟨other, _, checkpoint_eq, covered⟩
      rw [checkpoint] at checkpoint_eq
      cases checkpoint_eq
      exact covered
    refine ⟨reclaimed.shrinks, fun voter key apart => reclaimed.frame voter key ?_, ?_⟩
    · intro index header member staged
      obtain ⟨retained, covered⟩ := (selected_iff index header).mp member
      exact apart index header ⟨retained, staged, covered⟩
    · intro index header reclaims
      exact reclaimed.gone index header
        ((selected_iff index header).mpr ⟨reclaims.retained, reclaims.covered⟩) reclaims.staged

/-- A snapshot keeps exactly the headers that the checkpoint does not cover, with their
allocations. -/
theorem committed_buildSnapshot
    (found : (buildSnapshot state).1.committed.get index = some header) :
    state.committed.get index = some header ∧ ¬Covered state index header ∧
      currentAllocation (buildSnapshot state).1 index header =
        currentAllocation state index header := by
  simp only [buildSnapshot, compactCheckpointedCatalogHistory] at found ⊢
  split at found
  · rename_i unset
    refine ⟨found, ?_, rfl⟩
    rintro ⟨_, _, checkpoint, _⟩
    rw [unset] at checkpoint
    cases checkpoint
  · rename_i appliedIndex hash checkpoint
    obtain ⟨kept, kept_iff, headers, ids, allocations⟩ :=
      get_pruneHeaders state (catalogCovered appliedIndex)
    obtain ⟨known, keep⟩ := (headers _ _).mp found
    have repairs_eq : (pruneHeaders state (catalogCovered appliedIndex)).repairs.get index =
        state.repairs.get index :=
      ext fun repair => (allocations _ _).trans (and_iff_left keep)
    have logIds_eq : (pruneHeaders state (catalogCovered appliedIndex)).committedLogIds.get index =
        state.committedLogIds.get index :=
      ext fun logId => (ids _ _).trans (and_iff_left keep)
    refine ⟨known, ?_, by simp only [currentAllocation, repairs_eq, logIds_eq]⟩
    rintro ⟨other, _, checkpoint_eq, covered⟩
    rw [checkpoint] at checkpoint_eq
    cases checkpoint_eq
    rw [(kept_iff index header known).mp keep] at covered
    cases covered

/-- Replicas build snapshots in some order; every deletion reaches its voter. -/
inductive BuildRun {ι : Type*} [DecidableEq ι] : (ι → StateMachineData) → Fragments → List ι →
    (ι → StateMachineData) → Fragments → Prop
  | nil (states : ι → StateMachineData) (fragments : Fragments) :
      BuildRun states fragments [] states fragments
  | cons {states final : ι → StateMachineData} {before middle after : Fragments} {id : ι}
      {rest : List ι} (network : Network) (answered : ∀ voter, network.delete voter = .answered)
      (released : releaseCheckpointedCatalogPayloads (states id) network before = (.ok (), middle))
      (following : BuildRun (Function.update states id (buildSnapshot (states id)).1) middle rest
        final after) :
      BuildRun states before (id :: rest) final after

section BuildRun

variable {ι : Type*} [DecidableEq ι] {states final : ι → StateMachineData}
  {before after : Fragments} {order : List ι}

theorem Reclaims.of_update {id other : ι}
    (reclaims : Reclaims (update states id (buildSnapshot (states id)).1 other) index header) :
    other ≠ id ∧ Reclaims (states other) index header := by
  by_cases same : other = id
  · subst same
    rw [update_self] at reclaims
    have core_eq := core_buildSnapshot (states other)
    exact absurd ((covered_congr core_eq).mp reclaims.covered)
      (committed_buildSnapshot reclaims.retained).2.1
  · rw [update_of_ne same] at reclaims
    exact ⟨same, reclaims⟩

theorem BuildRun.reclaimed (run : BuildRun states before order final after) :
    (∀ voter key, after voter key = none ∨ after voter key = before voter key) ∧
      (∀ voter key, (∀ id ∈ order, ∀ index header, Reclaims (states id) index header →
        key.request ≠ header.request) → after voter key = before voter key) ∧
      ∀ id ∈ order, ∀ index header, Reclaims (states id) index header →
        ∀ allocation, currentAllocation (states id) index header = .ok allocation →
        ∀ voter ∈ allocation.certificate.voters,
          after voter (header.readFrom allocation).key = none := by
  induction run with
  | nil => exact ⟨fun _ _ => .inr rfl, fun _ _ _ => rfl, fun _ member => by cases member⟩
  | @cons states final before middle after id rest network answered released following ih =>
    obtain ⟨first_shrinks, first_frame, first_gone⟩ :=
      releaseCheckpointedCatalogPayloads_reclaims answered released
    obtain ⟨shrinks, frame, gone⟩ := ih
    refine ⟨fun voter key => ?_, fun voter key apart => ?_, ?_⟩
    · rcases shrinks voter key with none_eq | kept
      · exact .inl none_eq
      · rw [kept]
        exact first_shrinks voter key
    · rw [frame voter key, first_frame voter key (apart id mem_cons_self)]
      intro other member index header reclaims
      exact apart other (mem_cons_of_mem _ member) index header reclaims.of_update.2
    · intro other member index header reclaims allocation current voter holder
      by_cases same : other = id
      · subst same
        have none_eq := first_gone index header reclaims allocation current voter holder
        rcases shrinks voter (header.readFrom allocation).key with gone_later | kept
        · exact gone_later
        · rw [kept, none_eq]
      · have later : other ∈ rest := (mem_cons.mp member).resolve_left same
        have state_eq : update states id (buildSnapshot (states id)).1 other =
            states other := update_of_ne same _ _
        exact gone other later index header (by rwa [state_eq]) allocation
          (by rwa [state_eq]) voter holder

theorem BuildRun.final_state (run : BuildRun states before order final after) (id : ι) :
    (id ∉ order → final id = states id) ∧
      ∀ index header, (final id).committed.get index = some header →
        (states id).committed.get index = some header ∧
        (id ∈ order → ¬Covered (states id) index header) ∧
        currentAllocation (final id) index header = currentAllocation (states id) index header := by
  induction run with
  | nil => exact ⟨fun _ => rfl, fun index header found => ⟨found, by simp, rfl⟩⟩
  | @cons states final before middle after builder rest network answered released following ih =>
    obtain ⟨unbuilt, kept⟩ := ih
    by_cases same : id = builder
    · subst same
      rw [update_self] at kept
      refine ⟨fun absent => absurd mem_cons_self absent, fun index header found => ?_⟩
      obtain ⟨built, _, allocation_eq⟩ := kept index header found
      obtain ⟨retained, uncovered, built_eq⟩ := committed_buildSnapshot built
      exact ⟨retained, fun _ => uncovered, allocation_eq.trans built_eq⟩
    · rw [update_of_ne same] at unbuilt kept
      refine ⟨fun absent => unbuilt fun later => absent (mem_cons_of_mem _ later),
        fun index header found => ?_⟩
      obtain ⟨retained, uncovered, allocation_eq⟩ := kept index header found
      exact ⟨retained, fun member => uncovered ((mem_cons.mp member).resolve_left same),
        allocation_eq⟩

end BuildRun

variable {fetch : ReconstructRequest → Except PayloadError Bytes}

theorem readFence_eq_ok_iff :
    readFence fetch state = .ok () ↔ ∀ index header, state.committed.get index = some header →
      ∃ body, readCommitted fetch state index header = .ok body := by
  simp only [readFence, OrderedMap.get_eq_some_iff]
  induction state.committed.entries with
  | nil => simp [verifyCommittedPrefix]
  | cons entry rest ih =>
    obtain ⟨first, firstHeader⟩ := entry
    rw [verifyCommittedPrefix]
    cases outcome : readCommitted fetch state first firstHeader with
    | error error =>
      refine iff_of_false (by simp) fun verified => ?_
      obtain ⟨body, read⟩ := verified first firstHeader mem_cons_self
      rw [outcome] at read
      cases read
    | ok body =>
      rw [ih]
      constructor
      · intro verified index header member
        rcases mem_cons.mp member with here | later
        · cases here
          exact ⟨body, outcome⟩
        · exact verified index header later
      · exact fun verified index header member =>
          verified index header (mem_cons_of_mem _ member)

theorem inlineBody_of_staged (staged : header.certificate.isSome) : header.inlineBody = none := by
  have one_body := header.one_body
  rw [staged] at one_body
  cases body : header.inlineBody with
  | none => rfl
  | some bytes =>
    rw [body] at one_body
    cases one_body

section Fence

variable {ι : Type*} [DecidableEq ι] {states final : ι → StateMachineData}
  {before after : Fragments} {order : List ι} {log : List Entry}

/-- Headers whose requests were not reclaimed are read as before. -/
theorem BuildRun.readCommitted_eq (run : BuildRun states before order final after) {id : ι}
    (found : (final id).committed.get index = some header)
    (apart : header.certificate.isSome → ∀ builder ∈ order, ∀ other found,
      Reclaims (states builder) other found → header.request ≠ found.request) :
    readCommitted (sealThenReconstruct code sha256 sealing reading after) (final id) index header =
      readCommitted (sealThenReconstruct code sha256 sealing reading before) (states id) index
        header := by
  obtain ⟨_, _, allocation_eq⟩ := (run.final_state id).2 index header found
  simp only [readCommitted, allocation_eq]
  cases body : header.inlineBody with
  | some bytes => rfl
  | none =>
    have staged : header.certificate.isSome := by
      rw [header.one_body, body]
      rfl
    cases currentAllocation (states id) index header with
    | error error => rfl
    | ok allocation =>
      have agree : AgreeAt (header.readFrom allocation).key after before :=
        fun voter => run.reclaimed.2.1 voter _ fun builder member other found reclaims =>
          apart staged builder member other found reclaims
      dsimp only
      rw [sealThenReconstruct_congr agree]

/-- After replicas of one log have built snapshots, the fence of a replica whose fence succeeded
before still succeeds, with every voter reachable, if and only if the replica was among the builders
or none of them reclaimed the body of a header that it retains. -/
theorem fence_after_builds_iff (replicas : ∀ id, ReplicaAt log (states id))
    (run : BuildRun states before order final after)
    (reachable : ∀ voter, sealing.load voter = none) {id : ι}
    (fence : readFence (sealThenReconstruct code sha256 sealing reading before) (states id) =
      .ok ()) :
    readFence (sealThenReconstruct code sha256 sealing reading after) (final id) = .ok () ↔
      id ∈ order ∨ ∀ builder ∈ order, ∀ index header, Reclaims (states builder) index header →
        (states id).committed.get index = none := by
  rw [readFence_eq_ok_iff] at fence ⊢
  constructor
  · intro verified
    by_contra blinded
    rw [not_or] at blinded
    obtain ⟨unbuilt, reclaimed⟩ := blinded
    push Not at reclaimed
    obtain ⟨builder, member, index, header, reclaims, still⟩ := reclaimed
    obtain ⟨own, retained⟩ := ne_none_iff_exists'.mp still
    obtain ⟨rfl, logIds_eq, repairs_eq⟩ :=
      (replicas builder).retained_agree (replicas id) reclaims.retained retained
    have allocation_eq : currentAllocation (states id) index header =
        currentAllocation (states builder) index header := by
      simp only [currentAllocation, logIds_eq, repairs_eq]
    obtain ⟨certificate, certificate_eq⟩ := isSome_iff_exists.mp reclaims.staged
    obtain ⟨logId, identified⟩ := isSome_iff_exists.mp
      ((replicas builder).recorded.identified _ _ reclaims.retained)
    obtain ⟨allocation, current⟩ : ∃ allocation,
        currentAllocation (states builder) index header = .ok allocation := by
      simp only [currentAllocation, certificate_eq, identified]
      split
      · exact ⟨_, rfl⟩
      · exact ⟨_, rfl⟩
    have gone := run.reclaimed.2.2 builder member index header reclaims allocation current
    have unread := @sealThenReconstruct_of_empty code sha256 after
      (header.readFrom allocation) sealing reading
      (fun voter holder => gone voter (allocation.certificate.holders_subset voter holder))
      reachable
    rw [(run.final_state id).1 unbuilt] at verified
    obtain ⟨body, read⟩ := verified index header retained
    simp only [readCommitted, inlineBody_of_staged reclaims.staged, allocation_eq, current,
      unread, Except.mapError] at read
    cases read
  · intro safe index header found
    obtain ⟨retained, uncovered, _⟩ := (run.final_state id).2 index header found
    rw [run.readCommitted_eq found]
    · exact fence index header retained
    · -- A reclaimed header with the same request would be this one.
      intro staged builder member other reclaimed reclaims request_eq
      have index_eq := (replicas id).index_eq_of_request_eq
        ((replicas id).recorded.retained _ _ retained)
        ((replicas builder).recorded.retained _ _ reclaims.retained) request_eq
      subst index_eq
      obtain ⟨rfl, _⟩ := (replicas builder).retained_agree (replicas id) reclaims.retained retained
      rcases safe with built | kept
      · have same := (replicas id).core_eq.trans (replicas builder).core_eq.symm
        exact uncovered built ((covered_congr same).mpr reclaims.covered)
      · rw [kept builder member index reclaimed reclaims] at retained
        cases retained

end Fence

theorem Allocation.release_eq {allocation : Allocation code} {term : Nat}
    (sealed : ∀ holder ∈ allocation.certificate.holders,
      fragments holder (allocation.key sha256) = none ∨
        fragments holder (allocation.key sha256) =
          some (allocation.record sha256 term index holder)) :
    ∃ after, release (allocation.reconstructRequest sha256 term index) {} fragments =
      (.ok (), after) := by
  have checked : ∀ holders : List Nat, (∀ holder ∈ holders,
      holder ∈ allocation.certificate.holders) →
      checkRelease (allocation.reconstructRequest sha256 term index) {} fragments holders =
        .ok () := by
    intro holders subset
    induction holders with
    | nil => rfl
    | cons holder rest ih =>
      have member := subset holder mem_cons_self
      have rest_checked := ih (forall_mem_cons.mp subset).2
      have voter := allocation.certificate.holders_subset holder member
      rw [checkRelease, reconstructRequest_certificate, allocation.slotOf_eq voter]
      rcases sealed holder member with absent | stamped
      · simp only [loadFrom, reconstructRequest_key, absent, rest_checked]
      · simp only [loadFrom, reconstructRequest_key, stamped, not_readMismatch_sealed]
        exact rest_checked
  have counted : ∀ voters : List Nat, ∃ count,
      countAnswered (fun _ => Reply.answered) voters = .ok count :=
    fun voters => ⟨_, countAnswered_eq fun _ _ _ _ failed => by cases failed⟩
  obtain ⟨count, counted_eq⟩ := counted allocation.certificate.voters
  simp only [release, reconstructRequest_certificate, checked _ fun _ member => member, counted_eq]
  exact ⟨_, rfl⟩

/-- The JSON text of a transaction that creates a namespace with a long name. -/
def catalogBody : Bytes :=
  asBytes "\x7b\"requirements\":[],\"actions\":[\x7b\"CreateNamespace\":\x7b\"namespace\":\"" ++
    List.replicate 4100 97 ++ asBytes "\"\x7d\x7d]\x7d"

theorem catalogBody_length : catalogBody.length = 4168 := by
  rw [catalogBody, length_append, length_append, length_replicate]
  decide

def catalogSha256 (body : Bytes) : Digest :=
  if body = catalogBody then
    digestOfHex "1f6575813de755fb9dd5f59567179101b1778fabe1bb0463cbd563bc07fd8574"
  else Vector.replicate 32 0

theorem catalogSha256_catalogBody : catalogSha256 catalogBody =
    digestOfHex "1f6575813de755fb9dd5f59567179101b1778fabe1bb0463cbd563bc07fd8574" :=
  if_pos rfl

theorem warehouse_ne_empty : "warehouse" ≠ "" := by decide

def catalogHeader : EntryHeader where
  group := "warehouse"
  configurationGeneration := 1
  kind := .catalog
  request := 1
  payloadLen := 4168
  payloadHash := digestOfHex "1f6575813de755fb9dd5f59567179101b1778fabe1bb0463cbd563bc07fd8574"
  writerEpoch := none
  certificate := some pairCertificate
  inlineBody := none
  metadata := .catalog ⟨[], [.createNamespace (String.ofList (List.replicate 4100 'a'))]⟩
  group_ne_empty := warehouse_ne_empty
  one_body := pair_one_body
  inline_length := by simp
  fits := rfl

/-- The transaction, and the checkpoint of an export that covers it. -/
def warehouseLog : List Entry :=
  [ ⟨⟨1, 1⟩, .normal (.commit catalogHeader)⟩,
    inlineEntry "warehouse" 2 .catalogCheckpoint none (asBytes "catalog/0000000000000001.json")
      "d38d6fb8ed4cb1d9ef4a2f180bb8910970374e08b0c902b8a2013577e61d1017"
      (.catalogCheckpoint 1) (by decide) warehouse_ne_empty ]

theorem warehouseLog_replica : ReplicaAt warehouseLog (replay warehouseLog) :=
  ReplicaAt.of_apply (by decide) (by decide)

/-- The JSON text staged on the first two of three voters. -/
def catalogAllocation : Allocation .mirror where
  staging := ⟨1, "warehouse", 1, .complete, catalogBody⟩
  certificate := pairCertificate
  shards := [catalogBody, catalogBody, catalogBody]
  mode_eq := zeroAllocation.mode_eq
  coded := rfl

def catalogSealed : Fragments := fun voter key =>
  if voter ∈ [1, 2] ∧ key = catalogAllocation.key catalogSha256 then
    some (catalogAllocation.record catalogSha256 1 1 voter)
  else none

theorem catalogHeader_readFrom : catalogHeader.readFrom ⟨1, pairCertificate, ⟨1, 1⟩⟩ =
    catalogAllocation.reconstructRequest catalogSha256 1 1 := by
  simp only [Allocation.reconstructRequest, catalogAllocation, catalogSha256_catalogBody,
    catalogBody_length]
  rfl

theorem catalogHeader_current :
    currentAllocation (replay warehouseLog) 1 catalogHeader = .ok ⟨1, pairCertificate, ⟨1, 1⟩⟩ :=
  rfl

theorem catalogSealed_eq (holder : Nat) (member : holder ∈ catalogAllocation.certificate.holders) :
    catalogSealed holder (catalogAllocation.key catalogSha256) =
      some (catalogAllocation.record catalogSha256 1 1 holder) :=
  if_pos ⟨member, rfl⟩

theorem catalogBody_read : sealThenReconstruct .mirror catalogSha256 {} {} catalogSealed
    (catalogHeader.readFrom ⟨1, pairCertificate, ⟨1, 1⟩⟩) = .ok catalogBody := by
  rw [catalogHeader_readFrom]
  exact Allocation.sealThenReconstruct_eq Nat.one_pos Nat.one_pos
    (fun holder member => .inr (.inr (catalogSealed_eq holder member)))
    (fun holder member => by rw [catalogSealed_eq holder member]; exact some_ne_none _)
    (fun _ _ => rfl) (fun _ _ => rfl) ErasureCode.mirror_lawful (fun _ _ => rfl)

theorem warehouse_entries : ∃ checkpoint : EntryHeader, checkpoint.inlineBody.isSome ∧
    (replay warehouseLog).committed.entries = [(1, catalogHeader), (2, checkpoint)] :=
  ⟨_, rfl, rfl⟩

theorem warehouse_fence :
    readFence fetch (replay warehouseLog) =
      ((fetch (catalogHeader.readFrom ⟨1, pairCertificate, ⟨1, 1⟩⟩)).map
        fun _ => ()).mapError GroupError.payload := by
  obtain ⟨checkpoint, inline, entries_eq⟩ := warehouse_entries
  obtain ⟨body, body_eq⟩ := isSome_iff_exists.mp inline
  have staged : catalogHeader.inlineBody = none := rfl
  simp only [readFence, entries_eq, verifyCommittedPrefix, readCommitted, staged,
    catalogHeader_current, body_eq]
  cases fetch (catalogHeader.readFrom ⟨1, pairCertificate, ⟨1, 1⟩⟩) with
  | error error | ok text => rfl

theorem warehouse_release
    (sealed : ∀ holder ∈ catalogAllocation.certificate.holders,
      fragments holder (catalogAllocation.key catalogSha256) = none ∨
        fragments holder (catalogAllocation.key catalogSha256) =
          some (catalogAllocation.record catalogSha256 1 1 holder)) :
    ∃ after, releaseCheckpointedCatalogPayloads (replay warehouseLog) {} fragments =
      (.ok (), after) := by
  obtain ⟨after, released⟩ := Allocation.release_eq sealed
  have selected : releaseCheckpointedCatalogPayloads (replay warehouseLog) {} fragments =
      releasePayloads (replay warehouseLog) {} [(1, catalogHeader)] fragments := rfl
  have certificate_eq : catalogHeader.certificate = some pairCertificate := rfl
  have identified : (replay warehouseLog).committedLogIds.get 1 = some ⟨1, 1⟩ := rfl
  have unrepaired : (replay warehouseLog).repairs.get 1 = none := rfl
  have generation_eq : catalogHeader.configurationGeneration = 1 := rfl
  rw [← catalogHeader_readFrom] at released
  refine ⟨after, ?_⟩
  simp only [selected, releasePayloads, releaseCommittedPayload, certificate_eq, identified,
    unrepaired, generation_eq, released]

/-- Two replicas have applied the same log and the fence of the second succeeds; after the first has
built a snapshot it fails, with every voter reachable. -/
theorem snapshot_blinds_other_replica :
    ∃ final after, BuildRun (fun _ : Bool => replay warehouseLog) catalogSealed [false] final
        after ∧
      ReplicaAt warehouseLog (replay warehouseLog) ∧
      readFence (sealThenReconstruct .mirror catalogSha256 {} {} catalogSealed)
        (replay warehouseLog) = .ok () ∧
      readFence (sealThenReconstruct .mirror catalogSha256 {} {} after) (final true) =
        .error (.payload .reconstructionUnavailable) := by
  obtain ⟨after, released⟩ := warehouse_release fun holder member =>
    .inr (catalogSealed_eq holder member)
  refine ⟨_, after, .cons {} (fun _ => rfl) released (.nil _ _), warehouseLog_replica, ?_, ?_⟩
  · rw [warehouse_fence, catalogBody_read]
    rfl
  · have reclaims : Reclaims (replay warehouseLog) 1 catalogHeader := ⟨rfl, rfl, 1, _, rfl, rfl⟩
    have gone := (releaseCheckpointedCatalogPayloads_reclaims (fun _ => rfl) released).2.2 1
      catalogHeader reclaims _ catalogHeader_current
    have unread := @sealThenReconstruct_of_empty .mirror catalogSha256 after
      (catalogHeader.readFrom ⟨1, pairCertificate, ⟨1, 1⟩⟩) {} {}
      (fun voter member => gone voter (pairCertificate.holders_subset voter member)) fun _ => rfl
    have unbuilt : update (fun _ : Bool => replay warehouseLog) false
        (buildSnapshot (replay warehouseLog)).1 true = replay warehouseLog := rfl
    rw [unbuilt, warehouse_fence, unread]
    rfl

/-- When the second replica has built a snapshot as well, its fence succeeds. -/
theorem fence_after_builds_iff_both :
    ∃ final after, BuildRun (fun _ : Bool => replay warehouseLog) catalogSealed [false, true] final
        after ∧
      readFence (sealThenReconstruct .mirror catalogSha256 {} {} after) (final true) = .ok () := by
  obtain ⟨middle, first⟩ := warehouse_release fun holder member =>
    .inr (catalogSealed_eq holder member)
  have shrinks := (releaseCheckpointedCatalogPayloads_reclaims (fun _ => rfl) first).1
  obtain ⟨after, second⟩ := @warehouse_release middle fun holder member => by
    rcases shrinks holder (catalogAllocation.key catalogSha256) with gone | kept
    · exact .inl gone
    · exact .inr (kept.trans (catalogSealed_eq holder member))
  have run : BuildRun (fun _ : Bool => replay warehouseLog) catalogSealed [false, true] _ after :=
    .cons {} (fun _ => rfl) first (.cons {} (fun _ => rfl) second (.nil _ _))
  exact ⟨_, after, run, (fence_after_builds_iff (fun _ => warehouseLog_replica) run (fun _ => rfl)
    (by rw [warehouse_fence, catalogBody_read]; rfl)).mpr (.inl (by decide))⟩

end Verglas.Consensus
