import Verglas.Consensus.CatalogExport
import Verglas.Lib.Endian
import Verglas.Safekeeper.ArchiveKey

/-!
# Catalog checkpoints of a stopping node

A node that stops exports the catalog of each warehouse group, uploads the export and commits a
checkpoint that names the object.  The request of the checkpoint is derived from the exported bytes
alone, while the key of the object also spells the applied index.  Two stops that export one catalog
at two indices therefore submit two commands under one request, and the second is a conflict.
-/

namespace Verglas.Safekeeper

open Consensus List

/-- Key of the object that holds an export of a group's catalog. -/
def catalogKey (root group : String) (appliedIndex : Nat) (hash : Digest) : String :=
  String.ofList (root.toList ++ '/' :: (group.toList ++ ("/catalog-".toList ++
    (lowerHex 16 appliedIndex ++ '-' :: hexEncode hash.toList))))

/-- Request of a checkpoint: the first half of the hash of its export. -/
def checkpointRequest (hash : Digest) : RequestId := Endian.ofBe (hash.toList.take 16)

/-- Upload and verify an export; the answer is the request and the key of its checkpoint. -/
def persistCatalogExport (sha256 : Bytes → Digest)
    (upload : ArchiveObject → Bytes → Except ArchiveError Unit)
    (verify : ArchiveObject → Except ArchiveError Unit) (root group : String)
    (exported : CatalogExport) : Except ArchiveError (RequestId × String) :=
  let hash := sha256 exported.bytes
  let object : ArchiveObject :=
    ⟨catalogKey root group exported.appliedIndex hash, hash, exported.bytes.length⟩
  match upload object exported.bytes with
  | .error error => .error error
  | .ok () =>
    match verify object with
    | .error error => .error error
    | .ok () => .ok (checkpointRequest hash, object.key)

/-- The checkpoint command that the drain of a warehouse group submits for its export. -/
def drainCatalog (sha256 : Bytes → Digest)
    (upload : ArchiveObject → Bytes → Except ArchiveError Unit)
    (verify : ArchiveObject → Except ArchiveError Unit) (root group : String)
    (exported : CatalogExport) : Except ArchiveError Submission :=
  match persistCatalogExport sha256 upload verify root group exported with
  | .error error => .error error
  | .ok (request, object) => .ok (.catalogCheckpoint request exported.appliedIndex object)

theorem lowerHex_inj {left right : Nat} (left_small : left < 2 ^ 64) (right_small : right < 2 ^ 64)
    (same : lowerHex 16 left = lowerHex 16 right) : left = right := by
  have parsed := fromStrRadix16_lowerHex left_small
  rw [same, fromStrRadix16_lowerHex right_small] at parsed
  exact (Option.some.inj parsed).symm

/-- A stop whose upload succeeded and whose command reached the log of the group. -/
structure DrainRun where
  exported : CatalogExport
  issuer : ConsensusGroup
  header : EntryHeader
  logId : LogId
  position : Nat

namespace DrainRun

variable (code : ErasureCode UInt8) (sha256 : Bytes → Digest) (root group : String)
  (log : List Entry)

/-- The object key of the export. -/
def key (run : DrainRun) : String :=
  catalogKey root group run.exported.appliedIndex (sha256 run.exported.bytes)

/-- The log entry of the checkpoint. -/
def entry (run : DrainRun) : Entry := ⟨run.logId, .normal (.commit run.header)⟩

/-- The run exported the catalog of a replica of the log, uploaded the export, prepared its
checkpoint and committed it behind what the replica had applied. -/
structure Happened (run : DrainRun) : Prop where
  issuer : run.issuer.group = group
  drained : ∃ upload verify submission, drainCatalog sha256 upload verify root group run.exported =
      .ok submission ∧
    ∃ completion network fragments staged after, run.issuer.prepareHeader code sha256 submission
      completion network fragments = (.ok (run.header, staged), after)
  logged : log[run.position]? = some run.entry
  read : ∃ length state, length ≤ run.position ∧ ReplicaAt (log.take length) state ∧
    run.exported.appliedIndex = appliedIndex state
  fits : run.exported.appliedIndex < 2 ^ 64

/-- The checkpoint is answered as committed or as a duplicate. -/
def Accepted (run : DrainRun) : Prop :=
  ∃ response, (applyEntry (replay (log.take run.position)) run.entry).2 = .ok response ∧
    (response.outcome = .committed ∨ response.outcome = .duplicate)

end DrainRun

section Runs

variable {code : ErasureCode UInt8} {sha256 : Bytes → Digest} {root group : String}
  {log : List Entry}

namespace DrainRun

variable {run : DrainRun}

theorem Happened.carries (happened : run.Happened code sha256 root group log) :
    run.issuer.Carries sha256 (.catalogCheckpoint (checkpointRequest (sha256 run.exported.bytes))
        run.exported.appliedIndex (run.key sha256 root group)) run.header ∧
      run.header.metadata = .catalogCheckpoint run.exported.appliedIndex := by
  obtain ⟨upload, verify, submission, drained, completion, network, fragments, staged, after,
    prepared⟩ := happened.drained
  simp only [drainCatalog, persistCatalogExport] at drained
  split at drained
  · cases drained
  rename_i request object persisted
  split at persisted
  · cases persisted
  split at persisted
  · cases persisted
  cases persisted
  cases drained
  exact ⟨(ConsensusGroup.prepareHeader_ok prepared).1,
    ConsensusGroup.metadata_of_prepareHeader prepared⟩

theorem Happened.matches_iff {left right : DrainRun}
    (left_happened : left.Happened code sha256 root group log)
    (right_happened : right.Happened code sha256 root group log) {identity : AppliedIdentity}
    (same : identity.Matches left.header) :
    identity.Matches right.header ↔
      sha256 (asBytes (left.key sha256 root group)) =
        sha256 (asBytes (right.key sha256 root group)) := by
  have left_carries := left_happened.carries.1
  have right_carries := right_happened.carries.1
  constructor
  · intro matching
    have hashes := same.hash.symm.trans matching.hash
    rwa [left_carries.hash, right_carries.hash] at hashes
  · intro hashes
    exact ⟨by rw [same.group, left_carries.group, right_carries.group, left_happened.issuer,
          right_happened.issuer],
        by rw [same.kind, left_carries.kind, right_carries.kind]; rfl,
        by rw [same.hash, left_carries.hash, right_carries.hash]; exact hashes,
        by rw [same.writerEpoch, left_carries.writerEpoch, right_carries.writerEpoch]; rfl⟩

/-- An export is read before its checkpoint commits, so its index is not ahead of it. -/
theorem Happened.behind (happened : run.Happened code sha256 root group log)
    (increasing : Increasing log) : run.exported.appliedIndex ≤ run.logId.index := by
  obtain ⟨length, state, length_le, replica, index_eq⟩ := happened.read
  rw [index_eq, appliedIndex, replica.lastApplied_eq]
  cases last_eq : (log.take length).getLast? with
  | none => exact Nat.zero_le _
  | some last =>
    have member := mem_of_getLast? last_eq
    obtain ⟨slot, bound, slot_eq⟩ := mem_iff_getElem.mp member
    rw [length_take] at bound
    have ordered := pairwise_iff_getElem.mp increasing slot run.position (by omega)
      (List.getElem?_eq_some_iff.mp happened.logged).1 (by omega)
    rw [getElem_take] at slot_eq
    rw [slot_eq, (List.getElem?_eq_some_iff.mp happened.logged).2] at ordered
    exact ordered.le

theorem Happened.accepted_of_fresh (happened : run.Happened code sha256 root group log)
    (increasing : Increasing log)
    (fresh : (replay (log.take run.position)).retries.get run.header.request = none) :
    run.Accepted log := by
  obtain ⟨carries, metadata⟩ := happened.carries
  have kind : run.header.kind = .catalogCheckpoint := carries.kind
  have behind : ¬run.exported.appliedIndex > run.logId.index :=
    not_lt.mpr (happened.behind increasing)
  obtain ⟨effect, transition⟩ : ∃ effect, applyMetadata
      { replay (log.take run.position) with lastApplied := some run.logId } run.logId.index
      run.header = .ok effect := by
    simp only [applyMetadata, metadata]
    split
    · exact absurd ‹_› behind
    · exact ⟨_, rfl⟩
  simp only [Accepted, applyEntry, entry, applyCommit, fresh, epochValid, kind, transition,
    Bool.not_true, Bool.false_eq_true, if_false]
  exact ⟨_, rfl, .inl rfl⟩

end DrainRun

/-- Every checkpoint of a history of stops is accepted, as committed or as a duplicate, if and only
if no two stops export the same bytes at different applied indices. -/
theorem checkpoints_accepted_iff {whole : StateMachineData} (replica : ReplicaAt log whole)
    {runs : List DrainRun} (happened : ∀ run ∈ runs, run.Happened code sha256 root group log)
    (identities : ∀ run ∈ runs, ∀ index header, (index, header) ∈ history log →
      header.request = run.header.request →
      ∃ other ∈ runs, other.header = header ∧ other.exported.bytes = run.exported.bytes)
    (no_collision : ∀ left ∈ runs, ∀ right ∈ runs,
      sha256 (asBytes (left.key sha256 root group)) =
        sha256 (asBytes (right.key sha256 root group)) →
      left.key sha256 root group = right.key sha256 root group) :
    (∀ run ∈ runs, run.Accepted log) ↔
      ∀ left ∈ runs, ∀ right ∈ runs, left.exported.bytes = right.exported.bytes →
        left.exported.appliedIndex = right.exported.appliedIndex := by
  have index_of_key : ∀ left ∈ runs, ∀ right ∈ runs, left.exported.bytes = right.exported.bytes →
      sha256 (asBytes (left.key sha256 root group)) =
        sha256 (asBytes (right.key sha256 root group)) →
      left.exported.appliedIndex = right.exported.appliedIndex := by
    intro left left_mem right right_mem bytes_eq hashes
    have keys := no_collision left left_mem right right_mem hashes
    rw [DrainRun.key, DrainRun.key, bytes_eq] at keys
    have texts := congrArg String.toList keys
    simp only [catalogKey, String.toList_ofList, append_cancel_left_eq, cons.injEq,
      true_and] at texts
    exact lowerHex_inj (happened left left_mem).fits (happened right right_mem).fits
      (append_inj_left texts (by rw [length_lowerHex, length_lowerHex]))
  have request_eq : ∀ left ∈ runs, ∀ right ∈ runs, left.exported.bytes = right.exported.bytes →
      left.header.request = right.header.request := by
    intro left left_mem right right_mem bytes_eq
    rw [(happened left left_mem).carries.1.request, (happened right right_mem).carries.1.request]
    simp only [Submission.catalogCheckpoint, bytes_eq]
  constructor
  · intro accepted
    -- Of two stops with one export, the later one finds the identity of the earlier one.
    have ordered : ∀ left ∈ runs, ∀ right ∈ runs, left.position < right.position →
        left.exported.bytes = right.exported.bytes →
        left.exported.appliedIndex = right.exported.appliedIndex := by
      intro left left_mem right right_mem earlier bytes_eq
      obtain ⟨_, first, first_outcome⟩ := accepted left left_mem
      obtain ⟨response, second, second_outcome⟩ := accepted right right_mem
      obtain ⟨identity, known, matching, _⟩ :=
        identity_at_later earlier (happened left left_mem).logged first first_outcome
      rw [request_eq left left_mem right right_mem bytes_eq] at known
      rw [applyEntry_of_known rfl known] at second
      cases second
      have matches_right : identity.Matches right.header := by
        by_contra unmatched
        have conflict := (retryResponse_outcome identity right.header).2 unmatched
        rw [conflict] at second_outcome
        rcases second_outcome with closed | closed <;> cases closed
      exact index_of_key left left_mem right right_mem bytes_eq
        (((happened left left_mem).matches_iff (happened right right_mem) matching).mp
          matches_right)
    intro left left_mem right right_mem bytes_eq
    rcases lt_trichotomy left.position right.position with earlier | same | later
    · exact ordered left left_mem right right_mem earlier bytes_eq
    · have entries := (happened left left_mem).logged
      rw [same, (happened right right_mem).logged] at entries
      have headers : right.header = left.header := by
        injection entries with entries
        injection entries with _ payloads
        injection payloads with commands
        injection commands
      refine index_of_key left left_mem right right_mem bytes_eq ?_
      have left_hash := (happened left left_mem).carries.1.hash
      have right_hash := (happened right right_mem).carries.1.hash
      rw [headers, left_hash] at right_hash
      exact right_hash
    · exact (ordered right right_mem left left_mem later bytes_eq.symm).symm
  · intro agree run run_mem
    have happens := happened run run_mem
    cases known : (replay (log.take run.position)).retries.get run.header.request with
    | none => exact happens.accepted_of_fresh replica.increasing known
    | some identity =>
      obtain ⟨earlier, earlier_replica⟩ := replica.take run.position
      have core_eq := congrArg StateMachineData.retries earlier_replica.core_eq
      have retries_eq : earlier.retries = (replay (log.take run.position)).retries := core_eq
      rw [← retries_eq] at known
      obtain ⟨index, header, recorded, same_request, names⟩ :=
        earlier_replica.recorded.known _ _ known
      obtain ⟨other, other_mem, rfl, bytes_eq⟩ := identities run run_mem index header
        (mem_history_of_take recorded) same_request
      have matching : identity.Matches run.header := by
        refine ((happened other other_mem).matches_iff happens
          ⟨names.group, names.kind, names.hash, names.writerEpoch⟩).mpr ?_
        rw [DrainRun.key, DrainRun.key, bytes_eq, agree other other_mem run run_mem bytes_eq]
      rw [retries_eq] at known
      refine ⟨_, applyEntry_of_known rfl known, .inr ?_⟩
      rw [retryResponse_of_matches matching]

end Runs

/-- The text of a catalog with one namespace. -/
def salesText : Bytes := asBytes "[[\"sales\"],[]]"

/-- The object keys of its exports at the first and the second index. -/
def salesKey : Bool → String
  | false => "exports/warehouse/lake/catalog-0000000000000001-" ++
      "062bcd122eb76c05ea72d93473efdf3d232550553b8aae1f3a13dc8c3ba5dc17"
  | true => "exports/warehouse/lake/catalog-0000000000000002-" ++
      "062bcd122eb76c05ea72d93473efdf3d232550553b8aae1f3a13dc8c3ba5dc17"

/-- The text after a second namespace, and the object key of its export at the third index. -/
def hiredText : Bytes := asBytes "[[\"hr\",\"sales\"],[]]"

def hiredKey : String :=
  "exports/warehouse/lake/catalog-0000000000000003-" ++
    "2806845d4e847a1d6c86189a9fa20727db903edbcde4ca56091956fd8a6b3e83"

/-- The hashes of these texts and keys. -/
def salesSha256 (body : Bytes) : Digest :=
  if body = salesText then
    digestOfHex "062bcd122eb76c05ea72d93473efdf3d232550553b8aae1f3a13dc8c3ba5dc17"
  else if body = asBytes (salesKey false) then
    digestOfHex "3235e7f1249fa9ee658a0c9ec54efacc6a2a34b276aedee773c6feb28e887a66"
  else if body = asBytes (salesKey true) then
    digestOfHex "9b31d0a3772d01eb236e95a082316fe2b9bc3f01c15eeac84ba9db39f1e9ec7c"
  else if body = hiredText then
    digestOfHex "2806845d4e847a1d6c86189a9fa20727db903edbcde4ca56091956fd8a6b3e83"
  else if body = asBytes hiredKey then
    digestOfHex "d0bf80652b4ba0257af09bf9666fcad2a0668341924186fe10ec091c0a12b08f"
  else Vector.replicate 32 0

def lakeGroup : ConsensusGroup where
  group := "warehouse/lake"
  configurationGeneration := 1
  payloads := mirrorStore
  group_ne_empty := lake_ne_empty
  generation_ne_zero := Nat.one_ne_zero

def firstCheckpoint : EntryHeader :=
  inlineHeader "warehouse/lake" 8202796074160220676123664136212045629 .catalogCheckpoint none
    (asBytes (salesKey false))
    "3235e7f1249fa9ee658a0c9ec54efacc6a2a34b276aedee773c6feb28e887a66" (.catalogCheckpoint 1)
    (by decide) lake_ne_empty

def secondCheckpoint : EntryHeader :=
  inlineHeader "warehouse/lake" 8202796074160220676123664136212045629 .catalogCheckpoint none
    (asBytes (salesKey true))
    "9b31d0a3772d01eb236e95a082316fe2b9bc3f01c15eeac84ba9db39f1e9ec7c" (.catalogCheckpoint 2)
    (by decide) lake_ne_empty

def hiredCheckpoint : EntryHeader :=
  inlineHeader "warehouse/lake" 53202958283134625374743322127191115559 .catalogCheckpoint none
    (asBytes hiredKey) "d0bf80652b4ba0257af09bf9666fcad2a0668341924186fe10ec091c0a12b08f"
    (.catalogCheckpoint 3) (by decide) lake_ne_empty

def firstStop : DrainRun := ⟨⟨1, salesText⟩, lakeGroup, firstCheckpoint, ⟨1, 2⟩, 1⟩

/-- The second stop, with no catalog commit in between. -/
def secondStop : DrainRun := ⟨⟨2, salesText⟩, lakeGroup, secondCheckpoint, ⟨1, 3⟩, 2⟩

/-- The catalog commit of the second namespace, and a stop behind it. -/
def hiredEntry : Entry :=
  inlineEntry "warehouse/lake" 3 .catalog none
    (asBytes ("\x7b\"requirements\":[],\"actions\":[\x7b\"CreateNamespace\":\x7b\"namespace\":" ++
      "\"hr\"\x7d\x7d]\x7d"))
    "53be22529c5ce4b59255c6db1476efe601b87c69691684d8ee3eec0200062641"
    (.catalog ⟨[], [.createNamespace "hr"]⟩) rfl lake_ne_empty

def hiredStop : DrainRun := ⟨⟨3, hiredText⟩, lakeGroup, hiredCheckpoint, ⟨1, 4⟩, 3⟩

def stoppedOnce : List Entry := [salesEntry, firstStop.entry]

def stoppedTwice : List Entry := [salesEntry, firstStop.entry, secondStop.entry]

def changedBetween : List Entry := [salesEntry, firstStop.entry, hiredEntry, hiredStop.entry]

theorem stoppedTwice_replica (position : Nat) (small : position < 4) :
    ReplicaAt (stoppedTwice.take position) (replay (stoppedTwice.take position)) :=
  .of_prefixes (by decide) small

theorem changedBetween_replica (position : Nat) (small : position < 5) :
    ReplicaAt (changedBetween.take position) (replay (changedBetween.take position)) :=
  .of_prefixes (by decide) small

/-- A store that takes every upload and verifies every object. -/
def takesAll : ArchiveObject → Bytes → Except ArchiveError Unit := fun _ _ => .ok ()

theorem firstStop_happened (log : List Entry) (logged : log[1]? = some firstStop.entry)
    (read : ReplicaAt (log.take 1) (replay [salesEntry])) :
    firstStop.Happened .mirror salesSha256 "exports" "warehouse/lake" log where
  issuer := rfl
  drained := ⟨takesAll, (takesAll · []),
    .catalogCheckpoint 8202796074160220676123664136212045629 1 (salesKey false), rfl,
    [], {}, noFragments, none, noFragments, rfl⟩
  logged := logged
  read := ⟨1, _, le_rfl, read, rfl⟩
  fits := by decide

theorem secondStop_happened :
    secondStop.Happened .mirror salesSha256 "exports" "warehouse/lake" stoppedTwice where
  issuer := rfl
  drained := ⟨takesAll, (takesAll · []),
    .catalogCheckpoint 8202796074160220676123664136212045629 2 (salesKey true), rfl,
    [], {}, noFragments, none, noFragments, rfl⟩
  logged := rfl
  read := ⟨2, _, le_rfl, stoppedTwice_replica 2 (by decide), rfl⟩
  fits := by decide

theorem hiredStop_happened :
    hiredStop.Happened .mirror salesSha256 "exports" "warehouse/lake" changedBetween where
  issuer := rfl
  drained := ⟨takesAll, (takesAll · []),
    .catalogCheckpoint 53202958283134625374743322127191115559 3 hiredKey, rfl,
    [], {}, noFragments, none, noFragments, rfl⟩
  logged := rfl
  read := ⟨3, _, le_rfl, changedBetween_replica 3 (by decide), rfl⟩
  fits := by decide

/-- A node stops twice without a catalog commit in between: the second checkpoint is refused as a
conflicting retry of the first. -/
theorem second_stop_conflicts :
    firstStop.Happened .mirror salesSha256 "exports" "warehouse/lake" stoppedTwice ∧
      secondStop.Happened .mirror salesSha256 "exports" "warehouse/lake" stoppedTwice ∧
      catalogExport noFetch listingJson
          ⟨replay stoppedOnce, replay stoppedOnce, replay stoppedOnce, replay stoppedOnce⟩ =
        .ok secondStop.exported ∧
      firstStop.Accepted stoppedTwice ∧
      (applyEntry (replay (stoppedTwice.take 2)) secondStop.entry).2 =
        .ok { index := 2, outcome := .conflictingRetry } ∧
      ¬secondStop.Accepted stoppedTwice := by
  have refused : (applyEntry (replay (stoppedTwice.take 2)) secondStop.entry).2 =
      .ok { index := 2, outcome := .conflictingRetry } := rfl
  refine ⟨firstStop_happened _ rfl (stoppedTwice_replica 1 (by decide)), secondStop_happened, rfl,
    ⟨_, rfl, .inl rfl⟩, refused, ?_⟩
  rintro ⟨response, answer, outcome⟩
  rw [show secondStop.position = 2 from rfl, refused] at answer
  cases answer
  rcases outcome with closed | closed <;> cases closed

/-- A node stops twice with a catalog commit in between: both checkpoints are accepted. -/
theorem checkpoints_accepted_iff_changed :
    firstStop.Accepted changedBetween ∧ hiredStop.Accepted changedBetween := by
  have replica := changedBetween_replica 4 (by decide)
  have happened : ∀ run ∈ [firstStop, hiredStop],
      run.Happened .mirror salesSha256 "exports" "warehouse/lake" changedBetween :=
    forall_mem_cons.mpr ⟨firstStop_happened _ rfl (changedBetween_replica 1 (by decide)),
      forall_mem_singleton.mpr hiredStop_happened⟩
  have identities : ∀ run ∈ [firstStop, hiredStop], ∀ index header,
      (index, header) ∈ history changedBetween → header.request = run.header.request →
      ∃ other ∈ [firstStop, hiredStop],
        other.header = header ∧ other.exported.bytes = run.exported.bytes := by
    intro run run_mem index header recorded same_request
    refine ⟨run, run_mem, ?_, rfl⟩
    obtain ⟨sales, hired, history_eq, sales_request, hired_request⟩ : ∃ sales hired : EntryHeader,
        history changedBetween =
          [(1, sales), (2, firstCheckpoint), (3, hired), (4, hiredCheckpoint)] ∧
          sales.request = 1 ∧ hired.request = 3 := ⟨_, _, rfl, rfl, rfl⟩
    simp only [history_eq, mem_cons, not_mem_nil, or_false, Prod.mk.injEq] at recorded run_mem
    obtain ⟨-, rfl⟩ | ⟨-, rfl⟩ | ⟨-, rfl⟩ | ⟨-, rfl⟩ := recorded <;>
      obtain rfl | rfl := run_mem
    all_goals first
      | rfl
      | exact absurd same_request (by rw [sales_request]; decide)
      | exact absurd same_request (by rw [hired_request]; decide)
      | exact absurd same_request (by decide)
  have apart : firstStop.exported.bytes ≠ hiredStop.exported.bytes := by decide
  have hashes_apart : salesSha256 (asBytes (firstStop.key salesSha256 "exports" "warehouse/lake")) ≠
      salesSha256 (asBytes (hiredStop.key salesSha256 "exports" "warehouse/lake")) := by decide
  have accepted := (checkpoints_accepted_iff replica happened identities ?_).mpr ?_
  · exact ⟨accepted _ mem_cons_self, accepted _ (mem_cons_of_mem _ mem_cons_self)⟩
  · simp [hashes_apart, hashes_apart.symm]
  · simp [apart, apart.symm]

end Verglas.Safekeeper
