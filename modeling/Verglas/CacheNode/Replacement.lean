import Verglas.Consensus.Operations

/-!
# Replacing a voter

The leader of a group replaces a voter in one call: it waits for the candidate to learn the log,
copies the body of every committed header to the target voters, changes the membership and stages
new bodies on the target voters from then on.  The call lists the committed headers once.  Commits
go on meanwhile, and a body that was staged before the last step of the call lies on the old voters.
-/

namespace Verglas.CacheNode

open Consensus OrderedMap

/-- Whether the voters of a request have the geometry of the group and contain the candidate. -/
def targetGeometry (k m candidate : Nat) (targetVoters : List Nat) : Bool :=
  targetVoters.length = k + m && targetVoters.dedup.length = targetVoters.length &&
    targetVoters.contains candidate

/-- How far a call of `replaceVoter` has come. -/
inductive ReplacePhase where
  | waiting
  | learning
  /-- `repairCommitted` has these headers before it. -/
  | repairing (rest : List (Nat × EntryHeader))
  | proposing (index : Nat) (header : EntryHeader) (generation : Nat)
      (certificate : PayloadCertificate) (rest : List (Nat × EntryHeader))
  | sealing (index : Nat) (header : EntryHeader) (rest : List (Nat × EntryHeader))
  | changing
  | publishing
  | returned
  | failed
  deriving DecidableEq

/-- Whether `repairCommitted` has taken its list of headers, and the call has not failed. -/
def ReplacePhase.listed : ReplacePhase → Bool
  | .waiting | .learning | .failed => false
  | .repairing _ | .proposing _ _ _ _ _ | .sealing _ _ _ => true
  | .changing | .publishing | .returned => true

/-- The call has started and not ended. -/
def ReplacePhase.underWay : ReplacePhase → Bool
  | .waiting | .returned | .failed => false
  | _ => true

/-- The leader of a group while a voter is replaced. -/
structure LeaderGroup where
  voters : List Nat
  log : List Entry := []
  state : StateMachineData := {}
  /-- Headers handed to Raft that are not in the log. -/
  pending : List EntryHeader := []
  phase : ReplacePhase := .waiting

/-- The steps of the replacement and of the group. -/
inductive ReplaceEvent where
  | stage (header : EntryHeader)
  | apply (entry : Entry)
  | snapshot
  | call
  | listCommitted
  | skip
  | copy
  | applyRepair (entry : Entry)
  | sealRepair
  | finishRepairs
  | changeMembership
  | publish
  | fail

/-- Headers that stay pending when an entry enters the log. -/
def stillPending (pending : List EntryHeader) (entry : Entry) : List EntryHeader :=
  match entry.payload with
  | .normal (.commit header) => pending.erase header
  | _ => pending

section Steps

variable (code : ErasureCode UInt8) (sha256 : Bytes → Digest) (k m candidate : Nat)
  (target : List Nat)

/-- One step of `replace_voter` or of the group that it runs on. -/
inductive ReplaceStep (group : LeaderGroup) : ReplaceEvent → LeaderGroup → Prop
  | stage {issuer : ConsensusGroup} {submission : Submission} {completion : List Nat}
      {network : Network} {fragments after : Fragments} {header : EntryHeader}
      {staged : Option StagedPayload} (geometry : issuer.payloads.k = k ∧ issuer.payloads.m = m)
      (voters : issuer.payloads.voters = group.voters)
      (prepared : issuer.prepareHeader code sha256 submission completion network fragments =
        (.ok (header, staged), after)) :
      ReplaceStep group (.stage header) { group with pending := header :: group.pending }
  | apply {entry : Entry} {after : StateMachineData} {response : RaftResponse}
      (increasing : ∀ last ∈ group.state.lastApplied, last.index < entry.logId.index)
      (handed : ∀ header, entry.payload = .normal (.commit header) → header ∈ group.pending)
      (other : ¬ entry.IsRepair) (applied : applyEntry group.state entry = (after, .ok response)) :
      ReplaceStep group (.apply entry)
        { group with
          log := group.log ++ [entry]
          state := after
          pending := stillPending group.pending entry }
  | snapshot : ReplaceStep group .snapshot { group with state := (buildSnapshot group.state).1 }
  | call (waiting : group.phase = .waiting)
      (geometry : targetGeometry k m candidate target = true) :
      ReplaceStep group .call { group with phase := .learning }
  | listCommitted (learning : group.phase = .learning) :
      ReplaceStep group .listCommitted
        { group with phase := .repairing group.state.committed.entries }
  | skip {index : Nat} {header : EntryHeader} {rest : List (Nat × EntryHeader)}
      (repairing : group.phase = .repairing ((index, header) :: rest))
      (carried : header.inlineBody.isSome) :
      ReplaceStep group .skip { group with phase := .repairing rest }
  | copy {index : Nat} {header : EntryHeader} {rest : List (Nat × EntryHeader)}
      {issuer : ConsensusGroup} {source : RepairAllocation} {sealing copying : Network}
      {fragments after : Fragments} {certificate : PayloadCertificate}
      (geometry : issuer.payloads.k = k ∧ issuer.payloads.m = m)
      (repairing : group.phase = .repairing ((index, header) :: rest))
      (staged : header.inlineBody = none)
      (current : currentAllocation group.state index header = .ok source)
      (copied : issuer.repairBody code sha256 header source target sealing copying fragments =
        (.ok certificate, after)) :
      ReplaceStep group .copy
        { group with
          phase :=
            .proposing index header (source.configurationGeneration + 1) certificate rest }
  | applyRepair {entry : Entry} {index generation : Nat} {header : EntryHeader}
      {certificate : PayloadCertificate} {rest : List (Nat × EntryHeader)}
      {after : StateMachineData} {response : RaftResponse}
      (proposing : group.phase = .proposing index header generation certificate rest)
      (increasing : ∀ last ∈ group.state.lastApplied, last.index < entry.logId.index)
      (payload : entry.payload = .normal (.repair index generation certificate))
      (applied : applyEntry group.state entry = (after, .ok response)) :
      ReplaceStep group (.applyRepair entry)
        { group with
          log := group.log ++ [entry]
          state := after
          phase := .sealing index header rest }
  | sealRepair {index : Nat} {header : EntryHeader} {rest : List (Nat × EntryHeader)}
      {repair : RepairAllocation} {network : Network} {fragments after : Fragments}
      (sealing : group.phase = .sealing index header rest)
      (found : group.state.repairs.get index = some repair)
      (sealed : sealPayload (header.readFrom repair).sealing network fragments = (.ok (), after)) :
      ReplaceStep group .sealRepair { group with phase := .repairing rest }
  | finishRepairs (repairing : group.phase = .repairing []) :
      ReplaceStep group .finishRepairs { group with phase := .changing }
  | changeMembership (changing : group.phase = .changing) :
      ReplaceStep group .changeMembership { group with phase := .publishing }
  | publish (publishing : group.phase = .publishing) :
      ReplaceStep group .publish { group with voters := target, phase := .returned }
  | fail (underWay : group.phase.underWay = true) :
      ReplaceStep group .fail { group with phase := .failed }

/-- Steps from the first state of the group, each of which meets a condition. -/
inductive ReplaceRun (voters : List Nat) (condition : LeaderGroup → ReplaceEvent → Prop) :
    LeaderGroup → Prop
  | start : ReplaceRun voters condition { voters }
  | step {before after : LeaderGroup} {event : ReplaceEvent}
      (reached : ReplaceRun voters condition before)
      (happens : ReplaceStep code sha256 k m candidate target before event after)
      (admitted : condition before event) : ReplaceRun voters condition after

end Steps

/-- Voters of the latest allocation of a header: its repair, or the certificate that it committed
with. -/
def latestVoters (state : StateMachineData) (index : Nat) (header : EntryHeader) :
    Option (List Nat) :=
  match state.repairs.get index with
  | some repair => some repair.certificate.voters
  | none => header.certificate.map PayloadCertificate.voters

/-- Once `repairCommitted` has its list, every staged body whose commit is applied lies on the
target voters. -/
def StagedOnTarget (target : List Nat) (group : LeaderGroup) : ReplaceEvent → Prop
  | .apply entry => group.phase.listed = true →
      ∀ header certificate, entry.payload = .normal (.commit header) →
        header.certificate = some certificate → certificate.voters = target
  | _ => True

/-- Every retained body outside `exempt` is allocated on the target voters. -/
def Covered (target : List Nat) (exempt : Nat → EntryHeader → Prop) (state : StateMachineData) :
    Prop :=
  ∀ index header, state.committed.get index = some header → header.inlineBody = none →
    latestVoters state index header = some target ∨ exempt index header

section Covered

variable {target : List Nat} {exempt : Nat → EntryHeader → Prop} {state : StateMachineData}

theorem Covered.congr (covered : Covered target exempt state) {after : StateMachineData}
    (committed_eq : after.committed = state.committed)
    (repairs_eq : after.repairs = state.repairs) : Covered target exempt after := by
  intro index header retained staged
  rw [committed_eq] at retained
  have here := covered index header retained staged
  rwa [latestVoters, repairs_eq]

theorem Covered.prune (covered : Covered target exempt state)
    (removed : Nat → EntryHeader → Bool) : Covered target exempt (pruneHeaders state removed) := by
  obtain ⟨kept, _, headers, _, allocations⟩ := get_pruneHeaders state removed
  intro index header retained staged
  obtain ⟨found, keep⟩ := (headers index header).mp retained
  have repairs_eq : (pruneHeaders state removed).repairs.get index = state.repairs.get index := by
    refine Option.ext fun repair => ?_
    rw [allocations]
    exact and_iff_left keep
  have here := covered index header found staged
  rwa [latestVoters, repairs_eq]

theorem Covered.buildSnapshot (covered : Covered target exempt state) :
    Covered target exempt (buildSnapshot state).1 := by
  simp only [Consensus.buildSnapshot, compactCheckpointedCatalogHistory]
  split
  · exact covered
  · exact covered.prune _

theorem Covered.record (covered : Covered target exempt state) {log : List Entry}
    (recorded : Recorded log state) {effect : MetadataEffect} {logId : LogId}
    {header : EntryHeader} (below : ∀ found ∈ state.committed.entries, found.1 < logId.index)
    (frame : MetadataFrame { state with lastApplied := some logId } effect.state)
    (onTarget : ∀ certificate, header.certificate = some certificate →
      certificate.voters = target) :
    Covered target exempt (recordCommit effect logId header) := by
  have committed_eq : effect.state.committed = state.committed := frame.committed
  have repairs_eq : effect.state.repairs = state.repairs := frame.repairs
  have unused : state.committed.get logId.index = none := by
    rw [get_eq_none_iff]
    intro found member
    exact absurd (below _ member) (lt_irrefl _)
  have unrepaired : state.repairs.get logId.index = none := by
    cases found : state.repairs.get logId.index with
    | none => rfl
    | some repair =>
      obtain ⟨known, _, retained, _⟩ := recorded.repairs _ _ found
      rw [unused] at retained
      cases retained
  intro index found retained staged
  rw [recordCommit_committed, committed_eq, get_insert] at retained
  rw [latestVoters, recordCommit_repairs, repairs_eq]
  split at retained
  · rename_i index_eq
    cases retained
    rw [index_eq, unrepaired]
    have one_body := header.one_body
    rw [staged] at one_body
    obtain ⟨certificate, certified⟩ := Option.isSome_iff_exists.mp one_body
    rw [certified, Option.map_some, onTarget certificate certified]
    exact .inl rfl
  · exact covered index found retained staged

theorem Covered.repair {index : Nat}
    (covered : Covered target (fun other header => other = index ∨ exempt other header) state)
    {logId : LogId} {generation : Nat} {certificate : PayloadCertificate}
    (onTarget : certificate.voters = target) :
    Covered target exempt
      { state with repairs := state.repairs.insert index ⟨generation, certificate, logId⟩ } := by
  intro other header retained staged
  rw [latestVoters]
  by_cases same : other = index
  · rw [same, get_insert_self]
    exact .inl (congrArg some onTarget)
  · rw [get_insert_of_ne same]
    rcases covered other header retained staged with here | excluded
    · exact .inl here
    · exact .inr (excluded.resolve_left same)

theorem Covered.apply (covered : Covered target exempt state) {log : List Entry}
    (replica : ReplicaAt log state) {entry : Entry} {after : StateMachineData}
    {response : RaftResponse}
    (increasing : ∀ last ∈ state.lastApplied, last.index < entry.logId.index)
    (other : ¬ entry.IsRepair) (step : Applied state entry after response)
    (onTarget : ∀ header certificate, entry.payload = .normal (.commit header) →
      header.certificate = some certificate → certificate.voters = target) :
    Covered target exempt after := by
  cases step with
  | blank payload | membership membership payload | refused header _ payload closed known =>
    exact covered.congr rfl rfl
  | recorded header effect payload fresh fenced transition =>
    exact covered.record replica.recorded (below_of_increasing replica.indicesApplied increasing)
      (metadataFrame_of_applyMetadata transition) (onTarget header · payload)
  | repaired index generation certificate _ payload accepted =>
    exact absurd ⟨index, generation, certificate, payload⟩ other
  | released throughLsn payload archived =>
    have stamped : Covered target exempt { state with lastApplied := some entry.logId } :=
      covered.congr rfl rfl
    exact stamped.prune _

end Covered

/-- Headers that the call still has to repair. -/
def ReplacePhase.Exempt (index : Nat) (header : EntryHeader) : ReplacePhase → Prop
  | .repairing rest | .sealing _ _ rest => (index, header) ∈ rest
  | .proposing current _ _ _ rest => index = current ∨ (index, header) ∈ rest
  | _ => False

/-- What a call that has its list guarantees of the state. -/
structure Progressing (target : List Nat) (group : LeaderGroup) : Prop where
  covered : Covered target (fun index header => group.phase.Exempt index header) group.state
  proposed : ∀ index header generation certificate rest,
    group.phase = .proposing index header generation certificate rest →
    certificate.voters = target

/-- The leader is a replica of its log, and a call with a list is progressing. -/
structure LeaderInvariant (target : List Nat) (group : LeaderGroup) : Prop where
  replica : ReplicaAt group.log group.state
  progressing : group.phase.listed = true → Progressing target group

section Steps

variable {code : ErasureCode UInt8} {sha256 : Bytes → Digest} {k m candidate : Nat}
  {target : List Nat} {before after : LeaderGroup} {event : ReplaceEvent}

theorem LeaderInvariant.advance (invariant : LeaderInvariant target before)
    {phase : ReplacePhase}
    (covered : Covered target (fun index header => phase.Exempt index header) before.state)
    (settled : ∀ index header generation certificate rest,
      phase ≠ .proposing index header generation certificate rest) :
    LeaderInvariant target { before with phase } where
  replica := invariant.replica
  progressing _ := ⟨covered, fun index header generation certificate rest same =>
      absurd same (settled index header generation certificate rest)⟩

theorem LeaderInvariant.step (invariant : LeaderInvariant target before)
    (happens : ReplaceStep code sha256 k m candidate target before event after)
    (admitted : StagedOnTarget target before event) : LeaderInvariant target after := by
  cases happens with
  | stage geometry voters prepared =>
    refine ⟨invariant.replica, fun listed => ?_⟩
    have progressing := invariant.progressing listed
    exact ⟨progressing.covered, progressing.proposed⟩
  | apply increasing handed other applied =>
    refine ⟨.apply invariant.replica increasing applied, fun listed => ?_⟩
    have progressing := invariant.progressing listed
    exact ⟨progressing.covered.apply invariant.replica increasing other
      (applied_of_applyEntry applied) (admitted listed), progressing.proposed⟩
  | snapshot =>
    refine ⟨.buildSnapshot invariant.replica, fun listed => ?_⟩
    have progressing := invariant.progressing listed
    exact ⟨progressing.covered.buildSnapshot, progressing.proposed⟩
  | call waiting geometry | fail underWay =>
    exact ⟨invariant.replica, fun listed => by cases listed⟩
  | listCommitted learning =>
    refine invariant.advance ?_ (by simp)
    intro index header retained _
    exact .inr (get_eq_some_iff.mp retained)
  | skip repairing carried =>
    have progressing := invariant.progressing (by rw [repairing]; rfl)
    refine invariant.advance ?_ (by simp)
    intro index header retained staged
    rcases progressing.covered index header retained staged with here | listed
    · exact .inl here
    rw [repairing] at listed
    rcases List.mem_cons.mp listed with same | later
    · cases same
      rw [staged] at carried
      cases carried
    · exact .inr later
  | @copy index header rest issuer source sealing copying fragments stored certificate geometry
      repairing staged current copied =>
    have progressing := invariant.progressing (by rw [repairing]; rfl)
    refine ⟨invariant.replica, fun _ => ⟨?_, ?_⟩⟩
    · intro other found retained found_staged
      rcases progressing.covered other found retained found_staged with here | listed
      · exact .inl here
      rw [repairing] at listed
      rcases List.mem_cons.mp listed with same | later
      · cases same
        exact .inr (.inl rfl)
      · exact .inr (.inr later)
    · intro _ _ _ _ _ same
      cases same
      exact (ConsensusGroup.repairBody_ok copied).2.2.2
  | @applyRepair entry index generation header certificate rest state response proposing increasing
      payload applied =>
    have progressing := invariant.progressing (by rw [proposing]; rfl)
    have onTarget := progressing.proposed _ _ _ _ _ proposing
    have covered := progressing.covered
    rw [proposing] at covered
    refine ⟨.apply invariant.replica increasing applied, fun _ => ⟨?_, by simp⟩⟩
    cases applied_of_applyEntry applied with
    | repaired found_index found_generation found_certificate _ found_payload accepted =>
      rw [payload] at found_payload
      cases found_payload
      rw [(applyRepair_ok accepted).1]
      have stamped : Covered target _ { before.state with lastApplied := some entry.logId } :=
        covered.congr rfl rfl
      exact stamped.repair onTarget
    | blank other | membership _ other | refused _ _ other | recorded _ _ other
    | released _ other => rw [payload] at other; cases other
  | sealRepair sealing found sealed =>
    have progressing := invariant.progressing (by rw [sealing]; rfl)
    have covered := progressing.covered
    rw [sealing] at covered
    exact invariant.advance covered (by simp)
  | finishRepairs repairing =>
    have progressing := invariant.progressing (by rw [repairing]; rfl)
    refine invariant.advance ?_ (by simp)
    intro index header retained staged
    rcases progressing.covered index header retained staged with here | listed
    · exact .inl here
    · rw [repairing] at listed
      cases listed
  | changeMembership changing =>
    have covered := (invariant.progressing (by rw [changing]; rfl)).covered
    rw [changing] at covered
    exact invariant.advance covered (by simp)
  | publish publishing =>
    have covered := (invariant.progressing (by rw [publishing]; rfl)).covered
    rw [publishing] at covered
    exact ⟨invariant.replica, fun _ => ⟨covered, by simp⟩⟩

theorem ReplaceRun.invariant {voters : List Nat} {group : LeaderGroup}
    (run : ReplaceRun code sha256 k m candidate target voters (StagedOnTarget target) group) :
    LeaderInvariant target group := by
  induction run with
  | start => exact ⟨.empty, fun listed => by cases listed⟩
  | step _ happens admitted ih => exact ih.step happens admitted

end Steps

/-- If no body that lies on other voters is committed after `repairCommitted` has taken its list,
then a call that has returned leaves every retained staged body allocated on exactly the target
voters. -/
theorem replaced_voter_leaves_no_old_allocation (code : ErasureCode UInt8)
    (sha256 : Bytes → Digest) (k m candidate : Nat) (target voters : List Nat)
    (group : LeaderGroup)
    (run : ReplaceRun code sha256 k m candidate target voters (StagedOnTarget target) group)
    (returned : group.phase = .returned) (index : Nat) (header : EntryHeader)
    (retained : group.state.committed.get index = some header)
    (staged : header.inlineBody = none) :
    latestVoters group.state index header = some target := by
  have progressing := run.invariant.progressing (by rw [returned]; rfl)
  rcases progressing.covered index header retained staged with here | listed
  · exact here
  · rw [returned] at listed
    cases listed

def objectEntry : Entry := ⟨⟨1, 1⟩, .normal (.commit objectHeader)⟩

theorem object_staged {candidate : Nat} {target : List Nat}
    (condition : LeaderGroup → ReplaceEvent → Prop)
    (admitted : condition { voters := [1, 2, 3] } (.stage objectHeader)) :
    ReplaceRun .mirror zeroSha256 1 2 candidate target [1, 2, 3] condition
      { voters := [1, 2, 3], pending := [objectHeader] } := by
  obtain ⟨stored, prepared⟩ := zeroObject_prepared noFragments
  exact .step .start (.stage ⟨rfl, rfl⟩ rfl prepared) admitted

theorem object_applied {target : List Nat} {candidate : Nat} (phase : ReplacePhase) :
    ReplaceStep .mirror zeroSha256 1 2 candidate target
      { voters := [1, 2, 3], pending := [objectHeader], phase } (.apply objectEntry)
      { voters := [1, 2, 3], log := [objectEntry], state := (applyEntry {} objectEntry).1
        phase } := by
  have removed : stillPending [objectHeader] objectEntry = [] := by
    change [objectHeader].erase objectHeader = []
    rw [List.erase_cons_head]
  have step := @ReplaceStep.apply .mirror zeroSha256 1 2 candidate target
    { voters := [1, 2, 3], pending := [objectHeader], phase } objectEntry _ _ (by simp)
    (by intro header payload; cases payload; simp) ?_ rfl
  · rwa [removed] at step
  · rintro ⟨index, generation, certificate, payload⟩
    cases payload

/-- The object is committed after the call has listed the headers, and before it returns. -/
theorem old_allocation_survives_replacement :
    ∃ group,
      ReplaceRun .mirror zeroSha256 1 2 4 [1, 2, 4] [1, 2, 3] (fun _ _ => True) group ∧
        group.phase = .returned ∧ group.state.committed.get 1 = some objectHeader ∧
        objectHeader.inlineBody = none ∧
        latestVoters group.state 1 objectHeader = some [1, 2, 3] := by
  have staged := @object_staged 4 [1, 2, 4] (fun _ _ => True) trivial
  have called := staged.step (.call rfl (by decide)) trivial
  have listed := called.step (.listCommitted rfl) trivial
  have finished := listed.step (.finishRepairs rfl) trivial
  have applied := finished.step (object_applied _) trivial
  have changed := applied.step (.changeMembership rfl) trivial
  exact ⟨_, changed.step (.publish rfl) trivial, rfl, rfl, rfl, rfl⟩

def movedCertificate : PayloadCertificate :=
  { pairCertificate with
    voters := [1, 2, 4]
    holders := [1, 2, 4]
    voters_length := by decide
    voters_ne_zero := by decide
    voters_nodup := by decide
    holders_sorted := by decide
    holders_subset := by decide
    durable := by decide }

def movedAllocation : Allocation .mirror where
  staging := ⟨9, "timeline", 2, .complete, zeroBody⟩
  certificate := movedCertificate
  shards := [zeroBody, zeroBody, zeroBody]
  mode_eq := rfl
  coded := rfl

def movedFragments : Fragments := fun voter key =>
  if voter ∈ [1, 2, 4] ∧ key = movedAllocation.key zeroSha256 then
    some (movedAllocation.record zeroSha256 0 0 voter)
  else none

def movedRepair : RepairAllocation := ⟨2, movedCertificate, ⟨1, 2⟩⟩

theorem object_sealed : ∃ after,
    sealPayload (objectHeader.readFrom movedRepair).sealing (onlyReaching [1, 2, 4])
      movedFragments = (.ok (), after) := by
  have held : ∀ holder ∈ movedAllocation.certificate.holders,
      movedFragments holder (movedAllocation.key zeroSha256) =
        some (movedAllocation.record zeroSha256 0 0 holder) :=
    fun holder member => if_pos ⟨member, rfl⟩
  obtain ⟨seals, _⟩ := @Allocation.seal_then_reconstruct _ zeroSha256 movedAllocation 1 2
    movedFragments ErasureCode.mirror_lawful Nat.one_pos Nat.two_pos held [1, 2, 4] (by decide) _ _
    (onlyReaching_serves _) (onlyReaching_serves _)
  have request_eq : (objectHeader.readFrom movedRepair).sealing =
      movedAllocation.sealRequest zeroSha256 1 2 := by
    simp only [Allocation.sealRequest, movedAllocation, zeroSha256_zeroBody]
    rfl
  rw [request_eq]
  exact ⟨_, seals⟩

def movedEntry : Entry := ⟨⟨1, 2⟩, .normal (.repair 1 2 movedCertificate)⟩

/-- The object is committed before the call, and the call moves it. -/
theorem replaced_voter_leaves_no_old_allocation_moved :
    ∃ group,
      ReplaceRun .mirror zeroSha256 1 2 4 [1, 2, 4] [1, 2, 3] (StagedOnTarget [1, 2, 4]) group ∧
        group.phase = .returned ∧ group.state.committed.get 1 = some objectHeader ∧
        latestVoters group.state 1 objectHeader = some [1, 2, 4] := by
  obtain ⟨copies, copied⟩ := @zeroObject_copied [1, 2, 4] movedCertificate _ (by decide) rfl rfl
  obtain ⟨sealedCopies, sealed⟩ := object_sealed
  have staged := @object_staged 4 [1, 2, 4] (StagedOnTarget [1, 2, 4]) trivial
  have applied := staged.step (object_applied _) (by intro listed; cases listed)
  have called := applied.step (.call rfl (by decide)) trivial
  have listed := called.step (.listCommitted rfl) trivial
  have proposed := listed.step (.copy ⟨rfl, rfl⟩ rfl rfl rfl copied) trivial
  have later : ∀ last ∈ (applyEntry {} objectEntry).1.lastApplied,
      last.index < movedEntry.logId.index := by
    rintro last last_eq
    cases last_eq
    decide
  have repaired := proposed.step
    (.applyRepair rfl later rfl rfl : ReplaceStep _ _ _ _ _ _ _ (.applyRepair movedEntry) _)
    trivial
  have settled := repaired.step (.sealRepair rfl rfl sealed) trivial
  have finished := settled.step (.finishRepairs rfl) trivial
  have changed := finished.step (.changeMembership rfl) trivial
  have returned := changed.step (.publish rfl) trivial
  exact ⟨_, returned, rfl, rfl, replaced_voter_leaves_no_old_allocation _ _ _ _ _ _ _ _ returned
    rfl 1 objectHeader rfl rfl⟩

end Verglas.CacheNode
