import Verglas.Consensus.Allocation
import Verglas.Consensus.Group
import Verglas.Lib.Quorum

/-!
# Staged bodies survive elections

A certificate names enough holders that every election quorum can rebuild the staged body.  Sealing
is weaker: a seal that reached too few holders to rewrite them all still succeeds, and a holder that
it left behind makes every later read that reaches it report corruption.
-/

namespace Verglas.Consensus

open List

variable {code : ErasureCode UInt8} {sha256 : Bytes → Digest}

def StageRequest.sealRequest (staging : StageRequest) (staged : StagedPayload)
    (term index : Nat) : SealRequest where
  hash := staged.hash
  group := staging.group
  configurationGeneration := staging.configurationGeneration
  request := staging.request
  term := term
  index := index
  certificate := staged.certificate

def StageRequest.reconstructRequest (staging : StageRequest) (staged : StagedPayload)
    (term index : Nat) : ReconstructRequest where
  hash := staged.hash
  group := staging.group
  configurationGeneration := staging.configurationGeneration
  request := staging.request
  length := staged.length
  term := term
  index := index
  certificate := staged.certificate

variable {network : Network} {reachable : List Nat} {store : DistributedPayloadStore}
  {staging : StageRequest} {completion : List Nat} {after : Fragments} {staged : StagedPayload}

theorem stage_ok {before : Fragments}
    (accepted : store.stage code sha256 staging completion network before = (.ok staged, after)) :
    staged.hash = sha256 staging.body ∧ staged.length = staging.body.length ∧
      ∃ allocation : Allocation code, allocation.staging = staging ∧
        allocation.certificate = staged.certificate ∧
        allocation.certificate.k = store.k ∧ allocation.certificate.m = store.m ∧
        allocation.certificate.voters = store.voters ∧
        ∀ holder ∈ allocation.certificate.holders, network.store holder = .answered ∧
          after holder (allocation.key sha256) = some (allocation.record sha256 0 0 holder) := by
  rw [DistributedPayloadStore.stage] at accepted
  split at accepted
  · cases accepted
  rename_i shards coded
  dsimp only at accepted
  split at accepted
  · split at accepted
    · cases accepted
    rename_i certificate certified
    cases accepted
    obtain ⟨mode_eq, k_eq, m_eq, voters_eq, holders_eq⟩ :=
      PayloadCertificate.withVoters_ok certified
    refine ⟨rfl, rfl, ⟨staging, certificate, shards, mode_eq, ?_⟩, rfl, rfl, k_eq, m_eq,
      voters_eq, ?_⟩
    · rw [k_eq, m_eq, voters_eq]
      exact coded
    · intro holder member
      have answered : network.store holder = .answered := by
        rw [holders_eq, sortedHolders, mem_insertionSort, mem_dedup] at member
        exact of_decide_eq_true (mem_filter.mp (mem_of_mem_take member)).2
      have voter : holder ∈ store.voters := voters_eq ▸ certificate.holders_subset holder member
      have landed := landWrites_map network.store (staging.key sha256)
        (fun voter => some (staging.representation sha256 0 0 (store.voters.idxOf voter)
          (shards.getD (store.voters.idxOf voter) []))) store.voters before holder
        (staging.key sha256)
      rw [if_pos ⟨rfl, voter, by rw [answered]; rfl⟩] at landed
      simp only [Allocation.key, Allocation.record, voters_eq]
      exact ⟨answered, landed⟩
  · cases accepted

variable {holder : Nat} {later : Network}

namespace Allocation

variable {allocation : Allocation code} {term index : Nat} {network : Network}
  {fragments : Fragments}

/-- After a seal a holder is sealed if the seal loaded its staged representation and the rewrite
took effect; otherwise it is as before. -/
theorem afterSeal_holder (member : holder ∈ allocation.certificate.holders) :
    allocation.afterSeal sha256 term index network fragments holder (allocation.key sha256) =
      if allocation.answers sha256 0 0 network fragments holder = true ∧
          (network.store holder).landed = true then
        some (allocation.record sha256 term index holder)
      else fragments holder (allocation.key sha256) := by
  simp only [afterSeal, rewritten, mem_filter, member, true_and]

theorem Intact.afterSeal
    (intact : allocation.Intact sha256 term index fragments allocation.certificate.holders) :
    allocation.Intact sha256 term index
      (allocation.afterSeal sha256 term index network fragments)
      allocation.certificate.holders := by
  intro holder member
  rw [afterSeal_holder member]
  split
  · exact .inr (.inr rfl)
  · exact intact holder member

/-- A holder still answers unsealed exactly when it is reachable later, was staged before, and the
seal did not rewrite it. -/
theorem answers_staged_afterSeal (term_pos : 0 < term)
    (member : holder ∈ allocation.certificate.holders) :
    allocation.answers sha256 0 0 later
        (allocation.afterSeal sha256 term index network fragments) holder = true ↔
      later.load holder = none ∧
        fragments holder (allocation.key sha256) = some (allocation.record sha256 0 0 holder) ∧
        ¬(network.load holder = none ∧ (network.store holder).landed = true) := by
  have staged_ne := allocation.record_ne sha256 term_pos index holder
  rw [answers, decide_eq_true_eq, afterSeal_holder member]
  refine and_congr_right fun _ => ?_
  simp only [answers, decide_eq_true_eq]
  constructor
  · intro held
    split at held
    · exact absurd (Option.some.inj held).symm staged_ne
    · rename_i untouched
      exact ⟨held, fun rewrittenNow => untouched ⟨⟨rewrittenNow.1, held⟩, rewrittenNow.2⟩⟩
  · rintro ⟨held, untouched⟩
    rw [if_neg fun rewrittenNow => untouched ⟨rewrittenNow.1.1, rewrittenNow.2⟩]
    exact held

end Allocation

/-- The reachable voters answer loads and stores; the loads of all others are lost. -/
def Serves (network : Network) (reachable : List Nat) : Prop :=
  ∀ voter, (voter ∈ reachable → network.load voter = none ∧ network.store voter = .answered) ∧
    (voter ∉ reachable → ∃ message, network.load voter = some (.transport message))

theorem Serves.loadsOnlyLost (serves : Serves network reachable) (voters : List Nat) :
    LoadsOnlyLost network voters := by
  intro voter _ error failed
  by_cases reached : voter ∈ reachable
  · rw [((serves voter).1 reached).1] at failed
    cases failed
  · obtain ⟨message, lost⟩ := (serves voter).2 reached
    rw [lost] at failed
    exact ⟨message, (Option.some.inj failed).symm⟩

theorem Serves.load_eq_none_iff (serves : Serves network reachable) {voter : Nat} :
    network.load voter = none ↔ voter ∈ reachable := by
  constructor
  · intro answered
    by_contra unreached
    obtain ⟨message, lost⟩ := (serves voter).2 unreached
    rw [lost] at answered
    cases answered
  · exact fun reached => ((serves voter).1 reached).1

/-- Every election quorum contains enough certified holders to rebuild the body. -/
theorem threshold_le_of_quorum (certificate : PayloadCertificate) {quorum : List Nat}
    (nodup : quorum.Nodup) (subset : ∀ voter ∈ quorum, voter ∈ certificate.voters)
    (majority : electionQuorum certificate.voters.length ≤ quorum.length) :
    reconstructionThreshold certificate ≤
      (certificate.holders.filter fun holder => holder ∈ quorum).length := by
  have holders_nodup : certificate.holders.Nodup :=
    certificate.holders_sorted.imp fun order => order.ne
  have overlap := length_add_length_le_of_subset holders_nodup nodup certificate.holders_subset
    subset
  have durable := certificate.durable
  have count := certificate.voters_length
  simp only [requiredHolders, electionQuorum, ← count] at durable majority
  cases mode : certificate.mode with
  | coded | complete =>
    simp only [reconstructionThreshold, mode] at durable ⊢
    omega

namespace Allocation

variable {allocation : Allocation code} {term index : Nat} {fragments : Fragments}

/-- With every holder staged and an election quorum serving, sealing succeeds and the sealed body is
read back. -/
theorem seal_then_reconstruct (lawful : code.Lawful) (term_pos : 0 < term) (index_pos : 0 < index)
    (staged : ∀ holder ∈ allocation.certificate.holders, fragments holder (allocation.key sha256) =
      some (allocation.record sha256 0 0 holder))
    {reachable : List Nat} (enough : reconstructionThreshold allocation.certificate ≤
      (allocation.certificate.holders.filter fun holder => holder ∈ reachable).length)
    {sealing reading : Network} (seals : Serves sealing reachable)
    (reads : Serves reading reachable) :
    sealPayload (allocation.sealRequest sha256 term index) sealing fragments =
        (.ok (), allocation.afterSeal sha256 term index sealing fragments) ∧
      reconstruct code sha256 (allocation.reconstructRequest sha256 term index) reading
        (allocation.afterSeal sha256 term index sealing fragments) =
          .ok allocation.staging.body := by
  have intact : allocation.Intact sha256 term index fragments allocation.certificate.holders :=
    fun holder member => .inr (.inl (staged holder member))
  have loaded : ∀ holder ∈ allocation.certificate.holders,
      allocation.answers sha256 0 0 sealing fragments holder = decide (holder ∈ reachable) := by
    intro holder member
    simp only [answers, staged holder member, and_true]
    exact decide_eq_decide.mpr seals.load_eq_none_iff
  have rewritten_eq : allocation.rewritten sha256 sealing fragments =
      allocation.certificate.holders.filter fun holder => holder ∈ reachable :=
    filter_congr loaded
  have answered : ∀ voter ∈ allocation.rewritten sha256 sealing fragments,
      sealing.store voter = .answered := by
    intro voter member
    rw [rewritten_eq, mem_filter, decide_eq_true_eq] at member
    exact ((seals voter).1 member.2).2
  constructor
  · have all_answered : (allocation.rewritten sha256 sealing fragments).filter
        (fun voter => sealing.store voter = .answered) =
        allocation.rewritten sha256 sealing fragments :=
      filter_eq_self.mpr fun voter member => decide_eq_true (answered voter member)
    rw [sealPayload_eq term_pos intact index_pos (seals.loadsOnlyLost _), all_answered,
      rewritten_eq, if_neg (by omega)]
    intro voter member error landed failed
    rw [answered voter member] at failed
    cases failed
  · have untouched : ¬∃ holder ∈ allocation.certificate.holders,
        allocation.answers sha256 0 0 reading
          (allocation.afterSeal sha256 term index sealing fragments) holder = true := by
      rintro ⟨holder, member, unsealed⟩
      obtain ⟨reached, _, missed⟩ := (answers_staged_afterSeal term_pos member).mp unsealed
      have served := (seals holder).1 (reads.load_eq_none_iff.mp reached)
      exact missed ⟨served.1, by rw [served.2]; rfl⟩
    have sealed : ∀ holder ∈ allocation.certificate.holders, holder ∈ reachable →
        allocation.answers sha256 term index reading
          (allocation.afterSeal sha256 term index sealing fragments) holder = true := by
      intro holder member reached
      have served := (seals holder).1 reached
      rw [answers, decide_eq_true_eq, afterSeal_holder member, loaded holder member]
      exact ⟨reads.load_eq_none_iff.mpr reached, by simp [reached, served.2, Reply.landed]⟩
    have counted : (allocation.certificate.holders.filter fun holder => holder ∈ reachable).length ≤
        (allocation.certificate.holders.filter (allocation.answers sha256 term index reading
          (allocation.afterSeal sha256 term index sealing fragments))).length := by
      rw [← countP_eq_length_filter, ← countP_eq_length_filter]
      apply countP_mono_left
      intro holder member reached
      exact sealed holder member (of_decide_eq_true reached)
    rw [reconstruct_eq term_pos intact.afterSeal lawful (reads.loadsOnlyLost _),
      if_neg untouched, if_neg (by omega)]

end Allocation

theorem threshold_le_holders (certificate : PayloadCertificate) :
    reconstructionThreshold certificate ≤ certificate.holders.length := by
  refine le_trans ?_ certificate.durable
  cases mode : certificate.mode with
  | coded => simp only [reconstructionThreshold, requiredHolders, mode]; omega
  | complete => simp only [reconstructionThreshold, requiredHolders, electionQuorum, mode]; omega

namespace Allocation

variable {allocation : Allocation code} {term index : Nat} {fragments : Fragments}

section Answers

variable (term_pos : 0 < term) (index_pos : 0 < index)
  (intact : allocation.Intact sha256 term index fragments allocation.certificate.holders)
  (held : ∀ holder ∈ allocation.certificate.holders,
    fragments holder (allocation.key sha256) ≠ none)
  {network : Network}
  (loads : ∀ holder ∈ allocation.certificate.holders, network.load holder = none)
  (stores : ∀ holder ∈ allocation.certificate.holders, network.store holder = .answered)
include term_pos intact held loads stores

include index_pos in
theorem sealPayload_of_answers :
    sealPayload (allocation.sealRequest sha256 term index) network fragments =
      (.ok (), allocation.afterSeal sha256 term index network fragments) := by
  have lost : LoadsOnlyLost network allocation.certificate.holders := by
    intro holder member error failed
    rw [loads holder member] at failed
    cases failed
  have answered : ∀ voter ∈ allocation.rewritten sha256 network fragments,
      network.store voter = .answered :=
    fun voter member => stores voter (mem_of_mem_filter member)
  have all_answered : (allocation.rewritten sha256 network fragments).filter
      (fun voter => network.store voter = .answered) =
      allocation.rewritten sha256 network fragments :=
    filter_eq_self.mpr fun voter member => decide_eq_true (answered voter member)
  -- Every holder is either sealed already or rewritten.
  have split : ∀ holder ∈ allocation.certificate.holders,
      allocation.answers sha256 term index network fragments holder =
        !allocation.answers sha256 0 0 network fragments holder := by
    intro holder member
    have staged_ne := allocation.record_ne sha256 term_pos index holder
    rcases intact holder member with absent | staged | stamped
    · exact absurd absent (held holder member)
    · simp [answers, loads holder member, staged, staged_ne]
    · simp [answers, loads holder member, stamped, Ne.symm staged_ne]
  have count : (allocation.certificate.holders.filter
        (allocation.answers sha256 term index network fragments)).length +
      (allocation.rewritten sha256 network fragments).length =
      allocation.certificate.holders.length := by
    rw [filter_congr split, rewritten, add_comm]
    exact (length_eq_length_filter_add _).symm
  have enough := threshold_le_holders allocation.certificate
  rw [sealPayload_eq term_pos intact index_pos lost, all_answered, if_neg (by omega)]
  intro voter member error landed failed
  rw [answered voter member] at failed
  cases failed

variable (lawful : code.Lawful) {reading : Network}
  (reads : ∀ holder ∈ allocation.certificate.holders, reading.load holder = none)
include lawful reads

theorem reconstruct_of_answers :
    reconstruct code sha256 (allocation.reconstructRequest sha256 term index) reading
      (allocation.afterSeal sha256 term index network fragments) = .ok allocation.staging.body := by
  have lost : LoadsOnlyLost reading allocation.certificate.holders := by
    intro holder member error failed
    rw [reads holder member] at failed
    cases failed
  have sealed : ∀ holder ∈ allocation.certificate.holders,
      allocation.afterSeal sha256 term index network fragments holder (allocation.key sha256) =
        some (allocation.record sha256 term index holder) := by
    intro holder member
    rw [afterSeal_holder member, stores holder member]
    rcases intact holder member with absent | staged | stamped
    · exact absurd absent (held holder member)
    · rw [if_pos ⟨decide_eq_true ⟨loads holder member, staged⟩, rfl⟩]
    · split
      · rfl
      · exact stamped
  have all_sealed : allocation.certificate.holders.filter
      (allocation.answers sha256 term index reading
        (allocation.afterSeal sha256 term index network fragments)) =
      allocation.certificate.holders :=
    filter_eq_self.mpr fun holder member =>
      decide_eq_true ⟨reads holder member, sealed holder member⟩
  have enough := threshold_le_holders allocation.certificate
  rw [reconstruct_eq term_pos intact.afterSeal lawful lost, if_neg, all_sealed, if_neg (by omega)]
  rintro ⟨holder, member, unsealed⟩
  simp only [answers, decide_eq_true_eq, sealed holder member, Option.some.injEq] at unsealed
  exact allocation.record_ne sha256 term_pos index holder unsealed.2.symm

include index_pos in
theorem sealThenReconstruct_eq : sealThenReconstruct code sha256 network reading fragments
    (allocation.reconstructRequest sha256 term index) = .ok allocation.staging.body := by
  have sealing_eq : (allocation.reconstructRequest sha256 term index).sealing =
      allocation.sealRequest sha256 term index := rfl
  rw [sealThenReconstruct, sealing_eq,
    sealPayload_of_answers term_pos index_pos intact held loads stores]
  exact reconstruct_of_answers term_pos intact held loads stores lawful reads

end Answers

end Allocation

/-- The holder answers with a representation that the read accepts. -/
def ReconstructRequest.matching (read : ReconstructRequest) (network : Network)
    (fragments : Fragments) (voter : Nat) : Bool :=
  match loadFrom network fragments read.key voter with
  | .ok (some record) =>
    (slotOf read.certificate.voters voter).any fun slot => !read.mismatch slot record
  | _ => false

variable {fragments : Fragments}

theorem length_le_of_loadRecords {read : ReconstructRequest} {voters : List Nat}
    {records : List PayloadRepresentation}
    (loaded : loadRecords read network fragments voters = .ok records) :
    records.length ≤ (voters.filter (read.matching network fragments)).length := by
  induction voters generalizing records with
  | nil =>
    cases loaded
    exact Nat.zero_le _
  | cons voter rest ih =>
    have keep : (rest.filter (read.matching network fragments)).length ≤
        ((voter :: rest).filter (read.matching network fragments)).length :=
      ((sublist_cons_self voter rest).filter _).length_le
    rw [loadRecords] at loaded
    split at loaded
    · exact (ih loaded).trans keep
    · exact (ih loaded).trans keep
    · cases loaded
    · rename_i record answered
      split at loaded
      · cases loaded
      rename_i slot placed
      split at loaded
      · cases loaded
      rename_i agrees
      cases rest_eq : loadRecords read network fragments rest with
      | error error => rw [rest_eq] at loaded; cases loaded
      | ok others =>
        rw [rest_eq] at loaded
        cases loaded
        have matched : read.matching network fragments voter = true := by
          simp only [ReconstructRequest.matching, answered, placed, Option.any_some]
          simpa using agrees
        rw [filter_cons_of_pos matched, length_cons, length_cons]
        exact Nat.succ_le_succ (ih rest_eq)

/-- If staging returns a certificate, then every election quorum that serves its holders can seal
the staged body and read it back; and a read that reaches too few matching holders fails. -/
theorem quorum_rebuilds_staged_body (lawful : code.Lawful) {before : Fragments}
    (accepted : store.stage code sha256 staging completion network before = (.ok staged, after))
    {term index : Nat} (term_pos : 0 < term) (index_pos : 0 < index) :
    (∀ reachable : List Nat, reachable.Nodup → (∀ voter ∈ reachable, voter ∈ store.voters) →
      store.voters.length / 2 + 1 ≤ reachable.length →
      ∀ sealing reading : Network, Serves sealing reachable → Serves reading reachable →
        ∃ sealed, sealPayload (staging.sealRequest staged term index) sealing after =
            (.ok (), sealed) ∧
          reconstruct code sha256 (staging.reconstructRequest staged term index) reading sealed =
            .ok staging.body) ∧
    ∀ (reading : Network) (fragments : Fragments),
      (staged.certificate.holders.filter
        ((staging.reconstructRequest staged term index).matching reading fragments)).length <
          reconstructionThreshold staged.certificate →
      ∃ error, reconstruct code sha256 (staging.reconstructRequest staged term index) reading
        fragments = .error error := by
  obtain ⟨hash_eq, length_eq, allocation, staging_eq, certificate_eq, _, _, voters_eq, held⟩ :=
    stage_ok accepted
  have seal_eq : staging.sealRequest staged term index =
      allocation.sealRequest sha256 term index := by
    simp only [StageRequest.sealRequest, Allocation.sealRequest, hash_eq, staging_eq,
      certificate_eq]
  have read_eq : staging.reconstructRequest staged term index =
      allocation.reconstructRequest sha256 term index := by
    simp only [StageRequest.reconstructRequest, Allocation.reconstructRequest, hash_eq, length_eq,
      staging_eq, certificate_eq]
  constructor
  · intro reachable nodup subset majority sealing reading seals reads
    have enough := threshold_le_of_quorum allocation.certificate nodup
      (by rw [voters_eq]; exact subset) (by rw [voters_eq]; exact majority)
    obtain ⟨sealed, read⟩ := allocation.seal_then_reconstruct lawful term_pos index_pos
      (fun holder member => (held holder member).2) enough seals reads
    rw [seal_eq, read_eq, ← staging_eq]
    exact ⟨_, sealed, read⟩
  · intro reading fragments few
    rw [reconstruct]
    cases loaded : loadRecords _ reading fragments _ with
    | error error => exact ⟨error, rfl⟩
    | ok records =>
      exact ⟨_, if_pos ((length_le_of_loadRecords loaded).trans_lt few)⟩

/-- A store of three voters whose code mirrors a single original. -/
def mirrorStore : DistributedPayloadStore where
  k := 1
  m := 2
  voters := [1, 2, 3]
  k_pos := Nat.one_pos
  m_pos := Nat.two_pos
  voters_length := by decide
  voters_nodup := by decide
  voters_ne_zero := by decide

/-- A network in which only the listed voters answer. -/
def onlyReaching (reachable : List Nat) : Network where
  load voter := if voter ∈ reachable then none else some (.transport "connection refused")
  store voter :=
    if voter ∈ reachable then .answered else .failed (.transport "connection refused") false

theorem onlyReaching_serves (reachable : List Nat) :
    Serves (onlyReaching reachable) reachable := by
  intro voter
  exact ⟨fun reached => by simp [onlyReaching, reached],
    fun unreached => ⟨_, by simp [onlyReaching, unreached]; rfl⟩⟩

def mirrorSha256 (body : Bytes) : Digest :=
  if body = [1, 2, 3, 4, 5] then
    digestOfHex "74f81fe167d99b4cb41d6d0ccda82278caee9f3e2f25d5e5a3936ff3dcec60d0"
  else Vector.replicate 32 0

/-- Five bytes staged in coded mode on three voters, of which the third does not answer, are read
back from the second voter and the third. -/
theorem quorum_rebuilds_staged_body_mirror :
    ∃ staged after sealed,
      mirrorStore.stage .mirror mirrorSha256 ⟨9, "timeline", 1, .coded, [1, 2, 3, 4, 5]⟩ [2, 1, 3]
        (onlyReaching [1, 2]) (fun _ _ => none) = (.ok staged, after) ∧
      staged.certificate.holders = [1, 2] ∧
      sealPayload (StageRequest.sealRequest ⟨9, "timeline", 1, .coded, [1, 2, 3, 4, 5]⟩ staged 1 7)
        (onlyReaching [2, 3]) after = (.ok (), sealed) ∧
      reconstruct .mirror mirrorSha256
        (StageRequest.reconstructRequest ⟨9, "timeline", 1, .coded, [1, 2, 3, 4, 5]⟩ staged 1 7)
        (onlyReaching [2, 3]) sealed = .ok [1, 2, 3, 4, 5] := by
  obtain ⟨staged, after, accepted, holders⟩ : ∃ staged after,
      mirrorStore.stage .mirror mirrorSha256 ⟨9, "timeline", 1, .coded, [1, 2, 3, 4, 5]⟩ [2, 1, 3]
        (onlyReaching [1, 2]) (fun _ _ => none) = (.ok staged, after) ∧
      staged.certificate.holders = [1, 2] := ⟨_, _, rfl, by decide⟩
  obtain ⟨sealed, seal_ok, read_ok⟩ :=
    (quorum_rebuilds_staged_body ErasureCode.mirror_lawful accepted Nat.one_pos
      (by decide : 0 < 7)).1 [2, 3] (by decide) (by decide) (by decide) (onlyReaching [2, 3])
      (onlyReaching [2, 3]) (onlyReaching_serves _) (onlyReaching_serves _)
  exact ⟨staged, after, sealed, accepted, holders, seal_ok, read_ok⟩

/-- After a successful seal, a read that reaches enough sealed holders returns the body if and only
if every holder that it reaches and that was only staged before the seal was loaded by the seal and
its rewrite took effect. -/
theorem sealed_body_readable_iff (lawful : code.Lawful) {allocation : Allocation code}
    {term index : Nat}
    (intact : allocation.Intact sha256 term index fragments allocation.certificate.holders)
    (accepted : sealPayload (allocation.sealRequest sha256 term index) network fragments =
      (.ok (), after)) (lost : LoadsOnlyLost later allocation.certificate.holders)
    (enough : reconstructionThreshold allocation.certificate ≤
      (allocation.certificate.holders.filter
      (allocation.answers sha256 term index later after)).length) :
    reconstruct code sha256 (allocation.reconstructRequest sha256 term index) later after =
        .ok allocation.staging.body ↔
      ∀ holder ∈ allocation.certificate.holders, later.load holder = none →
        fragments holder (allocation.key sha256) = some (allocation.record sha256 0 0 holder) →
        network.load holder = none ∧ (network.store holder).landed = true := by
  have positive : 0 < term ∧ 0 < index := by
    rw [sealPayload] at accepted
    split at accepted
    · cases accepted
    · rename_i proper
      simp only [Allocation.sealRequest] at proper
      omega
  obtain ⟨loads_lost, stores_lost⟩ := Allocation.onlyLost_of_sealPayload positive.1 intact accepted
  have after_eq : allocation.afterSeal sha256 term index network fragments = after := by
    rw [Allocation.sealPayload_eq positive.1 intact positive.2 loads_lost stores_lost] at accepted
    exact congrArg Prod.snd accepted
  subst after_eq
  rw [Allocation.reconstruct_eq positive.1 intact.afterSeal lawful lost]
  constructor
  · intro read holder member reached staged
    by_contra missed
    rw [if_pos ⟨holder, member, (Allocation.answers_staged_afterSeal positive.1 member).mpr
        ⟨reached, staged, missed⟩⟩] at read
    cases read
  · intro rewritten
    rw [if_neg, if_neg (Nat.not_lt.mpr enough)]
    rintro ⟨holder, member, unsealed⟩
    obtain ⟨reached, staged, missed⟩ :=
      (Allocation.answers_staged_afterSeal positive.1 member).mp unsealed
    exact missed (rewritten holder member reached staged)

def zeroBody : Bytes := List.replicate 5000 0

/-- The hashes of the zero bytes and of the key under which they are archived. -/
def zeroSha256 (body : Bytes) : Digest :=
  if body = zeroBody then
    digestOfHex "7ca5bd879f393d9dd05b14f38add9c0fc6b67928f7f2d261b2e47a32ee8219e3"
  else if body = asBytes ("timeline/0000000000000000-0000000000001388-" ++
      "7ca5bd879f393d9dd05b14f38add9c0fc6b67928f7f2d261b2e47a32ee8219e3") then
    digestOfHex "71b288d5664325751cc23460bbdb9237834fbe40b3db8fcdffbb3d8a7658fa56"
  else Vector.replicate 32 0

/-- The certificate of a complete staging on the first two of three voters. -/
def pairCertificate : PayloadCertificate where
  mode := .complete
  k := 1
  m := 2
  voters := [1, 2, 3]
  holders := [1, 2]
  k_pos := Nat.one_pos
  voters_length := by decide
  voters_ne_zero := by decide
  voters_nodup := by decide
  holders_sorted := by decide
  holders_subset := by decide
  durable := by decide

theorem pair_one_body : (some pairCertificate).isSome = !(none : Option Bytes).isSome := rfl

/-- The zero bytes staged completely on three voters. -/
def zeroAllocation : Allocation .mirror where
  staging := ⟨9, "timeline", 1, .complete, zeroBody⟩
  certificate := pairCertificate
  shards := [zeroBody, zeroBody, zeroBody]
  mode_eq := rfl
  coded := rfl

/-- The first two voters keep the staged zero bytes. -/
def zeroStaged : Fragments := fun voter key =>
  if voter ∈ [1, 2] ∧ key = zeroAllocation.key zeroSha256 then
    some (zeroAllocation.record zeroSha256 0 0 voter)
  else none

theorem zeroStaged_holder (member : holder ∈ [1, 2]) :
    zeroStaged holder (zeroAllocation.key zeroSha256) =
      some (zeroAllocation.record zeroSha256 0 0 holder) :=
  if_pos ⟨member, rfl⟩

theorem zeroStaged_intact (term index : Nat) : zeroAllocation.Intact zeroSha256 term index
    zeroStaged zeroAllocation.certificate.holders :=
  fun _ member => .inr (.inl (zeroStaged_holder member))

theorem zeroStaged_rewritten (reachable : List Nat) :
    zeroAllocation.rewritten zeroSha256 (onlyReaching reachable) zeroStaged =
      [1, 2].filter (· ∈ reachable) := by
  refine filter_congr fun holder member => ?_
  rw [Allocation.answers, zeroStaged_holder member]
  simp only [and_true]
  exact decide_eq_decide.mpr (onlyReaching_serves reachable).load_eq_none_iff

theorem zeroStaged_seal (some_reached : 1 ∈ reachable ∨ 2 ∈ reachable) :
    sealPayload (zeroAllocation.sealRequest zeroSha256 1 7) (onlyReaching reachable) zeroStaged =
      (.ok (), zeroAllocation.afterSeal zeroSha256 1 7 (onlyReaching reachable) zeroStaged) := by
  have answered : ∀ voter ∈ [1, 2].filter (· ∈ reachable),
      (onlyReaching reachable).store voter = .answered := by
    intro voter member
    exact ((onlyReaching_serves reachable voter).1 (of_decide_eq_true (mem_filter.mp member).2)).2
  have counted : ([1, 2].filter (· ∈ reachable)).filter
      (fun voter => (onlyReaching reachable).store voter = .answered) =
      [1, 2].filter (· ∈ reachable) :=
    filter_eq_self.mpr fun voter member => decide_eq_true (answered voter member)
  have nonempty : 0 < ([1, 2].filter (· ∈ reachable)).length := by
    rcases some_reached with reached | reached <;>
      exact length_pos_of_mem (mem_filter.mpr ⟨by decide, decide_eq_true reached⟩)
  rw [Allocation.sealPayload_eq Nat.one_pos (zeroStaged_intact 1 7) (by decide)
    ((onlyReaching_serves reachable).loadsOnlyLost _), zeroStaged_rewritten, counted, if_neg]
  · have threshold : reconstructionThreshold zeroAllocation.certificate = 1 := rfl
    omega
  · rw [zeroStaged_rewritten]
    intro voter member error landed failed
    rw [answered voter member] at failed
    cases failed

theorem zeroStaged_sealed {later : List Nat} {holder : Nat} (member : holder ∈ [1, 2])
    (reached : holder ∈ reachable) (reads : holder ∈ later) :
    zeroAllocation.answers zeroSha256 1 7 (onlyReaching later)
      (zeroAllocation.afterSeal zeroSha256 1 7 (onlyReaching reachable) zeroStaged) holder =
        true := by
  have served := (onlyReaching_serves reachable holder).1 reached
  have loaded : zeroAllocation.answers zeroSha256 0 0 (onlyReaching reachable) zeroStaged holder =
      true := decide_eq_true ⟨served.1, zeroStaged_holder member⟩
  rw [Allocation.answers, decide_eq_true_eq, Allocation.afterSeal_holder member, loaded,
    served.2, if_pos ⟨rfl, rfl⟩]
  exact ⟨((onlyReaching_serves later holder).1 reads).1, rfl⟩

/-- A seal that does not reach the second holder succeeds; a read that reaches the sealed first
holder and the second one reports corruption. -/
theorem sealed_body_unreadable :
    ∃ after, sealPayload (zeroAllocation.sealRequest zeroSha256 1 7) (onlyReaching [1])
        zeroStaged = (.ok (), after) ∧
      zeroAllocation.answers zeroSha256 1 7 (onlyReaching [1, 2, 3]) after 1 = true ∧
      reconstruct .mirror zeroSha256 (zeroAllocation.reconstructRequest zeroSha256 1 7)
        (onlyReaching [1, 2, 3]) after = .error .corruptRepresentation := by
  refine ⟨_, zeroStaged_seal (by decide), zeroStaged_sealed (by decide) (by decide) (by decide), ?_⟩
  rw [Allocation.reconstruct_eq Nat.one_pos (zeroStaged_intact 1 7).afterSeal
    ErasureCode.mirror_lawful ((onlyReaching_serves [1, 2, 3]).loadsOnlyLost _), if_pos]
  refine ⟨2, by decide, (Allocation.answers_staged_afterSeal Nat.one_pos (by decide)).mpr ?_⟩
  exact ⟨rfl, zeroStaged_holder (by decide), by simp [onlyReaching]⟩

/-- A seal that reaches both holders leaves a body that is read back from both. -/
theorem sealed_body_readable_iff_zero :
    ∃ after, sealPayload (zeroAllocation.sealRequest zeroSha256 1 7) (onlyReaching [1, 2])
        zeroStaged = (.ok (), after) ∧
      reconstruct .mirror zeroSha256 (zeroAllocation.reconstructRequest zeroSha256 1 7)
        (onlyReaching [1, 2, 3]) after = .ok zeroBody := by
  have accepted := @zeroStaged_seal [1, 2] (by decide)
  refine ⟨_, accepted, (sealed_body_readable_iff ErasureCode.mirror_lawful (zeroStaged_intact 1 7)
    accepted ((onlyReaching_serves [1, 2, 3]).loadsOnlyLost _) ?_).mpr ?_⟩
  · have sealed := @zeroStaged_sealed [1, 2] [1, 2, 3] 1 (by decide) (by decide) (by decide)
    exact length_pos_of_mem (mem_filter.mpr ⟨by decide, sealed⟩)
  · intro holder member _ _
    have reached : holder ∈ [1, 2] := member
    exact ⟨(onlyReaching_serves [1, 2] holder).1 reached |>.1,
      by rw [((onlyReaching_serves [1, 2] holder).1 reached).2]; rfl⟩

end Verglas.Consensus
