import Verglas.Consensus.Payload

/-!
# Allocations

An allocation is a staged body together with its certificate and the shards of every slot.  This
file specifies the payload operations on the holders of one allocation: what a write leaves behind,
what sealing and reading make of holders that are empty, staged or sealed, and when the collected
representations decode to the body.
-/

namespace Verglas.Consensus

open List

/-- Writing the same new content for a list of voters changes exactly the voters whose write took
effect. -/
theorem landWrites_map (fate : Nat → Reply) (key : FragmentKey)
    (content : Nat → Option PayloadRepresentation) (voters : List Nat) (fragments : Fragments)
    (voter : Nat) (other : FragmentKey) :
    landWrites fate key (voters.map fun target => (target, content target)) fragments voter other =
      if other = key ∧ voter ∈ voters ∧ (fate voter).landed = true then content voter
      else fragments voter other := by
  induction voters generalizing fragments with
  | nil => simp [landWrites]
  | cons target rest ih =>
    rw [map_cons, landWrites, ih]
    by_cases changed : other = key ∧ voter ∈ rest ∧ (fate voter).landed = true
    · rw [if_pos changed, if_pos ⟨changed.1, mem_cons_of_mem _ changed.2.1, changed.2.2⟩]
    rw [if_neg changed]
    by_cases same : voter = target
    · subst same
      by_cases landed : (fate voter).landed = true
      · by_cases key_eq : other = key
        · simp [Fragments.write, landed, key_eq]
        · simp [Fragments.write, landed, key_eq]
      · simp [landed]
    · have elsewhere : ¬(other = key ∧ voter ∈ target :: rest ∧ (fate voter).landed = true) := by
        rintro ⟨key_eq, member, landed⟩
        rcases mem_cons.mp member with equal | inRest
        · exact same equal
        · exact changed ⟨key_eq, inRest, landed⟩
      rw [if_neg elsewhere]
      split
      · simp [Fragments.write, same]
      · rfl

/-- Every failed write of the listed voters is a lost reply. -/
def OnlyLost (fate : Nat → Reply) (voters : List Nat) : Prop :=
  ∀ voter ∈ voters, ∀ error landed, fate voter = .failed error landed →
    ∃ message, error = .transport message

variable {fate : Nat → Reply} {voters : List Nat}

theorem countAnswered_eq (lost : OnlyLost fate voters) :
    countAnswered fate voters =
      .ok (voters.filter fun voter => fate voter = .answered).length := by
  induction voters with
  | nil => rfl
  | cons voter rest ih =>
    have rest_eq := ih (forall_mem_cons.mp lost).2
    rw [countAnswered]
    cases reply : fate voter with
    | answered => simp [reply, rest_eq, Except.map]
    | failed error landed =>
      obtain ⟨message, rfl⟩ := lost voter mem_cons_self error landed reply
      simp [reply, rest_eq]

theorem onlyLost_of_countAnswered {count : Nat} (counted : countAnswered fate voters = .ok count) :
    OnlyLost fate voters := by
  induction voters generalizing count with
  | nil => simp [OnlyLost]
  | cons voter rest ih =>
    have rest_lost : OnlyLost fate rest := by
      rw [countAnswered] at counted
      split at counted
      · cases rest_eq : countAnswered fate rest with
        | error error => rw [rest_eq] at counted; cases counted
        | ok other => exact ih rest_eq
      · exact ih counted
      · cases counted
    intro other member error landed reply
    rcases mem_cons.mp member with rfl | inRest
    · rw [countAnswered, reply] at counted
      cases error with
      | transport message => exact ⟨message, rfl⟩
      | _ => cases counted
    · exact rest_lost other inRest error landed reply

/-- Every failed load of the listed voters is a lost reply. -/
def LoadsOnlyLost (network : Network) (voters : List Nat) : Prop :=
  ∀ voter ∈ voters, ∀ error, network.load voter = some error → ∃ message, error = .transport message

/-- A staged body with its certificate and the shards of every slot. -/
structure Allocation (code : ErasureCode UInt8) where
  staging : StageRequest
  certificate : PayloadCertificate
  shards : List Bytes
  mode_eq : certificate.mode = staging.mode
  coded : slotBytes code certificate.k certificate.m certificate.voters staging.mode staging.body =
    some shards

namespace Allocation

variable {code : ErasureCode UInt8} (sha256 : Bytes → Digest) (allocation : Allocation code)

/-- The key of the allocation's fragments. -/
def key : FragmentKey := allocation.staging.key sha256

/-- The representation of one voter, sealed with a term and an index or with zeros. -/
def record (term index voter : Nat) : PayloadRepresentation :=
  let slot := allocation.certificate.voters.idxOf voter
  allocation.staging.representation sha256 term index slot (allocation.shards.getD slot [])

/-- The request that seals the allocation. -/
def sealRequest (term index : Nat) : SealRequest where
  hash := sha256 allocation.staging.body
  group := allocation.staging.group
  configurationGeneration := allocation.staging.configurationGeneration
  request := allocation.staging.request
  term := term
  index := index
  certificate := allocation.certificate

/-- The request that reads the allocation. -/
def reconstructRequest (term index : Nat) : ReconstructRequest where
  hash := sha256 allocation.staging.body
  group := allocation.staging.group
  configurationGeneration := allocation.staging.configurationGeneration
  request := allocation.staging.request
  length := allocation.staging.body.length
  term := term
  index := index
  certificate := allocation.certificate

@[simp] theorem sealRequest_key (term index : Nat) :
    (allocation.sealRequest sha256 term index).key = allocation.key sha256 := rfl

@[simp] theorem reconstructRequest_key (term index : Nat) :
    (allocation.reconstructRequest sha256 term index).key = allocation.key sha256 := rfl

@[simp] theorem reconstructRequest_certificate (term index : Nat) :
    (allocation.reconstructRequest sha256 term index).certificate = allocation.certificate := rfl

@[simp] theorem sealRequest_certificate (term index : Nat) :
    (allocation.sealRequest sha256 term index).certificate = allocation.certificate := rfl

@[simp] theorem stamp_record (term index voter : Nat) :
    (allocation.sealRequest sha256 term index).stamp (allocation.record sha256 0 0 voter) =
      allocation.record sha256 term index voter := rfl

variable {voter : Nat}

theorem slotOf_eq (member : voter ∈ allocation.certificate.voters) :
    slotOf allocation.certificate.voters voter =
      some (allocation.certificate.voters.idxOf voter) :=
  if_pos member

theorem not_sealMismatch_staged (term index voter : Nat) :
    (allocation.sealRequest sha256 term index).mismatch
      (allocation.certificate.voters.idxOf voter) (allocation.record sha256 0 0 voter) = false := by
  simp [SealRequest.mismatch, sealRequest, record, StageRequest.representation, allocation.mode_eq]

theorem not_sealMismatch_sealed (term index voter : Nat) :
    (allocation.sealRequest sha256 term index).mismatch
      (allocation.certificate.voters.idxOf voter) (allocation.record sha256 term index voter) =
        false := by
  simp [SealRequest.mismatch, sealRequest, record, StageRequest.representation, allocation.mode_eq]

theorem not_readMismatch_sealed (term index voter : Nat) :
    (allocation.reconstructRequest sha256 term index).mismatch
      (allocation.certificate.voters.idxOf voter) (allocation.record sha256 term index voter) =
        false := by
  simp [ReconstructRequest.mismatch, reconstructRequest, record, StageRequest.representation,
    allocation.mode_eq]

variable {term : Nat}

theorem readMismatch_staged (term_pos : 0 < term) (index voter : Nat) :
    (allocation.reconstructRequest sha256 term index).mismatch
      (allocation.certificate.voters.idxOf voter) (allocation.record sha256 0 0 voter) = true := by
  have term_ne : ¬0 = term := by omega
  simp [ReconstructRequest.mismatch, reconstructRequest, record, StageRequest.representation,
    term_ne]

theorem shards_length (lawful : code.Lawful) :
    allocation.shards.length = allocation.certificate.voters.length := by
  have coded := allocation.coded
  cases mode : allocation.staging.mode with
  | coded =>
    rw [mode, slotBytes, encode] at coded
    obtain ⟨originals, recovery, recovered, shards_eq, count, widths, _⟩ :=
      ErasureCode.encodeStripe_eq_some (shardWidth_pos _ _)
        (length_le_mul_shardWidth allocation.certificate.k_pos _) coded
    rw [shards_eq, length_append, count, (lawful.recovery recovered count widths).1,
      allocation.certificate.voters_length]
  | complete =>
    rw [mode, slotBytes] at coded
    injection coded with shards_eq
    rw [← shards_eq, length_map]

variable {holders : List Nat}

theorem supplies (lawful : code.Lawful) (nodup : holders.Nodup)
    (subset : ∀ holder ∈ holders, holder ∈ allocation.certificate.voters) (term index : Nat) :
    ErasureCode.Supplies allocation.shards
      ((holders.map (allocation.record sha256 term index)).map PayloadRepresentation.part) where
  nodup := by
    rw [map_map, map_map]
    apply nodup.map_on
    intro left left_mem right right_mem equal
    exact idxOf_inj (subset left left_mem) |>.mp equal
  agrees := by
    intro part member
    simp only [map_map, mem_map, Function.comp_apply] at member
    obtain ⟨holder, holder_mem, rfl⟩ := member
    have slot_lt : allocation.certificate.voters.idxOf holder < allocation.shards.length := by
      rw [allocation.shards_length lawful]
      exact idxOf_lt_length_of_mem (subset holder holder_mem)
    simp [PayloadRepresentation.part, record, StageRequest.representation, slot_lt]

theorem threshold_pos (certificate : PayloadCertificate) :
    0 < reconstructionThreshold certificate := by
  unfold reconstructionThreshold
  split
  · exact Nat.one_pos
  · exact certificate.k_pos

theorem decodeRecords_eq (lawful : code.Lawful) {first : Nat} {rest : List Nat}
    (nodup : (first :: rest).Nodup)
    (subset : ∀ holder ∈ first :: rest, holder ∈ allocation.certificate.voters)
    (term index : Nat)
    (enough : reconstructionThreshold allocation.certificate ≤ (first :: rest).length) :
    decodeRecords code allocation.certificate (allocation.record sha256 term index first)
      ((first :: rest).map (allocation.record sha256 term index)) =
        some allocation.staging.body := by
  have coded := allocation.coded
  unfold decodeRecords
  cases mode : allocation.certificate.mode with
  | coded =>
    rw [← allocation.mode_eq, mode, slotBytes, encode] at coded
    rw [reconstructionThreshold, mode] at enough
    refine lawful.decodeStripe_encodeStripe (shardWidth_pos _ _)
      (length_le_mul_shardWidth allocation.certificate.k_pos _) coded
      (allocation.supplies sha256 lawful nodup subset term index)
      allocation.certificate.k_pos ?_
    simpa using enough
  | complete =>
    rw [← allocation.mode_eq, mode, slotBytes] at coded
    injection coded with shards_eq
    have slot_lt := idxOf_lt_length_of_mem (subset first mem_cons_self)
    simp [record, StageRequest.representation, ← shards_eq, slot_lt]

theorem assemble_eq (lawful : code.Lawful) (nodup : holders.Nodup)
    (subset : ∀ holder ∈ holders, holder ∈ allocation.certificate.voters) (term index : Nat)
    (enough : reconstructionThreshold allocation.certificate ≤ holders.length) :
    assemble code sha256 (allocation.reconstructRequest sha256 term index)
      (holders.map (allocation.record sha256 term index)) = .ok allocation.staging.body := by
  cases holders with
  | nil => exact absurd enough (Nat.not_le_of_lt (threshold_pos _))
  | cons first rest =>
    have decoded := allocation.decodeRecords_eq sha256 lawful nodup subset term index enough
    have uniform : ((first :: rest).map (allocation.record sha256 term index)).any
        (differs (allocation.record sha256 term index first)) = false := by
      simp [differs, record, StageRequest.representation]
    have counted : ¬((first :: rest).map (allocation.record sha256 term index)).length <
        reconstructionThreshold allocation.certificate := by
      rw [length_map]
      exact Nat.not_lt.mpr enough
    rw [assemble, reconstructRequest_certificate, if_neg counted]
    simp only [map_cons, head?_cons] at uniform decoded ⊢
    rw [uniform, if_neg (by simp [record, StageRequest.representation, reconstructRequest,
      allocation.mode_eq])]
    rw [decoded]
    simp [record, StageRequest.representation, reconstructRequest]

/-- Each of the listed voters holds nothing, the staged representation or the sealed one. -/
def Intact (term index : Nat) (fragments : Fragments) (voters : List Nat) : Prop :=
  ∀ voter ∈ voters, fragments voter (allocation.key sha256) = none ∨
    fragments voter (allocation.key sha256) = some (allocation.record sha256 0 0 voter) ∨
    fragments voter (allocation.key sha256) = some (allocation.record sha256 term index voter)

/-- The voter answers with the representation that carries `term` and `index`. -/
def answers (term index : Nat) (network : Network) (fragments : Fragments) (voter : Nat) : Bool :=
  network.load voter = none ∧
    fragments voter (allocation.key sha256) = some (allocation.record sha256 term index voter)

theorem record_ne (term_pos : 0 < term) (index voter : Nat) :
    allocation.record sha256 0 0 voter ≠ allocation.record sha256 term index voter := by
  intro equal
  have terms : 0 = term := congrArg PayloadRepresentation.term equal
  omega

section Holders

variable {sha256 allocation} {term index : Nat} {network : Network} {fragments : Fragments}
  {voters : List Nat}

theorem Intact.tail {voter : Nat} (intact : allocation.Intact sha256 term index fragments
    (voter :: voters)) : allocation.Intact sha256 term index fragments voters :=
  (forall_mem_cons.mp intact).2

theorem loadFrom_of_answers
    (answered : allocation.answers sha256 term index network fragments voter = true) :
    loadFrom network fragments (allocation.key sha256) voter =
      .ok (some (allocation.record sha256 term index voter)) := by
  simp only [answers, decide_eq_true_eq] at answered
  simp only [loadFrom, answered.1, answered.2]

/-- An intact holder is skipped, answers with its staged representation or with its sealed one. -/
theorem Intact.cases (intact : allocation.Intact sha256 term index fragments (voter :: voters))
    (lost : LoadsOnlyLost network (voter :: voters)) (term_pos : 0 < term) :
    ((loadFrom network fragments (allocation.key sha256) voter = .ok none ∨
        ∃ message, loadFrom network fragments (allocation.key sha256) voter =
          .error (.transport message)) ∧
      allocation.answers sha256 0 0 network fragments voter = false ∧
      allocation.answers sha256 term index network fragments voter = false) ∨
    (allocation.answers sha256 0 0 network fragments voter = true ∧
      allocation.answers sha256 term index network fragments voter = false) ∨
    (allocation.answers sha256 0 0 network fragments voter = false ∧
      allocation.answers sha256 term index network fragments voter = true) := by
  have staged_ne := allocation.record_ne sha256 term_pos index voter
  cases load : network.load voter with
  | some error =>
    obtain ⟨message, rfl⟩ := lost voter mem_cons_self error load
    exact .inl ⟨.inr ⟨message, by simp [loadFrom, load]⟩, by simp [answers, load],
      by simp [answers, load]⟩
  | none =>
    rcases intact voter mem_cons_self with absent | staged | stamped
    · exact .inl ⟨.inl (by simp [loadFrom, load, absent]), by simp [answers, absent],
        by simp [answers, absent]⟩
    · exact .inr (.inl ⟨by simp [answers, load, staged],
        by simp [answers, load, staged, staged_ne]⟩)
    · exact .inr (.inr ⟨by simp [answers, load, stamped, Ne.symm staged_ne],
        by simp [answers, load, stamped]⟩)

theorem loadsOnlyLost_of_loadUnsealed {request : SealRequest}
    {found : Nat × List (Nat × PayloadRepresentation)}
    (loaded : loadUnsealed request network fragments voters = .ok found) :
    LoadsOnlyLost network voters := by
  induction voters generalizing found with
  | nil => simp [LoadsOnlyLost]
  | cons voter rest ih =>
    rw [loadUnsealed] at loaded
    have rest_lost : LoadsOnlyLost network rest := by
      split at loaded
      · exact ih loaded
      · exact ih loaded
      · cases loaded
      · split at loaded
        · cases loaded
        split at loaded
        · cases loaded
        · cases rest_eq : loadUnsealed request network fragments rest with
          | error error => rw [rest_eq] at loaded; cases loaded
          | ok found => exact ih rest_eq
    intro other member error failed
    rcases mem_cons.mp member with rfl | inRest
    · simp only [loadFrom, failed] at loaded
      cases error with
      | transport message => exact ⟨message, rfl⟩
      | _ => cases loaded
    · exact rest_lost other inRest error failed

variable (term_pos : 0 < term)
  (subset : ∀ voter ∈ voters, voter ∈ allocation.certificate.voters)
  (intact : allocation.Intact sha256 term index fragments voters)
  (lost : LoadsOnlyLost network voters)

include term_pos subset intact lost

/-- Sealing counts the sealed holders that answer and rewrites the staged ones. -/
theorem loadUnsealed_eq :
    loadUnsealed (allocation.sealRequest sha256 term index) network fragments voters =
      .ok ((voters.filter (allocation.answers sha256 term index network fragments)).length,
        (voters.filter (allocation.answers sha256 0 0 network fragments)).map fun voter =>
          (voter, allocation.record sha256 term index voter)) := by
  induction voters with
  | nil => rfl
  | cons voter rest ih =>
    have rest_eq := ih (forall_mem_cons.mp subset).2
      intact.tail (forall_mem_cons.mp lost).2
    have slot_eq := allocation.slotOf_eq (subset voter mem_cons_self)
    rw [loadUnsealed, sealRequest_key, sealRequest_certificate]
    rcases intact.cases lost term_pos with ⟨skipped, unstaged, unsealed⟩ |
      ⟨staged, unsealed⟩ | ⟨unstaged, stamped⟩
    · rw [filter_cons_of_neg (by simp [unsealed]),
        filter_cons_of_neg (by simp [unstaged]), ← rest_eq]
      rcases skipped with absent | ⟨message, failed⟩
      · rw [absent]
      · rw [failed]
    · rw [filter_cons_of_pos staged, filter_cons_of_neg (by simp [unsealed])]
      simp only [loadFrom_of_answers staged, slot_eq, rest_eq,
        allocation.not_sealMismatch_staged sha256 term index voter]
      have unstamped : ¬((allocation.record sha256 0 0 voter).term =
            (allocation.sealRequest sha256 term index).term ∧
          (allocation.record sha256 0 0 voter).index =
            (allocation.sealRequest sha256 term index).index) := by
        intro both
        have zero : 0 = term := both.1
        omega
      simp [Except.map, unstamped]
    · rw [filter_cons_of_pos stamped, filter_cons_of_neg (by simp [unstaged])]
      simp only [loadFrom_of_answers stamped, slot_eq, rest_eq,
        allocation.not_sealMismatch_sealed sha256 term index voter]
      have same : (allocation.record sha256 term index voter).term =
            (allocation.sealRequest sha256 term index).term ∧
          (allocation.record sha256 term index voter).index =
            (allocation.sealRequest sha256 term index).index := ⟨rfl, rfl⟩
      simp [Except.map, same]

/-- Reading collects the sealed holders that answer when no unsealed holder answers. -/
theorem loadRecords_eq
    (unstaged : ∀ voter ∈ voters, allocation.answers sha256 0 0 network fragments voter = false) :
    loadRecords (allocation.reconstructRequest sha256 term index) network fragments voters =
      .ok ((voters.filter (allocation.answers sha256 term index network fragments)).map
        (allocation.record sha256 term index)) := by
  induction voters with
  | nil => rfl
  | cons voter rest ih =>
    have rest_eq := ih (forall_mem_cons.mp subset).2
      intact.tail (forall_mem_cons.mp lost).2
      (forall_mem_cons.mp unstaged).2
    have slot_eq := allocation.slotOf_eq (subset voter mem_cons_self)
    rw [loadRecords, reconstructRequest_key, reconstructRequest_certificate]
    rcases intact.cases lost term_pos with ⟨skipped, _, unsealed⟩ | ⟨staged, _⟩ | ⟨_, stamped⟩
    · rw [filter_cons_of_neg (by simp [unsealed]), ← rest_eq]
      rcases skipped with absent | ⟨message, failed⟩
      · rw [absent]
      · rw [failed]
    · rw [unstaged voter mem_cons_self] at staged
      cases staged
    · rw [filter_cons_of_pos stamped]
      simp only [loadFrom_of_answers stamped, slot_eq, rest_eq,
        allocation.not_readMismatch_sealed sha256 term index voter]
      simp [Except.map]

theorem loadRecords_of_staged
    (staged : ∃ voter ∈ voters, allocation.answers sha256 0 0 network fragments voter = true) :
    loadRecords (allocation.reconstructRequest sha256 term index) network fragments voters =
      .error .corruptRepresentation := by
  induction voters with
  | nil => simp at staged
  | cons voter rest ih =>
    have slot_eq := allocation.slotOf_eq (subset voter mem_cons_self)
    have rest_eq : (∃ other ∈ rest, allocation.answers sha256 0 0 network fragments other = true) →
        loadRecords (allocation.reconstructRequest sha256 term index) network fragments rest =
          .error .corruptRepresentation :=
      ih (forall_mem_cons.mp subset).2
        intact.tail (forall_mem_cons.mp lost).2
    have later : allocation.answers sha256 0 0 network fragments voter = false →
        ∃ other ∈ rest, allocation.answers sha256 0 0 network fragments other = true := by
      intro unstaged
      obtain ⟨other, member, answered⟩ := staged
      rcases mem_cons.mp member with rfl | inRest
      · rw [unstaged] at answered
        cases answered
      · exact ⟨other, inRest, answered⟩
    rw [loadRecords, reconstructRequest_key, reconstructRequest_certificate]
    rcases intact.cases lost term_pos with ⟨skipped, unstaged, _⟩ | ⟨here, _⟩ | ⟨unstaged, stamped⟩
    · have failed := rest_eq (later unstaged)
      rcases skipped with absent | ⟨message, unreachable⟩
      · rw [absent, failed]
      · rw [unreachable, failed]
    · simp only [loadFrom_of_answers here, slot_eq,
        allocation.readMismatch_staged sha256 term_pos index voter, if_true]
    · have failed := rest_eq (later unstaged)
      simp only [loadFrom_of_answers stamped, slot_eq, failed,
        allocation.not_readMismatch_sealed sha256 term index voter]
      rfl

end Holders

/-- Holders whose staged representation a seal loads. -/
def rewritten (network : Network) (fragments : Fragments) : List Nat :=
  allocation.certificate.holders.filter (allocation.answers sha256 0 0 network fragments)

/-- Representations after a seal: the rewritten holders whose store took effect are sealed. -/
def afterSeal (term index : Nat) (network : Network) (fragments : Fragments) : Fragments :=
  fun voter other =>
    if other = allocation.key sha256 ∧ voter ∈ allocation.rewritten sha256 network fragments ∧
        (network.store voter).landed = true then
      some (allocation.record sha256 term index voter)
    else fragments voter other

section Results

variable {sha256 allocation} {term index : Nat} {network : Network} {fragments : Fragments}

theorem holders_nodup : allocation.certificate.holders.Nodup :=
  allocation.certificate.holders_sorted.imp fun order => order.ne

variable (term_pos : 0 < term)
  (intact : allocation.Intact sha256 term index fragments allocation.certificate.holders)

include term_pos intact

/-- What a seal answers and leaves behind when all failures are lost replies. -/
theorem sealPayload_eq (index_pos : 0 < index)
    (lost : LoadsOnlyLost network allocation.certificate.holders)
    (stores_lost : OnlyLost network.store (allocation.rewritten sha256 network fragments)) :
    sealPayload (allocation.sealRequest sha256 term index) network fragments =
      (if (allocation.certificate.holders.filter
            (allocation.answers sha256 term index network fragments)).length +
          ((allocation.rewritten sha256 network fragments).filter fun voter =>
            network.store voter = .answered).length <
          reconstructionThreshold allocation.certificate then
        .error .reconstructionUnavailable
      else .ok (), allocation.afterSeal sha256 term index network fragments) := by
  have proper : ¬((allocation.sealRequest sha256 term index).term = 0 ∨
      (allocation.sealRequest sha256 term index).index = 0) := by
    simp only [sealRequest]
    omega
  have loaded : loadUnsealed (allocation.sealRequest sha256 term index) network fragments
      allocation.certificate.holders =
      .ok ((allocation.certificate.holders.filter
          (allocation.answers sha256 term index network fragments)).length,
        (allocation.rewritten sha256 network fragments).map fun voter =>
          (voter, allocation.record sha256 term index voter)) :=
    loadUnsealed_eq term_pos allocation.certificate.holders_subset intact lost
  have landed : landWrites network.store (allocation.key sha256)
      ((allocation.rewritten sha256 network fragments).map fun voter =>
        (voter, some (allocation.record sha256 term index voter))) fragments =
      allocation.afterSeal sha256 term index network fragments := by
    funext voter other
    exact landWrites_map _ _ (fun voter => some (allocation.record sha256 term index voter)) _ _ _ _
  have counted := countAnswered_eq stores_lost
  rw [sealPayload, if_neg proper, sealRequest_certificate, loaded]
  simp only [storeSeals, sealRequest_key, sealRequest_certificate, map_map,
    Function.comp_def, map_id', counted, landed]
  split <;> rfl

theorem onlyLost_of_sealPayload {after : Fragments}
    (sealed : sealPayload (allocation.sealRequest sha256 term index) network fragments =
      (.ok (), after)) :
    LoadsOnlyLost network allocation.certificate.holders ∧
      OnlyLost network.store (allocation.rewritten sha256 network fragments) := by
  rw [sealPayload] at sealed
  split at sealed
  · cases sealed
  split at sealed
  · cases sealed
  rename_i alreadySealed pending loaded
  have lost := loadsOnlyLost_of_loadUnsealed loaded
  refine ⟨lost, ?_⟩
  rw [sealRequest_certificate, loadUnsealed_eq term_pos
    allocation.certificate.holders_subset intact lost] at loaded
  injection loaded with found
  injection found with _ pending_eq
  rw [storeSeals] at sealed
  split at sealed
  · cases sealed
  rename_i count counted
  rw [← pending_eq, map_map] at counted
  simp only [Function.comp_def, map_id'] at counted
  exact onlyLost_of_countAnswered counted

/-- What a read answers when all failures are lost replies. -/
theorem reconstruct_eq (lawful : code.Lawful)
    (lost : LoadsOnlyLost network allocation.certificate.holders) :
    reconstruct code sha256 (allocation.reconstructRequest sha256 term index) network fragments =
      if ∃ voter ∈ allocation.certificate.holders,
          allocation.answers sha256 0 0 network fragments voter = true then
        .error .corruptRepresentation
      else if (allocation.certificate.holders.filter
          (allocation.answers sha256 term index network fragments)).length <
          reconstructionThreshold allocation.certificate then
        .error .reconstructionUnavailable
      else .ok allocation.staging.body := by
  have subset := allocation.certificate.holders_subset
  split
  · rename_i staged
    rw [reconstruct, reconstructRequest_certificate,
      loadRecords_of_staged term_pos subset intact lost staged]
  · rename_i unstaged
    have quiet : ∀ voter ∈ allocation.certificate.holders,
        allocation.answers sha256 0 0 network fragments voter = false := by
      intro voter member
      rw [Bool.eq_false_iff]
      exact fun answered => unstaged ⟨voter, member, answered⟩
    rw [reconstruct, reconstructRequest_certificate,
      loadRecords_eq term_pos subset intact lost quiet]
    dsimp only
    split
    · rename_i few
      exact if_pos (by simpa using few)
    · rename_i enough
      exact allocation.assemble_eq sha256 lawful (holders_nodup.filter _)
        (fun voter member => subset voter (mem_of_mem_filter member)) term index
        (Nat.not_lt.mp enough)

end Results

end Allocation

end Verglas.Consensus
