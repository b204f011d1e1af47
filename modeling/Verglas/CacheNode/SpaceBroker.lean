import Mathlib.Algebra.GroupWithZero.Nat
import Mathlib.Tactic.Common

/-!
# The space broker

The block cache and the fragment store of a node share one budget.  The device files of the cache
are sparse and grow as blocks are admitted; fragments are charged to a counter that a ceiling
bounds.  The broker shrinks the cache when a reservation is refused, grows it back when fragments
are deleted, and publishes the ceiling anew from the bytes that fragments hold and the room that the
device files leave.  The room does not take the fragments off, so the ceiling counts them twice, and
the cache grows without regard to fragments.
-/

namespace Verglas.CacheNode

/-- The addition of the source's 64-bit counters. -/
def saturatingAdd (left right : Nat) : Nat := min (left + right) (2 ^ 64 - 1)

/-- The sizes that a node is configured with. -/
structure Budget where
  /-- What the block cache and the fragments may use together. -/
  capacity : Nat
  /-- The size of the block device without any bytes yielded. -/
  dataCeiling : Nat
  metaSize : Nat
  /-- The least that one resize takes from the block device. -/
  blockBytes : Nat
  /-- The headroom that is reclaimed beyond a deficit. -/
  floor : Nat
  carved : dataCeiling + metaSize = capacity

/-- Where the loop of the broker stands, with what it has read so far. -/
inductive BrokerAt where
  | waiting
  | takeDemand
  | reclaim (bytes : Nat)
  | reclaimLoop (bytes roomStart active : Nat)
  | reclaimResize (bytes roomStart active target : Nat)
  | reclaimStore (active : Nat)
  | takeReleased
  | restore
  | restoreResize (target : Nat)
  | readUsed
  | readData (used : Nat)
  | readMeta (used data : Nat)
  | publish (ceiling : Nat)
  deriving DecidableEq

/-- The broker holds no reading and no ceiling that it has yet to publish. -/
def BrokerAt.plain : BrokerAt → Bool
  | .readData _ | .readMeta _ _ | .publish _ => false
  | _ => true

/-- The disk of a node and what the cache, the fragment store and the broker know of it. -/
structure Space where
  /-- Bytes that the block device file has allocated. -/
  data : Nat
  /-- Bytes that the metadata device file has allocated. -/
  metadata : Nat
  /-- Current size of the block device. -/
  dataSize : Nat
  /-- What the broker has taken from the block device for fragments. -/
  yielded : Nat
  /-- Fragment bytes charged. -/
  used : Nat
  ceiling : Nat
  /-- The broker has published a ceiling. -/
  published : Bool
  /-- Charges of live fragments that calls which replace them have taken back for now. -/
  refunds : List Nat
  /-- Ceilings that reservations under way have looked at. -/
  looking : List Nat
  /-- Deficits signalled since the broker last took them. -/
  demand : Nat
  /-- Bytes of deleted fragments since the broker last took them. -/
  released : Nat
  /-- The broker was notified. -/
  permit : Bool
  broker : BrokerAt

/-- The steps that the budget puts conditions on. -/
inductive SpaceEvent where
  | grow (bytes : Nat)
  | look
  | restore (bytes : Nat)
  | readUsed
  | other

namespace Space

/-- Bytes that the device files have allocated. -/
def allocated (space : Space) : Nat := space.data + space.metadata

/-- The budget that the device files have not consumed. -/
def diskGrowthRoomBytes (budget : Budget) (space : Space) : Nat :=
  budget.capacity - space.allocated

/-- A node that starts with the files of an earlier run.  The ceiling is the whole budget until the
broker has published one. -/
def start (budget : Budget) (data metadata used : Nat) : Space where
  data := data
  metadata := metadata
  dataSize := budget.dataCeiling
  yielded := 0
  used := used
  ceiling := budget.capacity
  published := false
  refunds := []
  looking := []
  demand := 0
  released := 0
  permit := false
  broker := .readUsed

/-- One step of the cache, of a reservation, of a deletion or of the broker. -/
inductive Step (budget : Budget) (space : Space) : SpaceEvent → Space → Prop
  | growData {bytes : Nat} (fits : space.data + bytes ≤ space.dataSize) :
      Step budget space (.grow bytes) { space with data := space.data + bytes }
  | growMeta {bytes : Nat} (fits : space.metadata + bytes ≤ budget.metaSize) :
      Step budget space (.grow bytes) { space with metadata := space.metadata + bytes }
  | look : Step budget space .look { space with looking := space.looking ++ [space.ceiling] }
  | reserve {limit bytes : Nat} (looked : limit ∈ space.looking)
      (within : saturatingAdd space.used bytes ≤ limit) :
      Step budget space .other
        { space with
          used := saturatingAdd space.used bytes
          looking := space.looking.erase limit }
  | refuse {limit bytes : Nat} (looked : limit ∈ space.looking)
      (excess : limit < saturatingAdd space.used bytes) :
      Step budget space .other
        { space with
          looking := space.looking.erase limit
          demand := space.demand + (bytes - (limit - space.used))
          permit := true }
  | delete {bytes : Nat} (held : bytes ≤ space.used) :
      Step budget space .other
        { space with
          used := space.used - bytes
          released := space.released + bytes
          permit := true }
  /-- A writer gives back what it reserved, or the charge of the fragment that it has replaced.  No
  one is notified. -/
  | release {bytes : Nat} (held : bytes ≤ space.used) :
      Step budget space .other { space with used := space.used - bytes }
  /-- `store_fragment` takes back the charge of the fragment that it replaces before it reserves. -/
  | refund {bytes : Nat} (held : bytes ≤ space.used) :
      Step budget space .other
        { space with used := space.used - bytes, refunds := bytes :: space.refunds }
  | replaced {bytes : Nat} (refunded : bytes ∈ space.refunds) :
      Step budget space .other { space with refunds := space.refunds.erase bytes }
  /-- The reservation was refused or the write failed: the old fragment is charged again, whatever
  was admitted meanwhile. -/
  | restoreCharge {bytes : Nat} (refunded : bytes ∈ space.refunds) :
      Step budget space (.restore bytes)
        { space with used := space.used + bytes, refunds := space.refunds.erase bytes }
  | wake (notified : space.permit = true) (idle : space.broker = .waiting) :
      Step budget space .other { space with permit := false, broker := .takeDemand }
  | takeDemand (turn : space.broker = .takeDemand) :
      Step budget space .other
        { space with
          demand := 0
          broker := if 0 < space.demand then .reclaim (saturatingAdd space.demand budget.floor)
            else .takeReleased }
  | reclaim {bytes : Nat} (turn : space.broker = .reclaim bytes) :
      Step budget space .other
        { space with
          broker := if bytes = 0 then .takeReleased
            else .reclaimLoop bytes (space.diskGrowthRoomBytes budget)
              (budget.dataCeiling - space.yielded) }
  | reclaimLoop {bytes roomStart active : Nat}
      (turn : space.broker = .reclaimLoop bytes roomStart active) :
      Step budget space .other
        { space with
          broker := if bytes ≤ space.diskGrowthRoomBytes budget - roomStart then
              .reclaimStore active
            else .reclaimResize bytes roomStart active (active -
              max (bytes - (space.diskGrowthRoomBytes budget - roomStart)) budget.blockBytes) }
  /-- The block device evicts and truncates, or grows; a file that is cut keeps what fits. -/
  | reclaimResized {bytes roomStart active target resulting data : Nat}
      (turn : space.broker = .reclaimResize bytes roomStart active target)
      (kept : data ≤ space.data) (fits : data ≤ resulting) :
      Step budget space .other
        { space with
          data := data
          dataSize := resulting
          broker := if active ≤ resulting then .reclaimStore active
            else .reclaimLoop bytes roomStart resulting }
  | reclaimRefused {bytes roomStart active target : Nat}
      (turn : space.broker = .reclaimResize bytes roomStart active target) :
      Step budget space .other { space with broker := .reclaimStore active }
  | reclaimStore {active : Nat} (turn : space.broker = .reclaimStore active) :
      Step budget space .other
        { space with yielded := budget.dataCeiling - active, broker := .takeReleased }
  | takeReleased (turn : space.broker = .takeReleased) :
      Step budget space .other
        { space with
          released := 0
          broker := if 0 < space.released then .restore else .readUsed }
  | restore (turn : space.broker = .restore) :
      Step budget space .other
        { space with
          broker := if space.yielded ≤ saturatingAdd space.used budget.floor then .readUsed
            else .restoreResize (budget.dataCeiling - saturatingAdd space.used budget.floor) }
  | restoreResized {target resulting data : Nat} (turn : space.broker = .restoreResize target)
      (kept : data ≤ space.data) (fits : data ≤ resulting) :
      Step budget space .other
        { space with
          data := data
          dataSize := resulting
          yielded := budget.dataCeiling - resulting
          broker := .readUsed }
  | restoreRefused {target : Nat} (turn : space.broker = .restoreResize target) :
      Step budget space .other { space with broker := .readUsed }
  | readUsed (turn : space.broker = .readUsed) :
      Step budget space .readUsed { space with broker := .readData space.used }
  | readData {used : Nat} (turn : space.broker = .readData used) :
      Step budget space .other { space with broker := .readMeta used space.data }
  | readMeta {used data : Nat} (turn : space.broker = .readMeta used data) :
      Step budget space .other
        { space with
          broker := .publish (saturatingAdd used (budget.capacity - (data + space.metadata))) }
  | publish {ceiling : Nat} (turn : space.broker = .publish ceiling) :
      Step budget space .other
        { space with ceiling := ceiling, published := true, broker := .waiting }

/-- The runs from a start within the budget whose steps are all allowed in the state before them. -/
inductive Run (budget : Budget) (Allowed : Space → SpaceEvent → Prop) : Space → Prop
  | start {data metadata used : Nat} (dataFits : data ≤ budget.dataCeiling)
      (metadataFits : metadata ≤ budget.metaSize)
      (within : data + metadata + used ≤ budget.capacity) :
      Run budget Allowed (start budget data metadata used)
  | step {space after : Space} {event : SpaceEvent} (run : Run budget Allowed space)
      (happens : Step budget space event after) (allowed : Allowed space event) :
      Run budget Allowed after

/-- Bytes that fragments hold or may come to hold. -/
def Promises (space : Space) (bytes : Nat) : Prop :=
  bytes = space.used ∨ (space.published = true ∧ bytes = space.ceiling) ∨ bytes ∈ space.looking ∨
    space.broker = .publish bytes

/-- The broker has read one device file and not yet the other. -/
def Measuring (space : Space) : Prop := ∃ used data, space.broker = .readMeta used data

/-- The steps that the budget allows for. -/
def Prudent (budget : Budget) (space : Space) : SpaceEvent → Prop
  | .grow bytes => ¬ space.Measuring ∧ ∀ promise, space.Promises promise →
      space.allocated + bytes + promise ≤ budget.capacity
  | .look => space.published = true
  | .restore bytes => space.allocated + (space.used + bytes) ≤ budget.capacity
  | .readUsed => space.used = 0
  | .other => True

/-- What the broker has read. -/
def Measured (space : Space) : Prop :=
  match space.broker with
  | .readData used => used = 0
  | .readMeta used data => used = 0 ∧ data = space.data
  | _ => True

/-- Whatever fragments hold or may come to hold has room beside the device files. -/
structure Within (budget : Budget) (space : Space) : Prop where
  room : ∀ promise, space.Promises promise → space.allocated + promise ≤ budget.capacity
  measured : space.Measured

variable {budget : Budget} {space after : Space} {event : SpaceEvent}

theorem Within.shrink (within : space.Within budget) (fewer : after.allocated ≤ space.allocated)
    (promises : ∀ promise, after.Promises promise → ∃ larger, promise ≤ larger ∧
      space.Promises larger) (measured : after.Measured) : after.Within budget where
  room promise promised := by
    obtain ⟨larger, smaller, earlier⟩ := promises promise promised
    have room := within.room larger earlier
    omega
  measured := measured

theorem measured_of_plain (plain : space.broker.plain = true) : space.Measured := by
  unfold Measured
  split
  · rename_i found
    rw [found] at plain
    cases plain
  · rename_i found
    rw [found] at plain
    cases plain
  · trivial

theorem Within.turn (within : space.Within budget) (data : after.data ≤ space.data)
    (metadata : after.metadata = space.metadata) (used : after.used = space.used)
    (published : after.published = space.published) (ceiling : after.ceiling = space.ceiling)
    (looking : after.looking = space.looking) (plain : after.broker.plain = true) :
    after.Within budget := by
  refine within.shrink (by rw [allocated, allocated, metadata]; omega) (fun promise promised => ?_)
    (measured_of_plain plain)
  refine ⟨promise, Nat.le_refl _, ?_⟩
  rcases promised with held | ⟨out, bound⟩ | looked | coming
  · exact .inl (held.trans used)
  · exact .inr (.inl ⟨published ▸ out, bound.trans ceiling⟩)
  · exact .inr (.inr (.inl (looking ▸ looked)))
  · rw [coming] at plain
    cases plain

theorem Within.read (within : space.Within budget) {broker : BrokerAt}
    (unpublished : ∀ ceiling, broker ≠ .publish ceiling)
    (measured : ({ space with broker } : Space).Measured) :
    ({ space with broker } : Space).Within budget := by
  refine within.shrink (Nat.le_refl _) (fun promise promised => ⟨promise, Nat.le_refl _, ?_⟩)
    measured
  rcases promised with held | bound | among | coming
  · exact .inl held
  · exact .inr (.inl bound)
  · exact .inr (.inr (.inl among))
  · exact absurd coming (unpublished promise)

theorem Within.call (within : space.Within budget) {used demand released : Nat}
    {refunds looking : List Nat} {permit : Bool}
    (bounded : ∃ larger, used ≤ larger ∧ space.Promises larger)
    (looked : ∀ limit ∈ looking, space.Promises limit) :
    ({ space with used, refunds, looking, demand, released, permit } : Space).Within budget := by
  refine within.shrink (Nat.le_refl _) (fun promise promised => ?_) within.measured
  rcases promised with held | bound | among | coming
  · exact held ▸ bounded
  · exact ⟨promise, Nat.le_refl _, .inr (.inl bound)⟩
  · exact ⟨promise, Nat.le_refl _, looked promise among⟩
  · exact ⟨promise, Nat.le_refl _, .inr (.inr (.inr coming))⟩

theorem Within.grow (within : space.Within budget) {bytes : Nat}
    (allocated : after.allocated = space.allocated + bytes)
    (same : ∀ promise, after.Promises promise → space.Promises promise)
    (broker : after.broker = space.broker) (prudent : space.Prudent budget (.grow bytes)) :
    after.Within budget where
  room promise promised := by
    have room := prudent.2 promise (same promise promised)
    omega
  measured := by
    have measured := within.measured
    unfold Measured at measured ⊢
    rw [broker]
    split
    · rename_i found
      rw [found] at measured
      exact measured
    · rename_i found
      exact absurd ⟨_, _, found⟩ prudent.1
    · trivial

theorem saturatingAdd_le (used bytes : Nat) : saturatingAdd used bytes ≤ used + bytes :=
  Nat.min_le_left _ _

theorem Within.step (within : space.Within budget) (happens : Step budget space event after)
    (prudent : space.Prudent budget event) : after.Within budget := by
  cases happens with
  | growData | growMeta =>
    exact within.grow (by simp only [allocated]; omega) (fun _ => id) rfl prudent
  | look =>
    refine within.call ⟨space.used, Nat.le_refl _, .inl rfl⟩ fun limit among => ?_
    rcases List.mem_append.mp among with earlier | last
    · exact .inr (.inr (.inl earlier))
    · exact .inr (.inl ⟨prudent, List.mem_singleton.mp last⟩)
  | @reserve limit bytes looked allowed =>
    exact within.call ⟨limit, allowed, .inr (.inr (.inl looked))⟩ fun _ among =>
      .inr (.inr (.inl (List.mem_of_mem_erase among)))
  | refuse looked excess =>
    exact within.call ⟨space.used, Nat.le_refl _, .inl rfl⟩ fun _ among =>
      .inr (.inr (.inl (List.mem_of_mem_erase among)))
  | delete | release | refund =>
    exact within.call ⟨space.used, Nat.sub_le _ _, .inl rfl⟩ fun _ among =>
      .inr (.inr (.inl among))
  | replaced =>
    exact within.call ⟨space.used, Nat.le_refl _, .inl rfl⟩ fun _ among =>
      .inr (.inr (.inl among))
  | restoreCharge =>
    refine ⟨fun promise promised => ?_, within.measured⟩
    rcases promised with held | later
    · exact held ▸ prudent
    · exact within.room promise (.inr later)
  | wake | reclaimRefused | reclaimStore | restoreRefused =>
    exact within.turn (Nat.le_refl _) rfl rfl rfl rfl rfl rfl
  | takeDemand | reclaim | reclaimLoop | takeReleased | restore =>
    refine within.turn (Nat.le_refl _) rfl rfl rfl rfl rfl ?_
    split <;> rfl
  | reclaimResized turn kept fits =>
    refine within.turn kept rfl rfl rfl rfl rfl ?_
    split <;> rfl
  | restoreResized turn kept fits => exact within.turn kept rfl rfl rfl rfl rfl rfl
  | readUsed turn => exact within.read nofun prudent
  | readData turn =>
    have measured := within.measured
    rw [Measured, turn] at measured
    exact within.read nofun ⟨measured, rfl⟩
  | @readMeta used data turn =>
    have measured := within.measured
    rw [Measured, turn] at measured
    obtain ⟨rfl, rfl⟩ := measured
    refine ⟨fun promise promised => ?_, trivial⟩
    rcases promised with held | bound | among | coming
    · exact within.room promise (.inl held)
    · exact within.room promise (.inr (.inl bound))
    · exact within.room promise (.inr (.inr (.inl among)))
    · -- Without fragments the reading of the room is the ceiling.
      have room := within.room space.used (.inl rfl)
      have small := saturatingAdd_le 0 (budget.capacity - (space.data + space.metadata))
      cases coming
      simp only [allocated] at room ⊢
      omega
  | @publish ceiling turn =>
    refine within.shrink (Nat.le_refl _) (fun promise promised => ?_) trivial
    refine ⟨promise, Nat.le_refl _, ?_⟩
    rcases promised with held | ⟨-, bound⟩ | among | coming
    · exact .inl held
    · exact .inr (.inr (.inr (bound ▸ turn)))
    · exact .inr (.inr (.inl among))
    · cases coming

theorem Run.within (run : Run budget (Prudent budget) space) : space.Within budget := by
  induction run with
  | start dataFits metadataFits fits =>
    refine ⟨fun promise promised => ?_, trivial⟩
    rcases promised with held | ⟨out, -⟩ | among | coming
    · exact held ▸ fits
    · cases out
    · cases among
    · cases coming
  | step _ happens prudent induction => exact induction.step happens prudent

end Space

end Verglas.CacheNode
