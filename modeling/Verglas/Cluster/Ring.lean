import Mathlib.Data.List.MinMax
import Mathlib.Data.Prod.Lex

/-!
# The rendezvous ring

A key is owned by the member with the highest score among those that do not drain.  The owner warms
a key from one donor: the highest member above it or, if there is none, the highest below it.  When
a member joins or starts to drain, that donor is the previous owner, unless a member that was
draining already scores higher than the previous owner.
-/

namespace Verglas.Cluster

open List

/-- The members of a ring and which of them drain. -/
structure RingSnapshot (NodeId : Type*) where
  members : List NodeId
  draining : NodeId → Bool

/-- Whom a key is warmed from, and whether it scores above the owner and so must drain. -/
structure WarmDonor (NodeId : Type*) where
  node : NodeId
  draining : Bool
  deriving DecidableEq

-- The score of a node for a key is the weighted rendezvous score, whose weight is the node's own.
variable {Key NodeId Score : Type*} [LinearOrder NodeId] [LinearOrder Score]
  (score : Key → NodeId → Score)

/-- The order of scores, in which a tie is broken by the node. -/
def rank (key : Key) (node : NodeId) : Score ×ₗ NodeId :=
  toLex (score key node, node)

namespace RingSnapshot

section Lookups

variable (ring : RingSnapshot NodeId) (key : Key) (self : NodeId)

/-- The members that take a share of the keys: all of them if every member drains. -/
def owners : List NodeId :=
  let active := ring.members.filter (!ring.draining ·)
  if active.isEmpty then ring.members else active

/-- The member with the highest score. -/
def owner : Option NodeId :=
  ring.owners.argmax (rank score key)

/-- The highest member above a member or, if there is none, the highest below it. -/
def warmDonor : Option (WarmDonor NodeId) :=
  if self ∈ ring.members then
    let others := ring.members.filter (· ≠ self)
    match (others.filter (rank score key self < rank score key ·)).argmax (rank score key) with
    | some above => some ⟨above, true⟩
    | none =>
      ((others.filter (rank score key · ≤ rank score key self)).argmax (rank score key)).map
        fun below => ⟨below, false⟩
  else none

/-- A member serves a key that it owns or that the owner warms from it. -/
def shouldServePeer : Bool :=
  (ring.owner score key).any fun owner =>
    owner = self ∨ (ring.warmDonor score key owner).map WarmDonor.node = some self

end Lookups

/-- One node joins, or a member starts to drain. -/
structure Changes (node : NodeId) (before after : RingSnapshot NodeId) : Prop where
  listed : node ∈ after.members
  drains : node ∈ before.members → before.draining node = false ∧ after.draining node = true
  members : ∀ other ≠ node, other ∈ after.members ↔ other ∈ before.members
  draining : ∀ other ≠ node, after.draining other = before.draining other

variable {score} {ring before after : RingSnapshot NodeId} {key : Key}
  {node self holder old new : NodeId}

omit [LinearOrder NodeId] [LinearOrder Score] in
theorem eq_of_rank (same : rank score key node = rank score key self) : node = self :=
  congrArg (fun rank => (ofLex rank).2) same

theorem owner_spec (active : ∃ member ∈ ring.members, ring.draining member = false)
    (owned : ring.owner score key = some node) :
    node ∈ ring.members ∧ ring.draining node = false ∧ ∀ member ∈ ring.members,
      ring.draining member = false → rank score key member ≤ rank score key node := by
  obtain ⟨witness, listed, awake⟩ := active
  have filled : witness ∈ ring.members.filter (!ring.draining ·) := by simp [listed, awake]
  rw [owner, owners, if_neg (by simpa using ne_nil_of_mem filled)] at owned
  obtain ⟨node_listed, node_awake⟩ := mem_filter.mp (argmax_mem owned)
  refine ⟨node_listed, by simpa using node_awake, fun member listed awake => ?_⟩
  exact le_of_mem_argmax (mem_filter.mpr ⟨listed, by simp [awake]⟩) owned

/-- A node that is higher than all others is the greatest of any selection it is in. -/
theorem argmax_filter_eq {nodes : List NodeId} {chosen : NodeId → Bool} (listed : node ∈ nodes)
    (chooses : chosen node)
    (highest : ∀ other ∈ nodes, other = node ∨ rank score key other < rank score key node) :
    (nodes.filter chosen).argmax (rank score key) = some node := by
  have kept : node ∈ nodes.filter chosen := mem_filter.mpr ⟨listed, chooses⟩
  cases found : (nodes.filter chosen).argmax (rank score key) with
  | none => exact absurd (argmax_eq_none.mp found ▸ kept) not_mem_nil
  | some top =>
    rcases highest top (mem_filter.mp (argmax_mem found)).1 with rfl | lower
    · rfl
    · exact absurd (le_of_mem_argmax kept found) lower.not_ge

theorem warmDonor_eq (listed : self ∈ ring.members) :
    (ring.warmDonor score key self).map WarmDonor.node =
      (ring.members.filter (· ≠ self)).argmax (rank score key) := by
  rw [warmDonor, if_pos listed]
  dsimp only
  cases top : (ring.members.filter (· ≠ self)).argmax (rank score key) with
  | none => rw [argmax_eq_none.mp top]; rfl
  | some holder =>
    have mem := argmax_mem top
    have below : ∀ other ∈ ring.members.filter (· ≠ self),
        other = holder ∨ rank score key other < rank score key holder :=
      fun other other_mem => (le_of_mem_argmax other_mem top).eq_or_lt.imp_left eq_of_rank
    by_cases higher : rank score key self < rank score key holder
    · rw [argmax_filter_eq mem (decide_eq_true higher) below]
      rfl
    · have none_above : (ring.members.filter (· ≠ self)).filter
          (rank score key self < rank score key ·) = [] := by
        refine filter_eq_nil_iff.mpr fun other other_mem above => higher ?_
        exact (of_decide_eq_true above).trans_le (le_of_mem_argmax other_mem top)
      have lower : rank score key holder ≤ rank score key self := le_of_not_gt higher
      rw [none_above, argmax_nil, argmax_filter_eq mem (decide_eq_true lower) below]
      rfl

/-- A change of one member moves a key only from that member or to it, and at most one node beside
the new owner serves it.  That node is the previous owner exactly if no member that was draining
already scores higher. -/
theorem transition_names_holder (score : Key → NodeId → Score) (key : Key)
    (change : Changes node before after)
    (active : ∃ member ∈ before.members, before.draining member = false)
    (still_active : ∃ member ∈ after.members, after.draining member = false)
    (owned : before.owner score key = some old) (owns : after.owner score key = some new)
    (moved : old ≠ new) :
    (old = node ∨ new = node) ∧
      (∀ left right, left ≠ new → right ≠ new → after.shouldServePeer score key left →
        after.shouldServePeer score key right → left = right) ∧
      ((after.warmDonor score key new).map WarmDonor.node = some old ∧
          after.shouldServePeer score key old ↔
        ∀ member ∈ before.members, before.draining member →
          rank score key member < rank score key old) := by
  obtain ⟨old_listed, old_awake, old_highest⟩ := owner_spec active owned
  obtain ⟨new_listed, new_awake, new_highest⟩ := owner_spec still_active owns
  have serve_iff : ∀ self, self ≠ new → (after.shouldServePeer score key self ↔
      (after.warmDonor score key new).map WarmDonor.node = some self) := by
    intro self ne
    simp [shouldServePeer, owns, ne.symm]
  have names : old = node ∨ new = node := by
    by_contra neither
    obtain ⟨old_ne, new_ne⟩ := not_or.mp neither
    have up := new_highest old ((change.members old old_ne).mpr old_listed)
      ((change.draining old old_ne).trans old_awake)
    have down := old_highest new ((change.members new new_ne).mp new_listed)
      ((change.draining new new_ne).symm.trans new_awake)
    exact moved (eq_of_rank (up.antisymm down))
  refine ⟨names, fun left right left_ne right_ne left_serves right_serves => ?_, ?_⟩
  · exact Option.some.inj (((serve_iff left left_ne).mp left_serves).symm.trans
      ((serve_iff right right_ne).mp right_serves))
  rw [serve_iff old moved, and_self, warmDonor_eq new_listed]
  constructor
  · -- A member that drained before stays a member, and it is not the one that changed.
    intro donor member listed asleep
    have unchanged : member ≠ node := by
      rintro rfl
      rw [(change.drains listed).1] at asleep
      cases asleep
    have apart : member ≠ new := by
      rintro rfl
      rw [change.draining _ unchanged, asleep] at new_awake
      cases new_awake
    have kept : member ∈ after.members.filter (· ≠ new) := by
      simp [(change.members member unchanged).mpr listed, apart]
    refine (le_of_mem_argmax kept donor).lt_of_ne fun same => ?_
    rw [eq_of_rank same, old_awake] at asleep
    cases asleep
  · intro calm
    have still : old ∈ after.members := by
      by_cases same : old = node
      · exact same ▸ change.listed
      · exact (change.members old same).mpr old_listed
    have held : old ∈ after.members.filter (· ≠ new) := by simp [still, moved]
    cases top : (after.members.filter (· ≠ new)).argmax (rank score key) with
    | none => exact absurd (argmax_eq_none.mp top ▸ held) not_mem_nil
    | some other =>
      obtain ⟨listed, apart⟩ := mem_filter.mp (argmax_mem top)
      have other_listed : other ∈ before.members := by
        by_cases same : other = node
        · rw [same, ← names.resolve_right (same ▸ (of_decide_eq_true apart).symm)]
          exact old_listed
        · exact (change.members other same).mp listed
      have higher := le_of_mem_argmax held top
      cases asleep : before.draining other with
      | true => exact absurd (calm other other_listed asleep) higher.not_gt
      | false =>
        exact congrArg some (eq_of_rank ((old_highest other other_listed asleep).antisymm higher))

/-- Node 3 drains, node 1 owns every key, and node 2 joins: its donor is node 3. -/
theorem transition_names_drained :
    Changes 2 ⟨[1, 3], (· = 3)⟩ ⟨[1, 2, 3], (· = 3)⟩ ∧
      owner (fun _ node => node) ⟨[1, 3], (· = 3)⟩ () = some 1 ∧
      owner (fun _ node => node) ⟨[1, 2, 3], (· = 3)⟩ () = some 2 ∧
      warmDonor (fun _ node => node) ⟨[1, 2, 3], (· = 3)⟩ () 2 = some ⟨3, true⟩ := by
  refine ⟨⟨by decide, by decide, fun other ne => ?_, fun _ _ => rfl⟩, by decide, by decide,
    by decide⟩
  simp [ne]

/-- Node 0 drains, node 1 owns every key, and node 2 joins: its donor is node 1. -/
theorem transition_names_holder_joined :
    (warmDonor (fun _ node => node) ⟨[0, 1, 2], (· = 0)⟩ () 2).map WarmDonor.node = some 1 := by
  have change : Changes 2 ⟨[0, 1], (· = 0)⟩ ⟨[0, 1, 2], (· = 0)⟩ :=
    ⟨by decide, by decide, fun other ne => by simp [ne], fun _ _ => rfl⟩
  exact ((transition_names_holder (fun _ node => node) () change ⟨1, by decide⟩ ⟨1, by decide⟩
    (by decide : _ = some 1) (by decide : _ = some 2) (by decide)).2.2.mpr (by decide)).1

end RingSnapshot
end Verglas.Cluster
