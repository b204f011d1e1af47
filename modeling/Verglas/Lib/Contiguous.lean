import Mathlib.Data.List.Chain
import Mathlib.Order.Lattice

/-!
# Contiguous runs of half-open intervals

A block occupies the half-open interval from `first block` to `last block`.  A list of blocks is
contiguous from `origin` to `limit` when the first one starts at `origin`, each next one starts
where its predecessor stops, and the last one stops at `limit`.  Blocks may be empty.
-/

open List

variable {α β : Type*} [LinearOrder α] {first last : β → α}

/-- The blocks occupy, one after the other and without a gap, the interval from `origin` to
`limit`. -/
inductive Contiguous (first last : β → α) : α → List β → α → Prop
  | nil (origin : α) : Contiguous first last origin [] origin
  | cons {origin limit : α} {block : β} {rest : List β} (starts : first block = origin)
      (ordered : first block ≤ last block)
      (following : Contiguous first last (last block) rest limit) :
      Contiguous first last origin (block :: rest) limit

namespace Contiguous

variable {origin limit : α} {blocks : List β}

variable (run : Contiguous first last origin blocks limit)
include run

theorem origin_le_limit : origin ≤ limit := by
  induction run with
  | nil => exact le_rfl
  | cons starts ordered _ ih => exact starts ▸ ordered.trans ih

variable {block : β}

theorem ordered_of_mem (member : block ∈ blocks) :
    origin ≤ first block ∧ first block ≤ last block ∧ last block ≤ limit := by
  induction run with
  | nil => cases member
  | cons starts ordered following ih =>
    rcases mem_cons.mp member with rfl | later
    · exact ⟨starts.ge, ordered, following.origin_le_limit⟩
    · obtain ⟨lower, middle, upper⟩ := ih later
      exact ⟨starts ▸ ordered.trans lower, middle, upper⟩

omit run in
theorem append {middle : α} {front back : List β} (left : Contiguous first last origin front middle)
    (right : Contiguous first last middle back limit) :
    Contiguous first last origin (front ++ back) limit := by
  induction left with
  | nil => exact right
  | cons starts ordered _ ih => exact .cons starts ordered (ih right)

omit run in
theorem split_append {front back : List β}
    (run : Contiguous first last origin (front ++ back) limit) :
    ∃ middle, Contiguous first last origin front middle ∧
      Contiguous first last middle back limit := by
  induction front generalizing origin with
  | nil => exact ⟨origin, .nil origin, run⟩
  | cons block rest ih =>
    cases run with
    | cons starts ordered following =>
      obtain ⟨middle, left, right⟩ := ih following
      exact ⟨middle, .cons starts ordered left, right⟩

theorem concat (starts : first block = limit) (ordered : first block ≤ last block) :
    Contiguous first last origin (blocks ++ [block]) (last block) :=
  run.append (.cons starts ordered (.nil _))

theorem isChain : blocks.IsChain fun left right => first right = last left := by
  induction run with
  | nil => exact .nil
  | cons _ _ following ih =>
    cases following with
    | nil => exact .singleton _
    | cons starts _ _ => exact .cons_cons starts ih

theorem origin_eq {other : α} (again : Contiguous first last other blocks limit) :
    origin = other := by
  cases run with
  | nil =>
    cases again
    rfl
  | cons starts _ _ =>
    cases again with
    | cons starts_again _ _ => exact starts.symm.trans starts_again

variable {point : α}

theorem exists_mem_of_lt (lower : origin ≤ point) (upper : point < limit) :
    ∃ block ∈ blocks, first block ≤ point ∧ point < last block := by
  induction run with
  | nil => exact absurd upper lower.not_gt
  | @cons origin limit block rest starts _ _ ih =>
    by_cases inside : point < last block
    · exact ⟨block, mem_cons_self, starts.trans_le lower, inside⟩
    · obtain ⟨found, member, bounds⟩ := ih (not_lt.mp inside) upper
      exact ⟨found, mem_cons_of_mem _ member, bounds⟩

theorem filter_eq_back (bound : α) :
    ∃ front, blocks = front ++ blocks.filter (fun block => bound < last block) ∧
      ∀ block ∈ front, last block ≤ bound := by
  induction run with
  | nil => exact ⟨[], rfl, by simp⟩
  | @cons origin limit block rest _ _ following ih =>
    by_cases kept : bound < last block
    · -- Everything after a kept block stops later still.
      have rest_kept : rest.filter (fun other => bound < last other) = rest := by
        rw [filter_eq_self]
        intro other member
        obtain ⟨lower, middle, _⟩ := following.ordered_of_mem member
        exact decide_eq_true (kept.trans_le (lower.trans middle))
      exact ⟨[], by simp [kept, rest_kept], by simp⟩
    · obtain ⟨front, rest_eq, below⟩ := ih
      refine ⟨block :: front, ?_, ?_⟩
      · rw [filter_cons_of_neg (by simpa using kept), cons_append, ← rest_eq]
      · intro other member
        rcases mem_cons.mp member with rfl | later
        · exact not_lt.mp kept
        · exact below other later

theorem limit_le {bound : α} (below : ∀ block ∈ blocks, last block ≤ bound) :
    limit ≤ max origin bound := by
  induction run with
  | nil => exact le_max_left _ _
  | @cons origin limit block rest _ _ _ ih =>
    have rest_below := ih (forall_mem_cons.mp below).2
    rw [max_eq_right (below block mem_cons_self)] at rest_below
    exact rest_below.trans (le_max_right _ _)

/-- Removing the blocks that stop at or below `bound` moves the origin no further than the
bound. -/
theorem filter_lt (bound : α) :
    ∃ middle ≤ max origin bound,
      Contiguous first last middle (blocks.filter fun block => bound < last block) limit := by
  obtain ⟨front, whole, below⟩ := run.filter_eq_back bound
  rw [whole] at run
  obtain ⟨middle, left, right⟩ := run.split_append
  exact ⟨middle, left.limit_le below, right⟩

end Contiguous
