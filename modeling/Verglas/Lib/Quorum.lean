import Mathlib.Data.Finset.Card

/-!
# Intersecting quorums

Two sets drawn from the same voters overlap in at least as many voters as their sizes exceed the
number of voters.  Certificates and elections are both lists of distinct voters, so the results are
stated for lists.
-/

variable {α : Type*} [DecidableEq α]

theorem length_add_length_le_of_subset {voters left right : List α} (left_nodup : left.Nodup)
    (right_nodup : right.Nodup) (left_subset : ∀ voter ∈ left, voter ∈ voters)
    (right_subset : ∀ voter ∈ right, voter ∈ voters) :
    left.length + right.length ≤
      voters.length + (left.filter fun voter => voter ∈ right).length := by
  have shared : (left.filter fun voter => voter ∈ right).toFinset =
      left.toFinset ∩ right.toFinset := by
    ext voter
    simp
  have shared_card : (left.filter fun voter => voter ∈ right).length =
      (left.toFinset ∩ right.toFinset).card := by
    rw [← shared, List.toFinset_card_of_nodup (left_nodup.filter _)]
  have union_card : (left.toFinset ∪ right.toFinset).card ≤ voters.length := by
    refine le_trans (Finset.card_le_card ?_) voters.toFinset_card_le
    intro voter member
    rw [Finset.mem_union, List.mem_toFinset, List.mem_toFinset] at member
    rw [List.mem_toFinset]
    exact member.elim (left_subset voter) (right_subset voter)
  have counted := Finset.card_union_add_card_inter left.toFinset right.toFinset
  rw [List.toFinset_card_of_nodup left_nodup, List.toFinset_card_of_nodup right_nodup] at counted
  omega
