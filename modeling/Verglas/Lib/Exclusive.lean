import Mathlib.Data.List.Nodup
import Mathlib.Data.List.Perm.Subperm

/-!
# Exclusive claims

Places (tasks, queues, buffers) claim tokens, each a list of them.  The claims are exclusive when no
token is claimed twice.  Claims stay exclusive when a place gives tokens up, when a token that
nobody claims is taken, and when two places exchange tokens.
-/

namespace Verglas

open Function

section Update

variable {ι α : Type*} [DecidableEq ι] {place other : ι}

/-- A value that is read after a write is the written one, or was there before. -/
theorem of_update_eq {table : ι → α} {written found : α}
    (read : update table place written other = found) :
    other = place ∧ written = found ∨ other ≠ place ∧ table other = found := by
  by_cases same : other = place
  · subst same
    exact .inl ⟨rfl, (update_self other _ _).symm.trans read⟩
  · exact .inr ⟨same, (update_of_ne same _ _).symm.trans read⟩

theorem mem_of_update {claims : ι → List α} {tokens : List α} {token : α}
    (member : token ∈ update claims place tokens other) :
    other = place ∧ token ∈ tokens ∨ other ≠ place ∧ token ∈ claims other := by
  obtain ⟨same, written⟩ | ⟨ne, kept⟩ := of_update_eq (rfl : update claims place tokens other = _)
  · exact .inl ⟨same, written ▸ member⟩
  · exact .inr ⟨ne, kept ▸ member⟩

end Update

variable {ι α : Type*} {claims : ι → List α}

/-- No token is claimed twice, by one place or by two. -/
structure Exclusive (claims : ι → List α) : Prop where
  nodup : ∀ place, (claims place).Nodup
  unique : ∀ {left right : ι} {token : α}, token ∈ claims left → token ∈ claims right → left = right

private theorem nodup_of_subperm {few many : List α} (within : few.Subperm many)
    (nodup : many.Nodup) : few.Nodup := by
  obtain ⟨list, perm, sublist⟩ := within
  exact perm.nodup_iff.mp (nodup.sublist sublist)

namespace Exclusive

theorem empty : Exclusive fun _ : ι => ([] : List α) :=
  ⟨fun _ => .nil, fun member => by cases member⟩

variable [DecidableEq ι]

theorem give (exclusive : Exclusive claims) {place : ι} {tokens : List α}
    (within : tokens.Subperm (claims place)) :
    Exclusive (update claims place tokens) := by
  have owned : ∀ {other token}, token ∈ update claims place tokens other →
      token ∈ claims other := by
    intro other token member
    rcases mem_of_update member with ⟨rfl, new⟩ | ⟨_, member⟩
    · exact within.subset new
    · exact member
  refine ⟨fun other => ?_, fun left right => exclusive.unique (owned left) (owned right)⟩
  by_cases same : other = place
  · subst same
    rw [update_self]
    exact nodup_of_subperm within (exclusive.nodup other)
  · rw [update_of_ne same]
    exact exclusive.nodup other

theorem take (exclusive : Exclusive claims) (place : ι) {tokens : List α} (nodup : tokens.Nodup)
    (fresh : ∀ token ∈ tokens, ∀ other, token ∉ claims other) :
    Exclusive (update claims place (tokens ++ claims place)) where
  nodup other := by
    by_cases same : other = place
    · rw [same, update_self]
      refine List.nodup_append'.mpr ⟨nodup, exclusive.nodup place, ?_⟩
      intro token new old
      exact fresh token new place old
    · rw [update_of_ne same]
      exact exclusive.nodup other
  unique := by
    have old_or_new : ∀ {other token}, token ∈ update claims place (tokens ++ claims place) other →
        token ∈ claims other ∨ token ∈ tokens ∧ other = place := by
      intro other token member
      rcases mem_of_update member with ⟨rfl, written⟩ | ⟨_, member⟩
      · rcases List.mem_append.mp written with new | old
        · exact .inr ⟨new, rfl⟩
        · exact .inl old
      · exact .inl member
    intro left right token left_mem right_mem
    rcases old_or_new left_mem with left_old | ⟨left_new, rfl⟩
    · rcases old_or_new right_mem with right_old | ⟨right_new, rfl⟩
      · exact exclusive.unique left_old right_old
      · exact absurd left_old (fresh token right_new left)
    · rcases old_or_new right_mem with right_old | ⟨_, rfl⟩
      · exact absurd right_old (fresh token left_new right)
      · rfl

theorem exchange (exclusive : Exclusive claims) {source target : ι} {given taken : List α}
    (ne : source ≠ target)
    (within : (given ++ taken).Subperm (claims source ++ claims target)) :
    Exclusive (update (update claims source given) target taken) := by
  set after := update (update claims source given) target taken with after_eq
  have at_source : after source = given := by
    rw [after_eq, update_of_ne ne, update_self]
  have at_target : after target = taken := by
    rw [after_eq, update_self]
  have others : ∀ other, other ≠ source → other ≠ target → after other = claims other := by
    intro other not_source not_target
    rw [after_eq, update_of_ne not_target, update_of_ne not_source]
  rw [← at_source, ← at_target] at within
  have joint : (claims source ++ claims target).Nodup := by
    refine List.nodup_append'.mpr ⟨exclusive.nodup source, exclusive.nodup target, ?_⟩
    intro token left right
    exact ne (exclusive.unique left right)
  obtain ⟨source_nodup, target_nodup, apart⟩ :=
    List.nodup_append'.mp (nodup_of_subperm within joint)
  -- Tokens stay where they were or move between the two places.
  have owner : ∀ {other token}, token ∈ after other → ∃ old, token ∈ claims old ∧
      (other = old ∨ (other = source ∨ other = target) ∧ (old = source ∨ old = target)) := by
    intro other token member
    by_cases inside : other = source ∨ other = target
    · have held : token ∈ claims source ++ claims target := by
        rcases inside with rfl | rfl
        · exact within.subset (List.mem_append_left _ member)
        · exact within.subset (List.mem_append_right _ member)
      rcases List.mem_append.mp held with held | held
      · exact ⟨_, held, .inr ⟨inside, .inl rfl⟩⟩
      · exact ⟨_, held, .inr ⟨inside, .inr rfl⟩⟩
    · obtain ⟨not_source, not_target⟩ := not_or.mp inside
      exact ⟨other, others other not_source not_target ▸ member, .inl rfl⟩
  refine ⟨fun other => ?_, ?_⟩
  · by_cases is_source : other = source
    · exact is_source ▸ source_nodup
    by_cases is_target : other = target
    · exact is_target ▸ target_nodup
    · rw [others other is_source is_target]
      exact exclusive.nodup other
  · intro left right token left_mem right_mem
    obtain ⟨old, left_held, left_place⟩ := owner left_mem
    obtain ⟨right_old, right_held, right_place⟩ := owner right_mem
    cases exclusive.unique left_held right_held
    have inside : left = right ∨
        (left = source ∨ left = target) ∧ (right = source ∨ right = target) := by
      rcases left_place with rfl | ⟨left_inside, old_inside⟩
      · exact right_place.imp Eq.symm And.symm
      · rcases right_place with rfl | ⟨right_inside, _⟩
        · exact .inr ⟨left_inside, old_inside⟩
        · exact .inr ⟨left_inside, right_inside⟩
    rcases inside with same | ⟨rfl | rfl, rfl | rfl⟩
    · exact same
    · rfl
    · exact absurd right_mem (apart left_mem)
    · exact absurd left_mem (apart right_mem)
    · rfl

end Exclusive

end Verglas
