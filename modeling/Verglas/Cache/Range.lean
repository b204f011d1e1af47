import Mathlib.Tactic.Common

/-!
# Byte ranges of a read

A requested range is resolved against the size of the object, and the resolved range is half-open.
-/

namespace Verglas.Cache

/-- The range of an object that a read asks for. -/
inductive ReadRange where
  | full
  | tail (first : Nat)
  | bounded (first last : Nat)
  | suffix (length : Nat)
  deriving DecidableEq, Repr

/-- Why a read fails. -/
inductive ReadError where
  | notFound
  | invalidRange
  | backend (message : String)
  /-- A slice that starts behind its end, which panics. -/
  | sliceInverted
  deriving DecidableEq, Repr

/-- Resolve a byte range against an object size as the cache does. -/
def resolveRange (range : ReadRange) (size : Nat) : Except ReadError (Nat × Nat) :=
  match range with
  | .full => .ok (0, size)
  | .tail first => if first < size then .ok (first, size) else .error .invalidRange
  | .bounded first last =>
    if first ≤ last ∧ first < size then .ok (first, min (last + 1) size)
    else .error .invalidRange
  | .suffix length =>
    if 0 < length ∧ 0 < size then .ok (size - length, size) else .error .invalidRange

theorem resolveRange_inside {range : ReadRange} {size : Nat} {served : Nat × Nat}
    (resolved : resolveRange range size = .ok served) :
    served.1 ≤ served.2 ∧ served.2 ≤ size := by
  cases range with
  | full =>
    cases resolved
    exact ⟨Nat.zero_le _, Nat.le_refl _⟩
  | tail first =>
    simp only [resolveRange] at resolved
    split at resolved
    · cases resolved
      exact ⟨Nat.le_of_lt ‹_›, Nat.le_refl _⟩
    · cases resolved
  | bounded first last =>
    simp only [resolveRange] at resolved
    split at resolved
    · rename_i ordered
      cases resolved
      refine ⟨?_, Nat.min_le_right _ _⟩
      exact Nat.le_min.mpr ⟨Nat.le_succ_of_le ordered.1, Nat.le_of_lt ordered.2⟩
    · cases resolved
  | suffix length =>
    simp only [resolveRange] at resolved
    split at resolved
    · cases resolved
      exact ⟨Nat.sub_le _ _, Nat.le_refl _⟩
    · cases resolved

end Verglas.Cache
