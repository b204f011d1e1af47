import Mathlib.Algebra.GroupWithZero.Nat
import Mathlib.Data.List.Count
import Mathlib.Data.List.Induction

/-!
# Admission to the cache

Every access of a block is counted in a sketch: in each of four rows of counters, the block's hash
selects one.  A block that the sketch estimates to be in demand is admitted with a configured
probability, for which all threads draw from one accumulator.
-/

namespace Verglas.Cache

open List Function

def probabilityScale : Nat := 1000000

/-- The configured probability, in parts of a million. -/
structure Admission where
  admitProbabilityPpm : Nat
  clamped : 1 ≤ admitProbabilityPpm ∧ admitProbabilityPpm ≤ probabilityScale

namespace Admission

variable (policy : Admission)

/-- A draw, and what its `fetch_add` leaves in the accumulator. -/
def churnAdmit (accumulator : Nat) : Bool × Nat :=
  if probabilityScale ≤ policy.admitProbabilityPpm then (true, accumulator)
  else
    (probabilityScale ≤ accumulator % probabilityScale + policy.admitProbabilityPpm,
      (accumulator + policy.admitProbabilityPpm) % 2 ^ 64)

/-- Which draws are admitted, in the order of their `fetch_add`s by whatever threads. -/
def draws : Nat → Nat → List Bool
  | _, 0 => []
  | accumulator, count + 1 =>
    (policy.churnAdmit accumulator).1 :: draws (policy.churnAdmit accumulator).2 count

/-- The draws that are admitted are as many as the multiples of the scale that the accumulator
passes. -/
theorem count_draws (accumulator count : Nat)
    (fits : accumulator + count * policy.admitProbabilityPpm < 2 ^ 64) :
    accumulator / probabilityScale + (policy.draws accumulator count).count true =
      (accumulator + count * policy.admitProbabilityPpm) / probabilityScale := by
  induction count generalizing accumulator with
  | zero => simp [draws]
  | succ count induction =>
    rw [Nat.succ_mul] at fits ⊢
    rw [draws, count_cons, churnAdmit]
    split
    · rename_i always
      have rate_eq := Nat.le_antisymm policy.clamped.2 always
      have drawn := induction accumulator (by omega)
      rw [← Nat.add_assoc, ← Nat.add_assoc, drawn, rate_eq, Nat.add_div_right _ (by decide)]
      rfl
    · rename_i thinned
      have rate_lt := Nat.not_le.mp thinned
      have unwrapped : (accumulator + policy.admitProbabilityPpm) % 2 ^ 64 =
          accumulator + policy.admitProbabilityPpm := Nat.mod_eq_of_lt (by omega)
      have drawn := induction (accumulator + policy.admitProbabilityPpm) (by omega)
      rw [Nat.add_div (by decide), Nat.div_eq_of_lt rate_lt, Nat.mod_eq_of_lt rate_lt] at drawn
      rw [Nat.add_comm (_ * _), ← Nat.add_assoc accumulator, ← drawn, unwrapped]
      simp only [beq_true, decide_eq_true_eq]
      omega

theorem count_draws_tenth : (draws ⟨300000, by decide⟩ 0 10).count true = 3 := by
  have counted := count_draws ⟨300000, by decide⟩ 0 10 (by decide)
  rwa [Nat.zero_div, Nat.zero_add] at counted

end Admission

/-- The counters of a sketch, row after row. -/
structure CountMinSketch where
  width : Nat
  mask : UInt64
  counters : Nat → UInt8

namespace CountMinSketch

/-- One multiplier for each row. -/
def seeds : List UInt64 :=
  [0x9e3779b97f4a7c15, 0xc2b2ae3d27d4eb4f, 0x165667b19e3779f9, 0xff51afd7ed558ccd]

/-- Where the counter of a hash in a row stands. -/
def index (sketch : CountMinSketch) (hash : UInt64) (row : Nat) : Nat :=
  let mixed := hash * seeds.getD row 0
  let folded := mixed ^^^ (mixed >>> 32)
  row * sketch.width + (folded &&& sketch.mask).toNat

/-- What a row counts for a hash. -/
def counter (sketch : CountMinSketch) (hash : UInt64) (row : Nat) : UInt8 :=
  sketch.counters (sketch.index hash row)

/-- One row of `increment_and_estimate`.  Its loop ends when it has seen a full counter, or when no
other thread has come between the load of the counter and its exchange. -/
def increment (sketch : CountMinSketch) (hash : UInt64) (row : Nat) : CountMinSketch :=
  { sketch with
    counters := update sketch.counters (sketch.index hash row)
      (if sketch.counter hash row = 255 then 255 else sketch.counter hash row + 1) }

theorem toNat_counter_increment (sketch : CountMinSketch) (hash other : UInt64) (row place : Nat) :
    ((sketch.increment hash row).counter other place).toNat =
      if sketch.index other place = sketch.index hash row then
        min 255 ((sketch.counter other place).toNat + 1)
      else (sketch.counter other place).toNat := by
  change (update sketch.counters (sketch.index hash row) _ (sketch.index other place)).toNat = _
  rw [update_apply]
  split
  · rename_i same
    rw [counter, counter, same]
    generalize sketch.counters (sketch.index hash row) = count
    have below := count.toNat_lt
    split
    · rename_i full
      subst full
      rfl
    · rename_i free
      have small : count.toNat ≠ 255 := fun full => free (UInt8.toNat_inj.mp full)
      rw [UInt8.toNat_add, UInt8.toNat_one]
      omega
  · rfl

variable {Key : Type} (hashKey : Key → UInt64)

/-- The increments of rows by all threads, in the order in which they take effect. -/
def incrementAll (sketch : CountMinSketch) (history : List (Key × Nat)) : CountMinSketch :=
  history.foldl (fun sketch step => sketch.increment (hashKey step.1) step.2) sketch

theorem count_le_counter [DecidableEq Key] (sketch : CountMinSketch) (history : List (Key × Nat))
    (key : Key) (row : Nat) :
    min 255 (history.count (key, row)) ≤
      ((sketch.incrementAll hashKey history).counter (hashKey key) row).toNat := by
  induction history using reverseRecOn with
  | nil => simp
  | append_singleton history step induction =>
    rw [incrementAll] at induction ⊢
    rw [foldl_append, foldl_cons, foldl_nil, toNat_counter_increment, count_append]
    by_cases same : step = (key, row)
    · subst same
      rw [if_pos rfl, count_singleton_self]
      omega
    · rw [count_singleton, if_neg (by simpa using same)]
      split <;> omega

/-- What `increment_and_estimate` returns to a thread that has seen these increments of the rows,
with its own last. -/
def estimate (sketch : CountMinSketch) (key : Key) (seen : Nat → List (Key × Nat)) : Nat :=
  [0, 1, 2, 3].foldl (fun least row => min least
    ((sketch.incrementAll hashKey (seen row)).counter (hashKey key) row).toNat) 255

/-- Whatever was left in the counters and however the accesses interleave, an access returns at
least the number of accesses whose increments every row has seen, up to the saturation of a
counter. -/
theorem count_le_estimate [DecidableEq Key] (sketch : CountMinSketch) (key : Key)
    (seen : Nat → List (Key × Nat)) :
    [0, 1, 2, 3].foldl (fun least row => min least ((seen row).count (key, row))) 255 ≤
      sketch.estimate hashKey key seen := by
  have counted (row : Nat) := sketch.count_le_counter hashKey (seen row) key row
  have first := counted 0
  have second := counted 1
  have third := counted 2
  have last := counted 3
  simp only [estimate, foldl_cons, foldl_nil]
  omega

end CountMinSketch

end Verglas.Cache
