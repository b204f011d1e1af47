import Mathlib.Tactic.Ring

/-!
# Fixed-width integers as bytes

A number is written in a fixed number of bytes, least or most significant byte first.  Both
readings recover the number modulo the capacity of the width, so a number that fits is recovered
exactly.
-/

namespace Endian

/-- The `width` bytes of `value`, least significant first. -/
def toLe : Nat → Nat → List UInt8
  | 0, _ => []
  | width + 1, value => UInt8.ofNat (value % 256) :: toLe width (value / 256)

/-- The number spelled by bytes, least significant first. -/
def ofLe : List UInt8 → Nat
  | [] => 0
  | byte :: rest => byte.toNat + 256 * ofLe rest

/-- The `width` bytes of `value`, most significant first. -/
def toBe (width value : Nat) : List UInt8 := (toLe width value).reverse

/-- The number spelled by bytes, most significant first. -/
def ofBe (bytes : List UInt8) : Nat := ofLe bytes.reverse

@[simp] theorem length_toLe (width value : Nat) : (toLe width value).length = width := by
  induction width generalizing value with
  | zero => rfl
  | succ width ih => simp [toLe, ih]

@[simp] theorem length_toBe (width value : Nat) : (toBe width value).length = width := by
  simp [toBe]

theorem ofLe_toLe_mod (width value : Nat) : ofLe (toLe width value) = value % 256 ^ width := by
  induction width generalizing value with
  | zero => simp [toLe, ofLe, Nat.mod_one]
  | succ width ih =>
    have low : (UInt8.ofNat (value % 256)).toNat = value % 256 := by
      rw [UInt8.toNat_ofNat']
      exact Nat.mod_eq_of_lt (Nat.mod_lt _ (by decide))
    rw [toLe, ofLe, ih, low, Nat.pow_succ', Nat.mod_mul]

theorem ofLe_toLe {width value : Nat} (fits : value < 256 ^ width) :
    ofLe (toLe width value) = value := by
  rw [ofLe_toLe_mod, Nat.mod_eq_of_lt fits]

theorem ofBe_toBe_mod (width value : Nat) : ofBe (toBe width value) = value % 256 ^ width := by
  rw [ofBe, toBe, List.reverse_reverse, ofLe_toLe_mod]

theorem ofBe_toBe {width value : Nat} (fits : value < 256 ^ width) :
    ofBe (toBe width value) = value := by
  rw [ofBe_toBe_mod, Nat.mod_eq_of_lt fits]

theorem ofLe_lt (bytes : List UInt8) : ofLe bytes < 256 ^ bytes.length := by
  induction bytes with
  | nil => simp [ofLe]
  | cons byte rest ih =>
    have small : byte.toNat < 256 := byte.toNat_lt
    rw [ofLe, List.length_cons, Nat.pow_succ]
    omega

theorem ofBe_lt (bytes : List UInt8) : ofBe bytes < 256 ^ bytes.length := by
  have bound := ofLe_lt bytes.reverse
  rwa [List.length_reverse] at bound

theorem toLe_ofLe (bytes : List UInt8) : toLe bytes.length (ofLe bytes) = bytes := by
  induction bytes with
  | nil => rfl
  | cons byte rest ih =>
    have small : byte.toNat < 256 := byte.toNat_lt
    have low : (byte.toNat + 256 * ofLe rest) % 256 = byte.toNat := by omega
    have high : (byte.toNat + 256 * ofLe rest) / 256 = ofLe rest := by omega
    rw [List.length_cons, toLe, ofLe, low, high, ih, UInt8.ofNat_toNat]

theorem toBe_ofBe (bytes : List UInt8) : toBe bytes.length (ofBe bytes) = bytes := by
  rw [toBe, ofBe, ← List.length_reverse, toLe_ofLe, List.reverse_reverse]

end Endian
