import Verglas.Lib.Endian
import Mathlib.Tactic.NormNum

/-!
# Readers of byte strings

A reader takes a field off the front of the bytes that are left, or fails.  Each reader has one
rule, in the simp set, that says which bytes it accepts and what it leaves; the rules of a
format's fields then compose to the rule of the format.
-/

/-- A parser that takes a field off the front of the bytes left to read. -/
abbrev Reader (ε α : Type) := StateT (List UInt8) (Except ε) α

namespace Reader

open Endian

section

variable {ε α β : Type}

@[simp] theorem exceptMap_ok_iff {result : Except ε α} {f : α → β} {y : β} :
    f <$> result = .ok y ↔ ∃ x, result = .ok x ∧ f x = y := by
  cases result <;> simp [Functor.map, Except.map]

@[simp] theorem exceptPure_ok_iff {x y : α} : (pure x : Except ε α) = .ok y ↔ x = y := by
  simp [pure, Except.pure]

end

variable {ε α β : Type} {read : Reader ε α} {bytes rest : List UInt8}

@[simp] theorem bind_ok_iff {next : α → Reader ε β} {y : β} :
    (read >>= next) bytes = .ok (y, rest) ↔
      ∃ x left, read bytes = .ok (x, left) ∧ next x left = .ok (y, rest) := by
  show (read bytes >>= fun step => next step.1 step.2) = _ ↔ _
  cases read bytes <;> simp [bind, Except.bind, Prod.ext_iff, and_assoc]

@[simp] theorem map_ok_iff {f : α → β} {y : β} :
    (f <$> read) bytes = .ok (y, rest) ↔ ∃ x, read bytes = .ok (x, rest) ∧ f x = y := by
  show (read bytes >>= fun step => pure (f step.1, step.2)) = _ ↔ _
  cases read bytes <;> simp [bind, Except.bind, Prod.ext_iff, and_comm]

@[simp] theorem pure_ok_iff {x y : α} :
    (pure x : Reader ε α) bytes = .ok (y, rest) ↔ x = y ∧ bytes = rest := by
  show Except.ok (x, bytes) = _ ↔ _
  simp

@[simp] theorem throw_ne_ok {error : ε} {x : α} :
    (throw error : Reader ε α) bytes ≠ .ok (x, rest) := nofun

/-- The next `count` bytes. -/
def take (truncated : ε) (count : Nat) : Reader ε (List UInt8) := fun remaining =>
  if remaining.length < count then .error truncated
  else .ok (remaining.take count, remaining.drop count)

theorem take_ok_iff {truncated : ε} {count : Nat} {bytes field rest : List UInt8} :
    take truncated count bytes = .ok (field, rest) ↔
      field.length = count ∧ bytes = field ++ rest := by
  rw [take]
  split
  · rename_i short
    simp only [reduceCtorEq, false_iff]
    rintro ⟨rfl, rfl⟩
    simp at short
  · constructor
    · rintro ⟨⟩
      exact ⟨by simp; omega, (List.take_append_drop ..).symm⟩
    · rintro ⟨rfl, rfl⟩
      simp

/-- The next byte. -/
def u8 (truncated : ε) : Reader ε UInt8
  | [] => .error truncated
  | byte :: rest => .ok (byte, rest)

@[simp] theorem u8_ok_iff {truncated : ε} {bytes rest : List UInt8} {byte : UInt8} :
    u8 truncated bytes = .ok (byte, rest) ↔ bytes = byte :: rest := by
  cases bytes <;> simp [u8]

section Words

variable {truncated : ε} {width : Nat} {word : BitVec (8 * width)}

/-- The next integer of `width` bytes, most significant first. -/
def wordBe (truncated : ε) (width : Nat) : Reader ε (BitVec (8 * width)) := do
  return BitVec.ofNat _ (ofBe (← take truncated width))

/-- The next integer of `width` bytes, least significant first. -/
def wordLe (truncated : ε) (width : Nat) : Reader ε (BitVec (8 * width)) := do
  return BitVec.ofNat _ (ofLe (← take truncated width))

theorem word_ok_iff {spell : Nat → Nat → List UInt8} {value : List UInt8 → Nat}
    (length : ∀ width value, (spell width value).length = width)
    (bound : ∀ bytes, value bytes < 256 ^ bytes.length)
    (spell_value : ∀ bytes, spell bytes.length (value bytes) = bytes)
    (value_spell : ∀ {width number}, number < 256 ^ width → value (spell width number) = number) :
    (take truncated width >>= fun field => pure (BitVec.ofNat _ (value field))) bytes =
      .ok (word, rest) ↔ bytes = spell width word.toNat ++ rest := by
  have capacity : 256 ^ width = 2 ^ (8 * width) := by rw [pow_mul]; norm_num
  simp only [bind_ok_iff, take_ok_iff, pure_ok_iff]
  constructor
  · rintro ⟨field, left, ⟨rfl, rfl⟩, rfl, rfl⟩
    have fits := bound field
    rw [capacity] at fits
    rw [BitVec.toNat_ofNat, Nat.mod_eq_of_lt fits, spell_value]
  · rintro rfl
    refine ⟨_, _, ⟨length width _, rfl⟩, ?_, rfl⟩
    rw [value_spell (capacity ▸ word.isLt), BitVec.ofNat_toNat, BitVec.setWidth_eq]

theorem wordBe_ok_iff :
    wordBe truncated width bytes = .ok (word, rest) ↔
      bytes = toBe width word.toNat ++ rest :=
  word_ok_iff length_toBe ofBe_lt toBe_ofBe ofBe_toBe

theorem wordLe_ok_iff :
    wordLe truncated width bytes = .ok (word, rest) ↔
      bytes = toLe width word.toNat ++ rest :=
  word_ok_iff length_toLe ofLe_lt toLe_ofLe ofLe_toLe

end Words

theorem counted_ok_iff {truncated : ε} {width : Nat} {count : Reader ε (BitVec width)}
    {spell : Nat → List UInt8} {field : List UInt8}
    (count_ok_iff : ∀ word left,
      count bytes = .ok (word, left) ↔ bytes = spell word.toNat ++ left) :
    (count >>= fun count => take truncated count.toNat) bytes = .ok (field, rest) ↔
      field.length < 2 ^ width ∧ bytes = spell field.length ++ field ++ rest := by
  simp only [bind_ok_iff, count_ok_iff, take_ok_iff]
  constructor
  · rintro ⟨count, left, rfl, counted, rfl⟩
    exact ⟨counted ▸ count.isLt, by rw [counted, List.append_assoc]⟩
  · rintro ⟨fits, rfl⟩
    have counted : (BitVec.ofNat width field.length).toNat = field.length := by
      rw [BitVec.toNat_ofNat, Nat.mod_eq_of_lt fits]
    exact ⟨.ofNat width field.length, _, by rw [counted, List.append_assoc], counted.symm, rfl⟩

/-- An encoding that is read back whatever follows it is no proper beginning of another one. -/
theorem eq_of_isPrefix {encode : α → List UInt8} {x y : α}
    (decodes : ∀ x rest, read (encode x ++ rest) = .ok (x, rest)) (front : encode x <+: encode y) :
    x = y := by
  obtain ⟨rest, whole⟩ := front
  have again := decodes y []
  rw [List.append_nil, ← whole, decodes] at again
  cases again
  rfl

end Reader
