import Mathlib.Tactic.Ring
import Verglas.Safekeeper.Archive

/-!
# Archive keys

The archiver names the object of a WAL segment by the LSN interval and the content hash, all in
lower-case hexadecimal of fixed width.  A checkpoint decodes the interval and the hash from the key
again; this file proves that it gets back what the archiver wrote.
-/

namespace Verglas.Safekeeper

open Consensus List Option

variable {nibble : Nat}

theorem hexValue_hexDigit (small : nibble < 16) : hexValue (hexDigit nibble) = some nibble := by
  have table : ∀ nibble < 16, hexValue (hexDigit nibble) = some nibble := by decide
  exact table nibble small

/-- Neither separator of an archive name is a hexadecimal digit, and every digit is one byte. -/
theorem hexDigit_plain (small : nibble < 16) :
    hexDigit nibble ≠ '-' ∧ hexDigit nibble ≠ '/' ∧ hexDigit nibble ≠ '+' ∧
      (hexDigit nibble).utf8Size = 1 := by
  have table : ∀ nibble < 16, hexDigit nibble ≠ '-' ∧ hexDigit nibble ≠ '/' ∧
      hexDigit nibble ≠ '+' ∧ (hexDigit nibble).utf8Size = 1 := by decide
  exact table nibble small

/-- A text of lower-case hexadecimal digits. -/
def IsHex (text : List Char) : Prop := ∀ char ∈ text, ∃ nibble < 16, hexDigit nibble = char

theorem isHex_lowerHex (width value : Nat) : IsHex (lowerHex width value) := by
  induction width generalizing value with
  | zero => intro char member; cases member
  | succ width induction =>
    intro char member
    rcases mem_append.mp member with earlier | last
    · exact induction _ char earlier
    · exact ⟨value % 16, Nat.mod_lt _ (by decide), (mem_singleton.mp last).symm⟩

theorem isHex_hexEncode (bytes : Bytes) : IsHex (hexEncode bytes) := by
  intro char member
  obtain ⟨byte, _, digit⟩ := mem_flatMap.mp member
  have bound := byte.toNat_lt
  simp only [mem_cons, not_mem_nil, or_false] at digit
  rcases digit with rfl | rfl
  · exact ⟨_, by omega, rfl⟩
  · exact ⟨_, by omega, rfl⟩

theorem length_lowerHex (width value : Nat) : (lowerHex width value).length = width := by
  induction width generalizing value with
  | zero => rfl
  | succ width induction => simp [lowerHex, induction]

theorem length_hexEncode (bytes : Bytes) : (hexEncode bytes).length = 2 * bytes.length := by
  induction bytes with
  | nil => rfl
  | cons byte rest induction =>
    have unfolded : hexEncode (byte :: rest) =
        hexDigit (byte.toNat / 16) :: hexDigit (byte.toNat % 16) :: hexEncode rest := rfl
    rw [unfolded, length_cons, length_cons, induction, length_cons]
    omega

variable {text : List Char}

theorem IsHex.utf8Length_eq (hex : IsHex text) : utf8Length text = text.length := by
  induction text with
  | nil => rfl
  | cons char rest induction =>
    obtain ⟨nibble, small, rfl⟩ := hex char mem_cons_self
    have tail := induction (forall_mem_cons.mp hex).2
    rw [utf8Length] at tail ⊢
    rw [map_cons, sum_cons, tail, (hexDigit_plain small).2.2.2, length_cons]
    omega

theorem parseDigits_append (front back : List Char) (value : Nat) :
    parseDigits value (front ++ back) =
      parseDigits value front >>= fun middle => parseDigits middle back := by
  induction front generalizing value with
  | nil => rfl
  | cons digit rest induction =>
    simp only [cons_append, parseDigits]
    cases hexValue digit with
    | none => rfl
    | some nibble => exact induction _

theorem parseDigits_lowerHex (width value start : Nat) :
    parseDigits start (lowerHex width value) = some (start * 16 ^ width + value % 16 ^ width) := by
  induction width generalizing value with
  | zero => simp [lowerHex, parseDigits, Nat.mod_one]
  | succ width induction =>
    rw [lowerHex, parseDigits_append, induction]
    simp only [bind_eq_bind, bind_some, parseDigits,
      hexValue_hexDigit (Nat.mod_lt value (by decide : 0 < 16)), some.injEq]
    rw [Nat.pow_succ', Nat.mod_mul]
    ring

theorem fromStrRadix16_lowerHex {value : Nat} (bounded : value < 2 ^ 64) :
    fromStrRadix16 (lowerHex 16 value) = some value := by
  have parsed : parseDigits 0 (lowerHex 16 value) = some value := by
    rw [parseDigits_lowerHex, Nat.zero_mul, Nat.zero_add, Nat.mod_eq_of_lt (by omega)]
  have length_eq := length_lowerHex 16 value
  have hex := isHex_lowerHex 16 value
  revert parsed length_eq hex
  generalize lowerHex 16 value = text
  intro parsed length_eq hex
  cases text with
  | nil => cases length_eq
  | cons first rest =>
    obtain ⟨nibble, small, rfl⟩ := hex first mem_cons_self
    have unsigned := (hexDigit_plain small).2.2.1
    have reading : fromStrRadix16 (hexDigit nibble :: rest) =
        (parseDigits 0 (hexDigit nibble :: rest)).filter (· < 2 ^ 64) := by
      unfold fromStrRadix16
      split <;> simp_all
    rw [reading, parsed, filter_some_pos]
    simpa using bounded

theorem hexDecode_hexEncode (bytes : Bytes) : hexDecode (hexEncode bytes) = some bytes := by
  induction bytes with
  | nil => rfl
  | cons byte rest induction =>
    have bound := byte.toNat_lt
    have unfolded : hexEncode (byte :: rest) =
        hexDigit (byte.toNat / 16) :: hexDigit (byte.toNat % 16) :: hexEncode rest := rfl
    rw [unfolded, hexDecode, induction, hexValue_hexDigit (by omega), hexValue_hexDigit (by omega)]
    have joined : byte.toNat / 16 * 16 + byte.toNat % 16 = byte.toNat := by omega
    simp only [bind_eq_bind, bind_some, joined, UInt8.ofNat_toNat, pure]

/-- Key of the object that holds the bytes of an LSN interval. -/
def archiveKey (root : String) (startLsn endLsn : Nat) (hash : Digest) : String :=
  String.ofList (root.toList ++ '/' :: (lowerHex 16 startLsn ++ '-' :: (lowerHex 16 endLsn ++
    '-' :: hexEncode hash.toList)))

/-- Identity of the object that holds exactly these bytes of an LSN interval. -/
def archiveObject (sha256 : Bytes → Digest) (root : String) (startLsn endLsn : Nat)
    (bytes : Bytes) : ArchiveObject where
  key := archiveKey root startLsn endLsn (sha256 bytes)
  hash := sha256 bytes
  length := bytes.length

theorem takeWhile_reverse_slash {root name : List Char} (plain : '/' ∉ name) :
    ((root ++ '/' :: name).reverse.takeWhile (· ≠ '/')).reverse = name := by
  have inside : ∀ char ∈ name.reverse, decide (char ≠ '/') = true := by
    intro char member
    have other : char ≠ '/' := by
      rintro rfl
      exact plain (mem_reverse.mp member)
    simpa using other
  rw [reverse_append, reverse_cons, append_assoc, takeWhile_append_of_pos inside]
  simp

theorem IsHex.not_mem_dash (hex : IsHex text) : '-' ∉ text := by
  intro member
  obtain ⟨nibble, small, equal⟩ := hex _ member
  exact (hexDigit_plain small).1 equal

theorem IsHex.not_mem_slash (hex : IsHex text) : '/' ∉ text := by
  intro member
  obtain ⟨nibble, small, equal⟩ := hex _ member
  exact (hexDigit_plain small).2.1 equal

/-- A name of three hexadecimal fields splits into them at its dashes. -/
theorem splitOn_fields {first second third : List Char} (hex_first : IsHex first)
    (hex_second : IsHex second) (hex_third : IsHex third) :
    (first ++ '-' :: (second ++ '-' :: third)).splitOn '-' = [first, second, third] := by
  have joined : first ++ '-' :: (second ++ '-' :: third) =
      ['-'].intercalate [first, second, third] := by
    simp [intercalate, intersperse]
  rw [joined]
  refine splitOn_intercalate '-' ?_ (by simp)
  intro field member
  simp only [mem_cons, not_mem_nil, or_false] at member
  rcases member with rfl | rfl | rfl
  · exact hex_first.not_mem_dash
  · exact hex_second.not_mem_dash
  · exact hex_third.not_mem_dash

theorem parseArchiveKey_archiveKey (root : String) {startLsn endLsn : Nat} (hash : Digest)
    (proper : startLsn < endLsn) (bounded : endLsn < 2 ^ 64) :
    parseArchiveKey (archiveKey root startLsn endLsn hash) = some (startLsn, endLsn, hash) := by
  have hex_start := isHex_lowerHex 16 startLsn
  have hex_end := isHex_lowerHex 16 endLsn
  have hex_hash := isHex_hexEncode hash.toList
  have plain : '/' ∉ lowerHex 16 startLsn ++ '-' :: (lowerHex 16 endLsn ++
      '-' :: hexEncode hash.toList) := by
    simp [hex_start.not_mem_slash, hex_end.not_mem_slash, hex_hash.not_mem_slash]
  have widths : ¬(utf8Length (lowerHex 16 startLsn) ≠ 16 ∨ utf8Length (lowerHex 16 endLsn) ≠ 16 ∨
      utf8Length (hexEncode hash.toList) ≠ 64) := by
    rw [hex_start.utf8Length_eq, hex_end.utf8Length_eq, hex_hash.utf8Length_eq, length_lowerHex,
      length_lowerHex, length_hexEncode, Vector.length_toList]
    simp
  have spelled : (archiveKey root startLsn endLsn hash).toList = root.toList ++ '/' ::
      (lowerHex 16 startLsn ++ '-' :: (lowerHex 16 endLsn ++ '-' :: hexEncode hash.toList)) :=
    String.toList_ofList
  have named : archiveKey root startLsn endLsn hash ≠ "" := by
    intro empty
    rw [empty] at spelled
    simp at spelled
  rw [parseArchiveKey]
  simp only [spelled, takeWhile_reverse_slash plain, splitOn_fields hex_start hex_end hex_hash]
  rw [if_neg widths, fromStrRadix16_lowerHex (proper.trans bounded),
    fromStrRadix16_lowerHex bounded, hexDecode_hexEncode]
  simp only [bind_eq_bind, bind_some, checkArchiveFields, ne_eq, not_true_eq_false,
    if_false, Vector.length_toList, dite_true]
  rw [if_neg (not_or.mpr ⟨by omega, named⟩)]
  simp [Vector.toList]

theorem fromKey_archiveKey {root : String} {startLsn endLsn : Nat} {hash : Digest}
    {segment : WalArchiveSegment} (proper : startLsn < endLsn) (bounded : endLsn < 2 ^ 64)
    (decoded : WalArchiveSegment.fromKey (archiveKey root startLsn endLsn hash) = .ok segment) :
    segment.key = archiveKey root startLsn endLsn hash ∧ segment.startLsn = startLsn ∧
      segment.endLsn = endLsn ∧ segment.hash = hash := by
  have key_eq := WalArchiveSegment.key_of_fromKey decoded
  have parsed := segment.canonical
  rw [key_eq, parseArchiveKey_archiveKey root hash proper bounded] at parsed
  simp only [some.injEq, Prod.mk.injEq] at parsed
  exact ⟨key_eq, parsed.1.symm, parsed.2.1.symm, parsed.2.2.symm⟩

end Verglas.Safekeeper
