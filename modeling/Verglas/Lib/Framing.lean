import Verglas.Lib.Endian

/-!
# Framed append-only files

A frame is a payload behind eight bytes of length and four bytes of checksum.  A file of frames is
read from its head: the head is a complete frame, or it ends early, or it is damaged.  A file of
frames that is cut at any byte is a file of the frames that lie before the cut, followed by a
proper part of the next one.
-/

namespace Framing

open List Endian

def headerLength : Nat := 12

section Checksum

variable (checksum : List UInt8 → UInt32)

/-- One payload behind its length and checksum. -/
def frame (payload : List UInt8) : List UInt8 :=
  toLe 8 payload.length ++ (toLe 4 (checksum payload).toNat ++ payload)

def frames (payloads : List (List UInt8)) : List UInt8 := (payloads.map (frame checksum)).flatten

@[simp] theorem length_frame (payload : List UInt8) :
    (frame checksum payload).length = headerLength + payload.length := by
  simp [frame, headerLength]
  omega

@[simp] theorem frames_nil : frames checksum [] = [] := rfl

@[simp] theorem frames_cons (payload : List UInt8) (rest : List (List UInt8)) :
    frames checksum (payload :: rest) = frame checksum payload ++ frames checksum rest := rfl

@[simp] theorem frames_append (front back : List (List UInt8)) :
    frames checksum (front ++ back) = frames checksum front ++ frames checksum back := by
  simp [frames]

/-- What stands at the head of a file. -/
inductive Head where
  | torn
  | overflow
  | corrupt
  | payload (payload rest : List UInt8)

/-- Read the frame at the head of the bytes that follow `offset`. -/
def readHead (offset : Nat) (bytes : List UInt8) : Head :=
  if bytes.length < headerLength then .torn
  else
    let length := ofLe (bytes.take 8)
    let stored := ofLe ((bytes.drop 8).take 4)
    if 2 ^ 64 ≤ offset + headerLength + length then .overflow
    else if bytes.length < headerLength + length then .torn
    else
      let payload := (bytes.drop headerLength).take length
      if (checksum payload).toNat ≠ stored then .corrupt
      else .payload payload (bytes.drop (headerLength + length))

variable {offset size : Nat} {bytes payload rest : List UInt8}

theorem length_rest_of_readHead (head : readHead checksum offset bytes = .payload payload rest) :
    rest.length < bytes.length := by
  simp only [readHead] at head
  split at head
  · cases head
  split at head
  · cases head
  split at head
  · cases head
  split at head
  · cases head
  cases head
  simp only [length_drop, headerLength] at *
  omega

private theorem take_header (payload rest : List UInt8) :
    (frame checksum payload ++ rest).take 8 = toLe 8 payload.length := by
  simp [frame]

private theorem take_checksum (payload rest : List UInt8) :
    ((frame checksum payload ++ rest).drop 8).take 4 =
      toLe 4 (checksum payload).toNat := by
  simp [frame]

private theorem drop_headerLength (payload rest : List UInt8) :
    (frame checksum payload ++ rest).drop headerLength = payload ++ rest := by
  simp [frame, headerLength, drop_append]

private theorem ofLe_checksum (payload : List UInt8) :
    ofLe (toLe 4 (checksum payload).toNat) = (checksum payload).toNat :=
  ofLe_toLe (checksum payload).toNat_lt

theorem readHead_frame (rest : List UInt8)
    (bounded : offset + (frame checksum payload).length < 2 ^ 64) :
    readHead checksum offset (frame checksum payload ++ rest) = .payload payload rest := by
  rw [length_frame] at bounded
  have length : ofLe ((frame checksum payload ++ rest).take 8) = payload.length := by
    rw [take_header]
    exact ofLe_toLe (by omega)
  have size : (frame checksum payload ++ rest).length =
      headerLength + payload.length + rest.length := by
    simp
  rw [readHead, if_neg (by omega)]
  simp only [length, take_checksum, ofLe_checksum, drop_headerLength]
  rw [if_neg (by omega), if_neg (by omega), if_neg (by simp), ← drop_drop, drop_headerLength]
  simp

theorem readHead_short {length : Nat}
    (announced : headerLength ≤ bytes.length → bytes.take 8 = toLe 8 length)
    (bounded : offset + headerLength + length < 2 ^ 64)
    (short : bytes.length < headerLength + length) : readHead checksum offset bytes = .torn := by
  rw [readHead]
  split
  · rfl
  have spelled : ofLe (bytes.take 8) = length := by
    rw [announced (by omega)]
    exact ofLe_toLe (by omega)
  simp only [spelled]
  rw [if_neg (by omega), if_pos short]

theorem readHead_take_frame (bounded : offset + (frame checksum payload).length < 2 ^ 64)
    (header : rest = [] ∨ headerLength ≤ size)
    (short : size + rest.length < (frame checksum payload).length) :
    readHead checksum offset ((frame checksum payload).take size ++ rest) = .torn := by
  rw [length_frame] at bounded short
  have size_eq : ((frame checksum payload).take size).length = size := by
    rw [length_take, length_frame]
    omega
  have announced (long : headerLength ≤ ((frame checksum payload).take size ++ rest).length) :
      ((frame checksum payload).take size ++ rest).take 8 = toLe 8 payload.length := by
    have reached : headerLength ≤ size := by
      rcases header with rfl | reached
      · rwa [append_nil, size_eq] at long
      · exact reached
    rw [headerLength] at reached
    have whole := take_header checksum payload []
    rw [append_nil] at whole
    rw [take_append_of_le_length (by omega), take_take, Nat.min_eq_left (by omega), whole]
  refine readHead_short checksum announced (by omega) ?_
  rw [length_append, size_eq]
  omega

/-- Number of frames that lie wholly within the first `size` bytes. -/
def complete : List (List UInt8) → Nat → Nat
  | [], _ => 0
  | payload :: rest, size =>
    if (frame checksum payload).length ≤ size then
      complete rest (size - (frame checksum payload).length) + 1
    else 0

/-- What follows the complete frames of a cut file. -/
def tornTail : List (List UInt8) → Nat → List UInt8
  | [], _ => []
  | payload :: rest, size =>
    if (frame checksum payload).length ≤ size then
      tornTail rest (size - (frame checksum payload).length)
    else (frame checksum payload).take size

/-- A cut file is its complete frames and a torn tail. -/
theorem take_frames (payloads : List (List UInt8)) (size : Nat) :
    (frames checksum payloads).take size =
      frames checksum (payloads.take (complete checksum payloads size)) ++
        tornTail checksum payloads size := by
  induction payloads generalizing size with
  | nil => simp [tornTail]
  | cons payload rest ih =>
    rw [frames_cons, complete, tornTail]
    split
    · rename_i within
      rw [take_succ_cons, frames_cons, append_assoc, ← ih, take_append, take_of_length_le within]
    · rename_i beyond
      rw [take_append_of_le_length (by omega)]
      simp

/-- The torn tail is empty or a proper part of the frame behind the complete ones. -/
theorem tornTail_cases (payloads : List (List UInt8)) (size : Nat) :
    tornTail checksum payloads size = [] ∨
      ∃ payload, ∃ kept < (frame checksum payload).length,
        tornTail checksum payloads size = (frame checksum payload).take kept ∧
          (frames checksum (payloads.take (complete checksum payloads size))).length +
            (frame checksum payload).length ≤ (frames checksum payloads).length := by
  induction payloads generalizing size with
  | nil => exact .inl rfl
  | cons payload rest ih =>
    rw [tornTail, complete]
    split
    · rcases ih (size - (frame checksum payload).length) with
        empty | ⟨next, kept, within, tail_eq, bound⟩
      · exact .inl empty
      · refine .inr ⟨next, kept, within, tail_eq, ?_⟩
        rw [take_succ_cons, frames_cons, frames_cons, length_append, length_append]
        omega
    · rename_i beyond
      refine .inr ⟨payload, size, by omega, rfl, ?_⟩
      rw [take_zero, frames_nil, frames_cons, length_append]
      simp

theorem readHead_tornTail {payloads : List (List UInt8)} (size : Nat)
    (bounded : (frames checksum payloads).length < 2 ^ 64) :
    tornTail checksum payloads size = [] ∨
      readHead checksum
        (frames checksum (payloads.take (complete checksum payloads size))).length
        (tornTail checksum payloads size) = .torn := by
  rcases tornTail_cases checksum payloads size with
    empty | ⟨payload, kept, within, tail_eq, bound⟩
  · exact .inl empty
  · rw [tail_eq, ← append_nil (take _ _)]
    exact .inr (readHead_take_frame checksum (by omega) (.inl rfl) within)

theorem length_frames_take_le (payloads : List (List UInt8)) (count : Nat) :
    (frames checksum (payloads.take count)).length ≤ (frames checksum payloads).length := by
  have split : frames checksum payloads =
      frames checksum (payloads.take count) ++ frames checksum (payloads.drop count) := by
    rw [← frames_append, take_append_drop]
  rw [split, length_append]
  omega

theorem complete_append {front : List (List UInt8)} (back : List (List UInt8))
    (after : (frames checksum front).length ≤ size) :
    complete checksum (front ++ back) size =
      front.length + complete checksum back (size - (frames checksum front).length) := by
  induction front generalizing size with
  | nil => simp
  | cons payload rest ih =>
    rw [frames_cons, length_append] at after
    rw [cons_append, complete, if_pos (by omega), ih (by omega), length_cons,
      frames_cons, length_append, Nat.sub_sub]
    omega

end Checksum

end Framing
