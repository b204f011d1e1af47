import Verglas.Lib.Splice
import Verglas.Lib.Stripe

/-!
# Cutting a stream into blocks

A stream that arrives in pieces is cut into blocks of one width.  The blocks that are complete leave
a rest shorter than the width, and at the end of the stream a rest that is not empty is filled up to
one last block.  How the stream was split into pieces does not matter.

The second part reads a table of equally wide cells by columns.
-/

open List

variable {α : Type*}

/-- What is left of a list behind its whole blocks. -/
def blockRest (width : Nat) (symbols : List α) : List α :=
  symbols.drop (symbols.length / width * width)

variable {width index : Nat} {symbols : List α} {rows : List (List (List α))}

theorem chunksExact_eq_nil (short : symbols.length < width) : chunksExact width symbols = [] := by
  rw [chunksExact, Nat.div_eq_of_lt short, List.range_zero, map_nil]

theorem chunksExact_self (positive : 0 < width) (length : symbols.length = width) :
    chunksExact width symbols = [symbols] := by
  rw [chunksExact, length, Nat.div_self positive]
  simp [← length]

theorem blockRest_eq_self (short : symbols.length < width) : blockRest width symbols = symbols := by
  rw [blockRest, Nat.div_eq_of_lt short, Nat.zero_mul, drop_zero]

theorem length_blockRest_lt (positive : 0 < width) (symbols : List α) :
    (blockRest width symbols).length < width := by
  rw [blockRest, length_drop, ← Nat.mod_eq_sub_div_mul]
  exact Nat.mod_lt _ positive

variable {count : Nat} {front inputs : List α} {row : List (List α)} {β ε : Type*}
  {f : α → Except ε β}

theorem chunksExact_append (positive : 0 < width) (whole : front.length = count * width)
    (back : List α) :
    chunksExact width (front ++ back) = chunksExact width front ++ chunksExact width back := by
  have front_count : front.length / width = count := by
    rw [whole, Nat.mul_div_cancel _ positive]
  have total_count : (front ++ back).length / width = count + back.length / width := by
    rw [length_append, whole, Nat.add_comm, Nat.add_mul_div_right _ _ positive, Nat.add_comm]
  rw [chunksExact, chunksExact, chunksExact, total_count, front_count, List.range_add,
    map_append, map_map]
  congr 1
  · apply map_congr_left
    intro block member
    have inside : (block + 1) * width ≤ front.length := by
      rw [whole]
      exact Nat.mul_le_mul_right _ (mem_range.mp member)
    rw [Nat.add_mul, Nat.one_mul] at inside
    rw [drop_append_of_le_length (by omega),
      take_append_of_le_length (by rw [length_drop]; omega)]
  · apply map_congr_left
    intro block _
    rw [Function.comp_apply, Nat.add_mul, ← whole, ← drop_drop, drop_left]

theorem blockRest_append (positive : 0 < width) (whole : front.length = count * width)
    (back : List α) : blockRest width (front ++ back) = blockRest width back := by
  have total_count : (front ++ back).length / width = count + back.length / width := by
    rw [length_append, whole, Nat.add_comm, Nat.add_mul_div_right _ _ positive, Nat.add_comm]
  rw [blockRest, blockRest, total_count, Nat.add_mul, ← whole, ← drop_drop, drop_left]

private theorem take_whole (positive : 0 < width) (symbols : List α) :
    (symbols.take (symbols.length / width * width)).length = symbols.length / width * width ∧
      chunksExact width (symbols.take (symbols.length / width * width)) =
        chunksExact width symbols := by
  have covered : symbols.length / width * width ≤ symbols.length := Nat.div_mul_le_self _ _
  have whole : (symbols.take (symbols.length / width * width)).length =
      symbols.length / width * width := length_take_of_le covered
  refine ⟨whole, ?_⟩
  have cut := chunksExact_append positive whole (blockRest width symbols)
  have parts : symbols.take (symbols.length / width * width) ++ blockRest width symbols = symbols :=
    take_append_drop _ _
  rw [← parts, cut, parts, chunksExact_eq_nil (length_blockRest_lt positive symbols),
    append_nil]

theorem flatten_chunksExact_append_blockRest (positive : 0 < width) (symbols : List α) :
    (chunksExact width symbols).flatten ++ blockRest width symbols = symbols := by
  obtain ⟨whole, blocks⟩ := take_whole positive symbols
  rw [← blocks, flatten_chunksExact positive whole, blockRest, take_append_drop]

/-- One more piece of a stream adds the whole blocks of the rest and the piece. -/
theorem chunksExact_append_rest (positive : 0 < width) (stream piece : List α) :
    chunksExact width (stream ++ piece) =
      chunksExact width stream ++ chunksExact width (blockRest width stream ++ piece) := by
  obtain ⟨whole, blocks⟩ := take_whole positive stream
  have cut := chunksExact_append positive whole (blockRest width stream ++ piece)
  rw [blocks, ← append_assoc, blockRest, take_append_drop] at cut
  exact cut

theorem blockRest_append_rest (positive : 0 < width) (stream piece : List α) :
    blockRest width (stream ++ piece) = blockRest width (blockRest width stream ++ piece) := by
  obtain ⟨whole, _⟩ := take_whole positive stream
  have cut := blockRest_append positive whole (blockRest width stream ++ piece)
  nth_rewrite 2 [blockRest] at cut
  rwa [← append_assoc, take_append_drop] at cut

/-- The last block of a stream: its rest filled up to the width, unless there is no rest. -/
def lastBlock (width : Nat) (fill : α) (rest : List α) : List (List α) :=
  if rest.isEmpty then [] else [padTo width fill rest]

/-- All blocks of a stream, the last one filled up to the width. -/
def paddedBlocks (width : Nat) (fill : α) (stream : List α) : List (List α) :=
  chunksExact width stream ++ lastBlock width fill (blockRest width stream)

theorem length_of_mem_paddedBlocks {fill : α} {stream block : List α} (positive : 0 < width)
    (member : block ∈ paddedBlocks width fill stream) : block.length = width := by
  rcases mem_append.mp member with whole | last
  · exact length_of_mem_chunksExact positive whole
  rw [lastBlock] at last
  split at last
  · exact absurd last not_mem_nil
  · rw [mem_singleton.mp last]
    exact length_padTo (length_blockRest_lt positive stream).le

theorem take_flatten_paddedBlocks (positive : 0 < width) (fill : α) (stream : List α) :
    (paddedBlocks width fill stream).flatten.take stream.length = stream := by
  have parts := flatten_chunksExact_append_blockRest positive stream
  rw [paddedBlocks, flatten_append, lastBlock]
  split
  · rename_i empty
    rw [isEmpty_iff.mp empty, append_nil] at parts
    rw [flatten_nil, append_nil, parts, take_length]
  · rw [flatten_singleton, padTo, ← append_assoc, parts, take_left]

/-- The cells at one position of every row, one after another. -/
def column (rows : List (List (List α))) (index : Nat) : List α :=
  rows.flatMap fun row => row.getD index []

@[simp] theorem column_nil (index : Nat) : column ([] : List (List (List α))) index = [] := rfl

/-- Every row has a cell at the position, of the given width. -/
def HasColumn (width : Nat) (rows : List (List (List α))) (index : Nat) : Prop :=
  ∀ row ∈ rows, ∃ cell, row[index]? = some cell ∧ cell.length = width

theorem HasColumn.tail (has : HasColumn width (row :: rows) index) : HasColumn width rows index :=
  (forall_mem_cons.mp has).2

theorem HasColumn.length_column (has : HasColumn width rows index) :
    (column rows index).length = rows.length * width := by
  induction rows with
  | nil => simp
  | cons row rows induction =>
    obtain ⟨cell, found, cell_length⟩ := has row mem_cons_self
    have rest := induction has.tail
    rw [column, flatMap_cons, length_append, getD_eq_getElem?_getD, found,
      Option.getD_some, cell_length]
    change width + (column rows index).length = _
    rw [rest, length_cons, Nat.add_mul, Nat.one_mul, Nat.add_comm]

theorem List.slice?_append_back (front back : List α) (start stop : Nat) :
    (front ++ back).slice? (front.length + start) (front.length + stop) =
      back.slice? start stop := by
  simp only [List.slice?, length_append, Nat.add_le_add_iff_left,
    take_length_add_append, drop_length_add_append]

theorem HasColumn.slice_column {slot : Nat} (has : HasColumn width rows index)
    (at_slot : rows[slot]? = some row) :
    (column rows index).slice? (slot * width) ((slot + 1) * width) = row[index]? := by
  induction rows generalizing slot with
  | nil => simp at at_slot
  | cons head rows induction =>
    obtain ⟨cell, found, cell_length⟩ := has head mem_cons_self
    have column_eq : column (head :: rows) index = cell ++ column rows index := by
      rw [column, flatMap_cons, getD_eq_getElem?_getD, found, Option.getD_some]
      rfl
    rw [column_eq]
    cases slot with
    | zero =>
      have head_eq : head = row := by simpa using at_slot
      rw [← head_eq, found, List.slice?, if_pos (by simp [cell_length])]
      simp [← cell_length]
    | succ slot =>
      have later : rows[slot]? = some row := by simpa using at_slot
      have shift (block : Nat) : (block + 1) * width = cell.length + block * width := by
        rw [cell_length, Nat.add_mul, Nat.one_mul, Nat.add_comm]
      rw [shift slot, shift (slot + 1), List.slice?_append_back]
      exact induction has.tail later

theorem Except.bind_eq_ok_iff.{u, v} {ε : Type u} {α β : Type v} {result : Except ε α}
    {next : α → Except ε β} {value : β} :
    result >>= next = .ok value ↔ ∃ middle, result = .ok middle ∧ next middle = .ok value := by
  cases result <;> simp [bind, Except.bind]

theorem List.mapM_eq_ok_iff {outputs : List β} :
    inputs.mapM f = .ok outputs ↔
      List.Forall₂ (fun input output => f input = .ok output) inputs outputs := by
  induction inputs generalizing outputs with
  | nil =>
    rw [mapM_nil, forall₂_nil_left_iff]
    exact ⟨fun equal => (Except.ok.inj equal).symm, fun equal => equal ▸ rfl⟩
  | cons input inputs induction =>
    simp only [mapM_cons, Except.bind_eq_ok_iff, induction, forall₂_cons_left_iff]
    constructor
    · rintro ⟨output, head, rest, tail, ⟨⟩⟩
      exact ⟨output, rest, head, tail, rfl⟩
    · rintro ⟨output, rest, head, tail, rfl⟩
      exact ⟨output, head, rest, tail, rfl⟩

theorem List.mapM_eq_error {error : ε}
    (each : ∀ input ∈ inputs, (∃ output, f input = .ok output) ∨ f input = .error error)
    (fails : ∃ input ∈ inputs, f input = .error error) : inputs.mapM f = .error error := by
  induction inputs with
  | nil =>
    obtain ⟨_, member, _⟩ := fails
    exact absurd member not_mem_nil
  | cons input inputs induction =>
    rw [mapM_cons]
    rcases each input mem_cons_self with ⟨output, returned⟩ | failed
    · have later : ∃ other ∈ inputs, f other = .error error := by
        obtain ⟨other, member, failed⟩ := fails
        rcases mem_cons.mp member with rfl | rest
        · rw [returned] at failed
          cases failed
        · exact ⟨other, rest, failed⟩
      rw [returned,
        induction (forall_mem_cons.mp each).2 later]
      rfl
    · rw [failed]
      rfl
