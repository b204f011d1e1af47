import Verglas.Lib.Contiguous

/-!
# Reading a range out of consecutive blocks

A stream is stored in consecutive blocks, each of which is fetched as a whole.  `splice` walks over
the blocks with a cursor, cuts from every block the part that the requested range needs, and stops
when the cursor reaches the end of the range.  Over a contiguous run of blocks the result is the
requested window of the concatenated contents.
-/

open List

variable {α β ε : Type*}

/-- The elements at the positions from `start` up to `stop`, if the list has them. -/
def List.slice? (list : List α) (start stop : Nat) : Option (List α) :=
  if start ≤ stop ∧ stop ≤ list.length then some ((list.take stop).drop start) else none

/-- The part of a stream from position `start` up to `stop`; the stream begins at `origin`. -/
def window (origin : Nat) (stream : List α) (start stop : Nat) : List α :=
  (stream.drop (start - origin)).take (stop - start)

/-- Collect the range from `cursor` up to `limit` from the blocks behind the cursor. -/
def splice (first last : β → Nat) (fetch : β → Except ε (List α)) (outside : ε) (limit : Nat) :
    Nat → List α → List β → Except ε (List α)
  | _, _, [] => .error outside
  | cursor, output, block :: rest =>
    if last block ≤ cursor ∨ limit ≤ first block then
      splice first last fetch outside limit cursor output rest
    else if cursor < first block then .error outside
    else
      match fetch block with
      | .error error => .error error
      | .ok content =>
        match content.slice? (cursor - first block) (min limit (last block) - first block) with
        | none => .error outside
        | some taken =>
          if min limit (last block) = limit then .ok (output ++ taken)
          else
            splice first last fetch outside limit (min limit (last block)) (output ++ taken)
              rest

/-- The block holds some position of the range from `start` up to `stop`. -/
def Meets (first last : β → Nat) (start stop : Nat) (block : β) : Prop :=
  max start (first block) < min stop (last block)

instance (first last : β → Nat) (start stop : Nat) :
    DecidablePred (Meets first last start stop) :=
  fun _ => inferInstanceAs (Decidable (_ < _))

variable {origin middle start stop : Nat} {front : List α}

theorem window_append_back (back : List α) (front_length : front.length = middle - origin)
    (origin_le : origin ≤ middle) (start_ge : middle ≤ start) :
    window origin (front ++ back) start stop = window middle back start stop := by
  have split : start - origin = front.length + (start - middle) := by omega
  rw [window, window, split, ← drop_drop, drop_left]

theorem window_append_front (back : List α) (front_length : front.length = middle - origin)
    (start_ge : origin ≤ start) (start_le : start ≤ stop) (stop_le : stop ≤ middle) :
    window origin (front ++ back) start stop = window origin front start stop := by
  rw [window, window, drop_append_of_le_length (by omega),
    take_append_of_le_length (by rw [length_drop]; omega)]

theorem window_split (stream : List α) (start_ge : origin ≤ start) (start_le : start ≤ middle)
    (stop_ge : middle ≤ stop) :
    window origin stream start middle ++ window origin stream middle stop =
      window origin stream start stop := by
  have length_eq : stop - start = (middle - start) + (stop - middle) := by omega
  have shift : middle - origin = (start - origin) + (middle - start) := by omega
  rw [window, window, window, length_eq, shift, ← drop_drop, take_add]

section Run

variable {first last : β → Nat} {fetch : β → Except ε (List α)} {outside : ε} {limit : Nat}
  {content : β → List α} {origin stop cursor : Nat} {blocks : List β}

theorem Contiguous.length_flatMap (run : Contiguous first last origin blocks stop)
    (sized : ∀ block ∈ blocks, (content block).length = last block - first block) :
    (blocks.flatMap content).length = stop - origin := by
  induction run with
  | nil => simp
  | @cons origin stop block rest starts ordered following ih =>
    have rest_length := ih (forall_mem_cons.mp sized).2
    have bound := following.origin_le_limit
    rw [flatMap_cons, length_append, sized block mem_cons_self, rest_length]
    omega

/-- What a step of the walk takes from the block under the cursor. -/
theorem slice?_eq_window {block : β} (sized : (content block).length = last block - first block)
    (lower : first block ≤ cursor) (upper : cursor < last block) (before : cursor < limit) :
    (content block).slice? (cursor - first block) (min limit (last block) - first block) =
      some (window (first block) (content block) cursor (min limit (last block))) := by
  rw [List.slice?, if_pos (by omega), window, drop_take]
  congr 2
  omega

variable {output : List α}

/-- The walk answers with the requested window when the run covers it and every block that meets
it can be fetched. -/
theorem Contiguous.splice_eq (run : Contiguous first last origin blocks stop)
    (sized : ∀ block ∈ blocks, (content block).length = last block - first block)
    (fetched : ∀ block ∈ blocks, Meets first last cursor limit block →
      fetch block = .ok (content block))
    (lower : origin ≤ cursor) (before : cursor < limit) (upper : limit ≤ stop) (output : List α) :
    splice first last fetch outside limit cursor output blocks =
      .ok (output ++ window origin (blocks.flatMap content) cursor limit) := by
  induction run generalizing cursor output with
  | nil => omega
  | @cons origin stop block rest starts ordered following ih =>
    have here := sized block mem_cons_self
    have rest_sized : ∀ other ∈ rest, (content other).length = last other - first other :=
      (forall_mem_cons.mp sized).2
    rw [splice, flatMap_cons]
    by_cases passed : last block ≤ cursor
    · rw [if_pos (.inl passed), ih rest_sized
        (forall_mem_cons.mp fetched).2 passed before upper,
        window_append_back _ (by omega) (by omega) passed]
    · have inside : cursor < last block := not_le.mp passed
      rw [if_neg (by omega), if_neg (by omega),
        fetched block mem_cons_self (by rw [Meets]; omega)]
      dsimp only
      rw [slice?_eq_window here (by omega) inside before]
      dsimp only
      split
      · rename_i reached
        rw [reached, ← starts, window_append_front _ here (by omega) (by omega) (by omega)]
      · rename_i further
        have next_eq : min limit (last block) = last block := by omega
        rw [next_eq, ih rest_sized
          (fun other member meets => fetched other (mem_cons_of_mem _ member)
            (by rw [Meets] at meets ⊢; omega)) le_rfl (by omega) upper, append_assoc]
        congr 2
        rw [← window_split _ (by omega : origin ≤ cursor) inside.le (by omega), ← starts,
          window_append_front _ here (by omega) inside.le le_rfl,
          window_append_back _ here (by omega) le_rfl]

/-- A walk that answers started inside the run, ended inside it, fetched every block that it met and
answers with the window of what it fetched. -/
theorem Contiguous.of_splice_eq {result : List α} (run : Contiguous first last origin blocks stop)
    (sized : ∀ block ∈ blocks, (content block).length = last block - first block)
    (exact : ∀ block ∈ blocks, ∀ bytes, fetch block = .ok bytes → bytes = content block)
    (before : cursor < limit)
    (read : splice first last fetch outside limit cursor output blocks = .ok result) :
    origin ≤ cursor ∧ limit ≤ stop ∧
      (∀ block ∈ blocks, Meets first last cursor limit block → fetch block = .ok (content block)) ∧
      result = output ++ window origin (blocks.flatMap content) cursor limit := by
  have inside : origin ≤ cursor ∧ limit ≤ stop ∧
      ∀ block ∈ blocks, Meets first last cursor limit block →
        fetch block = .ok (content block) := by
    induction run generalizing cursor output with
    | nil => cases read
    | @cons origin stop block rest starts ordered following ih =>
      have rest_sized : ∀ other ∈ rest, (content other).length = last other - first other :=
        (forall_mem_cons.mp sized).2
      have rest_exact : ∀ other ∈ rest, ∀ bytes, fetch other = .ok bytes → bytes = content other :=
        (forall_mem_cons.mp exact).2
      rw [splice] at read
      split at read
      · rename_i skipped
        obtain ⟨lower, upper, fetched⟩ := ih rest_sized rest_exact before read
        refine ⟨by omega, upper, ?_⟩
        intro other member meets
        rcases mem_cons.mp member with rfl | later
        · rw [Meets] at meets
          omega
        · exact fetched other later meets
      · rename_i under
        split at read
        · cases read
        split at read
        · cases read
        rename_i bytes fetched
        have bytes_eq := exact block mem_cons_self bytes fetched
        split at read
        · cases read
        have bound := following.origin_le_limit
        split at read
        · rename_i reached
          refine ⟨by omega, by omega, ?_⟩
          intro other member meets
          rcases mem_cons.mp member with rfl | later
          · rw [fetched, bytes_eq]
          · have order := following.ordered_of_mem later
            rw [Meets] at meets
            omega
        · rename_i further
          have next_eq : min limit (last block) = last block := by omega
          obtain ⟨_, upper, rest_fetched⟩ := ih rest_sized rest_exact (by omega) read
          refine ⟨by omega, upper, ?_⟩
          intro other member meets
          rcases mem_cons.mp member with rfl | later
          · rw [fetched, bytes_eq]
          · have order := following.ordered_of_mem later
            exact rest_fetched other later (by rw [Meets] at meets ⊢; omega)
  obtain ⟨lower, upper, fetched⟩ := inside
  rw [run.splice_eq sized fetched lower before upper output] at read
  injection read with result_eq
  exact ⟨lower, upper, fetched, result_eq.symm⟩

end Run
