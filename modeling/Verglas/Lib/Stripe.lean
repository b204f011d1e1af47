import Mathlib.Data.List.Nodup

/-!
# One-stripe erasure coding

A body is padded to `k` shards of equal width, and a systematic erasure code adds `m` recovery
shards.  The code itself is a parameter: `ErasureCode` is its interface and `ErasureCode.Lawful`
says that any `k` distinct shards of a stripe restore the missing originals.  The main theorem is
the round trip: decoding any `k` distinct shards of an encoded body returns the body.
-/

open List

/-- A systematic erasure code on shards of equal width. -/
structure ErasureCode (α : Type*) where
  /-- Whether shards of this width can be coded with these numbers of them. -/
  accepts : (k m width : Nat) → Bool
  /-- Recovery shards of a stripe of `k` originals; `none` for an unsupported geometry. -/
  encode : (k m width : Nat) → List (List α) → Option (List (List α))
  /-- Originals that were not supplied, from the supplied originals and recovery shards. -/
  decode : (k m width : Nat) → (originals recovery : List (Nat × List α)) →
    Option (List (Nat × List α))

namespace ErasureCode

variable {α : Type*}

/-- Each supplied shard is the one that `shards` holds at its index, and no index repeats. -/
structure Supplies (shards : List (List α)) (parts : List (Nat × List α)) : Prop where
  nodup : (parts.map Prod.fst).Nodup
  agrees : ∀ part ∈ parts, shards[part.1]? = some part.2

/-- The law of a maximum-distance code: recovery shards have the common width, and any `k` distinct
shards of a stripe restore the missing originals. -/
structure Lawful (code : ErasureCode α) : Prop where
  accepts : ∀ {k m width originals recovery}, code.encode k m width originals = some recovery →
    code.accepts k m width
  recovery : ∀ {k m width originals recovery}, code.encode k m width originals = some recovery →
    originals.length = k → (∀ shard ∈ originals, shard.length = width) →
    recovery.length = m ∧ ∀ shard ∈ recovery, shard.length = width
  restores : ∀ {k m width originals recovery givenOriginals givenRecovery},
    code.encode k m width originals = some recovery → originals.length = k →
    (∀ shard ∈ originals, shard.length = width) → Supplies originals givenOriginals →
    Supplies recovery givenRecovery → k ≤ givenOriginals.length + givenRecovery.length →
    ∃ restored, code.decode k m width givenOriginals givenRecovery = some restored ∧
      ∀ slot < k, slot ∉ givenOriginals.map Prod.fst →
        restored.lookup slot = originals[slot]?

/-- Any `k` distinct shards of the common width are decoded to something, whether or not they belong
to one stripe. -/
def DecodesAny (code : ErasureCode α) : Prop :=
  ∀ {k m width : Nat} {originals recovery : List (Nat × List α)}, code.accepts k m width →
    (originals.map Prod.fst).Nodup → (recovery.map Prod.fst).Nodup →
    (∀ part ∈ originals, part.1 < k ∧ part.2.length = width) →
    (∀ part ∈ recovery, part.1 < m ∧ part.2.length = width) →
    k ≤ originals.length + recovery.length →
    ∃ restored, code.decode k m width originals recovery = some restored ∧
      ∀ slot < k, slot ∉ originals.map Prod.fst → (restored.lookup slot).isSome

end ErasureCode

section Shards

variable {α : Type*}

/-- The consecutive blocks of exactly `width` symbols; a shorter rest is left out. -/
def chunksExact (width : Nat) (symbols : List α) : List (List α) :=
  (List.range (symbols.length / width)).map fun block => (symbols.drop (block * width)).take width

theorem length_chunksExact (width : Nat) (symbols : List α) :
    (chunksExact width symbols).length = symbols.length / width := by
  simp [chunksExact]

variable {symbols : List α}

theorem length_of_mem_chunksExact {width : Nat} {shard : List α} (positive : 0 < width)
    (member : shard ∈ chunksExact width symbols) : shard.length = width := by
  simp only [chunksExact, mem_map, mem_range] at member
  obtain ⟨block, block_lt, rfl⟩ := member
  have whole : (block + 1) * width ≤ symbols.length := (Nat.le_div_iff_mul_le positive).mp block_lt
  rw [Nat.add_mul, Nat.one_mul] at whole
  rw [length_take, length_drop]
  omega

private theorem flatten_blocks (width count : Nat) (symbols : List α)
    (whole : count * width = symbols.length) :
    ((List.range count).map fun block => (symbols.drop (block * width)).take width).flatten =
      symbols := by
  induction count generalizing symbols with
  | zero =>
    rw [Nat.zero_mul] at whole
    simpa using (length_eq_zero_iff.mp whole.symm).symm
  | succ count ih =>
    rw [Nat.add_mul, Nat.one_mul] at whole
    have rest_length : count * width = (symbols.drop width).length := by
      rw [length_drop]
      omega
    have rest := ih (symbols.drop width) rest_length
    rw [List.range_succ_eq_map, map_cons, map_map, flatten_cons]
    simp only [Function.comp_def, Nat.succ_mul, drop_drop] at rest ⊢
    rw [Nat.zero_mul, drop_zero]
    simp only [Nat.add_comm width] at rest
    rw [rest, take_append_drop]

theorem flatten_chunksExact {width count : Nat} (positive : 0 < width)
    (whole : symbols.length = count * width) : (chunksExact width symbols).flatten = symbols := by
  have count_eq : symbols.length / width = count := by
    rw [whole, Nat.mul_div_cancel _ positive]
  rw [chunksExact, count_eq]
  exact flatten_blocks width count symbols whole.symm

/-- Fill a list up to `length` symbols. -/
def padTo (length : Nat) (fill : α) (symbols : List α) : List α :=
  symbols ++ List.replicate (length - symbols.length) fill

theorem length_padTo {length : Nat} {fill : α} (within : symbols.length ≤ length) :
    (padTo length fill symbols).length = length := by
  simp only [padTo, length_append, length_replicate]
  omega

end Shards

namespace ErasureCode

variable {α : Type*} (code : ErasureCode α)

/-- All shards of a body: its padded originals and their recovery shards. -/
def encodeStripe (k m width : Nat) (fill : α) (body : List α) : Option (List (List α)) :=
  let originals := chunksExact width (padTo (k * width) fill body)
  (code.encode k m width originals).map fun recovery => originals ++ recovery

/-- The body of the given length, from supplied shards by slot. -/
def decodeStripe (k m length : Nat) (parts : List (Nat × List α)) : Option (List α) :=
  match parts.head? with
  | none => none
  | some first =>
    (code.decode k m first.2.length (parts.filter fun part => part.1 < k)
      ((parts.filter fun part => k ≤ part.1).map fun part => (part.1 - k, part.2))).bind
      fun restored =>
        ((List.range k).mapM fun slot => (parts.lookup slot).or (restored.lookup slot)).map
          fun shards => shards.flatten.take length

namespace Supplies

variable {shards : List (List α)} {parts : List (Nat × List α)}

theorem lookup_eq (supplies : Supplies shards parts) {slot : Nat}
    (supplied : slot ∈ parts.map Prod.fst) : parts.lookup slot = shards[slot]? := by
  cases found : parts.lookup slot with
  | none =>
    obtain ⟨part, member, part_eq⟩ := mem_map.mp supplied
    have absent := lookup_eq_none_iff.mp found part member
    simp [part_eq] at absent
  | some shard =>
    obtain ⟨front, back, parts_eq, _⟩ := lookup_eq_some_iff.mp found
    have member : (slot, shard) ∈ parts := by simp [parts_eq]
    exact (supplies.agrees _ member).symm

theorem originals {recovery : List (List α)} (supplies : Supplies (shards ++ recovery) parts) :
    Supplies shards (parts.filter fun part => part.1 < shards.length) where
  nodup := supplies.nodup.sublist (filter_sublist.map Prod.fst)
  agrees := by
    intro part member
    obtain ⟨inside, below⟩ := mem_filter.mp member
    rw [← supplies.agrees part inside, List.getElem?_append_left (of_decide_eq_true below)]

theorem recovery {recovery : List (List α)} (supplies : Supplies (shards ++ recovery) parts) :
    Supplies recovery
      ((parts.filter fun part => shards.length ≤ part.1).map fun part =>
        (part.1 - shards.length, part.2)) where
  nodup := by
    rw [map_map]
    have distinct : ((parts.filter fun part => shards.length ≤ part.1).map Prod.fst).Nodup :=
      supplies.nodup.sublist (filter_sublist.map Prod.fst)
    have above : ∀ slot ∈ (parts.filter fun part => shards.length ≤ part.1).map Prod.fst,
        shards.length ≤ slot := by
      intro slot member
      obtain ⟨part, inside, rfl⟩ := mem_map.mp member
      exact of_decide_eq_true (mem_filter.mp inside).2
    have shifted := distinct.map_on (f := (· - shards.length)) (by
      intro left left_mem right right_mem equal
      have left_above := above left left_mem
      have right_above := above right right_mem
      omega)
    rwa [map_map] at shifted
  agrees := by
    intro part member
    obtain ⟨source, inside, rfl⟩ := mem_map.mp member
    obtain ⟨given, above⟩ := mem_filter.mp inside
    rw [← supplies.agrees source given, List.getElem?_append_right (of_decide_eq_true above)]

end Supplies

private theorem mapM_range_eq_some {shards : List (List α)} {read : Nat → Option (List α)}
    (reads : ∀ slot < shards.length, read slot = shards[slot]?) :
    (List.range shards.length).mapM read = some shards := by
  induction shards generalizing read with
  | nil => rfl
  | cons shard rest ih =>
    have tail : (List.range rest.length).mapM (read ∘ Nat.succ) = some rest :=
      ih fun slot slot_lt => reads (slot + 1) (Nat.succ_lt_succ slot_lt)
    have head : read 0 = some shard := reads 0 (Nat.zero_lt_succ _)
    rw [length_cons, List.range_succ_eq_map, mapM_cons, mapM_map, head, tail]
    rfl

variable {code} {k m width : Nat} {fill : α} {body : List α} {shards : List (List α)}

theorem encodeStripe_eq_some (positive : 0 < width) (within : body.length ≤ k * width)
    (encoded : code.encodeStripe k m width fill body = some shards) :
    ∃ originals recovery, code.encode k m width originals = some recovery ∧
      shards = originals ++ recovery ∧ originals.length = k ∧
      (∀ shard ∈ originals, shard.length = width) ∧
      originals.flatten.take body.length = body := by
  have padded_length : (padTo (k * width) fill body).length = k * width := length_padTo within
  simp only [encodeStripe, Option.map_eq_some_iff] at encoded
  obtain ⟨recovery, recovered, rfl⟩ := encoded
  refine ⟨_, recovery, recovered, rfl, ?_, ?_, ?_⟩
  · rw [length_chunksExact, padded_length, Nat.mul_div_cancel _ positive]
  · exact fun shard member => length_of_mem_chunksExact positive member
  · rw [flatten_chunksExact positive padded_length]
    simp [padTo]

theorem Lawful.decodeStripe_encodeStripe (lawful : code.Lawful) {parts : List (Nat × List α)}
    (positive : 0 < width) (within : body.length ≤ k * width)
    (encoded : code.encodeStripe k m width fill body = some shards)
    (supplies : Supplies shards parts) (k_pos : 0 < k) (enough : k ≤ parts.length) :
    code.decodeStripe k m body.length parts = some body := by
  obtain ⟨originals, recovery, recovered, rfl, count, widths, body_eq⟩ :=
    encodeStripe_eq_some positive within encoded
  cases parts_eq : parts with
  | nil =>
    rw [parts_eq, length_nil] at enough
    omega
  | cons first rest =>
    have first_width : first.2.length = width := by
      have listed := mem_of_getElem? (supplies.agrees first (parts_eq ▸ mem_cons_self))
      rcases mem_append.mp listed with original | added
      · exact widths _ original
      · exact (lawful.recovery recovered count widths).2 _ added
    have total : k ≤ (parts.filter fun part => part.1 < originals.length).length +
        ((parts.filter fun part => originals.length ≤ part.1).map fun part =>
          (part.1 - originals.length, part.2)).length := by
      have parted := parts.length_eq_length_filter_add fun part => part.1 < originals.length
      have above : (fun part : Nat × List α => !decide (part.1 < originals.length)) =
          fun part => decide (originals.length ≤ part.1) := by
        funext part
        rw [← decide_not]
        exact decide_eq_decide.mpr Nat.not_lt
      rw [above] at parted
      rw [length_map]
      omega
    obtain ⟨restored, decoded, missing⟩ := lawful.restores recovered count widths
      supplies.originals supplies.recovery total
    have slots : ((List.range k).mapM fun slot =>
        (parts.lookup slot).or (restored.lookup slot)) = some originals := by
      rw [← count]
      apply mapM_range_eq_some
      intro slot slot_lt
      by_cases supplied : slot ∈ parts.map Prod.fst
      · rw [supplies.lookup_eq supplied, List.getElem?_append_left slot_lt,
          List.getElem?_eq_getElem slot_lt, Option.some_or]
      · have unsupplied :
            slot ∉ (parts.filter fun part => part.1 < originals.length).map Prod.fst :=
          fun member => supplied ((filter_sublist.map Prod.fst).subset member)
        have absent : parts.lookup slot = none := by
          rw [lookup_eq_none_iff]
          intro part member
          have ne : slot ≠ part.1 := fun equal =>
            supplied (equal ▸ mem_map_of_mem member)
          simpa using ne
        rw [absent, Option.none_or]
        exact missing slot (count ▸ slot_lt) unsupplied
    rw [← parts_eq, decodeStripe, show parts.head? = some first by rw [parts_eq]; rfl]
    simp only [first_width]
    rw [← count] at decoded slots ⊢
    rw [decoded, Option.bind_some, slots, Option.map_some, body_eq]

/-- The code of a single original: every recovery shard is a copy of it. -/
def mirror : ErasureCode α where
  accepts k _ _ := k = 1
  encode k m _ originals := if k = 1 then some (List.replicate m (originals.headD [])) else none
  decode k _ _ originals recovery :=
    if k = 1 then
      if originals.isEmpty then recovery.head?.map fun part => [(0, part.2)] else some []
    else none

theorem mirror_lawful : (mirror : ErasureCode α).Lawful where
  accepts := by
    intro k m width originals recovery encoded
    simp only [mirror] at encoded ⊢
    split at encoded
    · exact decide_eq_true ‹_›
    · cases encoded
  recovery := by
    intro k m width originals recovery encoded count widths
    simp only [mirror] at encoded
    split at encoded
    · rename_i single
      obtain ⟨shard, rfl⟩ := length_eq_one_iff.mp (count.trans single)
      cases encoded
      refine ⟨length_replicate, ?_⟩
      intro copy member
      rw [eq_of_mem_replicate member]
      exact widths shard mem_cons_self
    · cases encoded
  restores := by
    intro k m width originals recovery givenOriginals givenRecovery encoded count widths
      suppliedOriginals suppliedRecovery enough
    simp only [mirror] at encoded ⊢
    split at encoded
    · rename_i single
      obtain ⟨shard, rfl⟩ := length_eq_one_iff.mp (count.trans single)
      cases encoded
      cases givenOriginals with
      | nil =>
        cases givenRecovery with
        | nil =>
          simp only [length_nil] at enough
          omega
        | cons part rest =>
          have copy := suppliedRecovery.agrees part mem_cons_self
          have part_eq := eq_of_mem_replicate (mem_of_getElem? copy)
          refine ⟨[(0, shard)], by simp [single, part_eq], ?_⟩
          intro slot slot_lt _
          have zero : slot = 0 := by omega
          simp [zero]
      | cons part rest =>
        refine ⟨[], by simp [single], ?_⟩
        intro slot slot_lt missing
        have original := suppliedOriginals.agrees part mem_cons_self
        have part_zero : part.1 = 0 := by
          have bound := (List.getElem?_eq_some_iff.mp original).1
          omega
        exact absurd (mem_cons.mpr (.inl (by omega))) missing
    · cases encoded

theorem mirror_decodesAny : (mirror : ErasureCode α).DecodesAny := by
  intro k m width originals recovery accepts _ _ originalsInside _ enough
  have single : k = 1 := of_decide_eq_true accepts
  subst single
  cases originals with
  | nil =>
    cases recovery with
    | nil => exact absurd enough (by simp)
    | cons part rest =>
      refine ⟨[(0, part.2)], rfl, fun slot inside _ => ?_⟩
      rw [Nat.lt_one_iff.mp inside]
      rfl
  | cons part rest =>
    refine ⟨[], rfl, fun slot inside missing => absurd ?_ missing⟩
    have first : part.1 < 1 := (originalsInside part mem_cons_self).1
    exact mem_cons.mpr (.inl (by omega))

end ErasureCode
