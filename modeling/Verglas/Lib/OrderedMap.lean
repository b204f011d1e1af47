import Mathlib.Data.List.Sort

/-!
# Finite maps in key order

An `OrderedMap` is the strictly increasing list of its bindings, so two maps with the same
bindings are equal and iteration is the list itself.  The order is a field of the structure: no
later proof has to show that an update kept it.
-/

open List

/-- A finite map whose bindings are listed in strictly increasing key order. -/
structure OrderedMap (κ ν : Type*) [LinearOrder κ] where
  entries : List (κ × ν)
  sorted : entries.Pairwise fun left right => left.1 < right.1

namespace OrderedMap

variable {κ ν : Type*} [LinearOrder κ]

instance [DecidableEq ν] : DecidableEq (OrderedMap κ ν) := fun left right =>
  decidable_of_iff (left.entries = right.entries) <| by
    cases left
    cases right
    simp

def empty : OrderedMap κ ν := ⟨[], .nil⟩

instance : EmptyCollection (OrderedMap κ ν) := ⟨empty⟩

instance : Inhabited (OrderedMap κ ν) := ⟨empty⟩

@[simp] theorem entries_empty : (∅ : OrderedMap κ ν).entries = [] := rfl

/-- The value that a key is bound to. -/
def get (map : OrderedMap κ ν) (key : κ) : Option ν :=
  (map.entries.find? fun entry => entry.1 = key).map Prod.snd

def contains (map : OrderedMap κ ν) (key : κ) : Bool := (map.get key).isSome

def values (map : OrderedMap κ ν) : List ν := map.entries.map Prod.snd

def keys (map : OrderedMap κ ν) : List κ := map.entries.map Prod.fst

/-- Place a binding in a sorted list, replacing the one with the same key. -/
def insertEntry (key : κ) (value : ν) : List (κ × ν) → List (κ × ν)
  | [] => [(key, value)]
  | entry :: rest =>
    if key < entry.1 then (key, value) :: entry :: rest
    else if key = entry.1 then (key, value) :: rest
    else entry :: insertEntry key value rest

variable {key : κ} {value : ν} {entry : κ × ν} {map : OrderedMap κ ν} {list : List (κ × ν)}

theorem mem_insertEntry (member : entry ∈ insertEntry key value list) :
    entry = (key, value) ∨ entry ∈ list := by
  induction list with
  | nil => simpa [insertEntry] using member
  | cons head rest ih =>
    rw [insertEntry] at member
    split at member
    · simpa using member
    split at member
    · rcases mem_cons.mp member with rfl | inRest
      · exact .inl rfl
      · exact .inr (mem_cons_of_mem _ inRest)
    · rcases mem_cons.mp member with rfl | inRest
      · exact .inr mem_cons_self
      · exact (ih inRest).imp_right (mem_cons_of_mem _)

theorem sorted_insertEntry (key : κ) (value : ν)
    (sorted : list.Pairwise fun left right => left.1 < right.1) :
    (insertEntry key value list).Pairwise fun left right => left.1 < right.1 := by
  induction list with
  | nil => simp [insertEntry]
  | cons head rest ih =>
    obtain ⟨head_lt, rest_sorted⟩ := pairwise_cons.mp sorted
    rw [insertEntry]
    split
    · rename_i key_lt
      refine pairwise_cons.mpr ⟨?_, sorted⟩
      intro entry member
      rcases mem_cons.mp member with rfl | inRest
      · exact key_lt
      · exact key_lt.trans (head_lt entry inRest)
    · split
      · rename_i key_eq
        exact pairwise_cons.mpr ⟨fun entry member => key_eq ▸ head_lt entry member,
          rest_sorted⟩
      · rename_i key_not_lt key_ne
        refine pairwise_cons.mpr ⟨?_, ih rest_sorted⟩
        intro entry member
        rcases mem_insertEntry member with rfl | inRest
        · exact lt_of_le_of_ne (not_lt.mp key_not_lt) (Ne.symm key_ne)
        · exact head_lt entry inRest

/-- Bind a key. -/
def insert (map : OrderedMap κ ν) (key : κ) (value : ν) : OrderedMap κ ν :=
  ⟨insertEntry key value map.entries, sorted_insertEntry key value map.sorted⟩

/-- Collect bindings in order; a later binding of a key replaces an earlier one. -/
def ofList (bindings : List (κ × ν)) : OrderedMap κ ν :=
  bindings.foldl (fun map binding => map.insert binding.1 binding.2) ∅

/-- Keep the bindings that satisfy a test. -/
def retain (map : OrderedMap κ ν) (keep : κ → ν → Bool) : OrderedMap κ ν :=
  ⟨map.entries.filter fun entry => keep entry.1 entry.2, map.sorted.filter _⟩

def remove (map : OrderedMap κ ν) (key : κ) : OrderedMap κ ν :=
  map.retain fun bound _ => bound ≠ key

@[simp] theorem get_empty (key : κ) : (∅ : OrderedMap κ ν).get key = none := rfl

/-- Lookup reads the binding list: keys are distinct, so a listed binding is the one found. -/
theorem get_eq_some_iff : map.get key = some value ↔ (key, value) ∈ map.entries := by
  obtain ⟨entries, sorted⟩ := map
  simp only [get]
  induction entries with
  | nil => simp
  | cons head rest ih =>
    obtain ⟨head_lt, rest_sorted⟩ := pairwise_cons.mp sorted
    rw [find?_cons]
    by_cases head_eq : head.1 = key
    · subst head_eq
      constructor
      · intro found
        have value_eq : head.2 = value := by simpa using found
        exact mem_cons.mpr (.inl (by rw [← value_eq]))
      · intro member
        rcases mem_cons.mp member with equal | inRest
        · have value_eq : value = head.2 := congrArg Prod.snd equal
          simp [value_eq]
        · exact absurd (head_lt _ inRest) (lt_irrefl _)
    · have head_ne : (key, value) ≠ head := fun equal => head_eq (by rw [← equal])
      simp only [head_eq, decide_false, mem_cons, head_ne, false_or]
      exact ih rest_sorted

theorem get_eq_none_iff : map.get key = none ↔ ∀ value, (key, value) ∉ map.entries := by
  rw [Option.eq_none_iff_forall_ne_some]
  simp only [ne_eq, get_eq_some_iff]

theorem get_eq_some_of_mem (member : entry ∈ map.entries) : map.get entry.1 = some entry.2 :=
  get_eq_some_iff.mpr member

@[simp] theorem get_insert_self (map : OrderedMap κ ν) (key : κ) (value : ν) :
    (map.insert key value).get key = some value := by
  rw [get_eq_some_iff]
  change _ ∈ insertEntry key value map.entries
  induction map.entries with
  | nil => simp [insertEntry]
  | cons head rest ih =>
    rw [insertEntry]
    split
    · exact mem_cons_self
    · split
      · exact mem_cons_self
      · exact mem_cons_of_mem _ ih

private theorem mem_insertEntry_of_ne (ne : entry.1 ≠ key) :
    entry ∈ insertEntry key value list ↔ entry ∈ list := by
  have entry_ne : entry ≠ (key, value) := fun equal => ne (by rw [equal])
  induction list with
  | nil => simp [insertEntry, entry_ne]
  | cons head rest ih =>
    rw [insertEntry]
    split
    · simp [entry_ne]
    split
    · rename_i key_eq
      have head_ne : entry ≠ head := fun equal => ne (by rw [equal, key_eq])
      simp [entry_ne, head_ne]
    · simp [ih]

@[simp] theorem get_insert_of_ne {other : κ} (ne : other ≠ key) :
    (map.insert key value).get other = map.get other := by
  apply Option.ext
  intro found
  rw [get_eq_some_iff, get_eq_some_iff]
  exact mem_insertEntry_of_ne ne

theorem get_insert (map : OrderedMap κ ν) (key other : κ) (value : ν) :
    (map.insert key value).get other = if other = key then some value else map.get other := by
  split
  · rename_i equal
    rw [equal, get_insert_self]
  · rename_i ne
    exact get_insert_of_ne ne

theorem entries_insert_of_forall_lt (above : ∀ entry ∈ map.entries, entry.1 < key) :
    (map.insert key value).entries = map.entries ++ [(key, value)] := by
  change insertEntry key value map.entries = _
  induction list : map.entries generalizing map with
  | nil => rfl
  | cons head rest ih =>
    have head_lt : head.1 < key := above head (by rw [list]; exact mem_cons_self)
    have rest_sorted := (pairwise_cons.mp (list ▸ map.sorted)).2
    rw [insertEntry, if_neg head_lt.not_gt, if_neg head_lt.ne', cons_append]
    congr 1
    exact @ih ⟨rest, rest_sorted⟩
      (fun entry member => above entry (by rw [list]; exact mem_cons_of_mem _ member)) rfl

theorem mem_entries_insert (member : entry ∈ (map.insert key value).entries) :
    entry = (key, value) ∨ entry ∈ map.entries :=
  mem_insertEntry member

@[simp] theorem entries_retain (map : OrderedMap κ ν) (keep : κ → ν → Bool) :
    (map.retain keep).entries = map.entries.filter fun entry => keep entry.1 entry.2 := rfl

theorem get_retain_eq_some_iff {keep : κ → ν → Bool} :
    (map.retain keep).get key = some value ↔ map.get key = some value ∧ keep key value := by
  rw [get_eq_some_iff, get_eq_some_iff, entries_retain, mem_filter]

theorem get_remove (map : OrderedMap κ ν) (key other : κ) :
    (map.remove key).get other = if other = key then none else map.get other := by
  split
  · rename_i equal
    rw [Option.eq_none_iff_forall_ne_some]
    intro value found
    exact of_decide_eq_true (get_retain_eq_some_iff.mp found).2 equal
  · rename_i ne
    ext value
    rw [remove, get_retain_eq_some_iff]
    simp [ne]

variable {bindings : List (κ × ν)}

theorem get_foldl_insert (nodup : (bindings.map Prod.fst).Nodup) :
    (bindings.foldl (fun map binding => map.insert binding.1 binding.2) map).get key =
        some value ↔
      (key, value) ∈ bindings ∨ key ∉ bindings.map Prod.fst ∧ map.get key = some value := by
  induction bindings generalizing map with
  | nil => simp
  | cons head rest ih =>
    obtain ⟨head_fresh, rest_nodup⟩ := nodup_cons.mp nodup
    rw [foldl_cons, ih rest_nodup, get_insert]
    by_cases head_eq : key = head.1
    · subst head_eq
      have not_rest : ∀ bound, (head.1, bound) ∉ rest := fun bound member =>
        head_fresh (mem_map.mpr ⟨_, member, rfl⟩)
      have head_mem : ((head.1, value) ∈ head :: rest) ↔ head.2 = value := by
        constructor
        · intro member
          rcases mem_cons.mp member with equal | inRest
          · exact (congrArg Prod.snd equal).symm
          · exact absurd inRest (not_rest value)
        · rintro rfl
          exact mem_cons_self
      rw [head_mem]
      simp [not_rest, head_fresh]
    · have head_ne : (key, value) ≠ head := fun equal => head_eq (by rw [← equal])
      simp [head_eq, head_ne]

theorem get_ofList_eq_some_iff (nodup : (bindings.map Prod.fst).Nodup) :
    (ofList bindings).get key = some value ↔ (key, value) ∈ bindings := by
  rw [ofList, get_foldl_insert nodup]
  simp

/-- A map is its lookup function: strictly increasing lists with the same members are equal. -/
theorem ext_get {left right : OrderedMap κ ν} (same : ∀ key, left.get key = right.get key) :
    left = right := by
  have members : ∀ entry, entry ∈ left.entries ↔ entry ∈ right.entries := by
    rintro ⟨key, value⟩
    rw [← get_eq_some_iff, ← get_eq_some_iff, same]
  have strict : ∀ map : OrderedMap κ ν, map.entries.Nodup := fun map =>
    map.sorted.imp fun less equal => less.ne (congrArg Prod.fst equal)
  have perm := (perm_ext_iff_of_nodup (strict left) (strict right)).mpr members
  have entries := perm.eq_of_pairwise (fun first second _ _ less greater =>
    absurd (less.trans greater) (lt_irrefl _)) left.sorted right.sorted
  cases left
  cases right
  simpa using entries

theorem mem_keys_iff : key ∈ map.keys ↔ (map.get key).isSome := by
  rw [keys, mem_map, Option.isSome_iff_exists]
  constructor
  · rintro ⟨entry, member, rfl⟩
    exact ⟨entry.2, get_eq_some_iff.mpr member⟩
  · rintro ⟨value, found⟩
    exact ⟨_, get_eq_some_iff.mp found, rfl⟩

end OrderedMap
