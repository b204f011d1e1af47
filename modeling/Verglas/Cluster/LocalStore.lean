import Mathlib.Data.Prod.Lex
import Mathlib.Data.List.Lex
import Verglas.CacheNode.PayloadTransport
import Verglas.Lib.OrderedMap
import Verglas.Safekeeper.ArchiveKey

/-!
# Paths of the fragment store

A node keeps a fragment in a directory of its object.  The name of an object is split over nested
directories, so the directory of an object whose name fills its components is also a directory
above the objects whose names go on, and goes with them when the object is deleted.
-/

namespace Verglas.Cluster

open Consensus CacheNode Safekeeper Function List OrderedMap Option

/-- The bytes of an object id, spelled in hexadecimal digits. -/
def hexComponent (objectId : String) : List Char := hexEncode (asBytes objectId)

/-- The spelling of an object id, split into names of up to 120 characters. -/
def components (encoded : List Char) : List (List Char) :=
  if encoded = [] then [] else encoded.take 120 :: components (encoded.drop 120)
termination_by encoded.length
decreasing_by
  have := List.length_pos_of_ne_nil ‹_›
  simp
  omega

theorem flatten_components (encoded : List Char) : (components encoded).flatten = encoded := by
  fun_induction components encoded with
  | case1 => rfl
  | case2 encoded _ ih => rw [flatten_cons, ih, take_append_drop]

/-- Only a spelling that fills its components has those of longer spellings below it. -/
theorem prefix_of_components {encoded other : List Char}
    (below : components encoded <+: components other) :
    encoded <+: other ∧ (encoded = other ∨ 120 ∣ encoded.length) := by
  induction encoded using components.induct generalizing other with
  | case1 => exact ⟨ nil_prefix, .inr (dvd_zero _)⟩
  | case2 encoded nonempty ih =>
    rw [components, if_neg nonempty, components.eq_def other] at below
    split at below
    · simp at below
    obtain ⟨heads, below⟩ := cons_prefix_cons.mp below
    obtain ⟨rest, spelled⟩ := ih below
    have joined : encoded <+: other := by
      have whole := (prefix_append_right_inj (encoded.take 120)).mpr rest
      rwa [take_append_drop, heads, take_append_drop] at whole
    have lengths := congrArg length heads
    rw [length_take, length_take] at lengths
    rw [length_drop] at spelled
    refine ⟨joined, ?_⟩
    by_cases short : encoded.length < 120
    · exact .inl (joined.eq_of_length (by omega))
    rcases spelled with same | full
    · have drops := congrArg length same
      rw [length_drop, length_drop] at drops
      exact .inl (joined.eq_of_length (by have := joined.length_le; omega))
    · exact .inr (by omega)

/-- The directory of an object below the root. -/
def objectDir (objectId : String) : List (List Char) := components (hexComponent objectId)

/-- The path of a fragment file: its directory and the index in its name. -/
abbrev Place := List (List Char) ×ₗ Nat

def FragmentKey.place (key : FragmentKey) : Place := toLex (objectDir key.objectId, key.index)

/-- The key that a path spells. -/
def Place.key (place : Place) : Option FragmentKey :=
  ((hexDecode (ofLex place).1.flatten).bind fromUtf8).map fun objectId =>
    ⟨objectId, (ofLex place).2⟩

theorem FragmentKey.key_place (key : FragmentKey) : key.place.key = some key := by
  simp [Place.key, FragmentKey.place, objectDir, flatten_components, hexComponent,
    hexDecode_hexEncode, fromUtf8_asBytes]

theorem FragmentKey.place_injective : Function.Injective FragmentKey.place :=
  fun left right same => some.inj (by rw [← left.key_place, same, right.key_place])

/-- The fragment files below the root, by their paths. -/
abbrev LocalFragmentStore := OrderedMap Place Bytes

/-- The calls that change the store; a streaming writer takes effect when it commits. -/
inductive FragmentCall where
  | store (record : FragmentRecord)
  | commit (key : FragmentKey) (shards : List Bytes)
  | deleteFragment (key : FragmentKey)
  | deleteObject (objectId : String)

namespace LocalFragmentStore

variable (crc32c : Bytes → UInt32) (store : LocalFragmentStore)

/-- Write the file of a fragment. -/
def storeFragment (record : FragmentRecord) : LocalFragmentStore :=
  store.insert record.key.place (fragmentFile record.bytes record.checksum)

/-- Read the file of a fragment and split its trailer off. -/
def loadFragment (key : FragmentKey) : Except FragmentIoError (Option LoadedFragment) :=
  match store.get key.place with
  | none => .ok none
  | some raw => (splitTrailer raw).map some

/-- Remove the file of a fragment. -/
def deleteFragment (key : FragmentKey) : LocalFragmentStore := store.remove key.place

/-- `remove_dir_all` on the directory of the object -/
def deleteObject (objectId : String) : LocalFragmentStore :=
  store.retain fun place _ => !(objectDir objectId).isPrefixOf (ofLex place).1

/-- The keys that the files below the root spell. -/
def listFragmentKeys : List FragmentKey := store.keys.filterMap Place.key

/-- One call on the files. -/
def handle : FragmentCall → LocalFragmentStore
  | .store record => store.storeFragment record
  | .commit key shards => store.storeFragment (.new crc32c key shards.flatten)
  | .deleteFragment key => store.deleteFragment key
  | .deleteObject objectId => store.deleteObject objectId

/-- Calls one after the other on an empty directory. -/
def run (calls : List FragmentCall) : LocalFragmentStore := calls.foldl (handle crc32c) ∅

end LocalFragmentStore

/-- The file in which a fragment is kept. -/
def LoadedFragment.file (loaded : LoadedFragment) : Bytes :=
  fragmentFile loaded.bytes loaded.checksum

/-- A finite map from fragment keys to what was stored last. -/
abbrev FragmentMap := FragmentKey → Option LoadedFragment

namespace FragmentMap

variable (crc32c : Bytes → UInt32) (map : FragmentMap)

/-- One call on the map. -/
def handle : FragmentCall → FragmentMap
  | .store record => update map record.key (some ⟨record.bytes, record.checksum⟩)
  | .commit key shards =>
    update map key (some ⟨shards.flatten, crc32c shards.flatten⟩)
  | .deleteFragment key => update map key none
  | .deleteObject objectId => fun key => if key.objectId = objectId then none else map key

/-- Calls one after the other on the empty map. -/
def run (calls : List FragmentCall) : FragmentMap := calls.foldl (handle crc32c) fun _ => none

/-- No other object of the map lies below the directory of a deleted object. -/
def Apart : FragmentCall → Prop
  | .deleteObject objectId => ∀ key, map key ≠ none → key.objectId = objectId ∨
      ¬(120 ∣ (hexComponent objectId).length ∧ hexComponent objectId <+: hexComponent key.objectId)
  | _ => True

/-- The files are those of the map. -/
structure Represents (store : LocalFragmentStore) (map : FragmentMap) : Prop where
  found : ∀ key : FragmentKey, store.get key.place = (map key).map LoadedFragment.file
  named : ∀ place, store.get place ≠ none → ∃ key : FragmentKey, key.place = place

namespace Represents

variable {crc32c} {map} {files : LocalFragmentStore} (represents : Represents files map)
include represents

theorem update {after : LocalFragmentStore} (key : FragmentKey) (loaded : Option LoadedFragment)
    (here : after.get key.place = loaded.map LoadedFragment.file)
    (elsewhere : ∀ {place}, place ≠ key.place → after.get place = files.get place) :
    Represents after (update map key loaded) where
  found other := by
    by_cases same : other = key
    · rw [same, here, update_self]
    · rw [elsewhere (mt (FragmentKey.place_injective ·) same), update_of_ne same,
        represents.found]
  named place present := by
    by_cases same : place = key.place
    · exact ⟨key, same.symm⟩
    · exact represents.named place (elsewhere same ▸ present)

theorem deleteObject {objectId : String} (apart : map.Apart (.deleteObject objectId)) :
    Represents (files.deleteObject objectId) (handle crc32c map (.deleteObject objectId)) where
  found key := by
    ext file
    rw [LocalFragmentStore.deleteObject, get_retain_eq_some_iff, handle,
      represents.found]
    by_cases same : key.objectId = objectId
    · simp [same, FragmentKey.place]
    dsimp only
    rw [if_neg same]
    refine and_iff_left_of_imp fun present => ?_
    have stored : map key ≠ none := by
      rintro gone
      simp [gone] at present
    have away : ¬objectDir objectId <+: objectDir key.objectId := by
      intro below
      obtain ⟨starts, equal | full⟩ := prefix_of_components below
      · have one : FragmentKey.place ⟨objectId, key.index⟩ = key.place := by
          rw [FragmentKey.place, FragmentKey.place, objectDir, equal, objectDir]
        exact same (congrArg FragmentKey.objectId (FragmentKey.place_injective one)).symm
      · exact (apart key stored).resolve_left same ⟨full, starts⟩
    rw [Bool.not_eq_true', ← Bool.not_eq_true, isPrefixOf_iff_prefix]
    exact away
  named place present := by
    obtain ⟨file, found⟩ := ne_none_iff_exists'.mp present
    refine represents.named place (ne_none_iff_exists'.mpr ⟨file, ?_⟩)
    exact (get_retain_eq_some_iff.mp found).1

theorem handle {call : FragmentCall} (apart : map.Apart call) :
    Represents (LocalFragmentStore.handle crc32c files call) (handle crc32c map call) := by
  cases call with
  | store _ | commit _ _ =>
    exact represents.update _ (some _) (files.get_insert_self _ _) get_insert_of_ne
  | deleteFragment key =>
    exact represents.update key none ((files.get_remove _ _).trans (if_pos rfl))
      fun ne => (files.get_remove _ _).trans (if_neg ne)
  | deleteObject objectId => exact represents.deleteObject apart

end Represents

/-- While no object is deleted whose directory holds those of others, the store is the finite map of
its fragments: loads, deletes and the listing agree with it. -/
theorem fragment_store_is_map (calls : List FragmentCall)
    (apart : ∀ front call back, calls = front ++ call :: back → (run crc32c front).Apart call) :
    (∀ key, (LocalFragmentStore.run crc32c calls).loadFragment key = .ok (run crc32c calls key)) ∧
      ∀ key, key ∈ (LocalFragmentStore.run crc32c calls).listFragmentKeys ↔
        run crc32c calls key ≠ none := by
  have represents : Represents (LocalFragmentStore.run crc32c calls) (run crc32c calls) := by
    induction calls using reverseRecOn with
    | nil => exact ⟨fun _ => rfl, fun _ present => absurd rfl present⟩
    | append_singleton calls call ih =>
      rw [LocalFragmentStore.run, run, foldl_concat, foldl_concat]
      refine (ih fun front earlier back same => ?_).handle (apart calls call [] rfl)
      exact apart front earlier (back ++ [call]) (by rw [same, append_assoc]; rfl)
  refine ⟨fun key => ?_, fun key => ?_⟩
  · rw [LocalFragmentStore.loadFragment, represents.found]
    cases run crc32c calls key with
    | none => rfl
    | some loaded => simp [LoadedFragment.file, splitTrailer_fragmentFile, Except.map]
  · rw [LocalFragmentStore.listFragmentKeys, mem_filterMap]
    constructor
    · rintro ⟨place, present, spelled⟩
      have bound := isSome_iff_ne_none.mp (mem_keys_iff.mp present)
      obtain ⟨named, rfl⟩ := represents.named place bound
      cases named.key_place.symm.trans spelled
      rwa [represents.found, ne_eq, map_eq_none_iff] at bound
    · intro stored
      refine ⟨key.place, mem_keys_iff.mpr ?_, key.key_place⟩
      rwa [represents.found, isSome_map, isSome_iff_ne_none]

/-- The object without a name has the root of all objects as its directory. -/
theorem fragment_lost_with_other_object :
    (LocalFragmentStore.run (fun _ => 0) [.commit ⟨"a", 0⟩ [[1]], .deleteObject ""]).loadFragment
        ⟨"a", 0⟩ = .ok none ∧
      run (fun _ => 0) [.commit ⟨"a", 0⟩ [[1]], .deleteObject ""] ⟨"a", 0⟩ =
        some ⟨[1], 0⟩ := by
  have root : objectDir "" = [] := by
    rw [objectDir, show hexComponent "" = [] from rfl, components, if_pos rfl]
  have emptied : ∀ store : LocalFragmentStore, store.deleteObject "" = ∅ := fun store => by
    refine ext_get fun place => eq_none_iff_forall_ne_some.mpr fun file found => ?_
    simp [LocalFragmentStore.deleteObject, get_retain_eq_some_iff, root] at found
  refine ⟨?_, by decide⟩
  simp only [LocalFragmentStore.loadFragment, LocalFragmentStore.run, foldl_cons,
    foldl_nil, LocalFragmentStore.handle, emptied]
  rfl

/-- Deleting an object leaves the fragments of one whose name goes on. -/
theorem fragment_store_is_map_deleted :
    let store := LocalFragmentStore.run (fun _ => 0) [.commit ⟨"a", 0⟩ [[1]],
      .commit ⟨"a", 1⟩ [[2]], .commit ⟨"ab", 0⟩ [[3], [4]], .deleteFragment ⟨"a", 1⟩,
      .deleteObject "a"]
    store.loadFragment ⟨"a", 0⟩ = .ok none ∧
      store.loadFragment ⟨"ab", 0⟩ = .ok (some ⟨[3, 4], 0⟩) ∧
      ⟨"ab", 0⟩ ∈ store.listFragmentKeys ∧ ⟨"a", 1⟩ ∉ store.listFragmentKeys := by
  obtain ⟨loads, lists⟩ := fragment_store_is_map (fun _ => 0)
    [.commit ⟨"a", 0⟩ [[1]], .commit ⟨"a", 1⟩ [[2]], .commit ⟨"ab", 0⟩ [[3], [4]],
      .deleteFragment ⟨"a", 1⟩, .deleteObject "a"] fun front call back same => by
    rcases front with _ | ⟨_, _ | ⟨_, _ | ⟨_, _ | ⟨_, _ | ⟨_, rest⟩⟩⟩⟩⟩ <;> injections
      <;> subst_vars
    iterate 4 trivial
    · rename_i last
      cases last
      exact fun _ _ => .inr fun fills => absurd fills.1 (by decide)
    · simp at *
  exact ⟨loads _, loads _, (lists _).mpr (by decide), mt (lists _).mp (by decide)⟩

end FragmentMap
end Verglas.Cluster
