import Verglas.Cache.StripeCodec
import Verglas.Writeback.Journal

/-!
# Reading an object back from its fragments

The journal of an object names the geometry it was coded with and the node of each fragment.  To
reassemble the object, the coordinator loads fragments in the order of the journal, skips those that
are missing, unreachable or corrupt, and stops as soon as it has `k` of them.
-/

namespace Verglas.Writeback

open Cache Cluster List

/-- The journal of an object together with the coding of its fragments. -/
structure CodedJournal extends Journal where
  k : Nat
  m : Nat
  chunk : Nat
  deriving DecidableEq, Repr

def CodedJournal.geometry (journal : CodedJournal) : Geometry :=
  ⟨journal.k, journal.m, journal.chunk⟩

section Load

variable (crc32c : Bytes → UInt32) (plane : FragmentPlane) (reachable : String → Bool)

/-- Load one fragment from a node; `none` when the node cannot be reached, fails or lacks it. -/
def load (node : String) (key : FragmentKey) : Option LoadedFragment :=
  if reachable node then
    match plane.loadFragment node key with
    | .ok loaded => loaded
    | .error _ => none
  else none

/-- The fragment that a placement yields, if it passes its checksum. -/
def verifiedFragment (objectId : String) (placement : Placement) : Option Fragment :=
  match load plane reachable placement.node ⟨objectId, placement.index⟩ with
  | none => none
  | some loaded =>
    let fragment : Fragment := ⟨placement.index, loaded.bytes, loaded.checksum⟩
    if fragment.verify crc32c then some fragment else none

/-- Load fragments in order until there are `k` of them. -/
def gatherFragments (objectId : String) (k : Nat) :
    List Placement → List Fragment → List Fragment
  | [], fragments => fragments
  | placement :: rest, fragments =>
    let fragments :=
      fragments ++ (verifiedFragment crc32c plane reachable objectId placement).toList
    if k ≤ fragments.length then fragments else gatherFragments objectId k rest fragments

/-- The bytes of an object, from `k` of the fragments that its journal names. -/
def reassembleObject (code : ErasureCode UInt8) (journal : CodedJournal) :
    Except CodecError Bytes :=
  reassemble code crc32c journal.geometry journal.objectLen
    (gatherFragments crc32c plane reachable journal.objectId journal.k journal.placements [])

end Load

variable {crc32c : Bytes → UInt32} {plane : FragmentPlane} {reachable : String → Bool}
  {objectId : String}

/-- The node of a placement holds the column of its index, with the checksum of that column. -/
def Stores (crc32c : Bytes → UInt32) (plane : FragmentPlane) (objectId : String)
    (rows : List (List Bytes)) (placement : Placement) : Prop :=
  plane placement.node ⟨objectId, placement.index⟩ =
    some (fragmentFile (column rows placement.index) (crc32c (column rows placement.index)))

variable {rows : List (List Bytes)} {placement : Placement} {code : ErasureCode UInt8}
  {journal : CodedJournal} {body : Bytes}

theorem Stores.verifiedFragment_eq (stores : Stores crc32c plane objectId rows placement)
    (up : reachable placement.node) :
    verifiedFragment crc32c plane reachable objectId placement =
      some (Fragment.new crc32c placement.index (column rows placement.index)) := by
  rw [verifiedFragment, load, if_pos up, FragmentPlane.loadFragment, stores]
  dsimp only
  rw [splitTrailer_fragmentFile]
  simp [Fragment.verify, Fragment.new, Except.map]

theorem verifiedFragment_eq_some {fragment : Fragment}
    (found : verifiedFragment crc32c plane reachable objectId placement = some fragment) :
    fragment.index = placement.index ∧ fragment.verify crc32c = true := by
  rw [verifiedFragment] at found
  split at found
  · cases found
  dsimp only at found
  split at found
  · rename_i verified
    cases found
    exact ⟨rfl, verified⟩
  · cases found

variable (crc32c plane reachable objectId) in
/-- The gathered fragments are, in order, those of a front part of the placements, and a part is
left out only when `k` fragments are there. -/
theorem gatherFragments_eq (k : Nat) (placements : List Placement) (fragments : List Fragment) :
    ∃ front, front <+: placements ∧
      gatherFragments crc32c plane reachable objectId k placements fragments =
        fragments ++ front.filterMap (verifiedFragment crc32c plane reachable objectId) ∧
      (front = placements ∨ k ≤ (gatherFragments crc32c plane reachable objectId k placements
        fragments).length) := by
  induction placements generalizing fragments with
  | nil => exact ⟨[], prefix_rfl, by simp [gatherFragments], .inl rfl⟩
  | cons placement rest induction =>
    have step : ∀ front : List Placement,
        (placement :: front).filterMap (verifiedFragment crc32c plane reachable objectId) =
          (verifiedFragment crc32c plane reachable objectId placement).toList ++
            front.filterMap (verifiedFragment crc32c plane reachable objectId) := by
      cases found : verifiedFragment crc32c plane reachable objectId placement with
      | none | some fragment => simp [found]
    rw [gatherFragments]
    split
    · rename_i enough
      refine ⟨[placement], by simp, ?_, .inr enough⟩
      rw [step, filterMap_nil, append_nil]
    · obtain ⟨front, is_front, gathered, complete⟩ := induction
        (fragments ++ (verifiedFragment crc32c plane reachable objectId placement).toList)
      refine ⟨placement :: front, (cons_prefix_cons).mpr ⟨rfl, is_front⟩, ?_, ?_⟩
      · rw [gathered, step, append_assoc]
      · rcases complete with rfl | enough
        · exact .inl rfl
        · exact .inr enough

theorem index_filterMap_sublist (placements : List Placement) :
    ((placements.filterMap (verifiedFragment crc32c plane reachable objectId)).map
      Fragment.index).Sublist (placements.map Placement.index) := by
  induction placements with
  | nil => exact List.Sublist.slnil
  | cons placement rest induction =>
    cases found : verifiedFragment crc32c plane reachable objectId placement with
    | none =>
      rw [filterMap_cons_none found, map_cons]
      exact induction.cons _
    | some fragment =>
      rw [filterMap_cons_some found, map_cons, map_cons, (verifiedFragment_eq_some found).1]
      exact induction.cons_cons _

section Reassemble

variable (lawful : code.Lawful) (valid : journal.geometry.Valid)
  (encodes :
    Encodes code journal.geometry (paddedBlocks journal.geometry.stripeDataLen 0 body) rows)
  (length : journal.objectLen = body.length)
  (distinct : (journal.placements.map Placement.index).Nodup)
  (inside : ∀ placement ∈ journal.placements, placement.index < journal.geometry.total)
include lawful valid encodes length distinct inside

/-- An object can be read back when its placements have distinct indices, no fragment verifies that
is not the one placed, and `k` of the placements verify. -/
theorem reassembleObject_eq_ok (faithful : ∀ placement ∈ journal.placements, ∀ fragment,
      verifiedFragment crc32c plane reachable journal.objectId placement = some fragment →
        fragment.bytes = column rows placement.index)
    (enough : journal.k ≤ (journal.placements.filterMap
      (verifiedFragment crc32c plane reachable journal.objectId)).length) :
    reassembleObject crc32c plane reachable code journal = .ok body := by
  obtain ⟨front, is_front, gathered, complete⟩ := gatherFragments_eq crc32c plane reachable
    journal.objectId journal.k journal.placements []
  rw [nil_append] at gathered
  have source : ∀ fragment ∈ front.filterMap
      (verifiedFragment crc32c plane reachable journal.objectId),
      ∃ placement ∈ journal.placements,
        verifiedFragment crc32c plane reachable journal.objectId placement = some fragment := by
    intro fragment member
    obtain ⟨placement, listed, found⟩ := mem_filterMap.mp member
    exact ⟨placement, is_front.subset listed, found⟩
  have sound : ∀ fragment ∈ front.filterMap
      (verifiedFragment crc32c plane reachable journal.objectId),
      fragment.Sound crc32c journal.geometry rows := by
    intro fragment member
    obtain ⟨placement, listed, found⟩ := source fragment member
    have index_eq := (verifiedFragment_eq_some found).1
    have bytes_eq := faithful placement listed fragment found
    have bound := inside placement listed
    refine ⟨index_eq ▸ bound, ?_, fun _ => index_eq ▸ bytes_eq⟩
    rw [bytes_eq, (encodes.hasColumn lawful bound).length_column, Nat.mul_mod_left]
  have indices : ((front.filterMap (verifiedFragment crc32c plane reachable
      journal.objectId)).map Fragment.index).Nodup :=
    distinct.sublist ((index_filterMap_sublist front).trans (is_front.sublist.map Placement.index))
  have count : journal.k ≤ (front.filterMap (verifiedFragment crc32c plane reachable
      journal.objectId)).length := by
    rcases complete with rfl | reached
    · exact enough
    · rwa [gathered] at reached
  rw [reassembleObject, gathered,
    reassemble_of_stripes lawful valid encodes sound indices (by rwa [length_map]), length,
    take_flatten_paddedBlocks valid.stripe_pos]
  intro index member
  obtain ⟨fragment, listed, rfl⟩ := mem_map.mp member
  obtain ⟨placement, _, found⟩ := source fragment listed
  exact ⟨fragment, listed, rfl, (verifiedFragment_eq_some found).2⟩

theorem reassembleObject_of_stores (stores : ∀ placement ∈ journal.placements,
      Stores crc32c plane journal.objectId rows placement)
    (up : ∀ placement ∈ journal.placements, reachable placement.node)
    (enough : journal.k ≤ journal.placements.length) :
    reassembleObject crc32c plane reachable code journal = .ok body := by
  have verified : ∀ placement ∈ journal.placements,
      verifiedFragment crc32c plane reachable journal.objectId placement =
        some (Fragment.new crc32c placement.index (column rows placement.index)) :=
    fun placement listed => (stores placement listed).verifiedFragment_eq (up placement listed)
  refine reassembleObject_eq_ok lawful valid encodes length distinct inside ?_ ?_
  · intro placement listed fragment found
    rw [verified placement listed] at found
    cases found
    rfl
  · rw [filterMap_congr verified]
    simpa using enough

end Reassemble

theorem le_length_of_reassembleObject
    (done : reassembleObject crc32c plane reachable code journal = .ok body) :
    journal.k ≤ (journal.placements.filterMap
      (verifiedFragment crc32c plane reachable journal.objectId)).length := by
  obtain ⟨front, is_front, gathered, _⟩ := gatherFragments_eq crc32c plane reachable
    journal.objectId journal.k journal.placements []
  have enough := le_length_of_reassemble done
  rw [gathered, nil_append] at enough
  exact enough.trans ((is_front.sublist.filterMap _).length_le)

end Verglas.Writeback
