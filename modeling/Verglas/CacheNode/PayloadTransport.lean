import Verglas.Cluster.Fragments
import Verglas.Consensus.Payload

/-!
# Payload representations on the cache ring

Consensus payload representations travel over the ring's fragment plane.  A representation is
written as one fragment whose index is the slot that the representation itself names; a load finds
the fragment under the slot that the currently published voter ordering gives the voter.

The hash and the checksum are the parameters `sha256` and `crc32c`.
-/

namespace Verglas.CacheNode

open Consensus Cluster List Endian

/-- The `width` bytes at `offset`. -/
def field (bytes : Bytes) (offset width : Nat) : Bytes := (bytes.drop offset).take width

/-- Position of the part with number `i` in a concatenation. -/
def partOffset (parts : List Bytes) (i : Nat) : Nat := (parts.take i).flatten.length

variable {parts : List Bytes} {i offset : Nat}

variable {part : Bytes} {width : Nat} {representation : PayloadRepresentation}

theorem flatten_eq_of_part (found : parts[i]? = some part) :
    parts.flatten = (parts.take i).flatten ++ (part ++ (parts.drop (i + 1)).flatten) := by
  obtain ⟨bound, part_eq⟩ := List.getElem?_eq_some_iff.mp found
  rw [← flatten_cons, ← flatten_append, ← part_eq, getElem_cons_drop, take_append_drop]

theorem field_flatten (found : parts[i]? = some part) (offset_eq : offset = partOffset parts i)
    (width_eq : width = part.length) : field parts.flatten offset width = part := by
  rw [offset_eq, width_eq, partOffset, flatten_eq_of_part found]
  simp [field]

theorem ofBe_field_flatten {value : Nat} (found : parts[i]? = some (toBe width value))
    (offset_eq : offset = partOffset parts i) (fits : value < 256 ^ width) :
    ofBe (field parts.flatten offset width) = value := by
  rw [field_flatten found offset_eq (length_toBe width value).symm, ofBe_toBe fits]

theorem getD_flatten {byte : UInt8} (found : parts[i]? = some [byte])
    (offset_eq : offset = partOffset parts i) : parts.flatten.getD offset 0 = byte := by
  rw [offset_eq, partOffset, flatten_eq_of_part found]
  simp [getD_eq_getElem?_getD]

theorem drop_flatten (offset_eq : offset = partOffset parts i) :
    parts.flatten.drop offset = (parts.drop i).flatten := by
  have split : parts.flatten = (parts.take i).flatten ++ (parts.drop i).flatten := by
    rw [← flatten_append, take_append_drop]
  rw [offset_eq, partOffset, split, drop_left]

def modeByte : ReplicationMode → UInt8
  | .coded => 0
  | .complete => 1

def modeOfByte (byte : UInt8) : Option ReplicationMode :=
  if byte = 0 then some .coded else if byte = 1 then some .complete else none

@[simp] theorem modeOfByte_modeByte (mode : ReplicationMode) :
    modeOfByte (modeByte mode) = some mode := by
  cases mode <;> rfl

def fromUtf8 (bytes : Bytes) : Option String := String.fromUTF8? ⟨bytes.toArray⟩

theorem fromUtf8_asBytes (text : String) : fromUtf8 (asBytes text) = some text := by
  have whole : (⟨(asBytes text).toArray⟩ : ByteArray) = text.toByteArray := by
    simp [asBytes]
  rw [fromUtf8, whole, String.fromUTF8?, dif_pos text.isValidUTF8]
  rfl

theorem asBytes_of_fromUtf8 {bytes : Bytes} {text : String}
    (decoded : fromUtf8 bytes = some text) : asBytes text = bytes := by
  rw [fromUtf8, String.fromUTF8?] at decoded
  split at decoded
  · cases decoded
    simp [asBytes, String.fromUTF8]
  · cases decoded

/-- Fields of a stored representation in the order in which they are written. -/
def representationFields (representation : PayloadRepresentation) : List Bytes :=
  let group := asBytes representation.group
  [toBe 4 group.length, group, representation.hash.toList,
    toBe 8 representation.configurationGeneration, [modeByte representation.mode],
    toBe 8 representation.term, toBe 8 representation.index,
    toBe 16 representation.request, toBe 8 representation.length,
    toBe 8 representation.slot, representation.bytes]

/-- Bytes of a stored representation.  The length of the group name keeps its low 32 bits. -/
def encodeRepresentation (representation : PayloadRepresentation) : Bytes :=
  (representationFields representation).flatten

/-- Validate one loaded ring fragment before exposing its representation. -/
def decodeRepresentation (crc32c : Bytes → UInt32) (hash : Digest) (loaded : LoadedFragment) :
    Except PayloadError PayloadRepresentation :=
  let bytes := loaded.bytes
  if !loaded.isHealthy crc32c || bytes.length < 69 then .error .corruptRepresentation
  else
    let groupLen := ofBe (field bytes 0 4)
    let base := 4 + groupLen
    let fixed := base + 32 + 8 + 1 + 8 + 8
    if bytes.length < fixed + 32 then .error .corruptRepresentation
    else
      match fromUtf8 (field bytes 4 groupLen) with
      | none => .error .corruptRepresentation
      | some group =>
        if field bytes base 32 ≠ hash.toList then .error .corruptRepresentation
        else
          match modeOfByte (bytes.getD (base + 40) 0) with
          | none => .error .corruptRepresentation
          | some mode =>
            .ok
              { term := ofBe (field bytes (base + 41) 8)
                index := ofBe (field bytes (base + 49) 8)
                group
                configurationGeneration := ofBe (field bytes (base + 32) 8)
                mode
                hash
                request := ofBe (field bytes fixed 16)
                length := ofBe (field bytes (fixed + 16) 8)
                slot := ofBe (field bytes (fixed + 24) 8)
                bytes := bytes.drop (fixed + 32) }

/-- Ranges of the machine integers of a representation. -/
structure Representable (representation : PayloadRepresentation) : Prop where
  term_lt : representation.term < 2 ^ 64
  index_lt : representation.index < 2 ^ 64
  configurationGeneration_lt : representation.configurationGeneration < 2 ^ 64
  request_lt : representation.request < 2 ^ 128
  length_lt : representation.length < 2 ^ 64
  slot_lt : representation.slot < 2 ^ 64

/-- Whether the length of the group name fits the four bytes that spell it. -/
def ShortGroup (representation : PayloadRepresentation) : Prop :=
  (asBytes representation.group).length < 2 ^ 32

instance (representation : PayloadRepresentation) : Decidable (ShortGroup representation) :=
  inferInstanceAs (Decidable (_ < _))

theorem length_encodeRepresentation (representation : PayloadRepresentation) :
    (encodeRepresentation representation).length =
      93 + (asBytes representation.group).length + representation.bytes.length := by
  simp [encodeRepresentation, representationFields]
  omega

/-- Offsets of the fields after the group name, in the terms of the decoder. -/
theorem partOffset_representationFields (representation : PayloadRepresentation) :
    (List.range 11).map (partOffset (representationFields representation)) =
      let base := 4 + (asBytes representation.group).length
      let fixed := base + 32 + 8 + 1 + 8 + 8
      [0, 4, base, base + 32, base + 40, base + 41, base + 49, fixed, fixed + 16, fixed + 24,
        fixed + 32] := by
  simp [range_succ, partOffset, representationFields]
  omega

theorem decodeRepresentation_encode (crc32c : Bytes → UInt32) (hash : Digest)
    (ranges : Representable representation) (short : ShortGroup representation) :
    decodeRepresentation crc32c hash
        ⟨encodeRepresentation representation, crc32c (encodeRepresentation representation)⟩ =
      if representation.hash = hash then .ok representation
      else .error .corruptRepresentation := by
  have size := length_encodeRepresentation representation
  have offsets := partOffset_representationFields representation
  simp only [range_succ, range_zero, nil_append, cons_append, map_cons,
    map_nil, cons.injEq, and_true] at offsets
  obtain ⟨at0, at1, at2, at3, at4, at5, at6, at7, at8, at9, at10⟩ := offsets
  have groupLen : ofBe (field (encodeRepresentation representation) 0 4) =
      (asBytes representation.group).length :=
    ofBe_field_flatten (i := 0) rfl at0.symm short
  have groupField : field (encodeRepresentation representation) 4 _ =
      asBytes representation.group := field_flatten (i := 1) rfl at1.symm rfl
  have hashField : field (encodeRepresentation representation) _ 32 =
      representation.hash.toList := field_flatten (i := 2) rfl at2.symm (by simp)
  have generationField : ofBe (field (encodeRepresentation representation) _ 8) =
      representation.configurationGeneration :=
    ofBe_field_flatten (i := 3) rfl at3.symm ranges.configurationGeneration_lt
  have modeField : (encodeRepresentation representation).getD _ 0 =
      modeByte representation.mode := getD_flatten (i := 4) rfl at4.symm
  have termField : ofBe (field (encodeRepresentation representation) _ 8) =
      representation.term := ofBe_field_flatten (i := 5) rfl at5.symm ranges.term_lt
  have indexField : ofBe (field (encodeRepresentation representation) _ 8) =
      representation.index := ofBe_field_flatten (i := 6) rfl at6.symm ranges.index_lt
  have requestField : ofBe (field (encodeRepresentation representation) _ 16) =
      representation.request := ofBe_field_flatten (i := 7) rfl at7.symm ranges.request_lt
  have lengthField : ofBe (field (encodeRepresentation representation) _ 8) =
      representation.length := ofBe_field_flatten (i := 8) rfl at8.symm ranges.length_lt
  have slotField : ofBe (field (encodeRepresentation representation) _ 8) =
      representation.slot := ofBe_field_flatten (i := 9) rfl at9.symm ranges.slot_lt
  have bodyField : (encodeRepresentation representation).drop _ = representation.bytes :=
    (drop_flatten (i := 10) at10.symm).trans (by simp [representationFields])
  rw [decodeRepresentation]
  simp only [groupLen, groupField, hashField, generationField, modeField, termField, indexField,
    requestField, lengthField, slotField, bodyField, fromUtf8_asBytes, modeOfByte_modeByte]
  rw [if_neg (by simp [LoadedFragment.isHealthy]; omega), if_neg (by omega)]
  by_cases same : representation.hash = hash
  · subst same
    rw [if_neg (by simp), if_pos rfl]
  · rw [if_pos (fun equal => same (Vector.toList_inj.mp equal)), if_neg same]

theorem shortGroup_of_decode {crc32c : Bytes → UInt32} {hash : Digest} {loaded : LoadedFragment}
    (decoded : decodeRepresentation crc32c hash loaded = .ok representation) :
    ShortGroup representation := by
  simp only [decodeRepresentation] at decoded
  split at decoded
  · cases decoded
  split at decoded
  · cases decoded
  split at decoded
  · cases decoded
  rename_i group spelled
  split at decoded
  · cases decoded
  split at decoded
  · cases decoded
  cases decoded
  have group_eq := asBytes_of_fromUtf8 spelled
  have spelled_lt := ofBe_lt (field loaded.bytes 0 4)
  have width : (field loaded.bytes 0 4).length ≤ 4 := by
    simp [field]
  have capacity : 256 ^ (field loaded.bytes 0 4).length ≤ 256 ^ 4 :=
    Nat.pow_le_pow_right (by decide) width
  have name_length : (field loaded.bytes 4 (ofBe (field loaded.bytes 0 4))).length ≤
        ofBe (field loaded.bytes 0 4) := by
    simp only [field, length_take]
    omega
  simp only [ShortGroup, group_eq]
  omega

/-- Consensus voter identity of a stable deployment node name. -/
def numericNodeId (node : String) : Nat :=
  (asBytes node).foldl
    (fun hash byte => (hash ^^^ byte.toNat) * 0x00000100000001b3 % 2 ^ 64) 0xcbf29ce484222325

/-- The numeric voter order used by Raft persistence and payload coding. -/
def canonicalVoterIds (nodes : List String) : List Nat :=
  (nodes.map numericNodeId).insertionSort (· ≤ ·)

/-- Ring node and coding slot of every payload voter. -/
structure PayloadPeers where
  nodes : OrderedMap Nat String
  slots : OrderedMap Nat Nat

namespace PayloadPeers

/-- Number the voters in the order of a publication. -/
def enumerate (voters : List Nat) : OrderedMap Nat Nat := .ofList voters.zipIdx

/-- Map every peer to the slot assigned by the canonical persisted voter order. -/
def canonical (peers : List String) : PayloadPeers :=
  { nodes := .ofList (peers.map fun node => (numericNodeId node, node))
    slots := enumerate (canonicalVoterIds peers) }

/-- Validate a stable node identity against its supplied voter identity. -/
def validateVoterIdentity (voter : Nat) (nodeId : String) : Except String Unit :=
  if nodeId = "" ∨ numericNodeId nodeId ≠ voter then
    .error "candidate node identity does not match voter id"
  else .ok ()

/-- Register a candidate for representation transfer before learner catch-up. -/
def registerPayloadPeer (peers : PayloadPeers) (voter : Nat) (nodeId : String) :
    Except String PayloadPeers :=
  match validateVoterIdentity voter nodeId with
  | .error error => .error error
  | .ok () => .ok { peers with nodes := peers.nodes.insert voter nodeId }

/-- Publish the slots of a committed uniform voter allocation. -/
def setPayloadVoters (peers : PayloadPeers) (voters : List Nat) : Except String PayloadPeers :=
  if voters.any fun voter => !peers.nodes.contains voter then
    .error "payload voter lacks node identity"
  else .ok { peers with slots := enumerate voters }

end PayloadPeers

/-- Peer maps of this process and the fragment files of every node. -/
structure PayloadRing where
  peers : PayloadPeers
  plane : FragmentPlane

namespace PayloadRing

/-- Publish a voter set; an unknown voter leaves the ring as it was. -/
def publish (ring : PayloadRing) (voters : List Nat) : PayloadRing :=
  match ring.peers.setPayloadVoters voters with
  | .error _ => ring
  | .ok peers => { ring with peers }

/-- Publish several voter sets in turn. -/
def publishAll (ring : PayloadRing) (publications : List (List Nat)) : PayloadRing :=
  publications.foldl publish ring

theorem publish_frame (ring : PayloadRing) (voters : List Nat) :
    (ring.publish voters).plane = ring.plane ∧
      (ring.publish voters).peers.nodes = ring.peers.nodes := by
  rw [publish]
  split
  · exact ⟨rfl, rfl⟩
  rename_i accepted
  rw [PayloadPeers.setPayloadVoters] at accepted
  split at accepted
  · cases accepted
  · cases accepted
    exact ⟨rfl, rfl⟩

theorem publishAll_frame (ring : PayloadRing) (publications : List (List Nat)) :
    (ring.publishAll publications).plane = ring.plane ∧
      (ring.publishAll publications).peers.nodes = ring.peers.nodes := by
  induction publications generalizing ring with
  | nil => exact ⟨rfl, rfl⟩
  | cons voters rest ih =>
    obtain ⟨plane_eq, nodes_eq⟩ := ring.publish_frame voters
    obtain ⟨plane_rest, nodes_rest⟩ := ih (ring.publish voters)
    exact ⟨plane_rest.trans plane_eq, nodes_rest.trans nodes_eq⟩

end PayloadRing

section Transport

variable (sha256 : Bytes → Digest) (crc32c : Bytes → UInt32)

/-- Fragment identity shared by staging and reconstruction. -/
def consensusFragmentKey (hash : Digest) (group : String) (configurationGeneration : Nat)
    (request : RequestId) (slot : Nat) : Cluster.FragmentKey :=
  { objectId :=
      "consensus/" ++ String.ofList (hexEncode hash.toList) ++ "/" ++
        String.ofList (hexEncode (sha256 (asBytes group)).toList) ++ "/" ++
        toString configurationGeneration ++ "/" ++ String.ofList (lowerHex 32 request)
    index := slot }

/-- Fragment record of a representation, under the slot that the representation names. -/
def representationRecord (representation : PayloadRepresentation) : FragmentRecord :=
  FragmentRecord.new crc32c
    (consensusFragmentKey sha256 representation.hash representation.group
      representation.configurationGeneration representation.request representation.slot)
    (encodeRepresentation representation)

namespace PayloadRing

/-- Store a representation at the node of a voter; a failed call may have stored it. -/
def store (ring : PayloadRing) (voter : Nat) (representation : PayloadRepresentation)
    (reply : FragmentReply) : Except PayloadError Unit × PayloadRing :=
  match ring.peers.nodes.get voter with
  | none => (.error .unknownHolder, ring)
  | some node =>
    let record := representationRecord sha256 crc32c representation
    let placed := { ring with plane := ring.plane.storeFragment node record }
    match reply with
    | .answered => (.ok (), placed)
    | .failed message landed => (.error (.transport message), if landed then placed else ring)

/-- Load one representation from a voter's node, under the published slot of the voter;
`unreachable` is the error of a node that does not answer. -/
def load (ring : PayloadRing) (voter : Nat) (hash : Digest) (group : String)
    (configurationGeneration : Nat) (request : RequestId) (unreachable : Option String) :
    Except PayloadError (Option PayloadRepresentation) :=
  match ring.peers.nodes.get voter, ring.peers.slots.get voter with
  | some node, some slot =>
    match unreachable with
    | some message => .error (.transport message)
    | none =>
      match ring.plane.loadFragment node
          (consensusFragmentKey sha256 hash group configurationGeneration request slot) with
      | .error error => .error (.transport error.describe)
      | .ok none => .ok none
      | .ok (some loaded) => (decodeRepresentation crc32c hash loaded).map some
  | _, _ => .error .unknownHolder

/-- Delete a representation at the node of a voter; a failed call may have deleted it. -/
def delete (ring : PayloadRing) (voter : Nat) (hash : Digest) (group : String)
    (configurationGeneration : Nat) (request : RequestId) (slot : Nat) (reply : FragmentReply) :
    Except PayloadError Unit × PayloadRing :=
  match ring.peers.nodes.get voter with
  | none => (.error .unknownHolder, ring)
  | some node =>
    let deleted :=
      { ring with
        plane := ring.plane.deleteFragment node
          (consensusFragmentKey sha256 hash group configurationGeneration request slot) }
    match reply with
    | .answered => (.ok (), deleted)
    | .failed message landed => (.error (.transport message), if landed then deleted else ring)

end PayloadRing

/-- One call that changes the peer maps or the stored fragments. -/
inductive RingEvent where
  | register (voter : Nat) (node : String)
  | publish (voters : List Nat)
  | store (voter : Nat) (representation : PayloadRepresentation) (reply : FragmentReply)
  | delete (voter : Nat) (hash : Digest) (group : String) (configurationGeneration : Nat)
      (request : RequestId) (slot : Nat) (reply : FragmentReply)

namespace RingEvent

/-- Effect of one call; a refused call changes nothing. -/
def apply (ring : PayloadRing) : RingEvent → PayloadRing
  | register voter node =>
    match ring.peers.registerPayloadPeer voter node with
    | .error _ => ring
    | .ok peers => { ring with peers }
  | publish voters => ring.publish voters
  | store voter representation reply => (ring.store sha256 crc32c voter representation reply).2
  | delete voter hash group configurationGeneration request slot reply =>
    (ring.delete sha256 voter hash group configurationGeneration request slot reply).2

/-- What every stored representation satisfies: machine ranges, and a group name that fits the
layout, as every hosted group's name does. -/
def Admissible : RingEvent → Prop
  | store _ representation _ => Representable representation ∧ ShortGroup representation
  | _ => True

end RingEvent

/-- What a list of events leaves. -/
def runRing (ring : PayloadRing) (events : List RingEvent) : PayloadRing :=
  events.foldl (RingEvent.apply sha256 crc32c) ring

/-- A ring of named nodes without payloads. -/
def PayloadRing.start (names : List String) : PayloadRing :=
  ⟨PayloadPeers.canonical names, fun _ _ => none⟩

/-- Every fragment file holds a representation stored under its own slot. -/
def Framed (ring : PayloadRing) : Prop :=
  ∀ node key raw, ring.plane node key = some raw →
    ∃ representation, Representable representation ∧ ShortGroup representation ∧
      key = (representationRecord sha256 crc32c representation).key ∧
      raw = fragmentFile (encodeRepresentation representation)
        (crc32c (encodeRepresentation representation))

variable {sha256 crc32c} {ring : PayloadRing} {representation : PayloadRepresentation}
  {hash : Digest} {group : String} {configurationGeneration voter : Nat} {request : RequestId}

theorem Framed.write_some (framed : Framed sha256 crc32c ring) (node : String)
    (ranges : Representable representation) (short : ShortGroup representation) :
    Framed sha256 crc32c
      { ring with
        plane := ring.plane.storeFragment node
          (representationRecord sha256 crc32c representation) } := by
  intro other key raw held
  simp only [FragmentPlane.storeFragment, FragmentPlane.write] at held
  split at held
  · rename_i same
    cases held
    exact ⟨representation, ranges, short, same.2, rfl⟩
  · exact framed other key raw held

theorem Framed.write_none (framed : Framed sha256 crc32c ring) (node : String)
    (deleted : Cluster.FragmentKey) :
    Framed sha256 crc32c { ring with plane := ring.plane.deleteFragment node deleted } := by
  intro other key raw held
  simp only [FragmentPlane.deleteFragment, FragmentPlane.write] at held
  split at held
  · cases held
  · exact framed other key raw held

theorem Framed.apply (framed : Framed sha256 crc32c ring) {event : RingEvent}
    (admissible : event.Admissible) : Framed sha256 crc32c (event.apply sha256 crc32c ring) := by
  cases event with
  | register voter node =>
    simp only [RingEvent.apply]
    split
    · exact framed
    · exact framed
  | publish voters =>
    intro node key raw held
    rw [RingEvent.apply, (ring.publish_frame voters).1] at held
    exact framed node key raw held
  | store voter representation reply =>
    simp only [RingEvent.apply, PayloadRing.store]
    have written := fun node => framed.write_some node admissible.1 admissible.2
    split
    · exact framed
    cases reply with
    | answered => exact written _
    | failed message landed =>
      cases landed with
      | false => exact framed
      | true => exact written _
  | delete voter hash group generation request slot reply =>
    simp only [RingEvent.apply, PayloadRing.delete]
    split
    · exact framed
    cases reply with
    | answered => exact framed.write_none _ _
    | failed message landed =>
      cases landed with
      | false => exact framed
      | true => exact framed.write_none _ _

theorem Framed.run (framed : Framed sha256 crc32c ring) {events : List RingEvent}
    (admissible : ∀ event ∈ events, event.Admissible) :
    Framed sha256 crc32c (runRing sha256 crc32c ring events) := by
  induction events generalizing ring with
  | nil => exact framed
  | cons event rest ih =>
    have first := framed.apply (admissible event mem_cons_self)
    exact ih first (forall_mem_cons.mp admissible).2

theorem framed_start (names : List String) : Framed sha256 crc32c (.start names) := by
  intro node key raw held
  cases held

variable {slot : Nat} {node : String} {loaded : PayloadRepresentation}

theorem PayloadRing.shortGroup_of_load
    (answer : ring.load sha256 crc32c voter hash group configurationGeneration request none =
      .ok (some loaded)) : ShortGroup loaded := by
  simp only [PayloadRing.load] at answer
  split at answer
  · split at answer
    · cases answer
    · cases answer
    · rename_i fragment _
      cases decoded : decodeRepresentation crc32c hash fragment with
      | error error => simp [decoded, Except.map] at answer
      | ok representation =>
        simp only [decoded, Except.map, Except.ok.injEq, Option.some.injEq] at answer
        exact answer ▸ shortGroup_of_decode decoded
  · cases answer

/-- In a framed ring a load answers nothing, or a representation of the published slot. -/
theorem Framed.slot_of_load (framed : Framed sha256 crc32c ring)
    (answer : ring.load sha256 crc32c voter hash group configurationGeneration request none =
      .ok (some loaded)) : ring.peers.slots.get voter = some loaded.slot := by
  cases node_eq : ring.peers.nodes.get voter with
  | none => simp [PayloadRing.load, node_eq] at answer
  | some node =>
    cases slot_eq : ring.peers.slots.get voter with
    | none => simp [PayloadRing.load, node_eq, slot_eq] at answer
    | some slot =>
      simp only [PayloadRing.load, node_eq, slot_eq, FragmentPlane.loadFragment] at answer
      cases held : ring.plane node
          (consensusFragmentKey sha256 hash group configurationGeneration request slot) with
      | none => simp [held] at answer
      | some raw =>
        obtain ⟨stored, ranges, short, key_eq, raw_eq⟩ := framed _ _ _ held
        simp only [held, raw_eq, splitTrailer_fragmentFile, Except.map,
          decodeRepresentation_encode crc32c hash ranges short] at answer
        split_ifs at answer with same
        · cases answer
          have slot_eq := congrArg Cluster.FragmentKey.index key_eq
          exact congrArg some slot_eq

theorem PayloadRing.store_ok {reply : FragmentReply}
    (success : (ring.store sha256 crc32c voter representation reply).1 = .ok ()) :
    ∃ node, ring.peers.nodes.get voter = some node ∧
      (ring.store sha256 crc32c voter representation reply).2 =
        { ring with
          plane := ring.plane.storeFragment node
            (representationRecord sha256 crc32c representation) } := by
  rw [PayloadRing.store] at success ⊢
  cases node_eq : ring.peers.nodes.get voter with
  | none => simp [node_eq] at success
  | some node =>
    cases reply with
    | answered => exact ⟨node, rfl, rfl⟩
    | failed message landed => simp [node_eq] at success

/-- After a successful store and any publications, a load of the same representation answers it
exactly when the published slot of the voter is the one that the certificate gives it and the group
name fits the layout. -/
theorem load_after_store_iff (sha256 : Bytes → Digest) (crc32c : Bytes → UInt32)
    (names : List String) (history : List RingEvent)
    (admissible : ∀ event ∈ history, event.Admissible) (voter : Nat)
    (representation : PayloadRepresentation) (ranges : Representable representation)
    (certificate : PayloadCertificate)
    (placed : slotOf certificate.voters voter = some representation.slot) (reply : FragmentReply)
    (success : ((runRing sha256 crc32c (.start names) history).store sha256 crc32c voter
      representation reply).1 = .ok ()) (publications : List (List Nat)) :
    let stored := ((runRing sha256 crc32c (.start names) history).store sha256 crc32c voter
      representation reply).2
    let ring := stored.publishAll publications
    ring.load sha256 crc32c voter representation.hash representation.group
        representation.configurationGeneration representation.request none =
        .ok (some representation) ↔
      ring.peers.slots.get voter = slotOf certificate.voters voter ∧
        (asBytes representation.group).length < 2 ^ 32 := by
  intro stored ring
  obtain ⟨node, node_eq, stored_eq⟩ := PayloadRing.store_ok success
  obtain ⟨plane_eq, nodes_eq⟩ := stored.publishAll_frame publications
  have before : Framed sha256 crc32c _ := (framed_start names).run admissible
  change stored = _ at stored_eq
  rw [placed]
  constructor
  · intro answer
    -- Only a name that fits is ever decoded, so the record just written is framed as well.
    have short := PayloadRing.shortGroup_of_load answer
    have framed : Framed sha256 crc32c stored := by
      rw [stored_eq]
      exact before.write_some node ranges short
    have published : Framed sha256 crc32c ring := by
      intro other key raw held
      exact framed other key raw (plane_eq ▸ held)
    exact ⟨published.slot_of_load answer, short⟩
  · rintro ⟨slot_eq, short⟩
    have node_of_voter : ring.peers.nodes.get voter = some node := by
      rw [nodes_eq, stored_eq]
      exact node_eq
    have held : ring.plane node (representationRecord sha256 crc32c representation).key =
        some (fragmentFile (encodeRepresentation representation)
          (crc32c (encodeRepresentation representation))) := by
      rw [plane_eq, stored_eq]
      exact FragmentPlane.write_self _ _ _ _
    simp only [representationRecord, FragmentRecord.new] at held
    simp only [PayloadRing.load, node_of_voter, slot_eq, FragmentPlane.loadFragment, held,
      splitTrailer_fragmentFile, Except.map, decodeRepresentation_encode crc32c _ ranges short,
      if_true]

end Transport

/-- SHA-256 on the group name of the example. -/
def groupSha256 (bytes : Bytes) : Digest :=
  if bytes = asBytes "timeline/acme/main" then
    digestOfHex "2c24f414d13b31924b3c1d6a0f20ba99285724e3234b86cdbe6e52c0ac912a04"
  else digestOfHex "27a75a1c9d8f31b0bc4ca4889e25fe6413f00d78d8578a36e4cce1c38c452e45"

/-- CRC-32C on the encoded record of the example. -/
def recordCrc32c (_ : Bytes) : UInt32 := 0x4757510c

/-- Voters after `cache-d` has replaced `cache-a`. -/
def targetVoters : List Nat :=
  [11068879831952727406, 11068880931464355617, 11068882030975983828]

/-- Certificate that a repair builds for the target voters. -/
def targetCertificate : PayloadCertificate where
  mode := .complete
  k := 2
  m := 1
  voters := targetVoters
  holders := targetVoters
  k_pos := Nat.two_pos
  voters_length := rfl
  voters_ne_zero := by decide
  voters_nodup := by decide
  holders_sorted := by decide
  holders_subset := fun _ member => member
  durable := by decide

/-- Copy that the repair stores on `cache-d`. -/
def targetCopy : PayloadRepresentation where
  term := 0
  index := 0
  group := "timeline/acme/main"
  configurationGeneration := 3
  mode := .complete
  hash := digestOfHex "27a75a1c9d8f31b0bc4ca4889e25fe6413f00d78d8578a36e4cce1c38c452e45"
  request := 9
  length := 3
  slot := 2
  bytes := asBytes "wal"

def registeredRing : PayloadRing :=
  runRing groupSha256 recordCrc32c (.start ["cache-a", "cache-b", "cache-c"])
    [.register 11068882030975983828 "cache-d"]

theorem targetCopy_representable : Representable targetCopy := by
  constructor <;> decide

/-- A voter that is registered but not yet published can be stored to and not loaded from. -/
theorem unpublished_voter_not_loaded :
    slotOf targetCertificate.voters 11068882030975983828 = some targetCopy.slot ∧
      (registeredRing.store groupSha256 recordCrc32c 11068882030975983828 targetCopy
        .answered).1 = .ok () ∧
      (registeredRing.store groupSha256 recordCrc32c 11068882030975983828 targetCopy
        .answered).2.load groupSha256 recordCrc32c 11068882030975983828 targetCopy.hash
        targetCopy.group targetCopy.configurationGeneration targetCopy.request none =
        .error .unknownHolder := by
  refine ⟨by decide, ?_, ?_⟩
  · rfl
  · rfl

/-- Once the target voters are published, the copy on the new voter is loaded. -/
theorem load_after_store_iff_published :
    ((registeredRing.store groupSha256 recordCrc32c 11068882030975983828 targetCopy
        .answered).2.publishAll [targetVoters]).load groupSha256 recordCrc32c
        11068882030975983828 targetCopy.hash targetCopy.group
        targetCopy.configurationGeneration targetCopy.request none =
      .ok (some targetCopy) :=
  (load_after_store_iff groupSha256 recordCrc32c ["cache-a", "cache-b", "cache-c"]
    [.register 11068882030975983828 "cache-d"] (by simp [RingEvent.Admissible])
    11068882030975983828 targetCopy targetCopy_representable targetCertificate (by decide)
    .answered rfl [targetVoters]).mpr ⟨by rfl, by decide +kernel⟩

end Verglas.CacheNode
