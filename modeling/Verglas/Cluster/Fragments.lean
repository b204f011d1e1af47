import Verglas.Consensus.Command
import Verglas.Lib.Endian

/-!
# Fragment files of one node

A node keeps each fragment in a file of its own: the payload followed by a four-byte checksum, so a
load can tell a flipped bit from the payload that was stored.  The checksum is a parameter `crc32c`.

A fragment path is an injective spelling of the fragment identity, so the store is keyed by the
identity itself.
-/

namespace Verglas.Cluster

open Consensus

/-- One fragment of an object. -/
structure FragmentKey where
  objectId : String
  index : Nat
  deriving DecidableEq

/-- The bytes of a fragment with the checksum that was stored beside them. -/
structure LoadedFragment where
  bytes : Bytes
  checksum : UInt32
  deriving DecidableEq

/-- A fragment as it travels and lies on disk. -/
structure FragmentRecord where
  key : FragmentKey
  bytes : Bytes
  checksum : UInt32
  deriving DecidableEq

/-- Why a fragment store refuses. -/
inductive FragmentIoError where
  | io (message : String)
  | full (needed available : Nat)
  deriving DecidableEq, Repr

def FragmentIoError.describe : FragmentIoError → String
  | .io message => "fragment store: " ++ message
  | .full needed available =>
    "fragment store full: " ++ toString needed ++ " bytes needed, " ++ toString available ++
      " available under the budget"

/-- What happens to one request to a node's fragment store: it answers, or it fails with a message
and may have taken effect. -/
inductive FragmentReply where
  | answered
  | failed (message : String) (landed : Bool)
  deriving DecidableEq, Repr

def checksumTrailerLen : Nat := 4

section Checksum

variable (crc32c : Bytes → UInt32)

/-- The bytes match the checksum that was stored with them. -/
def LoadedFragment.isHealthy (loaded : LoadedFragment) : Bool :=
  crc32c loaded.bytes = loaded.checksum

def FragmentRecord.new (key : FragmentKey) (bytes : Bytes) : FragmentRecord :=
  ⟨key, bytes, crc32c bytes⟩

end Checksum

/-- A fragment file: the bytes and a checksum trailer. -/
def fragmentFile (bytes : Bytes) (checksum : UInt32) : Bytes :=
  bytes ++ Endian.toLe checksumTrailerLen checksum.toNat

/-- Take a fragment file apart. -/
def splitTrailer (raw : Bytes) : Except FragmentIoError LoadedFragment :=
  if raw.length < checksumTrailerLen then
    .error (.io "fragment is too short for a checksum trailer")
  else
    let cut := raw.length - checksumTrailerLen
    .ok ⟨raw.take cut, UInt32.ofNat (Endian.ofLe (raw.drop cut))⟩

theorem splitTrailer_fragmentFile (bytes : Bytes) (checksum : UInt32) :
    splitTrailer (fragmentFile bytes checksum) = .ok ⟨bytes, checksum⟩ := by
  have length : (fragmentFile bytes checksum).length = bytes.length + checksumTrailerLen := by
    simp [fragmentFile]
  have cut : (fragmentFile bytes checksum).length - checksumTrailerLen = bytes.length := by
    omega
  have trailer : Endian.ofLe (Endian.toLe checksumTrailerLen checksum.toNat) = checksum.toNat :=
    Endian.ofLe_toLe checksum.toNat_lt
  rw [splitTrailer, if_neg (by omega), cut]
  simp [fragmentFile, trailer]

/-- Fragment files of every node, by node name. -/
def FragmentPlane := String → FragmentKey → Option Bytes

namespace FragmentPlane

/-- Replace what a node holds under a key. -/
def write (plane : FragmentPlane) (node : String) (key : FragmentKey) (file : Option Bytes) :
    FragmentPlane :=
  fun other otherKey => if other = node ∧ otherKey = key then file else plane other otherKey

@[simp] theorem write_self (plane : FragmentPlane) (node : String) (key : FragmentKey)
    (file : Option Bytes) : plane.write node key file node key = file := by
  simp [write]

/-- Write a fragment file at a node. -/
def storeFragment (plane : FragmentPlane) (node : String) (record : FragmentRecord) :
    FragmentPlane :=
  plane.write node record.key (some (fragmentFile record.bytes record.checksum))

/-- Load a fragment from a node; a short file is an error. -/
def loadFragment (plane : FragmentPlane) (node : String) (key : FragmentKey) :
    Except FragmentIoError (Option LoadedFragment) :=
  match plane node key with
  | none => .ok none
  | some raw => (splitTrailer raw).map some

/-- Remove a fragment file from a node. -/
def deleteFragment (plane : FragmentPlane) (node : String) (key : FragmentKey) : FragmentPlane :=
  plane.write node key none

end FragmentPlane

end Verglas.Cluster
