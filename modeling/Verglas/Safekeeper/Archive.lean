import Verglas.Consensus.Group

/-!
# Archived WAL

The safekeeper serves WAL from two places.  What the consensus group still retains comes from the
group; an older prefix comes from immutable archive objects that the group's checkpoints name.  The
object store is a parameter: a reader of whole objects for each bucket.
-/

namespace Verglas.Safekeeper

open Consensus

/-- Why an archive operation fails. -/
inductive ArchiveError where
  | invalidConfiguration
  | invalidRange
  | archivedCoverage
  | objectStore (message : String)
  | consensus (error : GroupError)
  deriving DecidableEq

/-- Immutable object identity computed from the exact committed segment bytes. -/
structure ArchiveObject where
  key : String
  hash : Digest
  length : Nat
  deriving DecidableEq

namespace ArchiveObject

/-- Reject bytes that differ from the committed identity. -/
def verifyBytes (sha256 : Bytes → Digest) (object : ArchiveObject) (bytes : Bytes) :
    Except ArchiveError Unit :=
  if bytes.length ≠ object.length ∨ sha256 bytes ≠ object.hash then
    .error (.objectStore "archive object does not match its committed identity")
  else .ok ()

end ArchiveObject

variable (sha256 : Bytes → Digest)

end Verglas.Safekeeper
