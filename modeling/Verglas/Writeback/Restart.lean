import Verglas.Writeback.LastWrite
import Verglas.Writeback.KeySteps

/-!
# Reads across restarts

A restart keeps the journal files and the origin and forgets the pack index.  An acknowledged body
is read back after any number of restarts as long as no flush has packed its key and no other
operation on the key starts; a packed object cannot be found after a restart.
-/

namespace Verglas.Writeback

open Function

open Cache (ReadRange)

variable {staged : String → StagedObject} {limit : Nat} {key : CacheKey}
  {latest later : Option Bytes} {before after system : System}

variable {origin : CacheKey → Option Bytes}

/-- No operation on the key is in progress, and the body is what was written last. -/
structure Resting (staged : String → StagedObject) (key : CacheKey) (body : Bytes)
    (system : System) : Prop where
  consistent : Consistent staged system
  invariant : KeyInvariant staged key (some body) system
  quiet : ¬system.Busy staged key

/-- Operations on the key stay apart, and none starts. -/
def RestsOn (staged : String → StagedObject) (key : CacheKey) (system : System) (event : Event) :
    Prop :=
  Apart staged key system event ∧ NothingStarts staged key system event

variable {body : Bytes}

theorem Resting.step {body : Bytes} {event : Event} (resting : Resting staged key body before)
    (plain : ¬Reserved key.key) (happens : Step staged limit before event after)
    (rests : RestsOn staged key before event) :
    Resting staged key body after ∧
      (before.holder key = none → after.holder key = none) := by
  obtain ⟨later, _, calmly⟩ := resting.invariant.step resting.consistent plain happens rests.1
  have kept := calmly rests.2
  obtain ⟨later_eq, quiet, unheld⟩ := kept.calm resting.quiet
  subst later_eq
  exact ⟨⟨resting.consistent.step happens, kept.invariant, quiet⟩, unheld⟩

theorem Resting.run (resting : Resting staged key body before) (plain : ¬Reserved key.key)
    (run : Run staged limit (RestsOn staged key) before after) :
    Resting staged key body after ∧
      (before.holder key = none → after.holder key = none) := by
  induction run with
  | refl => exact ⟨resting, fun unheld => unheld⟩
  | step _ happens rests induction =>
    obtain ⟨rested, kept⟩ := induction
    obtain ⟨still, unheld⟩ := rested.step plain happens rests
    exact ⟨still, fun free => unheld (kept free)⟩

theorem Resting.getObject (resting : Resting staged key body system) {range : ReadRange}
    {served : Nat × Nat} (resolved : Cache.resolveRange range body.length = .ok served) :
    system.getObject staged key range = .ok ⟨served, slice body served⟩ := by
  have readable := resting.invariant.current body rfl
  have find_eq := JournalStore.findDirty_eq_holder system.journals key
  cases named : system.holder key with
  | some object =>
    obtain ⟨journal, found⟩ := Option.isSome_iff_exists.mp
      (resting.consistent.journals.indexed key object named).2
    have object_id := (resting.consistent.journals.named object journal found).1
    have body_eq := (readable.held object named).1
    have dirty : dirtyJournal system.journals key = some journal := by
      rw [dirtyJournal, find_eq.trans named]
      exact found
    rw [System.getObject, Writeback.getObject, dirty]
    dsimp only
    rw [object_id, body_eq, getReassembled_eq resolved]
  | none =>
    have clean := dirtyJournal_of_none (find_eq.trans named)
    rw [System.getObject, Writeback.getObject, clean, resting.invariant.unpacked]
    rw [innerGet, readable.unheld named]
    dsimp only
    rw [resolved]
    rfl

end Verglas.Writeback
