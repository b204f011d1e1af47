import Mathlib.Algebra.GroupWithZero.Nat
import Mathlib.Logic.Relation

/-!
# Foreground activity

An operation counts itself in flight before it asks whether the node accepts work, and a fence
closes admission under a generation of its own.  A snapshot reads the count, the admission and the
generation one after another: an operation and a fence that come between the first read and the
second make it report an idle node while the operation runs.

The accesses to the atomics are taken as interleaved, also where the source asks for less than that:
a snapshot loads the count with acquire ordering.
-/

namespace Verglas.Core

/-- The atomics of a tracker, and how many operations stand where. -/
structure ActivityTracker where
  accepting : Bool := true
  generation : Nat := 0
  inflight : Nat := 0
  /-- A fence has raised the generation and not closed admission; it holds the fence lock. -/
  fencing : Bool := false
  /-- Counted in flight and about to ask for admission. -/
  counted : Nat := 0
  /-- Refused and about to be counted down. -/
  refused : Nat := 0
  running : Nat := 0
  deriving DecidableEq, Repr

namespace ActivityTracker

/-- One access to the atomics; only the fences that `lifts` allows are lifted.  Fences and `unfence`
calls without effect are not steps. -/
inductive Step (lifts : Nat → Prop) (tracker : ActivityTracker) : ActivityTracker → Prop
  | count : Step lifts tracker
      { tracker with inflight := tracker.inflight + 1, counted := tracker.counted + 1 }
  | start {counted : Nat} (asks : tracker.counted = counted + 1) (open_ : tracker.accepting) :
      Step lifts tracker { tracker with counted, running := tracker.running + 1 }
  | refuse {counted : Nat} (asks : tracker.counted = counted + 1) (closed : ¬tracker.accepting) :
      Step lifts tracker { tracker with counted, refused := tracker.refused + 1 }
  | uncount {refused : Nat} (leaves : tracker.refused = refused + 1) :
      Step lifts tracker { tracker with inflight := tracker.inflight - 1, refused }
  | finish {running : Nat} (ends : tracker.running = running + 1) :
      Step lifts tracker { tracker with inflight := tracker.inflight - 1, running }
  | fence (free : ¬tracker.fencing) (open_ : tracker.accepting) :
      Step lifts tracker
        { tracker with generation := (tracker.generation + 1) % 2 ^ 64, fencing := true }
  | close (locked : tracker.fencing) :
      Step lifts tracker { tracker with accepting := false, fencing := false }
  | unfence (free : ¬tracker.fencing) (closed : ¬tracker.accepting)
      (lifted : lifts tracker.generation) : Step lifts tracker { tracker with accepting := true }

/-- Any number of steps. -/
def Run (lifts : Nat → Prop) : ActivityTracker → ActivityTracker → Prop :=
  Relation.ReflTransGen (Step lifts)

end ActivityTracker

/-- What a snapshot reports. -/
structure ActivitySnapshot where
  accepting : Bool
  generation : Nat
  /-- No operation was counted in flight. -/
  idle : Bool
  deriving DecidableEq, Repr

/-- A snapshot reads the count, the admission and the generation in three states of the tracker. -/
def ActivityTracker.snapshot (first second third : ActivityTracker) : ActivitySnapshot where
  accepting := second.accepting
  generation := third.generation
  idle := first.inflight = 0

namespace ActivityTracker

/-- Every operation that runs is counted; a fence that has not closed admission finds it open. -/
structure Counted (tracker : ActivityTracker) : Prop where
  inflight : tracker.inflight = tracker.counted + tracker.refused + tracker.running
  fencing : tracker.fencing → tracker.accepting

variable {lifts : Nat → Prop} {before after : ActivityTracker} {generation : Nat}

theorem Run.counted (run : Run lifts {} after) : after.Counted := by
  induction run with
  | refl => exact ⟨rfl, nofun⟩
  | tail _ happens counted =>
    obtain ⟨inflight, fencing⟩ := counted
    cases happens with
    | count | uncount | finish | start | refuse => exact ⟨by simp only; omega, fencing⟩
    | fence free open_ => exact ⟨inflight, fun _ => open_⟩
    | close => exact ⟨inflight, nofun⟩
    | unfence => exact ⟨inflight, fun _ => rfl⟩

/-- The fence of a generation stands and no operation runs. -/
structure Stopped (generation : Nat) (tracker : ActivityTracker) : Prop where
  closed : tracker.accepting = false
  generation_eq : tracker.generation = generation
  settled : tracker.fencing = false
  running : tracker.running = 0

theorem Stopped.run (stopped : Stopped generation before)
    (run : Run (· ≠ generation) before after) : Stopped generation after := by
  induction run with
  | refl => exact stopped
  | tail _ happens stopped =>
    obtain ⟨closed, generation_eq, settled, running⟩ := stopped
    cases happens with
    | count | refuse | uncount => exact ⟨closed, generation_eq, settled, running⟩
    | start asks open_ | fence free open_ => exact nomatch closed.symm.trans open_
    | finish ends => exact nomatch running.symm.trans ends
    | close locked => exact nomatch settled.symm.trans locked
    | unfence free closed lifted => exact absurd generation_eq lifted

/-- If the fence that a snapshot reports stands when the snapshot reads the count, an idle snapshot
means that no operation runs until the fence is lifted. -/
theorem idle_snapshot_is_stopped {first second third later : ActivityTracker}
    (start : Run (fun _ => True) {} first) (asked : Run (· ≠ generation) first second)
    (answered : Run (· ≠ generation) second third) (after : Run (· ≠ generation) third later)
    (report : snapshot first second third = ⟨false, generation, true⟩)
    (stands : first.accepting = false ∧ first.generation = generation) : later.running = 0 := by
  have idle : first.inflight = 0 := of_decide_eq_true (congrArg ActivitySnapshot.idle report)
  obtain ⟨inflight, fencing⟩ := start.counted
  have settled : first.fencing = false :=
    Bool.eq_false_iff.mpr fun locked => nomatch stands.1.symm.trans (fencing locked)
  have stopped : Stopped generation first := ⟨stands.1, stands.2, settled, by omega⟩
  exact (stopped.run ((asked.trans answered).trans after)).running

/-- An operation starts and the node is fenced between the first read of a snapshot and the others.
-/
theorem idle_snapshot_while_running :
    ∃ tracker, Run (fun _ => True) {} tracker ∧
      snapshot {} tracker tracker = ⟨false, 1, true⟩ ∧ tracker.running = 1 := by
  have start : Run (fun _ => True) {} {} := .refl
  exact ⟨_, (((start.tail .count).tail (.start rfl rfl)).tail (.fence nofun rfl)).tail (.close rfl),
    rfl, rfl⟩

/-- An operation ends behind the fence, and another one asks for admission between two reads of the
snapshot and is refused. -/
theorem idle_snapshot_is_stopped_fenced :
    let first : ActivityTracker := { accepting := false, generation := 1 }
    let second : ActivityTracker := { first with inflight := 1, counted := 1 }
    let third : ActivityTracker := { first with inflight := 1, refused := 1 }
    Run (fun _ => True) {} first ∧ Run (· ≠ 1) first second ∧ Run (· ≠ 1) second third ∧
      snapshot first second third = ⟨false, 1, true⟩ ∧ third.running = 0 := by
  intro first second third
  have started : Run (fun _ => True) {} _ := .tail (.single .count) (.start rfl rfl)
  have fenced := (started.tail (.fence nofun rfl)).tail (.close rfl)
  have ended : Run (fun _ => True) {} first := fenced.tail (.finish rfl)
  have asked : Run (· ≠ 1) first second := .single .count
  have answered : Run (· ≠ 1) second third := .single (.refuse rfl nofun)
  exact ⟨ended, asked, answered, rfl,
    idle_snapshot_is_stopped ended asked answered .refl rfl ⟨rfl, rfl⟩⟩

end ActivityTracker
end Verglas.Core
