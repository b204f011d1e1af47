import Mathlib.Data.List.Induction
import Mathlib.Data.List.MinMax
import Mathlib.Data.Prod.Lex

/-!
# The prefetch queue

Producers submit fills with a priority, and workers take the fill of the highest priority, the
oldest first.  A full queue drops a fill that outranks nothing in it.  A fill that outranks the
least of the queue is pushed all the same, and nothing leaves the queue for it.
-/

namespace Verglas.Tables

open List

/-- The producers of fills, the least valuable first. -/
inductive PrefetchPriority where
  | prewarm | onboarding | compactionRepair | organic
  deriving DecidableEq, Repr

instance : LinearOrder PrefetchPriority :=
  LinearOrder.lift' PrefetchPriority.ctorIdx
    (by rintro ⟨⟩ ⟨⟩ <;> first | exact fun _ => rfl | nofun)

/-- A queued fill. -/
structure Queued (Fill : Type*) where
  priority : PrefetchPriority
  seq : Nat
  fill : Fill

variable {Fill : Type*}

/-- The highest priority first and, within a priority, the lowest sequence number. -/
def Queued.rank (queued : Queued Fill) : PrefetchPriority ×ₗ ℕᵒᵈ :=
  toLex (queued.priority, .toDual queued.seq)

/-- The queue of fills with its counters. -/
structure PrefetchExecutor (Fill : Type*) where
  /-- The binary heap, in any order. -/
  queue : List (Queued Fill) := []
  submitted : Nat := 0
  dropped : Nat := 0

/-- What takes the lock of the queue; a submission has drawn its sequence number before. -/
inductive PrefetchEvent (Fill : Type*) where
  | submit (seq : Nat) (priority : PrefetchPriority) (fill : Fill)
  | pop

namespace PrefetchExecutor

variable (maxQueue : Nat) (executor : PrefetchExecutor Fill)

/-- Queue a fill; a full queue drops it unless its priority is above the least that is queued. -/
def submit (seq : Nat) (priority : PrefetchPriority) (fill : Fill) : PrefetchExecutor Fill :=
  if max maxQueue 1 ≤ executor.queue.length ∧
      (executor.queue.map Queued.priority).min?.any (priority ≤ ·) then
    { executor with dropped := executor.dropped + 1 }
  else
    { executor with
      queue := ⟨priority, seq, fill⟩ :: executor.queue
      submitted := executor.submitted + 1 }

/-- A worker takes the next fill. -/
def pop : PrefetchExecutor Fill :=
  match executor.queue.argmax Queued.rank with
  | none => executor
  | some top => { executor with queue := executor.queue.eraseP (·.rank = top.rank) }

def handle : PrefetchEvent Fill → PrefetchExecutor Fill
  | .submit seq priority fill => executor.submit maxQueue seq priority fill
  | .pop => executor.pop

def run (events : List (PrefetchEvent Fill)) : PrefetchExecutor Fill :=
  events.foldl (handle maxQueue) {}

theorem any_min_iff {priority : PrefetchPriority} :
    (executor.queue.map Queued.priority).min?.any (priority ≤ ·) ↔
      executor.queue ≠ [] ∧ ∀ queued ∈ executor.queue, priority ≤ queued.priority := by
  cases least : (executor.queue.map Queued.priority).min? with
  | none => simp [map_eq_nil_iff.mp (min?_eq_none_iff.mp least)]
  | some lowest =>
    have filled : executor.queue ≠ [] := by
      rintro empty
      simp [empty] at least
    simp [filled, le_min?_iff least]

/-- While no fill that is submitted to a full queue outranks one in it, the queue stays within its
ceiling.  A fill that is dropped never outranks one in the queue. -/
theorem prefetch_queue_bounded (events : List (PrefetchEvent Fill)) :
    ((∀ front back seq priority fill, events = front ++ .submit seq priority fill :: back →
        max maxQueue 1 ≤ (run maxQueue front).queue.length →
          ∀ queued ∈ (run maxQueue front).queue, priority ≤ queued.priority) →
      (run maxQueue events).queue.length ≤ max maxQueue 1) ∧
      ∀ seq priority fill, ((run maxQueue events).submit maxQueue seq priority fill).dropped ≠
          (run maxQueue events).dropped →
        ∀ queued ∈ (run maxQueue events).queue, ¬queued.priority < priority := by
  constructor
  · induction events using reverseRecOn with
    | nil => exact fun _ => Nat.zero_le _
    | append_singleton events event induction =>
      intro yields
      have within := induction fun front back seq priority fill same =>
        yields front (back ++ [event]) seq priority fill (by rw [same, append_assoc]; rfl)
      rw [run, foldl_concat, ← run]
      cases event with
      | submit seq priority fill =>
        rw [handle, submit]
        split
        · exact within
        rename_i pushed
        refine Nat.lt_of_not_le fun full => pushed ⟨full, (any_min_iff _).mpr ⟨?_, ?_⟩⟩
        · exact ne_nil_of_length_pos (by omega)
        · exact yields events [] seq priority fill rfl full
      | pop =>
        rw [handle, pop]
        split
        · exact within
        · exact length_eraseP_le.trans within
  · intro seq priority fill dropped queued member
    rw [submit] at dropped
    split at dropped
    · rename_i refused
      exact (((any_min_iff _).mp refused.2).2 queued member).not_gt
    · exact absurd rfl dropped

/-- Two fills wait in a queue for one. -/
theorem prefetch_queue_overruns :
    (run 1 [.submit 0 .prewarm (), .submit 1 .organic ()]).queue.length = 2 := by
  decide

/-- A full queue drops the second fill and, after a pop, takes the third. -/
theorem prefetch_queue_bounded_shed :
    let events := [.submit 0 .organic (), .submit 1 .prewarm (), .pop, .submit 2 .prewarm ()]
    (run 1 events).dropped = 1 ∧ (run 1 events).queue.length ≤ 1 ∧
      ∀ queued ∈ (run 1 events).queue, ¬queued.priority < .prewarm := by
  obtain ⟨bounded, shed⟩ := prefetch_queue_bounded 1
    [.submit 0 .organic (), .submit 1 .prewarm (), .pop, .submit 2 .prewarm ()]
  refine ⟨by decide, bounded ?_, shed 3 .prewarm () (by decide)⟩
  intro front back seq priority fill same full queued _
  rcases front with _ | ⟨_, _ | ⟨_, _ | ⟨_, _ | ⟨_, rest⟩⟩⟩⟩ <;> injections
  · subst_vars
    cases full
  · subst_vars
    exact Nat.zero_le _
  · subst_vars
    cases full
  · simp at *

end PrefetchExecutor
end Verglas.Tables
