import Mathlib.Init

/-!
# Code that changes a state in place

A block of code reads and assigns a mutable state and may leave early with an exit value.  The
assignments that it has made by then stay.
-/

namespace Verglas

/-- Code over a state `σ` with results in `α` and exit values in `ε`. -/
abbrev InPlace (σ ε α : Type) := ExceptT ε (StateM σ) α

namespace InPlace

variable {σ ε α β : Type}

/-- Result or exit value of the code, and the state that it leaves. -/
def exec (code : InPlace σ ε α) (state : σ) : Except ε α × σ := (ExceptT.run code).run state

/-- The outcome of code that assigns a whole new state, or leaves the state as it was. -/
def allOrNothing (state : σ) : Except ε σ → Except ε PUnit × σ
  | .ok next => (.ok ⟨⟩, next)
  | .error exit => (.error exit, state)

@[simp] theorem exec_pure (value : α) (state : σ) :
    exec (pure value : InPlace σ ε α) state = (.ok value, state) := rfl

@[simp] theorem exec_throw (exit : ε) (state : σ) :
    exec (throw exit : InPlace σ ε α) state = (.error exit, state) := rfl

@[simp] theorem exec_get (state : σ) :
    exec (get : InPlace σ ε σ) state = (.ok state, state) := rfl

@[simp] theorem exec_set (next state : σ) :
    exec (set next : InPlace σ ε PUnit) state = (.ok ⟨⟩, next) := rfl

@[simp] theorem exec_modify (change : σ → σ) (state : σ) :
    exec (modify change : InPlace σ ε PUnit) state = (.ok ⟨⟩, change state) := rfl

/-- The code that follows sees the assignments made so far, unless the block has been left. -/
theorem exec_bind (code : InPlace σ ε α) (next : α → InPlace σ ε β) (state : σ) :
    exec (code >>= next) state =
      match exec code state with
      | (.ok value, after) => exec (next value) after
      | (.error exit, after) => (.error exit, after) := by
  change (ExceptT.bindCont next (exec code state).1).run (exec code state).2 = _
  cases executed : exec code state with
  | mk outcome after =>
    cases outcome with
    | ok value | error exit => rfl

theorem exec_map (change : α → β) (code : InPlace σ ε α) (state : σ) :
    exec (change <$> code) state = ((exec code state).1.map change, (exec code state).2) := by
  rw [map_eq_pure_bind, exec_bind]
  cases exec code state with
  | mk outcome after => cases outcome <;> rfl

@[simp] theorem exec_forM_nil (body : α → InPlace σ ε PUnit) (state : σ) :
    exec ([].forM body) state = (.ok ⟨⟩, state) := rfl

/-- A loop leaves with the first iteration that leaves. -/
theorem exec_forM_cons (body : α → InPlace σ ε PUnit) (item : α) (rest : List α) (state : σ) :
    exec ((item :: rest).forM body) state =
      match exec (body item) state with
      | (.ok _, after) => exec (rest.forM body) after
      | (.error exit, after) => (.error exit, after) := by
  rw [List.forM_eq_forM, List.forM_cons, exec_bind]
  cases exec (body item) state with
  | mk outcome after => cases outcome <;> rfl

end InPlace

end Verglas
