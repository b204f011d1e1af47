import Mathlib.Algebra.GroupWithZero.Nat
import Verglas.Lib.OrderedMap

/-!
# Capacity of the key-value log

Every put and delete appends a frame to one log.  A frame that does not fit makes the store compact
the log once, and only then it is refused.  Compaction writes one frame for every key of the index,
also for a key that was deleted.
-/

namespace Verglas.Kv

abbrev Bytes := List UInt8

/-- What a frame of the log holds beside its key. -/
structure DiskRecord where
  version : Nat
  modifiedAtMs : Nat
  expiresAtMs : Option Nat := none
  contentType : Option String := none
  metadata : List (String × String) := []
  value : Option Bytes := none
  idempotencyKey : Option String := none

namespace DiskRecord

variable (now : Nat) (record : DiskRecord)

/-- The record holds a value that has not expired. -/
def isLive : Bool := record.value.isSome && record.expiresAtMs.all (now < ·)

/-- The record that compaction writes: of an expired value only the retry identity is left. -/
def compacted : DiskRecord :=
  if !record.isLive now && record.value.isSome then
    { record with value := none, contentType := none, metadata := [], expiresAtMs := none }
  else record

/-- Reads or idempotent retries still depend on the record. -/
def Determines : Prop := record.isLive now ∨ record.idempotencyKey ≠ none

instance : Decidable (record.Determines now) := inferInstanceAs (Decidable (_ ∨ _))

end DiskRecord

/-- The preconditions of a put and what it stores beside the value. -/
structure PutOptions where
  createOnly : Bool := false
  ifMatch : Option String := none
  expiresAtMs : Option Nat := none
  contentType : Option String := none
  metadata : List (String × String) := []
  idempotencyKey : Option String := none

/-- How a call is refused. -/
inductive KvError where
  | invalid (message : String)
  | precondition
  | capacity
  deriving DecidableEq

/-- The locked state; the index holds the record of its frame. -/
structure State (Key : Type) [LinearOrder Key] where
  logBytes : Nat := 0
  nextVersion : Nat := 1
  index : OrderedMap Key DiskRecord := ∅
  idempotency : Key × String → Option Nat := fun _ => none

/-- The calls that change the store. -/
inductive KvCall (Key : Type) where
  | put (key : Key) (value : Bytes) (options : PutOptions)
  | delete (key : Key) (ifMatch : Option String)
  | compact

/-- The text of a version in a precondition. -/
def renderVersion (version : Nat) : String := "\"" ++ toString version ++ "\""

/-- Addition of machine words that stops at the largest. -/
def saturatingAdd (left right : Nat) : Nat := min (left + right) (2 ^ 64 - 1)

namespace State

variable {Key : Type} [LinearOrder Key] (frameBytes : Key → DiskRecord → Nat)
  (now capacity : Nat) (state : State Key)

/-- `compact_locked`: a new log with one frame for every key of the index. -/
def compact : State Key :=
  let entries := state.index.entries.map fun entry => (entry.1, entry.2.compacted now)
  { state with
    logBytes :=
      entries.foldl (fun total entry => saturatingAdd total (frameBytes entry.1 entry.2)) 0
    index := .ofList entries }

/-- Room for a frame, if need be after one compaction. -/
def appendWithCapacity (key : Key) (record : DiskRecord) : State Key × Except KvError Unit :=
  let frame := frameBytes key record
  if capacity < frame then (state, .error .capacity)
  else
    let state := if capacity < saturatingAdd state.logBytes frame then state.compact frameBytes now
      else state
    if capacity < saturatingAdd state.logBytes frame then (state, .error .capacity)
    else ({ state with logBytes := saturatingAdd state.logBytes frame }, .ok ())

/-- Append a record and index it. -/
def commit (key : Key) (record : DiskRecord) : State Key × Except KvError Unit :=
  match state.appendWithCapacity frameBytes now capacity key record with
  | (state, .error error) => (state, .error error)
  | (state, .ok ()) =>
    ({ state with
      nextVersion := saturatingAdd state.nextVersion 1
      index := state.index.insert key record
      idempotency := match record.idempotencyKey with
        | some retry => Function.update state.idempotency (key, retry) (some record.version)
        | none => state.idempotency }, .ok ())

/-- A retry with a known identity is answered without a new record. -/
def put (key : Key) (value : Bytes) (options : PutOptions) : State Key × Except KvError Unit :=
  if options.idempotencyKey.any fun retry => (state.idempotency (key, retry)).isSome then
    (state, .ok ())
  else
    let live := (state.index.get key).filter (·.isLive now)
    if options.createOnly && live.isSome ||
        options.ifMatch.any fun expected => live.all (renderVersion ·.version ≠ expected) then
      (state, .error .precondition)
    else
      state.commit frameBytes now capacity key
        { version := state.nextVersion, modifiedAtMs := now, expiresAtMs := options.expiresAtMs
          contentType := options.contentType, metadata := options.metadata, value := some value
          idempotencyKey := options.idempotencyKey }

/-- A tombstone, unless the key is not live anyway. -/
def delete (key : Key) (ifMatch : Option String) : State Key × Except KvError Unit :=
  let live := (state.index.get key).filter (·.isLive now)
  if ifMatch.any fun expected => live.all (renderVersion ·.version ≠ expected) then
    (state, .error .precondition)
  else if live.isNone then (state, .ok ())
  else
    state.commit frameBytes now capacity key
      { version := state.nextVersion, modifiedAtMs := now }

/-- One call at a clock reading and a ceiling. -/
def handle : KvCall Key → State Key
  | .put key value options => (state.put frameBytes now capacity key value options).1
  | .delete key ifMatch => (state.delete frameBytes now capacity key ifMatch).1
  | .compact => state.compact frameBytes now

/-- Calls one after the other, each with its clock reading and the ceiling of that moment. -/
def run (calls : List (Nat × Nat × KvCall Key)) : State Key :=
  calls.foldl (fun state call => state.handle frameBytes call.1 call.2.1 call.2.2) {}

/-- The bytes of the frames that compaction keeps, one for every key. -/
def keptBytes : Nat :=
  (state.index.entries.map fun entry => frameBytes entry.1 (entry.2.compacted now)).sum

/-- The bytes of the compacted frames that reads and retries still depend on. -/
def neededBytes : Nat :=
  ((state.index.entries.filter (·.2.Determines now)).map fun entry =>
    frameBytes entry.1 (entry.2.compacted now)).sum

theorem foldl_saturatingAdd_le {α : Type} (size : α → Nat) (list : List α) (start : Nat) :
    list.foldl (fun total item => saturatingAdd total (size item)) start ≤
      start + (list.map size).sum := by
  induction list generalizing start with
  | nil => simp
  | cons item rest ih =>
    have here : saturatingAdd start (size item) ≤ start + size item := min_le_left _ _
    have there := ih (saturatingAdd start (size item))
    rw [List.foldl_cons, List.map_cons, List.sum_cons]
    omega

theorem logBytes_compact_le :
    (state.compact frameBytes now).logBytes ≤ state.keptBytes frameBytes now := by
  have bound := foldl_saturatingAdd_le (fun entry : Key × DiskRecord => frameBytes entry.1 entry.2)
    (state.index.entries.map fun entry => (entry.1, entry.2.compacted now)) 0
  rw [List.map_map, Nat.zero_add] at bound
  exact bound

theorem keptBytes_eq (determines : ∀ entry ∈ state.index.entries, entry.2.Determines now) :
    state.keptBytes frameBytes now = state.neededBytes frameBytes now := by
  have all : state.index.entries.filter (·.2.Determines now) = state.index.entries :=
    List.filter_eq_self.mpr fun entry member => decide_eq_true (determines entry member)
  rw [neededBytes, all, keptBytes]

/-- A record is refused for its size only if it does not fit beside the frames that compaction
keeps.  While every key of the index is live or keeps a retry identity, these are the frames that
are still needed. -/
theorem capacity_refusal_is_needed (calls : List (Nat × Nat × KvCall Key)) (key : Key)
    (record : DiskRecord)
    (refused : ((run frameBytes calls).appendWithCapacity frameBytes now capacity key record).2 =
      .error .capacity) :
    capacity < (run frameBytes calls).keptBytes frameBytes now + frameBytes key record ∧
      ((∀ entry ∈ (run frameBytes calls).index.entries, entry.2.Determines now) →
        capacity < (run frameBytes calls).neededBytes frameBytes now + frameBytes key record) := by
  have kept : capacity <
      (run frameBytes calls).keptBytes frameBytes now + frameBytes key record := by
    rw [appendWithCapacity] at refused
    split at refused
    · omega
    dsimp only at refused
    split at refused
    · have bound := logBytes_compact_le frameBytes now (run frameBytes calls)
      split at refused
      · rename_i exceeds
        have sum := exceeds.trans_le (min_le_left _ _)
        omega
      · cases refused
    · cases refused
  exact ⟨kept, fun determines => keptBytes_eq frameBytes now _ determines ▸ kept⟩

/-- A frame of eight bytes and the value. -/
def refusedFrame (_ : Nat) (record : DiskRecord) : Nat := 8 + (record.value.getD []).length

/-- The only key was deleted, so nothing is needed; its frame is kept all the same, and a record of
the size of the ceiling is refused. -/
theorem capacity_refused_for_tombstone :
    let state := run refusedFrame [(0, 18, .put 0 [1, 2] {}), (1, 18, .delete 0 none)]
    state.neededBytes refusedFrame 2 = 0 ∧
      refusedFrame 1 ⟨3, 2, none, none, [], some (List.replicate 10 0), none⟩ = 18 ∧
      (state.put refusedFrame 2 18 1 (List.replicate 10 0) {}).2 = .error .capacity := by
  decide

/-- Key 0 was overwritten, and key 1 has expired and keeps its retry identity: their frames leave no
room for another one. -/
theorem capacity_refusal_is_needed_full :
    let state := run refusedFrame [(0, 30, .put 0 [1, 2] {}),
      (1, 30, .put 1 [3] { expiresAtMs := some 5, idempotencyKey := some "r" }),
      (2, 30, .put 0 [1, 2, 3] {})]
    state.logBytes = 30 ∧ state.neededBytes refusedFrame 9 = 19 ∧
      30 < state.neededBytes refusedFrame 9 + 14 :=
  ⟨by decide, by decide, (capacity_refusal_is_needed refusedFrame 9 30 _ 2
    ⟨4, 9, none, none, [], some [1, 2, 3, 4, 5, 6], none⟩ rfl).2 (by decide)⟩

end State
end Verglas.Kv
