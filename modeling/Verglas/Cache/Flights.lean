import Mathlib.Data.List.Count
import Verglas.Cache.Range

/-!
# Single-flight fills

Concurrent readers that miss on the same thing share one fill.  The first one enters the fill into a
table and a task of its own runs it; the others find the entry and wait for the result.  When the
fill has ended the task removes the entry, gives back its slot in the count of what is in flight,
and hands out the result.  Over a bound on that count readers fill for themselves.
-/

namespace Verglas.Cache

open Function List

variable {Key Value : Type*}

/-- How far the task of a fill is. -/
inductive FlightPhase (Value : Type*) where
  | filling
  | filled (result : Except ReadError Value)
  | unlisted (result : Except ReadError Value)
  | released (result : Except ReadError Value)
  | finished (result : Except ReadError Value)

namespace FlightPhase

/-- The task has not removed the entry yet. -/
def listed : FlightPhase Value → Bool
  | .filling | .filled _ => true
  | .unlisted _ | .released _ | .finished _ => false

/-- The task has not given its slot back yet. -/
def slotted : FlightPhase Value → Bool
  | .filling | .filled _ | .unlisted _ => true
  | .released _ | .finished _ => false

/-- What the fill has given, once it has ended. -/
def outcome : FlightPhase Value → Option (Except ReadError Value)
  | .filling => none
  | .filled result | .unlisted result | .released result | .finished result => some result

end FlightPhase

/-- A fill that was entered into the table. -/
structure Flight (Key Value : Type*) where
  key : Key
  /-- The leader is served the chunks of the origin as they come. -/
  streaming : Bool
  phase : FlightPhase Value

/-- What became of a reader. -/
inductive FlightReader (Key Value : Type*) where
  | waiting (flight : Nat)
  | received (flight : Nat) (result : Except ReadError Value)
  /-- The leader of a streaming fill. -/
  | streaming (flight : Nat)
  /-- Filling for itself; in a task with a slot of its own if it is tracked. -/
  | bypassing (key : Key) (tracked : Bool)
  /-- Served without a fill, or gone. -/
  | apart

/-- Whether a reader holds a slot of its own. -/
def FlightReader.slotted : FlightReader Key Value → Bool
  | .bypassing _ tracked => tracked
  | _ => false

/-- The table of fills, every fill and reader there was, and the count of what is in flight. -/
structure InFlight (Key Value : Type*) where
  table : Key → Option Nat := fun _ => none
  flights : List (Flight Key Value) := []
  readers : List (FlightReader Key Value) := []
  size : Nat := 0
  /-- The tasks that store a block after it was served; they hold slots too. -/
  populating : Nat := 0

/-- What a reader does about a fill. -/
inductive FlightStart where
  | join (flight : Nat)
  | lead
  | bypass
  | aside
  deriving DecidableEq, Repr

/-- What a reader of a block knows besides the table. -/
structure BlockRequest where
  /-- Only a part of the block is wanted. -/
  part : Bool
  resident : Bool
  /-- The part was asked for before. -/
  repeated : Bool
  /-- A slot for background fills is free. -/
  slot : Bool

namespace InFlight

/-- Join the fill of a key, lead a new one, or fill apart when the bound is reached. -/
def startFlight (bound : Nat) (state : InFlight Key Value) (key : Key) :
    FlightStart :=
  match state.table key with
  | some flight => .join flight
  | none => if bound ≤ state.size then .bypass else .lead

/-- The same for a block that is served while it is filled. -/
def streamOrJoinBlockFill (bound : Nat) (state : InFlight Key Value) (key : Key)
    (request : BlockRequest) : FlightStart :=
  match state.table key with
  | some flight => if request.part then .aside else .join flight
  | none =>
    if request.resident then .aside
    else if bound ≤ state.size then if request.part then .aside else .bypass
    else if request.part && !request.repeated then .aside
    else if request.part && !request.slot then .aside
    else .lead

section Model

variable [DecidableEq Key]

/-- A reader acts on what it found. -/
def enter (state : InFlight Key Value) (key : Key) (streaming tracked : Bool) :
    FlightStart → InFlight Key Value
  | .join flight => { state with readers := state.readers ++ [.waiting flight] }
  | .lead =>
    { state with
      table := Function.update state.table key (some state.flights.length)
      flights := state.flights ++ [⟨key, streaming, .filling⟩]
      readers := state.readers ++
        [if streaming then .streaming state.flights.length else .waiting state.flights.length]
      size := state.size + 1 }
  | .bypass =>
    { state with
      readers := state.readers ++ [.bypassing key tracked]
      size := if tracked then state.size + 1 else state.size }
  | .aside => { state with readers := state.readers ++ [.apart] }

/-- The task of a flight moves on. -/
def proceed (state : InFlight Key Value) (id : Nat) (flight : Flight Key Value)
    (phase : FlightPhase Value) : InFlight Key Value :=
  { state with flights := state.flights.set id { flight with phase } }

/-- What those who wait are told about a fill that panicked. -/
def lost (flight : Flight Key Value) (join : String) : Except ReadError Value :=
  .error (.backend (if flight.streaming then "streaming fill task ended before completion"
    else "fill task failed: " ++ join))

/-- One step; the label says whether a task panics. -/
inductive Step (bound : Nat) (state : InFlight Key Value) : Bool → InFlight Key Value → Prop
  | arrive (key : Key) (tracked : Bool) :
      Step bound state false (state.enter key false tracked (state.startFlight bound key))
  | arriveBlock (key : Key) (request : BlockRequest) :
      Step bound state false
        (state.enter key true false (state.streamOrJoinBlockFill bound key request))
  | fill {id : Nat} {flight : Flight Key Value} (running : state.flights[id]? = some flight)
      (filling : flight.phase = .filling) (result : Except ReadError Value) :
      Step bound state false (state.proceed id flight (.filled result))
  | unlist {id : Nat} {flight : Flight Key Value} {result : Except ReadError Value}
      (running : state.flights[id]? = some flight) (ended : flight.phase = .filled result) :
      Step bound state false
        { state.proceed id flight (.unlisted result) with
          table := Function.update state.table flight.key none }
  | release {id : Nat} {flight : Flight Key Value} {result : Except ReadError Value}
      (running : state.flights[id]? = some flight) (removed : flight.phase = .unlisted result) :
      Step bound state false
        { state.proceed id flight (.released result) with size := state.size - 1 }
  | finish {id : Nat} {flight : Flight Key Value} {result : Except ReadError Value}
      (running : state.flights[id]? = some flight) (free : flight.phase = .released result) :
      Step bound state false (state.proceed id flight (.finished result))
  | panic {id : Nat} {flight : Flight Key Value} (running : state.flights[id]? = some flight)
      (filling : flight.phase = .filling) (join : String) :
      Step bound state true (state.proceed id flight (.finished (lost flight join)))
  | deliver {reader id : Nat} {flight : Flight Key Value} {result : Except ReadError Value}
      (waits : state.readers[reader]? = some (.waiting id))
      (found : state.flights[id]? = some flight) (finished : flight.phase = .finished result) :
      Step bound state false
        { state with readers := state.readers.set reader (.received id result) }
  /-- A reader is cancelled, or the fill that it runs itself has ended. -/
  | depart {reader : Nat} {left : FlightReader Key Value}
      (leaves : state.readers[reader]? = some left) (free : left.slotted = false) :
      Step bound state false { state with readers := state.readers.set reader .apart }
  | untrack {reader : Nat} {key : Key}
      (fills : state.readers[reader]? = some (.bypassing key true)) :
      Step bound state false
        { state with readers := state.readers.set reader .apart, size := state.size - 1 }
  | panicTracked {reader : Nat} {key : Key}
      (fills : state.readers[reader]? = some (.bypassing key true)) :
      Step bound state true { state with readers := state.readers.set reader .apart }
  | populate :
      Step bound state false
        { state with size := state.size + 1, populating := state.populating + 1 }
  | populated {rest : Nat} (busy : state.populating = rest + 1) :
      Step bound state false { state with size := state.size - 1, populating := rest }
  | panicPopulating {rest : Nat} (busy : state.populating = rest + 1) :
      Step bound state true { state with populating := rest }

/-- A run whose steps all have labels that are allowed. -/
inductive Run (bound : Nat) (Allowed : Bool → Prop) :
    InFlight Key Value → InFlight Key Value → Prop
  | refl {state : InFlight Key Value} : Run bound Allowed state state
  | step {start state after : InFlight Key Value} {panics : Bool}
      (run : Run bound Allowed start state) (happens : Step bound state panics after)
      (allowed : Allowed panics) : Run bound Allowed start after

/-- No task panics. -/
def Steady (panics : Bool) : Prop := panics = false

/-- What a reader knows of the flight that it joined. -/
def Answered (flights : List (Flight Key Value)) : FlightReader Key Value → Prop
  | .waiting id => ∃ flight, flights[id]? = some flight
  | .received id result => ∃ flight, flights[id]? = some flight ∧ flight.phase = .finished result
  | _ => True

/-- The slots in use are those of the tasks at work. -/
def Balanced (state : InFlight Key Value) : Prop :=
  state.size = state.flights.countP (fun flight => flight.phase.slotted) +
    state.readers.countP FlightReader.slotted + state.populating

/-- A reader can come to hold a result of the flight that it joined. -/
def Obtains (bound : Nat) (state : InFlight Key Value) (reader id : Nat)
    (result : Except ReadError Value) : Prop :=
  ∃ after, Run bound Steady state after ∧ after.readers[reader]? = some (.received id result)

/-- What single flight promises in a state. -/
structure Exact (bound : Nat) (state : InFlight Key Value) : Prop where
  /-- The readers that find the table below its bound run one fill of a key at a time. -/
  single : ∀ (left right : Nat) (first second : Flight Key Value),
    state.flights[left]? = some first → state.flights[right]? = some second →
    first.phase = .filling → second.phase = .filling → first.key = second.key → left = right
  /-- A reader that finds an entry joins it; one that wants a part of a block is served apart. -/
  joined : ∀ (key : Key) (id : Nat), state.table key = some id →
    state.startFlight bound key = .join id ∧ ∀ request : BlockRequest,
      state.streamOrJoinBlockFill bound key request = if request.part then .aside else .join id
  /-- A reader fills for itself only over the bound and when its key has no entry. -/
  bypassed : ∀ key : Key, (state.startFlight bound key = .bypass ∨
      ∃ request : BlockRequest, state.streamOrJoinBlockFill bound key request = .bypass) →
    state.table key = none ∧ bound ≤ state.size
  /-- A reader has received nothing but the result of the flight that it joined. -/
  answered : ∀ reader ∈ state.readers, Answered state.flights reader
  /-- A reader of a fill that has ended can still get its result. -/
  served : ∀ (reader id : Nat) (flight : Flight Key Value) (result : Except ReadError Value),
    state.readers[reader]? = some (.waiting id) → state.flights[id]? = some flight →
    flight.phase.outcome = some result → Obtains bound state reader id result
  /-- A task that is over has left no entry. -/
  unlisted : ∀ (id : Nat) (flight : Flight Key Value) (result : Except ReadError Value),
    state.flights[id]? = some flight → flight.phase = .finished result →
    state.table flight.key ≠ some id
  /-- A task that is over has left no slot. -/
  slots : state.Balanced
  /-- Once the fills of a key are off the table, the next reader leads a new one. -/
  renewed : ∀ key, (∀ flight ∈ state.flights, flight.key = key → flight.phase.listed = false) →
    state.size < bound →
    state.startFlight bound key = .lead ∧
      ∀ request : BlockRequest, request.part = false → request.resident = false →
        state.streamOrJoinBlockFill bound key request = .lead

end Model

/-- The table and the tasks agree. -/
structure Sound (state : InFlight Key Value) : Prop where
  /-- An entry is that of a task which has not removed it. -/
  listed : ∀ (key : Key) (id : Nat), state.table key = some id →
    ∃ flight, state.flights[id]? = some flight ∧ flight.key = key ∧ flight.phase.listed = true
  /-- A task that has not removed its entry finds it in the table. -/
  entered : ∀ (id : Nat) (flight : Flight Key Value), state.flights[id]? = some flight →
    flight.phase.listed = true → state.table flight.key = some id
  answered : ∀ reader ∈ state.readers, Answered state.flights reader
  slots : state.Balanced

theorem sound_start : ({} : InFlight Key Value).Sound where
  listed := by
    intro key id entry
    cases entry
  entered := by
    intro id flight found
    cases found
  answered := by
    intro reader mem
    cases mem
  slots := rfl

variable {reader : FlightReader Key Value}

/-- Readers keep what they know when flights are added or move on. -/
theorem Answered.mono {flights next : List (Flight Key Value)} (answered : Answered flights reader)
    (kept : ∀ (id : Nat) (flight : Flight Key Value), flights[id]? = some flight →
      ∃ later, next[id]? = some later ∧
      ∀ result, flight.phase = .finished result → later.phase = .finished result) :
    Answered next reader := by
  cases reader with
  | waiting id =>
    obtain ⟨flight, found⟩ := answered
    obtain ⟨later, present, -⟩ := kept id flight found
    exact ⟨later, present⟩
  | received id result =>
    obtain ⟨flight, found, finished⟩ := answered
    obtain ⟨later, present, stays⟩ := kept id flight found
    exact ⟨later, present, stays result finished⟩
  | streaming id | bypassing key tracked | apart => trivial

theorem countP_set_add {α : Type*} {p : α → Bool} {list : List α} {index : Nat} {old new : α}
    (found : list[index]? = some old) :
    (list.set index new).countP p + (if p old then 1 else 0) =
      list.countP p + (if p new then 1 else 0) := by
  obtain ⟨bound, rfl⟩ := List.getElem?_eq_some_iff.mp found
  have counted := @boole_getElem_le_countP _ p list index bound
  rw [countP_set bound]
  omega

section Steps

variable {bound : Nat} {state : InFlight Key Value} {id : Nat} {flight : Flight Key Value}
  {phase : FlightPhase Value}

theorem getElem?_proceed (running : state.flights[id]? = some flight) (other : Nat) :
    (state.proceed id flight phase).flights[other]? =
      if other = id then some { flight with phase } else state.flights[other]? := by
  obtain ⟨bound, -⟩ := List.getElem?_eq_some_iff.mp running
  by_cases same : other = id
  · subst same
    simp [proceed, bound]
  · simp [proceed, same, Ne.symm same]

theorem answered_proceed (running : state.flights[id]? = some flight)
    (atWork : ∀ result, flight.phase ≠ .finished result)
    (answered : Answered state.flights reader) :
    Answered (state.proceed id flight phase).flights reader := by
  refine answered.mono fun other found present => ?_
  rw [getElem?_proceed running]
  by_cases same : other = id
  · subst same
    obtain rfl : flight = found := Option.some.inj (running.symm.trans present)
    exact ⟨_, if_pos rfl, fun result finished => absurd finished (atWork result)⟩
  · exact ⟨found, by rw [if_neg same, present], fun _ finished => finished⟩

variable {size : Nat}

theorem Sound.proceed (sound : state.Sound) (running : state.flights[id]? = some flight)
    (atWork : ∀ result, flight.phase ≠ .finished result)
    (listing : phase.listed = flight.phase.listed)
    (freed : size + (if flight.phase.slotted then 1 else 0) =
      state.size + (if phase.slotted then 1 else 0)) :
    ({ state.proceed id flight phase with size } : InFlight Key Value).Sound where
  listed := by
    intro key entry present
    obtain ⟨owner, found, keyed, kept⟩ := sound.listed key entry present
    rw [getElem?_proceed running]
    by_cases same : entry = id
    · subst same
      obtain rfl : flight = owner := Option.some.inj (running.symm.trans found)
      exact ⟨_, if_pos rfl, keyed, listing.trans kept⟩
    · exact ⟨owner, by rw [if_neg same, found], keyed, kept⟩
  entered := by
    intro other later found kept
    rw [getElem?_proceed running] at found
    split at found
    · rename_i same
      cases found
      subst same
      exact sound.entered other flight running (listing.symm.trans kept)
    · exact sound.entered other later found kept
  answered := fun reader mem => answered_proceed running atWork (sound.answered reader mem)
  slots := by
    have moved := @countP_set_add _ (fun flight : Flight Key Value => flight.phase.slotted) _ _ _
      { flight with phase } running
    have balance := sound.slots
    simp only [Balanced, InFlight.proceed] at balance moved ⊢
    omega

theorem Sound.join (sound : state.Sound) {reader : FlightReader Key Value} {size : Nat}
    (known : Answered state.flights reader)
    (taken : size = state.size + (if reader.slotted then 1 else 0)) :
    ({ state with readers := state.readers ++ [reader], size } : InFlight Key Value).Sound where
  listed := sound.listed
  entered := sound.entered
  answered := forall_mem_append.mpr ⟨sound.answered, forall_mem_singleton.mpr known⟩
  slots := by
    have balance := sound.slots
    simp only [Balanced, countP_append, countP_singleton] at balance ⊢
    omega

theorem Sound.turn (sound : state.Sound) {index : Nat} {old new : FlightReader Key Value}
    (found : state.readers[index]? = some old) (known : Answered state.flights new)
    (freed : size + (if old.slotted then 1 else 0) = state.size + (if new.slotted then 1 else 0)) :
    ({ state with readers := state.readers.set index new, size } : InFlight Key Value).Sound where
  listed := sound.listed
  entered := sound.entered
  answered := by
    intro other mem
    rcases mem_or_eq_of_mem_set mem with earlier | rfl
    · exact sound.answered other earlier
    · exact known
  slots := by
    have moved := @countP_set_add _ FlightReader.slotted _ _ _ new found
    have balance := sound.slots
    simp only [Balanced] at balance moved ⊢
    omega

variable {key : Key}

theorem Sound.absent (sound : state.Sound)
    (gone : ∀ flight ∈ state.flights, flight.key = key → flight.phase.listed = false) :
    state.table key = none := by
  cases present : state.table key with
  | none => rfl
  | some id =>
    obtain ⟨flight, found, keyed, kept⟩ := sound.listed key id present
    rw [gone flight (mem_of_getElem? found) keyed] at kept
    cases kept

theorem startFlight_eq_join (found : state.startFlight bound key = .join id) :
    state.table key = some id := by
  unfold startFlight at found
  split at found
  · rename_i entry present
    cases found
    exact present
  · split at found <;> cases found

theorem startFlight_eq_lead (found : state.startFlight bound key = .lead) :
    state.table key = none := by
  unfold startFlight at found
  split at found
  · cases found
  · assumption

variable {request : BlockRequest}

theorem streamOrJoinBlockFill_eq_join
    (found : state.streamOrJoinBlockFill bound key request = .join id) :
    state.table key = some id := by
  unfold streamOrJoinBlockFill at found
  split at found
  · rename_i entry present
    split at found
    · cases found
    · cases found
      exact present
  · repeat' split at found
    all_goals cases found

theorem streamOrJoinBlockFill_eq_lead
    (found : state.streamOrJoinBlockFill bound key request = .lead) : state.table key = none := by
  unfold streamOrJoinBlockFill at found
  split at found
  · split at found <;> cases found
  · assumption

theorem bound_le_of_bypass
    (found : state.startFlight bound key = .bypass ∨
      ∃ request : BlockRequest, state.streamOrJoinBlockFill bound key request = .bypass) :
    state.table key = none ∧ bound ≤ state.size := by
  rcases found with found | ⟨request, found⟩
  · unfold startFlight at found
    split at found
    · cases found
    split at found
    · exact ⟨‹_›, ‹_›⟩
    · cases found
  · unfold streamOrJoinBlockFill at found
    split at found
    · split at found <;> cases found
    split at found
    · cases found
    split at found
    · exact ⟨‹_›, ‹_›⟩
    · repeat' split at found
      all_goals cases found

variable [DecidableEq Key]

theorem Sound.unlist (sound : state.Sound) {result : Except ReadError Value}
    (running : state.flights[id]? = some flight) (ended : flight.phase = .filled result) :
    ({ state.proceed id flight (.unlisted result) with
      table := update state.table flight.key none } : InFlight Key Value).Sound where
  listed := by
    intro key entry present
    change update state.table flight.key none key = some entry at present
    rw [update_apply] at present
    split at present
    · cases present
    rename_i foreign
    obtain ⟨owner, found, keyed, kept⟩ := sound.listed key entry present
    refine ⟨owner, ?_, keyed, kept⟩
    refine (getElem?_proceed running entry).trans ?_
    rw [if_neg, found]
    rintro rfl
    obtain rfl : flight = owner := Option.some.inj (running.symm.trans found)
    exact foreign keyed.symm
  entered := by
    intro other later found kept
    rw [getElem?_proceed running] at found
    split at found
    · cases found
      cases kept
    rename_i different
    have entry := sound.entered other later found kept
    change update state.table flight.key none later.key = some other
    rw [update_apply, if_neg, entry]
    -- Two tasks that have not removed their entries have different keys.
    intro same
    have own := sound.entered id flight running (by rw [ended]; rfl)
    rw [same, own] at entry
    exact different (Option.some.inj entry).symm
  answered := fun reader mem =>
    answered_proceed running (fun _ finished => nomatch ended.symm.trans finished)
      (sound.answered reader mem)
  slots := by
    have moved := @countP_set_add _ (fun flight : Flight Key Value => flight.phase.slotted) _ _ _
      { flight with phase := .unlisted result } running
    have balance := sound.slots
    simp only [Balanced, InFlight.proceed, ended, FlightPhase.slotted] at balance moved ⊢
    omega

theorem Sound.lead (sound : state.Sound) (streaming tracked : Bool)
    (absent : state.table key = none) : (state.enter key streaming tracked .lead).Sound where
  listed := by
    intro other entry present
    change update state.table key (some state.flights.length) other = some entry at present
    rw [update_apply] at present
    split at present
    · rename_i same
      cases present
      exact ⟨⟨key, streaming, .filling⟩, by simp [enter], same.symm, rfl⟩
    · obtain ⟨owner, found, keyed, kept⟩ := sound.listed other entry present
      obtain ⟨bound, -⟩ := List.getElem?_eq_some_iff.mp found
      exact ⟨owner, (List.getElem?_append_left bound).trans found, keyed, kept⟩
  entered := by
    intro other later found kept
    change (state.flights ++ [⟨key, streaming, .filling⟩])[other]? = some later at found
    change update state.table key (some state.flights.length) later.key = some other
    rw [update_apply]
    by_cases old : other < state.flights.length
    · rw [List.getElem?_append_left old] at found
      have entry := sound.entered other later found kept
      rw [if_neg, entry]
      rintro rfl
      rw [absent] at entry
      cases entry
    · obtain ⟨bound, value⟩ := List.getElem?_eq_some_iff.mp found
      have last : other = state.flights.length := by
        rw [length_append, length_singleton] at bound
        omega
      subst last
      rw [getElem_concat_length rfl] at value
      subst value
      exact if_pos rfl
  answered := by
    intro reader mem
    change Answered (state.flights ++ [⟨key, streaming, .filling⟩]) reader
    rcases mem_append.mp mem with earlier | last
    · refine (sound.answered reader earlier).mono fun other found present => ?_
      obtain ⟨bound, -⟩ := List.getElem?_eq_some_iff.mp present
      exact ⟨found, (List.getElem?_append_left bound).trans present, fun _ finished => finished⟩
    · rw [mem_singleton.mp last]
      cases streaming with
      | true => trivial
      | false => exact ⟨⟨key, false, .filling⟩, by simp⟩
  slots := by
    have balance := sound.slots
    cases streaming <;>
      simp only [Balanced, enter, countP_append, countP_singleton, FlightPhase.slotted,
        FlightReader.slotted, if_true, if_false, Bool.false_eq_true] at balance ⊢ <;>
      omega

theorem Sound.enter (sound : state.Sound) {start : FlightStart} (streaming tracked : Bool)
    (joins : ∀ id, start = .join id → state.table key = some id)
    (leads : start = .lead → state.table key = none) :
    (state.enter key streaming tracked start).Sound := by
  cases start with
  | join id =>
    obtain ⟨flight, found, -, -⟩ := sound.listed key id (joins id rfl)
    exact @Sound.join _ _ _ sound (.waiting id) _ ⟨flight, found⟩ rfl
  | lead => exact sound.lead streaming tracked (leads rfl)
  | bypass =>
    refine @Sound.join _ _ _ sound (.bypassing key tracked) _ trivial ?_
    cases tracked <;> rfl
  | aside => exact @Sound.join _ _ _ sound .apart _ trivial rfl

end Steps

section Runs

variable [DecidableEq Key] {bound : Nat} {state after : InFlight Key Value}

theorem Sound.step (sound : state.Sound) (happens : Step bound state false after) :
    after.Sound := by
  cases happens with
  | arrive key tracked =>
    exact sound.enter false tracked (fun _ => startFlight_eq_join) startFlight_eq_lead
  | arriveBlock key request =>
    exact sound.enter true false (fun _ => streamOrJoinBlockFill_eq_join)
      streamOrJoinBlockFill_eq_lead
  | fill running filling result =>
    exact sound.proceed running (by simp [filling]) (by simp [filling, FlightPhase.listed])
      (by simp [filling, FlightPhase.slotted])
  | unlist running ended => exact sound.unlist running ended
  | release running removed =>
    have balance := sound.slots
    have counted : 0 < state.flights.countP (fun flight => flight.phase.slotted) :=
      countP_pos_iff.mpr ⟨_, mem_of_getElem? running, by rw [removed]; rfl⟩
    refine sound.proceed running (by simp [removed]) (by simp [removed, FlightPhase.listed]) ?_
    simp only [removed, FlightPhase.slotted, if_true, Bool.false_eq_true, if_false]
    unfold Balanced at balance
    omega
  | finish running free =>
    exact sound.proceed running (by simp [free]) (by simp [free, FlightPhase.listed])
      (by simp [free, FlightPhase.slotted])
  | deliver waits found finished =>
    exact sound.turn waits ⟨_, found, finished⟩ rfl
  | depart leaves free =>
    refine sound.turn leaves trivial ?_
    rw [free]
    rfl
  | untrack fills =>
    have balance := sound.slots
    have counted : 0 < state.readers.countP FlightReader.slotted :=
      countP_pos_iff.mpr ⟨_, mem_of_getElem? fills, rfl⟩
    refine sound.turn fills trivial ?_
    simp only [FlightReader.slotted, if_true, Bool.false_eq_true, if_false]
    unfold Balanced at balance
    omega
  | populate | populated busy =>
    refine ⟨sound.listed, sound.entered, sound.answered, ?_⟩
    have balance := sound.slots
    simp only [Balanced] at balance ⊢
    omega

theorem Sound.run (sound : state.Sound) (run : Run bound Steady state after) : after.Sound := by
  induction run with
  | refl => exact sound
  | step run happens allowed induction =>
    cases (allowed : _ = false)
    exact induction.step happens

variable {middle : InFlight Key Value}

theorem Run.head (happens : Step bound state false middle) (run : Run bound Steady middle after) :
    Run bound Steady state after := by
  induction run with
  | refl => exact Run.refl.step happens rfl
  | step _ later allowed induction => exact induction.step later allowed

section Served

variable {reader id : Nat} {flight : Flight Key Value} {result : Except ReadError Value}

theorem Obtains.head (happens : Step bound state false middle)
    (later : Obtains bound middle reader id result) : Obtains bound state reader id result := by
  obtain ⟨after, run, received⟩ := later
  exact ⟨after, run.head happens, received⟩

variable (waits : state.readers[reader]? = some (.waiting id))
  (running : state.flights[id]? = some flight)
include waits running

theorem obtains_of_finished (finished : flight.phase = .finished result) :
    Obtains bound state reader id result := by
  obtain ⟨inside, -⟩ := List.getElem?_eq_some_iff.mp waits
  exact ⟨_, Run.refl.step (.deliver waits running finished) rfl, List.getElem?_set_self inside⟩

theorem obtains_of_released (free : flight.phase = .released result) :
    Obtains bound state reader id result :=
  .head (.finish running free)
    (obtains_of_finished waits ((getElem?_proceed running id).trans (if_pos rfl)) rfl)

theorem obtains_of_unlisted (removed : flight.phase = .unlisted result) :
    Obtains bound state reader id result :=
  .head (.release running removed)
    (obtains_of_released waits ((getElem?_proceed running id).trans (if_pos rfl)) rfl)

theorem obtains_of_filled (ended : flight.phase = .filled result) :
    Obtains bound state reader id result :=
  .head (.unlist running ended)
    (obtains_of_unlisted waits ((getElem?_proceed running id).trans (if_pos rfl)) rfl)

/-- The task of a fill that has ended comes to its end, and a waiting reader gets the result. -/
theorem obtains_of_outcome (ended : flight.phase.outcome = some result) :
    Obtains bound state reader id result := by
  cases phase : flight.phase <;> rw [phase] at ended <;> cases ended
  · exact obtains_of_filled waits running phase
  · exact obtains_of_unlisted waits running phase
  · exact obtains_of_released waits running phase
  · exact obtains_of_finished waits running phase

end Served

theorem Sound.exact (sound : state.Sound) : Exact bound state where
  single := by
    intro left right first second leftAt rightAt fills others same
    have listedFirst := sound.entered left first leftAt (by rw [fills]; rfl)
    have listedSecond := sound.entered right second rightAt (by rw [others]; rfl)
    rw [same, listedSecond] at listedFirst
    exact (Option.some.inj listedFirst).symm
  joined := by
    intro key id entry
    refine ⟨by rw [startFlight, entry], fun request => ?_⟩
    rw [streamOrJoinBlockFill, entry]
  bypassed := fun _ => bound_le_of_bypass
  answered := sound.answered
  served := fun _ _ _ _ => obtains_of_outcome
  unlisted := by
    intro id flight result found finished entry
    obtain ⟨owner, present, -, kept⟩ := sound.listed flight.key id entry
    obtain rfl : flight = owner := Option.some.inj (found.symm.trans present)
    rw [finished] at kept
    cases kept
  slots := sound.slots
  renewed := by
    intro key gone below
    have absent := sound.absent gone
    refine ⟨?_, fun request whole missing => ?_⟩
    · simp [startFlight, absent, below]
    · simp [streamOrJoinBlockFill, absent, whole, missing, below]

/-- Without a panic single flight keeps its promise. -/
theorem fills_exact_and_released (run : Run bound Steady ({} : InFlight Key Value) state) :
    Exact bound state :=
  (sound_start.run run).exact

/-- The bound on what is in flight. -/
def maxInflight : Nat := 16 * 1024

/-- A fill panics; a reader that comes later joins it and is given the same failure, and entry and
slot stay although no fill runs. -/
theorem panicked_fill_is_remembered :
    ∃ state : InFlight Nat Nat, Run maxInflight (fun _ => True) {} state ∧
      ¬ Exact maxInflight state ∧
      state.readers =
        [.received 0 (.error (.backend "fill task failed: task 4 panicked")),
          .received 0 (.error (.backend "fill task failed: task 4 panicked"))] ∧
      state.table 7 = some 0 ∧ state.size = 1 ∧
      ∀ flight ∈ state.flights, flight.phase.listed = false := by
  have led : Run maxInflight (fun _ => True) ({} : InFlight Nat Nat) _ :=
    Run.refl.step (.arrive 7 false) trivial
  have lost := led.step (@Step.panic _ _ _ _ _ 0 _ rfl rfl "task 4 panicked") trivial
  have told := lost.step (@Step.deliver _ _ _ _ _ 0 0 _ _ rfl rfl rfl) trivial
  have joined := told.step (.arrive 7 false) trivial
  have again := joined.step (@Step.deliver _ _ _ _ _ 1 0 _ _ rfl rfl rfl) trivial
  refine ⟨_, again, fun kept => ?_, rfl, rfl, rfl, ?_⟩
  · exact kept.unlisted 0 _ _ rfl rfl rfl
  · intro flight mem
    rw [mem_singleton.mp mem]
    rfl

/-- A fill that two readers share fails, and the next reader leads a new one. -/
theorem fills_exact_and_released_failed :
    ∃ state : InFlight Nat Nat, Run maxInflight Steady {} state ∧
      state.readers = [.received 0 (.error .notFound), .waiting 0, .waiting 1] ∧
      state.table 7 = some 1 ∧ Exact maxInflight state := by
  have led : Run maxInflight Steady ({} : InFlight Nat Nat) _ := Run.refl.step (.arrive 7 false) rfl
  have joined := led.step (.arriveBlock 7 ⟨false, false, false, false⟩) rfl
  have ended := joined.step (@Step.fill _ _ _ _ _ 0 _ rfl rfl (.error .notFound)) rfl
  have removed := ended.step (@Step.unlist _ _ _ _ _ 0 _ _ rfl rfl) rfl
  have freed := removed.step (@Step.release _ _ _ _ _ 0 _ _ rfl rfl) rfl
  have finished := freed.step (@Step.finish _ _ _ _ _ 0 _ _ rfl rfl) rfl
  have told := finished.step (@Step.deliver _ _ _ _ _ 0 0 _ _ rfl rfl rfl) rfl
  have run := told.step (.arrive 7 false) rfl
  exact ⟨_, run, rfl, rfl, fills_exact_and_released run⟩

end Runs

end InFlight

end Verglas.Cache
