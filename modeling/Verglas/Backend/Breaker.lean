import Mathlib.Algebra.GroupWithZero.Nat
import Mathlib.Data.List.Count

/-!
# The circuit breaker

A breaker that sees too many failures sheds the requests of a bucket for a while.  Afterwards it
lets a few probes through: so many successes close it, one failure opens it again.  A request takes
a ticket when it is admitted and hands it back with its outcome.  A ticket does not say of which
half-open period it is, and a request that is dropped hands nothing back; the model keeps the period
beside each ticket.
-/

namespace Verglas.Backend

open List

/-- When the breaker trips, how long it stays open and how many probes it then admits. -/
structure BreakerPolicy where
  /-- Whether this many failures among this many outcomes reach the failure rate. -/
  excessive : (failures samples : Nat) → Bool
  minSamples : Nat
  cooldownMs : Nat
  halfOpenMaxProbes : Nat
  probes_pos : 0 < halfOpenMaxProbes

/-- The state of the breaker, with the end of an open period. -/
inductive StateInner where
  | closed
  | opened (untilMs : Nat)
  /-- Probes not yet recorded, and successes recorded so far. -/
  | halfOpen (inFlight successes : Nat)
  deriving DecidableEq, Repr

namespace StateInner

def isHalfOpen : StateInner → Bool
  | .halfOpen _ _ => true
  | _ => false

end StateInner

/-- What a request is admitted with; it says whether the request is a probe. -/
structure Ticket where
  probe : Bool
  deriving DecidableEq, Repr

/-- The breaker of an endpoint: its state, its recent outcomes and its counters. -/
structure CircuitBreaker where
  state : StateInner := .closed
  window : List Bool := []
  trips : Nat := 0
  rejections : Nat := 0
  deriving DecidableEq, Repr

namespace CircuitBreaker

variable (policy : BreakerPolicy)

/-- Let a request through or shed it. -/
def admission (now : Nat) (breaker : CircuitBreaker) : CircuitBreaker × Option Ticket :=
  match breaker.state with
  | .closed => (breaker, some ⟨false⟩)
  | .opened untilMs =>
    if untilMs ≤ now then ({ breaker with state := .halfOpen 1 0 }, some ⟨true⟩)
    else ({ breaker with rejections := breaker.rejections + 1 }, none)
  | .halfOpen inFlight successes =>
    if inFlight < policy.halfOpenMaxProbes then
      ({ breaker with state := .halfOpen (inFlight + 1) successes }, some ⟨true⟩)
    else ({ breaker with rejections := breaker.rejections + 1 }, none)

/-- Open the breaker for a cooldown; the deadline wraps. -/
def trip (now : Nat) (breaker : CircuitBreaker) : CircuitBreaker :=
  { breaker with
    state := .opened ((now + policy.cooldownMs) % 2 ^ 64)
    window := []
    trips := breaker.trips + 1 }

/-- Record an outcome of normal traffic and trip if the failures are excessive. -/
def sample (now : Nat) (ok : Bool) (breaker : CircuitBreaker) : CircuitBreaker :=
  let window := (breaker.window ++ [ok]).drop (breaker.window.length + 1 - policy.minSamples)
  if policy.minSamples ≤ window.length ∧
      policy.excessive (window.countP (fun outcome => !outcome)) window.length = true then
    trip policy now { breaker with window }
  else { breaker with window }

/-- Record the outcome of an admitted request. -/
def record (now : Nat) (ticket : Ticket) (ok : Bool) (breaker : CircuitBreaker) : CircuitBreaker :=
  if ticket.probe then
    match breaker.state with
    | .halfOpen inFlight successes =>
      if ok then
        if policy.halfOpenMaxProbes ≤ successes + 1 then
          { breaker with state := .closed, window := [] }
        else { breaker with state := .halfOpen (inFlight - 1) (successes + 1) }
      else trip policy now breaker
    | _ => breaker
  else
    match breaker.state with
    | .closed => sample policy now ok breaker
    | _ => breaker

end CircuitBreaker

/-- An admitted request, and the half-open period in which it was admitted. -/
structure Request where
  ticket : Ticket
  period : Nat
  deriving DecidableEq, Repr

/-- A breaker with the clock, every request so far and the probes of the half-open periods. -/
structure Traffic where
  breaker : CircuitBreaker := {}
  time : Nat := 0
  requests : List Request := []
  period : Nat := 0
  wins : Nat := 0
  /-- The successes of its own period behind each closing. -/
  closings : List Nat := []

namespace Traffic

variable (policy : BreakerPolicy)

/-- A probe of the current half-open period. -/
def probing (period : Nat) (request : Request) : Bool :=
  request.ticket.probe && request.period == period

/-- The probes of the current period that are under way. -/
def outstanding (traffic : Traffic) : Nat := traffic.requests.countP (probing traffic.period)

/-- A request arrives and is admitted or rejected. -/
def arrive (traffic : Traffic) (now : Nat) : Traffic :=
  let (breaker, ticket) := traffic.breaker.admission policy now
  let begins := !traffic.breaker.state.isHalfOpen && breaker.state.isHalfOpen
  let period := if begins then traffic.period + 1 else traffic.period
  { traffic with
    breaker, period
    time := now
    requests := (ticket.map (Request.mk · period)).toList ++ traffic.requests
    wins := if begins then 0 else traffic.wins }

/-- A request ends with an outcome, and the others are left. -/
def finish (traffic : Traffic) (now : Nat) (request : Request) (ok : Bool) (rest : List Request) :
    Traffic :=
  let breaker := traffic.breaker.record policy now request.ticket ok
  let wins := if ok && probing traffic.period request then traffic.wins + 1 else traffic.wins
  { traffic with
    breaker, wins
    time := now
    requests := rest
    closings :=
      if traffic.breaker.state.isHalfOpen && breaker.state == .closed then
        wins :: traffic.closings
      else traffic.closings }

/-- One step; the label says whether it strays: a probe reports to a later half-open period, or is
dropped in its own. -/
inductive Step (traffic : Traffic) : Bool → Traffic → Prop
  | arrive (now : Nat) (later : traffic.time ≤ now) :
      Step traffic false (traffic.arrive policy now)
  | finish {before rest : List Request} {request : Request} (now : Nat) (ok : Bool)
      (later : traffic.time ≤ now) (admitted : traffic.requests = before ++ request :: rest) :
      Step traffic
        (request.ticket.probe && traffic.breaker.state.isHalfOpen &&
          !probing traffic.period request)
        (traffic.finish policy now request ok (before ++ rest))
  | cancel {before rest : List Request} {request : Request} (now : Nat)
      (later : traffic.time ≤ now) (admitted : traffic.requests = before ++ request :: rest) :
      Step traffic (traffic.breaker.state.isHalfOpen && probing traffic.period request)
        { traffic with time := now, requests := before ++ rest }

/-- A run whose steps all have labels that are allowed. -/
inductive Run (Allowed : Bool → Prop) : Traffic → Traffic → Prop
  | refl {traffic : Traffic} : Run Allowed traffic traffic
  | step {start traffic after : Traffic} {strays : Bool} (run : Run Allowed start traffic)
      (happens : Step policy traffic strays after) (allowed : Allowed strays) :
      Run Allowed start after

/-- The step does not stray. -/
def Timely (strays : Bool) : Prop := strays = false

/-- What the counts of a breaker promise. -/
structure Exact (traffic : Traffic) : Prop where
  counted : ∀ inFlight successes, traffic.breaker.state = .halfOpen inFlight successes →
    inFlight = traffic.outstanding ∧ inFlight ≤ policy.halfOpenMaxProbes
  earned : ∀ wins ∈ traffic.closings, policy.halfOpenMaxProbes ≤ wins
  free : traffic.breaker.state.isHalfOpen = true →
    traffic.outstanding < policy.halfOpenMaxProbes →
    ∀ now, (traffic.breaker.admission policy now).2 = some ⟨true⟩

/-- What the half-open state counts is what is under way and what has been won. -/
def Counted : StateInner → (outstanding wins : Nat) → Prop
  | .halfOpen inFlight successes, outstanding, wins =>
    inFlight = outstanding ∧ inFlight ≤ policy.halfOpenMaxProbes ∧ successes = wins
  | _, _, _ => True

/-- The invariant of the runs without a stray. -/
structure Sound (traffic : Traffic) : Prop where
  counted : Counted policy traffic.breaker.state traffic.outstanding traffic.wins
  earned : ∀ wins ∈ traffic.closings, policy.halfOpenMaxProbes ≤ wins
  past : ∀ request ∈ traffic.requests, request.period ≤ traffic.period

variable {policy}
variable {traffic : Traffic}

theorem counted_of_not_halfOpen {state : StateInner} (apart : state.isHalfOpen = false)
    (outstanding wins : Nat) : Counted policy state outstanding wins := by
  cases state with
  | closed | opened untilMs => trivial
  | halfOpen inFlight successes => cases apart

theorem sound_start : ({} : Traffic).Sound policy where
  counted := trivial
  earned := by
    intro wins closing
    cases closing
  past := by
    intro request member
    cases member

/-- No request is a probe of a period to come. -/
theorem Sound.countP_next (sound : traffic.Sound policy) :
    traffic.requests.countP (probing (traffic.period + 1)) = 0 := by
  rw [countP_eq_zero]
  intro request member probe
  have old := sound.past request member
  simp only [probing, Bool.and_eq_true, beq_iff_eq] at probe
  omega

theorem Sound.arrive (sound : traffic.Sound policy) (now : Nat) :
    (traffic.arrive policy now).Sound policy := by
  have next := sound.countP_next
  obtain ⟨counted, earned, past⟩ := sound
  cases state : traffic.breaker.state with
  | closed =>
    simp only [Traffic.arrive, CircuitBreaker.admission, state]
    refine ⟨counted_of_not_halfOpen (by simp [state, StateInner.isHalfOpen]) _ _, earned, ?_⟩
    simpa [state] using past
  | opened untilMs =>
    by_cases due : untilMs ≤ now
    · -- A new period begins, and its only probe is this one.
      simp only [Traffic.arrive, CircuitBreaker.admission, state, due, if_true]
      refine ⟨?_, earned, ?_⟩
      · have positive := policy.probes_pos
        simpa [Counted, outstanding, probing, next, StateInner.isHalfOpen] using
          Nat.succ_le_iff.mpr positive
      · intro request member
        simp only [Option.map_some, Option.toList_some, singleton_append,
          mem_cons] at member
        rcases member with rfl | member
        · exact Nat.le_refl _
        · have old := past request member
          simp only [StateInner.isHalfOpen]
          exact Nat.le_succ_of_le old
    · simp only [Traffic.arrive, CircuitBreaker.admission, state, due, if_false]
      exact ⟨trivial, earned, by simpa [state] using past⟩
  | halfOpen inFlight successes =>
    rw [state] at counted
    obtain ⟨under, bound, won⟩ := counted
    by_cases room : inFlight < policy.halfOpenMaxProbes
    · simp only [Traffic.arrive, CircuitBreaker.admission, state, room, if_true]
      refine ⟨?_, earned, ?_⟩
      · refine ⟨?_, room, won⟩
        simp [under, outstanding, probing, StateInner.isHalfOpen]
      · simpa [StateInner.isHalfOpen] using past
    · simp only [Traffic.arrive, CircuitBreaker.admission, state, room, if_false]
      refine ⟨⟨?_, bound, won⟩, earned, by simpa [state] using past⟩
      simp [under, outstanding, StateInner.isHalfOpen]

variable {before rest : List Request} {request : Request}

theorem outstanding_of_split (admitted : traffic.requests = before ++ request :: rest) :
    traffic.outstanding =
      (before ++ rest).countP (probing traffic.period) +
        (if probing traffic.period request then 1 else 0) := by
  simp only [outstanding, admitted, countP_append, countP_cons]
  omega

theorem mem_of_split {other : Request} (admitted : traffic.requests = before ++ request :: rest)
    (member : other ∈ before ++ rest) : other ∈ traffic.requests := by
  rw [admitted]
  simp only [mem_append, mem_cons] at member ⊢
  tauto

theorem Sound.cancel (now : Nat) (sound : traffic.Sound policy)
    (admitted : traffic.requests = before ++ request :: rest)
    (timely : (traffic.breaker.state.isHalfOpen && probing traffic.period request) = false) :
    ({ traffic with time := now, requests := before ++ rest } : Traffic).Sound policy := by
  have split := outstanding_of_split admitted
  obtain ⟨counted, earned, past⟩ := sound
  refine ⟨?_, earned, fun other member => past other (mem_of_split admitted member)⟩
  cases state : traffic.breaker.state with
  | closed | opened untilMs => trivial
  | halfOpen inFlight successes =>
    simp only [state, StateInner.isHalfOpen, Bool.true_and] at timely
    simp only [state, Counted, split, timely] at counted ⊢
    simpa [outstanding] using counted

theorem isHalfOpen_record {breaker : CircuitBreaker} (apart : breaker.state.isHalfOpen = false)
    (now : Nat) (ticket : Ticket) (ok : Bool) :
    (breaker.record policy now ticket ok).state.isHalfOpen = false := by
  cases state : breaker.state with
  | closed =>
    cases probe : ticket.probe with
    | true => simp [CircuitBreaker.record, probe, state, StateInner.isHalfOpen]
    | false =>
      simp only [CircuitBreaker.record, probe, state, CircuitBreaker.sample,
        Bool.false_eq_true, if_false]
      split
      · rfl
      · simp [StateInner.isHalfOpen]
  | opened untilMs => simp [CircuitBreaker.record, state, StateInner.isHalfOpen]
  | halfOpen inFlight successes => simp [state, StateInner.isHalfOpen] at apart

theorem Sound.finish (now : Nat) (ok : Bool) (sound : traffic.Sound policy)
    (admitted : traffic.requests = before ++ request :: rest)
    (timely : (request.ticket.probe && traffic.breaker.state.isHalfOpen &&
      !probing traffic.period request) = false) :
    (traffic.finish policy now request ok (before ++ rest)).Sound policy := by
  have split := outstanding_of_split admitted
  obtain ⟨counted, earned, past⟩ := sound
  have kept : ∀ other ∈ before ++ rest, other.period ≤ traffic.period :=
    fun other member => past other (mem_of_split admitted member)
  cases half : traffic.breaker.state.isHalfOpen with
  | false =>
    refine ⟨counted_of_not_halfOpen (isHalfOpen_record half now request.ticket ok) _ _, ?_, kept⟩
    simpa [Traffic.finish, half] using earned
  | true =>
    cases state : traffic.breaker.state with
    | closed | opened untilMs => simp [state, StateInner.isHalfOpen] at half
    | halfOpen inFlight successes =>
      rw [state] at counted
      obtain ⟨under, bound, won⟩ := counted
      cases probe : request.ticket.probe with
      | false =>
        have aside : probing traffic.period request = false := by simp [probing, probe]
        have unchanged : traffic.breaker.record policy now request.ticket ok = traffic.breaker := by
          simp [CircuitBreaker.record, probe, state]
        simp only [aside, Bool.false_eq_true, if_false, Nat.add_zero] at split
        refine ⟨?_, ?_, kept⟩
        · simp only [Traffic.finish, unchanged, state, aside, Bool.and_false,
            Bool.false_eq_true, if_false]
          exact ⟨under.trans split, bound, won⟩
        · simpa [Traffic.finish, unchanged, state] using earned
      | true =>
        have current : probing traffic.period request = true := by
          simpa [probe, half] using timely
        simp only [current, if_true] at split
        cases ok with
        | false =>
          have tripped : traffic.breaker.record policy now request.ticket false =
              traffic.breaker.trip policy now := by
            simp [CircuitBreaker.record, probe, state]
          refine ⟨?_, ?_, kept⟩
          · simp only [Traffic.finish, tripped]
            trivial
          · simpa [Traffic.finish, tripped, CircuitBreaker.trip] using earned
        | true =>
          by_cases last : policy.halfOpenMaxProbes ≤ successes + 1
          · have closes : traffic.breaker.record policy now request.ticket true =
                { traffic.breaker with state := .closed, window := [] } := by
              simp [CircuitBreaker.record, probe, state, last]
            refine ⟨?_, ?_, kept⟩
            · simp only [Traffic.finish, closes]
              trivial
            · have enough : policy.halfOpenMaxProbes ≤ traffic.wins + 1 := by omega
              simpa [Traffic.finish, closes, half, current, enough] using earned
          · have counts : traffic.breaker.record policy now request.ticket true =
                { traffic.breaker with
                  state := .halfOpen (inFlight - 1) (successes + 1) } := by
              simp [CircuitBreaker.record, probe, state, last]
            refine ⟨?_, ?_, kept⟩
            · simp only [Traffic.finish, counts, current, Bool.and_true, if_true]
              refine ⟨?_, by omega, by omega⟩
              rw [under, split]
              simp [outstanding]
            · simpa [Traffic.finish, counts] using earned

theorem Sound.step {after : Traffic} {strays : Bool} (sound : traffic.Sound policy)
    (happens : Step policy traffic strays after) (timely : Timely strays) :
    after.Sound policy := by
  cases happens with
  | arrive now later => exact sound.arrive now
  | finish now ok later admitted => exact sound.finish now ok admitted timely
  | cancel now later admitted => exact sound.cancel now admitted timely

theorem Sound.run {start : Traffic} (sound : start.Sound policy)
    (run : Run policy Timely start traffic) : traffic.Sound policy := by
  induction run with
  | refl => exact sound
  | step run happens allowed induction => exact induction.step happens allowed

theorem Sound.exact (sound : traffic.Sound policy) : traffic.Exact policy where
  counted := by
    intro inFlight successes state
    have counted := sound.counted
    rw [state] at counted
    exact ⟨counted.1, counted.2.1⟩
  earned := sound.earned
  free := by
    intro half room now
    have counted := sound.counted
    cases state : traffic.breaker.state with
    | closed | opened untilMs => simp [state, StateInner.isHalfOpen] at half
    | halfOpen inFlight successes =>
      rw [state] at counted
      rw [← counted.1] at room
      simp [CircuitBreaker.admission, state, room]

/-- Without a probe that is dropped in its half-open period or reports to a later one, the breaker
counts the probes of the period, closes on them alone and admits as many as it may. -/
theorem probes_counted_exactly (policy : BreakerPolicy) (traffic : Traffic)
    (run : Run policy Timely {} traffic) : traffic.Exact policy :=
  (sound_start.run run).exact

/-- One failure trips, and two probes are let through a millisecond later. -/
def twoProbes : BreakerPolicy where
  excessive failures samples := failures == samples
  minSamples := 1
  cooldownMs := 1
  halfOpenMaxProbes := 2
  probes_pos := by decide

/-- The breaker has tripped and lets its first probe through. -/
def probed : Traffic :=
  let tripped := (({} : Traffic).arrive twoProbes 0).finish twoProbes 0 ⟨⟨false⟩, 0⟩ false []
  tripped.arrive twoProbes 1

theorem run_probed (Allowed : Bool → Prop) (allowed : Allowed false) :
    Run twoProbes Allowed {} probed := by
  have first : Run twoProbes Allowed {} (({} : Traffic).arrive twoProbes 0) :=
    Run.refl.step (.arrive 0 (Nat.le_refl _)) allowed
  have tripped := first.step (@Step.finish twoProbes _ [] [] ⟨⟨false⟩, 0⟩ 0 false
    (Nat.le_refl _) rfl) allowed
  exact tripped.step (.arrive 1 (Nat.zero_le _)) allowed

theorem probes_counted_exactly_probed :
    probed.breaker.state = .halfOpen 1 0 ∧ probed.Exact twoProbes :=
  ⟨rfl, probes_counted_exactly twoProbes probed (run_probed Timely rfl)⟩

/-- Two dropped probes shut the breaker for ever, and a success of an earlier period closes it after
one success of its own. -/
theorem strays_miscount_probes :
    (∃ traffic, Run twoProbes (fun _ => True) {} traffic ∧ traffic.requests = [] ∧
      ∀ now, (traffic.breaker.admission twoProbes now).2 = none) ∧
    (∃ traffic, Run twoProbes (fun _ => True) {} traffic ∧ 1 ∈ traffic.closings ∧
      ¬ traffic.Exact twoProbes) := by
  have one := run_probed (fun _ => True) trivial
  have two := one.step (.arrive 1 (Nat.le_refl _)) trivial
  constructor
  · have dropped := two.step (@Step.cancel twoProbes _ [] [⟨⟨true⟩, 1⟩] ⟨⟨true⟩, 1⟩ 1
      (Nat.le_refl _) rfl) trivial
    have both := dropped.step (@Step.cancel twoProbes _ [] [] ⟨⟨true⟩, 1⟩ 1
      (Nat.le_refl _) rfl) trivial
    exact ⟨_, both, rfl, fun now => rfl⟩
  · have failed := two.step (@Step.finish twoProbes _ [] [⟨⟨true⟩, 1⟩] ⟨⟨true⟩, 1⟩ 1 false
      (Nat.le_refl _) rfl) trivial
    have again := failed.step (.arrive 2 (by decide)) trivial
    have late := again.step (@Step.finish twoProbes _ [⟨⟨true⟩, 2⟩] [] ⟨⟨true⟩, 1⟩ 2 true
      (Nat.le_refl _) rfl) trivial
    have closes := late.step (@Step.finish twoProbes _ [] [] ⟨⟨true⟩, 2⟩ 2 true
      (Nat.le_refl _) rfl) trivial
    refine ⟨_, closes, mem_cons_self, fun sound => ?_⟩
    exact absurd (sound.earned 1 mem_cons_self) (by decide)

end Traffic
end Verglas.Backend
