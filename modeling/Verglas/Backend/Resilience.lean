import Verglas.Backend.Breaker

/-!
# Retries of backend operations

Every operation runs under the breaker and a retry loop.  The loop looks at the error of one attempt
and at nothing else: a transient error is retried, a named one is the answer.  An attempt whose
reply is lost may have been applied all the same, and the next one then meets what it has left
behind.  What the origin does with a request is a parameter.
-/

namespace Verglas.Backend

/-- The operations that are retried, with what they are conditional on. -/
inductive Operation where
  | put (key : String)
  | create (key : String)
  /-- `changes` says whether the object's version is another one afterwards. -/
  | update (key : String) (version : Nat) (changes : Bool)
  | complete (key upload : String)
  | copy (source target : String)
  | copyIfAbsent (source target : String)
  | delete (key : String)
  deriving DecidableEq, Repr

/-- The definite answers by which an origin refuses a request. -/
inductive Refusal where
  | alreadyExists
  | precondition
  | noSuchUpload
  | noSuchKey
  deriving DecidableEq, Repr

/-- The operation takes away what it needs itself. -/
def Operation.selfDefeating : Operation → Bool
  | .create _ | .complete _ _ | .copyIfAbsent _ _ => true
  | .update _ _ changes => changes
  | .put _ | .copy _ _ | .delete _ => false

/-- What becomes of an attempt. -/
inductive Fate where
  | lost
  /-- The reply is lost, or mapped to a transient error. -/
  | unanswered
  | answered
  deriving DecidableEq, Repr

/-- What happens to an attempt, and the times that the loop reads after it. -/
structure Attempt where
  fate : Fate
  elapsed : Nat
  wait : Nat
  /-- What has elapsed when the wait is cut to the budget. -/
  elapsedAgain : Nat

/-- The error of an attempt as the loop sees it. -/
inductive Failure where
  | transient
  | refused (refusal : Refusal)
  deriving DecidableEq, Repr

/-- How often an operation is retried, and for how long. -/
structure RetryPolicy where
  maxRetries : Nat
  budget : Nat

/-- What the caller is told, and whether some attempt was applied. -/
structure Outcome (Origin : Type*) where
  origin : Origin
  applied : Bool
  result : Except Failure Unit

variable {Origin : Type*} (apply : Operation → Origin → Except Refusal Origin)

/-- One attempt on an origin. -/
def attempt (operation : Operation) (origin : Origin) (fate : Fate) : Outcome Origin :=
  match fate, apply operation origin with
  | .lost, _ => ⟨origin, false, .error .transient⟩
  | .unanswered, .ok after => ⟨after, true, .error .transient⟩
  | .unanswered, .error _ => ⟨origin, false, .error .transient⟩
  | .answered, .ok after => ⟨after, true, .ok ()⟩
  | .answered, .error refusal => ⟨origin, false, .error (.refused refusal)⟩

/-- The last error is one that the loop retries. -/
def Outcome.transient (outcome : Outcome Origin) : Bool :=
  match outcome.result with
  | .error .transient => true
  | _ => false

/-- The retry loop, over the attempts to come. -/
def retryGeneric (policy : RetryPolicy) (operation : Operation) :
    (retriesLeft : Nat) → (attempts : Nat → Attempt) → Origin → Outcome Origin
  | 0, attempts, origin => attempt apply operation origin (attempts 0).fate
  | retriesLeft + 1, attempts, origin =>
    let current := attempts 0
    let first := attempt apply operation origin current.fate
    if first.transient ∧ current.elapsed < policy.budget ∧
        0 < min current.wait (policy.budget - current.elapsedAgain) then
      let rest := retryGeneric policy operation retriesLeft
        (fun index => attempts (index + 1)) first.origin
      { rest with applied := first.applied || rest.applied }
    else first

/-- An operation under the breaker and the retry loop. -/
def guardGeneric (breakers : BreakerPolicy) (policy : RetryPolicy) (operation : Operation)
    (breaker : CircuitBreaker) (now later : Nat) (attempts : Nat → Attempt) (origin : Origin) :
    CircuitBreaker × Outcome Origin :=
  match breaker.admission breakers now with
  | (breaker, none) => (breaker, ⟨origin, false, .error .transient⟩)
  | (breaker, some ticket) =>
    let outcome := retryGeneric apply policy operation policy.maxRetries attempts origin
    (breaker.record breakers later ticket (!outcome.transient), outcome)

/-- The caller is refused only if no attempt was applied. -/
def Outcome.Truthful (outcome : Outcome Origin) : Prop :=
  ∀ refusal, outcome.result = .error (.refused refusal) → outcome.applied = false

/-- A repeatable operation that the origin has applied, it accepts again. -/
def AcceptsAgain (operation : Operation) : Prop :=
  operation.selfDefeating = false → ∀ origin after, apply operation origin = .ok after →
    ∃ last, apply operation after = .ok last

/-- A self-defeating operation that the origin has applied, it refuses. -/
def RefusesAgain (operation : Operation) : Prop :=
  operation.selfDefeating = true → ∀ origin after, apply operation origin = .ok after →
    ∃ refusal, apply operation after = .error refusal

section Loop

variable {apply} {policy : RetryPolicy} {operation : Operation} {origin : Origin}

/-- What every attempt keeps and establishes, the loop establishes. -/
theorem retryGeneric_rule (Keeps : Origin → Prop) (Post : Outcome Origin → Prop)
    (keeps : ∀ origin fate, Keeps origin → Keeps (attempt apply operation origin fate).origin)
    (first : ∀ origin fate, Keeps origin → Post (attempt apply operation origin fate))
    (joins : ∀ origin fate rest, Keeps origin → Post rest →
      Post { rest with applied := (attempt apply operation origin fate).applied || rest.applied })
    (left : Nat) (attempts : Nat → Attempt) (start : Keeps origin) :
    Post (retryGeneric apply policy operation left attempts origin) := by
  induction left generalizing attempts origin with
  | zero => exact first origin _ start
  | succ left induction =>
    rw [retryGeneric]
    split
    · exact joins origin _ _ start (induction _ (keeps origin _ start))
    · exact first origin _ start

/-- An attempt leaves the origin alone, or the origin has accepted the operation. -/
theorem attempt_cases (apply : Operation → Origin → Except Refusal Origin)
    (operation : Operation) (origin : Origin) (fate : Fate) :
    (attempt apply operation origin fate).origin = origin ∧
        (attempt apply operation origin fate).applied = false ∨
      apply operation origin = .ok (attempt apply operation origin fate).origin ∧
        ∀ refusal, (attempt apply operation origin fate).result ≠ .error (.refused refusal) := by
  cases accepts : apply operation origin with
  | ok after =>
    cases fate with
    | lost => exact .inl ⟨rfl, rfl⟩
    | unanswered | answered => exact .inr (by simp [attempt, accepts])
  | error refusal =>
    left
    cases fate <;> simp [attempt, accepts]

theorem attempt_truthful (operation : Operation) (origin : Origin) (fate : Fate) :
    (attempt apply operation origin fate).Truthful := by
  intro refusal refused
  rcases attempt_cases apply operation origin fate with ⟨-, untouched⟩ | ⟨-, answered⟩
  · exact untouched
  · exact absurd refused (answered refusal)

theorem retryGeneric_of_accepts (again : AcceptsAgain apply operation)
    (repeatable : operation.selfDefeating = false) (left : Nat) (attempts : Nat → Attempt)
    (accepts : ∃ after, apply operation origin = .ok after) (refusal : Refusal) :
    (retryGeneric apply policy operation left attempts origin).result ≠
      .error (.refused refusal) := by
  refine retryGeneric_rule (fun origin => ∃ after, apply operation origin = .ok after)
    (fun outcome => outcome.result ≠ .error (.refused refusal)) ?_ ?_ ?_ left attempts accepts
  · intro origin fate accepts
    rcases attempt_cases apply operation origin fate with ⟨same, -⟩ | ⟨applied, -⟩
    · rw [same]
      exact accepts
    · exact again repeatable origin _ applied
  · rintro origin fate ⟨after, accepts⟩
    cases fate <;> simp [attempt, accepts]
  · intro origin fate rest accepts answered
    exact answered

theorem retryGeneric_of_refuses (left : Nat) (attempts : Nat → Attempt) {refusal : Refusal}
    (refuses : apply operation origin = .error refusal) :
    (retryGeneric apply policy operation left attempts origin).applied = false := by
  have untouched : ∀ (other : Origin) (fate : Fate), other = origin →
      (attempt apply operation other fate).origin = origin ∧
        (attempt apply operation other fate).applied = false := by
    rintro other fate rfl
    rcases attempt_cases apply operation other fate with same | ⟨accepts, -⟩
    · exact same
    · rw [refuses] at accepts
      cases accepts
  refine retryGeneric_rule (· = origin) (·.applied = false)
    (fun other fate same => (untouched other fate same).1)
    (fun other fate same => (untouched other fate same).2) ?_ left attempts rfl
  intro other fate rest same applied
  simp [(untouched other fate same).2, applied]

theorem retryGeneric_of_answered (left : Nat) {attempts : Nat → Attempt} (origin : Origin)
    (answered : (attempt apply operation origin (attempts 0).fate).transient = false) :
    retryGeneric apply policy operation left attempts origin =
      attempt apply operation origin (attempts 0).fate := by
  cases left with
  | zero => rfl
  | succ left => simp [retryGeneric, answered]

theorem retryGeneric_once (once : policy.maxRetries = 0 ∨ policy.budget = 0)
    (attempts : Nat → Attempt) (origin : Origin) :
    retryGeneric apply policy operation policy.maxRetries attempts origin =
      attempt apply operation origin (attempts 0).fate := by
  rcases once with none | none
  · rw [none]
    rfl
  · cases policy.maxRetries with
    | zero => rfl
    | succ left => simp [retryGeneric, none]

theorem retryGeneric_truthful (again : AcceptsAgain apply operation)
    (safe : operation.selfDefeating = false ∨
      (∃ refusal, apply operation origin = .error refusal) ∨
        policy.maxRetries = 0 ∨ policy.budget = 0) (attempts : Nat → Attempt) :
    (retryGeneric apply policy operation policy.maxRetries attempts origin).Truthful := by
  rcases safe with repeatable | ⟨refusal, refuses⟩ | once
  · intro refusal refused
    cases accepts : apply operation origin with
    | ok after =>
      exact absurd refused
        (retryGeneric_of_accepts again repeatable _ attempts ⟨after, accepts⟩ refusal)
    | error refusal => exact retryGeneric_of_refuses _ attempts accepts
  · exact fun _ _ => retryGeneric_of_refuses _ attempts refuses
  · rw [retryGeneric_once once]
    exact attempt_truthful operation origin _

/-- The first reply is lost and the second one arrives. -/
def lostReply : Nat → Attempt
  | 0 => ⟨.unanswered, 0, 1, 0⟩
  | _ + 1 => ⟨.answered, 0, 1, 0⟩

theorem retryGeneric_lostReply (again : RefusesAgain apply operation)
    (defeats : operation.selfDefeating = true) {after : Origin}
    (accepts : apply operation origin = .ok after) (retries : policy.maxRetries ≠ 0)
    (budget : policy.budget ≠ 0) :
    ¬ (retryGeneric apply policy operation policy.maxRetries lostReply origin).Truthful := by
  obtain ⟨refusal, refuses⟩ := again defeats origin after accepts
  obtain ⟨left, more⟩ := Nat.exists_eq_succ_of_ne_zero retries
  have second : attempt apply operation after .answered =
      ⟨after, false, .error (.refused refusal)⟩ := by
    simp [attempt, refuses]
  have ends := @retryGeneric_of_answered _ apply policy operation left
    (fun index => lostReply (index + 1)) after (by simp [lostReply, second, Outcome.transient])
  have goes : retryGeneric apply policy operation policy.maxRetries lostReply origin =
      ⟨after, true, .error (.refused refusal)⟩ := by
    have first : attempt apply operation origin (lostReply 0).fate =
        ⟨after, true, .error .transient⟩ := by
      simp [lostReply, attempt, accepts]
    have time : (lostReply 0).elapsed < policy.budget ∧
        0 < min (lostReply 0).wait (policy.budget - (lostReply 0).elapsedAgain) := by
      simp only [lostReply]
      omega
    rw [more]
    simp only [retryGeneric, first, Outcome.transient, time, and_self, if_true, ends]
    rw [show (lostReply (0 + 1)).fate = .answered from rfl, second]
    rfl
  intro truthful
  have untouched := truthful refusal (by rw [goes])
  rw [goes] at untouched
  cases untouched

end Loop

/-- The caller is never refused on account of its own earlier attempt exactly when the operation can
be applied again, or the origin refuses it from the start, or nothing is retried. -/
theorem retries_truthful_iff (policy : RetryPolicy) (operation : Operation)
    (accepts_again : AcceptsAgain apply operation) (refuses_again : RefusesAgain apply operation)
    (origin : Origin) :
    (∀ (breakers : BreakerPolicy) (breaker : CircuitBreaker) (now later : Nat)
        (attempts : Nat → Attempt),
        (guardGeneric apply breakers policy operation breaker now later attempts
          origin).2.Truthful) ↔
      operation.selfDefeating = false ∨ (∃ refusal, apply operation origin = .error refusal) ∨
        policy.maxRetries = 0 ∨ policy.budget = 0 := by
  constructor
  · intro truthful
    by_contra harmful
    simp only [not_or, not_exists, Bool.not_eq_false] at harmful
    obtain ⟨defeats, accepts, retries, budget⟩ := harmful
    cases applied : apply operation origin with
    | error refusal => exact accepts refusal applied
    | ok after =>
      exact retryGeneric_lostReply refuses_again defeats applied retries budget
        (truthful Traffic.twoProbes {} 0 0 lostReply)
  · intro safe breakers breaker now later attempts
    simp only [guardGeneric]
    split
    · intro refusal refused
      rfl
    · exact retryGeneric_truthful accepts_again safe attempts

/-- An origin that knows which uploads are open and takes every other request. -/
def openUploads : Operation → List String → Except Refusal (List String)
  | .complete _ upload, uploads =>
    if upload ∈ uploads then .ok (uploads.filter (· ≠ upload)) else .error .noSuchUpload
  | _, uploads => .ok uploads

/-- A put may be retried there and a completion may not. -/
theorem retries_truthful_iff_openUploads :
    (∀ breakers breaker now later attempts, (guardGeneric openUploads breakers ⟨3, 10⟩
      (.put "table") breaker now later attempts ["upload"]).2.Truthful) ∧
    ¬∀ breakers breaker now later attempts, (guardGeneric openUploads breakers ⟨3, 10⟩
      (.complete "table" "upload") breaker now later attempts ["upload"]).2.Truthful := by
  refine ⟨(retries_truthful_iff openUploads ⟨3, 10⟩ (.put "table") ?_ ?_ _).mpr (.inl rfl),
    mt (retries_truthful_iff openUploads ⟨3, 10⟩ (.complete "table" "upload") ?_ ?_ _).mp ?_⟩
  · exact fun _ _ after _ => ⟨after, rfl⟩
  · exact nofun
  · exact nofun
  · intro _ uploads after applied
    simp only [openUploads] at applied
    split at applied
    · cases applied
      exact ⟨.noSuchUpload, if_neg (by simp)⟩
    · cases applied
  · simp [Operation.selfDefeating, openUploads]

/-- The reply to a completion is lost, and its retry is told that there is no such upload. -/
theorem completion_refused_after_applied :
    ¬ (guardGeneric openUploads Traffic.twoProbes ⟨1, 1⟩ (.complete "table" "upload") {} 0 0
      lostReply ["upload"]).2.Truthful := by
  intro truthful
  exact absurd (truthful .noSuchUpload rfl) (by decide)

end Verglas.Backend
