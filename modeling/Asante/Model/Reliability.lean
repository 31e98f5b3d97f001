import Asante.Model.World

/-!
# Bounded Retry and Idempotency Keys

The retry loop around a provider call, and the keys that make a repeated call
harmless.

A retry policy carries the checks of its constructor as fields, so a policy
that exists allows at least one attempt. The loop is a recursion on the
attempts left; running out of them is the `AssertionError` at the end of the
source's loop. An exception raised by `on_retry` is not caught, since the
source calls it from inside the handler.

A key is derived from a text by `hashlib.sha256(text.encode("utf-8")).hexdigest()`,
for which `sha256` stands. Not every text gets that far: an `int` beyond the
floats cannot be rendered with two decimals, and a string with a lone surrogate
has no encoding. `digestError` says what is raised then, as a function of the
text.

## Main definitions

* `RetryPolicy`, `RetryPolicy.make`: The retry budget and its constructor.
* `backoffSeconds`: The pause after an attempt.
* `executeWithBoundedRetry`: The retry loop.
* `hexdigest`: The digest of a text, or what is raised instead.
* `creditCanonical`, `creditDigest`, `buildCreditIdempotencyKey`: The key of a
  direct credit.
* `operationCanonical`, `operationDigest`, `operationKey`: The key of a guest
  operation.
* `reservationCanonical`, `reservationDigest`, `buildReservationCacheKey`: The
  cache key of a reservation.

## Theorems

* `hexdigest_cases`: When a key can be derived, and what it is then.
-/

namespace Asante

/-- `RetryPolicy`, as its constructor accepts it. -/
structure RetryPolicy where
  maxAttempts : Nat
  initialBackoffSeconds : ℚ
  maxBackoffSeconds : ℚ
  attempts_pos : 1 ≤ maxAttempts
  initial_nonneg : 0 ≤ initialBackoffSeconds
  max_nonneg : 0 ≤ maxBackoffSeconds

/-- `RetryPolicy(max_attempts, initial_backoff_seconds, max_backoff_seconds)`. -/
def RetryPolicy.make (maxAttempts : Int) (initialBackoffSeconds maxBackoffSeconds : ℚ) :
    Except Exc RetryPolicy :=
  if hm : maxAttempts < 1 then .error (.valueError "max_attempts must be at least 1")
  else if hi : initialBackoffSeconds < 0 then
    .error (.valueError "initial_backoff_seconds cannot be negative")
  else if hb : maxBackoffSeconds < 0 then
    .error (.valueError "max_backoff_seconds cannot be negative")
  else .ok
    { maxAttempts := maxAttempts.toNat
      initialBackoffSeconds := initialBackoffSeconds
      maxBackoffSeconds := maxBackoffSeconds
      attempts_pos := by omega
      initial_nonneg := not_lt.mp hi
      max_nonneg := not_lt.mp hb }

/-- The pause after a transient failure of an attempt. -/
def RetryPolicy.backoffSeconds (policy : RetryPolicy) (attempt : Nat) : ℚ :=
  min (policy.initialBackoffSeconds * 2 ^ (attempt - 1)) policy.maxBackoffSeconds

/-- The retry loop from one attempt on, with the attempts left. -/
def retryFrom {α : Type} (operation : App α) (policy : RetryPolicy) (onRetry : Nat → App Unit) :
    Nat → Nat → App α
  | 0, _ => throw (.assertionError "retry loop exited unexpectedly")
  | left + 1, attempt => tryCatch operation fun e =>
    if e.isTransient then
      if policy.maxAttempts ≤ attempt then throw e
      else do
        onRetry attempt
        let backoff := policy.backoffSeconds attempt
        if 0 < backoff then
          let _ : Unit ← ask (.sleep backoff)
          retryFrom operation policy onRetry left (attempt + 1)
        else retryFrom operation policy onRetry left (attempt + 1)
    else throw e

/-- `execute_with_bounded_retry`. -/
def executeWithBoundedRetry {α : Type} (operation : App α) (policy : RetryPolicy)
    (onRetry : Nat → App Unit) : App α :=
  retryFrom operation policy onRetry policy.maxAttempts 1

section Keys

variable (sha256 : String → String) (digestError : String → Option Exc)

/-- `hashlib.sha256(text.encode("utf-8")).hexdigest()`. -/
def hexdigest (text : String) : Except Exc String :=
  match digestError text with
  | some e => .error e
  | none => .ok (sha256 text)

/-- The text a direct credit's key is derived from. -/
def creditCanonical (taskId reservationId : String) (amount : ℚ) : String :=
  "guest.credit.issue\n" ++ taskId ++ "\n" ++ reservationId ++ "\n" ++ fixed2 amount

/-- The key of a direct credit whose text has a digest. -/
def creditDigest (taskId reservationId : String) (amount : ℚ) : String :=
  "credit:" ++ sha256 (creditCanonical taskId reservationId amount)

/-- `build_credit_idempotency_key`. -/
def buildCreditIdempotencyKey (taskId reservationId : String) (amount : ℚ) :
    Except Exc String := do
  let digest ← hexdigest sha256 digestError (creditCanonical taskId reservationId amount)
  return "credit:" ++ digest

/-- The text a guest operation's key is derived from. -/
def operationCanonical (action taskId reservationId payload : String) : String :=
  action ++ "\n" ++ taskId ++ "\n" ++ reservationId ++ "\n" ++ payload

/-- The key of a guest operation whose text has a digest. -/
def operationDigest (action taskId reservationId payload : String) : String :=
  "operation:" ++ sha256 (operationCanonical action taskId reservationId payload)

/-- `_idempotency_key` of the guest operations. -/
def operationKey (action taskId reservationId payload : String) : Except Exc String := do
  let digest ← hexdigest sha256 digestError
    (operationCanonical action taskId reservationId payload)
  return "operation:" ++ digest

/-- The text a reservation's cache key is derived from, with the default schema
    version. -/
def reservationCanonical (reservationId : String) : String :=
  "reservation-read-v1\nreservation.read\nreservation:" ++ reservationId

/-- The cache key of a reservation whose text has a digest. -/
def reservationDigest (reservationId : String) : String :=
  "reservation:" ++ sha256 (reservationCanonical reservationId)

/-- `build_reservation_cache_key`. -/
def buildReservationCacheKey (reservationId : String) : Except Exc String := do
  let digest ← hexdigest sha256 digestError (reservationCanonical reservationId)
  return "reservation:" ++ digest

/-- A key is the digest of its text behind its kind, unless the text has none. -/
theorem hexdigest_cases (kind text : String) :
    (∃ e, digestError text = some e ∧
      (do let digest ← hexdigest sha256 digestError text; return kind ++ digest) =
        (.error e : Except Exc String)) ∨
    (digestError text = none ∧
      (do let digest ← hexdigest sha256 digestError text; return kind ++ digest) =
        (.ok (kind ++ sha256 text) : Except Exc String)) := by
  unfold hexdigest
  rcases htext : digestError text with _ | e
  · exact Or.inr ⟨rfl, rfl⟩
  · exact Or.inl ⟨e, rfl, rfl⟩

variable (taskId reservationId : String)

theorem buildCreditIdempotencyKey_cases (amount : ℚ) :
    (∃ e, digestError (creditCanonical taskId reservationId amount) = some e ∧
      buildCreditIdempotencyKey sha256 digestError taskId reservationId amount = .error e) ∨
    (digestError (creditCanonical taskId reservationId amount) = none ∧
      buildCreditIdempotencyKey sha256 digestError taskId reservationId amount =
        .ok (creditDigest sha256 taskId reservationId amount)) :=
  hexdigest_cases sha256 digestError _ _

theorem operationKey_cases (action payload : String) :
    (∃ e, digestError (operationCanonical action taskId reservationId payload) = some e ∧
      operationKey sha256 digestError action taskId reservationId payload = .error e) ∨
    (digestError (operationCanonical action taskId reservationId payload) = none ∧
      operationKey sha256 digestError action taskId reservationId payload =
        .ok (operationDigest sha256 action taskId reservationId payload)) :=
  hexdigest_cases sha256 digestError _ _

theorem buildReservationCacheKey_cases :
    (∃ e, digestError (reservationCanonical reservationId) = some e ∧
      buildReservationCacheKey sha256 digestError reservationId = .error e) ∨
    (digestError (reservationCanonical reservationId) = none ∧
      buildReservationCacheKey sha256 digestError reservationId =
        .ok (reservationDigest sha256 reservationId)) :=
  hexdigest_cases sha256 digestError _ _

end Keys

end Asante
