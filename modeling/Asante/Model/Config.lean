import Asante.Model.Identity
import Asante.Model.Reliability

/-!
# Configuration

The settings the process reads from its environment when it starts: the retry
policy of the credit tool and the transport of the MCP clients. A setting that
is not there has a default; one that is there is parsed, and refused unless it
is between its bounds. The comparison is a chain of `<=`, so a float that is not
a number is refused like one that is too large.

`int` and `float` of a text are parameters. The bounds are whole numbers; those
of a float are written with `.0` in the message.

## Main definitions

* `NumberParsers`: What a setting is parsed as.
* `intEnv`, `floatEnv`: A setting with its default and its bounds.
* `creditRetryPolicyFromEnv`, `mcpReliabilityConfigFromEnv`: The configurations.
-/

namespace Asante

/-- `int(text)` and `float(text)`. -/
structure NumberParsers where
  int : String → Except Exc Int
  float : String → Except Exc PyFloat

/-- `minimum <= value <= maximum`, of a float. -/
def PyFloat.between (minimum maximum : Nat) : PyFloat → Option ℚ
  | finite q => if (minimum : ℚ) ≤ q ∧ q ≤ maximum then some q else none
  | infinite _ => none
  | nan => none

/-- The setting, parsed, or its default. -/
def setting {X : Type} (parse : String → Except Exc X) (environ : Environ) (name : String)
    (default : X) : Except Exc X :=
  match environ name with
  | none => .ok default
  | some raw => parse raw

/-- `ValueError(f"{name} must be between {minimum} and {maximum}")`. -/
def outOfBounds (name minimum maximum : String) : Exc :=
  .valueError s!"{name} must be between {minimum} and {maximum}"

section Settings

variable (parsers : NumberParsers) (environ : Environ)

/-- `_float_env`. -/
def floatEnv (name : String) (default : ℚ) (minimum maximum : Nat) : Except Exc ℚ := do
  let value ← setting parsers.float environ name (.finite default)
  match value.between minimum maximum with
  | some q => .ok q
  | none => .error (outOfBounds name s!"{minimum}.0" s!"{maximum}.0")

/-- `_int_env`. -/
def intEnv (name : String) (default : Int) (minimum maximum : Nat) : Except Exc Int := do
  let value ← setting parsers.int environ name default
  if (minimum : Int) ≤ value ∧ value ≤ maximum then .ok value
  else .error (outOfBounds name s!"{minimum}" s!"{maximum}")

/-- `credit_retry_policy_from_env`. -/
def creditRetryPolicyFromEnv : Except Exc RetryPolicy := do
  let maxAttempts ← intEnv parsers environ "ASANTE_CREDIT_MAX_ATTEMPTS" 2 1 4
  let initialBackoffSeconds ← floatEnv parsers environ "ASANTE_CREDIT_RETRY_BACKOFF_SECONDS"
    (1 / 20) 0 2
  let maxBackoffSeconds ← floatEnv parsers environ "ASANTE_CREDIT_RETRY_MAX_BACKOFF_SECONDS"
    (1 / 5) 0 5
  RetryPolicy.make maxAttempts initialBackoffSeconds maxBackoffSeconds

/-- `McpReliabilityConfig`. -/
structure McpReliabilityConfig where
  timeoutSeconds : ℚ := 10
  maxRetryAttempts : Int := 1

/-- `mcp_reliability_config_from_env`. -/
def mcpReliabilityConfigFromEnv : Except Exc McpReliabilityConfig := do
  let timeoutSeconds ← floatEnv parsers environ "ASANTE_MCP_TIMEOUT_SECONDS" 10 1 60
  let maxRetryAttempts ← intEnv parsers environ "ASANTE_MCP_MAX_RETRIES" 1 0 3
  return { timeoutSeconds := timeoutSeconds
           maxRetryAttempts := maxRetryAttempts }

end Settings

end Asante
