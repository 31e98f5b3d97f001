import Asante.Core.Cost
import Asante.Model.Config
import Asante.Theory.Footprints
import Asante.Theory.Retry
import Mathlib.Algebra.Order.BigOperators.Group.List

/-!
# The Budget of a Call

How much of the credit provider and of time one call may use. The settings are
bounded when the process starts, so whatever the environment holds, a process
that starts at all has a policy within the bounds; and every call asks the
provider at most as often as the policy allows and sleeps at most as long as the
pauses of the policy are together. With the bounds of the settings that is four
times and eleven seconds.

Both are the cost of a program, for two ways of charging its commands, and the
proof is one: a ledger call costs `a` and a second of sleep costs `s`.

## Main definitions

* `RetryPolicy.pausesFrom`, `RetryPolicy.pauses`: The pauses of a policy together.
* `charge`: What a command costs.
* `RetryPolicy.budget`: What a call may cost under a policy.
* `ConfiguredBy`: The policy is what the settings say.
* `asked`, `sleptFor`: What the commands of a thread have used.

## Theorems

* `policyFromEnv_ok_iff`, `mcpConfigFromEnv_ok_iff`: The environments that give a
  configuration.
* `pauses_le`: The pauses under the bounds of the settings.
* `costLe_retry`, `costLe_tool`, `costLe_app`: The cost of the retry loop, of a
  secured operation and of a call.
* `configured_budget`: What every call of every run uses at most.
-/

namespace Asante

open Core.Prog

/-- The pauses of a policy after the attempts from one on, as many as given. -/
def RetryPolicy.pausesFrom (policy : RetryPolicy) (attempt n : Nat) : ℚ :=
  ((List.range' attempt n).map policy.backoffSeconds).sum

/-- The pauses of a policy, after every attempt but the last. -/
def RetryPolicy.pauses (policy : RetryPolicy) : ℚ :=
  policy.pausesFrom 1 (policy.maxAttempts - 1)

/-- The command asks the credit provider for a credit. -/
def Cmd.asksProvider : Cmd → Bool
  | .ledgerIssue _ _ _ => true
  | _ => false

/-- The seconds a command sleeps. -/
def Cmd.slept : Cmd → ℚ
  | .sleep seconds => seconds
  | _ => 0

/-- What a command costs, when asking the provider costs `a` and a second of sleep `s`. -/
def charge (a s : ℚ) (c : Cmd) : ℚ :=
  (if c.asksProvider then a else 0) + s * c.slept

/-- What a call may cost under a policy. -/
def RetryPolicy.budget (policy : RetryPolicy) (a s : ℚ) : ℚ :=
  policy.maxAttempts * a + s * policy.pauses

section Settings

variable {parsers : NumberParsers} {environ : Environ} {name : String}

theorem bind_ok_iff {X Y : Type} {x : Except Exc X} {f : X → Except Exc Y} {y : Y} :
    (x >>= f) = .ok y ↔ ∃ v, x = .ok v ∧ f v = .ok y := by
  constructor
  · intro h
    cases x with
    | error e => exact absurd h (by
        simp only [Bind.bind, Except.bind, reduceCtorEq, not_false_eq_true])
    | ok v => exact ⟨v, rfl, h⟩
  · rintro ⟨v, rfl, h⟩
    exact h

theorem intEnv_ok_iff {default value : Int} {minimum maximum : Nat} :
    intEnv parsers environ name default minimum maximum = .ok value ↔
      setting parsers.int environ name default = .ok value ∧ (minimum : Int) ≤ value ∧
        value ≤ maximum := by
  unfold intEnv
  rw [bind_ok_iff]
  constructor
  · rintro ⟨v, hv, hbounds⟩
    split at hbounds
    · next h => exact ⟨Except.ok.inj hbounds ▸ hv, Except.ok.inj hbounds ▸ h⟩
    · exact absurd hbounds (by simp only [reduceCtorEq, not_false_eq_true])
  · rintro ⟨hv, hbounds⟩
    exact ⟨value, hv, if_pos hbounds⟩

/-- Only a number can be between the bounds. -/
theorem between_some_iff {minimum maximum : Nat} {value : PyFloat} {q : ℚ} :
    value.between minimum maximum = some q ↔
      value = .finite q ∧ (minimum : ℚ) ≤ q ∧ q ≤ maximum := by
  cases value with
  | finite p =>
      simp only [PyFloat.between, PyFloat.finite.injEq, Option.ite_none_right_eq_some,
        Option.some.injEq]
      constructor
      · rintro ⟨h, rfl⟩
        exact ⟨rfl, h⟩
      · rintro ⟨rfl, h⟩
        exact ⟨h, rfl⟩
  | infinite positive => simp only [PyFloat.between, reduceCtorEq, false_and]
  | nan => simp only [PyFloat.between, reduceCtorEq, false_and]

theorem floatEnv_ok_iff {default value : ℚ} {minimum maximum : Nat} :
    floatEnv parsers environ name default minimum maximum = .ok value ↔
      setting parsers.float environ name (.finite default) = .ok (.finite value) ∧
        (minimum : ℚ) ≤ value ∧ value ≤ maximum := by
  unfold floatEnv
  rw [bind_ok_iff]
  constructor
  · rintro ⟨v, hv, hbounds⟩
    split at hbounds
    · next q hq =>
        rcases between_some_iff.mp hq with ⟨rfl, hbetween⟩
        exact ⟨Except.ok.inj hbounds ▸ hv, Except.ok.inj hbounds ▸ hbetween⟩
    · exact absurd hbounds (by simp only [reduceCtorEq, not_false_eq_true])
  · rintro ⟨hv, hbounds⟩
    refine ⟨_, hv, ?_⟩
    rw [between_some_iff.mpr ⟨rfl, hbounds⟩]

/-- The policy of an environment is what its settings say, and within the bounds. -/
structure ConfiguredBy (parsers : NumberParsers) (environ : Environ) (policy : RetryPolicy) :
    Prop where
  attempts : setting parsers.int environ "ASANTE_CREDIT_MAX_ATTEMPTS" 2 =
    .ok (policy.maxAttempts : Int)
  initial : setting parsers.float environ "ASANTE_CREDIT_RETRY_BACKOFF_SECONDS"
    (.finite (1 / 20)) = .ok (.finite policy.initialBackoffSeconds)
  max : setting parsers.float environ "ASANTE_CREDIT_RETRY_MAX_BACKOFF_SECONDS"
    (.finite (1 / 5)) = .ok (.finite policy.maxBackoffSeconds)
  attempts_le : policy.maxAttempts ≤ 4
  initial_le : policy.initialBackoffSeconds ≤ 2
  max_le : policy.maxBackoffSeconds ≤ 5

/-- The environments that give a policy. -/
theorem policyFromEnv_ok_iff {policy : RetryPolicy} :
    creditRetryPolicyFromEnv parsers environ = .ok policy ↔
      ConfiguredBy parsers environ policy := by
  unfold creditRetryPolicyFromEnv
  simp only [bind_ok_iff, intEnv_ok_iff, floatEnv_ok_iff, make_ok_iff]
  constructor
  · rintro ⟨n, ⟨hn, -, hn4⟩, i, ⟨hi, -, hi2⟩, m, ⟨hm, -, hm5⟩, rfl, rfl, rfl⟩
    exact ⟨hn, hi, hm, by omega, by exact_mod_cast hi2, by exact_mod_cast hm5⟩
  · intro h
    have hpos := policy.attempts_pos
    refine ⟨policy.maxAttempts, ⟨h.attempts, by omega, ?_⟩, policy.initialBackoffSeconds,
      ⟨h.initial, ?_, ?_⟩, policy.maxBackoffSeconds, ⟨h.max, ?_, ?_⟩, rfl, rfl, rfl⟩
    · have hle := h.attempts_le
      omega
    · exact_mod_cast policy.initial_nonneg
    · exact_mod_cast h.initial_le
    · exact_mod_cast policy.max_nonneg
    · exact_mod_cast h.max_le

/-- The environments that give the MCP clients their transport. -/
theorem mcpConfigFromEnv_ok_iff {config : McpReliabilityConfig} :
    mcpReliabilityConfigFromEnv parsers environ = .ok config ↔
      (setting parsers.float environ "ASANTE_MCP_TIMEOUT_SECONDS" (.finite 10) =
          .ok (.finite config.timeoutSeconds) ∧
        1 ≤ config.timeoutSeconds ∧ config.timeoutSeconds ≤ 60) ∧
      setting parsers.int environ "ASANTE_MCP_MAX_RETRIES" 1 = .ok config.maxRetryAttempts ∧
        0 ≤ config.maxRetryAttempts ∧ config.maxRetryAttempts ≤ 3 := by
  unfold mcpReliabilityConfigFromEnv
  simp only [bind_ok_iff, intEnv_ok_iff, floatEnv_ok_iff]
  constructor
  · rintro ⟨timeout, htimeout, retries, hretries, hconfig⟩
    cases hconfig
    exact ⟨by exact_mod_cast htimeout, by exact_mod_cast hretries⟩
  · rintro ⟨htimeout, hretries⟩
    exact ⟨_, by exact_mod_cast htimeout, _, by exact_mod_cast hretries, rfl⟩

/-- With nothing set, the policy is the one of the default deployment. -/
example (sha256 : String → String) :
    creditRetryPolicyFromEnv parsers (fun _ => none) =
      .ok (Deployment.defaults sha256).retryPolicy :=
  policyFromEnv_ok_iff.mpr ⟨rfl, rfl, rfl, show 2 ≤ 4 by decide,
    show (1 / 20 : ℚ) ≤ 2 by decide +kernel, show (1 / 5 : ℚ) ≤ 5 by decide +kernel⟩

end Settings

theorem pauses_nonneg (policy : RetryPolicy) (attempt n : Nat) :
    0 ≤ policy.pausesFrom attempt n := by
  refine List.sum_nonneg fun q hq => ?_
  rcases List.mem_map.mp hq with ⟨i, -, rfl⟩
  exact backoff_nonneg policy i

theorem pauses_succ (policy : RetryPolicy) (attempt n : Nat) :
    policy.pausesFrom attempt (n + 1) =
      policy.backoffSeconds attempt + policy.pausesFrom (attempt + 1) n := by
  simp only [RetryPolicy.pausesFrom, List.range'_succ, List.map_cons, List.sum_cons]

theorem pauses_mono (policy : RetryPolicy) {m n : Nat} (hmn : m ≤ n) :
    ∀ attempt, policy.pausesFrom attempt m ≤ policy.pausesFrom attempt n := by
  induction hmn with
  | refl => exact fun _ => le_rfl
  | step hmn ih =>
      intro attempt
      refine (ih attempt).trans ?_
      rw [RetryPolicy.pausesFrom, RetryPolicy.pausesFrom, List.range'_concat, List.map_append,
        List.sum_append]
      refine le_add_of_nonneg_right ?_
      simp only [List.map_cons, List.map_nil, List.sum_cons, List.sum_nil, add_zero]
      exact backoff_nonneg policy _

/-- Four attempts pause three times, for two, four and five seconds at most. -/
theorem pauses_le {policy : RetryPolicy} (hattempts : policy.maxAttempts ≤ 4)
    (hinitial : policy.initialBackoffSeconds ≤ 2) (hmax : policy.maxBackoffSeconds ≤ 5) :
    policy.pauses ≤ 11 := by
  have hone : policy.backoffSeconds 1 ≤ 2 := by
    refine (min_le_left _ _).trans ?_
    rw [Nat.sub_self, pow_zero]
    linarith
  have htwo : policy.backoffSeconds 2 ≤ 4 := by
    refine (min_le_left _ _).trans ?_
    rw [Nat.add_one_sub_one, pow_one]
    linarith
  have hthree : policy.backoffSeconds 3 ≤ 5 := (backoff_le_max policy 3).trans hmax
  calc policy.pauses
      ≤ policy.pausesFrom 1 3 := pauses_mono policy (by omega) 1
    _ = policy.backoffSeconds 1 + (policy.backoffSeconds 2 + (policy.backoffSeconds 3 + 0)) := by
        rw [pauses_succ, pauses_succ, pauses_succ]
        rfl
    _ ≤ 11 := by linarith

section Costs

variable {a s : ℚ} {α : Type}

/-- A command that neither asks the provider nor sleeps is free. -/
theorem charge_free {c : Cmd} (hasks : c.asksProvider = false) (hslept : c.slept = 0) :
    charge a s c = 0 := by
  rw [charge, hasks, hslept, mul_zero, add_zero, if_neg Bool.false_ne_true]

theorem charge_opens (c : Cmd) (h : c.opens = true) : charge a s c = 0 := by
  cases c with
  | uuid4 => exact charge_free rfl rfl
  | now => exact charge_free rfl rfl
  | registerGrant grant => exact charge_free rfl rfl
  | _ => exact absurd h Bool.noConfusion

theorem costLe_ask {c : Cmd} (h : charge a s c = 0) :
    CostLe (E := Exc) (charge a s) (ask c) 0 :=
  costLe_of_issues (issues_ask h)

theorem costLe_sleep (hs : 0 ≤ s) {seconds : ℚ} (hseconds : 0 ≤ seconds) :
    CostLe (E := Exc) (charge a s) (ask (.sleep seconds)) (s * seconds) := by
  have hcharge : charge a s (.sleep seconds) = s * seconds := zero_add _
  refine ⟨?_, hcharge.le, fun _ => ?_⟩
  · rw [hcharge]
    exact mul_nonneg hs hseconds
  · rw [hcharge, sub_self]
    exact le_rfl

theorem costLe_provider (ha : 0 ≤ a) (writer : Writer) (credit : Credit) (key : Option String) :
    CostLe (E := Exc) (charge a s) (ask (.ledgerIssue writer credit key)) a := by
  have hcharge : charge a s (.ledgerIssue writer credit key) = a := by
    have hcost : charge a s (.ledgerIssue writer credit key) = a + s * 0 := rfl
    rw [hcost, mul_zero, add_zero]
  refine ⟨?_, hcharge.le, fun _ => ?_⟩
  · rw [hcharge]
    exact ha
  · rw [hcharge, sub_self]
    exact le_rfl

theorem costLe_raise {n : ℚ} (hn : 0 ≤ n) (r : Except Exc α) :
    CostLe (charge a s) (Core.Prog.ofExcept r : App α) n := by
  cases r with
  | ok x => exact hn
  | error e => exact hn

theorem costLe_orRaise {p : App (Except Exc α)} {n : ℚ} (h : CostLe (charge a s) p n) :
    CostLe (charge a s) (orRaise p) n :=
  costLe_then h (costLe_raise le_rfl)

theorem costLe_validated {valid : Bool} {endpoint : App α} {n : ℚ}
    (h : CostLe (charge a s) endpoint n) : CostLe (charge a s) (validated valid endpoint) n := by
  unfold validated
  split
  · exact h
  · exact costLe_nonneg h

/-- The opening of a secured operation is free. -/
theorem costLe_secured {submit : Int → Request} {body : Permit → Revalidation → App PyDict}
    {n : ℚ} (hn : 0 ≤ n) (hbody : ∀ permit live, CostLe (charge a s) (body permit live) n) :
    CostLe (charge a s) (secured submit body) n := by
  unfold secured
  refine costLe_seq hn (costLe_ask (charge_free rfl rfl)) fun now => ?_
  refine costLe_seq hn (costLe_orRaise (costLe_ask (charge_free rfl rfl))) fun admission => ?_
  split
  · split
    · exact hn
    · refine costLe_seq hn (costLe_ask (charge_free rfl rfl)) fun live => ?_
      split
      · exact hbody _ _
      · exact hn
  · exact hn

/-- The end of a lifecycle is free. -/
theorem costLe_complete {permit : Permit} {message : String} {rest : App α}
    (h : CostLe (charge a s) rest 0) :
    CostLe (charge a s) (completeOrRaise permit message >>= fun _ => rest) 0 := by
  refine costLe_seq le_rfl (costLe_seq le_rfl (costLe_ask (charge_free rfl rfl))
    fun completed => ?_) fun _ => h
  split
  · exact le_rfl
  · exact le_rfl

/-- A provider step, and the end of its lifecycle. -/
theorem costLe_step {permit : Permit} {operation : App α} {message : String} {n : ℚ}
    {rest : α → App PyDict} (h : CostLe (charge a s) operation n)
    (hrest : ∀ x, CostLe (charge a s) (rest x) 0) :
    CostLe (charge a s) (do
      let result ← markUnknownOnError permit operation
      completeOrRaise permit message
      rest result) n := by
  refine costLe_then (costLe_handled h fun e => ?_) fun x => ?_
  · split
    · exact costLe_seq le_rfl (costLe_ask (charge_free rfl rfl)) fun _ => le_rfl
    · exact le_rfl
  · exact costLe_complete (hrest x)

/-- A decision on an approval is free. -/
theorem costLe_decide (approvalId : String) (approved : Bool) (decidedBy : String)
    (note : Option String) :
    CostLe (charge a s) (approvalsDecide approvalId approved decidedBy note) 0 :=
  costLe_of_issues (issues_decision (charge_free rfl rfl) (charge_free rfl rfl))

theorem costLe_approvalErrors {decision : App α} (h : CostLe (charge a s) decision 0) :
    CostLe (charge a s) (approvalErrors decision) 0 := by
  refine costLe_handled h fun e => ?_
  split
  · exact le_rfl
  · split
    · exact le_rfl
    · exact le_rfl

variable (ha : 0 ≤ a) (hs : 0 ≤ s)

include ha hs

theorem budget_nonneg (policy : RetryPolicy) : 0 ≤ policy.budget a s :=
  add_nonneg (mul_nonneg (Nat.cast_nonneg _) ha) (mul_nonneg hs (pauses_nonneg policy _ _))

/-- One attempt is within every budget. -/
theorem le_budget (policy : RetryPolicy) : a ≤ policy.budget a s := by
  refine le_add_of_le_of_nonneg ?_ (mul_nonneg hs (pauses_nonneg policy _ _))
  exact le_mul_of_one_le_left ha (Nat.one_le_cast.mpr policy.attempts_pos)

/-- What is left of the retry loop costs the attempts that are left and the pauses
    between them. The attempts are counted up to the last, which does not pause. -/
theorem costLe_retry {operation : App α} (policy : RetryPolicy)
    (hop : CostLe (charge a s) operation a) :
    ∀ left attempt, attempt + left = policy.maxAttempts + 1 →
      CostLe (charge a s)
        (retryFrom operation policy (fun n => ask (.recordCreditRetry n)) left attempt)
        (left * a + s * policy.pausesFrom attempt (left - 1)) := by
  intro left
  induction left with
  | zero =>
      intro attempt _
      exact add_nonneg (mul_nonneg (Nat.cast_nonneg _) ha)
        (mul_nonneg hs (pauses_nonneg policy _ _))
  | succ left ih =>
      intro attempt hleft
      have hrest : 0 ≤ left * a + s * policy.pausesFrom attempt left :=
        add_nonneg (mul_nonneg (Nat.cast_nonneg _) ha) (mul_nonneg hs (pauses_nonneg policy _ _))
      have hsplit : ((left + 1 : Nat) : ℚ) * a + s * policy.pausesFrom attempt (left + 1 - 1) =
          a + (left * a + s * policy.pausesFrom attempt left) := by
        rw [Nat.add_sub_cancel]
        push_cast
        ring
      rw [hsplit]
      refine costLe_tryCatch hrest hop fun e => ?_
      split
      · split
        · exact hrest
        · next hmore =>
            -- There is an attempt after the pause.
            rcases left with _ | left
            · exact absurd hleft (by omega)
            have hpause : ((left + 1 : Nat) : ℚ) * a + s * policy.pausesFrom attempt (left + 1) =
                s * policy.backoffSeconds attempt +
                  (((left + 1 : Nat) : ℚ) * a + s * policy.pausesFrom (attempt + 1) left) := by
              rw [pauses_succ]
              ring
            have hloop := ih (attempt + 1) (by omega)
            refine costLe_seq hrest (costLe_ask (charge_free rfl rfl)) fun _ => ?_
            dsimp only
            rw [hpause]
            split
            · exact costLe_bind (costLe_nonneg hloop)
                (costLe_sleep hs (backoff_nonneg policy attempt)) fun _ => hloop
            · refine costLe_mono (le_add_of_nonneg_left ?_) hloop
              exact mul_nonneg hs (backoff_nonneg policy _)
      · exact hrest

/-- The policy of a secured operation that retries, and of the deployment for the
    others. -/
def ToolCall.policy (d : Deployment) : ToolCall → RetryPolicy
  | issueCredit retryPolicy _ _ _ _ _ => retryPolicy
  | _ => d.retryPolicy

/-- A secured operation is within the budget of its policy. -/
theorem costLe_tool (d : Deployment) (call : ToolCall) :
    CostLe (charge a s) (call.code d) ((call.policy d).budget a s) := by
  have hbudget := budget_nonneg ha hs (call.policy d)
  cases call with
  | issueCredit retryPolicy reservationId amount reason task chain =>
      refine costLe_secured hbudget fun permit live => ?_
      refine costLe_seq hbudget (costLe_raise le_rfl _) fun key => costLe_step ?_ fun _ => le_rfl
      exact costLe_retry ha hs retryPolicy (costLe_orRaise (costLe_provider ha _ _ _)) _ _
        (Nat.add_comm _ _)
  | getReservation reservationId task chain =>
      refine costLe_secured hbudget fun permit live => costLe_mono hbudget ?_
      refine costLe_seq le_rfl (costLe_raise le_rfl _) fun cacheKey => ?_
      refine costLe_seq le_rfl (costLe_orRaise (costLe_ask (charge_free rfl rfl))) fun lookup => ?_
      split
      · exact costLe_complete le_rfl
      · refine costLe_seq le_rfl (costLe_orRaise (costLe_ask (charge_free rfl rfl))) fun found => ?_
        split
        · exact costLe_complete le_rfl
        · exact costLe_seq le_rfl (costLe_orRaise (costLe_ask (charge_free rfl rfl)))
            fun _ => costLe_complete le_rfl
  | createMaintenanceRequest reservationId category urgency description task chain =>
      simp only [ToolCall.code, createMaintenanceRequest]
      split
      · refine costLe_seq hbudget (costLe_raise le_rfl _) fun key => ?_
        exact costLe_secured hbudget fun permit live => costLe_mono hbudget
          (costLe_step (costLe_orRaise (costLe_ask (charge_free rfl rfl))) fun _ => le_rfl)
      · exact hbudget
  | sendGuestMessage reservationId message task chain =>
      simp only [ToolCall.code, sendGuestMessage]
      split
      · exact hbudget
      · refine costLe_seq hbudget (costLe_raise le_rfl _) fun key => ?_
        exact costLe_secured hbudget fun permit live => costLe_mono hbudget
          (costLe_step (costLe_orRaise (costLe_ask (charge_free rfl rfl))) fun _ => le_rfl)
  | requestGuestCredit reservationId amount reason task chain =>
      refine costLe_secured hbudget fun permit live => costLe_mono hbudget
        (costLe_step ?_ fun _ => le_rfl)
      refine costLe_seq le_rfl (costLe_orRaise (costLe_ask (charge_free rfl rfl))) fun _ => ?_
      exact costLe_seq le_rfl (costLe_orRaise (costLe_ask (charge_free rfl rfl))) fun _ => le_rfl
  | executeApproved approval task chain =>
      simp only [ToolCall.code, executeApproved]
      split
      · exact hbudget
      · split
        · refine costLe_secured hbudget fun permit live => costLe_mono (le_budget ha hs _)
            (costLe_step (costLe_orRaise (costLe_provider ha _ _ _)) fun _ => ?_)
          -- The mark on the row is not charged.
          refine costLe_seq le_rfl (costLe_seq le_rfl (costLe_orRaise
            (costLe_ask (charge_free rfl rfl))) fun current => ?_) fun _ => le_rfl
          split
          · exact le_rfl
          · exact costLe_orRaise (costLe_ask (charge_free rfl rfl))
        · exact hbudget

omit ha hs in
theorem toolCall_policy (d : Deployment) (tool : McpTool) (context : AsanteRunContext) :
    (tool.toolCall d context).policy d = d.retryPolicy := by
  cases tool with
  | issueGuestCredit reservationId amount reason => rfl
  | getReservation reservationId => rfl
  | createMaintenanceRequest reservationId category urgency description => rfl
  | sendGuestMessage reservationId message => rfl
  | requestGuestCredit reservationId amount reason => rfl

/-- Every call is within the budget of the deployment. -/
theorem costLe_app (d : Deployment) (call : AppCall) :
    CostLe (charge a s) (call.code d) (d.retryPolicy.budget a s) := by
  have hbudget := budget_nonneg ha hs d.retryPolicy
  have htool : ∀ {α : Type} (toolCall : ToolCall) {f : PyDict → App α},
      toolCall.policy d = d.retryPolicy → (∀ result, CostLe (charge a s) (f result) 0) →
      CostLe (charge a s) (toolCall.code d >>= f) (d.retryPolicy.budget a s) :=
    fun toolCall _ hpolicy hf => costLe_then (hpolicy ▸ costLe_tool ha hs d toolCall) hf
  cases call with
  | runAgent operator message =>
      refine costLe_validated (costLe_seq hbudget
        (costLe_of_issues (opening_run charge_opens d operator)) fun context => ?_)
      refine costLe_seq hbudget (costLe_orRaise (costLe_ask (charge_free rfl rfl))) fun _ => ?_
      refine costLe_seq hbudget (costLe_ask (charge_free rfl rfl)) fun result => ?_
      refine costLe_seq hbudget (costLe_ask (charge_free rfl rfl)) fun _ => ?_
      exact costLe_seq hbudget (costLe_raise le_rfl _) fun _ => hbudget
  | mcp tool metadata =>
      have hfree : 0 ≤ (0 : ℚ) := le_rfl
      refine costLe_then ?_ fun _ => hfree
      refine costLe_seq hbudget (costLe_raise hfree _) fun _ => ?_
      refine costLe_seq hbudget (costLe_raise hfree _) fun taskId => ?_
      refine costLe_seq hbudget (costLe_orRaise (costLe_ask (charge_free rfl rfl))) fun _ => ?_
      refine costLe_handled ?_ fun e => ?_
      · rw [forTrustedTask_eq]
        refine costLe_seq hbudget (costLe_orRaise (costLe_ask (charge_free rfl rfl)))
          fun context => ?_
        rw [← toolCall_policy d tool context]
        exact costLe_tool ha hs d (tool.toolCall d context)
      · split
        · exact hfree
        · exact hfree
  | devIssueCredit operator reservationId amount reason =>
      refine costLe_validated (costLe_seq hbudget
        (costLe_of_issues (opening_task charge_opens _ _ _)) fun task => ?_)
      refine costLe_seq hbudget (costLe_of_issues (opening_serviceRecovery charge_opens d _ _ _))
        fun chain => ?_
      exact htool (.issueCredit d.retryPolicy reservationId amount reason task chain) rfl
        fun _ => le_rfl
  | devGetReservation operator reservationId =>
      refine costLe_seq hbudget (costLe_of_issues (opening_task charge_opens _ _ _)) fun task => ?_
      refine costLe_seq hbudget (costLe_of_issues (opening_chain charge_opens d _ _ _ _))
        fun chain => ?_
      exact htool (.getReservation reservationId task chain) rfl fun _ => le_rfl
  | approve operator approvalId note =>
      have hrequire : CostLe (charge a s) (orRaise (ask (.requireRecord approvalId))) 0 :=
        costLe_orRaise (costLe_ask (charge_free rfl rfl))
      refine costLe_validated (costLe_seq hbudget (costLe_raise le_rfl _) fun _ => ?_)
      refine costLe_seq hbudget ?_ fun decided => ?_
      · refine costLe_approvalErrors (costLe_seq le_rfl hrequire fun record => ?_)
        split
        · exact le_rfl
        · exact costLe_seq le_rfl (costLe_decide _ _ _ _) fun _ => le_rfl
      · split
        · exact hbudget
        · next record =>
            refine costLe_seq hbudget (costLe_of_issues (opening_task charge_opens _ _ _))
              fun task => ?_
            refine costLe_seq hbudget
              (costLe_of_issues (opening_approvalExecutor charge_opens d _ _)) fun chain => ?_
            exact htool (.executeApproved record task chain) rfl fun _ =>
              costLe_seq le_rfl hrequire fun _ => le_rfl
  | deny operator approvalId note =>
      refine costLe_validated (costLe_seq hbudget (costLe_raise le_rfl _) fun _ => ?_)
      exact costLe_seq hbudget (costLe_approvalErrors (costLe_decide _ _ _ _)) fun _ => hbudget

end Costs

/-- How often the commands of a thread asked the credit provider. -/
def asked (tr : List (Core.Event Cmd Cmd.Answer)) : Nat :=
  tr.countP fun ev => ev.cmd.asksProvider

/-- How long the commands of a thread slept. -/
def sleptFor (tr : List (Core.Event Cmd Cmd.Answer)) : ℚ :=
  (tr.map fun ev => ev.cmd.slept).sum

theorem charged_sum (a s : ℚ) (tr : List (Core.Event Cmd Cmd.Answer)) :
    (tr.map fun ev => charge a s ev.cmd).sum = asked tr * a + s * sleptFor tr := by
  induction tr with
  | nil => simp only [asked, sleptFor, List.map_nil, List.sum_nil, List.countP_nil, Nat.cast_zero,
      zero_mul, mul_zero, add_zero]
  | cons ev tr ih =>
      simp only [asked, sleptFor] at ih ⊢
      rw [List.map_cons, List.sum_cons, ih, List.map_cons, List.sum_cons, List.countP_cons, charge]
      split
      · push_cast
        ring
      · push_cast
        ring

/-- No call asks more often, or sleeps longer, than the policy of the deployment
    provides for. -/
theorem app_within_policy (d : Deployment) (sched : List (Core.Action AppCall Env)) :
    ∀ th ∈ (appRun d sched).threads, asked th.trace ≤ d.retryPolicy.maxAttempts ∧
      sleptFor th.trace ≤ d.retryPolicy.pauses := by
  intro th hth
  have hwalks := Core.exec_walks perform (AppCall.code d) World.empty sched th hth
  have hcost : ∀ a s : ℚ, 0 ≤ a → 0 ≤ s →
      asked th.trace * a + s * sleptFor th.trace ≤ d.retryPolicy.budget a s := by
    intro a s ha hs
    rw [← charged_sum]
    exact (costLe_walks hwalks _ (costLe_app ha hs d th.call)).1
  constructor
  · -- Asking is charged and sleeping is free.
    have h := hcost 1 0 zero_le_one le_rfl
    rw [RetryPolicy.budget, mul_one, zero_mul, add_zero, mul_one, zero_mul, add_zero] at h
    exact_mod_cast h
  · have h := hcost 0 1 le_rfl zero_le_one
    rw [RetryPolicy.budget, mul_zero, one_mul, zero_add, mul_zero, one_mul, zero_add] at h
    exact h

/-- In a process that has started with the settings of its environment, no call
    of any run asks the credit provider more than four times or sleeps for more
    than eleven seconds, whatever the settings and the answers are. -/
theorem configured_budget (parsers : NumberParsers) (environ : Environ) (d : Deployment)
    (hconfigured : creditRetryPolicyFromEnv parsers environ = .ok d.retryPolicy)
    (sched : List (Core.Action AppCall Env)) :
    ∀ th ∈ (appRun d sched).threads, asked th.trace ≤ d.retryPolicy.maxAttempts ∧
      d.retryPolicy.maxAttempts ≤ 4 ∧ sleptFor th.trace ≤ d.retryPolicy.pauses ∧
        d.retryPolicy.pauses ≤ 11 := by
  intro th hth
  have hpolicy := policyFromEnv_ok_iff.mp hconfigured
  rcases app_within_policy d sched th hth with ⟨hasked, hslept⟩
  exact ⟨hasked, hpolicy.attempts_le, hslept,
    pauses_le hpolicy.attempts_le hpolicy.initial_le hpolicy.max_le⟩

/-- The readings of the two texts of the largest settings. -/
def sampleParsers : NumberParsers :=
  { int := fun text => if text = "4" then .ok 4 else .error (.valueError text)
    float := fun text =>
      if text = "2.0" then .ok (.finite 2)
      else if text = "5.0" then .ok (.finite 5)
      else .error (.valueError text) }

/-- The largest settings that are accepted. -/
def largestSettings : Environ := fun name =>
  if name = "ASANTE_CREDIT_MAX_ATTEMPTS" then some "4"
  else if name = "ASANTE_CREDIT_RETRY_BACKOFF_SECONDS" then some "2.0"
  else if name = "ASANTE_CREDIT_RETRY_MAX_BACKOFF_SECONDS" then some "5.0"
  else none

/-- The deployment with the largest settings. -/
def Deployment.patient : Deployment :=
  { Deployment.sample with
    retryPolicy :=
      { maxAttempts := 4
        initialBackoffSeconds := 2
        maxBackoffSeconds := 5
        attempts_pos := by omega
        initial_nonneg := by decide +kernel
        max_nonneg := by decide +kernel } }

/-- A direct credit whose provider fails before it does anything, every time. -/
def providerDown : List (Core.Action AppCall Env) :=
  .spawn (.devIssueCredit ⟨"claire", ["asante:operate"]⟩ "R-3001" 10 "noise") ::
    (List.replicate 10 (.advance 0 .granting) ++ List.replicate 12 (.advance 0
      { Env.granting with fault := .before (.transientCreditProviderError "unavailable") }))

/-- The bounds are reached: four attempts and eleven seconds between them. -/
theorem configured_budget_sample :
    ∃ th ∈ (appRun .patient providerDown).threads,
      asked th.trace = 4 ∧ sleptFor th.trace = 11 ∧
        asked th.trace ≤ Deployment.patient.retryPolicy.maxAttempts := by
  have hreached : ((appRun .patient providerDown).threads.any fun th =>
      asked th.trace = 4 && sleptFor th.trace = 11) = true := by
    decide +kernel
  rcases List.any_eq_true.mp hreached with ⟨th, hth, hboth⟩
  rcases Bool.and_eq_true_iff.mp hboth with ⟨hasked, hslept⟩
  have hconfigured : creditRetryPolicyFromEnv sampleParsers largestSettings =
      .ok Deployment.patient.retryPolicy :=
    policyFromEnv_ok_iff.mpr ⟨rfl, rfl, rfl, le_rfl, le_rfl, le_rfl⟩
  exact ⟨th, hth, of_decide_eq_true hasked, of_decide_eq_true hslept,
    (configured_budget sampleParsers largestSettings .patient hconfigured providerDown th
      hth).1⟩

end Asante
