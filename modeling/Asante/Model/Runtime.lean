import Asante.Model.Ruhusa

/-!
# Security Runtime

What `build_security_runtime` configures Ruhusa with: the tool identifiers and
the ordered policy rules. Two rules speak about the same action,
`guest.credit.issue`, and their conditions overlap, so the order of the list
decides which one a small amount meets.

An amount is looked up in the arguments of the request and has to be a number;
a Python `bool` is one. A request without a numeric amount meets none of the
three conditions.

## Main definitions

* `creditAtMost`, `creditRequestBetween`, `verifiedApprovedCredit`: The
  conditions of the credit rules.
* `toolRegistry`: The registered tools.
* `policyRules`: The listed rules.
* `sanctioned`: What Ruhusa requires of a request it allows.

## Theorems

* `policyAllows_creditIssue`: What an allowed direct credit satisfies.
* `policyAllows_creditRequest`: What an allowed credit request satisfies.
-/

namespace Asante

def creditToolId : String := "asante.guest-credit"
def creditToolImplementation : String := "asante.guest-credit@0.9.0"
def reservationToolId : String := "asante.reservation-reader"
def reservationToolImplementation : String := "asante.reservation-reader@0.9.0"
def guestOperationsToolId : String := "asante.guest-operations"
def guestOperationsToolImplementation : String := "asante.guest-operations@0.9.0"
def approvedCreditToolId : String := "asante.approved-credit"
def approvedCreditToolImplementation : String := "asante.approved-credit@0.9.0"

/-- `ToolRegistration`. -/
structure ToolRegistration where
  toolId : String
  implementationId : String
  allowedActions : List String

/-- The registered tools. -/
def toolRegistry : List ToolRegistration :=
  [ { toolId := creditToolId
      implementationId := creditToolImplementation
      allowedActions := ["guest.credit.issue"] },
    { toolId := reservationToolId
      implementationId := reservationToolImplementation
      allowedActions := ["reservation.read"] },
    { toolId := guestOperationsToolId
      implementationId := guestOperationsToolImplementation
      allowedActions := ["maintenance.create", "guest.message.send", "guest.credit.request"] },
    { toolId := approvedCreditToolId
      implementationId := approvedCreditToolImplementation
      allowedActions := ["guest.credit.issue.approved"] } ]

/-- `float(value)` where `isinstance(value, (int, float))`. -/
def asNumber : PyVal → Option ℚ
  | .num q => some q
  | .bool b => some (if b then 1 else 0)
  | _ => none

/-- The numeric amount among the arguments of a request. -/
def amountArgument (req : Request) : Option ℚ :=
  (req.arguments.get? "amount").bind asNumber

/-- `_credit_at_most`: credits in `(0, limit]`. -/
def creditAtMost (limit : ℚ) (req : Request) : Bool :=
  match amountArgument req with
  | some amount => 0 < amount && amount ≤ limit
  | none => false

/-- `_credit_request_between`: credits in `(lowerExclusive, upperInclusive]`. -/
def creditRequestBetween (lowerExclusive upperInclusive : ℚ) (req : Request) : Bool :=
  match amountArgument req with
  | some amount => lowerExclusive < amount && amount ≤ upperInclusive
  | none => false

/-- `_verified_approved_credit`: a verified approval with an identifier, and an
    amount in `(0, limit]`. -/
def verifiedApprovedCredit (limit : ℚ) (req : Request) : Bool :=
  let verified := match req.arguments.get? "approval_verified" with
    | some (.bool true) => true
    | _ => false
  let approvalId := match req.arguments.get? "approval_id" with
    | some (.str s) => s ≠ ""
    | _ => false
  verified && approvalId && creditAtMost limit req

/-- The rules of the policy store, in order. -/
def policyRules (trustDomain : String) : List PolicyRule :=
  [ { policyId := "reservations-read"
      effect := .allow
      actions := ["reservation.read"]
      principalIds := [principalId trustDomain .reservations]
      resourcePrefixes := ["reservation:"]
      reason := "reservations specialist may read reservations within delegated scope" },
    { policyId := "property-operations-maintenance-create"
      effect := .allow
      actions := ["maintenance.create"]
      principalIds := [principalId trustDomain .propertyOperations]
      resourcePrefixes := ["reservation:"]
      reason := "property operations may create maintenance work orders" },
    { policyId := "guest-support-message-send"
      effect := .allow
      actions := ["guest.message.send"]
      principalIds := [principalId trustDomain .guestSupport]
      resourcePrefixes := ["reservation:"]
      reason := "guest support may send operational guest updates" },
    { policyId := "service-recovery-credit-request"
      effect := .allow
      actions := ["guest.credit.request"]
      principalIds := [principalId trustDomain .serviceRecovery]
      resourcePrefixes := ["reservation:"]
      condition := creditRequestBetween 25 100
      reason := "service recovery may request human approval for credits above $25 up to $100" },
    { policyId := "service-recovery-small-credit"
      effect := .allow
      actions := ["guest.credit.issue"]
      principalIds := [principalId trustDomain .serviceRecovery]
      resourcePrefixes := ["reservation:"]
      condition := creditAtMost 25
      reason := "service recovery may issue automatic service credit up to $25" },
    { policyId := "service-recovery-credit-needs-approval"
      effect := .requireApproval
      actions := ["guest.credit.issue"]
      principalIds := [principalId trustDomain .serviceRecovery]
      resourcePrefixes := ["reservation:"]
      condition := creditAtMost 100
      reason := "credits above $25 and up to $100 require human approval" },
    { policyId := "approved-credit-executor"
      effect := .allow
      actions := ["guest.credit.issue.approved"]
      principalIds := [principalId trustDomain .approvalExecutor]
      resourcePrefixes := ["reservation:"]
      condition := verifiedApprovedCredit 100
      reason := "trusted approval executor may issue a human-approved credit up to $100" } ]

/-- A tool of this identifier is registered for the action. -/
def registeredFor (toolId action : String) : Bool :=
  toolRegistry.any fun tool => tool.toolId = toolId && tool.allowedActions.contains action

/-- No numeric argument of the request is over a limit of the scope. -/
def Scope.withinLimits (scope : Scope) (req : Request) : Bool :=
  scope.maxNumericArguments.all fun limit =>
    match (req.arguments.get? limit.1).bind asNumber with
    | some value => value ≤ limit.2
    | none => true

/-- The scope contains the action, the resource and the numeric arguments of the
    request. -/
def Scope.contains (scope : Scope) (req : Request) : Bool :=
  scope.actions.contains req.action && scope.resourcePrefixes.any (startsWith req.resource) &&
    scope.withinLimits req

/-- The chain leads from one principal to another, each grant made by the grantee
    of the one before it. -/
def linked : String → List DelegationGrant → String → Bool
  | grantor, [], grantee => grantor = grantee
  | grantor, grant :: chain, grantee =>
    grant.grantorId = grantor && linked grant.granteeId chain grantee

/-- What Ruhusa requires of a request it allows, as far as the results assume it:
    a tool registered for the action, an allowing rule that matches first, and a
    chain of registered grants of the request's task, from the initiator of the
    task to the executing principal, each with a scope that contains the
    request. -/
def sanctioned (trustDomain : String) (registered : List DelegationGrant) (req : Request) : Bool :=
  registeredFor req.toolId req.action && policyAllows (policyRules trustDomain) req &&
    linked req.task.initiatedBy req.delegationChain req.executingPrincipal.principalId &&
    req.delegationChain.all fun grant => registered.contains grant &&
      grant.taskId = req.task.taskId && grant.scope.contains req

/-- The rule that decides an allowed request, with everything it checked. -/
theorem policyAllows_rule {trustDomain : String} {req : Request}
    (h : policyAllows (policyRules trustDomain) req = true) :
    ∃ rule ∈ policyRules trustDomain, rule.effect = .allow ∧ rule.actions.contains req.action ∧
      rule.condition req = true := by
  unfold policyAllows at h
  rcases hfirst : firstMatch (policyRules trustDomain) req with _ | rule
  · rw [hfirst] at h
    exact absurd h (by simp only [Bool.false_eq_true, not_false_eq_true])
  · rw [hfirst] at h
    have happlies := List.find?_some hfirst
    simp only [PolicyRule.applies, Bool.and_eq_true] at happlies
    exact ⟨rule, List.mem_of_find?_eq_some hfirst, by simpa only [decide_eq_true_eq] using h,
      happlies.1.1.1, happlies.2⟩

/-- An allowed direct credit is in `(0, 25]`: the only allowing rule for the
    action is the small-credit rule. -/
theorem policyAllows_creditIssue {trustDomain : String} {req : Request} {amount : ℚ}
    (h : policyAllows (policyRules trustDomain) req = true)
    (haction : req.action = "guest.credit.issue") (hamount : amountArgument req = some amount) :
    0 < amount ∧ amount ≤ 25 := by
  rcases policyAllows_rule h with ⟨rule, hmem, heffect, hact, hcond⟩
  rw [haction] at hact
  simp only [policyRules, List.mem_cons, List.not_mem_nil, or_false] at hmem
  rcases hmem with rfl | rfl | rfl | rfl | rfl | rfl | rfl
  case inr.inr.inr.inr.inl =>
    simpa only [creditAtMost, hamount, Bool.and_eq_true, decide_eq_true_eq] using hcond
  case inr.inr.inr.inr.inr.inl =>
    exact absurd heffect (by simp only [reduceCtorEq, not_false_eq_true])
  all_goals exact absurd hact (by simp)

/-- An allowed credit request is in `(25, 100]`. -/
theorem policyAllows_creditRequest {trustDomain : String} {req : Request} {amount : ℚ}
    (h : policyAllows (policyRules trustDomain) req = true)
    (haction : req.action = "guest.credit.request") (hamount : amountArgument req = some amount) :
    25 < amount ∧ amount ≤ 100 := by
  rcases policyAllows_rule h with ⟨rule, hmem, heffect, hact, hcond⟩
  rw [haction] at hact
  simp only [policyRules, List.mem_cons, List.not_mem_nil, or_false] at hmem
  rcases hmem with rfl | rfl | rfl | rfl | rfl | rfl | rfl
  case inr.inr.inr.inl =>
    simpa only [creditRequestBetween, hamount, Bool.and_eq_true, decide_eq_true_eq] using hcond
  all_goals exact absurd hact (by simp)

end Asante
