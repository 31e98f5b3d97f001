import Asante.Model.Python

/-!
# Ruhusa and Identities

The vocabulary the application shares with the Ruhusa authorizer, and the
identities of the workloads and humans it authorizes.

Ruhusa itself is not modelled. What it answers is a parameter of every run:
`begin` admits a request or not and may hand out a permit, and
`revalidate_before_execution` is asked again with the same request and permit
just before the side effect, and may answer differently. `PolicyRule` is what
the application configures Ruhusa with, and `firstMatch` is the reading of such
a list the results assume of it where they assume anything.

Instants are whole microseconds.

## Main definitions

* `Workload`, `principalId`: The workloads and their SPIFFE identities.
* `AuthenticatedHuman`: The caller of the HTTP endpoints.
* `TaskContext`, `DelegationGrant`, `Scope`: Delegated authority.
* `Request`: One protected action as it is submitted.
* `Admission`, `Revalidation`: The answers at the two checks.
* `PolicyRule`, `firstMatch`: A listed policy and the rule that decides.

## Theorems

* `principalId_inj`: Distinct workloads have distinct identities.
-/

namespace Asante

/-- The trusted workloads. -/
inductive Workload where
  | supervisor
  | guestSupport
  | propertyOperations
  | reservations
  | serviceRecovery
  | approvalExecutor
  deriving DecidableEq

/-- The label the MCP metadata carries. -/
def Workload.label : Workload → String
  | supervisor => "supervisor"
  | guestSupport => "guest-support"
  | propertyOperations => "property-operations"
  | reservations => "reservations"
  | serviceRecovery => "service-recovery"
  | approvalExecutor => "approval-executor"

/-- The path of the workload's SPIFFE ID. -/
def Workload.path : Workload → String
  | supervisor => "agents/supervisor"
  | guestSupport => "agents/guest-support"
  | propertyOperations => "agents/property-operations"
  | reservations => "agents/reservations"
  | serviceRecovery => "agents/service-recovery"
  | approvalExecutor => "services/approval-executor"

/-- `StaticSpiffeWorkloadIdentityProvider(trust_domain).require(w).principal_id`. -/
def principalId (trustDomain : String) (w : Workload) : String :=
  "spiffe://" ++ trustDomain ++ "/" ++ w.path

theorem principalId_inj {trustDomain : String} {v w : Workload}
    (h : principalId trustDomain v = principalId trustDomain w) : v = w := by
  have hpath : v.path = w.path := by
    unfold principalId at h
    simp only [← String.toList_inj, String.toList_append] at h
    exact String.toList_inj.mp (List.append_cancel_left h)
  revert hpath
  cases v <;> cases w <;> decide

/-- The canonical human identity of a validated access token. -/
structure AuthenticatedHuman where
  principalId : String
  scopes : List String
  deriving DecidableEq

/-- One task, on behalf of the human who initiated it. -/
structure TaskContext where
  taskId : String
  initiatedBy : String
  purpose : String
  expiresAt : Int
  deriving DecidableEq

/-- What a grant allows. -/
structure Scope where
  actions : List String
  resourcePrefixes : List String
  maxNumericArguments : List (String × ℚ) := []
  deriving DecidableEq

/-- One link of a delegation chain. -/
structure DelegationGrant where
  grantId : String
  grantorId : String
  granteeId : String
  taskId : String
  scope : Scope
  issuedAt : Int
  expiresAt : Int
  deriving DecidableEq

/-- The principal that executes an action. -/
structure Principal where
  principalId : String
  principalType : String
  deriving DecidableEq

/-- One protected action, as the tools submit it. -/
structure Request where
  invokingPrincipalId : String
  executingPrincipal : Principal
  task : TaskContext
  action : String
  resource : String
  arguments : PyDict
  expiresAt : Int
  toolId : String
  implementationId : String
  delegationChain : List DelegationGrant

/-- The effect of a decision. -/
inductive DecisionEffect where
  | allow
  | deny
  | requireApproval
  deriving DecidableEq

/-- `effect.value`. -/
def DecisionEffect.value : DecisionEffect → String
  | allow => "allow"
  | deny => "deny"
  | requireApproval => "require_approval"

/-- A decision with the policy that made it. -/
structure Authorization where
  effect : DecisionEffect
  policyId : Option String
  reason : String
  deriving DecidableEq

/-- An execution permit. -/
structure Permit where
  permitId : Nat
  deriving DecidableEq

/-- What `begin` answers. -/
structure Admission where
  allowed : Bool
  authorization : Authorization
  permit : Option Permit
  deriving DecidableEq

/-- What `revalidate_before_execution` answers. -/
structure Revalidation where
  allowed : Bool
  authorization : Authorization
  deriving DecidableEq

/-- A rule of the policy store. -/
structure PolicyRule where
  policyId : String
  effect : DecisionEffect
  actions : List String
  principalIds : List String
  resourcePrefixes : List String
  condition : Request → Bool := fun _ => true
  reason : String

/-- `resource.startswith(p)`. -/
def startsWith (resource p : String) : Bool :=
  p.toList.isPrefixOf resource.toList

/-- The rule matches the request: its action, its executing principal, its
    resource and the condition. -/
def PolicyRule.applies (rule : PolicyRule) (req : Request) : Bool :=
  rule.actions.contains req.action &&
    rule.principalIds.contains req.executingPrincipal.principalId &&
    rule.resourcePrefixes.any (startsWith req.resource) && rule.condition req

/-- The first listed rule that matches. -/
def firstMatch (rules : List PolicyRule) (req : Request) : Option PolicyRule :=
  rules.find? (·.applies req)

/-- The first matching rule allows the request. -/
def policyAllows (rules : List PolicyRule) (req : Request) : Bool :=
  match firstMatch rules req with
  | some rule => rule.effect = .allow
  | none => false

end Asante
