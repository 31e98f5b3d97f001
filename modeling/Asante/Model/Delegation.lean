import Asante.Model.Tools

/-!
# Task-Bound Delegation

The grants the application issues before a protected action can be submitted.
A specialist's authority is a chain of two grants, from the human to the
supervisor and from the supervisor to the specialist, each of one action over
reservations; the approval executor's is one grant from the human.

The scopes are computed before the chain, so a limit that is not positive
raises with nothing registered. The executor's delegation is the exception: it
reads the clock and draws its identifier first.

## Main definitions

* `creditScope`, `reservationReadScope`, `maintenanceScope`,
  `guestMessageScope`, `creditRequestScope`, `approvedCreditScope`: The scopes.
* `issueChain`: The two grants of a specialist's chain.
* `issueReservationsDelegation` and its siblings: One chain for each
  specialist capability.
* `issueApprovalExecutorDelegation`: The single grant of the executor.
* `issueGuestSupportDelegation` and its siblings: The names kept for older callers.
-/

namespace Asante

def guestCreditAction : String := "guest.credit.issue"
def reservationReadAction : String := "reservation.read"
def maintenanceCreateAction : String := "maintenance.create"
def guestMessageSendAction : String := "guest.message.send"
def guestCreditRequestAction : String := "guest.credit.request"

def defaultSupervisorCreditLimit : ℚ := 100
def defaultServiceRecoveryCreditLimit : ℚ := 25
def defaultServiceRecoveryApprovalRequestLimit : ℚ := 100

/-- A scope of one action over reservations. -/
def actionScope (action : String) : Scope :=
  { actions := [action], resourcePrefixes := ["reservation:"] }

/-- A scope of one action over reservations, with a limit on the amount that
    has to be positive. -/
def limitedScope (action message : String) (limit : ℚ) : Except Exc Scope :=
  if limit ≤ 0 then .error (.valueError message)
  else .ok { actionScope action with maxNumericArguments := [("amount", limit)] }

/-- `_credit_scope`. -/
def creditScope (limit : ℚ) : Except Exc Scope :=
  limitedScope guestCreditAction "delegation limit must be greater than zero" limit

/-- `_reservation_read_scope`. -/
def reservationReadScope : Scope :=
  actionScope reservationReadAction

/-- `_maintenance_scope`. -/
def maintenanceScope : Scope :=
  actionScope maintenanceCreateAction

/-- `_guest_message_scope`. -/
def guestMessageScope : Scope :=
  actionScope guestMessageSendAction

/-- `_credit_request_scope`. -/
def creditRequestScope (limit : ℚ) : Except Exc Scope :=
  limitedScope guestCreditRequestAction "approval request limit must be greater than zero" limit

/-- `_approved_credit_scope`. -/
def approvedCreditScope (limit : ℚ) : Except Exc Scope :=
  limitedScope approvedCreditAction "approved credit limit must be greater than zero" limit

/-- `_issue_chain`. -/
def issueChain (d : Deployment) (task : TaskContext) (childWorkload : Workload)
    (rootScope childScope : Scope) : App (List DelegationGrant) := do
  let now : Int ← ask .now
  let rootUuid : String ← ask .uuid4
  let childUuid : String ← ask .uuid4
  let rootGrant : DelegationGrant :=
    { grantId := "grant:" ++ rootUuid
      grantorId := task.initiatedBy
      granteeId := principalId d.trustDomain .supervisor
      taskId := task.taskId
      scope := rootScope
      issuedAt := now
      expiresAt := min task.expiresAt (now + minutes 30) }
  let childGrant : DelegationGrant :=
    { grantId := "grant:" ++ childUuid
      grantorId := principalId d.trustDomain .supervisor
      granteeId := principalId d.trustDomain childWorkload
      taskId := task.taskId
      scope := childScope
      issuedAt := now
      expiresAt := min task.expiresAt (now + minutes 30) }
  orRaise (ask (.registerGrant rootGrant))
  orRaise (ask (.registerGrant childGrant))
  return [rootGrant, childGrant]

/-- `_issue_specialist_chain`. -/
def issueSpecialistChain (d : Deployment) (task : TaskContext) (workload : Workload)
    (scope : Scope) : App (List DelegationGrant) :=
  issueChain d task workload scope scope

/-- `issue_reservations_delegation`. -/
def issueReservationsDelegation (d : Deployment) (task : TaskContext) :
    App (List DelegationGrant) :=
  issueSpecialistChain d task .reservations reservationReadScope

/-- `issue_property_operations_delegation`. -/
def issuePropertyOperationsDelegation (d : Deployment) (task : TaskContext) :
    App (List DelegationGrant) :=
  issueSpecialistChain d task .propertyOperations maintenanceScope

/-- `issue_guest_support_message_delegation`. -/
def issueGuestSupportMessageDelegation (d : Deployment) (task : TaskContext) :
    App (List DelegationGrant) :=
  issueSpecialistChain d task .guestSupport guestMessageScope

/-- `issue_service_recovery_delegation`. -/
def issueServiceRecoveryDelegation (d : Deployment) (task : TaskContext)
    (supervisorLimit serviceRecoveryLimit : ℚ) : App (List DelegationGrant) := do
  if supervisorLimit < serviceRecoveryLimit then
    throw (.valueError "service-recovery delegation cannot exceed supervisor authority")
  else
    let rootScope ← Core.Prog.ofExcept (creditScope supervisorLimit)
    let childScope ← Core.Prog.ofExcept (creditScope serviceRecoveryLimit)
    issueChain d task .serviceRecovery rootScope childScope

/-- `issue_service_recovery_credit_request_delegation`. -/
def issueServiceRecoveryCreditRequestDelegation (d : Deployment) (task : TaskContext)
    (limit : ℚ) : App (List DelegationGrant) := do
  let scope ← Core.Prog.ofExcept (creditRequestScope limit)
  issueChain d task .serviceRecovery scope scope

/-- `issue_approval_executor_delegation`. -/
def issueApprovalExecutorDelegation (d : Deployment) (task : TaskContext) (limit : ℚ) :
    App (List DelegationGrant) := do
  let now : Int ← ask .now
  let uuid : String ← ask .uuid4
  let scope ← Core.Prog.ofExcept (approvedCreditScope limit)
  let grant : DelegationGrant :=
    { grantId := "grant:" ++ uuid
      grantorId := task.initiatedBy
      granteeId := principalId d.trustDomain .approvalExecutor
      taskId := task.taskId
      scope := scope
      issuedAt := now
      expiresAt := min task.expiresAt (now + minutes 10) }
  orRaise (ask (.registerGrant grant))
  return [grant]

/-- `issue_guest_support_delegation`. -/
def issueGuestSupportDelegation (d : Deployment) (task : TaskContext)
    (supervisorLimit guestSupportLimit : ℚ) : App (List DelegationGrant) :=
  issueServiceRecoveryDelegation d task supervisorLimit guestSupportLimit

/-- `issue_guest_support_reservation_delegation`. -/
def issueGuestSupportReservationDelegation (d : Deployment) (task : TaskContext) :
    App (List DelegationGrant) :=
  issueReservationsDelegation d task

/-- `issue_guest_support_credit_request_delegation`. -/
def issueGuestSupportCreditRequestDelegation (d : Deployment) (task : TaskContext) (limit : ℚ) :
    App (List DelegationGrant) :=
  issueServiceRecoveryCreditRequestDelegation d task limit

/-- `issue_guest_support_service_delegation`. -/
def issueGuestSupportServiceDelegation (d : Deployment) (task : TaskContext) :
    App (List DelegationGrant) :=
  issueGuestSupportMessageDelegation d task

end Asante
