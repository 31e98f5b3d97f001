import Asante.Model.Reliability
import Asante.Model.Runtime

/-!
# Secured Tools

The six protected operations: issuing a small credit, reading a reservation,
creating a work order, sending a guest message, requesting a larger credit, and
executing an approved one.

Every one of them submits a request to Ruhusa, is admitted with a permit, is
revalidated with the same request and permit, and only then touches a provider
or store. `secured` is that opening, with its three refusals, and takes the
rest as a body. The request is made into an invocation by Ruhusa's factory,
which may raise; then nothing was asked and nothing is done.
`markUnknownOnError` is the handler around the provider step, which the
reservation read does without.

A key that cannot be derived raises where it is derived: for a work order and a
message before anything is asked, for a credit and a reservation once the
request is revalidated, outside the handler.

What the tools record of themselves is in `Model.Telemetry`, apart from the
retries of a credit.

## Main definitions

* `Deployment`: What the tools are constructed with.
* `secured`: Admission, permit, revalidation, then a body.
* `markUnknownOnError`, `completeOrRaise`: The end of the Ruhusa lifecycle.
* `issueCredit`: `SecuredGuestCreditTool.issue_credit`.
* `getReservation`: `SecuredReservationTool.get_reservation`.
* `createMaintenanceRequest`, `sendGuestMessage`, `requestGuestCredit`: The
  methods of `SecuredGuestOperationsTool`.
* `executeApproved`: `ApprovedCreditExecutor.execute`.
-/

namespace Asante

/-- What the tools are constructed with: the trust domain of the workload
    identities, the hash behind the keys and what it raises, the retry budget of
    the credit tool and the lifetime of cached reservations, which the
    constructor of the reservation tool requires to be positive. -/
structure Deployment where
  trustDomain : String
  sha256 : String → String
  digestError : String → Option Exc
  retryPolicy : RetryPolicy
  cacheTtlSeconds : ℚ
  ttl_pos : 0 < cacheTtlSeconds

/-- `timedelta(minutes=n)`. -/
def minutes (n : Int) : Int :=
  n * 60000000

/-- A string or `None` as a dictionary value. -/
def optStr : Option String → PyVal
  | some s => .str s
  | none => .none

/-- The dictionary of an action that was refused. -/
def blocked (effect reason : String) : PyDict :=
  [("status", .str "blocked"), ("effect", .str effect), ("reason", .str reason)]

/-- The opening of every secured operation: submit the request, and go on to
    the body only when it is admitted with a permit and revalidated with the
    same request and permit. -/
def secured (submit : Int → Request) (body : Permit → Revalidation → App PyDict) :
    App PyDict := do
  let now : Int ← ask .now
  let admission : Admission ← orRaise (ask (.begin (submit now)))
  if admission.allowed then
    match admission.permit with
    | none => return blocked "deny" "missing execution permit"
    | some permit =>
      let live : Revalidation ← ask (.revalidate (submit now) permit)
      if live.allowed then body permit live
      else return blocked live.authorization.effect.value live.authorization.reason
  else return blocked admission.authorization.effect.value admission.authorization.reason

/-- `try: ... except Exception: mark_unknown(permit); raise`. -/
def markUnknownOnError {α : Type} (permit : Permit) (operation : App α) : App α :=
  tryCatch operation fun e =>
    if e.isException then do
      let _ : Unit ← ask (.markUnknown permit)
      throw e
    else throw e

/-- `complete(permit)`, raising when it answers false. -/
def completeOrRaise (permit : Permit) (message : String) : App Unit := do
  let completed : Bool ← ask (.complete permit)
  if completed then return () else throw (.runtimeError message)

/-- `{**result, "effect": "allow", "policy_id": live.authorization.policy_id}`. -/
def allowed (result : PyDict) (live : Revalidation) : PyDict :=
  result.merge [("effect", .str "allow"), ("policy_id", optStr live.authorization.policyId)]

/-- `f"reservation:{reservation_id}"`. -/
def reservationResource (reservationId : String) : String :=
  "reservation:" ++ reservationId

/-- The request `issue_credit` submits. -/
def creditRequest (d : Deployment) (reservationId : String) (amount : ℚ) (reason : String)
    (task : TaskContext) (delegationChain : List DelegationGrant) (now : Int) : Request :=
  { invokingPrincipalId := principalId d.trustDomain .supervisor
    executingPrincipal := ⟨principalId d.trustDomain .serviceRecovery, "agent"⟩
    task := task
    action := "guest.credit.issue"
    resource := reservationResource reservationId
    arguments := [("amount", .num amount), ("reason", .str reason)]
    expiresAt := min task.expiresAt (now + minutes 5)
    toolId := creditToolId
    implementationId := creditToolImplementation
    delegationChain := delegationChain }

/-- `SecuredGuestCreditTool.issue_credit`. -/
def issueCredit (d : Deployment) (retryPolicy : RetryPolicy) (reservationId : String) (amount : ℚ)
    (reason : String) (task : TaskContext) (delegationChain : List DelegationGrant) :
    App PyDict :=
  secured (creditRequest d reservationId amount reason task delegationChain) fun permit live => do
    let key ← Core.Prog.ofExcept
      (buildCreditIdempotencyKey d.sha256 d.digestError task.taskId reservationId amount)
    let result ← markUnknownOnError permit
      (executeWithBoundedRetry
        (orRaise (ask (.ledgerIssue (.issueCredit task.taskId)
          ⟨reservationId, amount, reason⟩ (some key))))
        retryPolicy fun attempt => ask (.recordCreditRetry attempt))
    completeOrRaise permit "credit executed but Ruhusa could not complete execution lifecycle"
    return allowed result live

/-- The request `get_reservation` submits. -/
def reservationRequest (d : Deployment) (reservationId : String) (task : TaskContext)
    (delegationChain : List DelegationGrant) (now : Int) : Request :=
  { invokingPrincipalId := principalId d.trustDomain .supervisor
    executingPrincipal := ⟨principalId d.trustDomain .reservations, "agent"⟩
    task := task
    action := "reservation.read"
    resource := reservationResource reservationId
    arguments := []
    expiresAt := min task.expiresAt (now + minutes 5)
    toolId := reservationToolId
    implementationId := reservationToolImplementation
    delegationChain := delegationChain }

/-- The dictionary of a reservation that was found. -/
def foundReservation (live : Revalidation) (cache : String) (reservation : PyDict) : PyDict :=
  [("status", .str "found"), ("effect", .str "allow"),
    ("policy_id", optStr live.authorization.policyId), ("cache", .str cache),
    ("reservation", .dict reservation)]

/-- `SecuredReservationTool.get_reservation`. Neither the cache nor the provider
    is called under a handler, nor is the key derived under one. -/
def getReservation (d : Deployment) (reservationId : String) (task : TaskContext)
    (delegationChain : List DelegationGrant) : App PyDict :=
  secured (reservationRequest d reservationId task delegationChain) fun permit live => do
    let cacheKey ← Core.Prog.ofExcept
      (buildReservationCacheKey d.sha256 d.digestError reservationId)
    let lookup ← orRaise (ask (.cacheGet cacheKey))
    match lookup.hit, lookup.value with
    | true, some value => do
      completeOrRaise permit "reservation disclosed but execution lifecycle did not complete"
      return foundReservation live "hit" value
    | _, _ => do
      let reservation ← orRaise (ask (.providerGetReservation reservationId))
      match reservation with
      | none => do
        completeOrRaise permit "reservation read lifecycle could not complete"
        return [("status", .str "not_found"), ("effect", .str "allow"),
          ("policy_id", optStr live.authorization.policyId), ("cache", .str "miss")]
      | some reservation => do
        orRaise (ask (.cachePut cacheKey reservation d.cacheTtlSeconds))
        completeOrRaise permit "reservation disclosed but execution lifecycle did not complete"
        return foundReservation live "miss" reservation

/-- The request `SecuredGuestOperationsTool._execute` submits. -/
def operationRequest (d : Deployment) (action : String) (executingWorkload : Workload)
    (reservationId : String) (arguments : PyDict) (task : TaskContext)
    (delegationChain : List DelegationGrant) (now : Int) : Request :=
  { invokingPrincipalId := principalId d.trustDomain .supervisor
    executingPrincipal := ⟨principalId d.trustDomain executingWorkload, "agent"⟩
    task := task
    action := action
    resource := reservationResource reservationId
    arguments := arguments
    expiresAt := min task.expiresAt (now + minutes 5)
    toolId := guestOperationsToolId
    implementationId := guestOperationsToolImplementation
    delegationChain := delegationChain }

/-- `SecuredGuestOperationsTool._execute`. -/
def executeOperation (d : Deployment) (action : String) (executingWorkload : Workload)
    (reservationId : String) (arguments : PyDict) (task : TaskContext)
    (delegationChain : List DelegationGrant) (operation : App PyDict) : App PyDict :=
  secured (operationRequest d action executingWorkload reservationId arguments task
    delegationChain) fun permit live => do
    let result ← markUnknownOnError permit operation
    completeOrRaise permit "operation executed but Ruhusa lifecycle did not complete"
    return allowed result live

/-- `MAINTENANCE_URGENCIES`. -/
def maintenanceUrgencies : List String :=
  ["low", "medium", "high", "emergency"]

/-- The payload of a work order's key. -/
def maintenancePayload (category urgency description : String) : String :=
  strip category ++ "\n" ++ lower (strip urgency) ++ "\n" ++ strip description

/-- `SecuredGuestOperationsTool.create_maintenance_request`. -/
def createMaintenanceRequest (d : Deployment)
    (reservationId category urgency description : String) (task : TaskContext)
    (delegationChain : List DelegationGrant) : App PyDict :=
  let normalizedUrgency := lower (strip urgency)
  if maintenanceUrgencies.contains normalizedUrgency then do
    let key ← Core.Prog.ofExcept (operationKey d.sha256 d.digestError "maintenance.create"
      task.taskId reservationId (maintenancePayload category urgency description))
    executeOperation d "maintenance.create" .propertyOperations reservationId
      [("category", .str category), ("urgency", .str normalizedUrgency),
        ("description", .str description)] task delegationChain
      (orRaise (ask (.maintenanceCreate
        ⟨reservationId, category, normalizedUrgency, description⟩ key)))
  else return blocked "deny" s!"unsupported maintenance urgency: {urgency}"

/-- `SecuredGuestOperationsTool.send_guest_message`. -/
def sendGuestMessage (d : Deployment) (reservationId message : String) (task : TaskContext)
    (delegationChain : List DelegationGrant) : App PyDict :=
  if strip message = "" then return blocked "deny" "message is empty"
  else do
    let key ← Core.Prog.ofExcept (operationKey d.sha256 d.digestError "guest.message.send"
      task.taskId reservationId (strip message))
    executeOperation d "guest.message.send" .guestSupport reservationId
      [("message", .str message)] task delegationChain
      (orRaise (ask (.outboxSend reservationId message key)))

/-- The `create_request` closure of `request_guest_credit`. -/
def createRequest (reservationId : String) (amount : ℚ) (reason : String) (task : TaskContext) :
    App PyDict := do
  let existing ← orRaise (ask (.findCreditRequest task.taskId reservationId amount))
  let record ← orRaise (ask (.createCreditRequest
    { taskId := task.taskId
      requestedBy := task.initiatedBy
      reservationId := reservationId
      amount := amount
      reason := reason
      policyId := some "service-recovery-credit-request" }))
  return [("status", .str ("approval_" ++ record.status.text)),
    ("approval_id", .str record.approvalId), ("reservation_id", .str reservationId),
    ("amount", .num amount), ("reason", .str record.reason),
    ("deduplicated", .bool existing.isSome)]

/-- `SecuredGuestOperationsTool.request_guest_credit`. -/
def requestGuestCredit (d : Deployment) (reservationId : String) (amount : ℚ) (reason : String)
    (task : TaskContext) (delegationChain : List DelegationGrant) : App PyDict :=
  executeOperation d "guest.credit.request" .serviceRecovery reservationId
    [("amount", .num amount), ("reason", .str reason)] task delegationChain
    (createRequest reservationId amount reason task)

/-- `SQLiteApprovalStore.decide`: the locked section, and the row read again
    unless the section returned. -/
def approvalsDecide (approvalId : String) (approved : Bool) (decidedBy : String)
    (note : Option String) : App ApprovalRecord := do
  match ← orRaise (ask (.decideLocked approvalId approved decidedBy note)) with
  | some current => return current
  | none => orRaise (ask (.requireRecord approvalId))

/-- `SQLiteApprovalStore.mark_executed`. -/
def approvalsMarkExecuted (approvalId : String) (result : PyDict) : App ApprovalRecord := do
  match ← orRaise (ask (.markExecutedLocked approvalId result)) with
  | some current => return current
  | none => orRaise (ask (.requireRecord approvalId))

/-- The request `ApprovedCreditExecutor.execute` submits. -/
def approvedRequest (d : Deployment) (approval : ApprovalRecord) (task : TaskContext)
    (delegationChain : List DelegationGrant) (now : Int) : Request :=
  { invokingPrincipalId := task.initiatedBy
    executingPrincipal := ⟨principalId d.trustDomain .approvalExecutor, "service"⟩
    task := task
    action := "guest.credit.issue.approved"
    resource := reservationResource approval.reservationId
    arguments := [("amount", .num approval.amount), ("reason", .str approval.reason),
      ("approval_id", .str approval.approvalId), ("approval_verified", .bool true)]
    expiresAt := min task.expiresAt (now + minutes 5)
    toolId := approvedCreditToolId
    implementationId := approvedCreditToolImplementation
    delegationChain := delegationChain }

/-- The idempotency key of an approved credit. -/
def approvedCreditKey (approvalId : String) : String :=
  "approved-credit:" ++ approvalId

/-- The replay of an approval that was executed before. -/
def replayExecuted (approval : ApprovalRecord) : PyDict :=
  (approval.executionResult.getD []).merge
    [("status", .str "issued"), ("approval_id", .str approval.approvalId),
      ("deduplicated", .bool true)]

/-- `ApprovedCreditExecutor.execute`. -/
def executeApproved (d : Deployment) (approval : ApprovalRecord) (task : TaskContext)
    (delegationChain : List DelegationGrant) : App PyDict :=
  if approval.status = .executed then return replayExecuted approval
  else if approval.status = .approved then
    secured (approvedRequest d approval task delegationChain) fun permit live => do
      let providerResult ← markUnknownOnError permit
        (orRaise (ask (.ledgerIssue (.approvedExecutor approval.approvalId)
          ⟨approval.reservationId, approval.amount, approval.reason⟩
          (some (approvedCreditKey approval.approvalId)))))
      completeOrRaise permit "approved credit executed but Ruhusa lifecycle did not complete"
      let result := providerResult.merge [("approval_id", .str approval.approvalId),
        ("effect", .str "allow"), ("policy_id", optStr live.authorization.policyId)]
      let _ ← approvalsMarkExecuted approval.approvalId result
      return result
  else return blocked "deny" s!"approval is {approval.status.text}; expected approved"

end Asante
