import Asante.Core.Extended
import Asante.Model.Client
import Asante.Model.Main

/-!
# Telemetry

What the application records while it works: the decisions of Ruhusa, the
outcomes of the tools and of the calls of the server, and the lookups of the
cache. Recording is a command of its own, which is answered with nothing and
does nothing to the world, so the programs here are those of the tools, of the
server and of the endpoints with their records in their places.

A metric is one measurement of a counter, with the labels that vary. The names
of the instruments and the labels that are always the same are left out, and so
are the durations and the spans. The programs without records keep a step where
a retry is recorded, which is answered with nothing either; here the record
follows it.

`repr` is what Python's `str` makes of a value that is no text.

## Main definitions

* `Metric`: A measurement.
* `Metered`: A program that records.
* `Metered.secured`, `Metered.markUnknownOnError`, `Metered.completeOrRaise`: What
  the tools share.
* `Metered.executeWithBoundedRetry`: The retry loop.
* `Metered.issueCredit` and its siblings: The tools.
* `Metered.serverTool`, `Metered.call`: The tools of the server.
* `Metered.code`: The calls.
-/

namespace Asante

/-- A measurement of a counter. -/
inductive Metric where
  | authorization (action effect phase : String)
  | mcpCall (toolName outcome : String)
  | cacheLookup (outcome : String)
  | cacheDeniedBeforeLookup (phase : String)
  | creditExecution (outcome : String)
  | creditRetry (attempt : Nat)
  | creditDeduplication
  | operationExecution (action outcome : String)
  deriving DecidableEq

/-- A program that records. -/
abbrev Metered (α : Type) :=
  Core.Prog (Cmd ⊕ Metric) (Core.Extend Cmd.Answer fun _ => Unit) Exc α

/-- `bool(value)`. -/
def PyVal.truthy : PyVal → Bool
  | none => false
  | bool b => b
  | num q => q ≠ 0
  | str s => s ≠ ""
  | list xs => !xs.isEmpty
  | dict xs => !xs.isEmpty
  | object _ => true

/-- `str(value)`. -/
def pyStr (repr : PyVal → String) : PyVal → String
  | .str s => s
  | value => repr value

namespace Metered

/-- A program that records nothing. -/
def plain {α : Type} (p : App α) : Metered α :=
  Core.Prog.embed (fun _ : Metric => Unit) p

/-- Record a measurement. -/
def note (m : Metric) : Metered Unit :=
  .call (.inr m) .done

/-- `record_authorization`. -/
def recordAuthorization (action effect phase : String) : Metered Unit :=
  note (.authorization action effect phase)

/-- `record_mcp_call`. -/
def recordMcpCall (outcome toolName : String) : Metered Unit :=
  note (.mcpCall toolName outcome)

/-- The outcome of a lookup. -/
def lookupOutcome (hit expired : Bool) : String :=
  if hit then "hit" else if expired then "expired" else "miss"

/-- `record_cache_lookup`. -/
def recordCacheLookup (hit expired : Bool) : Metered Unit :=
  note (.cacheLookup (lookupOutcome hit expired))

/-- `record_cache_denied_before_lookup`. -/
def recordCacheDeniedBeforeLookup (phase : String) : Metered Unit :=
  note (.cacheDeniedBeforeLookup phase)

/-- `record_credit_execution`. -/
def recordCreditExecution (outcome : String) : Metered Unit :=
  note (.creditExecution outcome)

/-- `record_credit_retry`, after the step of the retry. -/
def recordCreditRetry (attempt : Nat) : Metered Unit := do
  let _ : Unit ← plain (ask (.recordCreditRetry attempt))
  note (.creditRetry attempt)

/-- `record_credit_deduplication`. -/
def recordCreditDeduplication : Metered Unit :=
  note .creditDeduplication

/-- `record_operation_execution`. -/
def recordOperationExecution (action outcome : String) : Metered Unit :=
  note (.operationExecution action outcome)

/-- The opening of a secured operation, with both decisions recorded. What is
    recorded of a refusal and of a permit that is missing differs between the
    tools. -/
def secured (action : String) (submit : Int → Request) (denied : String → Metered Unit)
    (missing : Metered Unit) (body : Permit → Revalidation → Metered PyDict) :
    Metered PyDict := do
  let now : Int ← plain (ask .now)
  let admission : Admission ← plain (orRaise (ask (.begin (submit now))))
  recordAuthorization action admission.authorization.effect.value "admission"
  if admission.allowed then
    match admission.permit with
    | none => do
      missing
      return blocked "deny" "missing execution permit"
    | some permit => do
      let live : Revalidation ← plain (ask (.revalidate (submit now) permit))
      recordAuthorization action live.authorization.effect.value "revalidation"
      if live.allowed then body permit live
      else do
        denied "revalidation"
        return blocked live.authorization.effect.value live.authorization.reason
  else do
    denied "admission"
    return blocked admission.authorization.effect.value admission.authorization.reason

/-- `try: ... except Exception: mark_unknown(permit); record; raise`. -/
def markUnknownOnError {α : Type} (permit : Permit) (operation : Metered α)
    (unknown : Metered Unit) : Metered α :=
  tryCatch operation fun e =>
    if e.isException then do
      let _ : Unit ← plain (ask (.markUnknown permit))
      unknown
      throw e
    else throw e

/-- `complete(permit)`, recording and raising when it answers false. -/
def completeOrRaise (permit : Permit) (message : String) (incomplete : Metered Unit) :
    Metered Unit := do
  let completed : Bool ← plain (ask (.complete permit))
  if completed then return ()
  else do
    incomplete
    throw (.runtimeError message)

/-- The retry loop from one attempt on, with the attempts left. -/
def retryFrom {α : Type} (operation : App α) (policy : RetryPolicy)
    (onRetry : Nat → Metered Unit) : Nat → Nat → Metered α
  | 0, _ => throw (.assertionError "retry loop exited unexpectedly")
  | left + 1, attempt => tryCatch (plain operation) fun e =>
    if e.isTransient then
      if policy.maxAttempts ≤ attempt then throw e
      else do
        onRetry attempt
        let backoff := policy.backoffSeconds attempt
        if 0 < backoff then
          let _ : Unit ← plain (ask (.sleep backoff))
          retryFrom operation policy onRetry left (attempt + 1)
        else retryFrom operation policy onRetry left (attempt + 1)
    else throw e

/-- `execute_with_bounded_retry`. -/
def executeWithBoundedRetry {α : Type} (operation : App α) (policy : RetryPolicy)
    (onRetry : Nat → Metered Unit) : Metered α :=
  retryFrom operation policy onRetry policy.maxAttempts 1

/-- `bool(result.get("deduplicated", False))`. -/
def deduplicated (result : PyDict) : Bool :=
  ((result.get? "deduplicated").getD (.bool false)).truthy

/-- `SecuredGuestCreditTool.issue_credit`. -/
def issueCredit (d : Deployment) (retryPolicy : RetryPolicy) (reservationId : String) (amount : ℚ)
    (reason : String) (task : TaskContext) (delegationChain : List DelegationGrant) :
    Metered PyDict :=
  secured "guest.credit.issue"
    (creditRequest d reservationId amount reason task delegationChain)
    (fun _ => recordCreditExecution "blocked") (recordCreditExecution "error")
    fun permit live => do
    let key ← plain (Core.Prog.ofExcept
      (buildCreditIdempotencyKey d.sha256 d.digestError task.taskId reservationId amount))
    let result ← markUnknownOnError permit
      (executeWithBoundedRetry
        (orRaise (ask (.ledgerIssue (.issueCredit task.taskId)
          ⟨reservationId, amount, reason⟩ (some key))))
        retryPolicy recordCreditRetry)
      (recordCreditExecution "unknown")
    completeOrRaise permit "credit executed but Ruhusa could not complete execution lifecycle"
      (recordCreditExecution "error")
    if deduplicated result then do
      recordCreditDeduplication
      recordCreditExecution "deduplicated"
      return allowed result live
    else do
      recordCreditExecution "issued"
      return allowed result live

/-- `SecuredReservationTool.get_reservation`. A permit that is missing is not
    recorded. -/
def getReservation (d : Deployment) (reservationId : String) (task : TaskContext)
    (delegationChain : List DelegationGrant) : Metered PyDict :=
  secured "reservation.read" (reservationRequest d reservationId task delegationChain)
    recordCacheDeniedBeforeLookup (return ()) fun permit live => do
    let cacheKey ← plain (Core.Prog.ofExcept
      (buildReservationCacheKey d.sha256 d.digestError reservationId))
    let lookup ← plain (orRaise (ask (.cacheGet cacheKey)))
    recordCacheLookup lookup.hit lookup.expired
    match lookup.hit, lookup.value with
    | true, some value => do
      completeOrRaise permit "reservation disclosed but execution lifecycle did not complete"
        (return ())
      return foundReservation live "hit" value
    | _, _ => do
      let reservation ← plain (orRaise (ask (.providerGetReservation reservationId)))
      match reservation with
      | none => do
        completeOrRaise permit "reservation read lifecycle could not complete" (return ())
        return [("status", .str "not_found"), ("effect", .str "allow"),
          ("policy_id", optStr live.authorization.policyId), ("cache", .str "miss")]
      | some reservation => do
        plain (orRaise (ask (.cachePut cacheKey reservation d.cacheTtlSeconds)))
        completeOrRaise permit "reservation disclosed but execution lifecycle did not complete"
          (return ())
        return foundReservation live "miss" reservation

variable (repr : PyVal → String)

/-- `SecuredGuestOperationsTool._execute`. -/
def executeOperation (d : Deployment) (action : String) (executingWorkload : Workload)
    (reservationId : String) (arguments : PyDict) (task : TaskContext)
    (delegationChain : List DelegationGrant) (operation : App PyDict) : Metered PyDict :=
  secured action (operationRequest d action executingWorkload reservationId arguments task
    delegationChain) (fun _ => recordOperationExecution action "blocked")
    (recordOperationExecution action "error") fun permit live => do
    let result ← markUnknownOnError permit (plain operation)
      (recordOperationExecution action "unknown")
    completeOrRaise permit "operation executed but Ruhusa lifecycle did not complete"
      (recordOperationExecution action "error")
    recordOperationExecution action
      (pyStr repr ((result.get? "status").getD (.str "completed")))
    return allowed result live

/-- `SecuredGuestOperationsTool.create_maintenance_request`. -/
def createMaintenanceRequest (d : Deployment)
    (reservationId category urgency description : String) (task : TaskContext)
    (delegationChain : List DelegationGrant) : Metered PyDict :=
  let normalizedUrgency := lower (strip urgency)
  if maintenanceUrgencies.contains normalizedUrgency then do
    let key ← plain (Core.Prog.ofExcept (operationKey d.sha256 d.digestError
      "maintenance.create" task.taskId reservationId
      (maintenancePayload category urgency description)))
    executeOperation repr d "maintenance.create" .propertyOperations reservationId
      [("category", .str category), ("urgency", .str normalizedUrgency),
        ("description", .str description)] task delegationChain
      (orRaise (ask (.maintenanceCreate
        ⟨reservationId, category, normalizedUrgency, description⟩ key)))
  else return blocked "deny" s!"unsupported maintenance urgency: {urgency}"

/-- `SecuredGuestOperationsTool.send_guest_message`. -/
def sendGuestMessage (d : Deployment) (reservationId message : String) (task : TaskContext)
    (delegationChain : List DelegationGrant) : Metered PyDict :=
  if strip message = "" then return blocked "deny" "message is empty"
  else do
    let key ← plain (Core.Prog.ofExcept (operationKey d.sha256 d.digestError
      "guest.message.send" task.taskId reservationId (strip message)))
    executeOperation repr d "guest.message.send" .guestSupport reservationId
      [("message", .str message)] task delegationChain
      (orRaise (ask (.outboxSend reservationId message key)))

/-- `SecuredGuestOperationsTool.request_guest_credit`. -/
def requestGuestCredit (d : Deployment) (reservationId : String) (amount : ℚ) (reason : String)
    (task : TaskContext) (delegationChain : List DelegationGrant) : Metered PyDict :=
  executeOperation repr d "guest.credit.request" .serviceRecovery reservationId
    [("amount", .num amount), ("reason", .str reason)] task delegationChain
    (createRequest reservationId amount reason task)

/-- `ApprovedCreditExecutor.execute`. A permit that is missing and a lifecycle
    that does not complete are not recorded, and a credit is recorded as issued
    once its approval is marked. -/
def executeApproved (d : Deployment) (approval : ApprovalRecord) (task : TaskContext)
    (delegationChain : List DelegationGrant) : Metered PyDict :=
  if approval.status = .executed then return replayExecuted approval
  else if approval.status = .approved then
    secured "guest.credit.issue.approved" (approvedRequest d approval task delegationChain)
      (fun _ => recordCreditExecution "blocked") (return ()) fun permit live => do
      let providerResult ← markUnknownOnError permit
        (plain (orRaise (ask (.ledgerIssue (.approvedExecutor approval.approvalId)
          ⟨approval.reservationId, approval.amount, approval.reason⟩
          (some (approvedCreditKey approval.approvalId))))))
        (recordCreditExecution "unknown")
      completeOrRaise permit "approved credit executed but Ruhusa lifecycle did not complete"
        (return ())
      let result := providerResult.merge [("approval_id", .str approval.approvalId),
        ("effect", .str "allow"), ("policy_id", optStr live.authorization.policyId)]
      let _ ← plain (approvalsMarkExecuted approval.approvalId result)
      recordCreditExecution "issued"
      return result
  else return blocked "deny" s!"approval is {approval.status.text}; expected approved"

/-- A call of a secured tool. -/
def toolCode (d : Deployment) : ToolCall → Metered PyDict
  | .issueCredit retryPolicy reservationId amount reason task chain =>
    issueCredit d retryPolicy reservationId amount reason task chain
  | .getReservation reservationId task chain => getReservation d reservationId task chain
  | .createMaintenanceRequest reservationId category urgency description task chain =>
    createMaintenanceRequest repr d reservationId category urgency description task chain
  | .sendGuestMessage reservationId message task chain =>
    sendGuestMessage repr d reservationId message task chain
  | .requestGuestCredit reservationId amount reason task chain =>
    requestGuestCredit repr d reservationId amount reason task chain
  | .executeApproved approval task chain => executeApproved d approval task chain

/-- The operation of a tool of the server in the task of a registered run. -/
def forTrustedTask (d : Deployment) (tool : McpTool) (taskId : String) : Metered PyDict := do
  let runContext ← plain (orRaise (ask (.requireTask taskId)))
  match tool with
  | .issueGuestCredit reservationId amount reason =>
    issueCredit d d.retryPolicy reservationId amount reason runContext.task
      (tool.chain runContext)
  | .getReservation reservationId =>
    getReservation d reservationId runContext.task (tool.chain runContext)
  | .createMaintenanceRequest reservationId category urgency description =>
    createMaintenanceRequest repr d reservationId category urgency description runContext.task
      (tool.chain runContext)
  | .sendGuestMessage reservationId message =>
    sendGuestMessage repr d reservationId message runContext.task (tool.chain runContext)
  | .requestGuestCredit reservationId amount reason =>
    requestGuestCredit repr d reservationId amount reason runContext.task (tool.chain runContext)

/-- The outcome a tool of the server records of its result. The reservation tool
    records where a reservation came from. -/
def outcome (tool : McpTool) (result : PyDict) : String :=
  match tool with
  | .getReservation _ =>
    pyStr repr ((result.get? "cache").getD ((result.get? "status").getD (.str "unknown")))
  | _ => pyStr repr ((result.get? "status").getD (.str "unknown"))

/-- A call of a tool of the server. Only a task that is not found is recorded as
    an error; anything else that is raised is not recorded. -/
def call (d : Deployment) (tool : McpTool) (metadata : PyDict) : Metered PyDict := do
  let _ : Unit ← plain (Core.Prog.ofExcept (requireSpecialist metadata tool.owner))
  let taskId ← plain (Core.Prog.ofExcept (taskIdFromMeta metadata))
  let _ : Unit ← plain (orRaise (ask (.extractTraceContext metadata)))
  let result ← tryCatch (forTrustedTask repr d tool taskId) fun e =>
    if e.isTaskNotFound then do
      recordMcpCall "error" tool.name
      throw (.toolError "trusted Asante task context is unavailable")
    else throw e
  recordMcpCall (outcome repr tool result) tool.name
  return result

/-- `dev_issue_credit`. -/
def devIssueCredit (d : Deployment) (operator : AuthenticatedHuman) (reservationId : String)
    (amount : ℚ) (reason : String) : Metered Response :=
  if reservationId ≠ "" && 0 < amount && reason ≠ "" then do
    let task ← plain (openTask operator "direct guest credit test" (minutes 30))
    let delegationChain ← plain (issueServiceRecoveryDelegation d task
      defaultSupervisorCreditLimit defaultServiceRecoveryCreditLimit)
    let result ← issueCredit d d.retryPolicy reservationId amount reason task delegationChain
    return taskResponse task result
  else throw (.httpException 422 "request validation failed")

/-- `dev_get_reservation`. -/
def devGetReservation (d : Deployment) (operator : AuthenticatedHuman)
    (reservationId : String) : Metered Response := do
  let task ← plain (openTask operator "direct reservation read test" (minutes 30))
  let delegationChain ← plain (issueReservationsDelegation d task)
  let result ← getReservation d reservationId task delegationChain
  return taskResponse task result

/-- `approve_credit_request`. -/
def approveCreditRequest (d : Deployment) (operator : AuthenticatedHuman) (approvalId : String)
    (note : Option String) : Metered Response :=
  if validNote note then do
    let _ : Unit ← plain (Core.Prog.ofExcept (requireApprovalScope operator))
    match ← plain (decideApproved operator approvalId note) with
    | .inl record => return .approvalExecution record (repeatedExecution record)
    | .inr record => do
      let task ← plain (openTask operator s!"execute approved guest credit {approvalId}"
        (minutes 10))
      let delegationChain ← plain (issueApprovalExecutorDelegation d task 100)
      let result ← executeApproved d record task delegationChain
      let refreshed ← plain (orRaise (ask (.requireRecord approvalId)))
      return .approvalExecution refreshed result
  else throw (.httpException 422 "request validation failed")

/-- The program of a call. An agent run and a denial record nothing. -/
def code (d : Deployment) : AppCall → Metered Response
  | .runAgent operator message => plain (runAgent d operator message)
  | .mcp tool metadata => do
    let result ← call repr d tool metadata
    return .body result
  | .devIssueCredit operator reservationId amount reason =>
    devIssueCredit d operator reservationId amount reason
  | .devGetReservation operator reservationId => devGetReservation d operator reservationId
  | .approve operator approvalId note => approveCreditRequest d operator approvalId note
  | .deny operator approvalId note => plain (denyCreditRequest operator approvalId note)

end Metered

end Asante
