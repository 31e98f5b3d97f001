import Asante.Model.Delegation

/-!
# MCP Server

The tool surface the specialist agents call. A call arrives with arguments the
model controls and with metadata the trusted client injects. The server checks
the workload label in the metadata, takes the task id from it, and resolves the
task in the registry; only the resolved context supplies the task and the
delegation chain a tool submits.

The five tools differ in the workload that owns them, the chain of the context
they use and the secured operation they end in. `serverTool` is what they
share; each tool is that definition applied to its own values.

## Main definitions

* `taskIdFromMeta`, `workloadFromMeta`, `requireSpecialist`: Reading `_meta`.
* `issueGuestCreditForTrustedTask` and its siblings: The secured operation of a
  tool in the task of a registered run.
* `McpTool`, `McpTool.owner`, `McpTool.action`, `McpTool.chain`: The tools.
* `McpTool.call`: A tool call with its metadata.
-/

namespace Asante

/-- `ASANTE_TASK_META_KEY`. -/
def asanteTaskMetaKey : String := "asante/task_id"

/-- `ASANTE_WORKLOAD_META_KEY`. -/
def asanteWorkloadMetaKey : String := "asante/workload"

/-- A value of the metadata that has to be a string and not empty. -/
def requiredText (metadata : PyDict) (key message : String) : Except Exc String :=
  match metadata.get? key with
  | some (.str s) => if s = "" then .error (.toolError message) else .ok s
  | _ => .error (.toolError message)

/-- `_task_id_from_meta`. -/
def taskIdFromMeta (metadata : PyDict) : Except Exc String :=
  requiredText metadata asanteTaskMetaKey "missing trusted Asante task context"

/-- `_workload_from_meta`. -/
def workloadFromMeta (metadata : PyDict) : Except Exc String :=
  requiredText metadata asanteWorkloadMetaKey "missing trusted Asante workload context"

/-- `_require_specialist`. -/
def requireSpecialist (metadata : PyDict) (expectedWorkload : Workload) : Except Exc Unit :=
  match workloadFromMeta metadata with
  | .error e => .error e
  | .ok actual =>
    if actual = expectedWorkload.label then .ok ()
    else .error (.toolError
      s!"tool is not available to workload {actual}; expected {expectedWorkload.label}")

/-- `issue_guest_credit_for_trusted_task`. -/
def issueGuestCreditForTrustedTask (d : Deployment) (taskId reservationId : String) (amount : ℚ)
    (reason : String) : App PyDict := do
  let runContext ← orRaise (ask (.requireTask taskId))
  issueCredit d d.retryPolicy reservationId amount reason runContext.task
    runContext.serviceRecoveryDelegation

/-- `get_reservation_for_trusted_task`. -/
def getReservationForTrustedTask (d : Deployment) (taskId reservationId : String) :
    App PyDict := do
  let runContext ← orRaise (ask (.requireTask taskId))
  getReservation d reservationId runContext.task runContext.reservationsDelegation

/-- `create_maintenance_for_trusted_task`. -/
def createMaintenanceForTrustedTask (d : Deployment)
    (taskId reservationId category urgency description : String) : App PyDict := do
  let runContext ← orRaise (ask (.requireTask taskId))
  createMaintenanceRequest d reservationId category urgency description runContext.task
    runContext.propertyOperationsDelegation

/-- `send_guest_message_for_trusted_task`. -/
def sendGuestMessageForTrustedTask (d : Deployment) (taskId reservationId message : String) :
    App PyDict := do
  let runContext ← orRaise (ask (.requireTask taskId))
  sendGuestMessage d reservationId message runContext.task
    runContext.guestSupportMessageDelegation

/-- `request_guest_credit_for_trusted_task`. -/
def requestGuestCreditForTrustedTask (d : Deployment) (taskId reservationId : String)
    (amount : ℚ) (reason : String) : App PyDict := do
  let runContext ← orRaise (ask (.requireTask taskId))
  requestGuestCredit d reservationId amount reason runContext.task
    runContext.serviceRecoveryCreditRequestDelegation

/-- What the tools of the server share: the workload check, the task id, the
    trace context, and the operation under the handler for unknown tasks. -/
def serverTool (owner : Workload) (metadata : PyDict) (forTrustedTask : String → App PyDict) :
    App PyDict := do
  let _ : Unit ← Core.Prog.ofExcept (requireSpecialist metadata owner)
  let taskId ← Core.Prog.ofExcept (taskIdFromMeta metadata)
  let _ : Unit ← orRaise (ask (.extractTraceContext metadata))
  tryCatch (forTrustedTask taskId) fun e =>
    if e.isTaskNotFound then throw (.toolError "trusted Asante task context is unavailable")
    else throw e

/-- A tool of the server with the arguments the model supplies. -/
inductive McpTool where
  | issueGuestCredit (reservationId : String) (amount : ℚ) (reason : String)
  | getReservation (reservationId : String)
  | createMaintenanceRequest (reservationId category urgency description : String)
  | sendGuestMessage (reservationId message : String)
  | requestGuestCredit (reservationId : String) (amount : ℚ) (reason : String)
  deriving DecidableEq

namespace McpTool

/-- The workload a tool belongs to. -/
def owner : McpTool → Workload
  | issueGuestCredit _ _ _ => .serviceRecovery
  | getReservation _ => .reservations
  | createMaintenanceRequest _ _ _ _ => .propertyOperations
  | sendGuestMessage _ _ => .guestSupport
  | requestGuestCredit _ _ _ => .serviceRecovery

/-- The action a tool is for. -/
def action : McpTool → String
  | issueGuestCredit _ _ _ => "guest.credit.issue"
  | getReservation _ => "reservation.read"
  | createMaintenanceRequest _ _ _ _ => "maintenance.create"
  | sendGuestMessage _ _ => "guest.message.send"
  | requestGuestCredit _ _ _ => "guest.credit.request"

/-- The chain of a run context that a tool submits. -/
def chain : McpTool → AsanteRunContext → List DelegationGrant
  | issueGuestCredit _ _ _, context => context.serviceRecoveryDelegation
  | getReservation _, context => context.reservationsDelegation
  | createMaintenanceRequest _ _ _ _, context => context.propertyOperationsDelegation
  | sendGuestMessage _ _, context => context.guestSupportMessageDelegation
  | requestGuestCredit _ _ _, context => context.serviceRecoveryCreditRequestDelegation

/-- The operation of a tool in the task of a registered run. -/
def forTrustedTask (d : Deployment) : McpTool → String → App PyDict
  | issueGuestCredit reservationId amount reason, taskId =>
    issueGuestCreditForTrustedTask d taskId reservationId amount reason
  | getReservation reservationId, taskId =>
    getReservationForTrustedTask d taskId reservationId
  | createMaintenanceRequest reservationId category urgency description, taskId =>
    createMaintenanceForTrustedTask d taskId reservationId category urgency description
  | sendGuestMessage reservationId message, taskId =>
    sendGuestMessageForTrustedTask d taskId reservationId message
  | requestGuestCredit reservationId amount reason, taskId =>
    requestGuestCreditForTrustedTask d taskId reservationId amount reason

/-- A call of a tool. -/
def call (d : Deployment) (tool : McpTool) (metadata : PyDict) : App PyDict :=
  serverTool tool.owner metadata (tool.forTrustedTask d)

end McpTool

end Asante
