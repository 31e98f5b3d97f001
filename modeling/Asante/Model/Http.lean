import Asante.Core.Extended
import Asante.Model.Identity

/-!
# The HTTP Boundary

The endpoints as a client reaches them. Every operation of an operator is
protected by the dependency `require_authenticated_human`: the credentials of
the request are verified before the body is validated or the endpoint runs, and
what the endpoint knows of its caller is the identity that comes out. The MCP
application is mounted beside the endpoints without that dependency, so an MCP
call is let in with whatever metadata it carries.

The dependency is one command, answered in the environment of the moment; the
endpoint behind it is the call of `Model.Main` for the verified human. The
listings are read in one step, and are functions of the world they are read in.

## Main definitions

* `Endpoint`, `Endpoint.appCall`: The operations of an operator.
* `HttpCall`, `httpGuard`: What a client may send, and how it is let in.
* `httpPerform`, `httpCode`, `httpRun`: Runs of the application over HTTP.
* `ApprovalRecord.toDict`, `listDemoCredits` and its siblings, `whoami`: The reads.
-/

namespace Asante

/-- The operations of an operator, without the operator. -/
inductive Endpoint where
  | runAgent (message : String)
  | devIssueCredit (reservationId : String) (amount : ℚ) (reason : String)
  | devGetReservation (reservationId : String)
  | approve (approvalId : String) (note : Option String)
  | deny (approvalId : String) (note : Option String)

/-- The call of an endpoint by an operator. -/
def Endpoint.appCall (operator : AuthenticatedHuman) : Endpoint → AppCall
  | runAgent message => .runAgent operator message
  | devIssueCredit reservationId amount reason =>
    .devIssueCredit operator reservationId amount reason
  | devGetReservation reservationId => .devGetReservation operator reservationId
  | approve approvalId note => .approve operator approvalId note
  | deny approvalId note => .deny operator approvalId note

/-- What a client sends: a request of an endpoint with the credentials of its
    header, or an MCP call. -/
inductive HttpCall (jwt : Jwt) where
  | request (credentials : Option (Credentials jwt)) (endpoint : Endpoint)
  | mcp (tool : McpTool) (metadata : PyDict)

/-- `Depends(require_authenticated_human)` on every endpoint, and nothing on the
    mounted MCP application. -/
def httpGuard (jwt : Jwt) : Core.Guard (HttpCall jwt) AppCall (Option (Credentials jwt))
    (fun _ => Except Exc VerifiedHuman) Exc where
  call
    | .request credentials endpoint =>
      .inr ⟨credentials, fun verified =>
        verified.map fun human => endpoint.appCall human.toAuthenticatedHuman⟩
    | .mcp tool metadata => .inl (.mcp tool metadata)

/-- The commands of the application, and the dependency. -/
abbrev HttpCmd (jwt : Jwt) := Cmd ⊕ Option (Credentials jwt)

/-- What they answer. -/
abbrev HttpAnswer (jwt : Jwt) : HttpCmd jwt → Type :=
  Core.Extend Cmd.Answer fun _ => Except Exc VerifiedHuman

/-- The dependency reads the clock and leaves the world as it is. -/
def httpPerform (jwt : Jwt) (environ : Environ) :
    (c : HttpCmd jwt) → Env → World → HttpAnswer jwt c × World :=
  Core.guardedPerform perform id fun credentials env =>
    requireAuthenticatedHuman jwt environ env.now credentials

/-- The program of a call. -/
def httpCode (jwt : Jwt) (d : Deployment) (call : HttpCall jwt) :
    Core.Prog (HttpCmd jwt) (HttpAnswer jwt) Exc Response :=
  Core.guardedCode (httpGuard jwt) (AppCall.code d) call

/-- A run of the application over HTTP. -/
def httpRun (jwt : Jwt) (environ : Environ) (d : Deployment)
    (sched : List (Core.Action (HttpCall jwt) Env)) :
    Core.Config (HttpCall jwt) (HttpCmd jwt) (HttpAnswer jwt) Exc Response World :=
  (Core.Config.start World.empty).exec (httpPerform jwt environ) (httpCode jwt d) sched

/-- A dictionary or `None` as a dictionary value. -/
def optDict : Option PyDict → PyVal
  | some d => .dict d
  | none => .none

/-- `ApprovalRecord.to_dict`. -/
def ApprovalRecord.toDict (record : ApprovalRecord) : PyDict :=
  [("approval_id", .str record.approvalId), ("action", .str record.action),
    ("task_id", .str record.taskId), ("requested_by", .str record.requestedBy),
    ("reservation_id", .str record.reservationId), ("amount", .num record.amount),
    ("reason", .str record.reason), ("policy_id", optStr record.policyId),
    ("status", .str record.status.text), ("created_at", .str record.createdAt),
    ("decided_at", optStr record.decidedAt), ("decided_by", optStr record.decidedBy),
    ("decision_note", optStr record.decisionNote), ("executed_at", optStr record.executedAt),
    ("execution_result", optDict record.executionResult)]

/-- `ledger.credits`. -/
def World.creditRecords (w : World) : List PyDict :=
  w.ledger.entries.map Credit.toDict

/-- `maintenance_store.work_orders`. -/
def World.workOrderRecords (w : World) : List PyDict :=
  w.workOrders.entries.map WorkOrder.toDict

/-- `message_outbox.messages`. -/
def World.guestMessageRecords (w : World) : List PyDict :=
  w.outbox.entries.map OutboundMessage.toDict

/-- `[record.to_dict() for record in approvals.list_requests()]`. -/
def World.approvalRecords (w : World) : List PyDict :=
  (listRequests w.approvals none).map ApprovalRecord.toDict

/-- An endpoint that only reads, behind the dependency. -/
def protectedRead {α : Type} (jwt : Jwt) (environ : Environ) (now : Int)
    (credentials : Option (Credentials jwt)) (read : VerifiedHuman → α) : Except Exc α :=
  (requireAuthenticatedHuman jwt environ now credentials).map read

section Reads

variable (jwt : Jwt) (environ : Environ) (now : Int) (credentials : Option (Credentials jwt))

/-- `list_demo_credits`. -/
def listDemoCredits (w : World) : Except Exc (List PyDict) :=
  protectedRead jwt environ now credentials fun _ => w.creditRecords

/-- `list_work_orders`. -/
def listWorkOrders (w : World) : Except Exc (List PyDict) :=
  protectedRead jwt environ now credentials fun _ => w.workOrderRecords

/-- `list_guest_messages`. -/
def listGuestMessages (w : World) : Except Exc (List PyDict) :=
  protectedRead jwt environ now credentials fun _ => w.guestMessageRecords

/-- `list_approvals`. -/
def listApprovals (w : World) : Except Exc (List PyDict) :=
  protectedRead jwt environ now credentials fun _ => w.approvalRecords

/-- `sorted(scopes)`. -/
def sortedTexts (texts : List String) : List String :=
  texts.insertionSort fun a b => a ≤ b

/-- `whoami`. -/
def whoami (traceId : Option String) : Except Exc PyDict :=
  protectedRead jwt environ now credentials fun operator =>
    [("principal_id", .str operator.principalId), ("subject", .str operator.subject),
      ("issuer", .str operator.issuer), ("audiences", .list (operator.audiences.map .str)),
      ("client_id", .str operator.clientId),
      ("scopes", .list ((sortedTexts operator.scopes).map .str)), ("trace_id", optStr traceId)]

end Reads

end Asante
