import Asante.Model.Server

/-!
# MCP Clients

The clients through which the agents reach the server. A client is bound to one
workload: it shows its agent a filtered list of tools, and puts the task of the
run and the label of the workload into the metadata of every call, where the
model has no say. The propagators of the tracing library add their headers to
the same metadata under names of their own.

There is one client for each specialist. The client for guest operations is of an
earlier phase and shows all the tools, with the label of guest support.

## Main definitions

* `TraceHeaders`, `injectCurrentTraceHeaders`: The headers of a trace.
* `resolveSpecialistMeta`: The metadata of a call.
* `McpClient`, `McpTool.name`: The clients and what they show.
* `ClientCall`: A call of a tool through a client.
-/

namespace Asante

/-- What the propagators inject. Their names are none of the application's. -/
structure TraceHeaders where
  items : List (String × String)
  names : ∀ item ∈ items, item.1 ≠ asanteTaskMetaKey ∧ item.1 ≠ asanteWorkloadMetaKey

/-- `inject_current_trace_headers`. -/
def injectCurrentTraceHeaders (headers : TraceHeaders) (carrier : PyDict) : PyDict :=
  carrier.merge (headers.items.map fun item => (item.1, .str item.2))

/-- `_resolve_specialist_meta(workload)`, of the context of the run if there is
    one. -/
def resolveSpecialistMeta (workload : Workload) (headers : TraceHeaders) :
    Option AsanteRunContext → Option PyDict
  | none => none
  | some runContext => some (injectCurrentTraceHeaders headers
      [(asanteTaskMetaKey, .str runContext.task.taskId),
        (asanteWorkloadMetaKey, .str workload.label)])

/-- `_mcp_meta`. -/
def mcpMeta (requestMeta : Option PyDict) : PyDict :=
  requestMeta.getD []

/-- The name a tool is registered under. -/
def McpTool.name : McpTool → String
  | issueGuestCredit _ _ _ => "issue_guest_credit"
  | getReservation _ => "get_reservation"
  | createMaintenanceRequest _ _ _ _ => "create_maintenance_request"
  | sendGuestMessage _ _ => "send_guest_message"
  | requestGuestCredit _ _ _ => "request_guest_credit"

/-- The clients. -/
inductive McpClient where
  | reservations
  | propertyOperations
  | guestSupport
  | serviceRecovery
  | guestOperations
  deriving DecidableEq

namespace McpClient

/-- `name`. -/
def name : McpClient → String
  | reservations => "Asante Reservations MCP"
  | propertyOperations => "Asante Property Operations MCP"
  | guestSupport => "Asante Guest Support MCP"
  | serviceRecovery => "Asante Service Recovery MCP"
  | guestOperations => "Asante Guest Operations MCP"

/-- `workload`. -/
def workload : McpClient → Workload
  | reservations => .reservations
  | propertyOperations => .propertyOperations
  | guestSupport => .guestSupport
  | serviceRecovery => .serviceRecovery
  | guestOperations => .guestSupport

/-- `allowed_tools`. -/
def allowedTools : McpClient → List String
  | reservations => ["get_reservation"]
  | propertyOperations => ["create_maintenance_request"]
  | guestSupport => ["send_guest_message"]
  | serviceRecovery => ["issue_guest_credit", "request_guest_credit"]
  | guestOperations => ["get_reservation", "create_maintenance_request", "send_guest_message",
      "issue_guest_credit", "request_guest_credit"]

end McpClient

/-- `resolve_asante_mcp_meta`. -/
def resolveAsanteMcpMeta : TraceHeaders → Option AsanteRunContext → Option PyDict :=
  resolveSpecialistMeta .guestSupport

/-- A call of a tool through a client, in the context the agent runs in. The client
    shows its agent `allowed_tools`, and puts the metadata into whatever is called. -/
structure ClientCall where
  client : McpClient
  tool : McpTool
  context : Option AsanteRunContext
  headers : TraceHeaders

/-- The metadata the server receives. -/
def ClientCall.metadata (call : ClientCall) : PyDict :=
  mcpMeta (resolveSpecialistMeta call.client.workload call.headers call.context)

end Asante
