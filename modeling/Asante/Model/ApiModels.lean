import Asante.Model.Http

/-!
# API Models

The response models the endpoints declare. The framework validates what an
endpoint returns against its model before anything is sent, and answers with an
internal error when no alternative of the model accepts it.

A response model is a list of fields, each with what it accepts and whether it
may be missing; keys that no field names are dropped, so they do not matter.
Values are accepted only as they stand. The framework also coerces some, a
numeric text to a float for one, and no result here depends on it.

A response of `Model.Main` is rendered with the trace id, which every body but
that of a denial carries, and with the name of the last agent of an agent run.
There is no trace id where the telemetry is disabled; the entry is then `None`.

## Main definitions

* `FieldType`, `ResponseField`, `ResponseModel`: Models and what they accept.
* `creditIssuedResponse` and its siblings: The models.
* `Endpoint.responseModels`: The alternatives an endpoint declares.
* `Endpoint.render`, `Endpoint.valid`: What an endpoint returns, and whether it is valid.
-/

namespace Asante

/-- The values a field accepts. -/
abbrev FieldType := PyVal → Bool

namespace FieldType

/-- `str`. -/
def text : FieldType
  | .str _ => true
  | _ => false

/-- `float`. -/
def float : FieldType
  | .num _ => true
  | _ => false

/-- `bool`. -/
def boolean : FieldType
  | .bool _ => true
  | _ => false

/-- `Literal[...]` of strings. -/
def literal (values : List String) : FieldType
  | .str s => values.contains s
  | _ => false

/-- `list[...]`. -/
def listOf (item : FieldType) : FieldType
  | .list xs => xs.all item
  | _ => false

/-- `dict[str, object]`. -/
def anyDict : FieldType
  | .dict _ => true
  | _ => false

/-- `... | None`. -/
def orNone (type : FieldType) : FieldType
  | .none => true
  | v => type v

end FieldType

/-- A field of a response model; one with a default may be missing. -/
structure ResponseField where
  name : String
  type : FieldType
  hasDefault : Bool := false

/-- A response model. -/
abbrev ResponseModel := List ResponseField

/-- The value of the field in the dictionary is one it accepts. -/
def ResponseField.accepts (field : ResponseField) (fields : PyDict) : Bool :=
  match fields.get? field.name with
  | some value => field.type value
  | none => field.hasDefault

/-- Every field accepts its value. -/
def ResponseModel.accepts (model : ResponseModel) (fields : PyDict) : Bool :=
  model.all fun field => field.accepts fields

/-- A field whose type is a model. -/
def FieldType.ofModel (model : ResponseModel) : FieldType
  | .dict fields => model.accepts fields
  | _ => false

open FieldType

/-- `WhoAmIResponse`. -/
def whoAmIResponse : ResponseModel :=
  [⟨"principal_id", text, false⟩, ⟨"subject", text, false⟩, ⟨"issuer", text, false⟩,
    ⟨"audiences", listOf text, false⟩, ⟨"client_id", text, false⟩,
    ⟨"scopes", listOf text, false⟩, ⟨"trace_id", text, false⟩]

/-- `AgentRunResponse`. -/
def agentRunResponse : ResponseModel :=
  [⟨"task_id", text, false⟩, ⟨"trace_id", text, false⟩, ⟨"initiated_by", text, false⟩,
    ⟨"last_agent", text, false⟩, ⟨"output", text, false⟩]

/-- `CreditRecord`. -/
def creditRecord : ResponseModel :=
  [⟨"reservation_id", text, false⟩, ⟨"amount", float, false⟩, ⟨"reason", text, false⟩,
    ⟨"status", literal ["issued"], false⟩]

/-- `task_id`, `trace_id` and `initiated_by`, which the models of the direct
    endpoints begin with. -/
def taskFields : ResponseModel :=
  [⟨"task_id", text, false⟩, ⟨"trace_id", text, false⟩, ⟨"initiated_by", text, false⟩]

/-- `policy_id: str | None = None`. -/
def policyField : ResponseField :=
  ⟨"policy_id", orNone text, true⟩

/-- The fields of a refusal. -/
def blockedFields : ResponseModel :=
  [⟨"status", literal ["blocked"], false⟩, ⟨"effect", literal ["deny", "require_approval"], false⟩,
    ⟨"reason", text, false⟩]

/-- `CreditIssuedResponse`. -/
def creditIssuedResponse : ResponseModel :=
  taskFields ++ creditRecord ++
    [⟨"deduplicated", boolean, false⟩, ⟨"effect", literal ["allow"], false⟩, policyField]

/-- `CreditBlockedResponse`. -/
def creditBlockedResponse : ResponseModel :=
  taskFields ++ blockedFields

/-- `ReservationRecord`. -/
def reservationRecord : ResponseModel :=
  [⟨"reservation_id", text, false⟩, ⟨"guest_name", text, false⟩, ⟨"property", text, false⟩,
    ⟨"status", text, false⟩, ⟨"check_in", text, false⟩, ⟨"check_out", text, false⟩]

/-- `ReservationFoundResponse`. -/
def reservationFoundResponse : ResponseModel :=
  taskFields ++
    [⟨"status", literal ["found"], false⟩, ⟨"effect", literal ["allow"], false⟩, policyField,
      ⟨"cache", literal ["hit", "miss"], false⟩, ⟨"reservation", ofModel reservationRecord, false⟩]

/-- `ReservationNotFoundResponse`. -/
def reservationNotFoundResponse : ResponseModel :=
  taskFields ++
    [⟨"status", literal ["not_found"], false⟩, ⟨"effect", literal ["allow"], false⟩, policyField,
      ⟨"cache", literal ["miss"], false⟩]

/-- `ReservationBlockedResponse`. -/
def reservationBlockedResponse : ResponseModel :=
  taskFields ++ blockedFields

/-- `WorkOrderRecord`. -/
def workOrderRecord : ResponseModel :=
  [⟨"work_order_id", text, false⟩, ⟨"reservation_id", text, false⟩, ⟨"category", text, false⟩,
    ⟨"urgency", literal ["low", "medium", "high", "emergency"], false⟩,
    ⟨"description", text, false⟩, ⟨"status", literal ["open"], false⟩,
    ⟨"created_at", text, false⟩]

/-- `GuestMessageRecord`. -/
def guestMessageRecord : ResponseModel :=
  [⟨"message_id", text, false⟩, ⟨"reservation_id", text, false⟩, ⟨"message", text, false⟩,
    ⟨"status", literal ["sent"], false⟩, ⟨"sent_at", text, false⟩]

/-- `ApprovalRecordResponse`. -/
def approvalRecordResponse : ResponseModel :=
  [⟨"approval_id", text, false⟩, ⟨"action", text, false⟩, ⟨"task_id", text, false⟩,
    ⟨"requested_by", text, false⟩, ⟨"reservation_id", text, false⟩, ⟨"amount", float, false⟩,
    ⟨"reason", text, false⟩, policyField,
    ⟨"status", literal ["pending", "approved", "denied", "executed"], false⟩,
    ⟨"created_at", text, false⟩, ⟨"decided_at", orNone text, true⟩,
    ⟨"decided_by", orNone text, true⟩, ⟨"decision_note", orNone text, true⟩,
    ⟨"executed_at", orNone text, true⟩, ⟨"execution_result", orNone anyDict, true⟩]

/-- `ApprovalExecutionResponse`. -/
def approvalExecutionResponse : ResponseModel :=
  [⟨"approval", ofModel approvalRecordResponse, false⟩, ⟨"execution", anyDict, false⟩,
    ⟨"trace_id", text, false⟩]

/-- The `response_model` of an endpoint, alternative by alternative. -/
def Endpoint.responseModels : Endpoint → List ResponseModel
  | runAgent _ => [agentRunResponse]
  | devIssueCredit _ _ _ => [creditIssuedResponse, creditBlockedResponse]
  | devGetReservation _ =>
    [reservationFoundResponse, reservationNotFoundResponse, reservationBlockedResponse]
  | approve _ _ => [approvalExecutionResponse]
  | deny _ _ => [approvalRecordResponse]

/-- The entries an endpoint adds to a body: the trace id, and the name of the last
    agent of an agent run. -/
def Endpoint.added (traceId : Option String) (lastAgent : String) : Endpoint → PyDict
  | runAgent _ => [("trace_id", optStr traceId), ("last_agent", .str lastAgent)]
  | _ => [("trace_id", optStr traceId)]

/-- What an endpoint returns, where `current_trace_id` answers `traceId`. -/
def Endpoint.render (traceId : Option String) (lastAgent : String) (endpoint : Endpoint) :
    Response → PyDict
  | .body fields => PyDict.merge (endpoint.added traceId lastAgent) fields
  | .approvalRecord record => record.toDict
  | .approvalExecution approval execution =>
    [("approval", .dict approval.toDict), ("execution", .dict execution),
      ("trace_id", optStr traceId)]

/-- An alternative of the endpoint's model accepts what it returns. -/
def Endpoint.valid (endpoint : Endpoint) (fields : PyDict) : Bool :=
  endpoint.responseModels.any fun model => model.accepts fields

end Asante
