import Asante.Model.Python
import Mathlib.Data.List.Sort

/-!
# Approval Store

The SQLite approval store: one table of approval requests, the statements that
read and write it, and the locked sections built from those statements.

Each method is split where the source gives up its lock. `decide` and
`mark_executed` read the current row, check its status and update it inside
`with self._lock`, and read the row again after the lock is released; the first
part is `decideLocked` and `markExecutedLocked`, which answer with a record
when the source returns from inside the lock and with nothing when it goes on
to read again. A statement that raises leaves the table as it was.

The clock and the random identifier a method draws are arguments.

## Main definitions

* `ApprovalStatus`, `ApprovalRow`, `ApprovalTable`: The table.
* `ApprovalRecord`, `fromRow`: A row as the methods return it.
* `selectById`, `selectCredit`, `selectRequests`, `insertRow`, `updateDecision`,
  `updateExecuted`: The SQL statements.
* `requireRecord`, `findCreditRequest`, `listRequests`, `createCreditRequest`,
  `decideLocked`, `markExecutedLocked`: The methods' atomic sections.
* `storeDecide`, `storeMarkExecuted`: The whole methods, run alone.
-/

namespace Asante

/-- `ApprovalStatus`. -/
inductive ApprovalStatus where
  | pending
  | approved
  | denied
  | executed
  deriving DecidableEq

/-- The status as the column holds it. -/
def ApprovalStatus.text : ApprovalStatus → String
  | pending => "pending"
  | approved => "approved"
  | denied => "denied"
  | executed => "executed"

/-- The action of every row the store inserts. -/
def approvedCreditAction : String := "guest.credit.issue.approved"

/-- A row of `approval_requests`. -/
structure ApprovalRow where
  approvalId : String
  action : String
  taskId : String
  requestedBy : String
  reservationId : String
  amount : ℚ
  reason : String
  policyId : Option String
  status : ApprovalStatus
  createdAt : String
  decidedAt : Option String := none
  decidedBy : Option String := none
  decisionNote : Option String := none
  executedAt : Option String := none
  executionResultJson : Option JsonText := none

/-- The table, in insertion order. -/
abbrev ApprovalTable := List ApprovalRow

/-- `ApprovalRecord`. -/
structure ApprovalRecord where
  approvalId : String
  action : String
  taskId : String
  requestedBy : String
  reservationId : String
  amount : ℚ
  reason : String
  policyId : Option String
  status : ApprovalStatus
  createdAt : String
  decidedAt : Option String := none
  decidedBy : Option String := none
  decisionNote : Option String := none
  executedAt : Option String := none
  executionResult : Option PyDict := none

/-- `_from_row`. A JSON text is never the empty string, so the result is read
    back whenever the column is not null. -/
def fromRow (row : ApprovalRow) : ApprovalRecord :=
  { approvalId := row.approvalId
    action := row.action
    taskId := row.taskId
    requestedBy := row.requestedBy
    reservationId := row.reservationId
    amount := row.amount
    reason := row.reason
    policyId := row.policyId
    status := row.status
    createdAt := row.createdAt
    decidedAt := row.decidedAt
    decidedBy := row.decidedBy
    decisionNote := row.decisionNote
    executedAt := row.executedAt
    executionResult := row.executionResultJson.map jsonLoads }

/-- The arguments of `create_credit_request`. -/
structure CreditRequest where
  taskId : String
  requestedBy : String
  reservationId : String
  amount : ℚ
  reason : String
  policyId : Option String
  deriving DecidableEq

/-- `SELECT * FROM approval_requests WHERE approval_id = ?`. -/
def selectById (table : ApprovalTable) (approvalId : String) : Option ApprovalRow :=
  table.find? fun row => row.approvalId = approvalId

/-- The `WHERE` clause of `find_credit_request`. -/
def ApprovalRow.isCredit (row : ApprovalRow) (taskId reservationId : String) (amount : ℚ) : Bool :=
  row.action = approvedCreditAction && row.taskId = taskId &&
    row.reservationId = reservationId && row.amount = amount

/-- The `SELECT` of `find_credit_request`: the matching rows `ORDER BY
    created_at ASC LIMIT 1`. -/
def selectCredit (table : ApprovalTable) (taskId reservationId : String) (amount : ℚ) :
    Option ApprovalRow :=
  ((table.filter (·.isCredit taskId reservationId amount)).insertionSort
    fun a b => a.createdAt ≤ b.createdAt).head?

/-- The `WHERE` clause of `list_requests`, which there is only with a status. -/
def ApprovalRow.hasStatus (row : ApprovalRow) : Option ApprovalStatus → Bool
  | none => true
  | some status => row.status = status

/-- The `SELECT` of `list_requests`: the matching rows `ORDER BY created_at
    DESC`. SQLite compares texts by their bytes in UTF-8, which is the order by
    characters. -/
def selectRequests (table : ApprovalTable) (status : Option ApprovalStatus) : ApprovalTable :=
  (table.filter (·.hasStatus status)).insertionSort fun a b => b.createdAt ≤ a.createdAt

/-- `INSERT INTO approval_requests`, which the primary key may refuse. -/
def insertRow (table : ApprovalTable) (row : ApprovalRow) : Except Exc ApprovalTable :=
  if table.any (fun r => r.approvalId = row.approvalId) then
    .error (.integrityError "UNIQUE constraint failed: approval_requests.approval_id")
  else .ok (table ++ [row])

/-- The `UPDATE` of `decide`. -/
def updateDecision (table : ApprovalTable) (approvalId : String) (target : ApprovalStatus)
    (decidedAt decidedBy : String) (note : Option String) : ApprovalTable :=
  table.map fun row => if row.approvalId = approvalId then
    { row with
      status := target
      decidedAt := some decidedAt
      decidedBy := some decidedBy
      decisionNote := note }
    else row

/-- The `UPDATE` of `mark_executed`. -/
def updateExecuted (table : ApprovalTable) (approvalId executedAt : String) (json : JsonText) :
    ApprovalTable :=
  table.map fun row => if row.approvalId = approvalId then
    { row with
      status := .executed
      executedAt := some executedAt
      executionResultJson := some json }
    else row

/-- `require`. -/
def requireRecord (table : ApprovalTable) (approvalId : String) : Except Exc ApprovalRecord :=
  match selectById table approvalId with
  | some row => .ok (fromRow row)
  | none => .error (.lookupError s!"unknown approval request: {approvalId}")

/-- `find_credit_request`. -/
def findCreditRequest (table : ApprovalTable) (taskId reservationId : String) (amount : ℚ) :
    Option ApprovalRecord :=
  (selectCredit table taskId reservationId amount).map fromRow

/-- `list_requests`. -/
def listRequests (table : ApprovalTable) (status : Option ApprovalStatus) :
    List ApprovalRecord :=
  (selectRequests table status).map fromRow

/-- The row `_insert_credit_request` builds. -/
def newRow (now uuid : String) (r : CreditRequest) : ApprovalRow :=
  { approvalId := "approval:" ++ uuid
    action := approvedCreditAction
    taskId := r.taskId
    requestedBy := r.requestedBy
    reservationId := r.reservationId
    amount := r.amount
    reason := r.reason
    policyId := r.policyId
    status := .pending
    createdAt := now }

/-- `create_credit_request`: the row already recorded for the task, the
    reservation and the amount, or a new one. -/
def createCreditRequest (now uuid : String) (r : CreditRequest) (table : ApprovalTable) :
    Except Exc ApprovalRecord × ApprovalTable :=
  match findCreditRequest table r.taskId r.reservationId r.amount with
  | some existing => (.ok existing, table)
  | none => match insertRow table (newRow now uuid r) with
    | .ok table' => (.ok (fromRow (newRow now uuid r)), table')
    | .error e => (.error e, table)

/-- The target status of a decision. -/
def decisionTarget (approved : Bool) : ApprovalStatus :=
  if approved then .approved else .denied

/-- What `decide` and `mark_executed` raise on the wrong status. -/
def wrongStatus (approvalId : String) (actual expected : ApprovalStatus) : Exc :=
  .approvalStateError s!"approval {approvalId} is {actual.text}; expected {expected.text}"

/-- The locked section of `decide`. -/
def decideLocked (now : String) (approvalId : String) (approved : Bool) (decidedBy : String)
    (note : Option String) (table : ApprovalTable) :
    Except Exc (Option ApprovalRecord) × ApprovalTable :=
  match requireRecord table approvalId with
  | .error e => (.error e, table)
  | .ok current =>
    if current.status = decisionTarget approved then (.ok (some current), table)
    else if current.status ≠ .pending then
      (.error (wrongStatus approvalId current.status .pending), table)
    else (.ok none,
      updateDecision table approvalId (decisionTarget approved) now decidedBy note)

/-- The locked section of `mark_executed`. The result is turned into JSON
    before the statement runs, so a result without a JSON form changes
    nothing. -/
def markExecutedLocked (now : String) (approvalId : String) (result : PyDict)
    (table : ApprovalTable) : Except Exc (Option ApprovalRecord) × ApprovalTable :=
  match requireRecord table approvalId with
  | .error e => (.error e, table)
  | .ok current =>
    if current.status = .executed then (.ok (some current), table)
    else if current.status ≠ .approved then
      (.error (wrongStatus approvalId current.status .approved), table)
    else match jsonDumps result with
      | .error e => (.error e, table)
      | .ok json => (.ok none, updateExecuted table approvalId now json)

/-- What follows a locked section that did not return: read the row again. -/
def reread (approvalId : String) :
    Except Exc (Option ApprovalRecord) × ApprovalTable → Except Exc ApprovalRecord × ApprovalTable
  | (.error e, table) => (.error e, table)
  | (.ok (some current), table) => (.ok current, table)
  | (.ok none, table) => (requireRecord table approvalId, table)

/-- The whole of `decide`, with nothing else running. -/
def storeDecide (now : String) (approvalId : String) (approved : Bool) (decidedBy : String)
    (note : Option String) (table : ApprovalTable) : Except Exc ApprovalRecord × ApprovalTable :=
  reread approvalId (decideLocked now approvalId approved decidedBy note table)

/-- The whole of `mark_executed`, with nothing else running. -/
def storeMarkExecuted (now : String) (approvalId : String) (result : PyDict)
    (table : ApprovalTable) : Except Exc ApprovalRecord × ApprovalTable :=
  reread approvalId (markExecutedLocked now approvalId result table)

end Asante
