import Asante.Core.Pool
import Asante.Model.Approvals

/-!
# Approval Store Instances

The methods of the approval store as sequences of committed SQL statements.

Each instance of the store has a lock and a connection of its own. The lock keeps
the calls of one instance apart, so within one process a method is the atomic
section of `Model.Approvals`. Instances on one database file share nothing but
the file: between two statements of a call the other instances may commit theirs.
Here the statements are the atomic steps, and a call is a program over them.

The parameters of a statement that the method draws just before it, the clock and
the random identifier, are taken from the environment of the statement. SQLite may
raise instead of committing.

## Main definitions

* `Statement`, `Statement.Answer`, `commit`: The statements and what they do.
* `StatementEnv`: The outside at one statement.
* `InstanceCall`, `InstanceCall.code`: The calls of an instance.
-/

namespace Asante

/-- The statements of the store. -/
inductive Statement where
  | selectById (approvalId : String)
  | selectCredit (taskId reservationId : String) (amount : ℚ)
  | insertRow (r : CreditRequest)
  | updateDecision (approvalId : String) (approved : Bool) (decidedBy : String)
      (note : Option String)
  | updateExecuted (approvalId : String) (json : JsonText)

/-- What a statement answers; an `INSERT` answers with the row it inserted. -/
@[reducible] def Statement.Answer : Statement → Type
  | selectById _ => Except Exc (Option ApprovalRow)
  | selectCredit _ _ _ => Except Exc (Option ApprovalRow)
  | insertRow _ => Except Exc ApprovalRow
  | updateDecision _ _ _ _ => Except Exc Unit
  | updateExecuted _ _ => Except Exc Unit

/-- The outside at one statement. -/
structure StatementEnv where
  now : String
  uuid : String
  fault : Option Exc := none

/-- A statement under a fault: nothing is committed. -/
def StatementEnv.apply {X : Type} (env : StatementEnv) (table : ApprovalTable)
    (answer : Except Exc X × ApprovalTable) : Except Exc X × ApprovalTable :=
  match env.fault with
  | some e => (.error e, table)
  | none => answer

/-- What a statement does, and what it answers. -/
def commit : (c : Statement) → StatementEnv → ApprovalTable → c.Answer × ApprovalTable
  | .selectById approvalId, env, table =>
    env.apply table (.ok (Asante.selectById table approvalId), table)
  | .selectCredit taskId reservationId amount, env, table =>
    env.apply table (.ok (Asante.selectCredit table taskId reservationId amount), table)
  | .insertRow r, env, table =>
    env.apply table (match Asante.insertRow table (newRow env.now env.uuid r) with
      | .ok table' => (.ok (newRow env.now env.uuid r), table')
      | .error e => (.error e, table))
  | .updateDecision approvalId approved decidedBy note, env, table =>
    env.apply table (.ok (), Asante.updateDecision table approvalId (decisionTarget approved)
      env.now decidedBy note)
  | .updateExecuted approvalId json, env, table =>
    env.apply table (.ok (), Asante.updateExecuted table approvalId env.now json)

/-- A program over the statements. -/
abbrev StoreProg (α : Type) := Core.Prog Statement Statement.Answer Exc α

/-- Issue a statement. -/
def statement (c : Statement) : StoreProg c.Answer :=
  Core.Prog.perform c

@[simp] theorem statement_bind {α : Type} (c : Statement) (f : c.Answer → StoreProg α) :
    (statement c >>= f) = .call c f := rfl

/-- `self._connection.execute`: go on with what the statement answered, or raise. -/
def execute {α : Type} (p : StoreProg (Except Exc α)) : StoreProg α := do
  Core.Prog.ofExcept (← p)

/-- `require`. -/
def instanceRequire (approvalId : String) : StoreProg ApprovalRecord := do
  match ← execute (statement (.selectById approvalId)) with
  | some row => return fromRow row
  | none => throw (.lookupError s!"unknown approval request: {approvalId}")

/-- `create_credit_request`. -/
def instanceCreate (r : CreditRequest) : StoreProg ApprovalRecord := do
  match ← execute (statement (.selectCredit r.taskId r.reservationId r.amount)) with
  | some row => return fromRow row
  | none => do
    let row ← execute (statement (.insertRow r))
    return fromRow row

/-- `decide`. -/
def instanceDecide (approvalId : String) (approved : Bool) (decidedBy : String)
    (note : Option String) : StoreProg ApprovalRecord := do
  let current ← instanceRequire approvalId
  if current.status = decisionTarget approved then return current
  else if current.status ≠ .pending then throw (wrongStatus approvalId current.status .pending)
  else do
    let _ : Unit ← execute (statement (.updateDecision approvalId approved decidedBy note))
    instanceRequire approvalId

/-- `mark_executed`. -/
def instanceMarkExecuted (approvalId : String) (result : PyDict) : StoreProg ApprovalRecord := do
  let current ← instanceRequire approvalId
  if current.status = .executed then return current
  else if current.status ≠ .approved then throw (wrongStatus approvalId current.status .approved)
  else do
    let json ← Core.Prog.ofExcept (jsonDumps result)
    let _ : Unit ← execute (statement (.updateExecuted approvalId json))
    instanceRequire approvalId

/-- A call of an instance. -/
inductive InstanceCall where
  | create (r : CreditRequest)
  | decide (approvalId : String) (approved : Bool) (decidedBy : String) (note : Option String)
  | markExecuted (approvalId : String) (result : PyDict)

/-- The program of a call. -/
def InstanceCall.code : InstanceCall → StoreProg ApprovalRecord
  | create r => instanceCreate r
  | decide approvalId approved decidedBy note => instanceDecide approvalId approved decidedBy note
  | markExecuted approvalId result => instanceMarkExecuted approvalId result

end Asante
