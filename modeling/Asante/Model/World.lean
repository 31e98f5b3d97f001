import Asante.Core.Pool
import Asante.Model.Approvals
import Asante.Model.Ruhusa
import Asante.Model.Stores

/-!
# The World of the Application

The shared state every entry point works on, the atomic steps they take on it,
and the outside they take them in.

`Cmd` lists the atomic steps: a call of Ruhusa, a provider call, a locked
section or a statement of the approval store, a cache operation, a registry
operation, a reading of the clock. The programs of `Model.Tools` and its
successors are built from them, and `perform` says what each one does. A call
of the ledger is one step too, although the source looks the key up and appends
without a lock: calls of it that overlap are taken here one after another.

`Env` is the outside at one step: whether Ruhusa's factory makes an invocation
of a request, what Ruhusa would answer, what the clocks show, which identifier
is drawn next, and whether the provider or store that is asked raises. A fault
may strike before the step takes effect or after, so a provider that raises
although it did record is one of the behaviours. Since every step is given its
own environment, nothing relates what Ruhusa answers at `begin` to what it
answers at `revalidate`.

`writes` is history, not state: it lists the calls that appended to the ledger,
with the tool and the key of each, so that results can say who wrote a credit.
No program reads it.

## Main definitions

* `AsanteRunContext`, `registerTask`, `requireTask`, `unregisterTask`: The
  registry of trusted tasks.
* `Writer`, `Write`: Who appended to the ledger, and what.
* `World`: The shared state.
* `Env`, `Fault`: The outside at one step.
* `Env.admission`: The invocation made and begun.
* `Cmd`, `Cmd.Answer`, `perform`: The atomic steps.
* `App`: Programs over these steps.
-/

namespace Asante

/-- The trusted state of one agent run. -/
structure AsanteRunContext where
  task : TaskContext
  reservationsDelegation : List DelegationGrant
  propertyOperationsDelegation : List DelegationGrant
  guestSupportMessageDelegation : List DelegationGrant
  serviceRecoveryDelegation : List DelegationGrant
  serviceRecoveryCreditRequestDelegation : List DelegationGrant
  deriving DecidableEq

/-- The contexts of `TrustedTaskRegistry`, by task id. -/
abbrev TaskRegistry := List (String × AsanteRunContext)

/-- `TrustedTaskRegistry.register`. -/
def registerTask (context : AsanteRunContext) (registry : TaskRegistry) :
    Except Exc Unit × TaskRegistry :=
  let taskId := context.task.taskId
  let contexts := (taskId, context) :: registry.filter fun e => e.1 ≠ taskId
  match registry.lookup taskId with
  | some existing =>
    if existing ≠ context then
      (.error (.valueError s!"trusted task already registered: {taskId}"), registry)
    else (.ok (), contexts)
  | none => (.ok (), contexts)

/-- `TrustedTaskRegistry.require`. -/
def requireTask (taskId : String) (registry : TaskRegistry) : Except Exc AsanteRunContext :=
  match registry.lookup taskId with
  | some context => .ok context
  | none => .error (.trustedTaskNotFoundError "unknown or expired trusted task")

/-- `TrustedTaskRegistry.unregister`. -/
def unregisterTask (taskId : String) (registry : TaskRegistry) : TaskRegistry :=
  registry.filter fun e => e.1 ≠ taskId

/-- The tool behind a ledger call: the direct credit tool in some task, or the
    executor of some approval. -/
inductive Writer where
  | issueCredit (taskId : String)
  | approvedExecutor (approvalId : String)
  deriving DecidableEq

/-- A ledger call that appended. -/
structure Write where
  writer : Writer
  key : Option String
  credit : Credit
  deriving DecidableEq

/-- The shared state. -/
structure World where
  ledger : GuestCreditLedger
  writes : List Write
  workOrders : MaintenanceWorkOrderStore
  outbox : GuestMessageOutbox
  approvals : ApprovalTable
  cache : CacheStore ℚ
  reservations : ReservationProvider
  grants : List DelegationGrant
  registry : TaskRegistry

/-- Nothing recorded, requested, cached, granted or registered, and the
    reservations the provider starts with. -/
def World.empty : World :=
  { ledger := .empty
    writes := []
    workOrders := .empty
    outbox := .empty
    approvals := []
    cache := { entries := [], getCalls := 0 }
    reservations := { reservations := seededReservations, calls := 0 }
    grants := []
    registry := [] }

/-- Whether the provider or store asked at a step raises, and whether the step
    had taken effect by then. -/
inductive Fault where
  | none
  | before (e : Exc)
  | after (e : Exc)

/-- A fallible step under a fault. -/
def Fault.apply {X : Type} (fault : Fault) (w : World) (step : Except Exc X × World) :
    Except Exc X × World :=
  match fault with
  | .none => step
  | .before e => (.error e, w)
  | .after e => (.error e, step.2)

/-- The outside at one step. -/
structure Env where
  now : Int
  nowText : String
  monotonic : ℚ
  uuid : String
  create : Request → Option Exc
  begin : Request → Admission
  revalidate : Request → Permit → Revalidation
  complete : Permit → Bool
  fault : Fault
  agentRun : Except Exc String

/-- `invocation_factory.create(...)` and `execution_controller.begin(...)` of the
    invocation. A factory that raises leaves Ruhusa unasked. -/
def Env.admission (env : Env) (req : Request) : Except Exc Admission :=
  match env.create req with
  | some e => .error e
  | none => .ok (env.begin req)

theorem Env.admission_ok {env : Env} {req : Request} {admission : Admission} :
    env.admission req = .ok admission ↔ env.create req = none ∧ env.begin req = admission := by
  unfold Env.admission
  cases env.create req with
  | none => simp only [Except.ok.injEq, true_and]
  | some e => simp only [reduceCtorEq, false_and]

theorem Env.admission_error {env : Env} {req : Request} {e : Exc} :
    env.admission req = .error e ↔ env.create req = some e := by
  unfold Env.admission
  cases env.create req with
  | none => simp only [reduceCtorEq]
  | some e' => simp only [Except.error.injEq, Option.some.injEq]

/-- The atomic steps. -/
inductive Cmd where
  | now
  | uuid4
  | begin (req : Request)
  | revalidate (req : Request) (permit : Permit)
  | complete (permit : Permit)
  | markUnknown (permit : Permit)
  | recordCreditRetry (attempt : Nat)
  | sleep (seconds : ℚ)
  | ledgerIssue (writer : Writer) (credit : Credit) (idempotencyKey : Option String)
  | maintenanceCreate (r : MaintenanceRequest) (idempotencyKey : String)
  | outboxSend (reservationId message idempotencyKey : String)
  | findCreditRequest (taskId reservationId : String) (amount : ℚ)
  | createCreditRequest (r : CreditRequest)
  | requireRecord (approvalId : String)
  | decideLocked (approvalId : String) (approved : Bool) (decidedBy : String)
      (note : Option String)
  | markExecutedLocked (approvalId : String) (result : PyDict)
  | cacheGet (key : String)
  | cachePut (key : String) (value : PyDict) (ttlSeconds : ℚ)
  | providerGetReservation (reservationId : String)
  | registerGrant (grant : DelegationGrant)
  | registerTask (context : AsanteRunContext)
  | requireTask (taskId : String)
  | unregisterTask (taskId : String)
  | extractTraceContext (metadata : PyDict)
  | runAgents (message : String) (context : AsanteRunContext)

/-- What a step answers. -/
@[reducible] def Cmd.Answer : Cmd → Type
  | now => Int
  | uuid4 => String
  | begin _ => Except Exc Admission
  | revalidate _ _ => Revalidation
  | complete _ => Bool
  | markUnknown _ => Unit
  | recordCreditRetry _ => Unit
  | sleep _ => Unit
  | ledgerIssue _ _ _ => Except Exc PyDict
  | maintenanceCreate _ _ => Except Exc PyDict
  | outboxSend _ _ _ => Except Exc PyDict
  | findCreditRequest _ _ _ => Except Exc (Option ApprovalRecord)
  | createCreditRequest _ => Except Exc ApprovalRecord
  | requireRecord _ => Except Exc ApprovalRecord
  | decideLocked _ _ _ _ => Except Exc (Option ApprovalRecord)
  | markExecutedLocked _ _ => Except Exc (Option ApprovalRecord)
  | cacheGet _ => Except Exc (CacheLookup ℚ)
  | cachePut _ _ _ => Except Exc Unit
  | providerGetReservation _ => Except Exc (Option PyDict)
  | registerGrant _ => Except Exc Unit
  | registerTask _ => Except Exc Unit
  | requireTask _ => Except Exc AsanteRunContext
  | unregisterTask _ => Unit
  | extractTraceContext _ => Except Exc Unit
  | runAgents _ _ => Except Exc String

/-- The ledger call with its history. -/
def World.issue (w : World) (writer : Writer) (credit : Credit) (key : Option String) : World :=
  { w with
    ledger := (ledgerIssue credit key w.ledger).2
    writes := if (w.ledger.record key credit).1.2 then w.writes
      else w.writes ++ [⟨writer, key, credit⟩] }

/-- What a step does, and what it answers. -/
def perform : (c : Cmd) → Env → World → c.Answer × World
  | .now, env, w => (env.now, w)
  | .uuid4, env, w => (env.uuid, w)
  | .begin req, env, w => (env.admission req, w)
  | .revalidate req permit, env, w => (env.revalidate req permit, w)
  | .complete permit, env, w => (env.complete permit, w)
  | .markUnknown _, _, w => ((), w)
  | .recordCreditRetry _, _, w => ((), w)
  | .sleep _, _, w => ((), w)
  | .ledgerIssue writer credit key, env, w =>
    env.fault.apply w (.ok (ledgerIssue credit key w.ledger).1, w.issue writer credit key)
  | .maintenanceCreate r key, env, w =>
    let answer := maintenanceCreate env.nowText env.uuid r key w.workOrders
    env.fault.apply w (.ok answer.1, { w with workOrders := answer.2 })
  | .outboxSend reservationId message key, env, w =>
    let answer := outboxSend env.nowText env.uuid reservationId message key w.outbox
    env.fault.apply w (.ok answer.1, { w with outbox := answer.2 })
  | .findCreditRequest taskId reservationId amount, env, w =>
    env.fault.apply w (.ok (findCreditRequest w.approvals taskId reservationId amount), w)
  | .createCreditRequest r, env, w =>
    let answer := createCreditRequest env.nowText env.uuid r w.approvals
    env.fault.apply w (answer.1, { w with approvals := answer.2 })
  | .requireRecord approvalId, env, w =>
    env.fault.apply w (requireRecord w.approvals approvalId, w)
  | .decideLocked approvalId approved decidedBy note, env, w =>
    let answer := decideLocked env.nowText approvalId approved decidedBy note w.approvals
    env.fault.apply w (answer.1, { w with approvals := answer.2 })
  | .markExecutedLocked approvalId result, env, w =>
    let answer := markExecutedLocked env.nowText approvalId result w.approvals
    env.fault.apply w (answer.1, { w with approvals := answer.2 })
  | .cacheGet key, env, w =>
    let answer := cacheGet env.monotonic key w.cache
    env.fault.apply w (.ok answer.1, { w with cache := answer.2 })
  | .cachePut key value ttlSeconds, env, w =>
    let answer := cachePut env.monotonic key value ttlSeconds w.cache
    env.fault.apply w (answer.1, { w with cache := answer.2 })
  | .providerGetReservation reservationId, env, w =>
    let answer := providerGetReservation reservationId w.reservations
    env.fault.apply w (.ok answer.1, { w with reservations := answer.2 })
  | .registerGrant grant, env, w =>
    env.fault.apply w (.ok (), { w with grants := w.grants ++ [grant] })
  | .registerTask context, _, w =>
    let answer := registerTask context w.registry
    (answer.1, { w with registry := answer.2 })
  | .requireTask taskId, _, w => (requireTask taskId w.registry, w)
  | .unregisterTask taskId, _, w => ((), { w with registry := unregisterTask taskId w.registry })
  | .extractTraceContext _, env, w => env.fault.apply w (.ok (), w)
  | .runAgents _ _, env, w => (env.agentRun, w)

/-- A program over the atomic steps. -/
abbrev App (α : Type) := Core.Prog Cmd Cmd.Answer Exc α

/-- A step of a program, with its answer. -/
abbrev AppEvent := Core.Event Cmd Cmd.Answer

/-- Issue a step that cannot fail. -/
def ask (c : Cmd) : App c.Answer :=
  Core.Prog.perform c

@[simp] theorem ask_bind {α : Type} (c : Cmd) (f : c.Answer → App α) :
    (ask c >>= f) = .call c f := rfl

/-- Return or raise what a fallible step answered. -/
def orRaise {α : Type} (p : App (Except Exc α)) : App α := do
  Core.Prog.ofExcept (← p)

theorem admit_bind {α : Type} (req : Request) (f : Admission → App α) :
    (orRaise (ask (.begin req)) >>= f) =
      .call (.begin req) fun r => Core.Prog.ofExcept r >>= f := rfl

end Asante
