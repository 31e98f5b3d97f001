import Asante.Core.Cells
import Asante.Theory.OnBehalf

/-!
# Footprints and Separation

Which stores a call works on, and what follows for calls that share none. A
secured operation works on the stores of its own service. The registry of tasks
is read by the MCP calls of every service and changed by the runs of the agents
only. Grants are added by every endpoint and read by none.

The stores of a service, with the registry, are a cell of the world. Calls of
another service keep out of it, so they might as well not have been made: the
calls of the service get the same answers, and the same credits, rows, work
orders or messages are there in the end.

## Main definitions

* `Store`, `Cmd.store`: The store a command works on.
* `ToolCall.Effects`, `AppCall.Effects`: The commands that work on a store.
* `ToolCall.stores`, `AppCall.stores`: The footprint of a call.
* `Service`, `AppCall.concerns`: The four services.
* `viewOf`, `storeCell`: Some stores of the world, as a cell.

## Theorems

* `issues_effects`, `app_effects`: Stores are worked on by effects alone.
* `issues_footprint`: A call keeps to its footprint.
* `perform_frame`: A command leaves the stores it does not work on.
* `services_separate`: Other services make no difference.
-/

namespace Asante

open Core.Prog

/-- The stores behind the commands. -/
inductive Store where
  | ledger
  | workOrders
  | outbox
  | approvals
  | cache
  | reservations
  | registry
  deriving DecidableEq

/-- The store a command works on. Registered grants are never read again, and
    looking up a task is no more than reading the registry, which all share. -/
def Cmd.store : Cmd → Option Store
  | .ledgerIssue _ _ _ => some .ledger
  | .maintenanceCreate _ _ => some .workOrders
  | .outboxSend _ _ _ => some .outbox
  | .findCreditRequest _ _ _ => some .approvals
  | .createCreditRequest _ => some .approvals
  | .requireRecord _ => some .approvals
  | .decideLocked _ _ _ _ => some .approvals
  | .markExecutedLocked _ _ => some .approvals
  | .cacheGet _ => some .cache
  | .cachePut _ _ _ => some .cache
  | .providerGetReservation _ => some .reservations
  | .registerTask _ => some .registry
  | .unregisterTask _ => some .registry
  | _ => none

/-- The commands of a secured operation that work on a store. -/
def ToolCall.Effects (d : Deployment) : ToolCall → Cmd → Prop
  | issueCredit _ reservationId amount reason task _, c =>
    c = .ledgerIssue (.issueCredit task.taskId) ⟨reservationId, amount, reason⟩
      (some (creditDigest d.sha256 task.taskId reservationId amount))
  | getReservation reservationId _ _, c =>
    c = .cacheGet (reservationDigest d.sha256 reservationId) ∨
      c = .providerGetReservation reservationId ∨
      ∃ value, c = .cachePut (reservationDigest d.sha256 reservationId) value
        d.cacheTtlSeconds
  | createMaintenanceRequest reservationId category urgency description task _, c =>
    maintenanceUrgencies.contains (lower (strip urgency)) = true ∧
      c = .maintenanceCreate ⟨reservationId, category, lower (strip urgency), description⟩
        (operationDigest d.sha256 "maintenance.create" task.taskId reservationId
          (maintenancePayload category urgency description))
  | sendGuestMessage reservationId message task _, c =>
    strip message ≠ "" ∧ c = .outboxSend reservationId message
      (operationDigest d.sha256 "guest.message.send" task.taskId reservationId (strip message))
  | requestGuestCredit reservationId amount reason task _, c =>
    c = .findCreditRequest task.taskId reservationId amount ∨
      c = .createCreditRequest
        { taskId := task.taskId
          requestedBy := task.initiatedBy
          reservationId := reservationId
          amount := amount
          reason := reason
          policyId := some "service-recovery-credit-request" }
  | executeApproved approval _ _, c =>
    c = .ledgerIssue (.approvedExecutor approval.approvalId)
        ⟨approval.reservationId, approval.amount, approval.reason⟩
        (some (approvedCreditKey approval.approvalId)) ∨
      (∃ result, c = .markExecutedLocked approval.approvalId result) ∨
      c = .requireRecord approval.approvalId

/-- The commands that open a task and issue its chains. -/
def Cmd.opens : Cmd → Bool
  | .uuid4 => true
  | .now => true
  | .registerGrant _ => true
  | _ => false

theorem store_of_opens {c : Cmd} (h : c.opens = true) : c.store = none := by
  cases c with
  | uuid4 => rfl
  | now => rfl
  | registerGrant grant => rfl
  | _ => exact absurd h Bool.noConfusion

section Opening

variable {S : Cmd → Prop} (hS : ∀ c, c.opens = true → S c)

include hS

theorem opening_task (operator : AuthenticatedHuman) (purpose : String) (lifetime : Int) :
    Issues S (openTask operator purpose lifetime) :=
  issues_bind _ _ (issues_ask (hS _ rfl)) fun _ =>
    issues_bind _ _ (issues_ask (hS _ rfl)) fun _ => trivial

theorem opening_chain (d : Deployment) (task : TaskContext) (childWorkload : Workload)
    (rootScope childScope : Scope) :
    Issues S (issueChain d task childWorkload rootScope childScope) := by
  refine issues_bind _ _ (issues_ask (hS _ rfl)) fun _ => ?_
  refine issues_bind _ _ (issues_ask (hS _ rfl)) fun _ => ?_
  refine issues_bind _ _ (issues_ask (hS _ rfl)) fun _ => ?_
  refine issues_bind _ _ (issues_orRaise (issues_ask (hS _ rfl))) fun _ => ?_
  exact issues_bind _ _ (issues_orRaise (issues_ask (hS _ rfl))) fun _ => trivial

theorem opening_serviceRecovery (d : Deployment) (task : TaskContext)
    (supervisorLimit serviceRecoveryLimit : ℚ) :
    Issues S (issueServiceRecoveryDelegation d task supervisorLimit serviceRecoveryLimit) := by
  unfold issueServiceRecoveryDelegation
  split
  · trivial
  · refine issues_bind _ _ (issues_ofExcept _) fun _ => ?_
    exact issues_bind _ _ (issues_ofExcept _) fun _ => opening_chain hS d _ _ _ _

theorem opening_approvalExecutor (d : Deployment) (task : TaskContext) (limit : ℚ) :
    Issues S (issueApprovalExecutorDelegation d task limit) := by
  refine issues_bind _ _ (issues_ask (hS _ rfl)) fun _ => ?_
  refine issues_bind _ _ (issues_ask (hS _ rfl)) fun _ => ?_
  refine issues_bind _ _ (issues_ofExcept _) fun _ => ?_
  exact issues_bind _ _ (issues_orRaise (issues_ask (hS _ rfl))) fun _ => trivial

theorem opening_run (d : Deployment) (operator : AuthenticatedHuman) :
    Issues S (openRun d operator) := by
  refine issues_bind _ _ (opening_task hS _ _ _) fun task => ?_
  refine issues_bind _ _ (opening_chain hS d _ _ _ _) fun _ => ?_
  refine issues_bind _ _ (opening_chain hS d _ _ _ _) fun _ => ?_
  refine issues_bind _ _ (opening_chain hS d _ _ _ _) fun _ => ?_
  refine issues_bind _ _ (opening_serviceRecovery hS d _ _ _) fun _ => ?_
  refine issues_bind _ _ (issues_bind _ _ (issues_ofExcept _) fun _ =>
    opening_chain hS d _ _ _ _) fun _ => ?_
  trivial

end Opening

section Issuing

variable {S : Cmd → Prop} {α : Type} (hS : ∀ c, c.store = none → S c)

include hS

theorem storeless_ask {c : Cmd} (h : c.store = none) : Issues S (ask c) :=
  issues_ask (hS c h)

theorem storeless_secured {submit : Int → Request} {body : Permit → Revalidation → App PyDict}
    (hbody : ∀ permit live, Issues S (body permit live)) : Issues S (secured submit body) := by
  unfold secured
  refine issues_bind _ _ (storeless_ask hS rfl) fun now => ?_
  refine issues_bind _ _ (issues_orRaise (storeless_ask hS rfl)) fun admission => ?_
  split
  · split
    · trivial
    · refine issues_bind _ _ (storeless_ask hS rfl) fun live => ?_
      split
      · exact hbody _ _
      · trivial
  · trivial

theorem storeless_markUnknown {permit : Permit} {operation : App α} (h : Issues S operation) :
    Issues S (markUnknownOnError permit operation) := by
  refine issues_tryCatch _ _ h fun e => ?_
  split
  · exact issues_bind _ _ (storeless_ask hS rfl) fun _ => trivial
  · trivial

/-- The end of a lifecycle, whatever is answered then. -/
theorem storeless_complete {permit : Permit} {message : String} {rest : App α}
    (h : Issues S rest) : Issues S (completeOrRaise permit message >>= fun _ => rest) := by
  refine issues_bind _ _ (issues_bind _ _ (storeless_ask hS rfl) fun completed => ?_) fun _ => h
  split
  · trivial
  · trivial

theorem storeless_retry {operation : App α} {policy : RetryPolicy} (h : Issues S operation) :
    ∀ left attempt, Issues S
      (retryFrom operation policy (fun n => ask (.recordCreditRetry n)) left attempt) := by
  intro left
  induction left with
  | zero => exact fun _ => trivial
  | succ left ih =>
      intro attempt
      refine issues_tryCatch _ _ h fun e => ?_
      split
      · split
        · trivial
        · refine issues_bind _ _ (storeless_ask hS rfl) fun _ => ?_
          dsimp only
          split
          · exact issues_bind _ _ (storeless_ask hS rfl) fun _ => ih _
          · exact ih _
      · trivial

/-- A secured operation works on stores by its effects and by nothing else. -/
theorem issues_effects (d : Deployment) (call : ToolCall)
    (heffects : ∀ c, call.Effects d c → S c) : Issues S (call.code d) := by
  have hask : ∀ {c : Cmd}, call.Effects d c → Issues S (ask c) := fun h => issues_ask (heffects _ h)
  cases call with
  | issueCredit retryPolicy reservationId amount reason task chain =>
      refine storeless_secured hS fun permit live => ?_
      refine issues_creditKey ?_
      refine issues_bind _ _ (storeless_markUnknown hS (storeless_retry hS
        (issues_orRaise (hask rfl)) _ _)) fun _ => ?_
      exact storeless_complete hS trivial
  | getReservation reservationId task chain =>
      refine storeless_secured hS fun permit live => ?_
      refine issues_reservationKey ?_
      refine issues_bind _ _ (issues_orRaise (hask (Or.inl rfl))) fun lookup => ?_
      split
      · exact storeless_complete hS trivial
      · refine issues_bind _ _ (issues_orRaise (hask (Or.inr (Or.inl rfl)))) fun reservation => ?_
        split
        · exact storeless_complete hS trivial
        · exact issues_bind _ _ (issues_orRaise (hask (Or.inr (Or.inr ⟨_, rfl⟩))))
            fun _ => storeless_complete hS trivial
  | createMaintenanceRequest reservationId category urgency description task chain =>
      simp only [ToolCall.code, createMaintenanceRequest]
      split
      · next hurgency =>
          refine issues_operationKey ?_
          refine storeless_secured hS fun permit live => ?_
          exact issues_bind _ _ (storeless_markUnknown hS (issues_orRaise (hask ⟨hurgency, rfl⟩)))
            fun _ => storeless_complete hS trivial
      · trivial
  | sendGuestMessage reservationId message task chain =>
      simp only [ToolCall.code, sendGuestMessage]
      split
      · trivial
      · next hmessage =>
          refine issues_operationKey ?_
          refine storeless_secured hS fun permit live => ?_
          exact issues_bind _ _ (storeless_markUnknown hS (issues_orRaise (hask ⟨hmessage, rfl⟩)))
            fun _ => storeless_complete hS trivial
  | requestGuestCredit reservationId amount reason task chain =>
      refine storeless_secured hS fun permit live => ?_
      refine issues_bind _ _ (storeless_markUnknown hS ?_) fun _ => storeless_complete hS trivial
      refine issues_bind _ _ (issues_orRaise (hask (Or.inl rfl))) fun _ => ?_
      exact issues_bind _ _ (issues_orRaise (hask (Or.inr rfl))) fun _ => trivial
  | executeApproved approval task chain =>
      simp only [ToolCall.code, executeApproved]
      split
      · trivial
      · split
        · refine storeless_secured hS fun permit live => ?_
          refine issues_bind _ _ (storeless_markUnknown hS (issues_orRaise (hask (Or.inl rfl))))
            fun _ => storeless_complete hS ?_
          refine issues_bind _ _ ?_ fun _ => trivial
          refine issues_bind _ _ (issues_orRaise (hask (Or.inr (Or.inl ⟨_, rfl⟩)))) fun r => ?_
          split
          · trivial
          · exact issues_orRaise (hask (Or.inr (Or.inr rfl)))
        · trivial

/-- A tool of the server works on stores by the effects of its operation. -/
theorem storeless_mcp (d : Deployment) (tool : McpTool) (metadata : PyDict)
    (htool : ∀ context, Issues S ((tool.toolCall d context).code d)) :
    Issues S (tool.call d metadata) := by
  refine issues_bind _ _ (issues_ofExcept _) fun _ => ?_
  refine issues_bind _ _ (issues_ofExcept _) fun taskId => ?_
  refine issues_bind _ _ (issues_orRaise (storeless_ask hS rfl)) fun _ => ?_
  refine issues_tryCatch _ _ ?_ fun e => ?_
  · rw [forTrustedTask_eq]
    exact issues_bind _ _ (issues_orRaise (storeless_ask hS rfl)) fun context => htool context
  · split
    · trivial
    · trivial

end Issuing

/-- The stores of a secured operation. -/
def ToolCall.stores : ToolCall → List Store
  | issueCredit _ _ _ _ _ _ => [.ledger]
  | getReservation _ _ _ => [.cache, .reservations]
  | createMaintenanceRequest _ _ _ _ _ _ => [.workOrders]
  | sendGuestMessage _ _ _ _ => [.outbox]
  | requestGuestCredit _ _ _ _ _ => [.approvals]
  | executeApproved _ _ _ => [.ledger, .approvals]

/-- The command works on one of the stores, if it works on any. -/
def WorksOn (stores : List Store) (c : Cmd) : Prop :=
  ∀ store, c.store = some store → store ∈ stores

theorem worksOn_none (stores : List Store) (c : Cmd) (h : c.store = none) : WorksOn stores c :=
  fun _ hstore => absurd (h.symm.trans hstore) (by simp only [reduceCtorEq, not_false_eq_true])

theorem worksOn_one {stores : List Store} {c : Cmd} {store : Store} (hc : c.store = some store)
    (h : store ∈ stores) : WorksOn stores c :=
  fun _ hstore => Option.some.inj (hc.symm.trans hstore) ▸ h

/-- The effects of an operation are on its stores. -/
theorem effects_stores {d : Deployment} {call : ToolCall} {c : Cmd} (h : call.Effects d c) :
    WorksOn call.stores c := by
  cases call with
  | issueCredit retryPolicy reservationId amount reason task chain =>
      rw [show c = _ from h]
      exact worksOn_one rfl (List.mem_singleton.mpr rfl)
  | getReservation reservationId task chain =>
      rcases h with rfl | rfl | ⟨value, rfl⟩
      · exact worksOn_one rfl List.mem_cons_self
      · exact worksOn_one rfl (List.mem_cons_of_mem _ List.mem_cons_self)
      · exact worksOn_one rfl List.mem_cons_self
  | createMaintenanceRequest reservationId category urgency description task chain =>
      rw [h.2]
      exact worksOn_one rfl (List.mem_singleton.mpr rfl)
  | sendGuestMessage reservationId message task chain =>
      rw [h.2]
      exact worksOn_one rfl (List.mem_singleton.mpr rfl)
  | requestGuestCredit reservationId amount reason task chain =>
      rcases h with rfl | rfl
      · exact worksOn_one rfl (List.mem_singleton.mpr rfl)
      · exact worksOn_one rfl (List.mem_singleton.mpr rfl)
  | executeApproved approval task chain =>
      rcases h with rfl | ⟨result, rfl⟩ | rfl
      · exact worksOn_one rfl List.mem_cons_self
      · exact worksOn_one rfl (List.mem_cons_of_mem _ List.mem_cons_self)
      · exact worksOn_one rfl (List.mem_cons_of_mem _ List.mem_cons_self)

/-- A secured operation keeps to the stores of its service. -/
theorem tool_footprint (d : Deployment) (call : ToolCall) :
    Issues (WorksOn call.stores) (call.code d) :=
  issues_effects (worksOn_none _) d call fun _ => effects_stores

/-- The commands of a call that work on a store. -/
def AppCall.Effects (d : Deployment) : AppCall → Cmd → Prop
  | runAgent _ _, c =>
    (∃ context, c = .registerTask context) ∨ ∃ taskId, c = .unregisterTask taskId
  | mcp tool _, c => ∃ context, (tool.toolCall d context).Effects d c
  | devIssueCredit _ reservationId amount reason, c => ∃ task chain,
    (ToolCall.issueCredit d.retryPolicy reservationId amount reason task chain).Effects d c
  | devGetReservation _ reservationId, c => ∃ task chain,
    (ToolCall.getReservation reservationId task chain).Effects d c
  | approve operator approvalId note, c =>
    c = .requireRecord approvalId ∨ c = .decideLocked approvalId true operator.principalId note ∨
      ∃ record task chain, (ToolCall.executeApproved record task chain).Effects d c
  | deny operator approvalId note, c =>
    c = .decideLocked approvalId false operator.principalId note ∨ c = .requireRecord approvalId

section Calls

variable {S : Cmd → Prop}

/-- A decision, with the record read again. -/
theorem issues_decision {approvalId decidedBy : String} {approved : Bool} {note : Option String}
    (hdecide : S (.decideLocked approvalId approved decidedBy note))
    (hrequire : S (.requireRecord approvalId)) :
    Issues S (approvalsDecide approvalId approved decidedBy note) := by
  refine issues_bind _ _ (issues_orRaise (issues_ask hdecide)) fun r => ?_
  split
  · trivial
  · exact issues_orRaise (issues_ask hrequire)

variable (hS : ∀ c, c.store = none → S c)

include hS

/-- A call works on stores by its effects and by nothing else. -/
theorem app_effects (d : Deployment) (call : AppCall) (heffects : ∀ c, call.Effects d c → S c) :
    Issues S (call.code d) := by
  have hopens : ∀ c, c.opens = true → S c := fun c h => hS c (store_of_opens h)
  cases call with
  | runAgent operator message =>
      refine issues_validated (issues_bind _ _ (opening_run hopens d operator) fun context => ?_)
      refine issues_bind _ _ (issues_orRaise (issues_ask (heffects _ (Or.inl ⟨_, rfl⟩))))
        fun _ => ?_
      refine issues_bind _ _ (storeless_ask hS rfl) fun _ => ?_
      refine issues_bind _ _ (issues_ask (heffects _ (Or.inr ⟨_, rfl⟩))) fun _ => ?_
      exact issues_bind _ _ (issues_ofExcept _) fun _ => trivial
  | mcp tool metadata =>
      exact issues_bind _ _ (storeless_mcp hS d tool metadata fun context =>
        issues_effects hS d _ fun c hc => heffects c ⟨context, hc⟩) fun _ => trivial
  | devIssueCredit operator reservationId amount reason =>
      refine issues_validated (issues_bind _ _ (opening_task hopens _ _ _) fun task => ?_)
      refine issues_bind _ _ (opening_serviceRecovery hopens d _ _ _) fun chain => ?_
      exact issues_bind _ _ (issues_effects hS d (.issueCredit _ _ _ _ task chain)
        fun c hc => heffects c ⟨task, chain, hc⟩) fun _ => trivial
  | devGetReservation operator reservationId =>
      refine issues_bind _ _ (opening_task hopens _ _ _) fun task => ?_
      refine issues_bind _ _ (opening_chain hopens d _ _ _ _) fun chain => ?_
      exact issues_bind _ _ (issues_effects hS d (.getReservation _ task chain)
        fun c hc => heffects c ⟨task, chain, hc⟩) fun _ => trivial
  | approve operator approvalId note =>
      have hrequire : S (.requireRecord approvalId) := heffects _ (Or.inl rfl)
      refine issues_validated (issues_bind _ _ (issues_ofExcept _) fun _ => ?_)
      refine issues_bind _ _ (issues_approvalErrors (issues_bind _ _ (issues_orRaise (issues_ask
        hrequire)) fun record => ?_)) fun decided => ?_
      · split
        · trivial
        · exact issues_bind _ _ (issues_decision (heffects _ (Or.inr (Or.inl rfl))) hrequire)
            fun _ => trivial
      · split
        · -- A repeated approval works on nothing else.
          trivial
        · refine issues_bind _ _ (opening_task hopens _ _ _) fun task => ?_
          refine issues_bind _ _ (opening_approvalExecutor hopens d _ _) fun chain => ?_
          refine issues_bind _ _ (issues_effects hS d (.executeApproved _ task chain)
            fun c hc => heffects c (Or.inr (Or.inr ⟨_, task, chain, hc⟩))) fun _ => ?_
          exact issues_bind _ _ (issues_orRaise (issues_ask hrequire)) fun _ => trivial
  | deny operator approvalId note =>
      refine issues_validated (issues_bind _ _ (issues_ofExcept _) fun _ => ?_)
      exact issues_bind _ _ (issues_approvalErrors (issues_decision (heffects _ (Or.inl rfl))
        (heffects _ (Or.inr rfl)))) fun _ => trivial

end Calls

/-- The stores of a tool of the server. -/
def McpTool.stores : McpTool → List Store
  | issueGuestCredit _ _ _ => [.ledger]
  | getReservation _ => [.cache, .reservations]
  | createMaintenanceRequest _ _ _ _ => [.workOrders]
  | sendGuestMessage _ _ => [.outbox]
  | requestGuestCredit _ _ _ => [.approvals]

/-- The footprint of a call. -/
def AppCall.stores : AppCall → List Store
  | runAgent _ _ => [.registry]
  | mcp tool _ => tool.stores
  | devIssueCredit _ _ _ _ => [.ledger]
  | devGetReservation _ _ => [.cache, .reservations]
  | approve _ _ _ => [.ledger, .approvals]
  | deny _ _ _ => [.approvals]

theorem toolCall_stores (d : Deployment) (tool : McpTool) (context : AsanteRunContext) :
    (tool.toolCall d context).stores = tool.stores := by
  cases tool <;> rfl

/-- A call keeps to its footprint. -/
theorem issues_footprint (d : Deployment) (call : AppCall) :
    Issues (WorksOn call.stores) (call.code d) := by
  refine app_effects (worksOn_none _) d call fun c hc => ?_
  cases call with
  | runAgent operator message =>
      rcases hc with ⟨context, rfl⟩ | ⟨taskId, rfl⟩
      · exact worksOn_one rfl List.mem_cons_self
      · exact worksOn_one rfl List.mem_cons_self
  | mcp tool metadata =>
      rcases hc with ⟨context, hc⟩
      have hworks := effects_stores hc
      rw [toolCall_stores] at hworks
      exact hworks
  | devIssueCredit operator reservationId amount reason =>
      rcases hc with ⟨task, chain, hc⟩
      exact effects_stores hc
  | devGetReservation operator reservationId =>
      rcases hc with ⟨task, chain, hc⟩
      exact effects_stores hc
  | approve operator approvalId note =>
      rcases hc with rfl | rfl | ⟨record, task, chain, hc⟩
      · exact worksOn_one rfl (List.mem_cons_of_mem _ List.mem_cons_self)
      · exact worksOn_one rfl (List.mem_cons_of_mem _ List.mem_cons_self)
      · exact effects_stores hc
  | deny operator approvalId note =>
      rcases hc with rfl | rfl
      · exact worksOn_one rfl List.mem_cons_self
      · exact worksOn_one rfl List.mem_cons_self

/-- Two worlds have the same store; the history of the ledger goes with the
    ledger. -/
def Store.Same (w v : World) : Store → Prop
  | ledger => w.ledger = v.ledger ∧ w.writes = v.writes
  | workOrders => w.workOrders = v.workOrders
  | outbox => w.outbox = v.outbox
  | approvals => w.approvals = v.approvals
  | cache => w.cache = v.cache
  | reservations => w.reservations = v.reservations
  | registry => w.registry = v.registry

theorem same_refl (store : Store) (w : World) : store.Same w w := by
  cases store with
  | ledger => exact ⟨rfl, rfl⟩
  | _ => rfl

theorem same_apply {X : Type} {store : Store} {fault : Fault} {w : World}
    {step : Except Exc X × World} (h : store.Same step.2 w) :
    store.Same (fault.apply w step).2 w := by
  cases fault with
  | none => exact h
  | before e => exact same_refl store w
  | after e => exact h

/-- A command leaves the stores it does not work on. -/
theorem perform_frame {c : Cmd} {store : Store} (h : c.store ≠ some store) (env : Env)
    (w : World) : store.Same (perform c env w).2 w := by
  cases c with
  | ledgerIssue writer credit key =>
      refine same_apply ?_
      cases store with
      | ledger => exact absurd rfl h
      | _ => rfl
  | maintenanceCreate r key =>
      refine same_apply ?_
      cases store with
      | workOrders => exact absurd rfl h
      | ledger => exact ⟨rfl, rfl⟩
      | _ => rfl
  | outboxSend reservationId message key =>
      refine same_apply ?_
      cases store with
      | outbox => exact absurd rfl h
      | ledger => exact ⟨rfl, rfl⟩
      | _ => rfl
  | createCreditRequest r =>
      refine same_apply ?_
      cases store with
      | approvals => exact absurd rfl h
      | ledger => exact ⟨rfl, rfl⟩
      | _ => rfl
  | decideLocked approvalId approved decidedBy note =>
      refine same_apply ?_
      cases store with
      | approvals => exact absurd rfl h
      | ledger => exact ⟨rfl, rfl⟩
      | _ => rfl
  | markExecutedLocked approvalId result =>
      refine same_apply ?_
      cases store with
      | approvals => exact absurd rfl h
      | ledger => exact ⟨rfl, rfl⟩
      | _ => rfl
  | cacheGet key =>
      refine same_apply ?_
      cases store with
      | cache => exact absurd rfl h
      | ledger => exact ⟨rfl, rfl⟩
      | _ => rfl
  | cachePut key value ttlSeconds =>
      refine same_apply ?_
      cases store with
      | cache => exact absurd rfl h
      | ledger => exact ⟨rfl, rfl⟩
      | _ => rfl
  | providerGetReservation reservationId =>
      refine same_apply ?_
      cases store with
      | reservations => exact absurd rfl h
      | ledger => exact ⟨rfl, rfl⟩
      | _ => rfl
  | registerTask context =>
      cases store with
      | registry => exact absurd rfl h
      | ledger => exact ⟨rfl, rfl⟩
      | _ => rfl
  | unregisterTask taskId =>
      cases store with
      | registry => exact absurd rfl h
      | ledger => exact ⟨rfl, rfl⟩
      | _ => rfl
  | registerGrant grant =>
      refine same_apply ?_
      cases store with
      | ledger => exact ⟨rfl, rfl⟩
      | _ => rfl
  | findCreditRequest taskId reservationId amount => exact same_apply (same_refl store w)
  | requireRecord approvalId => exact same_apply (same_refl store w)
  | extractTraceContext metadata => exact same_apply (same_refl store w)
  | _ => exact same_refl store w

/-- A value that is looked at or not. -/
def shown {X : Type} (keep : Bool) (x hidden : X) : X :=
  if keep then x else hidden

@[simp] theorem shown_true {X : Type} (x hidden : X) : shown true x hidden = x := rfl

@[simp] theorem shown_shown {X : Type} (keep : Bool) (x hidden : X) :
    shown keep (shown keep x hidden) hidden = shown keep x hidden := by
  cases keep <;> rfl

/-- Some stores of the world, and the registry; the history of the ledger goes
    with the ledger. -/
def viewOf (keep : Store → Bool) (w : World) : World :=
  { ledger := shown (keep .ledger) w.ledger World.empty.ledger
    writes := shown (keep .ledger) w.writes World.empty.writes
    workOrders := shown (keep .workOrders) w.workOrders World.empty.workOrders
    outbox := shown (keep .outbox) w.outbox World.empty.outbox
    approvals := shown (keep .approvals) w.approvals World.empty.approvals
    cache := shown (keep .cache) w.cache World.empty.cache
    reservations := shown (keep .reservations) w.reservations World.empty.reservations
    grants := World.empty.grants
    registry := w.registry }

/-- The command works on a store that is kept, or on none. -/
def KeptOnly (keep : Store → Bool) (c : Cmd) : Prop :=
  ∀ store, c.store = some store → store = .registry ∨ keep store = true

/-- The command works on a store that is not kept, or on none. -/
def KeptOut (keep : Store → Bool) (c : Cmd) : Prop :=
  ∀ store, c.store = some store → store ≠ .registry ∧ keep store = false

section Views

variable {keep : Store → Bool} {X : Type}

theorem apply_answer {fault : Fault} {w v : World} {step step' : Except Exc X × World}
    (h : step.1 = step'.1) : (fault.apply w step).1 = (fault.apply v step').1 := by
  cases fault with
  | none => exact h
  | before e => rfl
  | after e => rfl

theorem apply_view {fault : Fault} {w v : World} {step step' : Except Exc X × World}
    (hw : viewOf keep w = viewOf keep v) (hstep : viewOf keep step.2 = viewOf keep step'.2) :
    viewOf keep (fault.apply w step).2 = viewOf keep (fault.apply v step').2 := by
  cases fault with
  | none => exact hstep
  | before e => exact hw
  | after e => exact hstep

theorem shown_congr {x y hidden : X} {kept : Bool} (h : kept = true → x = y) :
    shown kept x hidden = shown kept y hidden := by
  cases kept with
  | true => exact h rfl
  | false => rfl

/-- Views of worlds that have the same kept stores. -/
theorem viewOf_congr {w v : World}
    (h : ∀ store, keep store = true ∨ store = .registry → store.Same w v) :
    viewOf keep w = viewOf keep v := by
  have hledger := fun hk => h .ledger (Or.inl hk)
  simp only [viewOf, World.mk.injEq, true_and]
  exact ⟨shown_congr fun hk => (hledger hk).1, shown_congr fun hk => (hledger hk).2,
    shown_congr fun hk => h .workOrders (Or.inl hk), shown_congr fun hk => h .outbox (Or.inl hk),
    shown_congr fun hk => h .approvals (Or.inl hk), shown_congr fun hk => h .cache (Or.inl hk),
    shown_congr fun hk => h .reservations (Or.inl hk), h .registry (Or.inr rfl)⟩

@[simp] theorem viewOf_viewOf (keep : Store → Bool) (w : World) :
    viewOf keep (viewOf keep w) = viewOf keep w := by
  simp only [viewOf, shown_shown]

/-- What a command inside answers, and what it does to the view. -/
theorem perform_inside {c : Cmd} (h : KeptOnly keep c) (env : Env) (w : World) :
    (perform c env (viewOf keep w)).1 = (perform c env w).1 ∧
      viewOf keep (perform c env (viewOf keep w)).2 = viewOf keep (perform c env w).2 := by
  -- The stores the command works on are kept.
  have hkept : ∀ store, c.store = some store → store ≠ .registry → keep store = true :=
    fun store hstore hne => (h store hstore).resolve_left hne
  cases c with
  | ledgerIssue writer credit key =>
      have hk : keep .ledger = true := hkept _ rfl Store.noConfusion
      exact ⟨apply_answer (by simp only [viewOf, hk, shown_true]),
        apply_view (viewOf_viewOf keep w) (by simp only [World.issue, viewOf, hk, shown_true,
          shown_shown])⟩
  | maintenanceCreate r key =>
      have hk : keep .workOrders = true := hkept _ rfl Store.noConfusion
      exact ⟨apply_answer (by simp only [viewOf, hk, shown_true]),
        apply_view (viewOf_viewOf keep w) (by simp only [viewOf, hk, shown_true, shown_shown])⟩
  | outboxSend reservationId message key =>
      have hk : keep .outbox = true := hkept _ rfl Store.noConfusion
      exact ⟨apply_answer (by simp only [viewOf, hk, shown_true]),
        apply_view (viewOf_viewOf keep w) (by simp only [viewOf, hk, shown_true, shown_shown])⟩
  | findCreditRequest taskId reservationId amount =>
      have hk : keep .approvals = true := hkept _ rfl Store.noConfusion
      exact ⟨apply_answer (by simp only [viewOf, hk, shown_true]),
        apply_view (viewOf_viewOf keep w) (viewOf_viewOf keep w)⟩
  | createCreditRequest r =>
      have hk : keep .approvals = true := hkept _ rfl Store.noConfusion
      exact ⟨apply_answer (by simp only [viewOf, hk, shown_true]),
        apply_view (viewOf_viewOf keep w) (by simp only [viewOf, hk, shown_true, shown_shown])⟩
  | requireRecord approvalId =>
      have hk : keep .approvals = true := hkept _ rfl Store.noConfusion
      exact ⟨apply_answer (by simp only [viewOf, hk, shown_true]),
        apply_view (viewOf_viewOf keep w) (viewOf_viewOf keep w)⟩
  | decideLocked approvalId approved decidedBy note =>
      have hk : keep .approvals = true := hkept _ rfl Store.noConfusion
      exact ⟨apply_answer (by simp only [viewOf, hk, shown_true]),
        apply_view (viewOf_viewOf keep w) (by simp only [viewOf, hk, shown_true, shown_shown])⟩
  | markExecutedLocked approvalId result =>
      have hk : keep .approvals = true := hkept _ rfl Store.noConfusion
      exact ⟨apply_answer (by simp only [viewOf, hk, shown_true]),
        apply_view (viewOf_viewOf keep w) (by simp only [viewOf, hk, shown_true, shown_shown])⟩
  | cacheGet key =>
      have hk : keep .cache = true := hkept _ rfl Store.noConfusion
      exact ⟨apply_answer (by simp only [viewOf, hk, shown_true]),
        apply_view (viewOf_viewOf keep w) (by simp only [viewOf, hk, shown_true, shown_shown])⟩
  | cachePut key value ttlSeconds =>
      have hk : keep .cache = true := hkept _ rfl Store.noConfusion
      exact ⟨apply_answer (by simp only [viewOf, hk, shown_true]),
        apply_view (viewOf_viewOf keep w) (by simp only [viewOf, hk, shown_true, shown_shown])⟩
  | providerGetReservation reservationId =>
      have hk : keep .reservations = true := hkept _ rfl Store.noConfusion
      exact ⟨apply_answer (by simp only [viewOf, hk, shown_true]),
        apply_view (viewOf_viewOf keep w) (by simp only [viewOf, hk, shown_true, shown_shown])⟩
  | registerGrant grant =>
      exact ⟨apply_answer rfl, apply_view (viewOf_viewOf keep w)
        (by simp only [viewOf, shown_shown])⟩
  | registerTask context => exact ⟨rfl, by simp only [perform, viewOf, shown_shown]⟩
  | unregisterTask taskId => exact ⟨rfl, by simp only [perform, viewOf, shown_shown]⟩
  | extractTraceContext metadata =>
      exact ⟨apply_answer rfl, apply_view (viewOf_viewOf keep w) (viewOf_viewOf keep w)⟩
  | _ => exact ⟨rfl, viewOf_viewOf keep w⟩

/-- A command outside leaves the view as it is. -/
theorem perform_outside {c : Cmd} (h : KeptOut keep c) (env : Env) (w : World) :
    viewOf keep (perform c env w).2 = viewOf keep w := by
  refine viewOf_congr fun store hstore => perform_frame (fun hc => ?_) env w
  rcases h store hc with ⟨hregistry, hhidden⟩
  rcases hstore with hkept | rfl
  · exact Bool.noConfusion (hkept.symm.trans hhidden)
  · exact hregistry rfl

end Views

/-- Some stores of the world, as a cell. -/
def storeCell (keep : Store → Bool) : Core.Cell perform where
  view := viewOf keep
  inside := KeptOnly keep
  outside := KeptOut keep
  answer _ env w h := (perform_inside h env w).1
  keeps _ env w h := (perform_inside h env w).2
  leaves _ env w h := perform_outside h env w

/-- The services behind the tools. -/
inductive Service where
  | credits
  | maintenance
  | messaging
  | reservations
  deriving DecidableEq

/-- The service a store belongs to; the registry is shared. -/
def Store.service : Store → Option Service
  | ledger => some .credits
  | approvals => some .credits
  | workOrders => some .maintenance
  | outbox => some .messaging
  | cache => some .reservations
  | reservations => some .reservations
  | registry => none

/-- The stores of a service. -/
def Service.keeps (service : Service) (store : Store) : Bool :=
  store.service = some service

/-- The service of a tool. -/
def McpTool.service : McpTool → Service
  | issueGuestCredit _ _ _ => .credits
  | getReservation _ => .reservations
  | createMaintenanceRequest _ _ _ _ => .maintenance
  | sendGuestMessage _ _ => .messaging
  | requestGuestCredit _ _ _ => .credits

/-- The service of a call; the runs of the agents are for all of them. -/
def AppCall.service? : AppCall → Option Service
  | runAgent _ _ => none
  | mcp tool _ => some tool.service
  | devIssueCredit _ _ _ _ => some .credits
  | devGetReservation _ _ => some .reservations
  | approve _ _ _ => some .credits
  | deny _ _ _ => some .credits

/-- The call is one of the service, or starts a run of the agents. -/
def AppCall.concerns (service : Service) (call : AppCall) : Bool :=
  call.service? = none || call.service? = some service

/-- A call works on the stores of its service, or is a run of the agents. -/
theorem stores_service (call : AppCall) : ∀ store ∈ call.stores, store.service = call.service? := by
  have hcredits : ∀ store ∈ [Store.ledger, .approvals], store.service = some .credits := by decide
  have hreads : ∀ store ∈ [Store.cache, .reservations], store.service = some .reservations := by
    decide
  cases call with
  | runAgent operator message =>
      intro store hstore
      rw [List.mem_singleton.mp hstore]
      rfl
  | mcp tool metadata =>
      intro store hstore
      cases tool with
      | getReservation reservationId => exact hreads store hstore
      | _ =>
          rw [List.mem_singleton.mp hstore]
          rfl
  | devIssueCredit operator reservationId amount reason =>
      intro store hstore
      rw [List.mem_singleton.mp hstore]
      rfl
  | devGetReservation operator reservationId => exact hreads
  | approve operator approvalId note => exact hcredits
  | deny operator approvalId note =>
      intro store hstore
      rw [List.mem_singleton.mp hstore]
      rfl

theorem service_registry {store : Store} (h : store.service = none) : store = .registry := by
  cases store with
  | registry => rfl
  | _ => exact absurd h (by simp only [Store.service, reduceCtorEq, not_false_eq_true])

theorem keptOnly_of_concern (d : Deployment) {service : Service} {call : AppCall}
    (h : call.concerns service = true) :
    Issues (KeptOnly service.keeps) (call.code d) := by
  refine issues_mono (fun c hc store hstore => ?_) (issues_footprint d call)
  have hservice := stores_service call store (hc store hstore)
  rcases Bool.or_eq_true_iff.mp h with hnone | hsome
  · exact Or.inl (service_registry (hservice.trans (of_decide_eq_true hnone)))
  · exact Or.inr (decide_eq_true (hservice.trans (of_decide_eq_true hsome)))

theorem keptOut_of_no_concern (d : Deployment) {service : Service} {call : AppCall}
    (h : call.concerns service = false) : Issues (KeptOut service.keeps) (call.code d) := by
  rcases Bool.or_eq_false_iff.mp h with ⟨hsome, hother⟩
  refine issues_mono (fun c hc store hstore => ?_) (issues_footprint d call)
  have hservice := stores_service call store (hc store hstore)
  constructor
  · rintro rfl
    exact of_decide_eq_false hsome hservice.symm
  · refine decide_eq_false fun hkeeps => of_decide_eq_false hother ?_
    exact hservice.symm.trans hkeeps

/-- The services of the application do not interfere: for every run and every
    service there is a run with only the calls of this service and the runs of
    the agents, in environments of the first, in which these calls are the same
    to the last answer and the stores of the service are the same. -/
theorem services_separate (d : Deployment) (service : Service)
    (sched : List (Core.Action AppCall Env)) :
    ∃ lower : List (Core.Action AppCall Env),
      (∀ call, .spawn call ∈ lower → call.concerns service = true ∧ .spawn call ∈ sched) ∧
      (∀ j env, .advance j env ∈ lower → ∃ i, .advance i env ∈ sched) ∧
      viewOf service.keeps (appRun d lower).world = viewOf service.keeps (appRun d sched).world ∧
      ∀ th, th ∈ (appRun d lower).threads ↔
        th ∈ (appRun d sched).threads ∧ th.call.concerns service = true :=
  Core.cell_separate (storeCell service.keeps) (fun _ => keptOnly_of_concern d)
    (fun _ => keptOut_of_no_concern d) World.empty sched

end Asante
