import Asante.Core.Bystanders
import Asante.Core.Dict
import Asante.Theory.Contracts
import Asante.Theory.Footprints
import Asante.Theory.GuestOperations

/-!
# Tasks

What the calls of one task have to do with those of another. Every task writes
to the same ledger, the same work orders and the same outbox, and what keeps them
apart is the idempotency key alone: the text it is derived from names the task,
and a task id has no newline, so no key of one task is a key of another. The
calls of other tasks might as well have been left standing where they were
started. A credit, a work order or a message of the task is recorded or repeated
as it would be without them.

The runs of the agents belong to every task. The id of a run is drawn when it
starts, and the registry they bind it in is shared. Two tools stand outside: a
reservation is read through a cache that all tasks share, and what becomes of a
credit request is decided by humans.

## Main definitions

* `creditKey`, `orderKey`, `messageKey`: The keys of a task.
* `TaskView`, `taskView`: What is bound to them, and the registry.
* `OwnCommand`, `OtherCommand`: Commands on either side.
* `taskDivision`: A task and the others.
* `AppCall.inTask`: The calls of a task.

## Theorems

* `creditKey_ne`, `orderKey_ne`, `messageKey_ne`: Keys name their task.
* `own_same`: A command of the task sees its own keys only.
* `other_apart`: A command of another task leaves them.
* `tasks_separate`: Other tasks make no difference to a task.
-/

namespace Asante

open Core.Prog Core.Contract Core.KeyedLog

/-- The keys of the direct credits of a task, by reservation and amount. -/
def creditKey (d : Deployment) (taskId : String) (i : String × ℚ) : String :=
  creditDigest d.sha256 taskId i.1 i.2

/-- The keys of the work orders of a task, by reservation and payload. -/
def orderKey (d : Deployment) (taskId : String) (i : String × String) : String :=
  operationDigest d.sha256 "maintenance.create" taskId i.1 i.2

/-- The keys of the messages of a task, by reservation and payload. -/
def messageKey (d : Deployment) (taskId : String) (i : String × String) : String :=
  operationDigest d.sha256 "guest.message.send" taskId i.1 i.2

/-- What a task can see: the registry, and what is recorded under its keys. -/
@[ext] structure TaskView where
  registry : TaskRegistry
  credits : String × ℚ → Option Credit
  workOrders : String × String → Option WorkOrder
  messages : String × String → Option OutboundMessage

/-- What a task can see of a world. -/
def taskView (d : Deployment) (taskId : String) (w : World) : TaskView :=
  { registry := w.registry
    credits := fun i => w.ledger.find (creditKey d taskId i)
    workOrders := fun i => w.workOrders.find (orderKey d taskId i)
    messages := fun i => w.outbox.find (messageKey d taskId i) }

/-- A provider is called under a key of the task; of the other stores, only the
    registry is worked on. -/
def OwnCommand (d : Deployment) (taskId : String) : Cmd → Prop
  | .ledgerIssue _ _ key => ∃ i, key = some (creditKey d taskId i)
  | .maintenanceCreate _ key => ∃ i, key = orderKey d taskId i
  | .outboxSend _ _ key => ∃ i, key = messageKey d taskId i
  | .registerTask context => OneLine context.task.taskId
  | .unregisterTask _ => True
  | c => c.store = none

/-- No provider is called under a key of the task, and the registry is left as it
    is. -/
def OtherCommand (d : Deployment) (taskId : String) : Cmd → Prop
  | .ledgerIssue _ _ key => ∀ i, key ≠ some (creditKey d taskId i)
  | .maintenanceCreate _ key => ∀ i, key ≠ orderKey d taskId i
  | .outboxSend _ _ key => ∀ i, key ≠ messageKey d taskId i
  | .registerTask _ => False
  | .unregisterTask _ => False
  | _ => True

/-- A drawn id satisfies `P`, and a task that was looked up has the id it was
    looked up by. -/
def TaskAnswer (P : String → Prop) : (c : Cmd) → c.Answer → Prop
  | .uuid4, uuid => P uuid
  | .requireTask taskId, answer => ∀ context, answer = .ok context →
    context.task.taskId = taskId ∧ OneLine taskId
  | _, _ => True

/-- The contexts of the registry are bound to their own ids. -/
def Tidy (registry : TaskRegistry) : Prop :=
  ∀ e ∈ registry, e.2.task.taskId = e.1 ∧ OneLine e.1

section Keys

variable {d : Deployment} {taskId taskId' : String}

/-- Keys of one operation name their tasks. -/
theorem operationKey_task (hsha : Function.Injective d.sha256) {action : String}
    (haction : OneLine action) (htask : OneLine taskId) (htask' : OneLine taskId')
    {i j : String × String} (h : operationDigest d.sha256 action taskId i.1 i.2 =
      operationDigest d.sha256 action taskId' j.1 j.2) : taskId = taskId' := by
  have htext := hsha ((String.append_right_inj "operation:").mp h)
  unfold operationCanonical at htext
  have hletters := congrArg String.toList htext
  simp only [String.toList_append, newline_toList, List.append_assoc, List.singleton_append]
    at hletters
  -- The operation is cut off, and then the task.
  have hrest := (Core.append_sep_left haction haction hletters).2
  exact String.toList_inj.mp (Core.append_sep_left htask htask' hrest).1

variable (hsha : Function.Injective d.sha256) (htask : OneLine taskId) (htask' : OneLine taskId')
  (hne : taskId' ≠ taskId)

include hsha htask htask' hne

theorem creditKey_ne (i j : String × ℚ) : creditKey d taskId' i ≠ creditKey d taskId j :=
  fun h => hne (directKey_inj hsha htask' htask h).1

theorem orderKey_ne (i j : String × String) : orderKey d taskId' i ≠ orderKey d taskId j :=
  fun h => hne (operationKey_task hsha (by decide) htask' htask h)

theorem messageKey_ne (i j : String × String) : messageKey d taskId' i ≠ messageKey d taskId j :=
  fun h => hne (operationKey_task hsha (by decide) htask' htask h)

end Keys

section Steps

variable {d : Deployment} {taskId : String} {c : Cmd} {P : String → Prop} {v w : World}

theorem tidy_unregister {registry : TaskRegistry} (h : Tidy registry) (id : String) :
    Tidy (unregisterTask id registry) :=
  fun e he => h e (List.mem_filter.mp he).1

theorem tidy_register {registry : TaskRegistry} (h : Tidy registry) {context : AsanteRunContext}
    (hcontext : OneLine context.task.taskId) : Tidy (registerTask context registry).2 := by
  rcases registerTask_cases context registry with ⟨message, hrefused⟩ | hbound
  · rw [hrefused]
    exact h
  · rw [hbound]
    intro e he
    rcases List.mem_cons.mp he with rfl | hold
    · exact ⟨rfl, hcontext⟩
    · exact tidy_unregister h _ e hold

/-- Every command answers as it should and keeps the registry tidy. -/
theorem tidy_step (hregister : ∀ context, c = .registerTask context → OneLine context.task.taskId)
    {env : Env} (huuid : P env.uuid) (h : Tidy w.registry) :
    TaskAnswer P c (perform c env w).1 ∧ Tidy (perform c env w).2.registry := by
  cases c with
  | uuid4 => exact ⟨huuid, h⟩
  | requireTask id =>
      refine ⟨fun context hcontext => ?_, h⟩
      exact h _ (Core.mem_of_lookup (requireTask_ok hcontext))
  | registerTask context => exact ⟨trivial, tidy_register h (hregister context rfl)⟩
  | unregisterTask id => exact ⟨trivial, tidy_unregister h id⟩
  | _ =>
      refine ⟨trivial, ?_⟩
      rw [perform_registry (by intro context; simp only [ne_eq, reduceCtorEq, not_false_eq_true])
        (by intro id; simp only [ne_eq, reduceCtorEq, not_false_eq_true])]
      exact h

theorem apply_seen {V X : Type} (view : World → V) {fault : Fault}
    {step step' : Except Exc X × World} (h : view v = view w) (hstep : view step.2 = view step'.2) :
    view (fault.apply v step).2 = view (fault.apply w step').2 := by
  cases fault with
  | none => exact hstep
  | before e => exact h
  | after e => exact hstep

/-- A command of the task is answered by what the task can see, and what the task
    can see afterwards depends on nothing else. -/
theorem own_same (hc : OwnCommand d taskId c) (env : Env) (h : taskView d taskId v =
    taskView d taskId w) : (perform c env v).1 = (perform c env w).1 ∧
      taskView d taskId (perform c env v).2 = taskView d taskId (perform c env w).2 := by
  have hregistry : v.registry = w.registry := congrArg TaskView.registry h
  have hcredits := congrArg TaskView.credits h
  have horders := congrArg TaskView.workOrders h
  have hmessages := congrArg TaskView.messages h
  cases c with
  | ledgerIssue writer credit key =>
      rcases hc with ⟨i, rfl⟩
      have hrecord := record_same (congrFun hcredits) i credit
      refine ⟨apply_answer ?_, apply_seen _ h (TaskView.ext hregistry (funext hrecord.2) horders
        hmessages)⟩
      simp only [ledgerIssue, hrecord.1]
  | maintenanceCreate r key =>
      rcases hc with ⟨i, rfl⟩
      have hrecord := fun order => record_same (congrFun horders) i order
      refine ⟨apply_answer ?_, apply_seen _ h (TaskView.ext hregistry hcredits
        (funext (hrecord _).2) hmessages)⟩
      simp only [maintenanceCreate, (hrecord _).1]
  | outboxSend reservationId message key =>
      rcases hc with ⟨i, rfl⟩
      have hrecord := fun outbound => record_same (congrFun hmessages) i outbound
      refine ⟨apply_answer ?_, apply_seen _ h (TaskView.ext hregistry hcredits horders
        (funext (hrecord _).2))⟩
      simp only [outboxSend, (hrecord _).1]
  | registerTask context =>
      simp only [perform, hregistry, true_and]
      exact TaskView.ext rfl hcredits horders hmessages
  | unregisterTask id =>
      simp only [perform, hregistry, true_and]
      exact TaskView.ext rfl hcredits horders hmessages
  | requireTask id => exact ⟨congrArg (requireTask id) hregistry, h⟩
  | registerGrant grant => exact ⟨apply_answer rfl, apply_seen _ h h⟩
  | extractTraceContext metadata => exact ⟨apply_answer rfl, apply_seen _ h h⟩
  | _ =>
      -- The task works on no other store.
      first
        | exact ⟨rfl, h⟩
        | exact absurd hc (by simp only [OwnCommand, Cmd.store, reduceCtorEq, not_false_eq_true])

/-- A command of another task leaves what the task can see. -/
theorem other_apart (hc : OtherCommand d taskId c) (env : Env) :
    taskView d taskId (perform c env w).2 = taskView d taskId w := by
  cases c with
  | ledgerIssue writer credit key =>
      exact apply_world _ _ _ _ (TaskView.ext rfl (funext (record_apart hc credit)) rfl rfl)
  | maintenanceCreate r key =>
      have hkey : ∀ i, some key ≠ some (orderKey d taskId i) :=
        fun i hi => hc i (Option.some.inj hi)
      exact apply_world _ _ _ _ (TaskView.ext rfl rfl (funext (record_apart hkey _)) rfl)
  | outboxSend reservationId message key =>
      have hkey : ∀ i, some key ≠ some (messageKey d taskId i) :=
        fun i hi => hc i (Option.some.inj hi)
      exact apply_world _ _ _ _ (TaskView.ext rfl rfl rfl (funext (record_apart hkey _)))
  | registerTask context => exact absurd hc id
  | unregisterTask taskId' => exact absurd hc id
  | findCreditRequest task reservationId amount => exact apply_world _ _ _ _ rfl
  | createCreditRequest r => exact apply_world _ _ _ _ rfl
  | requireRecord approvalId => exact apply_world _ _ _ _ rfl
  | decideLocked approvalId approved decidedBy note => exact apply_world _ _ _ _ rfl
  | markExecutedLocked approvalId result => exact apply_world _ _ _ _ rfl
  | cacheGet key => exact apply_world _ _ _ _ rfl
  | cachePut key value ttlSeconds => exact apply_world _ _ _ _ rfl
  | providerGetReservation reservationId => exact apply_world _ _ _ _ rfl
  | registerGrant grant => exact apply_world _ _ _ _ rfl
  | extractTraceContext metadata => exact apply_world _ _ _ _ rfl
  | _ => rfl

end Steps

/-- A task and the others. The calls of the others draw other ids. -/
def taskDivision (d : Deployment) (taskId : String) : Core.Division perform TaskView where
  inv w := Tidy w.registry
  view := taskView d taskId
  mine :=
    { requires := OwnCommand d taskId
      ensures := TaskAnswer OneLine
      adm := fun env => OneLine env.uuid }
  theirs :=
    { requires := OtherCommand d taskId
      ensures := TaskAnswer fun id => OneLine id ∧ id ≠ taskId
      adm := fun env => OneLine env.uuid ∧ env.uuid ≠ taskId }
  kept_mine _ _ _ hc hadm hinv := tidy_step (fun _ h => by rw [h] at hc; exact hc) hadm hinv
  kept_theirs _ _ _ hc hadm hinv :=
    tidy_step (fun _ h => by rw [h] at hc; exact absurd hc id) hadm hinv
  same _ env _ _ hc _ _ _ h := own_same hc env h
  apart _ env _ hc _ _ := other_apart hc env

section Rules

variable {K : Core.Contract Cmd Cmd.Answer Env World} (d : Deployment)

/-- A task that is opened has an id that was drawn for it. -/
theorem yields_openTask (hopens : ∀ c, c.opens = true → K.requires c)
    (operator : AuthenticatedHuman) (purpose : String) (lifetime : Int) :
    K.Yields (fun task => K.ensures .uuid4 task.taskId) (openTask operator purpose lifetime) :=
  yields_bind _ (yields_ask (hopens _ rfl)) fun _ huuid =>
    yields_bind _ (yields_ask (hopens _ rfl)) fun _ _ => huuid

/-- So does the task of a run of the agents. -/
theorem yields_openRun (hopens : ∀ c, c.opens = true → K.requires c)
    (operator : AuthenticatedHuman) :
    K.Yields (fun context => K.ensures .uuid4 context.task.taskId) (openRun d operator) := by
  have hchain : ∀ task workload scope, K.Yields (E := Exc) (fun _ => True)
      (issueChain d task workload scope scope) :=
    fun _ _ _ => yields_of_issues _ (opening_chain hopens d _ _ _ _)
  refine yields_bind _ (yields_openTask hopens _ _ _) fun task htask => ?_
  refine yields_bind _ (hchain _ _ _) fun _ _ => ?_
  refine yields_bind _ (hchain _ _ _) fun _ _ => ?_
  refine yields_bind _ (hchain _ _ _) fun _ _ => ?_
  refine yields_bind _ (yields_of_issues _ (opening_serviceRecovery hopens d _ _ _))
    fun _ _ => ?_
  refine yields_bind _ (P := fun _ => True) (yields_bind _ (P := fun _ => True)
    (yields_ofExcept fun _ _ => trivial) fun _ _ => hchain _ _ _) fun _ _ => ?_
  exact htask

/-- A tool yields what its operation does in the context the task is bound to. -/
theorem yields_mcp (hstoreless : ∀ c, c.store = none → K.requires c) (tool : McpTool)
    (metadata : PyDict)
    (htool : ∀ taskId context, taskIdFromMeta metadata = .ok taskId →
      K.ensures (.requireTask taskId) (.ok context) →
      K.Yields (fun _ => True) ((tool.toolCall d context).code d)) :
    K.Yields (fun _ => True) (tool.call d metadata) := by
  refine yields_bind _ (P := fun _ => True) (yields_ofExcept fun _ _ => trivial) fun _ _ => ?_
  refine yields_bind _ (P := fun taskId => taskIdFromMeta metadata = .ok taskId)
    (yields_ofExcept fun _ h => h) fun taskId htaskId => ?_
  refine yields_bind _ (yields_orRaise (Q := fun _ => True) (yields_ask (hstoreless _ rfl))
    fun _ _ => trivial) fun _ _ => ?_
  refine yields_tryCatch _ ?_ fun e => ?_
  · rw [forTrustedTask_eq]
    exact yields_bind _ (yields_orRaise (Q := fun context => K.ensures (.requireTask taskId)
      (.ok context)) (yields_ask (hstoreless _ rfl)) fun _ h => h)
      fun context hcontext => htool taskId context htaskId hcontext
  · split
    · trivial
    · trivial

end Rules

/-- The task under whose keys an operation calls its provider. -/
def ToolCall.keyTask : ToolCall → Option String
  | issueCredit _ _ _ _ task _ => some task.taskId
  | createMaintenanceRequest _ _ _ _ task _ => some task.taskId
  | sendGuestMessage _ _ task _ => some task.taskId
  | _ => none

/-- The tool calls its provider under a key of its task. -/
def McpTool.keyed : McpTool → Bool
  | issueGuestCredit _ _ _ => true
  | createMaintenanceRequest _ _ _ _ => true
  | sendGuestMessage _ _ => true
  | _ => false

theorem toolCall_keyTask (d : Deployment) (tool : McpTool) (context : AsanteRunContext) :
    (tool.toolCall d context).keyTask =
      if tool.keyed then some context.task.taskId else none := by
  cases tool <;> rfl

/-- The call is a run of the agents, or a tool under a key of the task. -/
def AppCall.inTask (taskId : String) : AppCall → Bool
  | runAgent _ _ => true
  | mcp tool metadata =>
    match taskIdFromMeta metadata with
    | .ok id => tool.keyed && id = taskId
    | .error _ => false
  | _ => false

section Calls

variable {d : Deployment} {taskId : String}

theorem own_storeless (c : Cmd) (h : c.store = none) : OwnCommand d taskId c := by
  cases c with
  | ledgerIssue writer credit key => exact absurd h (by simp [Cmd.store])
  | maintenanceCreate r key => exact absurd h (by simp [Cmd.store])
  | outboxSend reservationId message key => exact absurd h (by simp [Cmd.store])
  | registerTask context => exact absurd h (by simp [Cmd.store])
  | unregisterTask id => trivial
  | _ => exact h

theorem other_storeless (c : Cmd) (h : c.store = none) : OtherCommand d taskId c := by
  cases c with
  | ledgerIssue writer credit key => exact absurd h (by simp [Cmd.store])
  | maintenanceCreate r key => exact absurd h (by simp [Cmd.store])
  | outboxSend reservationId message key => exact absurd h (by simp [Cmd.store])
  | registerTask context => exact absurd h (by simp [Cmd.store])
  | unregisterTask id => exact absurd h (by simp [Cmd.store])
  | _ => trivial

/-- An operation of the task calls its provider under a key of the task. -/
theorem effects_own {call : ToolCall} {c : Cmd} (h : call.Effects d c)
    (hkey : call.keyTask = some taskId) : OwnCommand d taskId c := by
  cases call with
  | issueCredit retryPolicy reservationId amount reason task chain =>
      rw [show c = _ from h, ← Option.some.inj hkey]
      exact ⟨(reservationId, amount), rfl⟩
  | createMaintenanceRequest reservationId category urgency description task chain =>
      rw [h.2, ← Option.some.inj hkey]
      exact ⟨(reservationId, _), rfl⟩
  | sendGuestMessage reservationId message task chain =>
      rw [h.2, ← Option.some.inj hkey]
      exact ⟨(reservationId, _), rfl⟩
  | _ => exact absurd hkey (by simp only [ToolCall.keyTask, reduceCtorEq, not_false_eq_true])

variable (hsha : Function.Injective d.sha256) (htask : OneLine taskId)

include hsha htask

/-- An operation of another task, or of none, does not. -/
theorem effects_other {call : ToolCall} {c : Cmd} (h : call.Effects d c)
    (hother : ∀ id, call.keyTask = some id → OneLine id ∧ id ≠ taskId) :
    OtherCommand d taskId c := by
  cases call with
  | issueCredit retryPolicy reservationId amount reason task chain =>
      rcases hother _ rfl with ⟨hline, hne⟩
      rw [show c = _ from h]
      exact fun i hi => creditKey_ne hsha htask hline hne (reservationId, amount) i
        (Option.some.inj hi)
  | getReservation reservationId task chain =>
      rcases h with rfl | rfl | ⟨value, rfl⟩
      · trivial
      · trivial
      · trivial
  | createMaintenanceRequest reservationId category urgency description task chain =>
      rcases hother _ rfl with ⟨hline, hne⟩
      rw [h.2]
      exact fun i => orderKey_ne hsha htask hline hne (reservationId, _) i
  | sendGuestMessage reservationId message task chain =>
      rcases hother _ rfl with ⟨hline, hne⟩
      rw [h.2]
      exact fun i => messageKey_ne hsha htask hline hne (reservationId, _) i
  | requestGuestCredit reservationId amount reason task chain =>
      rcases h with rfl | rfl
      · trivial
      · trivial
  | executeApproved approval task chain =>
      rcases h with rfl | ⟨result, rfl⟩ | rfl
      · -- The key names the approval.
        exact fun i hi => keys_disjoint d.sha256 approval.approvalId taskId i.1 i.2
          (Option.some.inj hi)
      · trivial
      · trivial

omit hsha htask in
/-- The calls of the task keep to its side. -/
theorem app_own {call : AppCall} (h : call.inTask taskId = true) :
    (taskDivision d taskId).ofMine.Yields (fun _ => True) (call.code d) := by
  cases call with
  | runAgent operator message =>
      refine yields_validated (yields_bind _ (yields_openRun d (fun c hc =>
        own_storeless c (store_of_opens hc)) operator) fun context hcontext => ?_)
      refine yields_bind _ (yields_orRaise (Q := fun _ => True) (yields_ask hcontext)
        fun _ _ => trivial) fun _ _ => ?_
      refine yields_bind _ (yields_ask rfl) fun result _ => ?_
      refine yields_bind _ (yields_ask trivial) fun _ _ => ?_
      exact yields_bind _ (P := fun _ => True) (yields_ofExcept fun _ _ => trivial)
        fun _ _ => trivial
  | mcp tool metadata =>
      refine yields_bind _ (yields_mcp d own_storeless tool metadata
        fun id context hid hcontext => ?_) fun _ _ => trivial
      simp only [AppCall.inTask, hid, Bool.and_eq_true, decide_eq_true_eq] at h
      refine yields_of_issues _ (issues_effects own_storeless d _ fun c hc => effects_own hc ?_)
      rw [toolCall_keyTask, if_pos h.1, (hcontext context rfl).1, h.2]
  | _ => exact absurd h Bool.noConfusion

/-- The other calls keep to theirs. -/
theorem app_other {call : AppCall} (h : call.inTask taskId = false) :
    (taskDivision d taskId).ofTheirs.Yields (fun _ => True) (call.code d) := by
  cases call with
  | runAgent operator message => exact absurd h Bool.noConfusion
  | mcp tool metadata =>
      refine yields_bind _ (yields_mcp d other_storeless tool metadata
        fun id context hid hcontext => ?_) fun _ _ => trivial
      simp only [AppCall.inTask, hid, Bool.and_eq_false_iff, decide_eq_false_iff_not] at h
      refine yields_of_issues _ (issues_effects other_storeless d _ fun c hc =>
        effects_other hsha htask hc fun id' hkey => ?_)
      rw [toolCall_keyTask] at hkey
      rcases hcontext context rfl with ⟨hsame, hline⟩
      rcases h with hkeyed | hne
      · rw [hkeyed] at hkey
        exact absurd hkey (by simp only [Bool.false_eq_true, if_false, reduceCtorEq,
          not_false_eq_true])
      · split at hkey
        · rw [← Option.some.inj hkey, hsame]
          exact ⟨hline, hne⟩
        · exact absurd hkey (by simp only [reduceCtorEq, not_false_eq_true])
  | devIssueCredit operator reservationId amount reason =>
      have hopens : ∀ c, c.opens = true → OtherCommand d taskId c := fun c hc =>
        other_storeless c (store_of_opens hc)
      refine yields_validated (yields_bind _ (yields_openTask hopens _ _ _) fun task hdrawn => ?_)
      refine yields_bind _ (yields_of_issues _ (opening_serviceRecovery hopens d _ _ _))
        fun chain _ => ?_
      refine yields_bind _ (yields_of_issues _ (issues_effects other_storeless d
        (.issueCredit _ _ _ _ task chain) fun c hc => effects_other hsha htask hc
          fun id hkey => ?_)) fun _ _ => trivial
      rw [← Option.some.inj hkey]
      exact hdrawn
  | devGetReservation operator reservationId =>
      refine yields_of_issues _ (app_effects other_storeless d _ fun c hc => ?_)
      rcases hc with ⟨task, chain, heffect⟩
      exact effects_other hsha htask heffect fun _ hkey => absurd hkey
        (by simp only [ToolCall.keyTask, reduceCtorEq, not_false_eq_true])
  | approve operator approvalId note =>
      refine yields_of_issues _ (app_effects other_storeless d _ fun c hc => ?_)
      rcases hc with rfl | rfl | ⟨record, task, chain, heffect⟩
      · trivial
      · trivial
      · exact effects_other hsha htask heffect fun _ hkey => absurd hkey
          (by simp only [ToolCall.keyTask, reduceCtorEq, not_false_eq_true])
  | deny operator approvalId note =>
      refine yields_of_issues _ (app_effects other_storeless d _ fun c hc => ?_)
      rcases hc with rfl | rfl
      · trivial
      · trivial

end Calls

/-- The answers to calls that are not of the task are left out. -/
def withoutOthers (taskId : String) (sched : List (Core.Action AppCall Env)) :
    List (Core.Action AppCall Env) :=
  Core.Division.silence (Core.Division.concerned (AppCall.inTask taskId) sched) sched

/-- Other tasks make no difference to a task. If task ids are drawn on one line,
    and none of the other calls draws the id of the task, then a run in which the
    other calls are started and never answered has the same credits, work orders
    and messages under the keys of the task and the same registered tasks, and
    every call of the task did the same and has the same left to do. -/
theorem tasks_separate (d : Deployment) (hsha : Function.Injective d.sha256) (taskId : String)
    (htask : OneLine taskId) (sched : List (Core.Action AppCall Env))
    (hline : ∀ i env, .advance i env ∈ sched → OneLine env.uuid)
    (hothers : ∀ i env, .advance i env ∈ sched →
      Core.Division.concerned (AppCall.inTask taskId) sched i = false → env.uuid ≠ taskId) :
    taskView d taskId (appRun d sched).world =
        taskView d taskId (appRun d (withoutOthers taskId sched)).world ∧
      ∀ (i : Nat) th, (appRun d sched).threads[i]? = some th → th.call.inTask taskId = true →
        (appRun d (withoutOthers taskId sched)).threads[i]? = some th :=
  (taskDivision d taskId).bystanders_unnoticed (fun _ => app_own) (fun _ => app_other hsha htask)
    (fun _ he => absurd he List.not_mem_nil) sched fun i env hmem =>
      ⟨fun _ => hline i env hmem, fun hi => ⟨hline i env hmem, hothers i env hmem hi⟩⟩

/-- The agents of a task issue a credit for a reservation, after the same credit
    was issued directly in a task of its own. -/
def twoTasksSchedule : List (Core.Action AppCall Env) :=
  .spawn (.runAgent sampleApprover "late check-in") ::
    List.replicate 28 (.advance 0 .granting) ++
    .spawn (.devIssueCredit sampleApprover "R-3001" (25 / 2) "late check-in") ::
    List.replicate 12 (.advance 1 { Env.granting with uuid := "8e" }) ++
    .spawn (.mcp (.issueGuestCredit "R-3001" (25 / 2) "late check-in")
      [(asanteTaskMetaKey, .str "7f"), (asanteWorkloadMetaKey, .str "service-recovery")]) ::
    List.replicate 8 (.advance 2 .granting)

theorem tasks_separate_sample :
    (appRun .sample twoTasksSchedule).world.ledger.entries.length = 2 ∧
      (appRun .sample (withoutOthers "7f" twoTasksSchedule)).world.ledger.entries.length = 1 ∧
      taskView .sample "7f" (appRun .sample twoTasksSchedule).world =
        taskView .sample "7f" (appRun .sample (withoutOthers "7f" twoTasksSchedule)).world := by
  have hdrawn : ∀ i env, Core.Action.advance i env ∈ twoTasksSchedule →
      (env.uuid = "7f" ∧ (i = 0 ∨ i = 2)) ∨ (env.uuid = "8e" ∧ i = 1) := by
    intro i env hmem
    simp only [twoTasksSchedule, List.cons_append, List.mem_append, List.mem_cons,
      List.mem_replicate, reduceCtorEq, Core.Action.advance.injEq, false_or] at hmem
    rcases hmem with (⟨-, rfl, rfl⟩ | ⟨-, rfl, rfl⟩) | ⟨-, rfl, rfl⟩
    · exact Or.inl ⟨rfl, Or.inl rfl⟩
    · exact Or.inr ⟨rfl, rfl⟩
    · exact Or.inl ⟨rfl, Or.inr rfl⟩
  refine ⟨by decide +kernel, by decide +kernel, (tasks_separate .sample sampleSha256_injective
    "7f" (by decide) twoTasksSchedule (fun i env hmem => ?_) fun i env hmem hi => ?_).1⟩
  · rcases hdrawn i env hmem with ⟨huuid, -⟩ | ⟨huuid, -⟩
    · rw [huuid]
      decide
    · rw [huuid]
      decide
  · -- The calls of the task are the first and the third.
    rcases hdrawn i env hmem with ⟨-, rfl | rfl⟩ | ⟨huuid, -⟩
    · exact absurd hi (by decide +kernel)
    · exact absurd hi (by decide +kernel)
    · rw [huuid]
      decide

end Asante
