import Asante.Model.Client
import Asante.Theory.Footprints
import Asante.Theory.OnBehalf

/-!
# Confined Clients

What an agent can do through its client. The server lets a client use the tools
of its workload and refuses all others, as far as there is a run. The list of
tools a client shows and the check of the server are two sides of one rule, and
they agree: a specialist's client shows exactly the tools its workload may use.
The client for guest operations shows five tools, of which its label opens one.

In every run of the application a call through a client does nothing, or it is
of a tool of the client's own workload; then it submits requests for its own
principal and in its own task only, and works on the stores of its own service.

## Theorems

* `client_accepted_iff`: What the server accepts of the clients, and what they show.
* `client_confined`: What a call through a client can do in a run.
-/

namespace Asante

open Core.Prog

/-- The metadata of a call in a run has the task and the label it was given. -/
theorem meta_get {call : ClientCall} {runContext : AsanteRunContext}
    (h : call.context = some runContext) :
    call.metadata.get? asanteTaskMetaKey = some (.str runContext.task.taskId) ∧
      call.metadata.get? asanteWorkloadMetaKey = some (.str call.client.workload.label) := by
  have hmeta : call.metadata = injectCurrentTraceHeaders call.headers
      [(asanteTaskMetaKey, .str runContext.task.taskId),
        (asanteWorkloadMetaKey, .str call.client.workload.label)] := by
    rw [ClientCall.metadata, h]
    rfl
  -- The headers have names of their own.
  have hnames : ∀ kv ∈ call.headers.items.map (fun item => (item.1, PyVal.str item.2)),
      kv.1 ≠ asanteTaskMetaKey ∧ kv.1 ≠ asanteWorkloadMetaKey := by
    intro kv hkv
    rcases List.mem_map.mp hkv with ⟨item, hitem, rfl⟩
    exact call.headers.names item hitem
  rw [hmeta, injectCurrentTraceHeaders]
  exact ⟨PyDict.get?_merge_left _ _ _ fun kv hkv => (hnames kv hkv).1,
    PyDict.get?_merge_left _ _ _ fun kv hkv => (hnames kv hkv).2⟩

theorem label_injective {w w' : Workload} (h : w.label = w'.label) : w = w' := by
  cases w <;> cases w' <;> first | rfl | exact absurd h (by decide)

theorem label_ne (w : Workload) : w.label ≠ "" := by
  cases w <;> decide

theorem requiredText_str {metadata : PyDict} {key message text : String}
    (h : metadata.get? key = some (.str text)) :
    requiredText metadata key message =
      if text = "" then .error (.toolError message) else .ok text := by
  simp only [requiredText, h]

/-- The check of the server on the metadata of a client. -/
theorem requireSpecialist_client {call : ClientCall} {runContext : AsanteRunContext}
    (h : call.context = some runContext) :
    requireSpecialist call.metadata call.tool.owner = .ok () ↔
      call.client.workload = call.tool.owner := by
  have hworkload : workloadFromMeta call.metadata = .ok call.client.workload.label := by
    rw [workloadFromMeta, requiredText_str (meta_get h).2, if_neg (label_ne _)]
  unfold requireSpecialist
  rw [hworkload]
  dsimp only
  constructor
  · intro hok
    split at hok
    · next hlabel => exact label_injective hlabel
    · exact absurd hok (by simp only [reduceCtorEq, not_false_eq_true])
  · intro howner
    rw [howner, if_pos rfl]

/-- A client shows the tools of its workload, unless it is the client for guest
    operations. -/
theorem owner_iff_shown (client : McpClient) (tool : McpTool) : client.workload = tool.owner ↔
    if client = .guestOperations then tool.name = "send_guest_message"
    else tool.name ∈ client.allowedTools := by
  cases client <;> cases tool <;> simp [McpTool.name, McpClient.allowedTools, McpClient.workload,
    McpTool.owner]

/-- The metadata of a client against the checks of the server. -/
theorem client_accepted (call : ClientCall) (taskId : String) :
    (requireSpecialist call.metadata call.tool.owner = .ok () ∧
        taskIdFromMeta call.metadata = .ok taskId) ↔
      (∃ runContext, call.context = some runContext ∧ runContext.task.taskId = taskId ∧
        taskId ≠ "") ∧ call.client.workload = call.tool.owner := by
  rcases hcontext : call.context with _ | runContext
  · -- Without a run there is no metadata.
    have hmeta : call.metadata = [] := by
      rw [ClientCall.metadata, hcontext]
      rfl
    rw [hmeta]
    exact iff_of_false (fun h => absurd h.1 (by simp only [requireSpecialist, workloadFromMeta,
      requiredText, PyDict.get?_nil, reduceCtorEq, not_false_eq_true]))
      fun h => h.1.elim fun _ hno => absurd hno.1 (by simp only [reduceCtorEq, not_false_eq_true])
  · rw [requireSpecialist_client hcontext, taskIdFromMeta,
      requiredText_str (meta_get hcontext).1, and_comm]
    refine and_congr_left' ?_
    constructor
    · intro h
      split at h
      · exact absurd h (by simp only [reduceCtorEq, not_false_eq_true])
      · next hne => exact ⟨runContext, rfl, Except.ok.inj h, Except.ok.inj h ▸ hne⟩
    · rintro ⟨found, hfound, rfl, hne⟩
      rw [Option.some.inj hfound, if_neg hne]

/-- The two ends of the boundary, for any client and any tool: the server accepts a
    call exactly in a run that has a task, and for a tool of the client's workload.
    These are the tools a specialist's client shows, and of those the client for
    guest operations shows the guest messages only. -/
theorem client_accepted_iff (call : ClientCall) (taskId : String) :
    ((requireSpecialist call.metadata call.tool.owner = .ok () ∧
        taskIdFromMeta call.metadata = .ok taskId) ↔
      (∃ runContext, call.context = some runContext ∧ runContext.task.taskId = taskId ∧
        taskId ≠ "") ∧ call.client.workload = call.tool.owner) ∧
    (call.client.workload = call.tool.owner ↔
      if call.client = .guestOperations then call.tool.name = "send_guest_message"
      else call.tool.name ∈ call.client.allowedTools) :=
  ⟨client_accepted call taskId, owner_iff_shown call.client call.tool⟩

/-- The service a client is for. -/
def McpClient.service : McpClient → Service
  | reservations => .reservations
  | propertyOperations => .maintenance
  | guestSupport => .messaging
  | serviceRecovery => .credits
  | guestOperations => .messaging

theorem owner_service {client : McpClient} {tool : McpTool} (h : client.workload = tool.owner) :
    tool.service = client.service := by
  revert h
  cases client <;> cases tool <;> simp [McpClient.workload, McpTool.owner, McpTool.service,
    McpClient.service]

/-- In every run of the application, a call through a client either does nothing,
    or its tool is one of the client's workload; then it submits requests in the
    task of its own run and for the principal of the client's workload only, and
    works on the stores of the client's service and no others. -/
theorem client_confined (d : Deployment) (sched : List (Core.Action AppCall Env)) :
    ∀ th ∈ (appRun d sched).threads, ∀ call : ClientCall,
      th.call = .mcp call.tool call.metadata →
      (∀ ev ∈ th.trace, Passive ev) ∨ ∃ runContext, call.context = some runContext ∧
        call.client.workload = call.tool.owner ∧
        (∀ ev ∈ th.trace, ∀ req, Submits req ev.cmd →
          req.task.taskId = runContext.task.taskId ∧
            req.executingPrincipal.principalId = principalId d.trustDomain call.client.workload) ∧
        ∀ ev ∈ th.trace, ∀ store, ev.cmd.store = some store →
          store.service = some call.client.service := by
  rintro ⟨-, p, tr⟩ hth call rfl
  rcases List.mem_iff_getElem?.mp hth with ⟨i, hget⟩
  have hwalk := Core.exec_walks perform (AppCall.code d) World.empty sched _ hth
  rcases mcp_shape d call.tool call.metadata hwalk with hrefused | ⟨context, hresolves⟩
  · exact Or.inl hrefused.passive
  · rcases resolves_dispatched d sched hget hresolves with ⟨j, operator, pre, hdispatched⟩
    refine Or.inr ?_
    rcases hcontext : call.context with _ | runContext
    · -- Without a run there is no label, and the call is not dispatched.
      have hmeta : call.metadata = [] := by
        rw [ClientCall.metadata, hcontext]
        rfl
      have hlabel := hdispatched.workload
      rw [hmeta] at hlabel
      exact absurd hlabel (by simp only [PyDict.get?_nil, reduceCtorEq, not_false_eq_true])
    · rcases meta_get hcontext with ⟨htask, hlabel⟩
      have howner : call.client.workload = call.tool.owner :=
        label_injective (PyVal.str.inj (Option.some.inj
          (hlabel.symm.trans hdispatched.workload)))
      have hid : context.task.taskId = runContext.task.taskId :=
        PyVal.str.inj (Option.some.inj (hdispatched.task.symm.trans htask))
      refine ⟨runContext, rfl, howner, fun ev hev req hreq => ?_, fun ev hev store hstore => ?_⟩
      · rcases hdispatched.requests with ⟨front, back, q, htr, hfront, -, hrequests⟩
        dsimp only at hev
        rw [htr] at hev
        rcases List.mem_append.mp hev with hmem | hmem
        · exact absurd hreq ((hfront ev hmem).1 req)
        · rcases List.mem_cons.mp hmem with rfl | hmem
          · exact absurd hreq id
          · have hrequest := hrequests ev hmem req hreq
            rw [hrequest.task, hrequest.principal, howner]
            exact ⟨hid, rfl⟩
      · have hfootprint := (issues_walks hwalk (issues_footprint d _)).1 ev hev store hstore
        rw [stores_service _ store hfootprint]
        exact congrArg some (owner_service howner)

/-- A call through the client of service recovery. -/
def sampleClientCall : ClientCall where
  client := .serviceRecovery
  tool := .requestGuestCredit "R-3001" 40 "broken air conditioning"
  context := some
    { task := sampleTask
      reservationsDelegation := []
      propertyOperationsDelegation := []
      guestSupportMessageDelegation := []
      serviceRecoveryDelegation := []
      serviceRecoveryCreditRequestDelegation := [] }
  headers := ⟨[], fun _ h => absurd h List.not_mem_nil⟩

/-- The event submits a request. -/
def beginsSome (ev : AppEvent) : Bool :=
  match ev.cmd with
  | .begin _ => true
  | _ => false

/-- It is dispatched, submits as service recovery in the task of the run, and works
    on the stores of the credits only. -/
theorem client_confined_sample :
    ∃ th ∈ (appRun .sample (requestSchedule .granting)).threads,
      (∃ ev ∈ th.trace, ∃ req, Submits req ev.cmd ∧ req.task.taskId = sampleTask.taskId ∧
        req.executingPrincipal.principalId =
          principalId Deployment.sample.trustDomain .serviceRecovery) ∧
      ∀ ev ∈ th.trace, ∀ store, ev.cmd.store = some store → store.service = some .credits := by
  have hbegins : ((appRun .sample (requestSchedule .granting)).threads.any fun th =>
      th.call.operator?.isNone && th.trace.any beginsSome) = true := by
    decide +kernel
  rcases List.any_eq_true.mp hbegins with ⟨th, hth, hboth⟩
  rcases Bool.and_eq_true_iff.mp hboth with ⟨hmcp, hany⟩
  rcases List.any_eq_true.mp hany with ⟨⟨cmd, answer⟩, hev, hcmd⟩
  -- The schedule makes one call that no operator makes.
  have hspawned := Core.exec_spawned perform (AppCall.code .sample) World.empty _ th hth
  have hcall : th.call = .mcp sampleClientCall.tool sampleClientCall.metadata := by
    simp only [requestSchedule, List.cons_append, List.mem_append, List.mem_cons,
      List.mem_replicate, Core.Action.spawn.injEq, reduceCtorEq, and_false, or_false,
      false_or] at hspawned
    rcases hspawned with hrun | hrequest
    · rw [hrun] at hmcp
      exact absurd hmcp Bool.noConfusion
    · rw [hrequest]
      rfl
  cases cmd with
  | begin req =>
      rcases client_confined .sample (requestSchedule .granting) th hth sampleClientCall hcall with
        hpassive | ⟨runContext, hcontext, -, hrequests, hstores⟩
      · exact absurd rfl ((hpassive _ hev).1 req)
      · rcases hrequests _ hev req rfl with ⟨htask, hprincipal⟩
        rw [← Option.some.inj hcontext] at htask
        exact ⟨th, hth, ⟨_, hev, req, rfl, htask, hprincipal⟩, hstores⟩
  | _ => exact absurd hcmd Bool.noConfusion

end Asante
