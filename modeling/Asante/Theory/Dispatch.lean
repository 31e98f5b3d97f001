import Asante.Core.History
import Asante.Theory.Discipline
import Asante.Theory.Outcomes

/-!
# Dispatch of MCP Calls

What an MCP call may act for. The metadata names a task, the registry resolves
it, and from there on the call works with the resolved context only. So the
question is what the registry can hold.

A registration is an event of the history, and so is what ends it. `Live` says
that a run was registered and has not been unregistered since; `registry_live`
says that the registry holds nothing but live runs. Only `run_agent` registers,
and what it registers it has opened itself: `Opened` is what its trace shows by
then, one chain for each tool, every grant of it registered with Ruhusa.

A call is then either refused, and has changed nothing, or dispatched: it
resolved a run that was live at that moment, its metadata names the owner of
the tool, and every request it has submitted carries the task of that run and
the chain opened for the tool.

## Main definitions

* `Submits`: The command submits a request.
* `ChainFor`, `Opened`: The chain of a tool, and a context with all of them.
* `Live`: A run that is registered.
* `McpTool.toolCall`: The secured operation behind a tool.
* `Refused`, `Dispatched`: The two ways a call can go.

## Theorems

* `runAgent_opened`: What a run registers.
* `app_registers`: Only runs register.
* `registry_live`: The registry holds live runs.
* `mcp_dispatch`: Every call is refused or dispatched.
-/

namespace Asante

open Core.Prog

/-- The command submits the request to Ruhusa. -/
def Submits (req : Request) : Cmd → Prop
  | .begin submitted => submitted = req
  | .revalidate submitted _ => submitted = req
  | _ => False

/-- Two grants of one task and one action: from the human who initiated the task
    to the supervisor, and from the supervisor to the workload. -/
def ChainFor (d : Deployment) (task : TaskContext) (workload : Workload) (action : String)
    (chain : List DelegationGrant) : Prop :=
  ∃ root child, chain = [root, child] ∧ root.grantorId = task.initiatedBy ∧
    root.granteeId = principalId d.trustDomain .supervisor ∧
    child.grantorId = root.granteeId ∧ child.granteeId = principalId d.trustDomain workload ∧
    ∀ grant ∈ chain, grant.taskId = task.taskId ∧ grant.scope.actions = [action]

/-- A chain whose grants the trace shows registered with Ruhusa. -/
def ChainIssued (d : Deployment) (task : TaskContext) (workload : Workload) (action : String)
    (chain : List DelegationGrant) (tr : List AppEvent) : Prop :=
  ChainFor d task workload action chain ∧
    ∀ grant ∈ chain, (⟨.registerGrant grant, .ok ()⟩ : AppEvent) ∈ tr

/-- A context of the operator, with a chain issued for every tool. -/
structure Opened (d : Deployment) (operator : AuthenticatedHuman) (context : AsanteRunContext)
    (tr : List AppEvent) : Prop where
  human : context.task.initiatedBy = operator.principalId
  chains : ∀ tool : McpTool,
    ChainIssued d context.task tool.owner tool.action (tool.chain context) tr

/-- The secured operation of a tool, in the task and with the chain of a
    context. -/
def McpTool.toolCall (d : Deployment) (context : AsanteRunContext) : McpTool → ToolCall
  | issueGuestCredit reservationId amount reason =>
    .issueCredit d.retryPolicy reservationId amount reason context.task
      context.serviceRecoveryDelegation
  | getReservation reservationId =>
    .getReservation reservationId context.task context.reservationsDelegation
  | createMaintenanceRequest reservationId category urgency description =>
    .createMaintenanceRequest reservationId category urgency description context.task
      context.propertyOperationsDelegation
  | sendGuestMessage reservationId message =>
    .sendGuestMessage reservationId message context.task context.guestSupportMessageDelegation
  | requestGuestCredit reservationId amount reason =>
    .requestGuestCredit reservationId amount reason context.task
      context.serviceRecoveryCreditRequestDelegation

/-- A tool resolves its task, and goes on to the secured operation. -/
theorem forTrustedTask_eq (d : Deployment) (tool : McpTool) (taskId : String) :
    tool.forTrustedTask d taskId = orRaise (ask (.requireTask taskId)) >>= fun context =>
      (tool.toolCall d context).code d := by
  cases tool with
  | issueGuestCredit reservationId amount reason => rfl
  | getReservation reservationId => rfl
  | createMaintenanceRequest reservationId category urgency description => rfl
  | sendGuestMessage reservationId message => rfl
  | requestGuestCredit reservationId amount reason => rfl

section Opening

variable {α : Type} {t : List AppEvent}

theorem walks_ask {c : Cmd} {r : c.Answer} (h : Walks (ask c) t (done r)) : t = [⟨c, r⟩] := by
  cases h with
  | call _ _ r' t' _ hrest =>
      rcases walks_done hrest with ⟨ht, hr⟩
      rw [ht, Core.Prog.done.inj hr]

theorem walks_ofExcept {r : Except Exc α} {a : α}
    (h : Walks (Core.Prog.ofExcept r : App α) t (done a)) : t = [] ∧ r = .ok a := by
  cases r with
  | ok b =>
      rcases walks_done h with ⟨ht, hb⟩
      exact ⟨ht, by rw [Core.Prog.done.inj hb]⟩
  | error e => exact absurd (walks_fail h).2 (by simp only [reduceCtorEq, not_false_eq_true])

theorem walks_orRaise {p : App (Except Exc α)} {a : α} (h : Walks (orRaise p) t (done a)) :
    Walks p t (done (.ok a)) := by
  rcases walks_bind_done h with ⟨r, t₁, t₂, ht, hp, hr⟩
  rcases walks_ofExcept hr with ⟨ht₂, hok⟩
  rw [ht, ht₂, List.append_nil, ← hok]
  exact hp

variable {d : Deployment} {task : TaskContext} {chain : List DelegationGrant}

/-- The chain that was issued, with both grants registered. -/
theorem issueChain_issued (action : String) {workload : Workload} {rootScope childScope : Scope}
    (hroot : rootScope.actions = [action]) (hchild : childScope.actions = [action])
    (h : Walks (issueChain d task workload rootScope childScope) t (done chain)) :
    ChainIssued d task workload action chain t := by
  rcases walks_bind_done h with ⟨now, t₁, t₂, rfl, -, h⟩
  rcases walks_bind_done h with ⟨rootUuid, t₃, t₄, rfl, -, h⟩
  rcases walks_bind_done h with ⟨childUuid, t₅, t₆, rfl, -, h⟩
  rcases walks_bind_done h with ⟨⟨⟩, t₇, t₈, rfl, hrootGrant, h⟩
  rcases walks_bind_done h with ⟨⟨⟩, t₉, t₁₀, rfl, hchildGrant, h⟩
  -- Both registrations were answered, so both grants stand in the trace.
  have hrootEvent := walks_ask (walks_orRaise hrootGrant)
  have hchildEvent := walks_ask (walks_orRaise hchildGrant)
  rw [Core.Prog.done.inj (walks_done h).2]
  constructor
  · refine ⟨_, _, rfl, rfl, rfl, rfl, rfl, fun grant hgrant => ?_⟩
    rcases List.mem_pair.mp hgrant with rfl | rfl
    · exact ⟨rfl, hroot⟩
    · exact ⟨rfl, hchild⟩
  · intro grant hgrant
    rw [hrootEvent, hchildEvent]
    rcases List.mem_pair.mp hgrant with rfl | rfl
    · simp only [List.mem_append, List.mem_singleton, true_or, or_true]
    · simp only [List.mem_append, List.mem_singleton, true_or, or_true]

theorem chainIssued_mono {workload : Workload} {action : String} {t' : List AppEvent}
    (h : ChainIssued d task workload action chain t) (ht : t ⊆ t') :
    ChainIssued d task workload action chain t' :=
  ⟨h.1, fun grant hgrant => ht (h.2 grant hgrant)⟩

theorem limitedScope_actions {action message : String} {limit : ℚ} {scope : Scope}
    (h : limitedScope action message limit = .ok scope) : scope.actions = [action] := by
  unfold limitedScope at h
  split at h
  · -- A limit that is not positive raises.
    exact absurd h (by simp only [reduceCtorEq, not_false_eq_true])
  · rw [← Except.ok.inj h]
    rfl

theorem serviceRecovery_issued {supervisorLimit serviceRecoveryLimit : ℚ}
    (h : Walks (issueServiceRecoveryDelegation d task supervisorLimit serviceRecoveryLimit) t
      (done chain)) : ChainIssued d task .serviceRecovery guestCreditAction chain t := by
  unfold issueServiceRecoveryDelegation at h
  split at h
  · -- A specialist is never given more than the supervisor has.
    exact absurd (walks_fail h).2 (by simp only [reduceCtorEq, not_false_eq_true])
  · rcases walks_bind_done h with ⟨rootScope, t₁, t₂, rfl, hroot, hrest⟩
    rcases walks_bind_done hrest with ⟨childScope, t₃, t₄, rfl, hchild, hissue⟩
    -- The scopes are computed first, and issue no command.
    rcases walks_ofExcept hroot with ⟨rfl, hrootScope⟩
    rcases walks_ofExcept hchild with ⟨rfl, hchildScope⟩
    exact issueChain_issued _ (limitedScope_actions hrootScope) (limitedScope_actions hchildScope)
      hissue

theorem serviceRecoveryCreditRequest_issued {limit : ℚ}
    (h : Walks (issueServiceRecoveryCreditRequestDelegation d task limit) t (done chain)) :
    ChainIssued d task .serviceRecovery guestCreditRequestAction chain t := by
  rcases walks_bind_done h with ⟨scope, t₁, t₂, rfl, hof, hissue⟩
  rcases walks_ofExcept hof with ⟨rfl, hscope⟩
  exact issueChain_issued _ (limitedScope_actions hscope) (limitedScope_actions hscope) hissue

/-- A task names the human who opened it. -/
theorem openTask_human {operator : AuthenticatedHuman} {purpose : String} {lifetime : Int}
    (h : Walks (openTask operator purpose lifetime) t (done task)) :
    task.initiatedBy = operator.principalId := by
  rcases walks_bind_done h with ⟨taskId, u₁, u₂, -, -, hnow⟩
  rcases walks_bind_done hnow with ⟨now, u₃, u₄, -, -, hreturn⟩
  rw [Core.Prog.done.inj (walks_done hreturn).2]

/-- A context that was opened. -/
theorem openRun_opened {operator : AuthenticatedHuman} {context : AsanteRunContext}
    (h : Walks (openRun d operator) t (done context)) : Opened d operator context t := by
  rcases walks_bind_done h with ⟨task, t₁, s₁, rfl, htask, h⟩
  rcases walks_bind_done h with ⟨reservations, t₂, s₂, rfl, h₂, h⟩
  rcases walks_bind_done h with ⟨propertyOperations, t₃, s₃, rfl, h₃, h⟩
  rcases walks_bind_done h with ⟨guestSupportMessage, t₄, s₄, rfl, h₄, h⟩
  rcases walks_bind_done h with ⟨serviceRecovery, t₅, s₅, rfl, h₅, h⟩
  rcases walks_bind_done h with ⟨serviceRecoveryCreditRequest, t₆, s₆, rfl, h₆, h⟩
  rw [Core.Prog.done.inj (walks_done h).2]
  refine ⟨openTask_human htask, fun tool => ?_⟩
  -- One chain for each tool, in the part of the trace that issued it.
  cases tool with
  | issueGuestCredit reservationId amount reason =>
      refine chainIssued_mono (serviceRecovery_issued h₅) fun ev hev => ?_
      simp only [List.mem_append, hev, true_or, or_true]
  | getReservation reservationId =>
      refine chainIssued_mono (issueChain_issued reservationReadAction rfl rfl h₂)
        fun ev hev => ?_
      simp only [List.mem_append, hev, true_or, or_true]
  | createMaintenanceRequest reservationId category urgency description =>
      refine chainIssued_mono (issueChain_issued maintenanceCreateAction rfl rfl h₃)
        fun ev hev => ?_
      simp only [List.mem_append, hev, true_or, or_true]
  | sendGuestMessage reservationId message =>
      refine chainIssued_mono (issueChain_issued guestMessageSendAction rfl rfl h₄)
        fun ev hev => ?_
      simp only [List.mem_append, hev, true_or, or_true]
  | requestGuestCredit reservationId amount reason =>
      refine chainIssued_mono (serviceRecoveryCreditRequest_issued h₆) fun ev hev => ?_
      simp only [List.mem_append, hev, true_or, or_true]

end Opening

/-- The command does not register a run. -/
def NoRegister (c : Cmd) : Prop :=
  ∀ context, c ≠ .registerTask context

theorem background_noRegister {c : Cmd} (h : background c = true) : NoRegister c := by
  intro context hc
  rw [hc] at h
  exact absurd h Bool.noConfusion

section Registering

variable (d : Deployment)

/-- What a run registers is the context it has opened by then. -/
theorem runAgent_opened {operator : AuthenticatedHuman} {message : String} {t : List AppEvent}
    {q : App Response} (hw : Walks (runAgent d operator message) t q)
    {context : AsanteRunContext} {r : Except Exc Unit}
    (hev : (⟨.registerTask context, r⟩ : AppEvent) ∈ t) : Opened d operator context t := by
  -- Nothing is registered while the context is being opened.
  have hquiet : ∀ {u : List AppEvent} {p : App AsanteRunContext},
      Walks (openRun d operator) u p → (⟨.registerTask context, r⟩ : AppEvent) ∉ u := by
    intro u p hu hmem
    exact (issues_walks hu (issues_openRun (S := NoRegister)
      (fun _ => background_noRegister) d operator)).1 _ hmem context rfl
  unfold runAgent validated at hw
  split at hw
  · rcases walks_bind hw with ⟨p, hp, -⟩ | ⟨opened, t₁, t₂, rfl, hopen, hrest⟩
    · exact absurd hev (hquiet hp)
    · have hopened := openRun_opened hopen
      have hone : Issues (fun c => ∀ context, c = .registerTask context → context = opened)
          (orRaise (ask (.registerTask opened)) >>= fun _ => ask (.runAgents message opened) >>=
            fun result => ask (.unregisterTask opened.task.taskId) >>= fun _ =>
              Core.Prog.ofExcept result >>= fun output => (pure (Response.body
                [("task_id", .str opened.task.taskId),
                  ("initiated_by", .str operator.principalId), ("output", .str output)]) :
                App Response)) := by
        refine issues_bind _ _ (issues_orRaise (issues_ask fun context hc => ?_)) fun _ => ?_
        · -- The one registration is of the context that was opened.
          exact (Cmd.registerTask.inj hc).symm
        · refine issues_bind _ _ (issues_ask fun context hc => Cmd.noConfusion hc) fun _ => ?_
          refine issues_bind _ _ (issues_ask fun context hc => Cmd.noConfusion hc) fun _ => ?_
          exact issues_bind _ _ (issues_ofExcept _) fun _ => trivial
      rcases List.mem_append.mp hev with hev | hev
      · exact absurd hev (hquiet hopen)
      · have hcontext := (issues_walks hrest hone).1 _ hev context rfl
        rw [hcontext]
        refine ⟨hopened.human, fun tool => chainIssued_mono (hopened.chains tool) ?_⟩
        exact List.subset_append_left t₁ t₂
  · -- A body that is not valid is refused before any command.
    rw [(walks_fail hw).1] at hev
    exact absurd hev List.not_mem_nil

theorem tool_noRegister (call : ToolCall) : Issues NoRegister (call.code d) := by
  refine issues_tool (fun _ => background_noRegister) d call (fun now => ?_) fun c hc => ?_
  · exact ⟨fun _ hc => Cmd.noConfusion hc, fun _ _ hc => Cmd.noConfusion hc⟩
  · intro context hregister
    rw [hregister] at hc
    -- What a tool writes it writes under its own commands.
    cases call with
    | issueCredit retryPolicy reservationId amount reason task chain => exact Cmd.noConfusion hc
    | requestGuestCredit reservationId amount reason task chain =>
        rcases hc with ⟨_, hc⟩
        exact Cmd.noConfusion hc
    | executeApproved approval task chain =>
        rcases hc with hc | ⟨_, hc⟩
        · exact Cmd.noConfusion hc
        · exact Cmd.noConfusion hc
    | _ => exact hc

theorem issues_approvalErrors {S : Cmd → Prop} {α : Type} {decision : App α}
    (h : Issues S decision) : Issues S (approvalErrors decision) := by
  refine issues_tryCatch _ _ h fun e => ?_
  split
  · trivial
  · split
    · trivial
    · trivial

section Parts

variable {S : Cmd → Prop} (hS : ∀ c, background c = true → S c)

include hS

/-- A tool of the server issues what its operation does, and commands of the
    background. -/
theorem issues_mcp (tool : McpTool) (metadata : PyDict)
    (htool : ∀ context, Issues S ((tool.toolCall d context).code d)) :
    Issues S (tool.call d metadata) := by
  have hask : ∀ {α : Type} {c : Cmd} {f : c.Answer → App α}, background c = true →
      (∀ r, Issues S (f r)) → Issues S (ask c >>= f) :=
    fun hc hf => issues_bind _ _ (issues_ask (hS _ hc)) hf
  refine issues_bind _ _ (issues_ofExcept _) fun _ => ?_
  refine issues_bind _ _ (issues_ofExcept _) fun taskId => ?_
  refine issues_bind _ _ (hask rfl issues_ofExcept) fun _ => ?_
  refine issues_tryCatch _ _ ?_ fun e => ?_
  · -- The task is looked up, and the secured operation follows.
    rw [forTrustedTask_eq]
    exact issues_bind _ _ (hask rfl issues_ofExcept) fun context => htool _
  · split
    · trivial
    · trivial

theorem issues_devIssueCredit (operator : AuthenticatedHuman) (reservationId : String)
    (amount : ℚ) (reason : String) (htool : ∀ task chain, Issues S
      ((ToolCall.issueCredit d.retryPolicy reservationId amount reason task chain).code d)) :
    Issues S (devIssueCredit d operator reservationId amount reason) := by
  refine issues_validated ?_
  refine issues_bind _ _ (issues_openTask hS _ _ _) fun task => ?_
  refine issues_bind _ _ (issues_serviceRecovery hS d _ _ _) fun chain => ?_
  exact issues_bind _ _ (htool task chain) fun _ => trivial

theorem issues_decide (approvalId : String) (approved : Bool) (decidedBy : String)
    (note : Option String) (hdecide : S (.decideLocked approvalId approved decidedBy note)) :
    Issues S (approvalsDecide approvalId approved decidedBy note) := by
  refine issues_bind _ _ (issues_orRaise (issues_ask hdecide)) fun r => ?_
  split
  · trivial
  · exact issues_orRaise (issues_ask (hS _ rfl))

theorem issues_decideApproved (operator : AuthenticatedHuman) (approvalId : String)
    (note : Option String) (hdecide : S (.decideLocked approvalId true operator.principalId note)) :
    Issues S (decideApproved operator approvalId note) := by
  refine issues_approvalErrors (issues_bind _ _ (issues_orRaise (issues_ask (hS _ rfl)))
    fun record => ?_)
  split
  · trivial
  · exact issues_bind _ _ (issues_decide hS _ _ _ _ hdecide) fun _ => trivial

theorem issues_deny (operator : AuthenticatedHuman) (approvalId : String) (note : Option String)
    (hdecide : S (.decideLocked approvalId false operator.principalId note)) :
    Issues S (denyCreditRequest operator approvalId note) := by
  refine issues_validated (issues_bind _ _ (issues_ofExcept _) fun _ => ?_)
  exact issues_bind _ _ (issues_approvalErrors (issues_decide hS _ _ _ _ hdecide)) fun _ => trivial

end Parts

theorem approve_noRegister (operator : AuthenticatedHuman) (approvalId : String)
    (note : Option String) :
    Issues NoRegister (approveCreditRequest d operator approvalId note) := by
  refine issues_validated (issues_bind _ _ (issues_ofExcept _) fun _ => ?_)
  refine issues_bind _ _ (issues_decideApproved (fun _ => background_noRegister) operator approvalId
    note fun _ hc => Cmd.noConfusion hc) fun decided => ?_
  split
  · -- A repeated approval opens no task.
    trivial
  · refine issues_bind _ _ (issues_openTask (fun _ => background_noRegister) _ _ _) fun task => ?_
    refine issues_bind _ _ (issues_approvalExecutor (fun _ => background_noRegister) d _ _)
      fun chain => ?_
    refine issues_bind _ _ (tool_noRegister d (.executeApproved _ task chain)) fun _ => ?_
    exact issues_bind _ _ (issues_orRaise (issues_ask fun _ hc => Cmd.noConfusion hc))
      fun _ => trivial

/-- Only runs register, and they register what they have opened. -/
theorem app_registers {call : AppCall} {t : List AppEvent} {q : App Response}
    (hw : Walks (call.code d) t q) {context : AsanteRunContext} {r : Except Exc Unit}
    (hev : (⟨.registerTask context, r⟩ : AppEvent) ∈ t) :
    ∃ operator message, call = .runAgent operator message ∧ Opened d operator context t := by
  have hnever : ¬ Issues NoRegister (call.code d) :=
    fun h => (issues_walks hw h).1 _ hev context rfl
  cases call with
  | runAgent operator message => exact ⟨operator, message, rfl, runAgent_opened d hw hev⟩
  | mcp tool metadata =>
      have hcall : Issues NoRegister (tool.call d metadata >>= fun resp =>
          (pure (Response.body resp) : App Response)) :=
        issues_bind _ _ (issues_mcp d (fun _ => background_noRegister) tool metadata
          fun context => tool_noRegister d _) fun _ => trivial
      exact absurd hcall hnever
  | devIssueCredit operator reservationId amount reason =>
      -- Each of the other calls issues what its parts issue.
      exact absurd (issues_devIssueCredit d (fun _ => background_noRegister) operator reservationId
        amount reason fun task chain => tool_noRegister d _) hnever
  | devGetReservation operator reservationId =>
      refine absurd (issues_devGetReservation (fun _ => background_noRegister) d operator
        reservationId fun req => ?_) hnever
      exact ⟨fun _ hc => Cmd.noConfusion hc, fun _ _ hc => Cmd.noConfusion hc⟩
  | approve operator approvalId note =>
      exact absurd (approve_noRegister d operator approvalId note) hnever
  | deny operator approvalId note =>
      exact absurd (issues_deny (fun _ => background_noRegister) operator approvalId note
        fun _ hc => Cmd.noConfusion hc) hnever

end Registering

/-- A run that is registered: the history holds its registration, and no end of it
    since. -/
def Live (history : List (Nat × AppEvent)) (j : Nat) (context : AsanteRunContext) : Prop :=
  ∃ pre post, history = pre ++ (j, ⟨.registerTask context, .ok ()⟩) :: post ∧
    ∀ e ∈ post, e.2.cmd ≠ .unregisterTask context.task.taskId

theorem live_snoc {history : List (Nat × AppEvent)} {j : Nat} {context : AsanteRunContext}
    (h : Live history j context) {e : Nat × AppEvent}
    (he : e.2.cmd ≠ .unregisterTask context.task.taskId) : Live (history ++ [e]) j context := by
  rcases h with ⟨pre, post, hsplit, hpost⟩
  refine ⟨pre, post ++ [e], by rw [hsplit, List.append_assoc, List.cons_append], ?_⟩
  intro e' he'
  rcases List.mem_append.mp he' with hold | hnew
  · exact hpost e' hold
  · rw [List.mem_singleton.mp hnew]
    exact he

theorem lookup_unregisterTask (taskId id : String) (registry : TaskRegistry) :
    (unregisterTask taskId registry).lookup id =
      if id = taskId then none else registry.lookup id := by
  unfold unregisterTask
  induction registry with
  | nil => simp only [List.filter_nil, List.lookup_nil, ite_self]
  | cons e registry ih =>
      rcases e with ⟨known, context⟩
      rw [List.filter_cons]
      -- The entry at the head is dropped or kept, and hides the rest only for its own id.
      by_cases hknown : known = taskId
      · rw [if_neg (by simp only [hknown, ne_eq, not_true_eq_false, decide_false,
          Bool.false_eq_true, not_false_eq_true]), ih]
        by_cases hid : id = taskId
        · rw [if_pos hid, if_pos hid]
        · rw [if_neg hid, if_neg hid, List.lookup_cons, hknown, beq_eq_false_iff_ne.mpr hid]
      · rw [if_pos (decide_eq_true hknown), List.lookup_cons, List.lookup_cons, ih]
        by_cases hid : id = taskId
        · rw [if_pos hid, beq_eq_false_iff_ne.mpr (hid ▸ Ne.symm hknown), if_pos hid]
        · rw [if_neg hid, if_neg hid]

/-- A registration is refused with nothing changed, or binds its context in place
    of what was there. -/
theorem registerTask_cases (context : AsanteRunContext) (registry : TaskRegistry) :
    (∃ message, registerTask context registry = (.error (.valueError message), registry)) ∨
      registerTask context registry = (.ok (), (context.task.taskId, context) ::
        unregisterTask context.task.taskId registry) := by
  unfold registerTask
  dsimp only
  -- A context that is registered already may be registered again.
  split
  · split
    · exact Or.inl ⟨_, rfl⟩
    · exact Or.inr rfl
  · exact Or.inr rfl

/-- A registration under an id that is bound to another context is refused, with
    nothing changed. -/
theorem registerTask_conflict {context existing : AsanteRunContext} {registry : TaskRegistry}
    (hbound : registry.lookup context.task.taskId = some existing) (hne : existing ≠ context) :
    ∃ message, registerTask context registry = (.error (.valueError message), registry) := by
  unfold registerTask
  dsimp only
  rw [hbound]
  dsimp only
  rw [if_pos hne]
  exact ⟨_, rfl⟩

/-- Every other command leaves the registry as it is. -/
theorem perform_registry {c : Cmd} (hregister : NoRegister c)
    (hunregister : ∀ taskId, c ≠ .unregisterTask taskId) (env : Env) (w : World) :
    (perform c env w).2.registry = w.registry := by
  cases c with
  | registerTask context => exact absurd rfl (hregister context)
  | unregisterTask taskId => exact absurd rfl (hunregister taskId)
  | ledgerIssue writer credit key => exact apply_world World.registry _ _ _ rfl
  | maintenanceCreate r key => exact apply_world World.registry _ _ _ rfl
  | outboxSend reservationId message key => exact apply_world World.registry _ _ _ rfl
  | findCreditRequest taskId reservationId amount => exact apply_world World.registry _ _ _ rfl
  | createCreditRequest r => exact apply_world World.registry _ _ _ rfl
  | requireRecord approvalId => exact apply_world World.registry _ _ _ rfl
  | decideLocked approvalId approved decidedBy note => exact apply_world World.registry _ _ _ rfl
  | markExecutedLocked approvalId result => exact apply_world World.registry _ _ _ rfl
  | cacheGet key => exact apply_world World.registry _ _ _ rfl
  | cachePut key value ttlSeconds => exact apply_world World.registry _ _ _ rfl
  | providerGetReservation reservationId => exact apply_world World.registry _ _ _ rfl
  | registerGrant grant => exact apply_world World.registry _ _ _ rfl
  | extractTraceContext metadata => exact apply_world World.registry _ _ _ rfl
  | _ => rfl

/-- The registry holds live runs, each under its own task id. -/
def HoldsLive (registry : TaskRegistry) (history : List (Nat × AppEvent)) : Prop :=
  ∀ id context, registry.lookup id = some context →
    context.task.taskId = id ∧ ∃ j, Live history j context

section HoldsLive

variable {registry : TaskRegistry} {history : List (Nat × AppEvent)}

/-- An event that ends no run keeps a run live. -/
theorem holdsLive_snoc (h : HoldsLive registry history) (i : Nat) {ev : AppEvent}
    (hev : ∀ taskId, ev.cmd ≠ .unregisterTask taskId) :
    HoldsLive registry (history ++ [(i, ev)]) := by
  intro id context hlookup
  rcases h id context hlookup with ⟨hid, j, hlive⟩
  exact ⟨hid, j, live_snoc hlive (hev _)⟩

/-- The end of a run leaves the other runs live. -/
theorem holdsLive_unregister (h : HoldsLive registry history) (i : Nat) (taskId : String) :
    HoldsLive (unregisterTask taskId registry)
      (history ++ [(i, ⟨.unregisterTask taskId, ()⟩)]) := by
  intro id context hlookup
  rw [lookup_unregisterTask] at hlookup
  by_cases hid : id = taskId
  · rw [if_pos hid] at hlookup
    exact absurd hlookup (by simp only [reduceCtorEq, not_false_eq_true])
  · rw [if_neg hid] at hlookup
    rcases h id context hlookup with ⟨htask, j, hlive⟩
    refine ⟨htask, j, live_snoc hlive fun hc => hid ?_⟩
    rw [← htask, Cmd.unregisterTask.inj hc]

/-- A registration adds its own run, or changes nothing. -/
theorem holdsLive_register (h : HoldsLive registry history) (i : Nat)
    (registered : AsanteRunContext) :
    HoldsLive (registerTask registered registry).2
      (history ++ [(i, ⟨.registerTask registered, (registerTask registered registry).1⟩)]) := by
  rcases registerTask_cases registered registry with ⟨message, hcase⟩ | hcase
  · rw [hcase]
    exact holdsLive_snoc h i fun _ hc => Cmd.noConfusion hc
  · rw [hcase]
    intro id context hlookup
    rw [List.lookup_cons] at hlookup
    by_cases hid : id = registered.task.taskId
    · -- The run that has just been registered.
      rw [hid, BEq.rfl] at hlookup
      rw [← (Option.some.inj hlookup : registered = context)]
      exact ⟨hid.symm, i, history, [], rfl, fun e he => absurd he List.not_mem_nil⟩
    · rw [beq_eq_false_iff_ne.mpr hid] at hlookup
      dsimp only at hlookup
      rw [lookup_unregisterTask, if_neg hid] at hlookup
      exact holdsLive_snoc h i (fun _ hc => Cmd.noConfusion hc) id context hlookup

end HoldsLive

/-- One event keeps the registry to live runs. -/
theorem holdsLive_event {c : Cmd} {env : Env} {w : World} {history : List (Nat × AppEvent)}
    (h : HoldsLive w.registry history) (i : Nat) :
    HoldsLive (perform c env w).2.registry (history ++ [(i, ⟨c, (perform c env w).1⟩)]) := by
  by_cases hregister : NoRegister c
  · by_cases hunregister : ∀ taskId, c ≠ .unregisterTask taskId
    · rw [perform_registry hregister hunregister env w]
      exact holdsLive_snoc h i hunregister
    · push Not at hunregister
      rcases hunregister with ⟨taskId, rfl⟩
      exact holdsLive_unregister h i taskId
  · unfold NoRegister at hregister
    push Not at hregister
    rcases hregister with ⟨registered, rfl⟩
    exact holdsLive_register h i registered

/-- In every run the registry holds live runs. -/
theorem registry_live (d : Deployment) (sched : List (Core.Action AppCall Env)) :
    HoldsLive (appRun d sched).world.registry (appRun d sched).history := by
  refine Core.exec_invariant perform (AppCall.code d)
    (fun cfg => HoldsLive cfg.world.registry cfg.history) (fun _ _ h => h)
    (fun cfg i env t c k tr hget h => ?_) sched _ ?_
  · rw [Core.act_advance_call perform (AppCall.code d) env hget]
    exact holdsLive_event h i
  · exact fun id context h => absurd h (by simp only [Core.Config.start, World.empty,
      List.lookup_nil, reduceCtorEq, not_false_eq_true])

/-- The event submits nothing and changes nothing. -/
def Passive (ev : AppEvent) : Prop :=
  (∀ req, ¬ Submits req ev.cmd) ∧ ∀ env w, (perform ev.cmd env w).2 = w

/-- The call has resolved no run, submitted no request and changed nothing, and
    does not return. -/
structure Refused {α : Type} (tr : List AppEvent) (o : Option (Except Exc α)) : Prop where
  passive : ∀ ev ∈ tr, Passive ev
  unresolved : ∀ ev ∈ tr, ∀ taskId context, ev ≠ ⟨.requireTask taskId, .ok context⟩
  raised : ∀ response, o ≠ some (.ok response)

/-- The call has resolved a context for the owner of its tool, and from there on
    has been the secured operation. -/
def Resolves (d : Deployment) (tool : McpTool) (metadata : PyDict) (context : AsanteRunContext)
    (tr : List AppEvent) : Prop :=
  ∃ taskId front back q, metadata.get? asanteWorkloadMetaKey = some (.str tool.owner.label) ∧
    metadata.get? asanteTaskMetaKey = some (.str taskId) ∧
    tr = front ++ ⟨.requireTask taskId, .ok context⟩ :: back ∧ (∀ ev ∈ front, Passive ev) ∧
    Walks ((tool.toolCall d context).code d) back q

theorem requiredText_ok {metadata : PyDict} {key message text : String}
    (h : requiredText metadata key message = .ok text) : metadata.get? key = some (.str text) := by
  unfold requiredText at h
  split at h
  · -- The value has to be a string, and not an empty one.
    next found hget =>
      split at h
      · exact absurd h (by simp only [reduceCtorEq, not_false_eq_true])
      · rw [hget, Except.ok.inj h]
  · exact absurd h (by simp only [reduceCtorEq, not_false_eq_true])

theorem requireSpecialist_ok {metadata : PyDict} {workload : Workload}
    (h : requireSpecialist metadata workload = .ok ()) :
    metadata.get? asanteWorkloadMetaKey = some (.str workload.label) := by
  unfold requireSpecialist at h
  split at h
  · exact absurd h (by simp only [reduceCtorEq, not_false_eq_true])
  · next actual hactual =>
      split at h
      · next hlabel => rw [requiredText_ok hactual, hlabel]
      · exact absurd h (by simp only [reduceCtorEq, not_false_eq_true])

section Shape

variable {α : Type}

theorem passive_extract (metadata : PyDict) (r : Except Exc Unit) :
    Passive ⟨.extractTraceContext metadata, r⟩ :=
  ⟨fun _ h => h, fun env w => apply_world id env.fault w (.ok (), w) rfl⟩

theorem passive_require (taskId : String) (r : Except Exc AsanteRunContext) :
    Passive ⟨.requireTask taskId, r⟩ :=
  ⟨fun _ h => h, fun _ _ => rfl⟩

/-- A call that has read its metadata and failed to resolve a run is refused. -/
theorem refused_of {tr : List AppEvent} {o : Option (Except Exc α)}
    (htr : ∀ ev ∈ tr, (∃ metadata r, ev = ⟨.extractTraceContext metadata, r⟩) ∨
      ∃ taskId e, ev = ⟨.requireTask taskId, .error e⟩)
    (ho : ∀ response, o ≠ some (.ok response)) : Refused tr o where
  passive := fun ev hev => by
    rcases htr ev hev with ⟨metadata, r, rfl⟩ | ⟨taskId, e, rfl⟩
    · exact passive_extract metadata r
    · exact passive_require taskId _
  unresolved := fun ev hev taskId context hresolved => by
    rcases htr ev hev with ⟨metadata, r, rfl⟩ | ⟨known, e, rfl⟩
    · exact Cmd.noConfusion (congrArg Core.Event.cmd hresolved)
    · cases hresolved
  raised := ho

/-- Along a tool call. -/
theorem tool_shape (d : Deployment) (tool : McpTool) (metadata : PyDict) :
    Along (fun tr o => Refused tr o ∨ ∃ context, Resolves d tool metadata context tr)
      (tool.call d metadata) [] := by
  have hraise : ∀ (e : Exc) (response : PyDict),
      (some (.error e) : Option (Except Exc PyDict)) ≠ some (.ok response) :=
    fun _ _ h => by cases h
  have hwait : ∀ response : PyDict, (none : Option (Except Exc PyDict)) ≠ some (.ok response) :=
    fun _ h => by cases h
  have hopen : ∀ ev ∈ ([] : List AppEvent),
      (∃ metadata r, ev = ⟨.extractTraceContext metadata, r⟩) ∨
        ∃ taskId e, ev = ⟨.requireTask taskId, .error e⟩ :=
    fun _ hev => absurd hev List.not_mem_nil
  unfold McpTool.call serverTool
  -- The two checks on the metadata come before any command.
  rcases hspecialist : requireSpecialist metadata tool.owner with e | ⟨⟩
  · exact Or.inl (refused_of hopen (hraise e))
  · rcases htask : taskIdFromMeta metadata with e | taskId
    · exact Or.inl (refused_of hopen (hraise e))
    · refine ⟨Or.inl (refused_of hopen hwait), fun extracted => ?_⟩
      have hextract : ∀ ev ∈ ([⟨.extractTraceContext metadata, extracted⟩] : List AppEvent),
          (∃ metadata r, ev = ⟨.extractTraceContext metadata, r⟩) ∨
            ∃ taskId e, ev = ⟨.requireTask taskId, .error e⟩ :=
        fun ev hev => Or.inl ⟨_, _, List.mem_singleton.mp hev⟩
      rcases extracted with e | ⟨⟩
      · exact Or.inl (refused_of hextract (hraise e))
      · -- The operation, under the handler for unknown tasks.
        refine (along_tryCatch _ _ _).mpr ?_
        rw [forTrustedTask_eq]
        refine ⟨Or.inl (refused_of hextract hwait), fun resolved => ?_⟩
        rcases resolved with e | context
        · -- The lookup raised, and the handler raises whatever it makes of it.
          have hunknown : ∀ e', Refused (α := PyDict) [⟨.extractTraceContext metadata, .ok ()⟩,
              ⟨.requireTask taskId, .error e⟩] (some (.error e')) := by
            refine fun e' => refused_of (fun ev hev => ?_) (hraise e')
            rcases List.mem_pair.mp hev with hev | hev
            · exact Or.inl ⟨_, _, hev⟩
            · exact Or.inr ⟨_, _, hev⟩
          change Along (fun tr o => Refused tr o ∨ ∃ context, Resolves d tool metadata context tr)
            (if e.isTaskNotFound = true then
              throw (.toolError "trusted Asante task context is unavailable") else throw e) _
          refine along_ite (fun _ => ?_) fun _ => ?_
          · exact Or.inl (hunknown _)
          · exact Or.inl (hunknown _)
        · -- From here on every walk is one of the secured operation.
          refine along_of_walks _ _ fun t q hw => ?_
          have hresolves : Resolves d tool metadata context ([⟨.extractTraceContext metadata,
              .ok ()⟩, ⟨.requireTask taskId, .ok context⟩] ++ t) := by
            refine ⟨taskId, [⟨.extractTraceContext metadata, .ok ()⟩], t, q,
              requireSpecialist_ok hspecialist, requiredText_ok htask, rfl, fun ev hev => ?_, hw⟩
            rw [List.mem_singleton.mp hev]
            exact passive_extract metadata _
          -- An outcome is passed on, or raised again by the handler.
          cases q with
          | done response => exact Or.inr ⟨context, hresolves⟩
          | call c k => exact Or.inr ⟨context, hresolves⟩
          | fail e =>
              dsimp only [outcome]
              split
              · exact Or.inr ⟨context, hresolves⟩
              · exact Or.inr ⟨context, hresolves⟩

end Shape

/-- What a walk of an MCP call has done: it is refused so far, or it has resolved
    a context. -/
theorem mcp_shape (d : Deployment) (tool : McpTool) (metadata : PyDict) {tr : List AppEvent}
    {q : App Response} (hw : Walks ((AppCall.mcp tool metadata).code d) tr q) :
    Refused tr q.outcome ∨ ∃ context, Resolves d tool metadata context tr := by
  refine along_walks (P := fun tr o => Refused tr o ∨ ∃ context,
    Resolves d tool metadata context tr) hw [] ((along_bind _ _ _).mpr ?_)
  refine along_mono (fun t o h => ?_) _ _ (tool_shape d tool metadata)
  rcases h with hrefused | hresolves
  · -- The result is wrapped, which changes nothing of the trace.
    rcases o with _ | e | response
    · exact Or.inl ⟨hrefused.passive, hrefused.unresolved, fun _ h => by cases h⟩
    · exact Or.inl ⟨hrefused.passive, hrefused.unresolved, fun _ h => by cases h⟩
    · exact absurd rfl (hrefused.raised response)
  · rcases o with _ | e | response
    · exact Or.inr hresolves
    · exact Or.inr hresolves
    · exact Or.inr hresolves

/-- The request of a tool in a context: the task, the principal, the action and
    the chain. -/
structure RequestFor (d : Deployment) (tool : McpTool) (context : AsanteRunContext)
    (req : Request) : Prop where
  task : req.task = context.task
  principal : req.executingPrincipal = ⟨principalId d.trustDomain tool.owner, "agent"⟩
  action : req.action = tool.action
  chain : req.delegationChain = tool.chain context

theorem toolCall_request (d : Deployment) (tool : McpTool) (context : AsanteRunContext)
    (now : Int) : RequestFor d tool context ((tool.toolCall d context).request d now) := by
  cases tool with
  | issueGuestCredit reservationId amount reason => exact ⟨rfl, rfl, rfl, rfl⟩
  | getReservation reservationId => exact ⟨rfl, rfl, rfl, rfl⟩
  | createMaintenanceRequest reservationId category urgency description =>
      exact ⟨rfl, rfl, rfl, rfl⟩
  | sendGuestMessage reservationId message => exact ⟨rfl, rfl, rfl, rfl⟩
  | requestGuestCredit reservationId amount reason => exact ⟨rfl, rfl, rfl, rfl⟩

/-- A secured operation submits its own request and no other. -/
theorem tool_submits (d : Deployment) (call : ToolCall) {t : List AppEvent} {q : App PyDict}
    (hw : Walks (call.code d) t q) :
    ∀ ev ∈ t, ∀ req, Submits req ev.cmd → ∃ now, req = call.request d now := by
  refine (issues_walks hw (S := fun c => ∀ req, Submits req c → ∃ now, req = call.request d now)
    (issues_tool (fun c hc req hreq => ?_) d call (fun now => ?_) fun c hc req hreq => ?_)).1
  · -- The background submits nothing, and neither does a write.
    cases c with
    | begin submitted => exact absurd hc Bool.noConfusion
    | revalidate submitted permit => exact absurd hc Bool.noConfusion
    | _ => exact absurd hreq id
  · exact ⟨fun req hreq => ⟨now, hreq.symm⟩, fun _ req hreq => ⟨now, hreq.symm⟩⟩
  · cases call with
    | issueCredit retryPolicy reservationId amount reason task chain =>
        rw [show c = _ from hc] at hreq
        exact absurd hreq id
    | requestGuestCredit reservationId amount reason task chain =>
        rcases hc with ⟨_, rfl⟩
        exact absurd hreq id
    | executeApproved approval task chain =>
        rcases hc with rfl | ⟨_, rfl⟩
        · exact absurd hreq id
        · exact absurd hreq id
    | _ => exact absurd hc id

theorem requireTask_ok {taskId : String} {registry : TaskRegistry} {context : AsanteRunContext}
    (h : requireTask taskId registry = .ok context) : registry.lookup taskId = some context := by
  unfold requireTask at h
  split at h
  · next found hfound => rw [hfound, Except.ok.inj h]
  · exact absurd h (by simp only [reduceCtorEq, not_false_eq_true])

/-- The call of the thread `i` acts for the run of the thread `j`. Its metadata
    names the owner of the tool and the task of the run; when it looked the task
    up, after the events `pre`, the run was live and its chain for the tool was
    issued; before that it did nothing, and since then it is the secured
    operation, whose requests carry the task and the chain. -/
structure Dispatched (d : Deployment)
    (cfg : Core.Config AppCall Cmd Cmd.Answer Exc Response World) (i : Nat) (tool : McpTool)
    (metadata : PyDict) (tr : List AppEvent) (context : AsanteRunContext) (j : Nat)
    (operator : AuthenticatedHuman) (pre : List (Nat × AppEvent)) : Prop where
  workload : metadata.get? asanteWorkloadMetaKey = some (.str tool.owner.label)
  task : metadata.get? asanteTaskMetaKey = some (.str context.task.taskId)
  resolved : ∃ post,
    cfg.history = pre ++ (i, ⟨.requireTask context.task.taskId, .ok context⟩) :: post
  live : Live pre j context
  run : ∃ th message, cfg.threads[j]? = some th ∧ th.call = .runAgent operator message
  human : context.task.initiatedBy = operator.principalId
  chain : ChainFor d context.task tool.owner tool.action (tool.chain context)
  issued : ∀ grant ∈ tool.chain context, (j, ⟨.registerGrant grant, .ok ()⟩) ∈ pre
  requests : ∃ front back q,
    tr = front ++ ⟨.requireTask context.task.taskId, .ok context⟩ :: back ∧
    (∀ ev ∈ front, Passive ev) ∧ Walks ((tool.toolCall d context).code d) back q ∧
    ∀ ev ∈ back, ∀ req, Submits req ev.cmd → RequestFor d tool context req

/-- A call that resolved a context acts for the run that registered it. -/
theorem resolves_dispatched (d : Deployment) (sched : List (Core.Action AppCall Env)) {i : Nat}
    {tool : McpTool} {metadata : PyDict} {p : App Response} {tr : List AppEvent}
    (hget : (appRun d sched).threads[i]? = some ⟨.mcp tool metadata, p, tr⟩)
    {context : AsanteRunContext} (hres : Resolves d tool metadata context tr) :
    ∃ j operator pre,
      Dispatched d (appRun d sched) i tool metadata tr context j operator pre := by
  rcases hres with ⟨taskId, front, back, q, hworkload, htask, htr, hfront, hback⟩
  have hevent : (i, (⟨.requireTask taskId, .ok context⟩ : AppEvent)) ∈
      (appRun d sched).history := by
    refine (Core.exec_events perform (AppCall.code d) World.empty sched i _).mpr ⟨_, hget, ?_⟩
    rw [htr]
    exact List.mem_append_right _ List.mem_cons_self
  rcases List.append_of_mem hevent with ⟨pre, post, hsplit⟩
  -- The configuration in which the task was looked up.
  rcases Core.exec_history perform (AppCall.code d) World.empty sched hsplit with
    ⟨before, env, after, hsched, hpre, hanswer⟩
  rcases registry_live d before taskId context (requireTask_ok hanswer) with ⟨hid, j, hlive⟩
  have hlivePre : Live pre j context := hpre ▸ hlive
  have hregistered : (j, (⟨.registerTask context, .ok ()⟩ : AppEvent)) ∈
      (appRun d before).history := by
    rcases hlive with ⟨pre', post', hsplit', -⟩
    rw [hsplit']
    exact List.mem_append_right _ List.mem_cons_self
  rcases (Core.exec_events perform (AppCall.code d) World.empty before j _).mp hregistered with
    ⟨th, hth, hev⟩
  have hwalk := Core.exec_walks perform (AppCall.code d) World.empty before th
    (List.mem_of_getElem? hth)
  -- The thread that registered is a run, and has opened what it registered.
  rcases app_registers d hwalk hev with ⟨operator, message, hcall, hopened⟩
  rcases Core.exec_kept perform (AppCall.code d) World.empty before (.advance i env :: after) hth
    with ⟨later, hlater, hlaterCall⟩
  rw [← hsched] at hlater
  rw [← hid] at htask htr hsplit
  refine ⟨j, operator, pre, hworkload, htask, ⟨post, hsplit⟩, hlivePre,
    ⟨later, message, hlater, hlaterCall.trans hcall⟩, hopened.human, (hopened.chains tool).1,
    fun grant hgrant => ?_, front, back, q, htr, hfront, hback, fun ev hev req hreq => ?_⟩
  · rw [← hpre]
    exact (Core.exec_events perform (AppCall.code d) World.empty before j _).mpr
      ⟨th, hth, (hopened.chains tool).2 grant hgrant⟩
  · rcases tool_submits d _ hback ev hev req hreq with ⟨now, rfl⟩
    exact toolCall_request d tool context now

/-- In every run of the application, every MCP call is refused, with nothing
    submitted and nothing changed, or acts for one run that was live when the
    call resolved it; and a registration under the id of another context is
    refused with nothing changed. -/
theorem mcp_dispatch (d : Deployment) (sched : List (Core.Action AppCall Env)) :
    (∀ i tool metadata p tr,
      (appRun d sched).threads[i]? = some ⟨.mcp tool metadata, p, tr⟩ →
      Refused tr p.outcome ∨ ∃ context j operator pre,
        Dispatched d (appRun d sched) i tool metadata tr context j operator pre) ∧
    ∀ (context existing : AsanteRunContext) (registry : TaskRegistry),
      registry.lookup context.task.taskId = some existing → existing ≠ context →
      ∃ message, registerTask context registry = (.error (.valueError message), registry) := by
  refine ⟨fun i tool metadata p tr hget => ?_, fun _ _ _ hbound hne =>
    registerTask_conflict hbound hne⟩
  have hwalk := Core.exec_walks perform (AppCall.code d) World.empty sched _
    (List.mem_of_getElem? hget)
  rcases mcp_shape d tool metadata hwalk with hrefused | ⟨context, hres⟩
  · exact Or.inl hrefused
  · exact Or.inr ⟨context, resolves_dispatched d sched hget hres⟩

end Asante
