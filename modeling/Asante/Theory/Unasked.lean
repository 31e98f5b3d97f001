import Asante.Theory.Footprints

/-!
# Nothing Unasked

Where the records of the stores come from. Every work order, message, approval
request and direct credit was asked for, in just these words, by a call in the
same run: an MCP call of the tool that owns the store, dispatched to a live run
of the agents for its operator, or, for a credit, the endpoint of an operator.

A record is put into its store by one command, and stays as it is; for a row of
the approvals this is said of what it asks for. A command on a store is issued
by the calls that have the store in their footprint, with the arguments of the
call, so the command leads back to a call and its words.

## Main definitions

* `ApprovalRow.asked`: What a row asks for.
* `Carries`: An effect has the arguments of the tool.
* `AskedBy`: A call of a tool was dispatched to a run.

## Theorems

* `work_order_asked`, `message_asked`, `request_asked`, `credit_asked`: One store each.
* `nothing_unasked`: All of them.
-/

namespace Asante

open Core.Prog

/-- What a row asks for. It never changes. -/
def ApprovalRow.asked (row : ApprovalRow) : CreditRequest :=
  { taskId := row.taskId
    requestedBy := row.requestedBy
    reservationId := row.reservationId
    amount := row.amount
    reason := row.reason
    policyId := row.policyId }

/-- If the command puts a record into a store, the record has the arguments of
    the tool and the task of the context. -/
def Carries (tool : McpTool) (context : AsanteRunContext) : Cmd → Prop
  | .maintenanceCreate r _ => ∃ urgency,
    tool = .createMaintenanceRequest r.reservationId r.category urgency r.description ∧
      r.urgency = lower (strip urgency) ∧ maintenanceUrgencies.contains r.urgency = true
  | .outboxSend reservationId message _ =>
    tool = .sendGuestMessage reservationId message ∧ strip message ≠ ""
  | .createCreditRequest r =>
    tool = .requestGuestCredit r.reservationId r.amount r.reason ∧
      r.taskId = context.task.taskId ∧ r.requestedBy = context.task.initiatedBy
  | .ledgerIssue writer credit _ =>
    tool = .issueGuestCredit credit.reservationId credit.amount credit.reason ∧
      writer = .issueCredit context.task.taskId
  | _ => True

theorem carries_storeless (tool : McpTool) (context : AsanteRunContext) (c : Cmd)
    (h : c.store = none) : Carries tool context c := by
  cases c with
  | ledgerIssue writer credit key => exact absurd h (Option.some_ne_none _)
  | maintenanceCreate r key => exact absurd h (Option.some_ne_none _)
  | outboxSend reservationId message key => exact absurd h (Option.some_ne_none _)
  | createCreditRequest r => exact absurd h (Option.some_ne_none _)
  | _ => trivial

/-- The effects of a tool have its arguments. -/
theorem tool_carries (d : Deployment) (tool : McpTool) (context : AsanteRunContext) :
    Issues (Carries tool context) ((tool.toolCall d context).code d) := by
  refine issues_effects (carries_storeless tool context) d _ fun c hc => ?_
  cases tool with
  | issueGuestCredit reservationId amount reason =>
      rw [show c = _ from hc]
      exact ⟨rfl, rfl⟩
  | getReservation reservationId =>
      rcases hc with rfl | rfl | ⟨value, rfl⟩
      · trivial
      · trivial
      · trivial
  | createMaintenanceRequest reservationId category urgency description =>
      rw [hc.2]
      exact ⟨urgency, rfl, rfl, hc.1⟩
  | sendGuestMessage reservationId message =>
      rw [hc.2]
      exact ⟨rfl, hc.1⟩
  | requestGuestCredit reservationId amount reason =>
      rcases hc with rfl | rfl
      · trivial
      · exact ⟨rfl, rfl, rfl⟩

/-- A call of the tool was dispatched, for the operator, to the run of the
    context. -/
def AskedBy (d : Deployment) (sched : List (Core.Action AppCall Env)) (tool : McpTool)
    (context : AsanteRunContext) (operator : AuthenticatedHuman) : Prop :=
  ∃ i metadata p tr j pre, (appRun d sched).threads[i]? = some ⟨.mcp tool metadata, p, tr⟩ ∧
    Dispatched d (appRun d sched) i tool metadata tr context j operator pre

section Origins

variable {d : Deployment} {sched : List (Core.Action AppCall Env)}

/-- A command in the history that works on a store is an effect of the call that
    issued it. -/
theorem history_effect {i : Nat} {ev : AppEvent} (h : (i, ev) ∈ (appRun d sched).history)
    {store : Store} (hstore : ev.cmd.store = some store) :
    ∃ th, (appRun d sched).threads[i]? = some th ∧ ev ∈ th.trace ∧
      th.call.Effects d ev.cmd := by
  rcases (Core.exec_events perform (AppCall.code d) World.empty sched i ev).mp h with
    ⟨th, hget, hmem⟩
  have hwalk := Core.exec_walks perform (AppCall.code d) World.empty sched th
    (List.mem_of_getElem? hget)
  have hissues : Issues (fun c => c.store = none ∨ th.call.Effects d c) (th.call.code d) :=
    app_effects (fun _ => Or.inl) d th.call fun _ => Or.inr
  refine ⟨th, hget, hmem, ((issues_walks hwalk hissues).1 ev hmem).resolve_left fun hnone => ?_⟩
  exact absurd (hnone.symm.trans hstore) (by simp only [reduceCtorEq, not_false_eq_true])

/-- An MCP call that has changed something was dispatched, and its effects have
    its arguments. -/
theorem mcp_asked {i : Nat} {tool : McpTool} {metadata : PyDict} {p : App Response}
    {tr : List AppEvent} (hget : (appRun d sched).threads[i]? = some ⟨.mcp tool metadata, p, tr⟩)
    {ev : AppEvent} (hev : ev ∈ tr) (hactive : ¬ ∀ env w, (perform ev.cmd env w).2 = w) :
    ∃ context operator, AskedBy d sched tool context operator ∧ Carries tool context ev.cmd := by
  have hwalk := Core.exec_walks perform (AppCall.code d) World.empty sched _
    (List.mem_of_getElem? hget)
  rcases mcp_shape d tool metadata hwalk with hrefused | ⟨context, hresolves⟩
  · exact absurd (hrefused.passive ev hev).2 hactive
  · rcases resolves_dispatched d sched hget hresolves with ⟨j, operator, pre, hdispatched⟩
    refine ⟨context, operator, ⟨i, metadata, p, tr, j, pre, hget, hdispatched⟩, ?_⟩
    rcases hdispatched.requests with ⟨front, back, q, htr, hfront, hback, -⟩
    rw [htr] at hev
    rcases List.mem_append.mp hev with hmem | hmem
    · exact absurd (hfront ev hmem).2 hactive
    · rcases List.mem_cons.mp hmem with rfl | hmem
      · exact absurd (fun _ _ => rfl) hactive
      · exact (issues_walks hback (tool_carries d tool context)).1 ev hmem

/-- What stands in a store was put there by an effect of a call. -/
theorem store_origin {X : Type} (store : Store) (items : World → List X) (puts : Cmd → X → Prop)
    (hframe : ∀ w v, store.Same w v → items w = items v)
    (hputs : ∀ c env w x, c.store = some store → x ∈ items (perform c env w).2 →
      x ∈ items w ∨ puts c x)
    (hon : ∀ c x, puts c x → c.store = some store) (hstart : items World.empty = []) :
    ∀ x ∈ items (appRun d sched).world, ∃ (i : Nat) (call : AppCall) (p : App Response)
      (tr : List AppEvent) (ev : AppEvent), (appRun d sched).threads[i]? = some ⟨call, p, tr⟩ ∧
        ev ∈ tr ∧ call.Effects d ev.cmd ∧ puts ev.cmd x := by
  intro x hx
  have hstep : ∀ c env w, ∀ x ∈ items (perform c env w).2, x ∈ items w ∨ puts c x := by
    intro c env w x hx
    by_cases hc : c.store = some store
    · exact hputs c env w x hc hx
    · rw [hframe _ _ (perform_frame hc env w)] at hx
      exact Or.inl hx
  rcases Core.exec_origin perform (AppCall.code d) items puts hstep hstart sched x hx with
    ⟨i, ev, hev, hputs⟩
  rcases history_effect hev (hon _ _ hputs) with ⟨th, hget, hmem, heffect⟩
  exact ⟨i, th.call, th.rest, th.trace, ev, hget, hmem, heffect, hputs⟩

/-- What a log holds after a call was there, or is what was recorded. -/
theorem mem_record {β : Type} {log : Core.KeyedLog String β} {key : Option String} {b entry : β}
    (h : entry ∈ (log.record key b).2.entries) : entry ∈ log.entries ∨ entry = b := by
  have hnew : entry ∈ log.entries ++ [b] → entry ∈ log.entries ∨ entry = b := fun hmem =>
    (List.mem_append.mp hmem).imp_right List.mem_singleton.mp
  cases key with
  | none => exact hnew h
  | some k =>
      rcases hfind : log.find k with _ | existing
      · rw [Core.KeyedLog.record_new hfind] at h
        exact hnew h
      · rw [Core.KeyedLog.record_bound hfind] at h
        exact Or.inl h

/-- A step on a store, whether it fails or not, leaves or adds what the step does. -/
theorem mem_apply {X Y : Type} (items : World → List X) {fault : Fault} {w : World}
    {step : Except Exc Y × World} {x : X} (h : x ∈ items (fault.apply w step).2) :
    x ∈ items w ∨ x ∈ items step.2 := by
  rcases apply_cases fault w step with hsame | hdone
  · exact Or.inl (hsame ▸ h)
  · exact Or.inr (hdone ▸ h)

/-- Only an MCP call creates a work order. -/
theorem effects_maintenanceCreate {call : AppCall} {r : MaintenanceRequest} {key : String}
    (h : call.Effects d (.maintenanceCreate r key)) :
    ∃ tool metadata, call = .mcp tool metadata := by
  cases call with
  | mcp tool metadata => exact ⟨tool, metadata, rfl⟩
  | _ => exact absurd h (by simp only [AppCall.Effects, ToolCall.Effects, reduceCtorEq,
      exists_const, exists_false, or_self, not_false_eq_true])

/-- Every work order was asked for. -/
theorem work_order_asked (d : Deployment) (sched : List (Core.Action AppCall Env)) :
    ∀ order ∈ (appRun d sched).world.workOrders.entries, ∃ context operator urgency,
      AskedBy d sched (.createMaintenanceRequest order.reservationId order.category urgency
        order.description) context operator ∧
      order.urgency = lower (strip urgency) ∧
        maintenanceUrgencies.contains order.urgency = true := by
  intro order horder
  have hputs : ∀ c env w (order : WorkOrder), c.store = some .workOrders →
      order ∈ (perform c env w).2.workOrders.entries → order ∈ w.workOrders.entries ∨
        ∃ key, c = .maintenanceCreate ⟨order.reservationId, order.category, order.urgency,
          order.description⟩ key := by
    intro c env w order hc horder
    cases c with
    | maintenanceCreate r key =>
        rcases mem_apply (fun w => w.workOrders.entries) horder with hold | hnew
        · exact Or.inl hold
        · rcases mem_record hnew with hold | rfl
          · exact Or.inl hold
          · exact Or.inr ⟨key, rfl⟩
    | _ => exact absurd hc (by simp only [Cmd.store, reduceCtorEq, Option.some.injEq,
        not_false_eq_true])
  rcases store_origin .workOrders (fun w => w.workOrders.entries) _ (fun w v h => congrArg _ h)
    hputs (fun c order h => h.elim fun key hc => hc ▸ rfl) rfl order horder with
    ⟨i, call, p, tr, ev, hget, hmem, heffect, key, hcmd⟩
  have hactive : ¬ ∀ env w, (perform ev.cmd env w).2 = w := fun h => by
    rw [hcmd] at h
    exact absurd (congrArg (fun w => w.workOrders.entries) (h .granting .empty))
      (List.cons_ne_nil _ _)
  rw [hcmd] at heffect
  rcases effects_maintenanceCreate heffect with ⟨tool, metadata, rfl⟩
  rcases mcp_asked hget hmem hactive with ⟨context, operator, hasked, hcarries⟩
  rw [hcmd] at hcarries
  rcases hcarries with ⟨urgency, rfl, hurgency, hknown⟩
  exact ⟨context, operator, urgency, hasked, hurgency, hknown⟩

/-- Only an MCP call sends a message. -/
theorem effects_outboxSend {call : AppCall} {reservationId message key : String}
    (h : call.Effects d (.outboxSend reservationId message key)) :
    ∃ tool metadata, call = .mcp tool metadata := by
  cases call with
  | mcp tool metadata => exact ⟨tool, metadata, rfl⟩
  | _ => exact absurd h (by simp only [AppCall.Effects, ToolCall.Effects, reduceCtorEq,
      exists_const, exists_false, or_self, not_false_eq_true])

/-- Every message was asked for. -/
theorem message_asked (d : Deployment) (sched : List (Core.Action AppCall Env)) :
    ∀ outbound ∈ (appRun d sched).world.outbox.entries, ∃ context operator,
      AskedBy d sched (.sendGuestMessage outbound.reservationId outbound.message) context
        operator ∧ strip outbound.message ≠ "" := by
  intro outbound houtbound
  have hputs : ∀ c env w (outbound : OutboundMessage), c.store = some .outbox →
      outbound ∈ (perform c env w).2.outbox.entries → outbound ∈ w.outbox.entries ∨
        ∃ key, c = .outboxSend outbound.reservationId outbound.message key := by
    intro c env w outbound hc houtbound
    cases c with
    | outboxSend reservationId message key =>
        rcases mem_apply (fun w => w.outbox.entries) houtbound with hold | hnew
        · exact Or.inl hold
        · rcases mem_record hnew with hold | rfl
          · exact Or.inl hold
          · exact Or.inr ⟨key, rfl⟩
    | _ => exact absurd hc (by simp only [Cmd.store, reduceCtorEq, Option.some.injEq,
        not_false_eq_true])
  rcases store_origin .outbox (fun w => w.outbox.entries) _ (fun w v h => congrArg _ h)
    hputs (fun c outbound h => h.elim fun key hc => hc ▸ rfl) rfl outbound houtbound with
    ⟨i, call, p, tr, ev, hget, hmem, heffect, key, hcmd⟩
  have hactive : ¬ ∀ env w, (perform ev.cmd env w).2 = w := fun h => by
    rw [hcmd] at h
    exact absurd (congrArg (fun w => w.outbox.entries) (h .granting .empty))
      (List.cons_ne_nil _ _)
  rw [hcmd] at heffect
  rcases effects_outboxSend heffect with ⟨tool, metadata, rfl⟩
  rcases mcp_asked hget hmem hactive with ⟨context, operator, hasked, hcarries⟩
  rw [hcmd] at hcarries
  rcases hcarries with ⟨rfl, hmessage⟩
  exact ⟨context, operator, hasked, hmessage⟩

/-- Only an MCP call creates a request for approval. -/
theorem effects_createCreditRequest {call : AppCall} {r : CreditRequest}
    (h : call.Effects d (.createCreditRequest r)) : ∃ tool metadata, call = .mcp tool metadata := by
  cases call with
  | mcp tool metadata => exact ⟨tool, metadata, rfl⟩
  | _ => exact absurd h (by simp only [AppCall.Effects, ToolCall.Effects, reduceCtorEq,
      exists_const, exists_false, or_self, not_false_eq_true])

/-- Updating a row leaves what every row asks for. -/
theorem mem_updateRow_asked {table : ApprovalTable} {approvalId : String}
    {f : ApprovalRow → ApprovalRow} {r : CreditRequest}
    (h : r ∈ (updateRow table approvalId f).map ApprovalRow.asked)
    (hf : ∀ row, (f row).asked = row.asked) : r ∈ table.map ApprovalRow.asked := by
  rcases List.mem_map.mp h with ⟨row, hrow, rfl⟩
  rcases updateRow_origin hrow with ⟨hold, -⟩ | ⟨old, hold, -, rfl⟩
  · exact List.mem_map_of_mem hold
  · rw [hf]
    exact List.mem_map_of_mem hold

/-- Every request for approval was asked for. -/
theorem request_asked (d : Deployment) (sched : List (Core.Action AppCall Env)) :
    ∀ row ∈ (appRun d sched).world.approvals, ∃ context operator,
      AskedBy d sched (.requestGuestCredit row.reservationId row.amount row.reason) context
        operator ∧
      row.taskId = context.task.taskId ∧ row.requestedBy = context.task.initiatedBy := by
  intro row hrow
  have hputs : ∀ c env w (r : CreditRequest), c.store = some .approvals →
      r ∈ (perform c env w).2.approvals.map ApprovalRow.asked →
        r ∈ w.approvals.map ApprovalRow.asked ∨ c = .createCreditRequest r := by
    intro c env w r hc hr
    cases c with
    | createCreditRequest r' =>
        rcases mem_apply (fun w => w.approvals.map ApprovalRow.asked) hr with hold | hnew
        · exact Or.inl hold
        · rcases createCreditRequest_cases env.nowText env.uuid r' w.approvals with
            ⟨_, _, hans⟩ | ⟨_, _, hans⟩ | ⟨_, _, hans⟩
          · rw [hans] at hnew
            exact Or.inl hnew
          · rw [hans, List.map_append] at hnew
            rcases List.mem_append.mp hnew with hold | hlast
            · exact Or.inl hold
            · -- The new row asks for what it was created with.
              rw [List.mem_singleton.mp hlast]
              exact Or.inr rfl
          · rw [hans] at hnew
            exact Or.inl hnew
    | decideLocked approvalId approved decidedBy note =>
        refine Or.inl ?_
        rcases mem_apply (fun w => w.approvals.map ApprovalRow.asked) hr with hold | hnew
        · exact hold
        · rcases decideLocked_cases env.nowText approvalId decidedBy approved note w.approvals with
            ⟨_, _, hans⟩ | ⟨_, _, _, hans⟩ | ⟨_, _, _, hans⟩
          · rw [hans] at hnew
            exact hnew
          · rw [hans] at hnew
            exact hnew
          · rw [hans, updateDecision_eq] at hnew
            exact mem_updateRow_asked hnew fun _ => rfl
    | markExecutedLocked approvalId result =>
        refine Or.inl ?_
        rcases mem_apply (fun w => w.approvals.map ApprovalRow.asked) hr with hold | hnew
        · exact hold
        · rcases markExecutedLocked_cases env.nowText approvalId result w.approvals with
            ⟨_, _, hans⟩ | ⟨_, _, _, hans⟩ | ⟨_, _, _, hans⟩
          · rw [hans] at hnew
            exact hnew
          · rw [hans] at hnew
            exact hnew
          · rw [hans, updateExecuted_eq] at hnew
            exact mem_updateRow_asked hnew fun _ => rfl
    | findCreditRequest taskId reservationId amount =>
        exact Or.inl ((mem_apply (fun w => w.approvals.map ApprovalRow.asked) hr).elim id id)
    | requireRecord approvalId =>
        exact Or.inl ((mem_apply (fun w => w.approvals.map ApprovalRow.asked) hr).elim id id)
    | _ => exact absurd hc (by simp only [Cmd.store, reduceCtorEq, Option.some.injEq,
        not_false_eq_true])
  rcases store_origin .approvals (fun w => w.approvals.map ApprovalRow.asked) _
    (fun w v h => congrArg _ h) hputs (fun c r h => h ▸ rfl) rfl row.asked
    (List.mem_map_of_mem hrow) with ⟨i, call, p, tr, ev, hget, hmem, heffect, hcmd⟩
  have hactive : ¬ ∀ env w, (perform ev.cmd env w).2 = w := fun h => by
    rw [hcmd] at h
    exact absurd (congrArg World.approvals (h .granting .empty)) (List.cons_ne_nil _ _)
  rw [hcmd] at heffect
  rcases effects_createCreditRequest heffect with ⟨tool, metadata, rfl⟩
  rcases mcp_asked hget hmem hactive with ⟨context, operator, hasked, hcarries⟩
  rw [hcmd] at hcarries
  rcases hcarries with ⟨rfl, htask, hhuman⟩
  exact ⟨context, operator, hasked, htask, hhuman⟩

/-- A ledger call is an effect of an MCP call, of the endpoint for credits, or of
    an approval. -/
theorem effects_ledgerIssue {call : AppCall} {writer : Writer} {credit : Credit}
    {key : Option String} (h : call.Effects d (.ledgerIssue writer credit key)) :
    (∃ tool metadata, call = .mcp tool metadata) ∨
      (∃ operator, call = .devIssueCredit operator credit.reservationId credit.amount
        credit.reason) ∨ ∃ approvalId, writer = .approvedExecutor approvalId := by
  cases call with
  | mcp tool metadata => exact Or.inl ⟨tool, metadata, rfl⟩
  | devIssueCredit operator reservationId amount reason =>
      rcases h with ⟨task, chain, h⟩
      rcases Cmd.ledgerIssue.inj h with ⟨-, rfl, -⟩
      exact Or.inr (Or.inl ⟨operator, rfl⟩)
  | approve operator approvalId note =>
      rcases h with h | h | ⟨record, task, chain, h | ⟨result, h⟩ | h⟩
      · exact Cmd.noConfusion h
      · exact Cmd.noConfusion h
      · exact Or.inr (Or.inr ⟨record.approvalId, (Cmd.ledgerIssue.inj h).1⟩)
      · exact Cmd.noConfusion h
      · exact Cmd.noConfusion h
  | _ => exact absurd h (by simp only [AppCall.Effects, ToolCall.Effects, reduceCtorEq,
      exists_const, exists_false, or_self, not_false_eq_true])

/-- Every direct credit was asked for. -/
theorem credit_asked (d : Deployment) (sched : List (Core.Action AppCall Env)) :
    ∀ wr ∈ (appRun d sched).world.writes, ∀ taskId, wr.writer = .issueCredit taskId →
      (∃ context operator, AskedBy d sched (.issueGuestCredit wr.credit.reservationId
        wr.credit.amount wr.credit.reason) context operator ∧ taskId = context.task.taskId) ∨
      ∃ th ∈ (appRun d sched).threads, ∃ operator, th.call = .devIssueCredit operator
        wr.credit.reservationId wr.credit.amount wr.credit.reason := by
  intro wr hwr taskId hdirect
  have hputs : ∀ c env w (wr : Write), c.store = some .ledger →
      wr ∈ (perform c env w).2.writes → wr ∈ w.writes ∨
        c = .ledgerIssue wr.writer wr.credit wr.key := by
    intro c env w wr hc hwr
    cases c with
    | ledgerIssue writer credit key =>
        rcases mem_apply World.writes hwr with hold | hnew
        · exact Or.inl hold
        · change wr ∈ (if _ then _ else _) at hnew
          split at hnew
          · exact Or.inl hnew
          · rcases List.mem_append.mp hnew with hold | hlast
            · exact Or.inl hold
            · rw [List.mem_singleton.mp hlast]
              exact Or.inr rfl
    | _ => exact absurd hc (by simp only [Cmd.store, reduceCtorEq, Option.some.injEq,
        not_false_eq_true])
  rcases store_origin .ledger World.writes _ (fun w v h => h.2) hputs (fun c wr h => h ▸ rfl) rfl
    wr hwr with ⟨i, call, p, tr, ev, hget, hmem, heffect, hcmd⟩
  rw [hcmd] at heffect
  rcases effects_ledgerIssue heffect with ⟨tool, metadata, rfl⟩ | ⟨operator, hcall⟩ |
    ⟨approvalId, hwriter⟩
  · have hactive : ¬ ∀ env w, (perform ev.cmd env w).2 = w := fun h => by
      rw [hcmd] at h
      refine absurd (congrArg (fun w => w.ledger.entries) (h .granting .empty)) ?_
      cases wr.key <;> exact List.cons_ne_nil _ _
    rcases mcp_asked hget hmem hactive with ⟨context, operator, hasked, hcarries⟩
    rw [hcmd] at hcarries
    rcases hcarries with ⟨rfl, hwriter⟩
    exact Or.inl ⟨context, operator, hasked, Writer.issueCredit.inj (hdirect.symm.trans hwriter)⟩
  · exact Or.inr ⟨_, List.mem_of_getElem? hget, operator, hcall⟩
  · rw [hdirect] at hwriter
    exact Writer.noConfusion hwriter

end Origins

/-- Nothing is in the stores that was not asked for, in these words, by a call of
    the run: work orders, messages and requests for approval by an MCP call of
    their tool that was dispatched to a live run of the agents, for its task and
    its human, and direct credits by such a call or by the endpoint for credits. The
    ledger holds the credits that were written. -/
theorem nothing_unasked (d : Deployment) (sched : List (Core.Action AppCall Env)) :
    (∀ order ∈ (appRun d sched).world.workOrders.entries, ∃ context operator urgency,
      AskedBy d sched (.createMaintenanceRequest order.reservationId order.category urgency
        order.description) context operator ∧
      order.urgency = lower (strip urgency) ∧
        maintenanceUrgencies.contains order.urgency = true) ∧
    (∀ outbound ∈ (appRun d sched).world.outbox.entries, ∃ context operator,
      AskedBy d sched (.sendGuestMessage outbound.reservationId outbound.message) context
        operator ∧ strip outbound.message ≠ "") ∧
    (∀ row ∈ (appRun d sched).world.approvals, ∃ context operator,
      AskedBy d sched (.requestGuestCredit row.reservationId row.amount row.reason) context
        operator ∧
      row.taskId = context.task.taskId ∧ row.requestedBy = context.task.initiatedBy) ∧
    (appRun d sched).world.ledger.entries = (appRun d sched).world.writes.map (·.credit) ∧
    ∀ wr ∈ (appRun d sched).world.writes, ∀ taskId, wr.writer = .issueCredit taskId →
      (∃ context operator, AskedBy d sched (.issueGuestCredit wr.credit.reservationId
        wr.credit.amount wr.credit.reason) context operator ∧ taskId = context.task.taskId) ∨
      ∃ th ∈ (appRun d sched).threads, ∃ operator, th.call = .devIssueCredit operator
        wr.credit.reservationId wr.credit.amount wr.credit.reason :=
  ⟨work_order_asked d sched, message_asked d sched, request_asked d sched,
    ledgered_entries (open_sound d sched).world.ledgered, credit_asked d sched⟩

end Asante
