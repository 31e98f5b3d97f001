import Asante.Theory.Dispatch
import Asante.Theory.Replays

/-!
# On Whose Behalf

Who stands behind what a run of the application does. Every request a call
submits to Ruhusa is in a task, and the task names the human who initiated it:
the caller of the endpoint, or, for an MCP call, the operator of the run the
call was dispatched to, who has called in the same run of the application. And
every row that names a human who decided it was decided by a call of that
human, who holds the scope.

## Main definitions

* `AppCall.operator?`: The human who makes a call.
* `Decision`: The call of a human that decides an approval.

## Theorems

* `app_on_behalf`: Every submitted request is on behalf of an operator who called.
* `app_decided`: Every decision is that of a holder of the scope who called for it.
-/

namespace Asante

open Core.Prog

/-- The human who makes the call; an MCP call is made by no one in particular. -/
def AppCall.operator? : AppCall → Option AuthenticatedHuman
  | runAgent operator _ => some operator
  | mcp _ _ => none
  | devIssueCredit operator _ _ _ => some operator
  | devGetReservation operator _ => some operator
  | approve operator _ _ => some operator
  | deny operator _ _ => some operator

/-- The request is in a task of the human, if it is submitted at all. -/
def InTaskOf (human : String) (c : Cmd) : Prop :=
  ∀ req, Submits req c → req.task.initiatedBy = human

theorem background_inTaskOf (human : String) {c : Cmd} (h : background c = true) :
    InTaskOf human c := by
  intro req hreq
  cases c with
  | begin submitted => exact absurd h Bool.noConfusion
  | revalidate submitted permit => exact absurd h Bool.noConfusion
  | _ => exact absurd hreq id

section Calls

variable (d : Deployment) {human : String} {S : Cmd → Prop}

/-- A secured operation submits in the task it is given. -/
theorem tool_inTaskOf (call : ToolCall) (htask : ∀ now, (call.request d now).task.initiatedBy =
    human) : Issues (InTaskOf human) (call.code d) := by
  refine issues_tool (fun _ => background_inTaskOf human) d call (fun now => ?_) fun c hc => ?_
  · refine ⟨fun req hreq => ?_, fun _ req hreq => ?_⟩
    · rw [← show call.request d now = req from hreq]
      exact htask now
    · rw [← show call.request d now = req from hreq]
      exact htask now
  · intro req hreq
    -- What a tool writes it submits to nobody.
    cases call with
    | issueCredit retryPolicy reservationId amount reason task chain =>
        rw [show c = _ from hc] at hreq
        exact absurd hreq id
    | requestGuestCredit reservationId amount reason task chain =>
        rcases hc with ⟨_, rfl⟩
        exact absurd hreq id
    | executeApproved approval task chain =>
        rcases hc with rfl | ⟨_, rfl⟩
        · exact absurd hreq id
        · exact absurd hreq id
    | _ => exact absurd hc id

/-- What follows the opening of a task may rely on the human it names. -/
theorem issues_opened {α : Type} (hS : ∀ c, background c = true → S c)
    {operator : AuthenticatedHuman} {purpose : String} {lifetime : Int} {f : TaskContext → App α}
    (hf : ∀ task : TaskContext, task.initiatedBy = operator.principalId → Issues S (f task)) :
    Issues S (openTask operator purpose lifetime >>= f) :=
  issues_bind_returned _ _ (issues_openTask hS _ _ _) fun _ _ hw => hf _ (openTask_human hw)

variable (operator : AuthenticatedHuman)

theorem devIssueCredit_inTaskOf (reservationId : String) (amount : ℚ) (reason : String) :
    Issues (InTaskOf operator.principalId)
      (devIssueCredit d operator reservationId amount reason) := by
  refine issues_validated (issues_opened (fun _ => background_inTaskOf _) fun task htask => ?_)
  refine issues_bind _ _ (issues_serviceRecovery (fun _ => background_inTaskOf _) d _ _ _)
    fun chain => ?_
  exact issues_bind _ _ (tool_inTaskOf d (.issueCredit _ _ _ _ task chain) fun _ => htask)
    fun _ => trivial

theorem devGetReservation_inTaskOf (reservationId : String) :
    Issues (InTaskOf operator.principalId) (devGetReservation d operator reservationId) := by
  refine issues_opened (fun _ => background_inTaskOf _) fun task htask => ?_
  refine issues_bind _ _ (issues_issueChain (fun _ => background_inTaskOf _) d _ _ _ _)
    fun chain => ?_
  exact issues_bind _ _ (tool_inTaskOf d (.getReservation _ task chain) fun _ => htask)
    fun _ => trivial

theorem approve_inTaskOf (approvalId : String) (note : Option String) :
    Issues (InTaskOf operator.principalId) (approveCreditRequest d operator approvalId note) := by
  refine issues_validated (issues_bind _ _ (issues_ofExcept _) fun _ => ?_)
  refine issues_bind _ _ (issues_decideApproved (fun _ => background_inTaskOf _) operator
    approvalId note fun _ h => absurd h id) fun decided => ?_
  split
  · -- A repeated approval submits nothing.
    trivial
  · refine issues_opened (fun _ => background_inTaskOf _) fun task htask => ?_
    refine issues_bind _ _ (issues_approvalExecutor (fun _ => background_inTaskOf _) d _ _)
      fun chain => ?_
    refine issues_bind _ _ (tool_inTaskOf d (.executeApproved _ task chain) fun _ => htask)
      fun _ => ?_
    exact issues_bind _ _ (issues_orRaise (issues_ask fun _ h => absurd h id)) fun _ => trivial

/-- A call of an endpoint submits in tasks of its operator. -/
theorem endpoint_inTaskOf {call : AppCall} (h : call.operator? = some operator) :
    Issues (InTaskOf operator.principalId) (call.code d) := by
  cases call with
  | mcp tool metadata =>
      exact absurd h (by simp only [AppCall.operator?, reduceCtorEq, not_false_eq_true])
  | runAgent caller message =>
      rw [← Option.some.inj h]
      exact issues_runAgent (fun _ => background_inTaskOf _) d caller message
        (fun _ _ hreq => absurd hreq id) fun _ _ hreq => absurd hreq id
  | devIssueCredit caller reservationId amount reason =>
      rw [← Option.some.inj h]
      exact devIssueCredit_inTaskOf d caller reservationId amount reason
  | devGetReservation caller reservationId =>
      rw [← Option.some.inj h]
      exact devGetReservation_inTaskOf d caller reservationId
  | approve caller approvalId note =>
      rw [← Option.some.inj h]
      exact approve_inTaskOf d caller approvalId note
  | deny caller approvalId note =>
      rw [← Option.some.inj h]
      exact issues_deny (fun _ => background_inTaskOf _) caller approvalId note
        fun _ hreq => absurd hreq id

end Calls

/-- In every run of the application every request that is submitted, by whatever
    call, is in a task of an operator who has called in that run. -/
theorem app_on_behalf (d : Deployment) (sched : List (Core.Action AppCall Env)) :
    ∀ th ∈ (appRun d sched).threads, ∀ ev ∈ th.trace, ∀ req, Submits req ev.cmd →
      ∃ caller ∈ (appRun d sched).threads, ∃ operator, caller.call.operator? = some operator ∧
        req.task.initiatedBy = operator.principalId := by
  intro th hth ev hev req hreq
  rcases hoperator : th.call.operator? with _ | operator
  · rcases th with ⟨call, p, tr⟩
    cases call with
    | mcp tool metadata =>
        rcases List.mem_iff_getElem?.mp hth with ⟨i, hget⟩
        have hwalk := Core.exec_walks perform (AppCall.code d) World.empty sched _ hth
        -- An MCP call that submits has been dispatched to a run.
        rcases mcp_shape d tool metadata hwalk with hrefused | ⟨context, hresolves⟩
        · exact absurd hreq ((hrefused.passive ev hev).1 req)
        · rcases resolves_dispatched d sched hget hresolves with ⟨j, operator, pre, hdispatched⟩
          rcases hdispatched.run with ⟨runner, message, hrunner, hcall⟩
          refine ⟨runner, List.mem_of_getElem? hrunner, operator, by rw [hcall]; rfl, ?_⟩
          rcases hdispatched.requests with ⟨front, back, q, rfl, hfront, -, hrequests⟩
          rcases List.mem_append.mp hev with hev | hev
          · exact absurd hreq ((hfront ev hev).1 req)
          · rcases List.mem_cons.mp hev with rfl | hev
            · exact absurd hreq id
            · rw [(hrequests ev hev req hreq).task]
              exact hdispatched.human
    | _ => exact absurd hoperator (by simp only [AppCall.operator?, reduceCtorEq,
        not_false_eq_true])
  · have hwalk := Core.exec_walks perform (AppCall.code d) World.empty sched th hth
    exact ⟨th, hth, operator, hoperator,
      (issues_walks hwalk (endpoint_inTaskOf d operator hoperator)).1 ev hev req hreq⟩

/-- A call of a holder of the scope that decides the approval one way. -/
def Decision (call : AppCall) (approvalId : String) (approved : Bool)
    (human : AuthenticatedHuman) : Prop :=
  human.scopes.contains "asante:approve" = true ∧
    (approved = true ∧ (∃ note, call = .approve human approvalId note) ∨
      approved = false ∧ ∃ note, call = .deny human approvalId note)

/-- If the command decides an approval, it is this one, this way and by this
    human. -/
def DecidesOnly (approvalId : String) (approved : Bool) (human : String) (c : Cmd) : Prop :=
  ∀ other way decidedBy note, c = .decideLocked other way decidedBy note →
    other = approvalId ∧ way = approved ∧ decidedBy = human

/-- The command decides no approval. -/
def NoDecision (c : Cmd) : Prop :=
  ∀ other way decidedBy note, c ≠ .decideLocked other way decidedBy note

theorem background_noDecision {c : Cmd} (h : background c = true) : NoDecision c := by
  intro other way decidedBy note hc
  rw [hc] at h
  exact absurd h Bool.noConfusion

theorem noDecision_only {approvalId human : String} {approved : Bool} {c : Cmd}
    (h : NoDecision c) : DecidesOnly approvalId approved human c :=
  fun other way decidedBy note hc => absurd hc (h other way decidedBy note)

section Deciding

variable (d : Deployment)

theorem tool_noDecision (call : ToolCall) : Issues NoDecision (call.code d) := by
  refine issues_tool (fun _ => background_noDecision) d call (fun now => ?_) fun c hc => ?_
  · exact ⟨fun _ _ _ _ h => Cmd.noConfusion h, fun _ _ _ _ _ h => Cmd.noConfusion h⟩
  · intro other way decidedBy note h
    rw [h] at hc
    cases call with
    | issueCredit retryPolicy reservationId amount reason task chain => exact Cmd.noConfusion hc
    | requestGuestCredit reservationId amount reason task chain =>
        rcases hc with ⟨_, hc⟩
        exact Cmd.noConfusion hc
    | executeApproved approval task chain =>
        rcases hc with hc | ⟨_, hc⟩
        · exact Cmd.noConfusion hc
        · exact Cmd.noConfusion hc
    | _ => exact hc

/-- Approving decides only the approval called for, as its caller. -/
theorem approve_decides (operator : AuthenticatedHuman) (approvalId : String)
    (note : Option String) :
    Issues (DecidesOnly approvalId true operator.principalId)
      (approveCreditRequest d operator approvalId note) := by
  have hquiet : ∀ c, background c = true →
      DecidesOnly approvalId true operator.principalId c :=
    fun _ hc => noDecision_only (background_noDecision hc)
  refine issues_validated (issues_bind _ _ (issues_ofExcept _) fun _ => ?_)
  refine issues_bind _ _ (issues_decideApproved hquiet operator approvalId note ?_)
    fun decided => ?_
  · intro other way decidedBy note' hc
    rcases Cmd.decideLocked.inj hc with ⟨h₁, h₂, h₃, -⟩
    exact ⟨h₁.symm, h₂.symm, h₃.symm⟩
  · split
    · trivial
    · refine issues_bind _ _ (issues_openTask hquiet _ _ _) fun task => ?_
      refine issues_bind _ _ (issues_approvalExecutor hquiet d _ _) fun chain => ?_
      refine issues_bind _ _ (issues_mono (fun _ => noDecision_only)
        (tool_noDecision d (.executeApproved _ task chain))) fun _ => ?_
      exact issues_bind _ _ (issues_orRaise (issues_ask (hquiet _ rfl))) fun _ => trivial

theorem deny_decides (operator : AuthenticatedHuman) (approvalId : String)
    (note : Option String) :
    Issues (DecidesOnly approvalId false operator.principalId)
      (denyCreditRequest operator approvalId note) := by
  refine issues_deny (fun _ hc => noDecision_only (background_noDecision hc)) operator approvalId
    note fun other way decidedBy note' hc => ?_
  rcases Cmd.decideLocked.inj hc with ⟨h₁, h₂, h₃, -⟩
  exact ⟨h₁.symm, h₂.symm, h₃.symm⟩

/-- Nothing is done for a caller without the scope. -/
theorem scope_of_walks {operator : AuthenticatedHuman} {valid : Bool} {p : App Response}
    {t : List AppEvent} {q : App Response}
    (hw : Walks (validated valid
      ((Core.Prog.ofExcept (requireApprovalScope operator) : App Unit) >>= fun _ => p)) t q)
    {ev : AppEvent} (hev : ev ∈ t) : operator.scopes.contains "asante:approve" = true := by
  by_contra hscope
  have hnil : t = [] := by
    unfold validated requireApprovalScope at hw
    rw [if_neg hscope] at hw
    split at hw
    · exact (walks_fail hw).1
    · exact (walks_fail hw).1
  rw [hnil] at hev
  exact absurd hev List.not_mem_nil

/-- A decision on a walk of a call is a decision of its caller. -/
theorem walks_decision {call : AppCall} {t : List AppEvent} {q : App Response}
    (hw : Walks (call.code d) t q) {ev : AppEvent} (hev : ev ∈ t) {approvalId decidedBy : String}
    {approved : Bool} {note : Option String}
    (hcmd : ev.cmd = .decideLocked approvalId approved decidedBy note) :
    ∃ human, Decision call approvalId approved human ∧ decidedBy = human.principalId := by
  have hnever : ¬ Issues NoDecision (call.code d) := fun h =>
    (issues_walks hw h).1 ev hev _ _ _ _ hcmd
  cases call with
  | runAgent operator message =>
      exact absurd (issues_runAgent (fun _ => background_noDecision) d operator message
        (fun _ _ _ _ _ h => Cmd.noConfusion h) fun _ _ _ _ _ h => Cmd.noConfusion h) hnever
  | mcp tool metadata =>
      have hcall : Issues NoDecision (tool.call d metadata >>= fun resp =>
          (pure (Response.body resp) : App Response)) :=
        issues_bind _ _ (issues_mcp d (fun _ => background_noDecision) tool metadata
          fun context => tool_noDecision d _) fun _ => trivial
      exact absurd hcall hnever
  | devIssueCredit operator reservationId amount reason =>
      exact absurd (issues_devIssueCredit d (fun _ => background_noDecision) operator reservationId
        amount reason fun task chain => tool_noDecision d _) hnever
  | devGetReservation operator reservationId =>
      exact absurd (issues_devGetReservation (fun _ => background_noDecision) d operator
        reservationId fun req => ⟨fun _ _ _ _ h => Cmd.noConfusion h,
          fun _ _ _ _ _ h => Cmd.noConfusion h⟩) hnever
  | approve operator called note' =>
      rcases (issues_walks hw (approve_decides d operator called note')).1 ev hev _ _ _ _ hcmd with
        ⟨rfl, rfl, rfl⟩
      exact ⟨operator, ⟨scope_of_walks hw hev, Or.inl ⟨rfl, note', rfl⟩⟩, rfl⟩
  | deny operator called note' =>
      rcases (issues_walks hw (deny_decides operator called note')).1 ev hev _ _ _ _ hcmd with
        ⟨rfl, rfl, rfl⟩
      exact ⟨operator, ⟨scope_of_walks hw hev, Or.inr ⟨rfl, note', rfl⟩⟩, rfl⟩

end Deciding

/-- The decisions a table holds: the approval, whether it was granted, and the
    human. -/
def decisions (table : ApprovalTable) : List (String × Bool × String) :=
  table.filterMap fun row => row.decidedBy.map (row.approvalId, decide (row.status ≠ .denied), ·)

theorem mem_decisions {table : ApprovalTable} {approvalId human : String} {granted : Bool} :
    (approvalId, granted, human) ∈ decisions table ↔ ∃ row ∈ table, row.approvalId = approvalId ∧
      decide (row.status ≠ .denied) = granted ∧ row.decidedBy = some human := by
  unfold decisions
  rw [List.mem_filterMap]
  refine exists_congr fun row => and_congr Iff.rfl ?_
  rw [Option.map_eq_some_iff]
  constructor
  · rintro ⟨decidedBy, hby, heq⟩
    rcases Prod.mk.inj heq with ⟨hid, heq⟩
    rcases Prod.mk.inj heq with ⟨hgranted, rfl⟩
    exact ⟨hid, hgranted, hby⟩
  · rintro ⟨hid, hgranted, hby⟩
    exact ⟨human, hby, by rw [hid, hgranted]⟩

/-- A decision in the table was there before, or is taken by the step. -/
theorem perform_decisions (c : Cmd) (env : Env) (w : World) (hw : WellFormed w.approvals) :
    ∀ decision ∈ decisions (perform c env w).2.approvals, decision ∈ decisions w.approvals ∨
      ∃ note, c = .decideLocked decision.1 decision.2.1 decision.2.2 note := by
  rintro ⟨approvalId, granted, human⟩ hdecision
  rcases mem_decisions.mp hdecision with ⟨row, hrow, hid, hgranted, hby⟩
  have hold : row ∈ w.approvals → (approvalId, granted, human) ∈ decisions w.approvals :=
    fun hmem => mem_decisions.mpr ⟨row, hmem, hid, hgranted, hby⟩
  rcases perform_approvals c env w with hsame | ⟨r, rfl, hcreate⟩ |
    ⟨called, approved, decidedBy, note, rfl, hdecide⟩ | ⟨called, result, rfl, hmark⟩
  · rw [hsame] at hrow
    exact Or.inl (hold hrow)
  · rw [hcreate] at hrow
    rcases createCreditRequest_cases env.nowText env.uuid r w.approvals with
      ⟨_, _, hans⟩ | ⟨_, _, hans⟩ | ⟨_, _, hans⟩
    · rw [hans] at hrow
      exact Or.inl (hold hrow)
    · rw [hans] at hrow
      rcases List.mem_append.mp hrow with hmem | hnew
      · exact Or.inl (hold hmem)
      · -- The new row is decided by nobody.
        rw [List.mem_singleton.mp hnew] at hby
        exact absurd hby (by simp only [newRow, reduceCtorEq, not_false_eq_true])
    · rw [hans] at hrow
      exact Or.inl (hold hrow)
  · rw [hdecide] at hrow
    rcases decideLocked_cases env.nowText called decidedBy approved note w.approvals with
      ⟨_, _, hans⟩ | ⟨_, _, _, hans⟩ | ⟨_, _, _, hans⟩
    · rw [hans] at hrow
      exact Or.inl (hold hrow)
    · rw [hans] at hrow
      exact Or.inl (hold hrow)
    · rw [hans, updateDecision_eq] at hrow
      rcases updateRow_origin hrow with ⟨hmem, -⟩ | ⟨old, -, hcalled, rfl⟩
      · exact Or.inl (hold hmem)
      · -- The row that was decided just now, this way.
        refine Or.inr ⟨note, ?_⟩
        have hway : approved = granted := by
          rw [← hgranted]
          cases approved <;> rfl
        rw [hway, ← hid, ← Option.some.inj hby, ← hcalled]
  · refine Or.inl ?_
    rw [hmark] at hrow
    rcases markExecutedLocked_cases env.nowText called result w.approvals with
      ⟨_, _, hans⟩ | ⟨_, _, _, hans⟩ | ⟨found, hsel, happroved, hans⟩
    · rw [hans] at hrow
      exact hold hrow
    · rw [hans] at hrow
      exact hold hrow
    · rw [hans, updateExecuted_eq] at hrow
      rcases updateRow_origin hrow with ⟨hmem, -⟩ | ⟨old, hmem, hcalled, rfl⟩
      · exact hold hmem
      · -- Only an approved row is executed, and it stays decided as it was.
        have hfound : old = found := eq_of_id hw.ids hmem (selectById_some hsel).1
          (hcalled.trans (selectById_some hsel).2.symm)
        refine mem_decisions.mpr ⟨old, hmem, hid, ?_, hby⟩
        rw [← hgranted, hfound, happroved]
        rfl

/-- In every run of the application, a row that names a human was decided by a
    call of that human, a holder of the scope, for this approval and this way. -/
theorem app_decided (d : Deployment) (sched : List (Core.Action AppCall Env)) :
    ∀ row ∈ (appRun d sched).world.approvals, ∀ decidedBy, row.decidedBy = some decidedBy →
      ∃ th ∈ (appRun d sched).threads, ∃ human,
        Decision th.call row.approvalId (row.status ≠ .denied) human ∧
          decidedBy = human.principalId ∧
          ∃ ev ∈ th.trace, ∃ note,
            ev.cmd = .decideLocked row.approvalId (row.status ≠ .denied) decidedBy note := by
  intro row hrow decidedBy hby
  rcases Core.exec_origin_under perform (AppCall.code d) (fun w => WellFormed w.approvals)
    (fun w => decisions w.approvals)
    (fun c decision => ∃ note, c = .decideLocked decision.1 decision.2.1 decision.2.2 note)
    (fun c env w hw => wellFormed_step hw (perform_table hw c env)) perform_decisions
    (w := World.empty) wellFormed_nil rfl sched _ (mem_decisions.mpr ⟨row, hrow, rfl, rfl, hby⟩)
    with ⟨i, ev, hev, note, hcmd⟩
  rcases (Core.exec_events perform (AppCall.code d) World.empty sched i ev).mp hev with
    ⟨th, hget, hmem⟩
  have hth := List.mem_of_getElem? hget
  -- The event is in the trace of the call that decided.
  rcases walks_decision d (Core.exec_walks perform (AppCall.code d) World.empty sched th hth)
    hmem hcmd with ⟨human, hdecision, hhuman⟩
  exact ⟨th, hth, human, hdecision, hhuman, ev, hmem, note, hcmd⟩

end Asante
