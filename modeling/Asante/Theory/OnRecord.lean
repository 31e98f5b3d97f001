import Asante.Theory.Executions
import Asante.Theory.Outcomes

/-!
# The Human on Record

Who an approved credit is executed under, and who its row names.

An approval is decided once. `decide` returns the row as it is when it is approved
already, so a call that finds it approved goes on to execute it, with a task and a
grant of its own caller. The row keeps naming the human who decided it first. The
two are the same human exactly when the call decided the row itself, or found it
decided by its own caller; after an execution that was refused or failed, another
holder of the scope may be the one to execute.

## Main definitions

* `writesFor`: The approval whose credit a command writes.
* `ExecutedUnder`: The human of the task and of the grant of an execution.
* `DecidedAs`: The caller is who decided.

## Theorems

* `execution_under`: An execution is under its caller, a holder of the scope.
* `executor_on_record`: When the row names the human it is executed under.
* `second_approver_executes`: A run in which it names another.
-/

namespace Asante

open Core.Prog

/-- The approval whose credit the command writes. -/
def writesFor : Cmd → Option String
  | .ledgerIssue (.approvedExecutor approvalId) _ _ => some approvalId
  | _ => none

/-- Ruhusa has admitted one request by then, for an approved credit. The human
    initiated its task and is the grantor of its only grant. -/
def ExecutedUnder (pre : List AppEvent) (human : String) : Prop :=
  (∃ req permit, Admitted pre req permit) ∧ ∀ req permit, Admitted pre req permit →
    req.action = approvedCreditAction ∧ req.task.initiatedBy = human ∧
      ∃ grant, req.delegationChain = [grant] ∧ grant.grantorId = human ∧
        grant.taskId = req.task.taskId

/-- The call has decided the approval, or has found it decided by its caller. -/
def DecidedAs (tr : List AppEvent) (operator : AuthenticatedHuman) (approvalId : String)
    (note : Option String) : Prop :=
  ∃ r, (⟨.decideLocked approvalId true operator.principalId note, .ok r⟩ : AppEvent) ∈ tr ∧
    (r = none ∨ ∃ current, r = some current ∧ current.decidedBy = some operator.principalId)

theorem writesFor_executing {c : Cmd} {approvalId : String} (h : writesFor c = some approvalId) :
    executing c = true := by
  cases c with
  | ledgerIssue writer credit key =>
      cases writer with
      | approvedExecutor other => rfl
      | issueCredit taskId => exact absurd h (by simp only [writesFor, reduceCtorEq,
          not_false_eq_true])
  | _ => exact absurd h (by simp only [writesFor, reduceCtorEq, not_false_eq_true])

/-- A request begun in an opening is the one it was opened with. -/
theorem gateTrace_begin {now : Int} {req other : Request} {adm adm' : Admission} {permit : Permit}
    {live : Revalidation}
    (h : (⟨.begin other, .ok adm'⟩ : AppEvent) ∈ gateTrace now req adm permit live) :
    other = req := by
  simp only [gateTrace, admissionTrace, List.cons_append, List.nil_append, List.mem_cons,
    List.not_mem_nil, or_false, Core.Event.mk.injEq, reduceCtorEq, false_and, false_or] at h
  exact Cmd.begin.inj h.1

/-- The one request of an execution is admitted before its ledger call. -/
theorem executing_under {d : Deployment} {record : ApprovalRecord} {task : TaskContext}
    {grant : DelegationGrant} {t pre post : List AppEvent} {o : Option (Except Exc PyDict)}
    (h : Executing d record task [grant] t o) (hgrantor : grant.grantorId = task.initiatedBy)
    (htask : grant.taskId = task.taskId) {ev : AppEvent} {approvalId : String}
    (ht : t = pre ++ ev :: post) (hev : writesFor ev.cmd = some approvalId) :
    approvalId = record.approvalId ∧ ExecutedUnder pre task.initiatedBy := by
  rcases h with ⟨-, before, now, adm, permit, live, answer, after, hbefore, hallowed, hpermit,
    hlive, htrace, hmarks, -⟩
  rw [ht, ← List.append_assoc] at htrace
  have hexec := writesFor_executing hev
  -- Nothing before the ledger call executes, and what executes after it only marks the row.
  have hgate : ev ∉ before ++ gateTrace now (approvedRequest d record task [grant] now) adm permit
      live := by
    intro hmem
    rcases List.mem_append.mp hmem with hmem | hmem
    · rw [(hbefore ev hmem).1] at hexec
      exact Bool.noConfusion hexec
    · rw [asking_unexecuting (gateTrace_asking hmem)] at hexec
      exact Bool.noConfusion hexec
  have hafter : ev ∉ after := by
    intro hmem
    rcases hmarks ev hmem hexec with ⟨resp, -, hcmd⟩
    rw [hcmd] at hev
    exact absurd hev (by simp only [writesFor, reduceCtorEq, not_false_eq_true])
  rcases (List.append_cons_inj_of_notMem hgate hafter).mp htrace.symm with ⟨rfl, rfl, -⟩
  refine ⟨(Option.some.inj hev).symm, ⟨approvedRequest d record task [grant] now, permit,
    before ++ [⟨.now, now⟩], [], [], adm, live, ?_, hallowed, hpermit, hlive⟩,
    fun req other hadmitted => ?_⟩
  · simp only [gateTrace, admissionTrace, List.append_assoc, List.cons_append, List.nil_append]
  · rcases hadmitted with ⟨a, b, c, adm', live', htr, -⟩
    have hbegin : (⟨.begin req, .ok adm'⟩ : AppEvent) ∈ before ++
        gateTrace now (approvedRequest d record task [grant] now) adm permit live := by
      rw [htr]
      exact List.mem_append_right a List.mem_cons_self
    rcases List.mem_append.mp hbegin with hmem | hmem
    · exact absurd rfl ((hbefore _ hmem).2 req)
    · rw [gateTrace_begin hmem]
      exact ⟨rfl, rfl, grant, rfl, hgrantor, htask⟩

/-- An execution is under its caller, who holds the scope, whatever Ruhusa answers
    and whatever fails. -/
theorem execution_under (d : Deployment) (sched : List (Core.Action AppCall Env))
    {th : Core.Thread AppCall Cmd Cmd.Answer Exc Response} (hth : th ∈ (appRun d sched).threads)
    {pre post : List AppEvent} {ev : AppEvent} {approvalId : String}
    (ht : th.trace = pre ++ ev :: post) (hev : writesFor ev.cmd = some approvalId) :
    ∃ operator note, th.call = .approve operator approvalId note ∧
      operator.scopes.contains "asante:approve" = true ∧
      ExecutedUnder pre operator.principalId ∧
      ∃ record, Decides th.trace operator approvalId note record := by
  have hwalk := Core.exec_walks perform (AppCall.code d) World.empty sched th hth
  have hmem : ev ∈ th.trace := by
    rw [ht]
    exact List.mem_append_right pre List.mem_cons_self
  have hexec := writesFor_executing hev
  rcases app_executes hwalk hmem hexec with ⟨operator, called, note, hcall⟩
  rw [hcall] at hwalk
  rcases walks_approve hwalk hmem hexec with ⟨hscope, record, task, grant, o, hdecides, hhuman,
    hgrantor, htask, hexecuting, -⟩
  rcases executing_under hexecuting (hgrantor.trans hhuman.symm) htask ht hev with
    ⟨rfl, hunder⟩
  rw [hhuman] at hunder
  -- The record is a copy of the row that was called for.
  rcases Core.exec_recorded perform (AppCall.code d) World.empty sched hth with ⟨i, hrecorded⟩
  have hcopies := decides_copies (open_sound d sched) hrecorded hdecides
  rw [copies_approvalId hcopies]
  exact ⟨operator, note, hcall, hscope, hunder, record, hdecides⟩

/-- The terms that ask nothing but who may approve. -/
def approverTerms (approver : String → String → Prop) : Terms :=
  { openTerms with
    approver := approver
    directAllowed := fun _ _ _ _ _ _ _ _ _ => trivial
    requestAllowed := fun _ _ _ _ _ _ _ _ _ => trivial
    smooth := fun _ h => h.elim }

/-- A holder of the scope has called for the approval in the schedule. -/
def Called (sched : List (Core.Action AppCall Env)) (approvalId human : String) : Prop :=
  ∃ operator note, Core.Action.spawn (.approve operator approvalId note) ∈ sched ∧
    operator.scopes.contains "asante:approve" = true ∧ human = operator.principalId

theorem called_sound (d : Deployment) (sched : List (Core.Action AppCall Env)) :
    (provenanceDiscipline (approverTerms (Called sched)) d).sys.Sound
      (MayCall (approverTerms (Called sched))) (AppPost (approverTerms (Called sched)))
      (appRun d sched) := by
  have hcalls : ∀ call, Core.Action.spawn call ∈ sched →
      MayCall (approverTerms (Called sched)) call := by
    refine fun call hcall => mayCall_of_dead (fun _ => id)
      fun operator approvalId note heq hscope => ⟨operator, note, ?_, hscope, rfl⟩
    rw [← heq]
    exact hcall
  exact (app_sound (approverTerms (Called sched)) d (provenance_empty _ d fun _ => id) sched
    ((provenanceDiscipline (approverTerms (Called sched)) d).sys.conforms_of_forall
      (fun _ => True) (fun _ _ _ _ => trivial) sched hcalls (fun _ _ _ => trivial) _)).1

/-- In every run, whatever Ruhusa answers, whatever fails and whoever repeats an
    approval: a credit is executed for an approval under a task and a grant of the
    caller, a holder of the scope. The row names a holder of the scope who called
    for its approval, and it names the caller exactly when the call has decided the
    row itself or has found it decided by its caller. -/
theorem executor_on_record (d : Deployment) (sched : List (Core.Action AppCall Env)) :
    ∀ th ∈ (appRun d sched).threads, ∀ pre ev post approvalId,
      th.trace = pre ++ ev :: post → writesFor ev.cmd = some approvalId →
      ∃ operator note, th.call = .approve operator approvalId note ∧
        operator.scopes.contains "asante:approve" = true ∧
        ExecutedUnder pre operator.principalId ∧
        ∃ row ∈ (appRun d sched).world.approvals, row.approvalId = approvalId ∧
          (∃ human, row.decidedBy = some human ∧ Called sched approvalId human) ∧
          (row.decidedBy = some operator.principalId ↔
            DecidedAs th.trace operator approvalId note) := by
  intro th hth pre ev post approvalId ht hev
  rcases execution_under d sched hth ht hev with
    ⟨operator, note, hcall, hscope, hunder, record, hdecides⟩
  refine ⟨operator, note, hcall, hscope, hunder, ?_⟩
  have hsound := called_sound d sched
  rcases Core.exec_recorded perform (AppCall.code d) World.empty sched hth with ⟨i, hrecorded⟩
  have hdecided : ∃ r, (⟨.decideLocked approvalId true operator.principalId note, .ok r⟩ :
      AppEvent) ∈ th.trace :=
    hdecides.elim (fun hsome => ⟨some record, hsome⟩) fun hnone => ⟨none, hnone.1⟩
  rcases hdecided with ⟨r, hr⟩
  rcases decided_kept hsound (hrecorded _ hr) with ⟨row, hrow, hid, hgranted, hnone, hsome⟩
  refine ⟨row, hrow, hid, ?_, fun hcaller => ⟨r, hr, ?_⟩, ?_⟩
  · rcases (hsound.world.rows row hrow).approver hgranted with ⟨human, hhuman, hcalled⟩
    rw [hid] at hcalled
    exact ⟨human, hhuman, hcalled⟩
  · cases r with
    | none => exact Or.inl rfl
    | some current => exact Or.inr ⟨current, rfl, (hsome current rfl).1.symm.trans hcaller⟩
  · rintro ⟨r', hr', hcaller⟩
    -- Any decision of the call that was answered is about this row.
    rcases decided_kept hsound (hrecorded _ hr') with ⟨row', hrow', hid', -, hnone', hsome'⟩
    rw [eq_of_id hsound.world.table.ids hrow hrow' (hid.trans hid'.symm)]
    rcases hcaller with hself | ⟨current, hcurrent, hsame⟩
    · exact hnone' hself
    · exact (hsome' current hcurrent).1.trans hsame

/-- The request is approved and executed by one human. -/
theorem executor_on_record_sample :
    ∃ row ∈ (appRun .sample (approveSchedule .granting)).world.approvals,
      row.approvalId = "approval:7f" ∧
      ∃ human, row.decidedBy = some human ∧
        Called (approveSchedule .granting) "approval:7f" human := by
  have hwrites : (appRun .sample (approveSchedule .granting)).threads.any (fun th =>
      th.trace.any fun ev => writesFor ev.cmd = some "approval:7f") = true := by
    decide +kernel
  rcases List.any_eq_true.mp hwrites with ⟨th, hth, hany⟩
  rcases List.any_eq_true.mp hany with ⟨ev, hmem, hev⟩
  rcases List.append_of_mem hmem with ⟨pre, post, ht⟩
  rcases executor_on_record .sample (approveSchedule .granting) th hth pre ev post "approval:7f" ht
    (of_decide_eq_true hev) with ⟨_, _, _, _, _, row, hrow, hid, hhuman, _⟩
  exact ⟨row, hrow, hid, hhuman⟩

/-- Another human who may approve. -/
def secondApprover : AuthenticatedHuman :=
  { principalId := "oauth:https://dev.asante.local#amina", scopes := ["asante:approve"] }

/-- Ruhusa refuses the execution of the first approval, and the second goes
    through. -/
def repeatedSchedule : List (Core.Action AppCall Env) :=
  requestSchedule .granting ++ .spawn (.approve sampleApprover "approval:7f" none) ::
    List.replicate 16 (.advance 2 .refusing) ++
    .spawn (.approve secondApprover "approval:7f" none) ::
    List.replicate 16 (.advance 3 .granting)

/-- The credit is executed under the second human, and the row names the first. -/
theorem second_approver_executes :
    ¬ ∀ (d : Deployment) (sched : List (Core.Action AppCall Env)),
      ∀ th ∈ (appRun d sched).threads, ∀ pre ev post approvalId,
      th.trace = pre ++ ev :: post → writesFor ev.cmd = some approvalId →
      ∀ req permit, Admitted pre req permit →
      ∀ row ∈ (appRun d sched).world.approvals, row.approvalId = approvalId →
        row.decidedBy = some req.task.initiatedBy ∧
          ∀ grant ∈ req.delegationChain, row.decidedBy = some grant.grantorId := by
  intro h
  have hrows : (appRun .sample repeatedSchedule).world.approvals.map
      (fun row => (row.approvalId, row.decidedBy)) =
        [("approval:7f", some sampleApprover.principalId)] := by
    decide +kernel
  have hwrites : (appRun .sample repeatedSchedule).threads.any (fun th =>
      th.trace.any fun ev => writesFor ev.cmd = some "approval:7f") = true := by
    decide +kernel
  have hcaller : (appRun .sample repeatedSchedule).threads.all (fun th =>
      !(th.trace.any fun ev => writesFor ev.cmd = some "approval:7f") ||
        match th.call with
        | .approve operator _ _ => operator = secondApprover
        | _ => false) = true := by
    decide +kernel
  rcases List.any_eq_true.mp hwrites with ⟨th, hth, hany⟩
  rcases List.any_eq_true.mp hany with ⟨ev, hmem, hev⟩
  rcases List.append_of_mem hmem with ⟨pre, post, ht⟩
  rcases execution_under .sample repeatedSchedule hth ht (of_decide_eq_true hev) with
    ⟨operator, note, hcall, -, ⟨⟨req, permit, hadmitted⟩, hunder⟩, -⟩
  -- The only call that writes is the second human's.
  have hsecond := List.all_eq_true.mp hcaller th hth
  rw [hany, hcall, Bool.not_true, Bool.false_or] at hsecond
  have hmember : ("approval:7f", some sampleApprover.principalId) ∈
      (appRun .sample repeatedSchedule).world.approvals.map
        fun row => (row.approvalId, row.decidedBy) := by
    rw [hrows]
    exact List.mem_singleton.mpr rfl
  rcases List.mem_map.mp hmember with ⟨row, hrow, hpair⟩
  rcases Prod.mk.inj hpair with ⟨hid, hdecidedBy⟩
  have hsame := (h .sample repeatedSchedule th hth pre ev post "approval:7f" ht
    (of_decide_eq_true hev) req permit hadmitted row hrow hid).1
  rw [hdecidedBy, (hunder req permit hadmitted).2.1, of_decide_eq_true hsecond] at hsame
  exact absurd (Option.some.inj hsame) (by decide +kernel)

end Asante
