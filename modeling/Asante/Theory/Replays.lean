import Asante.Theory.Executions
import Asante.Theory.Outcomes

/-!
# Replays of Executed Approvals

What is answered about an approval that has been executed, by the call that
executed it and by every later one.

An attempt is a call of the application, or a call of the executor with the record
as the store holds it then. Whatever attempts there have been, with whatever
failures, the result an executed row holds is what its marking call has answered
with: the credit of the row, as the ledger appended it or found it, extended by the
approval and the policy. The two replays are computed from the row alone, so they
retell that result wherever the table is opened next.

## Main definitions

* `Attempt`, `attemptRun`: Attempts, and runs of any number of them.
* `Told`: The result of an execution of the row.
* `Retells`: A replay tells what was told, as deduplicated.

## Theorems

* `attempt_executes`: What an attempt has executed is a copy of a row.
* `perform_approvals`: What a command does to the approvals.
* `marked_told`: What a row is marked with is the result of its execution, and
  what the marking call answers.
* `executed_stays`: An executed row stays as it is, in every further run.
* `replays_agree`: All replays tell the same story.
-/

namespace Asante

open Core.Prog Core.KeyedLog

/-- An attempt to execute, or any other call of the application. -/
inductive Attempt where
  | app (entry : AppCall)
  | execute (approvalId : String) (task : TaskContext) (chain : List DelegationGrant)

/-- The program of an attempt. -/
def Attempt.code (d : Deployment) : Attempt → App Response
  | app entry => entry.code d
  | execute approvalId task chain => do
    let record ← orRaise (ask (.requireRecord approvalId))
    let result ← executeApproved d record task chain
    return .body result

/-- The approval an attempt is to execute. -/
def Attempt.about : Attempt → Option String
  | app (.approve _ approvalId _) => some approvalId
  | app _ => none
  | execute approvalId _ _ => some approvalId

/-- The endpoint lets the caller in. -/
def Attempt.Admissible : Attempt → Prop
  | app (.approve operator _ note) =>
    operator.scopes.contains "asante:approve" = true ∧ validNote note = true
  | _ => True

/-- What an attempt tells of an executed row. -/
def Attempt.replay (row : ApprovalRow) : Attempt → PyDict
  | app _ => repeatedExecution (fromRow row)
  | execute _ _ _ => replayExecuted (fromRow row)

/-- A run of attempts from a world with nothing recorded. -/
def attemptRun (d : Deployment) (sched : List (Core.Action Attempt Env)) :
    Core.Config Attempt Cmd Cmd.Answer Exc Response World :=
  (Core.Config.start World.empty).exec perform (Attempt.code d) sched

/-- What is answered about an execution. -/
def Response.execution : Response → Option PyDict
  | approvalExecution _ execution => some execution
  | body fields => some fields
  | approvalRecord _ => none

/-- The credit a row asks for. -/
def ApprovalRow.credit (row : ApprovalRow) : Credit :=
  ⟨row.reservationId, row.amount, row.reason⟩

/-- The result of an execution of the row. -/
def Told (row : ApprovalRow) (story : PyDict) : Prop :=
  ∃ deduplicated policyId,
    story = executedResult row.credit deduplicated row.approvalId policyId

/-- The replay is about the row, tells what was told, and says so. -/
structure Retells (row : ApprovalRow) (story replay : PyDict) : Prop where
  deduplicated : replay.get? "deduplicated" = some (.bool true)
  status : replay.get? "status" = some (.str "issued")
  reservation : replay.get? "reservation_id" = some (.str row.reservationId)
  amount : replay.get? "amount" = some (.num row.amount)
  reason : replay.get? "reason" = some (.str row.reason)
  approval : replay.get? "approval_id" = some (.str row.approvalId)
  same : ∀ key, key ≠ "deduplicated" → replay.get? key = story.get? key

section Told

variable {row : ApprovalRow} {story : PyDict}

theorem told_get? (h : Told row story) : story.get? "status" = some (.str "issued") ∧
    story.get? "reservation_id" = some (.str row.reservationId) ∧
    story.get? "amount" = some (.num row.amount) ∧ story.get? "reason" = some (.str row.reason) ∧
    story.get? "approval_id" = some (.str row.approvalId) := by
  rcases h with ⟨deduplicated, policyId, rfl⟩
  exact ⟨rfl, rfl, rfl, rfl, rfl⟩

/-- A replay that differs from what was told on the flag at most retells it. -/
theorem retells_of_same (h : Told row story) {replay : PyDict}
    (hdeduplicated : replay.get? "deduplicated" = some (.bool true))
    (hsame : ∀ key, key ≠ "deduplicated" → replay.get? key = story.get? key) :
    Retells row story replay := by
  rcases told_get? h with ⟨hstatus, hreservation, hamount, hreason, happroval⟩
  exact ⟨hdeduplicated, (hsame _ (by decide)).trans hstatus,
    (hsame _ (by decide)).trans hreservation, (hsame _ (by decide)).trans hamount,
    (hsame _ (by decide)).trans hreason, (hsame _ (by decide)).trans happroval, hsame⟩

variable (hstored : row.executionResultJson = some ⟨story⟩)

include hstored

theorem stored_result : (fromRow row).executionResult.getD [] = story := by
  change (row.executionResultJson.map jsonLoads).getD [] = story
  rw [hstored]
  rfl

/-- What a repeated approval reports retells the stored result. -/
theorem repeated_retells (h : Told row story) :
    Retells row story (repeatedExecution (fromRow row)) := by
  unfold repeatedExecution
  rw [stored_result hstored]
  refine retells_of_same h ?_ fun key hkey => ?_
  · exact PyDict.get?_set_self story _ _
  · exact PyDict.get?_set_other story _ key _ hkey

/-- What the executor returns for an executed record retells the stored result:
    the status and the identifier it writes over it are the ones it has. -/
theorem replay_retells (h : Told row story) :
    Retells row story (replayExecuted (fromRow row)) := by
  unfold replayExecuted
  rw [stored_result hstored]
  rcases told_get? h with ⟨hstatus, -, -, -, happroval⟩
  refine retells_of_same h ?_ fun key hkey => ?_
  · exact PyDict.get?_set_self _ _ _
  · unfold PyDict.merge
    simp only [List.foldl_cons, List.foldl_nil, PyDict.get?_set, if_neg hkey]
    by_cases hid : key = "approval_id"
    · rw [if_pos hid, hid, happroval]
      rfl
    · rw [if_neg hid]
      by_cases hissued : key = "status"
      · rw [if_pos hissued, hissued, hstatus]
      · rw [if_neg hissued]

end Told

section Attempts

variable {d : Deployment}

/-- How an attempt ends. -/
def Attempt.Post : Attempt → Except Exc Response → World → Prop
  | app entry => AppPost openTerms entry
  | execute _ _ _ => fun _ _ => True

theorem attempt_stable (d : Deployment) (attempt : Attempt) :
    (provenanceDiscipline openTerms d).sys.Stable attempt.Post := by
  cases attempt with
  | app entry => exact appPost_stable openTerms d entry
  | execute approvalId task chain => exact fun _ _ _ _ _ => trivial

/-- The executor keeps the provenance of credits on a record as the store holds
    it, whatever its status. -/
theorem attempt_safe (d : Deployment) (attempt : Attempt) (w : World)
    (hinv : Provenance openTerms d w) :
    (provenanceDiscipline openTerms d).sys.Safe attempt.Post (attempt.code d) w := by
  cases attempt with
  | app entry => exact app_safe openTerms d entry (mayCall_open entry) w hinv
  | execute approvalId task chain =>
      refine Core.Discipline.safe_bind _ _ _ _ _ (safe_requireRecord
        (fun v row _ hinvv hrow hid => ?_) fun _ _ _ _ => trivial)
      by_cases hgranted : row.Granted
      · refine Core.Discipline.safe_bind _ _ _ _ _ (Core.Discipline.safe_mono _ (fun r _ _ => ?_)
          _ _ (safe_executeApproved hinvv ⟨row, rfl, hid, hgranted, row, hrow, continues_refl row⟩
            task chain))
        cases r with
        | ok execution => trivial
        | error e => trivial
      · -- A record that is neither approved nor executed is blocked.
        have hblocked : executeApproved d (fromRow row) task chain =
            done (blocked "deny" s!"approval is {row.status.text}; expected approved") :=
          (if_neg fun hs => hgranted (Or.inr hs)).trans (if_neg fun hs => hgranted (Or.inl hs))
        dsimp only
        rw [hblocked]
        trivial

theorem attempt_sound (d : Deployment) (sched : List (Core.Action Attempt Env)) :
    (provenanceDiscipline openTerms d).sys.Sound (fun _ => True) Attempt.Post
      (attemptRun d sched) :=
  ((provenanceDiscipline openTerms d).sys.exec_sound (attempt_stable d)
    (fun attempt _ => attempt_safe d attempt) sched _
    ((provenanceDiscipline openTerms d).sys.start_sound
      (provenance_empty openTerms d fun _ => id))
    ((provenanceDiscipline openTerms d).sys.conforms_of_forall (fun _ => True)
      (fun _ _ _ h => h) sched (fun _ _ => trivial) (fun _ _ _ => trivial) _)).1

/-- What an attempt has executed is a copy of a row, and what it answers is what
    the execution returned. -/
theorem attempt_executes (sched : List (Core.Action Attempt Env))
    {th : Core.Thread Attempt Cmd Cmd.Answer Exc Response}
    (hth : th ∈ (attemptRun d sched).threads) {ev : AppEvent} (hev : ev ∈ th.trace)
    (hexec : executing ev.cmd = true) :
    ∃ record task chain o, Copies (attemptRun d sched).world record.approvalId record ∧
      Executing d record task chain th.trace o ∧
      ∀ resp, th.rest = done resp → ∃ payload, resp.execution = some payload ∧
        o = some (.ok payload) := by
  have hsound := attempt_sound d sched
  have hwalk := Core.exec_walks perform (Attempt.code d) World.empty sched th hth
  rcases Core.exec_recorded perform (Attempt.code d) World.empty sched hth with ⟨i, hrecorded⟩
  rcases hcall : th.call with entry | ⟨approvalId, task, chain⟩
  · rw [hcall] at hwalk
    change Walks (entry.code d) th.trace th.rest at hwalk
    rcases app_executes hwalk hev hexec with ⟨operator, approvalId, note, rfl⟩
    rcases walks_approve hwalk hev hexec with ⟨-, record, task, grant, o, hdecides, -, -, -,
      hexecuting, hreturned⟩
    have hcopies := decides_copies hsound hrecorded hdecides
    refine ⟨record, task, [grant], o, ?_, hexecuting, fun resp hresp => ?_⟩
    · rw [copies_approvalId hcopies]
      exact hcopies
    · rcases hreturned resp hresp with ⟨refreshed, payload, rfl, hout⟩
      exact ⟨payload, rfl, hout⟩
  · rw [hcall] at hwalk
    have hreads : Issues Prepares (orRaise (ask (.requireRecord approvalId))) :=
      issues_orRaise (issues_ask (background_prepares rfl))
    have hother := executing_unprepared hexec
    rcases walks_through hwalk hreads hev hother with ⟨record, t₁, t₂, ht, hread, hp₁, hrest, hev₂⟩
    rcases walks_bind_pure hrest with ⟨p', hexecute, hreturned⟩
    have hrecord : (i, (⟨.requireRecord approvalId, .ok record⟩ : AppEvent)) ∈
        (attemptRun d sched).history := by
      refine hrecorded _ ?_
      rw [ht, walks_ask (walks_orRaise hread)]
      exact List.mem_append_left _ List.mem_cons_self
    have hcopies := record_copies hsound hrecord
    have hwithin := executing_within (walks_executeApproved hexecute hev₂ hexec) t₁ [] hp₁
      fun e he => absurd he List.not_mem_nil
    rw [List.append_nil, ← ht] at hwithin
    refine ⟨record, task, chain, p'.outcome, ?_, hwithin, fun resp hresp => ?_⟩
    · rw [copies_approvalId hcopies]
      exact hcopies
    · rcases hreturned resp hresp with ⟨payload, rfl, rfl⟩
      exact ⟨payload, rfl, rfl⟩

end Attempts

section Stories

variable {d : Deployment} {sched : List (Core.Action Attempt Env)} {row : ApprovalRow}

/-- An event of the history is in the trace of an attempt. -/
theorem attempt_event {i : Nat} {ev : AppEvent} (h : (i, ev) ∈ (attemptRun d sched).history) :
    ∃ th ∈ (attemptRun d sched).threads, ev ∈ th.trace := by
  rcases (Core.exec_events perform (Attempt.code d) World.empty sched i ev).mp h with
    ⟨th, hth, hev⟩
  exact ⟨th, List.mem_of_getElem? hth, hev⟩

/-- What a copy of a row asks for is what the row asks for. -/
theorem copies_credit {w : World} (hw : WellFormed w.approvals) (hrow : row ∈ w.approvals)
    {record : ApprovalRecord} (h : Copies w row.approvalId record) :
    (⟨record.reservationId, record.amount, record.reason⟩ : Credit) = row.credit := by
  rcases h with ⟨later, hlater, hid, old, rfl, hcont⟩
  rw [eq_of_id hw.ids hlater hrow hid] at hcont
  unfold ApprovalRow.credit
  rw [hcont.reservationId, hcont.amount, hcont.reason]
  rfl

/-- A write of the executor of an approval is for the credit of its row. -/
theorem write_credit (hrow : row ∈ (attemptRun d sched).world.approvals) {wr : Write}
    (hwr : wr ∈ (attemptRun d sched).world.writes)
    (hwriter : wr.writer = .approvedExecutor row.approvalId) : wr.credit = row.credit := by
  have hsound := attempt_sound d sched
  rcases Core.exec_origin perform (Attempt.code d) (·.writes)
    (fun c wr => c = .ledgerIssue wr.writer wr.credit wr.key) (fun _ _ _ => perform_writes) rfl
    sched wr hwr with
    ⟨i, ev, hev, hcmd⟩
  rw [hwriter] at hcmd
  rcases attempt_event hev with ⟨th, hth, hmem⟩
  have hexec : executing ev.cmd = true := by
    rw [hcmd]
    rfl
  rcases attempt_executes sched hth hmem hexec with ⟨record, task, chain, o, hcopies, hexecuting, -⟩
  rcases executing_cases hexecuting with ⟨live, answer, hcases, -, -⟩
  rcases hcases ev hmem hexec with rfl | ⟨resp, -, hmark⟩
  · rcases Cmd.ledgerIssue.inj hcmd with ⟨hid, hcredit, -⟩
    rw [Writer.approvedExecutor.inj hid] at hcopies
    exact hcredit.symm.trans (copies_credit (Provenance.table hsound.world) hrow hcopies)
  · rw [hcmd] at hmark
    exact absurd hmark (by simp only [reduceCtorEq, not_false_eq_true])

/-- The ledger answers the executor with the credit of the row. -/
theorem issue_answer (hrow : row ∈ (attemptRun d sched).world.approvals) {i : Nat} {credit : Credit}
    {resp : PyDict}
    (hev : (i, (⟨.ledgerIssue (.approvedExecutor row.approvalId) credit
      (some (approvedCreditKey row.approvalId)), .ok resp⟩ : AppEvent)) ∈
        (attemptRun d sched).history) :
    ∃ deduplicated, resp = withDeduplicated row.credit.toDict deduplicated := by
  have hsound := attempt_sound d sched
  rcases hsound.history _ hev with ⟨env, v, hinv, -, hanswer, hle⟩
  rcases perform_issue_answer (Provenance.ledgered hinv) (.approvedExecutor row.approvalId) credit
    (approvedCreditKey row.approvalId) env hanswer with ⟨wr, hwr, hkey, deduplicated, hresp⟩
  -- The write it answers with may be of another attempt, and is for the same credit.
  have hmem : wr ∈ (attemptRun d sched).world.writes := (Grows.writes hle).subset hwr
  have hwriter := writer_of_approvedKey (Provenance.ledgered hsound.world) hmem hkey
  rw [write_credit hrow hmem hwriter] at hresp
  exact ⟨deduplicated, hresp⟩

/-- A row is marked with the result of its execution, and that is what the
    marking attempt answers, if it does. -/
theorem marked_told (hrow : row ∈ (attemptRun d sched).world.approvals)
    {th : Core.Thread Attempt Cmd Cmd.Answer Exc Response}
    (hth : th ∈ (attemptRun d sched).threads) {ev : AppEvent} (hev : ev ∈ th.trace)
    {story : PyDict} (hcmd : ev.cmd = .markExecutedLocked row.approvalId story) :
    Told row story ∧ ∀ resp, th.rest = done resp → resp.execution = some story := by
  have hexec : executing ev.cmd = true := by
    rw [hcmd]
    rfl
  rcases attempt_executes sched hth hev hexec with
    ⟨record, task, chain, o, -, hexecuting, hreturned⟩
  rcases executing_cases hexecuting with ⟨live, answer, hcases, hissued, hout⟩
  rcases hcases ev hev hexec with rfl | ⟨resp, hanswer, hmark⟩
  · exact absurd hcmd (by simp only [reduceCtorEq, not_false_eq_true])
  · rcases Cmd.markExecutedLocked.inj (hcmd.symm.trans hmark) with ⟨hid, hstory⟩
    rcases Core.exec_recorded perform (Attempt.code d) World.empty sched hth with ⟨i, hrecorded⟩
    rw [hanswer, ← hid] at hissued
    rcases issue_answer hrow (hrecorded _ hissued) with ⟨deduplicated, hresp⟩
    refine ⟨⟨deduplicated, live.authorization.policyId, ?_⟩, fun answered hdone => ?_⟩
    · rw [hstory, hresp, ← hid]
      rfl
    · rcases hreturned answered hdone with ⟨payload, hpayload, ho⟩
      rcases hout payload ho with ⟨resp', hanswer', hsame⟩
      rw [hpayload, hsame, hstory, Except.ok.inj (hanswer'.symm.trans hanswer)]

/-- The executed rows. -/
def executedRows (w : World) : List ApprovalRow :=
  w.approvals.filter fun row => row.status = .executed

/-- What a command does to the approvals: nothing, or what its locked section
    does. -/
theorem perform_approvals (c : Cmd) (env : Env) (w : World) :
    (perform c env w).2.approvals = w.approvals ∨
      (∃ r, c = .createCreditRequest r ∧ (perform c env w).2.approvals =
        (createCreditRequest env.nowText env.uuid r w.approvals).2) ∨
      (∃ approvalId approved decidedBy note, c = .decideLocked approvalId approved decidedBy note ∧
        (perform c env w).2.approvals =
          (decideLocked env.nowText approvalId approved decidedBy note w.approvals).2) ∨
      ∃ approvalId result, c = .markExecutedLocked approvalId result ∧
        (perform c env w).2.approvals =
          (markExecutedLocked env.nowText approvalId result w.approvals).2 := by
  -- A locked section is lost to a fault, or happens.
  have hlocked : ∀ {X : Type} (answer : Except Exc X × ApprovalTable),
      (env.fault.apply w (answer.1, { w with approvals := answer.2 })).2.approvals = w.approvals ∨
        (env.fault.apply w (answer.1, { w with approvals := answer.2 })).2.approvals = answer.2 :=
    fun answer => (apply_cases env.fault w (answer.1, { w with approvals := answer.2 })).imp
      (congrArg World.approvals) (congrArg World.approvals)
  have hinert : touchesCore c = false → (perform c env w).2.approvals = w.approvals :=
    fun hc => congrArg (·.2.2) (perform_core hc env w)
  cases c with
  | ledgerIssue writer credit key =>
      rcases perform_issue_cases writer credit key env with hsame | hcall
      · exact Or.inl (congrArg World.approvals hsame)
      · exact Or.inl ((congrArg World.approvals hcall).trans rfl)
  | createCreditRequest r =>
      rcases hlocked (createCreditRequest env.nowText env.uuid r w.approvals) with hsame | hdone
      · exact Or.inl hsame
      · exact Or.inr (Or.inl ⟨r, rfl, hdone⟩)
  | decideLocked approvalId approved decidedBy note =>
      rcases hlocked (decideLocked env.nowText approvalId approved decidedBy note w.approvals) with
        hsame | hdone
      · exact Or.inl hsame
      · exact Or.inr (Or.inr (Or.inl ⟨approvalId, approved, decidedBy, note, rfl, hdone⟩))
  | markExecutedLocked approvalId result =>
      rcases hlocked (markExecutedLocked env.nowText approvalId result w.approvals) with
        hsame | hdone
      · exact Or.inl hsame
      · exact Or.inr (Or.inr (Or.inr ⟨approvalId, result, rfl, hdone⟩))
  | _ => exact Or.inl (hinert rfl)

section Locked

variable {table : ApprovalTable} {now : String} {row : ApprovalRow}

/-- A request that is created is pending. -/
theorem created_executed {uuid : String} {r : CreditRequest}
    (h : row ∈ (createCreditRequest now uuid r table).2) (hexecuted : row.status = .executed) :
    row ∈ table := by
  rcases createCreditRequest_cases now uuid r table with
    ⟨_, _, hans⟩ | ⟨_, _, hans⟩ | ⟨_, _, hans⟩
  · rw [hans] at h
    exact h
  · rw [hans] at h
    refine (List.mem_append.mp h).resolve_right fun hnew => ?_
    rw [List.mem_singleton.mp hnew] at hexecuted
    exact ApprovalStatus.noConfusion hexecuted
  · rw [hans] at h
    exact h

/-- A row that is decided is approved or denied. -/
theorem decided_executed {approvalId decidedBy : String} {approved : Bool} {note : Option String}
    (h : row ∈ (decideLocked now approvalId approved decidedBy note table).2)
    (hexecuted : row.status = .executed) : row ∈ table := by
  rcases decideLocked_cases now approvalId decidedBy approved note table with
    ⟨_, _, hans⟩ | ⟨_, _, _, hans⟩ | ⟨_, _, _, hans⟩
  · rw [hans] at h
    exact h
  · rw [hans] at h
    exact h
  · rw [hans] at h
    rcases updateRow_origin h with hkept | ⟨old, -, -, rfl⟩
    · exact hkept.1
    · cases approved with
      | true => exact ApprovalStatus.noConfusion hexecuted
      | false => exact ApprovalStatus.noConfusion hexecuted

/-- A row that is marked holds the result of the mark. -/
theorem marked_executed {approvalId : String} {result : PyDict}
    (h : row ∈ (markExecutedLocked now approvalId result table).2) :
    row ∈ table ∨ (row.approvalId = approvalId ∧ row.executionResultJson = some ⟨result⟩) := by
  rcases markExecutedLocked_cases now approvalId result table with
    ⟨_, _, hans⟩ | ⟨_, _, _, hans⟩ | ⟨_, _, _, hans⟩
  · rw [hans] at h
    exact Or.inl h
  · rw [hans] at h
    exact Or.inl h
  · rw [hans] at h
    rcases updateRow_origin h with hkept | ⟨old, -, hid, rfl⟩
    · exact Or.inl hkept.1
    · exact Or.inr ⟨hid, rfl⟩

end Locked

/-- A row becomes executed by being marked, with the result of the mark. -/
theorem perform_executed (c : Cmd) (env : Env) (w : World) :
    ∀ row ∈ executedRows (perform c env w).2, row ∈ executedRows w ∨
      ∃ result, c = .markExecutedLocked row.approvalId result ∧
        row.executionResultJson = some ⟨result⟩ := by
  intro row hrow
  rcases List.mem_filter.mp hrow with ⟨hmem, hstatus⟩
  have hexecuted : row.status = .executed := of_decide_eq_true hstatus
  have hold : row ∈ w.approvals → row ∈ executedRows w := fun h =>
    List.mem_filter.mpr ⟨h, hstatus⟩
  rcases perform_approvals c env w with hsame | ⟨r, -, hcreate⟩ |
    ⟨approvalId, approved, decidedBy, note, -, hdecide⟩ | ⟨approvalId, result, rfl, hmark⟩
  · rw [hsame] at hmem
    exact Or.inl (hold hmem)
  · rw [hcreate] at hmem
    exact Or.inl (hold (created_executed hmem hexecuted))
  · rw [hdecide] at hmem
    exact Or.inl (hold (decided_executed hmem hexecuted))
  · rw [hmark] at hmem
    rcases marked_executed hmem with hkept | ⟨hid, hstored⟩
    · exact Or.inl (hold hkept)
    · exact Or.inr ⟨result, by rw [hid], hstored⟩

/-- An executed row was marked, and holds the result it was marked with. -/
theorem executed_marked (hrow : row ∈ (attemptRun d sched).world.approvals)
    (hexecuted : row.status = .executed) : ∃ th ∈ (attemptRun d sched).threads, ∃ ev ∈ th.trace,
      ∃ story, ev.cmd = .markExecutedLocked row.approvalId story ∧
        row.executionResultJson = some ⟨story⟩ := by
  have hmem : row ∈ executedRows (attemptRun d sched).world :=
    List.mem_filter.mpr ⟨hrow, decide_eq_true hexecuted⟩
  rcases Core.exec_origin perform (Attempt.code d) executedRows
    (fun c row => ∃ result, c = .markExecutedLocked row.approvalId result ∧
      row.executionResultJson = some ⟨result⟩) perform_executed rfl sched row hmem with
    ⟨i, ev, hev, story, hcmd, hstored⟩
  rcases attempt_event hev with ⟨th, hth, hin⟩
  exact ⟨th, hth, ev, hin, story, hcmd, hstored⟩

/-- A mark that was made stays. -/
theorem marked_stored (hrow : row ∈ (attemptRun d sched).world.approvals) {i : Nat}
    {story : PyDict} (hev : (i, (⟨.markExecutedLocked row.approvalId story, .ok none⟩ : AppEvent)) ∈
      (attemptRun d sched).history) : row.executionResultJson = some ⟨story⟩ := by
  have hsound := attempt_sound d sched
  rcases hsound.history _ hev with ⟨env, v, -, -, hanswer, hle⟩
  have happly : (env.fault.apply v
      ((markExecutedLocked env.nowText row.approvalId story v.approvals).1,
        { v with approvals :=
          (markExecutedLocked env.nowText row.approvalId story v.approvals).2 })).1 =
        .ok none := hanswer
  rcases apply_ok happly with ⟨hnone, hworld⟩
  change Grows (env.fault.apply v _).2 _ at hle
  rw [hworld] at hle
  dsimp only at hnone hle
  rcases markExecutedLocked_cases env.nowText row.approvalId story v.approvals with
    ⟨e, -, hans⟩ | ⟨old, -, -, hans⟩ | ⟨old, hsel, -, hans⟩
  · rw [hans] at hnone
    exact absurd hnone (by simp only [reduceCtorEq, not_false_eq_true])
  · rw [hans] at hnone
    exact absurd (Except.ok.inj hnone) (by simp only [reduceCtorEq, not_false_eq_true])
  · rw [hans, updateExecuted_eq] at hle
    -- The executed row no longer changes, so it is the row at the end.
    rcases hle.rows _ (updated_mem hsel) with ⟨later, hlater, hcont⟩
    rw [hcont.execution rfl] at hlater
    have hsame := eq_of_id (Provenance.table hsound.world).ids hrow hlater
      (selectById_some hsel).2.symm
    rw [hsame]

end Stories

section Reopened

/-- What a command does to the approvals is a step of the table. -/
theorem perform_table {w : World} (hw : WellFormed w.approvals) (c : Cmd) (env : Env) :
    TableStep w.approvals (perform c env w).2.approvals := by
  rcases perform_approvals c env w with hsame | ⟨r, -, hcreate⟩ |
    ⟨approvalId, approved, decidedBy, note, -, hdecide⟩ | ⟨approvalId, result, -, hmark⟩
  · rw [hsame]
    exact .same
  · rw [hcreate]
    exact createCreditRequest_step env.nowText env.uuid r hw
  · rw [hdecide]
    exact decideLocked_step env.nowText approvalId decidedBy approved note
  · rw [hmark]
    exact markExecutedLocked_step env.nowText approvalId result

variable {d : Deployment} {w : World} {row : ApprovalRow}

/-- A row that is read is answered as it is. -/
theorem read_row (hw : WellFormed w.approvals) (hrow : row ∈ w.approvals) {env : Env}
    {record : ApprovalRecord}
    (h : (perform (.requireRecord row.approvalId) env w).1 = .ok record) :
    record = fromRow row := by
  have happly : (env.fault.apply w (requireRecord w.approvals row.approvalId, w)).1 =
      .ok record := h
  have hread := (apply_ok happly).1
  dsimp only at hread
  rw [requireRecord_some _ _ (selectById_of_mem hw.ids hrow)] at hread
  exact (Except.ok.inj hread).symm

/-- An executed row stays as it is in every further run, and every reading of it
    answers with it. -/
theorem executed_stays (hw : WellFormed w.approvals) (hrow : row ∈ w.approvals)
    (hexecuted : row.status = .executed) (sched : List (Core.Action Attempt Env)) :
    WellFormed ((Core.Config.start w).exec perform (Attempt.code d) sched).world.approvals ∧
    row ∈ ((Core.Config.start w).exec perform (Attempt.code d) sched).world.approvals ∧
    ∀ i record, (i, (⟨.requireRecord row.approvalId, .ok record⟩ : AppEvent)) ∈
      ((Core.Config.start w).exec perform (Attempt.code d) sched).history →
      record = fromRow row := by
  refine Core.exec_invariant perform (Attempt.code d) (fun cfg => WellFormed cfg.world.approvals ∧
    row ∈ cfg.world.approvals ∧ ∀ i record, (i, (⟨.requireRecord row.approvalId, .ok record⟩ :
      AppEvent)) ∈ cfg.history → record = fromRow row) (fun cfg attempt h => h)
    (fun cfg j env attempt c k tr hget h => ?_) sched _
    ⟨hw, hrow, fun i record hev => absurd hev List.not_mem_nil⟩
  rcases h with ⟨hwell, hin, hreads⟩
  rw [Core.act_advance_call perform (Attempt.code d) env hget]
  have hstep := perform_table hwell c env
  refine ⟨wellFormed_step hwell hstep, ?_, fun i record hev => ?_⟩
  · rcases step_kept hwell hstep row hin with ⟨later, hlater, hcont⟩
    rw [hcont.execution hexecuted] at hlater
    exact hlater
  · rcases List.mem_append.mp hev with hold | hnew
    · exact hreads i record hold
    · -- The new event is a reading of the table as it was.
      rcases Prod.mk.inj (List.mem_singleton.mp hnew) with ⟨-, hevent⟩
      have hcmd := congrArg (·.cmd) hevent
      dsimp only at hcmd
      subst hcmd
      simp only [Core.Event.mk.injEq, heq_eq_eq, true_and] at hevent
      exact read_row hwell hin hevent.symm

/-- An attempt that reads the row as executed executes nothing, and answers with
    its replay of the row. -/
theorem attempt_replays {attempt : Attempt} (habout : attempt.about = some row.approvalId)
    (hexecuted : row.status = .executed) {t : List AppEvent} {resp : Response}
    (h : Walks (attempt.code d) t (done resp))
    (hread : ∀ record, (⟨.requireRecord row.approvalId, .ok record⟩ : AppEvent) ∈ t →
      record = fromRow row) : resp.execution = some (attempt.replay row) := by
  cases attempt with
  | execute approvalId task chain =>
      rw [Option.some.inj habout] at h
      rcases walks_bind_done h with ⟨record, t₁, t₂, rfl, hrequire, hrest⟩
      rw [walks_ask (walks_orRaise hrequire)] at hread
      rw [hread record (List.mem_append_left _ List.mem_cons_self)] at hrest
      unfold executeApproved at hrest
      rw [if_pos (show (fromRow row).status = .executed from hexecuted)] at hrest
      rw [Core.Prog.done.inj (walks_done hrest).2]
      rfl
  | app entry =>
      cases entry with
      | approve operator approvalId note =>
          rw [Option.some.inj habout] at h
          change Walks (approveCreditRequest d operator row.approvalId note) t (done resp) at h
          unfold approveCreditRequest validated at h
          split at h
          · rcases walks_bind_done h with ⟨⟨⟩, t₁, t₂, rfl, -, h₂⟩
            rcases walks_bind_done h₂ with ⟨decided, t₃, t₄, rfl, hdecide, h₄⟩
            rcases walks_bind_done (walks_approvalErrors hdecide) with
              ⟨record, t₅, t₆, rfl, hrequire, hdecided⟩
            rw [walks_ask (walks_orRaise hrequire)] at hread
            have hrecord := hread record (by
              simp only [List.mem_append, List.mem_singleton, true_or, or_true])
            rw [hrecord, if_pos (show (fromRow row).status = .executed from hexecuted)] at hdecided
            rw [Core.Prog.done.inj (walks_done hdecided).2] at h₄
            rw [Core.Prog.done.inj (walks_done h₄).2]
            rfl
          · exact absurd (walks_fail h).2 (by simp only [reduceCtorEq, not_false_eq_true])
      | _ => exact absurd habout (by simp only [Attempt.about, reduceCtorEq, not_false_eq_true])

/-- An attempt on an executed row that is let in and can read the row answers with
    its replay. -/
theorem attempt_answers {attempt : Attempt} (habout : attempt.about = some row.approvalId)
    (hadmitted : attempt.Admissible) (hw : WellFormed w.approvals) (hrow : row ∈ w.approvals)
    (hexecuted : row.status = .executed) {envs : Nat → Env} (hfault : (envs 0).fault = .none) :
    ∃ resp, (run perform (attempt.code d) envs w).outcome = .ok resp ∧
      resp.execution = some (attempt.replay row) := by
  have hread : perform (.requireRecord row.approvalId) (envs 0) w = (.ok (fromRow row), w) := by
    change (envs 0).fault.apply w (requireRecord w.approvals row.approvalId, w) = _
    rw [hfault, requireRecord_some _ _ (selectById_of_mem hw.ids hrow)]
    rfl
  have hstatus : (fromRow row).status = .executed := hexecuted
  cases attempt with
  | execute approvalId task chain =>
      rw [Option.some.inj habout]
      refine ⟨.body (replayExecuted (fromRow row)), ?_, rfl⟩
      change (run perform (.call (.requireRecord row.approvalId) _) envs w).outcome = _
      dsimp only [run]
      rw [hread]
      change (run perform (executeApproved d (fromRow row) task chain >>= _) _ w).outcome = _
      unfold executeApproved
      rw [if_pos hstatus]
      rfl
  | app entry =>
      cases entry with
      | approve operator approvalId note =>
          rcases hadmitted with ⟨hscope, hnote⟩
          rw [Option.some.inj habout]
          refine ⟨.approvalExecution (fromRow row) (repeatedExecution (fromRow row)), ?_, rfl⟩
          change (run perform (approveCreditRequest d operator row.approvalId note) envs w).outcome
            = _
          unfold approveCreditRequest validated requireApprovalScope
          rw [if_pos hnote, if_pos hscope]
          change (run perform (.call (.requireRecord row.approvalId) _) envs w).outcome = _
          dsimp only [run]
          rw [hread]
          -- The record was read as executed, so the endpoint returns early.
          change (run perform (tryCatch ((if (fromRow row).status = .executed then _ else _) :
            App (ApprovalRecord ⊕ ApprovalRecord)) _ >>= _) _ w).outcome = _
          rw [if_pos hstatus]
          rfl
      | _ => exact absurd habout (by simp only [Attempt.about, reduceCtorEq, not_false_eq_true])

end Reopened

/-- In every run of attempts, whatever Ruhusa answers, whatever fails and however
    they overlap, and for every row it leaves executed: the row holds the result of
    its execution, which one of them has marked it with and which the attempt whose
    mark was answered has answered with, if it has. From then on, also when the
    table is opened again with everything else lost, every attempt on the row that
    answers does so with its replay of the row, every one that is let in and can
    read the row does answer, and both replays retell the result. -/
theorem replays_agree (d : Deployment) (sched : List (Core.Action Attempt Env)) :
    ∀ row ∈ (attemptRun d sched).world.approvals, row.status = .executed →
      ∃ story, Told row story ∧
        Retells row story (repeatedExecution (fromRow row)) ∧
        Retells row story (replayExecuted (fromRow row)) ∧
        (∃ th ∈ (attemptRun d sched).threads, ∃ ev ∈ th.trace,
          ev.cmd = .markExecutedLocked row.approvalId story) ∧
        (∀ th ∈ (attemptRun d sched).threads, ∀ result,
          (⟨.markExecutedLocked row.approvalId result, .ok none⟩ : AppEvent) ∈ th.trace →
          ∀ resp, th.rest = done resp → resp.execution = some story) ∧
        ∀ w : World, w.approvals = (attemptRun d sched).world.approvals →
          ∀ later : List (Core.Action Attempt Env),
            (∀ th ∈ ((Core.Config.start w).exec perform (Attempt.code d) later).threads,
              th.call.about = some row.approvalId → ∀ resp, th.rest = done resp →
                resp.execution = some (th.call.replay row)) ∧
            ∀ attempt : Attempt, attempt.about = some row.approvalId → attempt.Admissible →
              ∀ envs : Nat → Env, (envs 0).fault = .none →
              ∃ resp, (Core.Prog.run perform (attempt.code d) envs
                  ((Core.Config.start w).exec perform (Attempt.code d) later).world).outcome =
                    .ok resp ∧ resp.execution = some (attempt.replay row) := by
  intro row hrow hexecuted
  rcases executed_marked hrow hexecuted with ⟨th, hth, ev, hev, story, hcmd, hstored⟩
  rcases marked_told hrow hth hev hcmd with ⟨htold, -⟩
  refine ⟨story, htold, repeated_retells hstored htold, replay_retells hstored htold,
    ⟨th, hth, ev, hev, hcmd⟩, fun th' hth' result hmark resp hdone => ?_, fun w hw later => ?_⟩
  · -- The mark that was answered is the one the row holds.
    rcases Core.exec_recorded perform (Attempt.code d) World.empty sched hth' with ⟨i, hrecorded⟩
    have hsame := Option.some.inj (hstored.symm.trans (marked_stored hrow (hrecorded _ hmark)))
    rw [(marked_told hrow hth' hmark rfl).2 resp hdone, (JsonText.mk.inj hsame)]
  · have hwell : WellFormed w.approvals := by
      rw [hw]
      exact Provenance.table (attempt_sound d sched).world
    rw [← hw] at hrow
    rcases executed_stays hwell hrow hexecuted later with ⟨hwell', hrow', hreads⟩
    refine ⟨fun th hth habout resp hdone => ?_, fun attempt habout hadmissible envs hfault => ?_⟩
    · have hwalk := Core.exec_walks perform (Attempt.code d) w later th hth
      rw [hdone] at hwalk
      rcases Core.exec_recorded perform (Attempt.code d) w later hth with ⟨i, hrecorded⟩
      exact attempt_replays habout hexecuted hwalk fun record hread =>
        hreads i record (hrecorded _ hread)
    · exact attempt_answers habout hadmissible hwell' hrow' hexecuted hfault

/-- An outside in which the execution does not complete once its credit is
    written. -/
def Env.incomplete : Env :=
  { Env.granting with complete := fun _ => false }

/-- The first execution fails after the provider has written, and is repeated. -/
def repeatedAttempts : List (Core.Action Attempt Env) :=
  (requestSchedule .granting).map (fun action => match action with
    | .spawn entry => .spawn (.app entry)
    | .advance i env => .advance i env) ++
    .spawn (.app (.approve sampleApprover "approval:7f" none)) ::
    List.replicate 16 (.advance 2 .incomplete) ++
    .spawn (.execute "approval:7f" sampleTask []) :: List.replicate 16 (.advance 3 .granting)

theorem replays_agree_sample :
    ∃ row ∈ (attemptRun .sample repeatedAttempts).world.approvals,
      row.approvalId = "approval:7f" ∧ row.status = .executed ∧ ∃ story, Told row story ∧
        Retells row story (repeatedExecution (fromRow row)) ∧
        Retells row story (replayExecuted (fromRow row)) := by
  have hrows : (attemptRun .sample repeatedAttempts).world.approvals.map
      (fun row => (row.approvalId, row.status)) = [("approval:7f", .executed)] := by
    decide +kernel
  have hmem := List.mem_singleton.mpr (rfl : ("approval:7f", ApprovalStatus.executed) = _)
  rw [← hrows] at hmem
  rcases List.mem_map.mp hmem with ⟨row, hrow, hpair⟩
  rcases Prod.mk.inj hpair with ⟨hid, hexecuted⟩
  rcases replays_agree .sample repeatedAttempts row hrow hexecuted with
    ⟨story, htold, hrepeated, hreplayed, -⟩
  exact ⟨row, hrow, hid, hexecuted, story, htold, hrepeated, hreplayed⟩

end Asante
