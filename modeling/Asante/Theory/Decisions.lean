import Asante.Theory.Provenance

/-!
# Decisions on Approvals

Every call of the application keeps the provenance of credits, and what a
decision on an approval has established when it answers.

A thread that works on an approval holds a record, a copy of the row as it was.
`Holds` is what it knows: the row was approved by then, and the table still
holds a row that continues it. That is stable under everything the other
threads do, so the executor may act on its copy: whatever has happened to the
row since, the row still backs the credit.

The postconditions are `AppPost`. An approval that answered has left its row
approved or executed, a denial that answered has left its row denied; since no
row is ever both, they exclude each other. For a live approval nothing fails,
and the answer reports the credit of the row.

## Main definitions

* `Reached`: The status a decision leaves a row in.
* `Holds`: A record in hand is a granted row at some point of its past.
* `Executes`: What an approval that answered has established.
* `MayCall`, `AppPost`: The calls that may be started, and how they end.

## Theorems

* `safe_requireRecord`, `safe_decide`, `safe_markExecuted`: The methods of the
  store.
* `safe_executeApproved`: The executor.
* `app_safe`: Every call keeps the provenance of credits.
-/

namespace Asante

open Core.Prog Core.KeyedLog

/-- The status a decision leaves a row in, or one it has moved on to. -/
def Reached : Bool → ApprovalRow → Prop
  | true, row => row.Granted
  | false, row => row.status = .denied

theorem reached_continues {approved : Bool} {row later : ApprovalRow} (h : Continues row later)
    (hreached : Reached approved row) : Reached approved later := by
  cases approved with
  | true => exact granted_continues h hreached
  | false => exact denied_continues h hreached

theorem reached_target {approved : Bool} {row : ApprovalRow}
    (h : row.status = decisionTarget approved) : Reached approved row := by
  cases approved with
  | true => exact Or.inl h
  | false => exact h

/-- The record is a granted row at some point of its past. -/
def Holds (w : World) (approvalId : String) (record : ApprovalRecord) : Prop :=
  ∃ row, record = fromRow row ∧ row.approvalId = approvalId ∧ row.Granted ∧
    ∃ later ∈ w.approvals, Continues row later

theorem holds_grows {v w : World} (h : Grows v w) {approvalId : String} {record : ApprovalRecord}
    (hholds : Holds v approvalId record) : Holds w approvalId record := by
  rcases hholds with ⟨row, hrecord, hid, hgranted, later, hlater, hcont⟩
  rcases h.rows later hlater with ⟨last, hlast, hcont'⟩
  exact ⟨row, hrecord, hid, hgranted, last, hlast, continues_trans hcont hcont'⟩

/-- The row is granted, and if the approval is live the execution reports its
    credit. -/
def Executes (T : Terms) (w : World) (approvalId : String) (execution : PyDict) : Prop :=
  ∃ row ∈ w.approvals, row.approvalId = approvalId ∧ row.Granted ∧
    (T.live approvalId → Reports row execution)

theorem executes_grows {T : Terms} {v w : World} (h : Grows v w) {approvalId : String}
    {execution : PyDict} (hex : Executes T v approvalId execution) :
    Executes T w approvalId execution := by
  rcases hex with ⟨row, hrow, hid, hgranted, hreports⟩
  rcases h.rows row hrow with ⟨later, hlater, hcont⟩
  exact ⟨later, hlater, hcont.approvalId.trans hid, granted_continues hcont hgranted,
    fun ha => reports_continues hcont (hreports ha)⟩

/-- Raises only if the approval is not live. -/
def Unfailing (T : Terms) (approvalId : String) {α : Type} : Except Exc α → World → Prop
  | .ok _, _ => True
  | .error _, _ => ¬ T.live approvalId

section Store

variable {T : Terms} {d : Deployment} {w : World} {approvalId : String}

/-- A command that raises only under a fault does not raise for a live
    approval. -/
theorem smooth_answer (ha : T.live approvalId) {c : Cmd} {env : Env} {v : World}
    (hadm : T.adm c env v) {X : Type} (step : Except Exc X × World) :
    env.fault.apply v step = step := by
  rw [(T.smooth approvalId ha c env v hadm).fault]
  rfl

/-- `require` answers with the row as it is, and finds the row of a live
    approval. -/
theorem safe_requireRecord {Q : Except Exc ApprovalRecord → World → Prop}
    (hok : ∀ v row, Grows w v → Provenance T d v → row ∈ v.approvals →
      row.approvalId = approvalId → Q (.ok (fromRow row)) v)
    (herr : ∀ e v, Grows w v → ¬ T.live approvalId → Q (.error e) v) :
    (provenanceDiscipline T d).sys.Safe Q (orRaise (ask (.requireRecord approvalId))) w := by
  unfold orRaise
  rw [ask_bind]
  refine safe_inert _ rfl fun env v r hanswer hadm hinv _ hle => ?_
  -- A read leaves the world alone, with a fault or without one.
  have hworld : (perform (.requireRecord approvalId) env v).2 = v := by
    rcases apply_cases env.fault v (requireRecord v.approvals approvalId, v) with h | h
    · exact h
    · exact h
  rw [hworld] at hle ⊢
  have hperform : (env.fault.apply v (requireRecord v.approvals approvalId, v)).1 = r := hanswer
  refine safe_ofExcept _ (fun record hr => ?_) (fun e hr => ?_)
  · rw [hr] at hperform
    -- An answer carries no fault, so it is the answer of the statement.
    rcases requireRecord_cases approvalId v.approvals with ⟨row, hsel, hrec⟩ | ⟨_, e, hrec⟩
    · rcases selectById_some hsel with ⟨hmem, hid⟩
      have hrow := (apply_ok hperform).1
      dsimp only at hrow
      rw [hrec] at hrow
      rw [← Except.ok.inj hrow]
      exact hok v row hle hinv hmem hid
    · have hrow := (apply_ok hperform).1
      dsimp only at hrow
      rw [hrec] at hrow
      exact absurd hrow (by simp only [reduceCtorEq, not_false_eq_true])
  · refine herr e v hle fun ha => ?_
    -- The row of a live approval is there to be found.
    rcases Provenance.live hinv approvalId ha with ⟨row, hrow, hid, _⟩
    have hsel := selectById_of_mem (Provenance.table hinv).ids hrow
    rw [hid] at hsel
    rw [smooth_answer ha hadm, requireRecord_some approvalId _ hsel, hr] at hperform
    exact absurd hperform (by simp only [reduceCtorEq, not_false_eq_true])

/-- The locked section of `decide` answers when the row has the status of the
    decision: it has decided the row itself, or hands it on as it was decided
    before. -/
theorem decide_answered {v : World} {approved : Bool} {decidedBy : String} {note : Option String}
    {env : Env} {r : Option ApprovalRecord}
    (hr : (perform (.decideLocked approvalId approved decidedBy note) env v).1 = .ok r) :
    ∃ row ∈ (perform (.decideLocked approvalId approved decidedBy note) env v).2.approvals,
      row.approvalId = approvalId ∧ Reached approved row ∧
        (r = none → row.decidedBy = some decidedBy) ∧
        ∀ current, r = some current → current = fromRow row := by
  have happly : (env.fault.apply v
      ((decideLocked env.nowText approvalId approved decidedBy note v.approvals).1,
        { v with approvals :=
          (decideLocked env.nowText approvalId approved decidedBy note v.approvals).2 })).1 =
        .ok r := hr
  rcases apply_ok happly with ⟨hanswer, hworld⟩
  change ∃ row ∈ (env.fault.apply v _).2.approvals, _
  rw [hworld]
  dsimp only at hanswer ⊢
  -- No row, a row that had the status already, or a pending row that moves to it.
  rcases decideLocked_cases env.nowText approvalId decidedBy approved note v.approvals with
    ⟨e, _, hans⟩ | ⟨row, hsel, hstatus, hans⟩ | ⟨row, hsel, hpending, hans⟩
  · rw [hans] at hanswer
    exact absurd hanswer (by simp only [reduceCtorEq, not_false_eq_true])
  · rw [hans] at hanswer ⊢
    rcases selectById_some hsel with ⟨hmem, hid⟩
    refine ⟨row, hmem, hid, reached_target hstatus, fun hnone => ?_, fun current hcurrent => ?_⟩
    · rw [hnone] at hanswer
      exact absurd (Except.ok.inj hanswer) (by simp only [reduceCtorEq, not_false_eq_true])
    · rw [hcurrent] at hanswer
      exact (Option.some.inj (Except.ok.inj hanswer)).symm
  · rw [hans] at hanswer ⊢
    refine ⟨_, updated_mem hsel, (selectById_some hsel).2, reached_target rfl, fun _ => rfl,
      fun current hcurrent => ?_⟩
    rw [hcurrent] at hanswer
    exact absurd (Except.ok.inj hanswer) (by simp only [reduceCtorEq, not_false_eq_true])

/-- The row of a live approval is pending or approved when it is decided, so the
    decision does not raise. -/
theorem decide_not_raised {v : World} (hinv : Provenance T d v) (ha : T.live approvalId)
    {decidedBy : String} {note : Option String} {env : Env}
    (hadm : T.adm (.decideLocked approvalId true decidedBy note) env v) (e : Exc) :
    (perform (.decideLocked approvalId true decidedBy note) env v).1 ≠ .error e := by
  intro hr
  change (env.fault.apply v _).1 = _ at hr
  rw [smooth_answer ha hadm] at hr
  dsimp only at hr
  rcases hinv.live approvalId ha with ⟨row, hrow, hid, hdenied⟩
  have hsel := selectById_of_mem hinv.table.ids hrow
  rw [hid] at hsel
  have hexecuted := (T.smooth approvalId ha _ env v hadm).decide decidedBy note rfl row hrow hid
  -- An approval of an approved or pending row answers; `live` leaves no other status.
  rcases decideLocked_cases env.nowText approvalId decidedBy true note v.approvals with
    ⟨e', hno, hans⟩ | ⟨_, _, _, hans⟩ | ⟨_, _, _, hans⟩
  · rcases hno row hsel with ⟨happroved, hpending⟩
    revert hdenied hexecuted happroved hpending
    -- Four statuses: denied and executed are excluded, and the other two do answer.
    cases row.status <;> decide
  · rw [hans] at hr
    exact absurd hr (by simp only [reduceCtorEq, not_false_eq_true])
  · rw [hans] at hr
    exact absurd hr (by simp only [reduceCtorEq, not_false_eq_true])

/-- `decide` answers with a row that has reached the decision. -/
theorem safe_decide {Q : Except Exc ApprovalRecord → World → Prop} {approved : Bool}
    {decidedBy : String} {note : Option String}
    (happroved : approved = true → T.approver approvalId decidedBy)
    (hdenied : approved = false → ¬ T.live approvalId)
    (hok : ∀ v row, Grows w v → Provenance T d v → row ∈ v.approvals →
      row.approvalId = approvalId → Reached approved row → Q (.ok (fromRow row)) v)
    (herr : ∀ e v, Grows w v → ¬ T.live approvalId → Q (.error e) v) :
    (provenanceDiscipline T d).sys.Safe Q (approvalsDecide approvalId approved decidedBy note)
      w := by
  unfold approvalsDecide
  refine Core.Discipline.safe_bind _ _ _ _ _ ?_
  unfold orRaise
  rw [ask_bind]
  intro v hle hinv env hadm
  rcases provenance_decide hinv env approvalId approved decidedBy note happroved hdenied with
    ⟨hinv', hle'⟩
  refine ⟨hinv', hle', ?_⟩
  have hgrown := grows_trans hle hle'
  refine safe_ofExcept _ (fun r hr => ?_) (fun e hr => ?_)
  · -- The statement answered, with the row itself or with nothing to read again.
    rcases decide_answered hr with ⟨row, hrow, hid, hreached, -, hcurrent⟩
    cases r with
    | some current =>
        have hok' := hok _ row hgrown hinv' hrow hid hreached
        rw [← hcurrent current rfl] at hok'
        exact hok'
    | none =>
        -- The row is read again, in a world where it has only continued.
        refine safe_requireRecord (fun v' found hle'' hinv'' hfound hfoundId => ?_)
          (fun e v' hle'' hlive => herr e v' (grows_trans hgrown hle'') hlive)
        rcases hle''.rows row hrow with ⟨later, hlater, hcont⟩
        have hsame := eq_of_id hinv''.table.ids hfound hlater
          (hfoundId.trans (hcont.approvalId.trans hid).symm)
        rw [hsame]
        exact hok v' later (grows_trans hgrown hle'') hinv'' hlater
          (hcont.approvalId.trans hid) (reached_continues hcont hreached)
  · refine herr e _ hgrown fun ha => ?_
    cases approved with
    -- A live approval is neither refused by the statement nor ever denied.
    | true => exact decide_not_raised hinv ha hadm e hr
    | false => exact hdenied rfl ha

/-- `mark_executed` does not raise for a live approval that was granted. -/
theorem mark_not_raised {v : World} (hinv : Provenance T d v) (ha : T.live approvalId)
    {result : PyDict} (hserialisable : dictSerialisable result = true) {row : ApprovalRow}
    (hrow : row ∈ v.approvals) (hid : row.approvalId = approvalId) (hgranted : row.Granted)
    {env : Env} (hadm : T.adm (.markExecutedLocked approvalId result) env v) (e : Exc) :
    (perform (.markExecutedLocked approvalId result) env v).1 ≠ .error e := by
  intro hr
  change (env.fault.apply v _).1 = _ at hr
  rw [smooth_answer ha hadm] at hr
  dsimp only at hr
  have hsel := selectById_of_mem hinv.table.ids hrow
  rw [hid] at hsel
  -- The statement raises for a row that is neither approved nor executed, or for a result that
  -- does not serialise. A granted row is one of the two.
  rcases markExecutedLocked_cases env.nowText approvalId result v.approvals with
    ⟨e', hno, hans⟩ | ⟨_, _, _, hans⟩ | ⟨_, _, _, hans⟩
  · rcases hno row hsel with ⟨hexecuted, happroved⟩
    rcases hgranted with hs | hs
    · have hfalse := happroved hs
      rw [hserialisable] at hfalse
      exact Bool.noConfusion hfalse
    · exact hexecuted hs
  · rw [hans] at hr
    exact absurd hr (by simp only [reduceCtorEq, not_false_eq_true])
  · rw [hans] at hr
    exact absurd hr (by simp only [reduceCtorEq, not_false_eq_true])

/-- `mark_executed` with a result that reports the written credit of the row. -/
theorem safe_markExecuted {result : PyDict} {credit : Credit} {row : ApprovalRow}
    (hserialisable : dictSerialisable result = true)
    (hrow : row ∈ w.approvals) (hbacks : Backs row approvalId credit)
    (hreports : Reports row result)
    (hwritten : ∃ wr ∈ w.writes, wr.writer = .approvedExecutor approvalId) :
    (provenanceDiscipline T d).sys.Safe (Unfailing T approvalId)
      (approvalsMarkExecuted approvalId result) w := by
  unfold approvalsMarkExecuted
  refine Core.Discipline.safe_bind _ _ _ _ _ ?_
  unfold orRaise
  rw [ask_bind]
  intro v hle hinv env hadm
  rcases hle.rows row hrow with ⟨later, hlater, hcont⟩
  -- By the time the section runs, the row may have moved on; it still backs the credit.
  have hbacks' := backs_continues hcont hbacks
  have hreports' : ∀ found ∈ v.approvals, found.approvalId = approvalId → Reports found result := by
    intro found hfound hid
    rw [eq_of_id (Provenance.table hinv).ids hfound hlater (hid.trans hbacks'.approvalId.symm)]
    exact reports_continues hcont hreports
  have hwritten' : ∃ wr ∈ v.writes, wr.writer = .approvedExecutor approvalId := by
    rcases hwritten with ⟨wr, hwr, hwriter⟩
    exact ⟨wr, hle.writes.subset hwr, hwriter⟩
  rcases provenance_markExecuted hinv env approvalId result hwritten' hreports' with
    ⟨hinv', hle'⟩
  refine ⟨hinv', hle', ?_⟩
  refine safe_ofExcept _ (fun r hr => ?_) (fun e hr ha => ?_)
  · cases r with
    | some current => trivial
    | none => exact safe_requireRecord (fun _ _ _ _ _ _ => trivial) fun _ _ _ hlive => hlive
  · -- Raising would need a fault or a row of another status.
    exact mark_not_raised hinv ha hserialisable hlater hbacks'.approvalId hbacks'.granted hadm e hr

/-- The result of an approved credit, with the credit that was written. -/
def executedResult (credit : Credit) (deduplicated : Bool) (approvalId : String)
    (policyId : Option String) : PyDict :=
  (withDeduplicated credit.toDict deduplicated).merge
    [("approval_id", .str approvalId), ("effect", .str "allow"), ("policy_id", optStr policyId)]

theorem executedResult_serialisable (credit : Credit) (deduplicated : Bool) (approvalId : String)
    (policyId : Option String) :
    dictSerialisable (executedResult credit deduplicated approvalId policyId) = true := by
  cases policyId with
  | none => rfl
  | some policy => rfl

theorem executedResult_reports {row : ApprovalRow} {approvalId : String} {credit : Credit}
    (h : Backs row approvalId credit) (deduplicated : Bool) (policyId : Option String) :
    Reports row (executedResult credit deduplicated approvalId policyId) := by
  refine ⟨rfl, ?_, ?_⟩
  · rw [h.reservationId]
    rfl
  · rw [h.amount]
    rfl

/-- The replay of an executed row reports its credit. -/
theorem replay_reports {writes : List Write} {row : ApprovalRow} (h : RowOk T writes row)
    (hexecuted : row.status = .executed) : Reports row (replayExecuted (fromRow row)) := by
  rcases h.reported hexecuted with ⟨result, hresult, hreports⟩
  unfold replayExecuted
  rw [hresult, Option.getD_some]
  refine ⟨?_, ?_, ?_⟩
  · simp [PyDict.merge, PyDict.get?_set]
  · rw [PyDict.get?_merge_left _ _ _ (by simp)]
    exact hreports.reservation
  · rw [PyDict.get?_merge_left _ _ _ (by simp)]
    exact hreports.amount

/-- What a repeated approval reports of an executed row is its credit. -/
theorem repeated_reports {writes : List Write} {row : ApprovalRow} (h : RowOk T writes row)
    (hexecuted : row.status = .executed) : Reports row (repeatedExecution (fromRow row)) := by
  rcases h.reported hexecuted with ⟨result, hresult, hreports⟩
  unfold repeatedExecution
  rw [hresult, Option.getD_some]
  refine ⟨?_, ?_, ?_⟩
  · rw [PyDict.get?_merge_left _ _ _ (by simp)]
    exact hreports.status
  · rw [PyDict.get?_merge_left _ _ _ (by simp)]
    exact hreports.reservation
  · rw [PyDict.get?_merge_left _ _ _ (by simp)]
    exact hreports.amount

/-- A write under the key of an approval is its executor's. -/
theorem writer_of_approvedKey {v : World} (h : Ledgered d v) {wr : Write} (hwr : wr ∈ v.writes)
    (hkey : wr.key = some (approvedCreditKey approvalId)) :
    wr.writer = .approvedExecutor approvalId := by
  -- The key of a write is computed from its writer, and the two kinds of key never meet.
  have hsame := Option.some.inj ((h.keyed wr hwr).symm.trans hkey)
  rcases hwriter : wr.writer with taskId | other
  · rw [hwriter] at hsame
    exact absurd hsame.symm (keys_disjoint _ _ _ _ _)
  · rw [hwriter] at hsame
    rw [approvedKey_inj hsame]

/-- What the ledger call of the executor has established. -/
def Issued (T : Terms) (approvalId : String) : Except Exc PyDict → World → Prop
  | .ok resp, w => ∃ credit deduplicated, resp = withDeduplicated credit.toDict deduplicated ∧
      (∃ row ∈ w.approvals, Backs row approvalId credit) ∧
      ∃ wr ∈ w.writes, wr.writer = .approvedExecutor approvalId
  | .error _, _ => ¬ T.live approvalId

/-- The ledger call of the executor under its handler, for a credit that a row
    backs. -/
theorem safe_issueApproved (permit : Permit) {row : ApprovalRow} {credit : Credit}
    (hrow : row ∈ w.approvals) (hbacks : Backs row approvalId credit) :
    (provenanceDiscipline T d).sys.Safe (Issued T approvalId)
      (markUnknownOnError permit (orRaise (ask (.ledgerIssue (.approvedExecutor approvalId) credit
        (some (approvedCreditKey approvalId)))))) w := by
  refine safe_markUnknownOnError _ ?_
  unfold orRaise
  rw [ask_bind]
  intro v hle hinv env hadm
  rcases hle.rows row hrow with ⟨later, hlater, hcont⟩
  rcases provenance_issue hinv env (.approvedExecutor approvalId) credit
    ⟨later, hlater, backs_continues hcont hbacks⟩ with ⟨hinv', hle'⟩
  refine ⟨hinv', hle', ?_⟩
  refine safe_ofExcept _ (fun resp hresp => ?_) (fun e hr v' _ ha => ?_)
  · -- The write that answered is the executor's, so its own row backs it.
    rcases perform_issue_answer (Provenance.ledgered hinv) (.approvedExecutor approvalId) credit
      (approvedCreditKey approvalId) env hresp with ⟨wr, hwr, hkey, deduplicated, heq⟩
    have hwriter := writer_of_approvedKey hinv'.ledgered hwr hkey
    have hwriteOk := hinv'.writes wr hwr
    rw [hwriter] at hwriteOk
    exact ⟨wr.credit, deduplicated, heq, hwriteOk, wr, hwr, hwriter⟩
  · -- A raise here is a fault, and a live approval has none.
    change (env.fault.apply v _).1 = _ at hr
    rw [smooth_answer ha hadm] at hr
    exact absurd hr (by simp only [reduceCtorEq, not_false_eq_true])

/-- The executor, working on a record of a granted row. It is blocked or raises
    only for an approval that is not live. -/
theorem safe_executeApproved {record : ApprovalRecord} (hinv : Provenance T d w)
    (hrecord : Holds w approvalId record) (task : TaskContext) (chain : List DelegationGrant) :
    (provenanceDiscipline T d).sys.Safe (fun r v => match r with
      | .ok execution => Executes T v approvalId execution
      | .error _ => ¬ T.live approvalId) (executeApproved d record task chain) w := by
  rcases hrecord with ⟨row, rfl, rfl, hgranted, later, hlater, hcont⟩
  unfold executeApproved
  by_cases hexecuted : (fromRow row).status = .executed
  · -- An executed row no longer changes, so the record is the row.
    rw [if_pos hexecuted]
    have hsame := hcont.execution hexecuted
    rw [hsame] at hlater
    exact ⟨row, hlater, rfl, hgranted, fun _ => replay_reports (hinv.rows row hlater) hexecuted⟩
  · have happroved : (fromRow row).status = .approved := hgranted.resolve_right hexecuted
    rw [if_neg hexecuted, if_pos happroved]
    -- A refusal reports no credit, which only a live approval would miss.
    have hblocked : ∀ v, Grows w v → ¬ T.live row.approvalId → ∀ effect reason,
        Executes T v row.approvalId (blocked effect reason) := by
      intro v hle hlive effect reason
      rcases hle.rows later hlater with ⟨last, hlast, hcont'⟩
      have hall := continues_trans hcont hcont'
      exact ⟨last, hlast, hall.approvalId, granted_continues hall hgranted,
        fun ha => absurd ha hlive⟩
    refine safe_secured _ (fun now env v e hadm _ _ hcreate ha => ?_)
      (fun now env v hadm _ hle hrefused effect reason => ?_)
      (fun now permit env v hadm _ hle hrefused effect reason => ?_) ?_
    · -- The factory makes an invocation of every request of a live approval.
      rw [(T.smooth row.approvalId ha _ env v hadm).create] at hcreate
      exact absurd hcreate (by simp only [reduceCtorEq, not_false_eq_true])
    · -- Admission was refused: a live approval is admitted with a permit.
      refine hblocked v hle (fun ha => ?_) effect reason
      rcases (T.smooth row.approvalId ha _ env v hadm).begin
        (approvedRequest d (fromRow row) task chain now) with ⟨hallowed, hpermit⟩
      rcases hrefused with hno | hno
      · rw [hallowed] at hno
        exact Bool.noConfusion hno
      · exact hpermit hno
    · -- Revalidation was refused: a live approval is revalidated.
      refine hblocked v hle (fun ha => ?_) effect reason
      have hallowed := (T.smooth row.approvalId ha _ env v hadm).revalidate
        (approvedRequest d (fromRow row) task chain now) permit
      rw [hallowed] at hrefused
      exact Bool.noConfusion hrefused
    intro now permit env v _ hinvv hle _
    rcases hle.rows later hlater with ⟨last, hlast, hcont'⟩
    have hall := continues_trans hcont hcont'
    -- The credit is built from the record, and the row it was read from still backs it.
    have hbacks : Backs last row.approvalId ⟨row.reservationId, row.amount, row.reason⟩ :=
      ⟨hall.approvalId, hall.reservationId, hall.amount, granted_continues hall hgranted⟩
    refine Core.Discipline.safe_seq _ (Issued T row.approvalId) hinvv
      (safe_issueApproved permit hlast hbacks) ?_ (fun e u he _ _ => he)
    rintro resp u ⟨credit, deduplicated, rfl, ⟨found, hfound, hcredit⟩, wr, hwr, hwriter⟩ hinvu _
    -- `complete` answered true, and the row is marked with a result that reports the credit; or
    -- false, and the executor raises, which a live approval does not meet.
    refine safe_completeOrRaise _ (fun u' hinvu' hle' => ?_) (fun env' u' hadm' hle' hfalse => ?_)
    · rcases hle'.rows found hfound with ⟨current, hcurrent', hcont''⟩
      have hcredit' := backs_continues hcont'' hcredit
      have hreports := executedResult_reports hcredit' deduplicated
        (env.revalidate (approvedRequest d (fromRow row) task chain now)
          permit).authorization.policyId
      refine Core.Discipline.safe_seq _ _ hinvu' (safe_markExecuted
        (executedResult_serialisable credit deduplicated _ _) hcurrent' hcredit' hreports
        ⟨wr, hle'.writes.subset hwr, hwriter⟩) (fun record u'' _ _ hle'' => ?_)
        (fun e u'' he _ _ => he)
      exact executes_grows hle'' ⟨current, hcurrent', hcredit'.approvalId, hcredit'.granted,
        fun _ => hreports⟩
    · intro ha
      rw [(T.smooth row.approvalId ha _ env' u' hadm').complete permit] at hfalse
      exact Bool.noConfusion hfalse

end Store

section Calls

variable {T : Terms} {d : Deployment} {w : World} {approvalId : String}

/-- A direct ledger call within bounds. -/
theorem keeps_issueDirect (taskId : String) (credit : Credit) (hamount : T.direct credit.amount) :
    (provenanceDiscipline T d).Keeps (orRaise (ask (.ledgerIssue (.issueCredit taskId) credit
      (some (writerKey d (.issueCredit taskId) credit))))) := by
  intro w v _ hinv env _
  rcases provenance_issue hinv env (.issueCredit taskId) credit hamount with ⟨hinv', hle'⟩
  exact ⟨hinv', hle', safe_ofExcept _ (fun _ _ => trivial) (fun _ _ => trivial)⟩

theorem keeps_issueCredit (policy : RetryPolicy) (reservationId : String) (amount : ℚ)
    (reason : String) (task : TaskContext) (chain : List DelegationGrant) :
    (provenanceDiscipline T d).Keeps
      (issueCredit d policy reservationId amount reason task chain) := by
  intro w
  refine safe_secured _ (fun _ _ _ _ _ _ _ _ => trivial) (fun _ _ _ _ _ _ _ _ _ => trivial)
    (fun _ _ _ _ _ _ _ _ _ _ => trivial) ?_
  intro now permit env v hadm _ _ hallowed
  rcases buildCreditIdempotencyKey_cases d.sha256 d.digestError task.taskId reservationId amount
    with ⟨e, -, hkey⟩ | ⟨-, hkey⟩
  · rw [hkey]
    trivial
  rw [hkey, ofExcept_ok, done_bind]
  -- The gateway allowed this very amount, which is what bounds the direct write.
  have hamount := T.directAllowed _ permit env v amount hadm hallowed rfl rfl
  refine keeps_bind _ (keeps_markUnknownOnError _ (keeps_retry _ policy ?_ _ _)) (fun _ => ?_) v
  · exact keeps_issueDirect task.taskId ⟨reservationId, amount, reason⟩ hamount
  · exact keeps_bind _ (keeps_completeOrRaise _ _ _) fun _ _ => trivial

theorem keeps_requestGuestCredit (reservationId : String) (amount : ℚ) (reason : String)
    (task : TaskContext) (chain : List DelegationGrant) :
    (provenanceDiscipline T d).Keeps
      (requestGuestCredit d reservationId amount reason task chain) := by
  intro w
  refine safe_secured _ (fun _ _ _ _ _ _ _ _ => trivial) (fun _ _ _ _ _ _ _ _ _ => trivial)
    (fun _ _ _ _ _ _ _ _ _ _ => trivial) ?_
  intro now permit env v hadm _ _ hallowed
  -- The gateway allowed this very amount, which is what bounds the created row.
  have hamount := T.requestAllowed _ permit env v amount hadm hallowed rfl rfl
  refine keeps_bind _ (keeps_markUnknownOnError _ ?_) (fun _ => ?_) v
  · refine keeps_bind _ (keeps_issues _ (issues_orRaise (issues_ask rfl))) fun _ => ?_
    refine keeps_bind _ (fun u u' _ hinv env' _ => ?_) fun _ _ => trivial
    -- The new row is pending and within the bounds.
    rcases provenance_create hinv env' ⟨task.taskId, task.initiatedBy, reservationId, amount,
      reason, some "service-recovery-credit-request"⟩ hamount with ⟨hinv', hle'⟩
    exact ⟨hinv', hle', safe_ofExcept _ (fun _ _ => trivial) (fun _ _ => trivial)⟩
  · exact keeps_bind _ (keeps_completeOrRaise _ _ _) fun _ _ => trivial

/-- A tool of the server keeps the discipline when its operation does. -/
theorem keeps_serverTool {owner : Workload} {metadata : PyDict} {operation : String → App PyDict}
    (h : ∀ taskId, (provenanceDiscipline T d).Keeps (operation taskId)) :
    (provenanceDiscipline T d).Keeps (serverTool owner metadata operation) := by
  refine keeps_bind _ (keeps_ofExcept _ _) fun _ => ?_
  refine keeps_bind _ (keeps_ofExcept _ _) fun taskId => ?_
  refine keeps_bind _ (keeps_issues _ (issues_orRaise (issues_ask rfl))) fun _ => ?_
  refine keeps_tryCatch _ (h taskId) fun e => ?_
  split
  · exact fun _ => trivial
  · exact fun _ => trivial

theorem keeps_mcp (tool : McpTool) (metadata : PyDict) :
    (provenanceDiscipline T d).Keeps (tool.call d metadata) := by
  have hrequire : ∀ {f : AsanteRunContext → App PyDict} (taskId : String),
      (∀ context, (provenanceDiscipline T d).Keeps (f context)) →
      (provenanceDiscipline T d).Keeps (orRaise (ask (.requireTask taskId)) >>= f) :=
    fun taskId hf => keeps_bind _ (keeps_issues _ (issues_orRaise (issues_ask rfl))) hf
  refine keeps_serverTool fun taskId => ?_
  cases tool with
  | issueGuestCredit reservationId amount reason =>
      exact hrequire taskId fun context => keeps_issueCredit _ _ _ _ _ _
  | getReservation reservationId =>
      exact hrequire taskId fun context =>
        keeps_tool _ d (.getReservation reservationId _ _) fun _ => id
  | createMaintenanceRequest reservationId category urgency description =>
      exact hrequire taskId fun context => keeps_tool _ d
        (.createMaintenanceRequest reservationId category urgency description _ _) fun _ => id
  | sendGuestMessage reservationId message =>
      exact hrequire taskId fun context =>
        keeps_tool _ d (.sendGuestMessage reservationId message _ _) fun _ => id
  | requestGuestCredit reservationId amount reason =>
      exact hrequire taskId fun context => keeps_requestGuestCredit _ _ _ _ _

theorem keeps_devIssueCredit (operator : AuthenticatedHuman) (reservationId : String) (amount : ℚ)
    (reason : String) :
    (provenanceDiscipline T d).Keeps (devIssueCredit d operator reservationId amount reason) := by
  unfold devIssueCredit validated
  split
  · refine keeps_bind _ (keeps_issues _ (issues_openTask (fun _ => background_core) _ _ _))
      fun task => ?_
    refine keeps_bind _ (keeps_issues _ (issues_serviceRecovery (fun _ => background_core) d _ _ _))
      fun chain => ?_
    exact keeps_bind _ (keeps_issueCredit _ _ _ _ _ _) fun _ _ => trivial
  · exact fun _ => trivial

/-- The handler of the decisions maps what is raised, and raises. -/
theorem safe_approvalErrors {α : Type} {Q : Except Exc α → World → Prop} {decision : App α}
    (h : (provenanceDiscipline T d).sys.Safe (fun r v => match r with
      | .ok a => Q (.ok a) v
      | .error _ => ∀ e, Q (.error e) v) decision w) :
    (provenanceDiscipline T d).sys.Safe Q (approvalErrors decision) w := by
  refine Core.Discipline.safe_tryCatch _ _ _ _ _
    (Core.Discipline.safe_mono _ (fun r v hr => ?_) _ _ h)
  cases r with
  | ok a => exact hr
  | error e =>
      dsimp only
      split
      · exact hr _
      · split
        · exact hr _
        · exact hr _

/-- What the guarded part of an approval has established. -/
def Decided (T : Terms) (approvalId : String) :
    Except Exc (ApprovalRecord ⊕ ApprovalRecord) → World → Prop
  | .ok (.inl record), w => ∃ row ∈ w.approvals, record = fromRow row ∧
      row.approvalId = approvalId ∧ row.status = .executed
  | .ok (.inr record), w => Holds w approvalId record
  | .error _, _ => ¬ T.live approvalId

theorem safe_decideApproved {operator : AuthenticatedHuman} (note : Option String)
    (happrover : T.approver approvalId operator.principalId) :
    (provenanceDiscipline T d).sys.Safe (Decided T approvalId)
      (decideApproved operator approvalId note) w := by
  refine safe_approvalErrors (Core.Discipline.safe_bind _ _ _ _ _ ?_)
  refine safe_requireRecord (fun v row _ _ hrow hid => ?_) (fun e v _ hlive _ => hlive)
  dsimp only
  -- An executed row is reported again; any other is decided.
  by_cases hexecuted : (fromRow row).status = .executed
  · rw [if_pos hexecuted]
    exact ⟨row, hrow, rfl, hid, hexecuted⟩
  · rw [if_neg hexecuted]
    refine Core.Discipline.safe_bind _ _ _ _ _ ?_
    refine safe_decide (fun _ => happrover) (fun h => Bool.noConfusion h)
      (fun u decided _ _ hdecided hdecidedId hgranted => ?_) (fun e u _ hlive _ => hlive)
    exact ⟨decided, rfl, hdecidedId, hgranted, decided, hdecided, continues_refl decided⟩

theorem unfailing_openTask (approvalId : String) (operator : AuthenticatedHuman)
    (purpose : String) (lifetime : Int) :
    (provenanceDiscipline T d).sys.Safe (Unfailing T approvalId)
      (openTask operator purpose lifetime) w := by
  unfold openTask
  rw [ask_bind]
  refine safe_inert _ rfl fun _ _ _ _ _ _ _ _ => ?_
  rw [ask_bind]
  exact safe_inert _ rfl fun _ _ _ _ _ _ _ _ => trivial

theorem unfailing_registerGrant (approvalId : String) (grant : DelegationGrant) :
    (provenanceDiscipline T d).sys.Safe (Unfailing T approvalId)
      (orRaise (ask (.registerGrant grant))) w := by
  unfold orRaise
  rw [ask_bind]
  refine safe_inert _ rfl fun env v r hanswer hadm _ _ _ => ?_
  refine safe_ofExcept _ (fun _ _ => trivial) (fun e hr ha => ?_)
  have hperform : (env.fault.apply v (.ok (), { v with grants := v.grants ++ [grant] })).1 = r :=
    hanswer
  rw [smooth_answer ha hadm, hr] at hperform
  exact absurd hperform (by simp only [reduceCtorEq, not_false_eq_true])

/-- The executor's delegation: its limit is positive, so only the registration
    of the grant can fail. -/
theorem unfailing_delegation (approvalId : String) (task : TaskContext) :
    (provenanceDiscipline T d).sys.Safe (Unfailing T approvalId)
      (issueApprovalExecutorDelegation d task 100) w := by
  unfold issueApprovalExecutorDelegation
  rw [ask_bind]
  refine safe_inert _ rfl fun _ _ _ _ _ _ _ _ => ?_
  rw [ask_bind]
  refine safe_inert _ rfl fun _ _ _ _ _ _ _ _ => ?_
  have hscope : ∃ scope, approvedCreditScope 100 = .ok scope := by
    unfold approvedCreditScope limitedScope
    -- The limit of the executor is 100, which is positive.
    rw [if_neg (by decide +kernel)]
    exact ⟨_, rfl⟩
  rcases hscope with ⟨scope, hscope⟩
  rw [hscope]
  change (provenanceDiscipline T d).sys.Safe _
    (orRaise (ask (.registerGrant _)) >>= fun _ => (pure _ : App (List DelegationGrant))) _
  refine Core.Discipline.safe_bind _ _ _ _ _ (Core.Discipline.safe_mono _ (fun r v hr => ?_) _ _
    (unfailing_registerGrant approvalId _))
  cases r with
  | ok _ => trivial
  | error e => exact hr

/-- The calls that may be started: who approves may approve, and a live approval
    is approved with a valid note by a holder of the scope, and not denied. -/
def MayCall (T : Terms) : AppCall → Prop
  | .approve operator approvalId note =>
    (operator.scopes.contains "asante:approve" = true →
      T.approver approvalId operator.principalId) ∧
    (T.live approvalId → operator.scopes.contains "asante:approve" = true ∧ validNote note = true)
  | .deny _ approvalId _ => ¬ T.live approvalId
  | _ => True

/-- What a call has established when it ends. -/
def AppPost (T : Terms) : AppCall → Except Exc Response → World → Prop
  | .approve _ approvalId _, .ok resp, w => ∃ record execution,
      resp = .approvalExecution record execution ∧ Executes T w approvalId execution
  | .approve _ approvalId _, .error _, _ => ¬ T.live approvalId
  | .deny _ approvalId _, .ok _, w =>
      ∃ row ∈ w.approvals, row.approvalId = approvalId ∧ row.status = .denied
  | _, _, _ => True

theorem appPost_stable (T : Terms) (d : Deployment) (call : AppCall) :
    (provenanceDiscipline T d).sys.Stable (AppPost T call) := by
  intro r v v' hle h
  cases call with
  | approve operator approvalId note =>
      cases r with
      | ok resp =>
          rcases h with ⟨record, execution, hresp, hex⟩
          exact ⟨record, execution, hresp, executes_grows hle hex⟩
      | error e => exact h
  | deny operator approvalId note =>
      cases r with
      | ok resp =>
          rcases h with ⟨row, hrow, hid, hdenied⟩
          rcases Grows.rows hle row hrow with ⟨later, hlater, hcont⟩
          exact ⟨later, hlater, hcont.approvalId.trans hid, denied_continues hcont hdenied⟩
      | error e => trivial
  | _ => trivial

theorem safe_approve (operator : AuthenticatedHuman) (note : Option String)
    (hcall : MayCall T (.approve operator approvalId note)) (hinv : Provenance T d w) :
    (provenanceDiscipline T d).sys.Safe (AppPost T (.approve operator approvalId note))
      (approveCreditRequest d operator approvalId note) w := by
  rcases hcall with ⟨happrover, hlive⟩
  unfold approveCreditRequest validated requireApprovalScope
  by_cases hnote : validNote note = true
  · rw [if_pos hnote]
    by_cases hscope : operator.scopes.contains "asante:approve" = true
    · rw [if_pos hscope]
      refine Core.Discipline.safe_seq _ (Decided T approvalId) hinv
        (safe_decideApproved note (happrover hscope)) ?_ (fun e v he _ _ => he)
      intro decided v hdecided hinvv _
      -- Executed before this call, or approved by now and still to be executed.
      rcases decided with record | record
      · rcases hdecided with ⟨row, hrow, rfl, hid, hexecuted⟩
        exact ⟨_, _, rfl, row, hrow, hid, Or.inr hexecuted,
          fun _ => repeated_reports (hinvv.rows row hrow) hexecuted⟩
      · dsimp only
        refine Core.Discipline.safe_seq _ _ hinvv (unfailing_openTask approvalId operator
          _ _) ?_ (fun e u he _ _ => he)
        intro task u _ hinvu hle
        refine Core.Discipline.safe_seq _ _ hinvu (unfailing_delegation approvalId
          task) ?_ (fun e u' he _ _ => he)
        intro chain u' _ hinvu' hle'
        -- The record was read before the task was opened; it is held through both steps.
        have hholds := holds_grows (grows_trans hle hle') hdecided
        refine Core.Discipline.safe_seq _ _ hinvu' (safe_executeApproved hinvu' hholds task chain)
          ?_ (fun e z he _ _ => he)
        intro execution z hex hinvz _
        refine Core.Discipline.safe_bind _ _ _ _ _ ?_
        refine safe_requireRecord (fun z' row hle'' _ _ _ => ?_)
          (fun e z' _ h => h)
        exact ⟨_, execution, rfl, executes_grows hle'' hex⟩
    · rw [if_neg hscope]
      -- A live approval is approved by a holder of the scope.
      exact fun ha => hscope (hlive ha).1
  · rw [if_neg hnote]
    -- And with a note the request validates.
    exact fun ha => hnote (hlive ha).2

theorem safe_deny (operator : AuthenticatedHuman) (note : Option String)
    (hcall : MayCall T (.deny operator approvalId note)) :
    (provenanceDiscipline T d).sys.Safe (AppPost T (.deny operator approvalId note))
      (denyCreditRequest operator approvalId note) w := by
  unfold denyCreditRequest validated requireApprovalScope
  by_cases hnote : validNote note = true
  · rw [if_pos hnote]
    by_cases hscope : operator.scopes.contains "asante:approve" = true
    · rw [if_pos hscope]
      change (provenanceDiscipline T d).sys.Safe _ (approvalErrors
        (approvalsDecide approvalId false operator.principalId note) >>= fun record =>
          pure (Response.approvalRecord record)) w
      refine Core.Discipline.safe_bind _ _ _ _ _ (safe_approvalErrors ?_)
      refine safe_decide (fun h => Bool.noConfusion h) (fun _ => hcall)
        (fun v row _ _ hrow hid hdenied => ?_) (fun _ _ _ _ _ => trivial)
      exact ⟨row, hrow, hid, hdenied⟩
    · rw [if_neg hscope]
      trivial
  · rw [if_neg hnote]
    trivial

/-- Every call that may be started keeps the provenance of credits, and ends as
    its postcondition says. -/
theorem app_safe (T : Terms) (d : Deployment) (call : AppCall) (hcall : MayCall T call)
    (w : World) (hinv : Provenance T d w) :
    (provenanceDiscipline T d).sys.Safe (AppPost T call) (call.code d) w := by
  cases call with
  | runAgent operator message =>
      exact keeps_issues _ (issues_runAgent (fun _ => background_core) d operator message
        (fun _ => rfl) fun _ => rfl) w
  | mcp tool metadata =>
      exact keeps_bind _ (keeps_mcp tool metadata)
        (fun resp => keeps_done (provenanceDiscipline T d) (Response.body resp)) w
  | devIssueCredit operator reservationId amount reason => exact keeps_devIssueCredit _ _ _ _ w
  | devGetReservation operator reservationId =>
      exact keeps_issues _ (issues_devGetReservation (fun _ => background_core) d operator
        reservationId fun _ => ⟨rfl, fun _ => rfl⟩) w
  | approve operator approvalId note => exact safe_approve operator note hcall hinv
  | deny operator approvalId note => exact safe_deny operator note hcall

end Calls

end Asante
