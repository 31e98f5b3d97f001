import Asante.Core.Books
import Asante.Theory.OnRecord
import Mathlib.Algebra.BigOperators.Group.Finset.Piecewise

/-!
# Bookkeeping

The money of the application, as books that are kept under its charter. A row of
the approvals table is a case about a credit, and a credit in the ledger is a
posting, under the key of the direct tool or for the case whose execution wrote
it. Nothing else of the world is in the books: no agent, no call, no permit.

Every action of a run leaves the books as they are or is one step of the charter
(`books_step`). What is true of books that are kept is then true of the
application, and the sums over rows and credits agree.

## Main definitions

* `CreditSubject`, `CreditItem`: What cases are about, and what is posted.
* `World.books`: The books of a world.
* `charter`: Who may do what.
* `World.directTotal`, `World.executorTotal`, `World.amountIn`: The sums.

## Theorems

* `books_step`: A command is a step of the charter or none.
* `books_kept`: Each action of a run is a step of the charter or none.
* `credits_balance`: The ledger is what was direct, and what was executed or is
  being executed.
-/

namespace Asante

open Asante.Core Asante.Core.Books

/-- The credit a case is about, and the task it was asked for in. -/
structure CreditSubject where
  taskId : String
  reservationId : String
  amount : ℚ

/-- The credit a posting is. -/
structure CreditItem where
  reservationId : String
  amount : ℚ
  deriving DecidableEq

/-- The books of the application. -/
abbrev CreditBooks := Books String String CreditSubject CreditItem String

/-- How far the case of a row has got. -/
def ApprovalRow.stage (row : ApprovalRow) : Stage String :=
  match row.status with
  | .pending => .pending
  | .approved => .approved (row.decidedBy.getD "")
  | .denied => .denied (row.decidedBy.getD "")
  | .executed => .executed (row.decidedBy.getD "")

/-- The credit a row asks for. -/
def ApprovalRow.subject (row : ApprovalRow) : CreditSubject :=
  { taskId := row.taskId, reservationId := row.reservationId, amount := row.amount }

/-- What a write was posted for. -/
def Write.origin (wr : Write) : Origin String String :=
  match wr.writer with
  | .issueCredit _ => .direct (wr.key.getD "")
  | .approvedExecutor approvalId => .case approvalId

/-- The credit of a write. -/
def Write.item (wr : Write) : CreditItem :=
  { reservationId := wr.credit.reservationId, amount := wr.credit.amount }

/-- The books of a world: its rows are the cases, its writes the postings. -/
def World.books (w : World) : CreditBooks :=
  { cases := fun id => (selectById w.approvals id).map fun row => ⟨row.subject, row.stage⟩
    posted := fun origin => (w.writes.find? fun wr => wr.origin = origin).map Write.item }

/-- The charter of the application: small credits are posted directly under the
    key of their task, larger ones need a case. -/
def charter (d : Deployment) (approver : String → String → Prop) :
    Charter String String CreditSubject CreditItem String :=
  { item := fun subject => ⟨subject.reservationId, subject.amount⟩
    small := fun key item => 0 < item.amount ∧ item.amount ≤ 25 ∧
      ∃ taskId, key = creditDigest d.sha256 taskId item.reservationId item.amount
    askable := fun subject => 25 < subject.amount ∧ subject.amount ≤ 100
    may := approver }

section Steps

variable {d : Deployment} {approver : String → String → Prop} {w : World}

/-- The case of a row that is there. -/
theorem books_case (h : WellFormed w.approvals) {row : ApprovalRow} (hrow : row ∈ w.approvals) :
    w.books.cases row.approvalId = some ⟨row.subject, row.stage⟩ := by
  unfold World.books
  dsimp only
  rw [selectById_of_mem h.ids hrow]
  rfl

/-- A case is the case of a row. -/
theorem books_row {id : String} {case : Case CreditSubject String}
    (h : w.books.cases id = some case) :
    ∃ row ∈ w.approvals, row.approvalId = id ∧ case = ⟨row.subject, row.stage⟩ := by
  rcases Option.map_eq_some_iff.mp h with ⟨row, hsel, hcase⟩
  rcases selectById_some hsel with ⟨hmem, hid⟩
  exact ⟨row, hmem, hid, hcase.symm⟩

theorem books_no_row {id : String} (h : ∀ row ∈ w.approvals, row.approvalId ≠ id) :
    w.books.cases id = none := by
  rcases hcase : w.books.cases id with _ | case
  · rfl
  · rcases books_row hcase with ⟨row, hrow, hid, _⟩
    exact absurd hid (h row hrow)

/-- The books have the cases of a table that has the rows. -/
theorem books_cases_eq {v : World} (hv : WellFormed v.approvals) (hw : WellFormed w.approvals)
    {id : String}
    (h : ∀ row, row.approvalId = id → (row ∈ v.approvals ↔ row ∈ w.approvals)) :
    v.books.cases id = w.books.cases id := by
  by_cases hrow : ∃ row ∈ w.approvals, row.approvalId = id
  · rcases hrow with ⟨row, hmem, rfl⟩
    rw [books_case hw hmem, books_case hv ((h row rfl).mpr hmem)]
  · rw [books_no_row fun row hmem hid => hrow ⟨row, hmem, hid⟩,
      books_no_row fun row hmem hid => hrow ⟨row, (h row hid).mp hmem, hid⟩]

/-- The books with one row filed are those of the table with that row. -/
theorem books_filed {table : ApprovalTable} (hw : WellFormed w.approvals)
    (htable : WellFormed table) {row : ApprovalRow} (hrow : row ∈ table)
    (hothers : ∀ other, other.approvalId ≠ row.approvalId →
      (other ∈ table ↔ other ∈ w.approvals)) :
    World.books { w with approvals := table } =
      w.books.file row.approvalId row.subject row.stage := by
  refine Books.ext (funext fun id => ?_) rfl
  by_cases hid : id = row.approvalId
  · rw [hid, file_self]
    exact books_case (w := { w with approvals := table }) htable hrow
  · rw [file_other _ hid]
    exact books_cases_eq (v := { w with approvals := table }) htable hw fun other hother =>
      hothers other fun h => hid (hother.symm.trans h)

theorem posted_case_ne_none {approvalId : String}
    (h : ∃ wr ∈ w.writes, wr.writer = .approvedExecutor approvalId) :
    w.books.posted (.case approvalId) ≠ none := by
  rcases h with ⟨wr, hwr, hwriter⟩
  intro hnone
  have hfind := List.find?_eq_none.mp (Option.map_eq_none_iff.mp hnone) wr hwr
  refine hfind (decide_eq_true ?_)
  unfold Write.origin
  rw [hwriter]

/-- A step of the table is a step of the charter or none. -/
theorem books_table {table : ApprovalTable}
    (h : Provenance (policyTerms d.trustDomain approver) d w)
    (h' : Provenance (policyTerms d.trustDomain approver) d { w with approvals := table })
    (hstep : TableStep w.approvals table) :
    Relation.ReflGen (Step (charter d approver)) w.books
      (World.books { w with approvals := table }) := by
  have hkept : WellFormed table := h'.table
  cases hstep with
  | same => exact .refl
  | insert row hfresh =>
      have hmem : row ∈ w.approvals ++ [row] := List.mem_append_right _ List.mem_cons_self
      rw [books_filed h.table hkept hmem fun other hother => ?_]
      · have hstage : row.stage = .pending := by
          unfold ApprovalRow.stage
          rw [hfresh.pending]
        rw [hstage]
        refine .single (.filed _ _ (books_no_row hfresh.id) (fun id case hcase hsame => ?_)
          (h'.rows row hmem).amount)
        -- A case about the same credit would be another row for it.
        rcases books_row hcase with ⟨other, hother, _, rfl⟩
        refine hfresh.credit other hother ⟨?_, ?_, ?_⟩
        · exact congrArg CreditSubject.taskId hsame
        · exact congrArg CreditSubject.reservationId hsame
        · exact congrArg CreditSubject.amount hsame
      · rw [List.mem_append, List.mem_singleton]
        exact or_iff_left fun heq => hother (congrArg ApprovalRow.approvalId heq)
  | update approvalId f row hsel hf =>
      rcases selectById_some hsel with ⟨hmem, hid⟩
      have hnew : f row ∈ updateRow w.approvals approvalId f := updated_mem hsel
      have hkeeps : (f row).approvalId = row.approvalId :=
        (continues_of_rowStep hf).approvalId
      have hcase := books_case h.table hmem
      have hfiled := books_filed h.table hkept hnew fun other hother => by
        have hne : other.approvalId ≠ approvalId := fun heq =>
          hother (heq.trans (hid.symm.trans hkeeps.symm))
        constructor
        · intro hother'
          rcases mem_updateRow h.table.ids hsel hother' with rfl | ⟨hold, _⟩
          · exact absurd rfl hother
          · exact hold
        · intro hold
          exact List.mem_map.mpr ⟨other, hold, if_neg hne⟩
      have hdue := h'.rows (f row) hnew
      rw [hfiled]
      generalize f row = new at hf hkeeps hdue
      cases hf with
      | same =>
          -- The row was written over with itself.
          have hself : w.books.file row.approvalId row.subject row.stage = w.books := by
            refine Books.ext (funext fun id => ?_) rfl
            by_cases hsame : id = row.approvalId
            · rw [hsame, file_self, hcase]
            · rw [file_other _ hsame]
          rw [hself]
      | decided approved now decidedBy note hpending =>
          have hstage : row.stage = .pending := by
            unfold ApprovalRow.stage
            rw [hpending]
          rw [hstage] at hcase
          cases approved with
          | true =>
              refine .single (.approved _ _ decidedBy hcase ?_)
              rcases hdue.approver (Or.inl rfl) with ⟨human, hhuman, hmay⟩
              rw [Option.some.inj hhuman]
              exact hmay
          | false => exact .single (.denied _ _ decidedBy hcase)
      | executed now json happroved =>
          have hstage : row.stage = .approved (row.decidedBy.getD "") := by
            unfold ApprovalRow.stage
            rw [happroved]
          rw [hstage] at hcase
          exact .single (.executed _ _ _ hcase (posted_case_ne_none (hdue.written rfl)))

/-- Two writes of a world in step were not posted for the same. -/
theorem origins_once (h : Ledgered d w) :
    w.writes.Pairwise fun wr other => wr.origin ≠ other.origin := by
  refine (ledgered_once h).imp_of_mem fun {wr other} hwr hother hkeys horigin => hkeys ?_
  unfold Write.origin at horigin
  have hkey := h.keyed wr hwr
  have hkey' := h.keyed other hother
  rcases hwriter : wr.writer with taskId | approvalId
  · rcases hwriter' : other.writer with taskId' | approvalId'
    · -- Both are direct, so the origins are the keys.
      rw [hwriter, hwriter', hkey, hkey'] at horigin
      rw [hkey, hkey']
      exact congrArg some (Origin.direct.inj horigin)
    · rw [hwriter, hwriter'] at horigin
      cases horigin
  · rcases hwriter' : other.writer with taskId' | approvalId'
    · rw [hwriter, hwriter'] at horigin
      cases horigin
    · rw [hwriter, hwriter'] at horigin
      rw [hkey, hkey', hwriter, hwriter', Origin.case.inj horigin]
      rfl

/-- The books with one more write are those with its posting. -/
theorem books_posted {writes : List Write} {wr : Write}
    (hnew : ∀ other ∈ w.writes, other.origin ≠ wr.origin) (hwrites : writes = w.writes ++ [wr])
    (ledger : GuestCreditLedger) :
    w.books.posted wr.origin = none ∧
      World.books { w with ledger := ledger, writes := writes } =
        w.books.post wr.origin wr.item := by
  have hnone : (w.writes.find? fun other => other.origin = wr.origin) = none :=
    List.find?_eq_none.mpr fun other hother h => hnew other hother (of_decide_eq_true h)
  refine ⟨Option.map_eq_none_iff.mpr hnone, Books.ext rfl (funext fun origin => ?_)⟩
  unfold World.books
  dsimp only
  rw [hwrites, List.find?_append]
  by_cases horigin : origin = wr.origin
  · rw [horigin, post_self, hnone, Option.none_or, List.find?_singleton,
      if_pos (decide_eq_true rfl)]
    rfl
  · rw [post_other _ horigin, List.find?_singleton,
      if_neg fun h => horigin (of_decide_eq_true h).symm, Option.or_none]

/-- A ledger call is a step of the charter or none. -/
theorem books_issue {writer : Writer} {credit : Credit} {key : Option String}
    (h : Provenance (policyTerms d.trustDomain approver) d w)
    (h' : Provenance (policyTerms d.trustDomain approver) d (w.issue writer credit key)) :
    Relation.ReflGen (Step (charter d approver)) w.books
      (w.issue writer credit key).books := by
  by_cases hrepeat : (w.ledger.record key credit).1.2 = true
  · -- The write was there already.
    have hsame : (w.issue writer credit key).books = w.books := by
      unfold World.issue World.books
      dsimp only
      rw [if_pos hrepeat]
    rw [hsame]
  · have hwrites : (w.issue writer credit key).writes = w.writes ++ [⟨writer, key, credit⟩] :=
      if_neg hrepeat
    have hmem : (⟨writer, key, credit⟩ : Write) ∈ (w.issue writer credit key).writes := by
      rw [hwrites]
      exact List.mem_append_right _ List.mem_cons_self
    have honce := origins_once h'.ledgered
    rw [hwrites, List.pairwise_append] at honce
    rcases books_posted (fun other hother => honce.2.2 other hother _ List.mem_cons_self) rfl
      (w.issue writer credit key).ledger with ⟨hnone, hbooks⟩
    have hissued : (w.issue writer credit key).books =
        w.books.post (Write.origin ⟨writer, key, credit⟩) (Write.item ⟨writer, key, credit⟩) := by
      rw [← hbooks, ← hwrites]
      rfl
    have hkey := h'.ledgered.keyed _ hmem
    have hok := h'.writes _ hmem
    rw [hissued]
    cases writer with
    | issueCredit taskId =>
        refine .single (.postedDirect _ _ ⟨hok.1, hok.2, taskId, ?_⟩ hnone)
        change key = some _ at hkey
        rw [hkey]
        rfl
    | approvedExecutor approvalId =>
        -- The row behind the write is approved, since an executed one was written before.
        rcases hok with ⟨row, hrow, hbacks⟩
        have hcase := books_case h.table hrow
        rw [hbacks.approvalId] at hcase
        rcases hbacks.granted with happroved | hexecuted
        · have hstage : row.stage = .approved (row.decidedBy.getD "") := by
            unfold ApprovalRow.stage
            rw [happroved]
          rw [hstage] at hcase
          have hposts := Step.postedCase (R := charter d approver) approvalId row.subject _
            hcase hnone
          have hitem : (charter d approver).item row.subject =
              Write.item ⟨.approvedExecutor approvalId, key, credit⟩ := by
            change CreditItem.mk row.reservationId row.amount = _
            rw [hbacks.reservationId, hbacks.amount]
            rfl
          rw [hitem] at hposts
          exact .single hposts
        · rcases (h.rows row hrow).written hexecuted with ⟨wr, hwr, hwriter⟩
          rw [hbacks.approvalId] at hwriter
          exact absurd hnone (posted_case_ne_none ⟨wr, hwr, hwriter⟩)

/-- A command is a step of the charter or leaves the books as they are. -/
theorem books_step (c : Cmd) (env : Env)
    (h : Provenance (policyTerms d.trustDomain approver) d w)
    (h' : Provenance (policyTerms d.trustDomain approver) d (perform c env w).2) :
    Relation.ReflGen (Step (charter d approver)) w.books (perform c env w).2.books := by
  -- A command on the table does nothing, or what its locked section does.
  have htable : ∀ {X : Type} (answer : Except Exc X × ApprovalTable),
      TableStep w.approvals answer.2 →
      Provenance (policyTerms d.trustDomain approver) d
        (env.fault.apply w (answer.1, { w with approvals := answer.2 })).2 →
      Relation.ReflGen (Step (charter d approver)) w.books
        (env.fault.apply w (answer.1, { w with approvals := answer.2 })).2.books := by
    intro X answer hstep hafter
    rcases apply_cases env.fault w (answer.1, { w with approvals := answer.2 }) with hsame | hdone
    · rw [hsame]
    · rw [hdone] at hafter ⊢
      exact books_table h hafter hstep
  by_cases hcore : touchesCore c = false
  · rcases Prod.mk.inj (perform_core hcore env w) with ⟨_, hrest⟩
    rcases Prod.mk.inj hrest with ⟨hwrites, hrows⟩
    have hsame : (perform c env w).2.books = w.books := by
      unfold World.books
      rw [hwrites, hrows]
    rw [hsame]
  · cases c with
    | ledgerIssue writer credit key =>
        rcases perform_issue_cases (w := w) writer credit key env with hsame | hcall
        · rw [hsame]
        · rw [hcall] at h' ⊢
          exact books_issue h h'
    | createCreditRequest r =>
        exact htable _ (createCreditRequest_step env.nowText env.uuid r h.table) h'
    | decideLocked approvalId approved decidedBy note =>
        exact htable _ (decideLocked_step env.nowText approvalId decidedBy approved note) h'
    | markExecutedLocked approvalId result =>
        exact htable _ (markExecutedLocked_step env.nowText approvalId result) h'
    | _ => exact absurd rfl hcore

end Steps

/-- The policies are followed throughout a run, and who approves has called for it
    with the scope. -/
theorem called_provenance (d : Deployment) (sched : List (Core.Action AppCall Env))
    (hpolicy : ∀ i env, Core.Action.advance i env ∈ sched →
      env.Follows (policyRules d.trustDomain)) {pre suf : List (Core.Action AppCall Env)}
    (hsplit : sched = pre ++ suf) :
    Provenance (policyTerms d.trustDomain (Called sched)) d (appRun d pre).world := by
  have hsub : ∀ a ∈ pre, a ∈ sched := fun a ha => hsplit ▸ List.mem_append_left suf ha
  exact policy_provenance d pre (Called sched)
    (fun operator approvalId note hcall hscope => ⟨operator, note, hsub _ hcall, hscope, rfl⟩)
    fun i env hmem => hpolicy i env (hsub _ hmem)

/-- An action of a run is one step of the charter or leaves the books as they are. -/
theorem books_act (d : Deployment) {sched : List (Core.Action AppCall Env)}
    (hpolicy : ∀ i env, Core.Action.advance i env ∈ sched →
      env.Follows (policyRules d.trustDomain)) {pre suf : List (Core.Action AppCall Env)}
    {a : Core.Action AppCall Env} (hsplit : sched = pre ++ a :: suf) :
    Relation.ReflGen (Step (charter d (Called sched))) (appRun d pre).world.books
      (appRun d (pre ++ [a])).world.books := by
  have h := called_provenance d sched hpolicy hsplit
  have hnext : sched = (pre ++ [a]) ++ suf := by
    rw [hsplit, List.append_assoc, List.singleton_append]
  have h' := called_provenance d sched hpolicy hnext
  have hact : appRun d (pre ++ [a]) = (appRun d pre).act perform (AppCall.code d) a :=
    Core.exec_append perform (AppCall.code d) _ pre [a]
  rw [hact] at h' ⊢
  cases a with
  | spawn call => exact .refl
  | advance i env =>
      rcases Core.act_advance_cases perform (AppCall.code d) (appRun d pre) i env with
        ⟨call, c, k, tr, hget⟩ | hsame
      · rw [Core.act_advance_call perform (AppCall.code d) env hget] at h' ⊢
        exact books_step c env h h'
      · rw [hsame]

/-- The books are kept between any two moments of a run. The induction is on what
    is scheduled between them. -/
theorem books_between (d : Deployment) {sched : List (Core.Action AppCall Env)}
    (hpolicy : ∀ i env, Core.Action.advance i env ∈ sched →
      env.Follows (policyRules d.trustDomain)) (pre mid suf : List (Core.Action AppCall Env))
    (hsplit : sched = pre ++ (mid ++ suf)) :
    Relation.ReflTransGen (Step (charter d (Called sched))) (appRun d pre).world.books
      (appRun d (pre ++ mid)).world.books := by
  induction mid generalizing pre with
  | nil => rw [List.append_nil]
  | cons a mid ih =>
      have hnext : sched = (pre ++ [a]) ++ (mid ++ suf) := by
        rw [hsplit, List.append_assoc]
        rfl
      have hrest := ih (pre ++ [a]) hnext
      rw [List.append_assoc, List.singleton_append] at hrest
      exact .trans (books_act d hpolicy hsplit).to_reflTransGen hrest

theorem approveSchedule_follows : ∀ i env, Core.Action.advance i env ∈ approveSchedule .byPolicy →
    env.Follows (policyRules Deployment.sample.trustDomain) := by
  intro i env hmem
  have henv : env = .byPolicy := by
    have hcases : i = 0 ∧ env = .byPolicy ∨ i = 1 ∧ env = .byPolicy ∨ i = 2 ∧ env = .byPolicy := by
      simpa [approveSchedule, requestSchedule] using hmem
    rcases hcases with ⟨_, rfl⟩ | ⟨_, rfl⟩ | ⟨_, rfl⟩ <;> rfl
  rw [henv]
  exact byPolicy_follows

/-- A write of the direct tool. -/
def Write.isDirect (wr : Write) : Bool :=
  match wr.writer with
  | .issueCredit _ => true
  | .approvedExecutor _ => false

/-- The amounts the direct tool has written. -/
def World.directTotal (w : World) : ℚ :=
  ((w.writes.filter fun wr => wr.isDirect = true).map (·.credit.amount)).sum

/-- The amounts the executor has written. -/
def World.executorTotal (w : World) : ℚ :=
  ((w.writes.filter fun wr => ¬ wr.isDirect = true).map (·.credit.amount)).sum

/-- The amounts of the rows with a status. -/
def World.amountIn (w : World) (status : ApprovalStatus) : ℚ :=
  ((w.approvals.filter fun row => row.status = status).map (·.amount)).sum

/-- The amount that was written for an approval. -/
def amountFor (writes : List Write) (approvalId : String) : ℚ :=
  ((writes.find? fun wr => wr.origin = .case approvalId).map Write.item).elim 0 CreditItem.amount

section Totals

/-- What is posted for the cases of some identifiers is what the executor wrote
    for them. The induction is on the writes. -/
theorem posted_sum {writes : List Write}
    (honce : writes.Pairwise fun wr other => wr.origin ≠ other.origin) {ids : Finset String}
    (hids : ∀ wr ∈ writes, ∀ approvalId, wr.writer = .approvedExecutor approvalId →
      approvalId ∈ ids) :
    ∑ id ∈ ids, amountFor writes id =
      ((writes.filter fun wr => ¬ wr.isDirect = true).map (·.credit.amount)).sum := by
  induction writes with
  | nil => exact Finset.sum_eq_zero fun _ _ => rfl
  | cons wr writes ih =>
      rcases List.pairwise_cons.mp honce with ⟨hfirst, hrest⟩
      have ih := ih hrest fun other hother => hids other (List.mem_cons_of_mem wr hother)
      have hskip : ∀ id, wr.origin ≠ .case id →
          ((wr :: writes).find? fun wr => wr.origin = .case id) =
            writes.find? fun wr => wr.origin = .case id :=
        fun id h => List.find?_cons_of_neg fun hp => h (of_decide_eq_true hp)
      rcases hwriter : wr.writer with taskId | approvalId
      · -- A direct write is posted for no case.
        have hdirect : wr.isDirect = true := by
          unfold Write.isDirect
          rw [hwriter]
        have horigin : ∀ id, wr.origin ≠ .case id := by
          intro id
          unfold Write.origin
          rw [hwriter]
          simp only [ne_eq, reduceCtorEq, not_false_eq_true]
        rw [List.filter_cons_of_neg (by simp only [hdirect, not_true_eq_false, decide_false,
          Bool.false_eq_true, not_false_eq_true]), ← ih]
        exact Finset.sum_congr rfl fun id _ => by rw [amountFor, hskip id (horigin id), amountFor]
      · have horigin : wr.origin = .case approvalId := by
          unfold Write.origin
          rw [hwriter]
        have hdirect : wr.isDirect = false := by
          unfold Write.isDirect
          rw [hwriter]
        have hnone : (writes.find? fun other => other.origin = .case approvalId) = none :=
          List.find?_eq_none.mpr fun other hother h =>
            hfirst other hother (horigin.trans (of_decide_eq_true h).symm)
        have hfound : ((wr :: writes).find? fun wr => wr.origin = .case approvalId) = some wr :=
          List.find?_cons_of_pos (decide_eq_true horigin)
        have hone : ∀ id, amountFor (wr :: writes) id =
            (if id = approvalId then wr.credit.amount else 0) + amountFor writes id := by
          intro id
          unfold amountFor
          by_cases hid : id = approvalId
          · rw [hid, hfound, if_pos rfl, hnone]
            exact (add_zero _).symm
          · rw [hskip id fun h => hid (Origin.case.inj (horigin.symm.trans h)).symm, if_neg hid,
              zero_add]
        rw [Finset.sum_congr rfl fun id _ => hone id, Finset.sum_add_distrib,
          Finset.sum_ite_eq', ih, if_pos (hids wr List.mem_cons_self approvalId hwriter),
          List.filter_cons_of_pos (by simp only [hdirect, Bool.false_eq_true, not_false_eq_true,
            decide_true]), List.map_cons, List.sum_cons]

variable {T : Terms} {d : Deployment} {w : World}

/-- The identifiers of the rows. -/
def World.caseIds (w : World) : Finset String :=
  (w.approvals.map (·.approvalId)).toFinset

/-- A sum over the cases is the sum over the rows. -/
theorem sum_caseIds (h : WellFormed w.approvals) (f : String → ℚ) :
    ∑ id ∈ w.caseIds, f id = (w.approvals.map fun row => f row.approvalId).sum := by
  unfold World.caseIds
  rw [List.sum_toFinset f (List.pairwise_map.mpr h.ids), List.map_map]
  rfl

/-- What was posted for the cases is what the executor wrote. -/
theorem executorTotal_eq (h : Provenance T d w) :
    ∑ id ∈ w.caseIds, w.books.postedValue CreditItem.amount id = w.executorTotal := by
  refine posted_sum (origins_once h.ledgered) fun wr hwr approvalId hwriter => ?_
  -- The row behind a write of the executor is there.
  have hok := h.writes wr hwr
  rw [hwriter] at hok
  rcases hok with ⟨row, hrow, hbacks⟩
  exact List.mem_toFinset.mpr (List.mem_map.mpr ⟨row, hrow, hbacks.approvalId⟩)

/-- A sum over cases that counts the rows with a status. -/
theorem sum_status (h : WellFormed w.approvals) {status : ApprovalStatus} {f : String → ℚ}
    (hf : ∀ row ∈ w.approvals, f row.approvalId = if row.status = status then row.amount else 0) :
    ∑ id ∈ w.caseIds, f id = w.amountIn status := by
  rw [sum_caseIds h, List.map_congr_left hf, List.sum_map_ite, World.amountIn]
  have hzero : ∀ rows : List ApprovalRow, (rows.map fun _ => (0 : ℚ)).sum = 0 := by
    intro rows
    refine List.sum_eq_zero fun x hx => ?_
    rcases List.mem_map.mp hx with ⟨_, _, rfl⟩
    rfl
  rw [hzero, add_zero]

end Totals

/-- In every state of every run in which Ruhusa allows only what the policies
    allow, whatever else happens, the ledger is what was written directly and by
    the executor, and the latter is at least what the executed approvals ask for
    and at most that and what the approved ones do. When no approval is waiting
    for its execution, the ledger is the direct credits and the executed
    approvals to the cent. -/
theorem credits_balance (d : Deployment) (sched : List (Core.Action AppCall Env))
    (hpolicy : ∀ i env, Core.Action.advance i env ∈ sched →
      env.Follows (policyRules d.trustDomain)) :
    ((appRun d sched).world.ledger.entries.map (·.amount)).sum =
        (appRun d sched).world.directTotal + (appRun d sched).world.executorTotal ∧
      (appRun d sched).world.amountIn .executed ≤ (appRun d sched).world.executorTotal ∧
      (appRun d sched).world.executorTotal ≤
        (appRun d sched).world.amountIn .executed + (appRun d sched).world.amountIn .approved ∧
      ((∀ row ∈ (appRun d sched).world.approvals, row.status ≠ .approved) →
        ((appRun d sched).world.ledger.entries.map (·.amount)).sum =
          (appRun d sched).world.directTotal + (appRun d sched).world.amountIn .executed) := by
  have h := called_provenance d sched hpolicy (List.append_nil sched).symm
  have hsound : Sound (charter d (Called sched)) (appRun d sched).world.books :=
    sound_run sound_blank (books_between d hpolicy [] sched [] (List.append_nil sched).symm)
  have hbalance := balance CreditItem.amount hsound
    (fun subject hask => le_of_lt (lt_trans (by decide +kernel) hask.1))
    (appRun d sched).world.caseIds
  generalize (appRun d sched).world = w at h hsound hbalance ⊢
  have hexecuted : ∑ id ∈ w.caseIds, w.books.executedValue (charter d (Called sched))
      CreditItem.amount id = w.amountIn .executed := by
    refine sum_status h.table fun row hrow => ?_
    unfold executedValue
    rw [books_case h.table hrow]
    unfold ApprovalRow.stage
    cases row.status <;> rfl
  have howed : ∑ id ∈ w.caseIds, w.books.owedValue (charter d (Called sched))
      CreditItem.amount id = w.amountIn .approved := by
    refine sum_status h.table fun row hrow => ?_
    unfold owedValue
    rw [books_case h.table hrow]
    unfold ApprovalRow.stage
    cases row.status <;> rfl
  rw [hexecuted, howed, executorTotal_eq h] at hbalance
  have htotal : (w.ledger.entries.map (·.amount)).sum = w.directTotal + w.executorTotal := by
    rw [ledgered_entries h.ledgered, List.map_map]
    exact (List.sum_map_filter_add_sum_map_filter_not (fun wr : Write => wr.isDirect = true)
      (fun wr => wr.credit.amount) w.writes).symm
  refine ⟨htotal, hbalance.1, hbalance.2, fun hdone => ?_⟩
  -- Nothing is owed, so the two bounds meet.
  have hnone : w.amountIn .approved = 0 := by
    unfold World.amountIn
    rw [List.filter_eq_nil_iff.mpr fun row hrow h => hdone row hrow (of_decide_eq_true h)]
    rfl
  have hmeet : w.executorTotal = w.amountIn .executed := by
    refine le_antisymm ?_ hbalance.1
    have hupper := hbalance.2
    rwa [hnone, add_zero] at hupper
  rw [htotal, hmeet]

/-- After the credit of 40 is executed, the ledger is that credit. -/
theorem credits_balance_sample :
    ((appRun .sample (approveSchedule .byPolicy)).world.ledger.entries.map (·.amount)).sum =
        (appRun .sample (approveSchedule .byPolicy)).world.directTotal +
          (appRun .sample (approveSchedule .byPolicy)).world.amountIn .executed ∧
      (appRun .sample (approveSchedule .byPolicy)).world.amountIn .executed = 40 := by
  refine ⟨(credits_balance .sample (approveSchedule .byPolicy) approveSchedule_follows).2.2.2 ?_,
    by decide +kernel⟩
  have hrows : (appRun .sample (approveSchedule .byPolicy)).world.approvals.all
      (fun row => row.status ≠ .approved) = true := by decide +kernel
  exact fun row hrow => of_decide_eq_true (List.all_eq_true.mp hrows row hrow)

end Asante
