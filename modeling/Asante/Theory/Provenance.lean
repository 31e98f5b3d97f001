import Asante.Theory.ApprovalTable
import Asante.Theory.Ledger

/-!
# Credit Provenance

Where every credit comes from. A credit is written by the direct tool within
the bounds of its policy, or by the executor for a row of the approval table
that asked for just that reservation and amount and was approved.

`Provenance` is the invariant behind that, over the ledger, its history and the
approval table together. It ties each write to its row, each decided row to the
human who decided it, and each executed row to the write that executed it and
to the result that was stored. Nothing in it can be taken back: a row only ever
continues, so what was once tied stays tied.

What the invariant assumes of the outside is a parameter. `Terms` names the
amounts Ruhusa lets through, the humans who may approve, the environments a
command may meet, and the approvals that are to stay live, for which nothing is
denied and nothing fails. The results choose the terms; the steps are proved
once.

## Main definitions

* `Reports`: A result reports the credit of a row.
* `Env.Succeeds`, `Smooth`: Environments in which nothing fails.
* `Terms`: What is assumed of amounts, approvers and environments.
* `Backs`, `WriteOk`, `RowOk`: What ties writes to rows and back.
* `Provenance`: The invariant.
* `provenanceDiscipline`: The discipline it makes.

## Theorems

* `provenance_issue`: A ledger call that is tied to its row.
* `provenance_table`: A step of the table.
* `provenance_create`, `provenance_decide`, `provenance_markExecuted`: The
  commands on the table.
-/

namespace Asante

open Core.Prog Core.KeyedLog

/-- The result reports the credit of the row as issued. -/
structure Reports (row : ApprovalRow) (result : PyDict) : Prop where
  status : result.get? "status" = some (.str "issued")
  reservation : result.get? "reservation_id" = some (.str row.reservationId)
  amount : result.get? "amount" = some (.num row.amount)

/-- Ruhusa allows everything, and nothing fails. -/
structure Env.Succeeds (env : Env) : Prop where
  fault : env.fault = .none
  create : ∀ req, env.create req = none
  begin : ∀ req, (env.begin req).allowed = true ∧ (env.begin req).permit ≠ none
  revalidate : ∀ req permit, (env.revalidate req permit).allowed = true
  complete : ∀ permit, env.complete permit = true

/-- Everything succeeds, and a decision to approve does not meet a row that
    another call has executed. -/
structure Smooth (approvalId : String) (c : Cmd) (env : Env) (w : World) : Prop
    extends env.Succeeds where
  decide : ∀ decidedBy note, c = .decideLocked approvalId true decidedBy note →
    ∀ row ∈ w.approvals, row.approvalId = approvalId → row.status ≠ .executed

/-- What is assumed of the outside: the amounts Ruhusa lets through, the humans
    who may approve, the environments a command may meet, and the approvals
    that are to stay live. -/
structure Terms where
  direct : ℚ → Prop
  request : ℚ → Prop
  approver : String → String → Prop
  live : String → Prop
  adm : Cmd → Env → World → Prop
  directAllowed : ∀ req permit env w amount, adm (.revalidate req permit) env w →
    (env.revalidate req permit).allowed = true → req.action = "guest.credit.issue" →
    amountArgument req = some amount → direct amount
  requestAllowed : ∀ req permit env w amount, adm (.revalidate req permit) env w →
    (env.revalidate req permit).allowed = true → req.action = "guest.credit.request" →
    amountArgument req = some amount → request amount
  smooth : ∀ approvalId, live approvalId → ∀ c env w, adm c env w → Smooth approvalId c env w

/-- The row was approved, or has been executed since. -/
def ApprovalRow.Granted (row : ApprovalRow) : Prop :=
  row.status = .approved ∨ row.status = .executed

/-- The row asked for just this credit, and was approved. -/
structure Backs (row : ApprovalRow) (approvalId : String) (credit : Credit) : Prop where
  approvalId : row.approvalId = approvalId
  reservationId : row.reservationId = credit.reservationId
  amount : row.amount = credit.amount
  granted : row.Granted

/-- A direct write is within bounds; an approved one is backed by a row. -/
def WriteOk (T : Terms) (table : ApprovalTable) : Writer → Credit → Prop
  | .issueCredit _, credit => T.direct credit.amount
  | .approvedExecutor approvalId, credit => ∃ row ∈ table, Backs row approvalId credit

/-- A row asks within bounds, was approved by one who may, and if it is executed
    the credit was written and the stored result reports it. -/
structure RowOk (T : Terms) (writes : List Write) (row : ApprovalRow) : Prop where
  amount : T.request row.amount
  approver : row.Granted → ∃ human, row.decidedBy = some human ∧ T.approver row.approvalId human
  written : row.status = .executed →
    ∃ wr ∈ writes, wr.writer = .approvedExecutor row.approvalId
  reported : row.status = .executed →
    ∃ result, (fromRow row).executionResult = some result ∧ Reports row result

/-- Every credit has its origin, and every row its due. -/
structure Provenance (T : Terms) (d : Deployment) (w : World) : Prop where
  ledgered : Ledgered d w
  table : WellFormed w.approvals
  writes : ∀ wr ∈ w.writes, WriteOk T w.approvals wr.writer wr.credit
  rows : ∀ row ∈ w.approvals, RowOk T w.writes row
  live : ∀ approvalId, T.live approvalId →
    ∃ row ∈ w.approvals, row.approvalId = approvalId ∧ row.status ≠ .denied

/-- The history of the ledger extends, and every row continues. -/
structure Grows (v w : World) : Prop where
  writes : v.writes <+: w.writes
  rows : ∀ row ∈ v.approvals, ∃ later ∈ w.approvals, Continues row later

theorem grows_refl (w : World) : Grows w w :=
  ⟨List.prefix_rfl, fun row hrow => ⟨row, hrow, continues_refl row⟩⟩

theorem grows_trans {u v w : World} (h1 : Grows u v) (h2 : Grows v w) : Grows u w := by
  refine ⟨h1.writes.trans h2.writes, fun row hrow => ?_⟩
  rcases h1.rows row hrow with ⟨mid, hmid, hcont⟩
  rcases h2.rows mid hmid with ⟨later, hlater, hcont'⟩
  exact ⟨later, hlater, continues_trans hcont hcont'⟩

theorem granted_continues {row later : ApprovalRow} (h : Continues row later)
    (hgranted : row.Granted) : later.Granted := by
  have hlead := h.status
  unfold ApprovalRow.Granted at hgranted ⊢
  -- From approved the row can only be approved or executed, and from executed nowhere.
  revert hlead
  rcases hgranted with hs | hs
  · rw [hs]
    cases later.status <;> decide
  · rw [hs]
    cases later.status <;> decide

theorem denied_continues {row later : ApprovalRow} (h : Continues row later)
    (hdenied : row.status = .denied) : later.status = .denied := by
  have hlead := h.status
  rw [hdenied] at hlead
  revert hlead
  cases later.status <;> decide

theorem reports_continues {row later : ApprovalRow} (h : Continues row later) {result : PyDict}
    (hreports : Reports row result) : Reports later result := by
  refine ⟨hreports.status, ?_, ?_⟩
  · rw [h.reservationId]
    exact hreports.reservation
  · rw [h.amount]
    exact hreports.amount

theorem backs_continues {row later : ApprovalRow} (h : Continues row later) {approvalId : String}
    {credit : Credit} (hbacks : Backs row approvalId credit) : Backs later approvalId credit :=
  ⟨h.approvalId.trans hbacks.approvalId, h.reservationId.trans hbacks.reservationId,
    h.amount.trans hbacks.amount, granted_continues h hbacks.granted⟩

/-- The discipline of credit provenance. -/
def provenanceDiscipline (T : Terms) (d : Deployment) : AppDiscipline where
  inv := Provenance T d
  le := Grows
  adm := T.adm
  refl := grows_refl
  trans := grows_trans
  core := by
    intro v v' hcore h
    rcases Prod.mk.inj hcore with ⟨hledger, hrest⟩
    rcases Prod.mk.inj hrest with ⟨hwrites, htable⟩
    refine ⟨⟨⟨?_, ?_⟩, ?_, ?_, ?_, ?_⟩, ⟨hwrites.symm ▸ List.prefix_rfl, ?_⟩⟩
    · -- The table, the ledger and its history are all that the invariant reads.
      rw [hledger, hwrites]
      exact h.ledgered.tracks
    · rw [hwrites]
      exact h.ledgered.keyed
    · rw [htable]
      exact h.table
    · rw [hwrites, htable]
      exact h.writes
    · rw [hwrites, htable]
      exact h.rows
    · rw [htable]
      exact h.live
    · rw [htable]
      exact fun row hrow => ⟨row, hrow, continues_refl row⟩

section Steps

variable {T : Terms} {d : Deployment} {w : World}

theorem writeOk_grows {v : World} (h : Grows w v) {writer : Writer} {credit : Credit}
    (hok : WriteOk T w.approvals writer credit) : WriteOk T v.approvals writer credit := by
  cases writer with
  | issueCredit taskId => exact hok
  | approvedExecutor approvalId =>
      -- The backing row continues, and still backs the credit.
      rcases hok with ⟨row, hrow, hbacks⟩
      rcases h.rows row hrow with ⟨later, hlater, hcont⟩
      exact ⟨later, hlater, backs_continues hcont hbacks⟩

theorem rowOk_grows {v : World} {row : ApprovalRow} (h : Grows w v) (hok : RowOk T w.writes row) :
    RowOk T v.writes row := by
  refine ⟨hok.amount, hok.approver, fun hexecuted => ?_, hok.reported⟩
  rcases hok.written hexecuted with ⟨wr, hwr, hwriter⟩
  exact ⟨wr, h.writes.subset hwr, hwriter⟩

theorem rowOk_pending {writes : List Write} {row : ApprovalRow} (hr : T.request row.amount)
    (hpending : row.status = .pending) : RowOk T writes row := by
  -- A pending row is neither granted nor executed, so nothing is due but the bounds.
  have hnot : ∀ {s : ApprovalStatus}, row.status = s → s = .pending :=
    fun hs => hs.symm.trans hpending
  refine ⟨hr, fun hgranted => ?_, fun hs => ?_, fun hs => ?_⟩
  · rcases hgranted with hs | hs
    · exact ApprovalStatus.noConfusion (hnot hs)
    · exact ApprovalStatus.noConfusion (hnot hs)
  · exact ApprovalStatus.noConfusion (hnot hs)
  · exact ApprovalStatus.noConfusion (hnot hs)

/-- A ledger call under its writer's key, for a credit that is within bounds or
    backed by a row, keeps the invariant. -/
theorem provenance_issue (h : Provenance T d w) (env : Env) (writer : Writer) (credit : Credit)
    (hok : WriteOk T w.approvals writer credit) :
    Provenance T d
        (perform (.ledgerIssue writer credit (some (writerKey d writer credit))) env w).2 ∧
      Grows w
        (perform (.ledgerIssue writer credit (some (writerKey d writer credit))) env w).2 := by
  rcases perform_issue_cases writer credit (some (writerKey d writer credit)) env with hsame | hcall
  · -- The call was lost to a fault.
    rw [hsame]
    exact ⟨h, grows_refl w⟩
  · rw [hcall]
    rcases ledgered_issue h.ledgered writer credit with ⟨hledgered, hextends⟩
    have hgrows : Grows w (w.issue writer credit (some (writerKey d writer credit))) :=
      ⟨hextends, fun row hrow => ⟨row, hrow, continues_refl row⟩⟩
    -- The table is untouched, so only the writes need an account: an old one has it, and the
    -- new one is the hypothesis.
    refine ⟨⟨hledgered, h.table, fun wr hwr => ?_, fun row hrow => ?_, h.live⟩, hgrows⟩
    · rcases issue_writes wr hwr with hold | hnew
      · exact h.writes wr hold
      · rw [hnew]
        exact hok
    · exact rowOk_grows hgrows (h.rows row hrow)

/-- A step of the table whose rows have their due keeps the invariant. -/
theorem provenance_table (h : Provenance T d w) {table : ApprovalTable}
    (hstep : TableStep w.approvals table) (hrows : ∀ row ∈ table, RowOk T w.writes row)
    (hlive : ∀ approvalId, T.live approvalId → ∀ row ∈ table, row.approvalId = approvalId →
      row.status ≠ .denied) :
    Provenance T d { w with approvals := table } ∧ Grows w { w with approvals := table } := by
  have hgrows : Grows w { w with approvals := table } :=
    ⟨List.prefix_rfl, step_kept h.table hstep⟩
  refine ⟨⟨⟨h.ledgered.tracks, h.ledgered.keyed⟩, wellFormed_step h.table hstep,
    fun wr hwr => writeOk_grows hgrows (h.writes wr hwr), hrows, fun approvalId ha => ?_⟩, hgrows⟩
  -- The row of a live approval continues, and no row under its identifier is denied.
  rcases h.live approvalId ha with ⟨row, hrow, hid, _⟩
  rcases hgrows.rows row hrow with ⟨later, hlater, hcont⟩
  exact ⟨later, hlater, hcont.approvalId.trans hid,
    hlive approvalId ha later hlater (hcont.approvalId.trans hid)⟩

/-- No row of a live approval is denied. -/
theorem live_not_denied (h : Provenance T d w) {approvalId : String} (ha : T.live approvalId) :
    ∀ row ∈ w.approvals, row.approvalId = approvalId → row.status ≠ .denied := by
  intro row hrow hid
  rcases h.live approvalId ha with ⟨found, hfound, hfoundId, hstatus⟩
  rw [eq_of_id h.table.ids hrow hfound (hid.trans hfoundId.symm)]
  exact hstatus

/-- A row of an updated table is a row of the table, updated if it is the one
    that was selected. -/
theorem mem_updateRow {table : ApprovalTable}
    (hids : table.Pairwise fun row other => row.approvalId ≠ other.approvalId)
    {approvalId : String} {f : ApprovalRow → ApprovalRow} {row new : ApprovalRow}
    (hsel : selectById table approvalId = some row) (hnew : new ∈ updateRow table approvalId f) :
    new = f row ∨ (new ∈ table ∧ new.approvalId ≠ approvalId) := by
  rcases updateRow_origin hnew with hkept | ⟨old, hold, hid, rfl⟩
  · exact Or.inr hkept
  · -- Identifiers are unique, so the old row is the one selected.
    rcases selectById_some hsel with ⟨hmem, hselected⟩
    rw [eq_of_id hids hold hmem (hid.trans hselected.symm)]
    exact Or.inl rfl

/-- The updated row is in the updated table. -/
theorem updated_mem {table : ApprovalTable} {approvalId : String} {f : ApprovalRow → ApprovalRow}
    {row : ApprovalRow} (hsel : selectById table approvalId = some row) :
    f row ∈ updateRow table approvalId f := by
  rcases selectById_some hsel with ⟨hmem, hid⟩
  exact List.mem_map.mpr ⟨row, hmem, if_pos hid⟩

/-- A command on the table does nothing, or what its locked section does. -/
theorem provenance_apply {X : Type} (h : Provenance T d w) (env : Env)
    (answer : Except Exc X × ApprovalTable)
    (hanswer : Provenance T d { w with approvals := answer.2 } ∧
      Grows w { w with approvals := answer.2 }) :
    Provenance T d (env.fault.apply w (answer.1, { w with approvals := answer.2 })).2 ∧
      Grows w (env.fault.apply w (answer.1, { w with approvals := answer.2 })).2 := by
  rcases apply_cases env.fault w (answer.1, { w with approvals := answer.2 }) with hsame | hdone
  · rw [hsame]
    exact ⟨h, grows_refl w⟩
  · rw [hdone]
    exact hanswer

/-- A request within bounds keeps the invariant. -/
theorem provenance_create (h : Provenance T d w) (env : Env) (r : CreditRequest)
    (hr : T.request r.amount) :
    Provenance T d (perform (.createCreditRequest r) env w).2 ∧
      Grows w (perform (.createCreditRequest r) env w).2 := by
  refine provenance_apply h env (createCreditRequest env.nowText env.uuid r w.approvals) ?_
  have hstep := createCreditRequest_step env.nowText env.uuid r h.table
  rcases createCreditRequest_cases env.nowText env.uuid r w.approvals with
    ⟨row, _, hans⟩ | ⟨_, _, hans⟩ | ⟨_, e, hans⟩
  · -- The row was there already, and is returned.
    rw [hans]
    exact ⟨h, grows_refl w⟩
  · rw [hans] at hstep ⊢
    refine provenance_table h hstep (fun row hrow => ?_) (fun approvalId ha row hrow hid => ?_)
    · rcases List.mem_append.mp hrow with hold | hnew
      · exact h.rows row hold
      · -- Nothing is owed to a pending row but its bounds.
        rw [List.mem_singleton.mp hnew]
        exact rowOk_pending hr rfl
    · rcases List.mem_append.mp hrow with hold | hnew
      · exact live_not_denied h ha row hold hid
      · rw [List.mem_singleton.mp hnew]
        exact ApprovalStatus.noConfusion
  · -- The insert failed on its identifier.
    rw [hans]
    exact ⟨h, grows_refl w⟩

/-- A decision by one who may approve, or a denial of an approval that need not
    stay live, keeps the invariant. -/
theorem provenance_decide (h : Provenance T d w) (env : Env) (approvalId : String)
    (approved : Bool) (decidedBy : String) (note : Option String)
    (happroved : approved = true → T.approver approvalId decidedBy)
    (hdenied : approved = false → ¬ T.live approvalId) :
    Provenance T d (perform (.decideLocked approvalId approved decidedBy note) env w).2 ∧
      Grows w (perform (.decideLocked approvalId approved decidedBy note) env w).2 := by
  refine provenance_apply h env
    (decideLocked env.nowText approvalId approved decidedBy note w.approvals) ?_
  have hstep : TableStep w.approvals
      (decideLocked env.nowText approvalId approved decidedBy note w.approvals).2 :=
    decideLocked_step env.nowText approvalId decidedBy approved note
  rcases decideLocked_cases env.nowText approvalId decidedBy approved note w.approvals with
    ⟨e, _, hans⟩ | ⟨row, _, _, hans⟩ | ⟨row, hsel, _, hans⟩
  · -- Refused, or decided the same way before: the table is as it was.
    rw [hans]
    exact ⟨h, grows_refl w⟩
  · rw [hans]
    exact ⟨h, grows_refl w⟩
  · rw [hans] at hstep ⊢
    dsimp only at hstep ⊢
    rw [updateDecision_eq] at hstep ⊢
    rcases selectById_some hsel with ⟨hmem, hid⟩
    refine provenance_table h hstep (fun new hnew => ?_) (fun a ha new hnew hnewId => ?_)
    · rcases mem_updateRow h.table.ids hsel hnew with hupdated | ⟨hold, _⟩
      · -- The decided row is not executed, so only its approver is owed.
        rw [hupdated]
        refine ⟨(h.rows row hmem).amount, fun hgranted => ⟨decidedBy, rfl, ?_⟩, fun hs => ?_,
          fun hs => ?_⟩
        · change T.approver row.approvalId decidedBy
          rw [hid]
          refine happroved ?_
          by_contra hno
          rw [Bool.not_eq_true] at hno
          rw [hno] at hgranted
          rcases hgranted with hs | hs <;> cases hs
        · cases approved <;> cases hs
        · cases approved <;> cases hs
      · exact h.rows new hold
    · rcases mem_updateRow h.table.ids hsel hnew with hupdated | ⟨hold, _⟩
      · intro hs
        rw [hupdated] at hs hnewId
        have hsame : approvalId = a := hid.symm.trans hnewId
        cases happr : approved with
        -- An approved row is not denied.
        | true =>
            rw [happr] at hs
            cases hs
        -- A denial is allowed only for an approval that need not stay live.
        | false =>
            rw [← hsame] at ha
            exact hdenied happr ha
      · exact live_not_denied h ha new hold hnewId

/-- Executing an approval whose credit was written, with a result that reports
    it, keeps the invariant. -/
theorem provenance_markExecuted (h : Provenance T d w) (env : Env) (approvalId : String)
    (result : PyDict) (hwritten : ∃ wr ∈ w.writes, wr.writer = .approvedExecutor approvalId)
    (hreports : ∀ row ∈ w.approvals, row.approvalId = approvalId → Reports row result) :
    Provenance T d (perform (.markExecutedLocked approvalId result) env w).2 ∧
      Grows w (perform (.markExecutedLocked approvalId result) env w).2 := by
  refine provenance_apply h env (markExecutedLocked env.nowText approvalId result w.approvals) ?_
  have hstep : TableStep w.approvals
      (markExecutedLocked env.nowText approvalId result w.approvals).2 :=
    markExecutedLocked_step env.nowText approvalId result
  rcases markExecutedLocked_cases env.nowText approvalId result w.approvals with
    ⟨e, _, hans⟩ | ⟨row, _, _, hans⟩ | ⟨row, hsel, happroved, hans⟩
  · -- Refused, or executed before: the table is as it was.
    rw [hans]
    exact ⟨h, grows_refl w⟩
  · rw [hans]
    exact ⟨h, grows_refl w⟩
  · rw [hans] at hstep ⊢
    dsimp only at hstep ⊢
    rw [updateExecuted_eq] at hstep ⊢
    rcases selectById_some hsel with ⟨hmem, hid⟩
    refine provenance_table h hstep (fun new hnew => ?_) (fun a ha new hnew hnewId => ?_)
    · -- The executed row is owed its approver, its write and a result that reports it.
      rcases mem_updateRow h.table.ids hsel hnew with hupdated | ⟨hold, _⟩
      · rw [hupdated]
        have hrow := h.rows row hmem
        have hreport := hreports row hmem hid
        refine ⟨hrow.amount, fun _ => hrow.approver (Or.inl happroved), fun _ => ?_,
          fun _ => ⟨result, rfl, hreport.status, hreport.reservation, hreport.amount⟩⟩
        rcases hwritten with ⟨wr, hwr, hwriter⟩
        exact ⟨wr, hwr, by rw [hwriter, hid]⟩
      · exact h.rows new hold
    · rcases mem_updateRow h.table.ids hsel hnew with hupdated | ⟨hold, _⟩
      · rw [hupdated]
        exact ApprovalStatus.noConfusion
      · exact live_not_denied h ha new hold hnewId

end Steps

end Asante
