import Asante.Model.Approvals
import Mathlib.Data.List.Pairwise

/-!
# The Approval Table

What the statements of the approval store can do to the table, said once.

`RowStep` is everything that can happen to a row: nothing, a decision while it
is pending, or an execution while it is approved. `TableStep` lifts that to the
table: one row takes a step, or one fresh row is appended. Each method of the
store is inverted into these, guards included, and from there on no proof looks
at a method again.

A table is well formed when its identifiers are distinct, its credits are
distinct, and each row fills exactly the columns its status calls for. A step
keeps a table well formed. `Continues` is what survives any number of steps for
a row: its identity, its request, its decision once there is one, and a status
reached along the edges of the state machine.

## Main definitions

* `StatusEdge`, `ApprovalStatus.leadsTo`: One transition, and any number.
* `RowStep`, `TableStep`: What one statement may do.
* `ApprovalRow.Consistent`, `WellFormed`: The invariant of the table.
* `Continues`: How a row may differ from its past.

## Theorems

* `decideLocked_cases`, `markExecutedLocked_cases`,
  `createCreditRequest_cases`: What each method did.
* `wellFormed_step`: A step keeps a table well formed.
* `step_kept`: Every row stays in its place and continues.
* `selectById_of_mem`: A row is found under its identifier.
-/

namespace Asante

/-- One transition of the approval state machine. -/
inductive StatusEdge : ApprovalStatus → ApprovalStatus → Prop where
  | approve : StatusEdge .pending .approved
  | deny : StatusEdge .pending .denied
  | execute : StatusEdge .approved .executed

/-- Any number of transitions. -/
def ApprovalStatus.leadsTo : ApprovalStatus → ApprovalStatus → Bool
  | pending, _ => true
  | approved, s => s = approved || s = executed
  | denied, s => s = denied
  | executed, s => s = executed

theorem leadsTo_refl (s : ApprovalStatus) : s.leadsTo s = true := by
  cases s <;> rfl

theorem leadsTo_trans {s t u : ApprovalStatus} (h1 : s.leadsTo t = true)
    (h2 : t.leadsTo u = true) : s.leadsTo u = true := by
  revert h1 h2
  cases s <;> cases t <;> cases u <;> decide

/-- What one statement may do to a row. -/
inductive RowStep : ApprovalRow → ApprovalRow → Prop where
  | same (row : ApprovalRow) : RowStep row row
  | decided (row : ApprovalRow) (approved : Bool) (now decidedBy : String) (note : Option String)
      (h : row.status = .pending) : RowStep row { row with
        status := decisionTarget approved
        decidedAt := some now
        decidedBy := some decidedBy
        decisionNote := note }
  | executed (row : ApprovalRow) (now : String) (json : JsonText) (h : row.status = .approved) :
      RowStep row { row with
        status := .executed
        executedAt := some now
        executionResultJson := some json }

/-- The columns a row fills are the ones its status calls for. -/
structure ApprovalRow.Consistent (row : ApprovalRow) : Prop where
  action : row.action = approvedCreditAction
  decidedAt : row.decidedAt.isSome = true ↔ row.status ≠ .pending
  decidedBy : row.decidedBy.isSome = true ↔ row.status ≠ .pending
  executedAt : row.executedAt.isSome = true ↔ row.status = .executed
  executionResult : row.executionResultJson.isSome = true ↔ row.status = .executed

/-- Two rows ask for the same credit. -/
def ApprovalRow.SameCredit (row other : ApprovalRow) : Prop :=
  row.taskId = other.taskId ∧ row.reservationId = other.reservationId ∧ row.amount = other.amount

/-- Distinct identifiers, distinct credits, consistent rows. -/
structure WellFormed (table : ApprovalTable) : Prop where
  ids : table.Pairwise fun row other => row.approvalId ≠ other.approvalId
  credits : table.Pairwise fun row other => ¬ row.SameCredit other
  rows : ∀ row ∈ table, row.Consistent

/-- How a row may differ from its past: the request is as it was inserted, the
    decision is as it was taken, and the status has moved along the edges. -/
structure Continues (row later : ApprovalRow) : Prop where
  approvalId : later.approvalId = row.approvalId
  action : later.action = row.action
  taskId : later.taskId = row.taskId
  requestedBy : later.requestedBy = row.requestedBy
  reservationId : later.reservationId = row.reservationId
  amount : later.amount = row.amount
  reason : later.reason = row.reason
  policyId : later.policyId = row.policyId
  createdAt : later.createdAt = row.createdAt
  status : row.status.leadsTo later.status = true
  decision : row.status ≠ .pending → later.decidedAt = row.decidedAt ∧
    later.decidedBy = row.decidedBy ∧ later.decisionNote = row.decisionNote
  execution : row.status = .executed → later = row

theorem continues_refl (row : ApprovalRow) : Continues row row :=
  ⟨rfl, rfl, rfl, rfl, rfl, rfl, rfl, rfl, rfl, leadsTo_refl _, fun _ => ⟨rfl, rfl, rfl⟩,
    fun _ => rfl⟩

theorem continues_trans {row mid later : ApprovalRow} (h1 : Continues row mid)
    (h2 : Continues mid later) : Continues row later where
  approvalId := h2.approvalId.trans h1.approvalId
  action := h2.action.trans h1.action
  taskId := h2.taskId.trans h1.taskId
  requestedBy := h2.requestedBy.trans h1.requestedBy
  reservationId := h2.reservationId.trans h1.reservationId
  amount := h2.amount.trans h1.amount
  reason := h2.reason.trans h1.reason
  policyId := h2.policyId.trans h1.policyId
  createdAt := h2.createdAt.trans h1.createdAt
  status := leadsTo_trans h1.status h2.status
  decision := by
    intro hdecided
    -- A decided row stays decided, so both halves freeze the decision.
    have hmid : mid.status ≠ .pending := by
      intro hp
      have hlead := h1.status
      rw [hp] at hlead
      revert hlead hdecided
      cases row.status <;> decide
    rcases h1.decision hdecided with ⟨ha, hb, hc⟩
    rcases h2.decision hmid with ⟨ha', hb', hc'⟩
    exact ⟨ha'.trans ha, hb'.trans hb, hc'.trans hc⟩
  execution := by
    intro hexec
    have hsame := h1.execution hexec
    rw [hsame] at h2
    exact h2.execution hexec

theorem continues_of_rowStep {row later : ApprovalRow} (h : RowStep row later) :
    Continues row later := by
  cases h with
  | same => exact continues_refl _
  | decided approved now decidedBy note hp =>
      -- Only a pending row is decided, so nothing frozen is written.
      refine ⟨rfl, rfl, rfl, rfl, rfl, rfl, rfl, rfl, rfl, ?_, fun hd => absurd hp hd,
        fun he => ?_⟩
      · rw [hp]
        rfl
      · rw [hp] at he
        exact absurd he (by decide)
  | executed now json ha =>
      -- Only an approved row is executed; its decision columns are not written.
      refine ⟨rfl, rfl, rfl, rfl, rfl, rfl, rfl, rfl, rfl, ?_, fun _ => ⟨rfl, rfl, rfl⟩,
        fun he => ?_⟩
      · rw [ha]
        rfl
      · rw [ha] at he
        exact absurd he (by decide)

/-- A row's status moves along at most one edge. -/
theorem rowStep_status {row later : ApprovalRow} (h : RowStep row later) :
    row.status = later.status ∨ StatusEdge row.status later.status := by
  cases h with
  | same => exact Or.inl rfl
  | decided approved now decidedBy note hp =>
      rw [hp]
      cases approved with
      | true => exact Or.inr .approve
      | false => exact Or.inr .deny
  | executed now json ha =>
      rw [ha]
      exact Or.inr .execute

theorem consistent_of_rowStep {row later : ApprovalRow} (h : RowStep row later)
    (hc : row.Consistent) : later.Consistent := by
  cases h with
  | same => exact hc
  | decided approved now decidedBy note hp =>
      have hexecuted : decisionTarget approved ≠ .executed := by
        cases approved <;> decide
      have hpending : decisionTarget approved ≠ .pending := by
        cases approved <;> decide
      -- Nothing was executed before the decision, so those columns stay null.
      have hnone : row.status ≠ .executed := by
        rw [hp]
        decide
      refine ⟨hc.action, iff_of_true rfl hpending, iff_of_true rfl hpending, ?_, ?_⟩
      · exact iff_of_false (fun hs => hnone (hc.executedAt.mp hs)) hexecuted
      · exact iff_of_false (fun hs => hnone (hc.executionResult.mp hs)) hexecuted
  | executed now json ha =>
      have hdecided : row.status ≠ .pending := by
        rw [ha]
        decide
      -- An approved row was decided before, and the update fills both execution columns.
      refine ⟨hc.action, ?_, ?_, iff_of_true rfl rfl, iff_of_true rfl rfl⟩
      · exact iff_of_true (hc.decidedAt.mpr hdecided) ApprovalStatus.noConfusion
      · exact iff_of_true (hc.decidedBy.mpr hdecided) ApprovalStatus.noConfusion

section Statements

variable {table : ApprovalTable}

theorem selectById_some {approvalId : String} {row : ApprovalRow}
    (h : selectById table approvalId = some row) : row ∈ table ∧ row.approvalId = approvalId := by
  unfold selectById at h
  exact ⟨List.mem_of_find?_eq_some h, by simpa only [decide_eq_true_eq] using List.find?_some h⟩

theorem selectById_none {approvalId : String} (h : selectById table approvalId = none) :
    ∀ row ∈ table, row.approvalId ≠ approvalId := by
  unfold selectById at h
  intro row hrow
  simpa only [decide_eq_true_eq] using List.find?_eq_none.mp h row hrow

/-- Two rows under one identifier are one row. -/
theorem eq_of_id (hids : table.Pairwise fun row other => row.approvalId ≠ other.approvalId)
    {row other : ApprovalRow} (hrow : row ∈ table) (hother : other ∈ table)
    (h : row.approvalId = other.approvalId) : row = other := by
  by_contra hne
  -- `Pairwise` orders the pair; the relation is symmetric, so the order does not matter.
  have : Std.Symm fun row other : ApprovalRow => row.approvalId ≠ other.approvalId :=
    ⟨fun _ _ hab => hab.symm⟩
  exact hids.forall hrow hother hne h

/-- A row is found under its identifier. -/
theorem selectById_of_mem
    (hids : table.Pairwise fun row other => row.approvalId ≠ other.approvalId)
    {row : ApprovalRow} (h : row ∈ table) : selectById table row.approvalId = some row := by
  rcases hsel : selectById table row.approvalId with _ | found
  · exact absurd rfl (selectById_none hsel row h)
  · rcases selectById_some hsel with ⟨hmem, hid⟩
    rw [eq_of_id hids hmem h hid]

/-- Two rows asking for the same credit are one row. -/
theorem eq_of_credit (hcredits : table.Pairwise fun row other => ¬ row.SameCredit other)
    {row other : ApprovalRow} (hrow : row ∈ table) (hother : other ∈ table)
    (h : row.SameCredit other) : row = other := by
  by_contra hne
  have : Std.Symm fun row other : ApprovalRow => ¬ row.SameCredit other :=
    ⟨fun _ _ hab hba => hab ⟨hba.1.symm, hba.2.1.symm, hba.2.2.symm⟩⟩
  exact hcredits.forall hrow hother hne h

theorem isCredit_iff {row : ApprovalRow} (hc : row.action = approvedCreditAction)
    (taskId reservationId : String) (amount : ℚ) :
    row.isCredit taskId reservationId amount = true ↔
      row.taskId = taskId ∧ row.reservationId = reservationId ∧ row.amount = amount := by
  simp only [ApprovalRow.isCredit, hc, decide_true, Bool.true_and, Bool.and_eq_true,
    decide_eq_true_eq, and_assoc]

/-- The rows `find_credit_request` chooses from are the matching rows. -/
theorem mem_credit_candidates {row : ApprovalRow} (taskId reservationId : String) (amount : ℚ) :
    row ∈ (table.filter (·.isCredit taskId reservationId amount)).insertionSort
        (fun a b => a.createdAt ≤ b.createdAt) ↔
      row ∈ table ∧ row.isCredit taskId reservationId amount = true := by
  rw [List.mem_insertionSort, List.mem_filter]

theorem selectCredit_some {taskId reservationId : String} {amount : ℚ} {row : ApprovalRow}
    (h : selectCredit table taskId reservationId amount = some row) :
    row ∈ table ∧ row.isCredit taskId reservationId amount = true := by
  unfold selectCredit at h
  exact (mem_credit_candidates _ _ _).mp (List.mem_of_head? h)

theorem selectCredit_none {taskId reservationId : String} {amount : ℚ}
    (h : selectCredit table taskId reservationId amount = none) :
    ∀ row ∈ table, row.isCredit taskId reservationId amount = false := by
  intro row hrow
  by_contra hc
  rw [Bool.not_eq_false] at hc
  unfold selectCredit at h
  -- A matching row would be a candidate, and there are none.
  have hmem := (mem_credit_candidates taskId reservationId amount).mpr ⟨hrow, hc⟩
  rw [List.head?_eq_none_iff.mp h] at hmem
  exact absurd hmem List.not_mem_nil

/-- Under distinct credits the matching row is the one found. -/
theorem selectCredit_of_mem (hw : WellFormed table) {row : ApprovalRow} (h : row ∈ table) :
    selectCredit table row.taskId row.reservationId row.amount = some row := by
  have hrow := (isCredit_iff (hw.rows row h).action _ _ _).mpr ⟨rfl, rfl, rfl⟩
  rcases hsel : selectCredit table row.taskId row.reservationId row.amount with _ | found
  · exact absurd (selectCredit_none hsel row h) (by rw [hrow]; decide)
  · rcases selectCredit_some hsel with ⟨hmem, hcredit⟩
    have hsame : found.SameCredit row :=
      (isCredit_iff (hw.rows found hmem).action _ _ _).mp hcredit
    rw [eq_of_credit hw.credits hmem h hsame]

/-- An `UPDATE ... WHERE approval_id = ?`. -/
def updateRow (table : ApprovalTable) (approvalId : String) (f : ApprovalRow → ApprovalRow) :
    ApprovalTable :=
  table.map fun row => if row.approvalId = approvalId then f row else row

theorem updateDecision_eq (approvalId : String) (target : ApprovalStatus)
    (decidedAt decidedBy : String) (note : Option String) :
    updateDecision table approvalId target decidedAt decidedBy note =
      updateRow table approvalId fun row => { row with
        status := target
        decidedAt := some decidedAt
        decidedBy := some decidedBy
        decisionNote := note } := rfl

theorem updateExecuted_eq (approvalId executedAt : String) (json : JsonText) :
    updateExecuted table approvalId executedAt json =
      updateRow table approvalId fun row => { row with
        status := .executed
        executedAt := some executedAt
        executionResultJson := some json } := rfl

/-- A row of an updated table was there, or is the update of one that was. -/
theorem updateRow_origin {approvalId : String} {f : ApprovalRow → ApprovalRow} {new : ApprovalRow}
    (h : new ∈ updateRow table approvalId f) :
    (new ∈ table ∧ new.approvalId ≠ approvalId) ∨
      ∃ old ∈ table, old.approvalId = approvalId ∧ new = f old := by
  rcases List.mem_map.mp h with ⟨old, hold, heq⟩
  by_cases hid : old.approvalId = approvalId
  · rw [if_pos hid] at heq
    exact Or.inr ⟨old, hold, hid, heq.symm⟩
  · rw [if_neg hid] at heq
    rw [← heq]
    exact Or.inl ⟨hold, hid⟩

theorem updateRow_getElem? (approvalId : String) (f : ApprovalRow → ApprovalRow) (i : Nat) :
    (updateRow table approvalId f)[i]? =
      table[i]?.map fun row => if row.approvalId = approvalId then f row else row := by
  rw [updateRow, List.getElem?_map]

end Statements

/-- A row as it is inserted: pending, nothing decided or executed, and neither
    its identifier nor its credit in the table yet. -/
structure FreshRow (table : ApprovalTable) (row : ApprovalRow) : Prop where
  consistent : row.Consistent
  pending : row.status = .pending
  id : ∀ other ∈ table, other.approvalId ≠ row.approvalId
  credit : ∀ other ∈ table, ¬ other.SameCredit row

/-- What one statement may do to the table. -/
inductive TableStep (table : ApprovalTable) : ApprovalTable → Prop where
  | same : TableStep table table
  | update (approvalId : String) (f : ApprovalRow → ApprovalRow) (row : ApprovalRow)
      (hsel : selectById table approvalId = some row) (hf : RowStep row (f row)) :
      TableStep table (updateRow table approvalId f)
  | insert (row : ApprovalRow) (hrow : FreshRow table row) : TableStep table (table ++ [row])

section Steps

variable {table table' : ApprovalTable}

/-- An update steps the row under its identifier and no other. -/
theorem updateRow_kept {approvalId : String} {f : ApprovalRow → ApprovalRow} {row : ApprovalRow}
    (hids : table.Pairwise fun row other => row.approvalId ≠ other.approvalId)
    (hsel : selectById table approvalId = some row) (hf : RowStep row (f row)) {i : Nat}
    {old : ApprovalRow} (hold : table[i]? = some old) :
    ∃ new, (updateRow table approvalId f)[i]? = some new ∧ RowStep old new ∧
      (old.approvalId ≠ approvalId → new = old) := by
  rw [updateRow_getElem?, hold]
  rcases selectById_some hsel with ⟨hmem, hid⟩
  by_cases h : old.approvalId = approvalId
  · -- Under unique identifiers this is the selected row, and that one steps.
    have hrow := eq_of_id hids (List.mem_of_getElem? hold) hmem (h.trans hid.symm)
    refine ⟨f old, ?_, hrow ▸ hf, fun hne => absurd h hne⟩
    simp only [Option.map_some, if_pos h]
  · refine ⟨old, ?_, .same old, fun _ => rfl⟩
    simp only [Option.map_some, if_neg h]

/-- Every row stays in its place and takes a step there. -/
theorem step_rows (hw : WellFormed table) (h : TableStep table table') {i : Nat}
    {old : ApprovalRow} (hold : table[i]? = some old) :
    ∃ new, table'[i]? = some new ∧ RowStep old new := by
  cases h with
  | same => exact ⟨old, hold, .same old⟩
  | update approvalId f row hsel hf =>
      rcases updateRow_kept hw.ids hsel hf hold with ⟨new, hnew, hstep, _⟩
      exact ⟨new, hnew, hstep⟩
  | insert row hrow =>
      refine ⟨old, ?_, .same old⟩
      -- The insert appends, so every place there was keeps its row.
      rw [List.getElem?_append_left (List.getElem?_eq_some_iff.mp hold).1, hold]

/-- Every row continues in the table after a step. -/
theorem step_kept (hw : WellFormed table) (h : TableStep table table') :
    ∀ row ∈ table, ∃ later ∈ table', Continues row later := by
  intro row hrow
  rcases List.mem_iff_getElem?.mp hrow with ⟨i, hi⟩
  rcases step_rows hw h hi with ⟨new, hnew, hstep⟩
  exact ⟨new, List.mem_of_getElem? hnew, continues_of_rowStep hstep⟩

/-- Every row of the table after a step stepped there or is fresh. -/
theorem step_origin (hw : WellFormed table) (h : TableStep table table') :
    ∀ later ∈ table', (∃ row ∈ table, RowStep row later) ∨ FreshRow table later := by
  intro later hlater
  cases h with
  | same => exact Or.inl ⟨later, hlater, .same later⟩
  | update approvalId f row hsel hf =>
      rcases List.mem_map.mp hlater with ⟨old, hold, hnew⟩
      rcases List.mem_iff_getElem?.mp hold with ⟨i, hi⟩
      rcases updateRow_kept hw.ids hsel hf hi with ⟨new, hget, hstep, _⟩
      -- The new row is the image of the old one in the same place.
      rw [updateRow_getElem?, hi, Option.map_some] at hget
      exact Or.inl ⟨old, hold, by rw [← hnew, Option.some.inj hget]; exact hstep⟩
  | insert row hrow =>
      rcases List.mem_append.mp hlater with hold | hnew
      · exact Or.inl ⟨later, hold, .same later⟩
      · rw [List.mem_singleton.mp hnew]
        exact Or.inr hrow

theorem sameCredit_continues {row other row' other' : ApprovalRow} (h1 : Continues row row')
    (h2 : Continues other other') (h : row'.SameCredit other') : row.SameCredit other := by
  unfold ApprovalRow.SameCredit at h ⊢
  rw [h1.taskId, h2.taskId, h1.reservationId, h2.reservationId, h1.amount, h2.amount] at h
  exact h

/-- A relation between rows that continuing rows hand back survives an
    update. -/
theorem pairwise_updateRow {R : ApprovalRow → ApprovalRow → Prop}
    (hR : ∀ a b a' b', Continues a a' → Continues b b' → R a b → R a' b')
    {approvalId : String} {f : ApprovalRow → ApprovalRow}
    (hf : ∀ old ∈ table, Continues old (if old.approvalId = approvalId then f old else old))
    (h : table.Pairwise R) : (updateRow table approvalId f).Pairwise R := by
  unfold updateRow
  rw [List.pairwise_map]
  exact h.imp_of_mem fun ha hb hab => hR _ _ _ _ (hf _ ha) (hf _ hb) hab

/-- A step keeps a table well formed. -/
theorem wellFormed_step (hw : WellFormed table) (h : TableStep table table') :
    WellFormed table' := by
  have hrows : ∀ later ∈ table', later.Consistent := by
    intro later hlater
    rcases step_origin hw h later hlater with ⟨row, hrow, hstep⟩ | hfresh
    · exact consistent_of_rowStep hstep (hw.rows row hrow)
    · exact hfresh.consistent
  cases h with
  | same => exact hw
  | update approvalId f row hsel hf =>
      have hcont : ∀ old ∈ table,
          Continues old (if old.approvalId = approvalId then f old else old) := by
        intro old hold
        rcases List.mem_iff_getElem?.mp hold with ⟨i, hi⟩
        rcases updateRow_kept hw.ids hsel hf hi with ⟨new, hget, hstep, _⟩
        rw [updateRow_getElem?, hi, Option.map_some] at hget
        rw [Option.some.inj hget]
        exact continues_of_rowStep hstep
      -- Neither identifiers nor credits are written, so both stay apart.
      refine ⟨pairwise_updateRow ?_ hcont hw.ids, pairwise_updateRow ?_ hcont hw.credits, hrows⟩
      · intro a b a' b' ha hb hab
        rw [ha.approvalId, hb.approvalId]
        exact hab
      · exact fun a b a' b' ha hb hab hc => hab (sameCredit_continues ha hb hc)
  | insert row hrow =>
      -- The inserted row differs from every older one in both.
      refine ⟨List.pairwise_append.mpr ⟨hw.ids, List.pairwise_singleton _ _, ?_⟩,
        List.pairwise_append.mpr ⟨hw.credits, List.pairwise_singleton _ _, ?_⟩, hrows⟩
      · intro old hold new hnew
        rw [List.mem_singleton.mp hnew]
        exact hrow.id old hold
      · intro old hold new hnew
        rw [List.mem_singleton.mp hnew]
        exact hrow.credit old hold

theorem wellFormed_nil : WellFormed [] :=
  ⟨List.Pairwise.nil, List.Pairwise.nil, fun _ h => absurd h List.not_mem_nil⟩

end Steps

section Methods

variable (now uuid approvalId decidedBy : String) (approved : Bool) (note : Option String)
  (result : PyDict) (r : CreditRequest) (table : ApprovalTable)

theorem requireRecord_some {row : ApprovalRow} (h : selectById table approvalId = some row) :
    requireRecord table approvalId = .ok (fromRow row) := by
  unfold requireRecord
  rw [h]

/-- `require` answers with the row under the identifier, or raises. -/
theorem requireRecord_cases :
    (∃ row, selectById table approvalId = some row ∧
        requireRecord table approvalId = .ok (fromRow row)) ∨
      (selectById table approvalId = none ∧ ∃ e, requireRecord table approvalId = .error e) := by
  rcases h : selectById table approvalId with _ | row
  · refine Or.inr ⟨rfl, .lookupError s!"unknown approval request: {approvalId}", ?_⟩
    unfold requireRecord
    rw [h]
  · exact Or.inl ⟨row, rfl, requireRecord_some approvalId table h⟩

/-- What the locked section of `decide` does: it raises on a missing or
    otherwise decided row, returns a row decided the same way, and decides a
    pending row. -/
theorem decideLocked_cases :
    (∃ e, (∀ row, selectById table approvalId = some row →
          row.status ≠ decisionTarget approved ∧ row.status ≠ .pending) ∧
        decideLocked now approvalId approved decidedBy note table = (.error e, table)) ∨
      (∃ row, selectById table approvalId = some row ∧ row.status = decisionTarget approved ∧
        decideLocked now approvalId approved decidedBy note table =
          (.ok (some (fromRow row)), table)) ∨
      (∃ row, selectById table approvalId = some row ∧ row.status = .pending ∧
        decideLocked now approvalId approved decidedBy note table = (.ok none,
          updateDecision table approvalId (decisionTarget approved) now decidedBy note)) := by
  unfold decideLocked
  rcases requireRecord_cases approvalId table with ⟨row, hsel, hrec⟩ | ⟨hsel, e, hrec⟩
  · rw [hrec]
    -- The identifier selects one row, so what is said of it is said of all it selects.
    have hone : ∀ other, selectById table approvalId = some other → other = row := by
      intro other hother
      rw [hsel] at hother
      exact (Option.some.inj hother).symm
    -- The checks of the section, in its order: the same decision, another one, pending.
    by_cases htarget : row.status = decisionTarget approved
    · exact Or.inr (Or.inl ⟨row, hsel, htarget, if_pos htarget⟩)
    · by_cases hpending : row.status = .pending
      · refine Or.inr (Or.inr ⟨row, hsel, hpending, ?_⟩)
        exact (if_neg htarget).trans (if_neg (not_not.mpr hpending))
      · refine Or.inl ⟨_, fun other hother => ?_, (if_neg htarget).trans (if_pos hpending)⟩
        rw [hone other hother]
        exact ⟨htarget, hpending⟩
  · rw [hrec]
    refine Or.inl ⟨e, fun row hrow => ?_, rfl⟩
    rw [hsel] at hrow
    exact absurd hrow (by simp only [reduceCtorEq, not_false_eq_true])

/-- What the locked section of `mark_executed` does: it raises on a missing
    row, a row that is neither approved nor executed, or a result without a
    JSON form, returns an executed row, and executes an approved one. -/
theorem markExecutedLocked_cases :
    (∃ e, (∀ row, selectById table approvalId = some row → row.status ≠ .executed ∧
          (row.status = .approved → dictSerialisable result = false)) ∧
        markExecutedLocked now approvalId result table = (.error e, table)) ∨
      (∃ row, selectById table approvalId = some row ∧ row.status = .executed ∧
        markExecutedLocked now approvalId result table = (.ok (some (fromRow row)), table)) ∨
      (∃ row, selectById table approvalId = some row ∧ row.status = .approved ∧
        markExecutedLocked now approvalId result table =
          (.ok none, updateExecuted table approvalId now ⟨result⟩)) := by
  unfold markExecutedLocked
  rcases requireRecord_cases approvalId table with ⟨row, hsel, hrec⟩ | ⟨hsel, e, hrec⟩
  · rw [hrec]
    have hone : ∀ other, selectById table approvalId = some other → other = row := by
      intro other hother
      rw [hsel] at hother
      exact (Option.some.inj hother).symm
    by_cases hexec : row.status = .executed
    · exact Or.inr (Or.inl ⟨row, hsel, hexec, if_pos hexec⟩)
    · by_cases happr : row.status = .approved
      · have hin : ∀ x : Except Exc (Option ApprovalRecord) × ApprovalTable,
            (if (fromRow row).status = .executed then (.ok (some (fromRow row)), table)
              else if (fromRow row).status ≠ .approved then
                (.error (wrongStatus approvalId (fromRow row).status .approved), table)
              else x) = x :=
          fun x => (if_neg hexec).trans (if_neg (not_not.mpr happr))
        -- `json.dumps` runs before the update, so a result it rejects leaves the row approved.
        by_cases hjson : dictSerialisable result = true
        · refine Or.inr (Or.inr ⟨row, hsel, happr, (hin _).trans ?_⟩)
          rw [jsonDumps_ok hjson]
        · rw [Bool.not_eq_true] at hjson
          refine Or.inl ⟨.typeError "Object is not JSON serializable", fun other hother => ?_,
            (hin _).trans ?_⟩
          · rw [hone other hother]
            exact ⟨hexec, fun _ => hjson⟩
          · unfold jsonDumps
            rw [hjson]
            rfl
      · refine Or.inl ⟨_, fun other hother => ?_, (if_neg hexec).trans (if_pos happr)⟩
        rw [hone other hother]
        exact ⟨hexec, fun ha => absurd ha happr⟩
  · rw [hrec]
    refine Or.inl ⟨e, fun row hrow => ?_, rfl⟩
    rw [hsel] at hrow
    exact absurd hrow (by simp only [reduceCtorEq, not_false_eq_true])

/-- What `create_credit_request` does: it answers with the row already there,
    inserts one that is in no way there, or fails on its identifier. -/
theorem createCreditRequest_cases :
    (∃ row, selectCredit table r.taskId r.reservationId r.amount = some row ∧
        createCreditRequest now uuid r table = (.ok (fromRow row), table)) ∨
      ((∀ row ∈ table, row.isCredit r.taskId r.reservationId r.amount = false) ∧
        (∀ row ∈ table, row.approvalId ≠ (newRow now uuid r).approvalId) ∧
        createCreditRequest now uuid r table =
          (.ok (fromRow (newRow now uuid r)), table ++ [newRow now uuid r])) ∨
      ((∃ row ∈ table, row.approvalId = (newRow now uuid r).approvalId) ∧
        ∃ e, createCreditRequest now uuid r table = (.error e, table)) := by
  unfold createCreditRequest findCreditRequest
  -- The first select decides whether a row is inserted at all.
  rcases hsel : selectCredit table r.taskId r.reservationId r.amount with _ | row
  · by_cases hid : table.any (fun row => row.approvalId = (newRow now uuid r).approvalId) = true
    · -- The primary key refuses the row.
      rcases List.any_eq_true.mp hid with ⟨row, hrow, hsame⟩
      refine Or.inr (Or.inr ⟨⟨row, hrow, of_decide_eq_true hsame⟩,
        .integrityError "UNIQUE constraint failed: approval_requests.approval_id", ?_⟩)
      simp only [Option.map_none, insertRow, if_pos hid]
    · refine Or.inr (Or.inl ⟨selectCredit_none hsel, fun row hrow hc => ?_, ?_⟩)
      · exact hid (List.any_eq_true.mpr ⟨row, hrow, by simpa only [decide_eq_true_eq] using hc⟩)
      · simp only [Option.map_none, insertRow, if_neg hid]
  · exact Or.inl ⟨row, rfl, rfl⟩

variable {table}

theorem newRow_fresh (hw : WellFormed table)
    (hcredit : ∀ row ∈ table, row.isCredit r.taskId r.reservationId r.amount = false)
    (hid : ∀ row ∈ table, row.approvalId ≠ (newRow now uuid r).approvalId) :
    FreshRow table (newRow now uuid r) where
  consistent := ⟨rfl, iff_of_false Bool.noConfusion (fun h => h rfl),
    iff_of_false Bool.noConfusion (fun h => h rfl),
    iff_of_false Bool.noConfusion ApprovalStatus.noConfusion,
    iff_of_false Bool.noConfusion ApprovalStatus.noConfusion⟩
  pending := rfl
  id := hid
  credit := by
    intro other hother hsame
    -- A row asking for the same credit would have been found by the select.
    have hfound := (isCredit_iff (hw.rows other hother).action _ _ _).mpr hsame
    exact absurd (hcredit other hother) (by
      rw [show other.isCredit r.taskId r.reservationId r.amount = true from hfound]
      decide)

theorem createCreditRequest_step (hw : WellFormed table) :
    TableStep table (createCreditRequest now uuid r table).2 := by
  rcases createCreditRequest_cases now uuid r table with
    ⟨row, _, h⟩ | ⟨hcredit, hid, h⟩ | ⟨_, e, h⟩
  · rw [h]
    exact .same
  · rw [h]
    exact .insert _ (newRow_fresh now uuid r hw hcredit hid)
  · rw [h]
    exact .same

theorem decideLocked_step :
    TableStep table (decideLocked now approvalId approved decidedBy note table).2 := by
  rcases decideLocked_cases now approvalId decidedBy approved note table with
    ⟨e, _, h⟩ | ⟨row, _, _, h⟩ | ⟨row, hsel, hpending, h⟩
  · rw [h]
    exact .same
  · rw [h]
    exact .same
  · rw [h]
    exact .update approvalId _ row hsel (.decided row approved now decidedBy note hpending)

theorem markExecutedLocked_step :
    TableStep table (markExecutedLocked now approvalId result table).2 := by
  rcases markExecutedLocked_cases now approvalId result table with
    ⟨e, _, h⟩ | ⟨row, _, _, h⟩ | ⟨row, hsel, happroved, h⟩
  · rw [h]
    exact .same
  · rw [h]
    exact .same
  · rw [h]
    exact .update approvalId _ row hsel (.executed row now ⟨result⟩ happroved)

end Methods

end Asante
