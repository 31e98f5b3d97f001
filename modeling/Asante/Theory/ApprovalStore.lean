import Asante.Theory.ApprovalTable
import Mathlib.Data.List.Chain

/-!
# The Approval State Machine

Runs of one approval store: any sequence of `create_credit_request`, `decide`
and `mark_executed` calls, with any arguments, from an empty table.

Every operation is a `TableStep`, so what a step preserves a run preserves. The
history of a row is the row in each table of the run from the one that has it
on; the tables of a run keep every row in its place, so a place in the table
names a row for good.

## Main definitions

* `StoreOp`, `StoreOp.apply`: A call and what it does.
* `runStore`: A run of calls.
* `placeHistory`, `rowHistory`: What one place of the table held through some
  tables, and through a run.
* `StatusPath`: Statuses that start pending and move along the edges.

## Theorems

* `apply_step`: An operation is a step of the table.
* `apply_table`: An operation changes nothing, inserts its row or updates one.
* `apply_frame`: An operation leaves the other rows alone.
* `apply_error`: An operation that raises leaves the table alone.
* `runStore_wellFormed`: Every reachable table is well formed.
* `runStore_kept`: Rows stay in their place and continue.
* `placeHistory_chain`: The history of a row is a chain of row steps.
* `rowsKept_chain`: Rows stay in their place and continue, through any tables that
  step from one to the next.
* `approval_state_machine`: All of it, for every run.
-/

namespace Asante

/-- A call of the approval store, with the clock and the identifier it meets. -/
inductive StoreOp where
  | create (now uuid : String) (r : CreditRequest)
  | decide (now approvalId : String) (approved : Bool) (decidedBy : String)
      (note : Option String)
  | markExecuted (now approvalId : String) (result : PyDict)

namespace StoreOp

/-- The row an operation is about, if it names one. -/
def target : StoreOp → Option String
  | create _ _ _ => none
  | decide _ approvalId _ _ _ => some approvalId
  | markExecuted _ approvalId _ => some approvalId

/-- What a call answers, and the table it leaves. -/
def apply : StoreOp → ApprovalTable → Except Exc ApprovalRecord × ApprovalTable
  | create now uuid r, table => createCreditRequest now uuid r table
  | decide now approvalId approved decidedBy note, table =>
    storeDecide now approvalId approved decidedBy note table
  | markExecuted now approvalId result, table => storeMarkExecuted now approvalId result table

end StoreOp

/-- The table a run of calls leaves. -/
def runStore (ops : List StoreOp) (table : ApprovalTable) : ApprovalTable :=
  ops.foldl (fun t op => (op.apply t).2) table

/-- The tables of a run, the first included. -/
def storeTables (ops : List StoreOp) (table : ApprovalTable) : List ApprovalTable :=
  ops.scanl (fun t op => (op.apply t).2) table

/-- What one place of the table held through a run, from when it was filled. -/
def rowHistory (ops : List StoreOp) (table : ApprovalTable) (i : Nat) : List ApprovalRow :=
  (storeTables ops table).filterMap (·[i]?)

/-- What one place held in each of some tables, from when it was filled. -/
def placeHistory (tables : List ApprovalTable) (i : Nat) : List ApprovalRow :=
  tables.filterMap (·[i]?)

/-- Statuses that start pending and change along the edges only. -/
def StatusPath (statuses : List ApprovalStatus) : Prop :=
  (∀ s, statuses.head? = some s → s = .pending) ∧
    statuses.IsChain fun s t => s = t ∨ StatusEdge s t

theorem reread_table (approvalId : String)
    (answer : Except Exc (Option ApprovalRecord) × ApprovalTable) :
    (reread approvalId answer).2 = answer.2 := by
  rcases answer with ⟨e | current | _, table⟩
  · rfl
  · rfl
  · rfl

/-- A row is found under its identifier after an update that keeps it. -/
theorem selectById_updateRow (table : ApprovalTable) (approvalId : String)
    (f : ApprovalRow → ApprovalRow) (hf : ∀ row, (f row).approvalId = row.approvalId) :
    selectById (updateRow table approvalId f) approvalId =
      (selectById table approvalId).map f := by
  induction table with
  | nil => rfl
  | cons row table ih =>
      unfold selectById updateRow at ih ⊢
      -- The update changes no identifier, so the search stops at the same place.
      by_cases h : row.approvalId = approvalId
      · have hnew : (f row).approvalId = approvalId := (hf row).trans h
        rw [List.map_cons, if_pos h, List.find?_cons_of_pos (by simpa only [decide_eq_true_eq]),
          List.find?_cons_of_pos (by simpa only [decide_eq_true_eq]), Option.map_some]
      · rw [List.map_cons, if_neg h, List.find?_cons_of_neg (by simpa only [decide_eq_true_eq]),
          List.find?_cons_of_neg (by simpa only [decide_eq_true_eq])]
        exact ih

/-- A row under another identifier is found as it was. -/
theorem selectById_updateRow_ne (table : ApprovalTable) {approvalId other : String}
    (f : ApprovalRow → ApprovalRow) (hf : ∀ row, (f row).approvalId = row.approvalId)
    (hne : approvalId ≠ other) :
    selectById (updateRow table approvalId f) other = selectById table other := by
  induction table with
  | nil => rfl
  | cons row table ih =>
      unfold selectById updateRow at ih ⊢
      rw [List.map_cons]
      by_cases h : row.approvalId = approvalId
      · -- Neither the row nor what it becomes is the one that is looked for.
        have hold : row.approvalId ≠ other := fun hsame => hne (h.symm.trans hsame)
        have hnew : (f row).approvalId ≠ other := fun hsame => hold ((hf row).symm.trans hsame)
        rw [if_pos h, List.find?_cons_of_neg (by simpa only [decide_eq_true_eq]),
          List.find?_cons_of_neg (by simpa only [decide_eq_true_eq])]
        exact ih
      · rw [if_neg h, List.find?_cons, List.find?_cons, ih]

theorem apply_step {table : ApprovalTable} (hw : WellFormed table) (op : StoreOp) :
    TableStep table (op.apply table).2 := by
  cases op with
  | create now uuid r => exact createCreditRequest_step now uuid r hw
  | decide now approvalId approved decidedBy note =>
      rw [StoreOp.apply, storeDecide, reread_table]
      exact decideLocked_step now approvalId decidedBy approved note
  | markExecuted now approvalId result =>
      rw [StoreOp.apply, storeMarkExecuted, reread_table]
      exact markExecutedLocked_step now approvalId result

/-- What one call does to the table: nothing, the insertion of the row it
    creates, or the update of the row it names, which keeps the action and the
    time of creation. -/
theorem apply_table (op : StoreOp) (table : ApprovalTable) :
    (op.apply table).2 = table ∨
      (∃ now uuid r, op = .create now uuid r ∧
        (op.apply table).2 = table ++ [newRow now uuid r]) ∨
      ∃ approvalId f, op.target = some approvalId ∧
        (∀ row : ApprovalRow, (f row).action = row.action ∧ (f row).createdAt = row.createdAt) ∧
        (op.apply table).2 = updateRow table approvalId f := by
  cases op with
  | create now uuid r =>
      rw [StoreOp.apply]
      rcases createCreditRequest_cases now uuid r table with ⟨_, _, h⟩ | ⟨_, _, h⟩ | ⟨_, _, h⟩
      · exact Or.inl (by rw [h])
      · exact Or.inr (Or.inl ⟨now, uuid, r, rfl, by rw [h]⟩)
      · exact Or.inl (by rw [h])
  | decide now approvalId approved decidedBy note =>
      rw [StoreOp.apply, storeDecide, reread_table]
      rcases decideLocked_cases now approvalId decidedBy approved note table with
        ⟨_, _, h⟩ | ⟨_, _, _, h⟩ | ⟨_, _, _, h⟩
      · exact Or.inl (by rw [h])
      · exact Or.inl (by rw [h])
      · rw [h]
        refine Or.inr (Or.inr ⟨approvalId, _, rfl, ?_, updateDecision_eq approvalId _ _ _ _⟩)
        exact fun _ => ⟨rfl, rfl⟩
  | markExecuted now approvalId result =>
      rw [StoreOp.apply, storeMarkExecuted, reread_table]
      rcases markExecutedLocked_cases now approvalId result table with
        ⟨_, _, h⟩ | ⟨_, _, _, h⟩ | ⟨_, _, _, h⟩
      · exact Or.inl (by rw [h])
      · exact Or.inl (by rw [h])
      · rw [h]
        refine Or.inr (Or.inr ⟨approvalId, _, rfl, ?_, updateExecuted_eq approvalId _ _⟩)
        exact fun _ => ⟨rfl, rfl⟩

/-- An operation on one approval leaves the other rows where and as they
    were. -/
theorem apply_frame {table : ApprovalTable} (op : StoreOp) {i : Nat} {row : ApprovalRow}
    (hrow : table[i]? = some row) (hother : op.target ≠ some row.approvalId) :
    (op.apply table).2[i]? = some row := by
  rcases apply_table op table with h | ⟨_, _, _, _, h⟩ | ⟨approvalId, f, htarget, _, h⟩
  · rwa [h]
  · -- The insert is at the end.
    rwa [h, List.getElem?_append_left (List.getElem?_eq_some_iff.mp hrow).1]
  · -- An update of another identifier is no update of this place.
    have hne : row.approvalId ≠ approvalId := fun heq => hother (htarget.trans (by rw [heq]))
    rw [h, updateRow_getElem?, hrow, Option.map_some, if_neg hne]

/-- An operation that raises leaves the table as it was: the row it would read
    again after an update is there. -/
theorem apply_error {table : ApprovalTable} (op : StoreOp) {e : Exc}
    (h : (op.apply table).1 = .error e) : (op.apply table).2 = table := by
  -- After an update `require` cannot miss the row, so only the section itself raises.
  have hreread : ∀ {approvalId : String} {f : ApprovalRow → ApprovalRow} {row : ApprovalRow},
      selectById table approvalId = some row → (∀ r, (f r).approvalId = r.approvalId) →
      (reread approvalId (.ok none, updateRow table approvalId f)).1 = .ok (fromRow (f row)) := by
    intro approvalId f row hsel hf
    refine requireRecord_some approvalId _ ?_
    rw [selectById_updateRow table approvalId f hf, hsel, Option.map_some]
  cases op with
  | create now uuid r =>
      rw [StoreOp.apply] at h ⊢
      rcases createCreditRequest_cases now uuid r table with
        ⟨_, _, hans⟩ | ⟨_, _, hans⟩ | ⟨_, _, hans⟩
      · rw [hans]
      · -- An insert answers, so it is not the call that raised.
        rw [hans] at h
        exact absurd h (by simp only [reduceCtorEq, not_false_eq_true])
      · rw [hans]
  | decide now approvalId approved decidedBy note =>
      rw [StoreOp.apply, storeDecide] at h ⊢
      rw [reread_table]
      rcases decideLocked_cases now approvalId decidedBy approved note table with
        ⟨_, _, hans⟩ | ⟨_, _, _, hans⟩ | ⟨row, hsel, _, hans⟩
      · rw [hans]
      · rw [hans]
      · rw [hans, updateDecision_eq, hreread hsel] at h
        · exact absurd h (by simp only [reduceCtorEq, not_false_eq_true])
        · exact fun _ => rfl
  | markExecuted now approvalId result =>
      rw [StoreOp.apply, storeMarkExecuted] at h ⊢
      rw [reread_table]
      rcases markExecutedLocked_cases now approvalId result table with
        ⟨_, _, hans⟩ | ⟨_, _, _, hans⟩ | ⟨row, hsel, _, hans⟩
      · rw [hans]
      · rw [hans]
      · rw [hans, updateExecuted_eq, hreread hsel] at h
        · exact absurd h (by simp only [reduceCtorEq, not_false_eq_true])
        · exact fun _ => rfl

section Runs

variable {table : ApprovalTable}

theorem runStore_wellFormed (hw : WellFormed table) (ops : List StoreOp) :
    WellFormed (runStore ops table) := by
  induction ops generalizing table with
  | nil => exact hw
  | cons op ops ih => exact ih (wellFormed_step hw (apply_step hw op))

/-- Rows stay in their place and continue, over any run. -/
theorem runStore_kept (hw : WellFormed table) (ops : List StoreOp) {i : Nat} {row : ApprovalRow}
    (hrow : table[i]? = some row) :
    ∃ later, (runStore ops table)[i]? = some later ∧ Continues row later := by
  induction ops generalizing table row with
  | nil => exact ⟨row, hrow, continues_refl row⟩
  | cons op ops ih =>
      rcases step_rows hw (apply_step hw op) hrow with ⟨mid, hmid, hstep⟩
      rcases ih (wellFormed_step hw (apply_step hw op)) hmid with ⟨later, hlater, hcont⟩
      exact ⟨later, hlater, continues_trans (continues_of_rowStep hstep) hcont⟩

/-- A place that a step fills holds a fresh row. -/
theorem step_fills {table' : ApprovalTable} (h : TableStep table table') {i : Nat}
    {new : ApprovalRow} (hold : table[i]? = none) (hnew : table'[i]? = some new) :
    FreshRow table new := by
  cases h with
  | same =>
      rw [hold] at hnew
      exact absurd hnew (by simp only [reduceCtorEq, not_false_eq_true])
  | update approvalId f row hsel hf =>
      -- An update fills no place.
      rw [updateRow_getElem?, hold, Option.map_none] at hnew
      exact absurd hnew (by simp only [reduceCtorEq, not_false_eq_true])
  | insert row hrow =>
      rcases List.mem_append.mp (List.mem_of_getElem? hnew) with hmem | hmem
      · -- The place is past the end of the old table, so it is the new row's.
        rw [List.getElem?_append_right (List.getElem?_eq_none_iff.mp hold)] at hnew
        rw [List.mem_singleton.mp (List.mem_of_getElem? hnew)]
        exact hrow
      · rw [List.mem_singleton.mp hmem]
        exact hrow

theorem placeHistory_cons (table : ApprovalTable) (tables : List ApprovalTable) (i : Nat) :
    placeHistory (table :: tables) i = table[i]?.toList ++ placeHistory tables i := by
  unfold placeHistory
  rcases h : table[i]? with _ | row
  · simp only [List.filterMap_cons, h, Option.toList_none, List.nil_append]
  · simp only [List.filterMap_cons, h, Option.toList_some, List.singleton_append]

/-- The history of a place through tables that step from one to the next is a
    chain of row steps, and starts with the row that is there or with a pending
    one. -/
theorem placeHistory_chain (hw : WellFormed table) {tables : List ApprovalTable}
    (h : (table :: tables).IsChain TableStep) (i : Nat) :
    (placeHistory (table :: tables) i).IsChain RowStep ∧
      ∀ first, (placeHistory (table :: tables) i).head? = some first →
        table[i]? = some first ∨ (table[i]? = none ∧ first.status = .pending) := by
  induction tables generalizing table with
  | nil =>
      -- The history of a place in one table is the row there, if there is one.
      rw [placeHistory_cons]
      rcases table[i]? with _ | row
      · exact ⟨.nil, fun first hfirst =>
          absurd hfirst (by simp only [Option.toList_none, placeHistory, List.filterMap_nil,
            List.append_nil, List.head?_nil, reduceCtorEq, not_false_eq_true])⟩
      · exact ⟨.singleton _, fun first hfirst => Or.inl hfirst⟩
  | cons table' tables ih =>
      rcases List.isChain_cons_cons.mp h with ⟨hstep, hrest⟩
      rcases ih (wellFormed_step hw hstep) hrest with ⟨hchain, hhead⟩
      rw [placeHistory_cons]
      -- Empty so far, or filled by this step; in both cases the first row is pending.
      rcases hold : table[i]? with _ | row
      · refine ⟨hchain, fun first hfirst => ?_⟩
        rcases hhead first hfirst with hnew | ⟨_, hpending⟩
        · exact Or.inr ⟨rfl, (step_fills hstep hold hnew).pending⟩
        · exact Or.inr ⟨rfl, hpending⟩
      · -- The next entry of the history is this row after the step.
        refine ⟨List.isChain_cons.mpr ⟨fun second hsecond => ?_, hchain⟩,
          fun first hfirst => Or.inl hfirst⟩
        rcases step_rows hw hstep hold with ⟨new, hnew, hrow⟩
        rcases hhead second hsecond with hget | ⟨hnone, _⟩
        · rw [hnew] at hget
          rw [← Option.some.inj hget]
          exact hrow
        · rw [hnew] at hnone
          exact absurd hnone (by simp only [reduceCtorEq, not_false_eq_true])

/-- From an empty table on, the statuses of a place are a path of the machine. -/
theorem statusPath_chain {tables : List ApprovalTable}
    (h : (([] : ApprovalTable) :: tables).IsChain TableStep) (i : Nat) :
    StatusPath ((placeHistory ([] :: tables) i).map (·.status)) := by
  rcases placeHistory_chain wellFormed_nil h i with ⟨hchain, hhead⟩
  refine ⟨fun s hs => ?_, ?_⟩
  · rw [List.head?_map] at hs
    rcases Option.map_eq_some_iff.mp hs with ⟨first, hfirst, hstatus⟩
    rcases hhead first hfirst with hnone | ⟨_, hpending⟩
    · -- The first table is empty, so the place was filled later.
      exact absurd hnone (by simp only [List.getElem?_nil, reduceCtorEq, not_false_eq_true])
    · rw [← hstatus, hpending]
  · rw [List.isChain_map]
    exact hchain.imp fun _ _ hstep => rowStep_status hstep

/-- Tables that step from one to the next are well formed throughout. -/
theorem wellFormed_chain (hw : WellFormed table) {tables : List ApprovalTable}
    (h : (table :: tables).IsChain TableStep) : ∀ later ∈ table :: tables, WellFormed later := by
  induction tables generalizing table with
  | nil =>
      intro later hlater
      rw [List.mem_singleton.mp hlater]
      exact hw
  | cons table' tables ih =>
      rcases List.isChain_cons_cons.mp h with ⟨hstep, hrest⟩
      intro later hlater
      rcases List.mem_cons.mp hlater with hhead | htail
      · rw [hhead]
        exact hw
      · exact ih (wellFormed_step hw hstep) hrest later htail

/-- Every row of a table is in its place in the later one, and continues there. -/
def RowsKept (table later : ApprovalTable) : Prop :=
  ∀ (i : Nat) (row : ApprovalRow), table[i]? = some row →
    ∃ row', later[i]? = some row' ∧ Continues row row'

/-- Tables that step from one to the next keep the rows of all earlier ones. -/
theorem rowsKept_chain (hw : WellFormed table) {tables : List ApprovalTable}
    (h : (table :: tables).IsChain TableStep) : (table :: tables).Pairwise RowsKept := by
  induction tables generalizing table with
  | nil => exact List.pairwise_singleton _ _
  | cons table' tables ih =>
      rcases List.isChain_cons_cons.mp h with ⟨hstep, hrest⟩
      have hlater := ih (wellFormed_step hw hstep) hrest
      refine List.pairwise_cons.mpr ⟨fun later hmem i row hrow => ?_, hlater⟩
      rcases step_rows hw hstep hrow with ⟨mid, hmid, hfirst⟩
      have hcont := continues_of_rowStep hfirst
      rcases List.mem_cons.mp hmem with hhead | htail
      · rw [hhead]
        exact ⟨mid, hmid, hcont⟩
      · rcases (List.pairwise_cons.mp hlater).1 later htail i mid hmid with ⟨row', hrow', hrest'⟩
        exact ⟨row', hrow', continues_trans hcont hrest'⟩

/-- The tables of a run step from one to the next. -/
theorem storeTables_chain (hw : WellFormed table) (ops : List StoreOp) :
    ∃ tables, storeTables ops table = table :: tables ∧
      (table :: tables).IsChain TableStep := by
  induction ops generalizing table with
  | nil => exact ⟨[], rfl, .singleton _⟩
  | cons op ops ih =>
      have hstep := apply_step hw op
      rcases ih (wellFormed_step hw hstep) with ⟨tables, htables, hchain⟩
      refine ⟨(op.apply table).2 :: tables, ?_, .cons_cons hstep hchain⟩
      unfold storeTables at htables ⊢
      rw [List.scanl_cons, htables]

end Runs

/-- The statuses of a row of a run form a path of the state machine. -/
theorem statusPath_run (ops : List StoreOp) (i : Nat) :
    StatusPath ((rowHistory ops [] i).map (·.status)) := by
  rcases storeTables_chain wellFormed_nil ops with ⟨tables, htables, hchain⟩
  have hhistory : rowHistory ops [] i = placeHistory ([] :: tables) i := by
    unfold rowHistory
    rw [htables]
    rfl
  rw [hhistory]
  exact statusPath_chain hchain i

/-- The approval state machine, for every run `ops` of a store from empty, and
    whatever is done next: the statuses of each row are a path of the machine
    and no row is lost; the nullable columns follow the status; requests and
    decisions never change; no credit of a task has two rows and asking again
    returns the one it has; an operation touches only the row it names, and
    nothing when it raises. -/
theorem approval_state_machine (ops : List StoreOp) :
    (∀ i, StatusPath ((rowHistory ops [] i).map (·.status))) ∧
    (∀ (more : List StoreOp) (i : Nat) (row : ApprovalRow), (runStore ops [])[i]? = some row →
      ∃ later, (runStore more (runStore ops []))[i]? = some later ∧ Continues row later) ∧
    (∀ row ∈ runStore ops [], row.Consistent) ∧
    (runStore ops []).Pairwise (fun row other : ApprovalRow =>
      row.approvalId ≠ other.approvalId ∧ ¬ row.SameCredit other) ∧
    (∀ now uuid r, ∀ row ∈ runStore ops [], row.taskId = r.taskId →
      row.reservationId = r.reservationId → row.amount = r.amount →
      (StoreOp.create now uuid r).apply (runStore ops []) =
        (.ok (fromRow row), runStore ops [])) ∧
    (∀ (op : StoreOp) (i : Nat) (row : ApprovalRow), (runStore ops [])[i]? = some row →
      op.target ≠ some row.approvalId → (op.apply (runStore ops [])).2[i]? = some row) ∧
    (∀ (op : StoreOp) (e : Exc), (op.apply (runStore ops [])).1 = .error e →
      (op.apply (runStore ops [])).2 = runStore ops []) := by
  have hw := runStore_wellFormed wellFormed_nil ops
  refine ⟨statusPath_run ops, fun more i row hrow => runStore_kept hw more hrow, hw.rows,
    List.Pairwise.and hw.ids hw.credits, ?_, fun op i row => apply_frame op,
    fun op e => apply_error op⟩
  intro now uuid r row hrow htask hreservation hamount
  have hfound := selectCredit_of_mem hw hrow
  rw [htask, hreservation, hamount] at hfound
  rw [StoreOp.apply, createCreditRequest, findCreditRequest, hfound]
  rfl

end Asante
