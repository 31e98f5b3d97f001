import Asante.Core.Isolation
import Asante.Core.Run
import Asante.Model.Statements
import Asante.Theory.ApprovalStore

/-!
# Several Instances of the Approval Store

The approval store on one database file, opened by any number of instances.

`decide` and `mark_executed` look at a row and then update it, and
`create_credit_request` looks for a row and then inserts one. None of the writing
statements repeats the condition that was looked at. The lock that keeps the two
statements together is the instance's own, so a statement of another instance can
be committed between them.

What a call has seen is lost only to a conflicting write in between: a decision of
a row it is about to decide, or the insertion of a credit it is about to insert.
An execution is in nobody's way, since an approved row can only be executed; two
executions overwrite each other's report and nothing else. So the tables are
compared without what executions reported. In a run without conflicting writes in
between they step as they do under one instance, and the state machine survives.

## Main definitions

* `unreported`: The table without what executions reported.
* `Statement.Needs`, `Statement.Conflicts`: What a statement relies on, and what
  may take it away.
* `statementIsolation`: The statements as an `Isolation`.
* `instanceTables`: The tables of a run.
* `KeepsStateMachine`: What the approval state machine asks of them.

## Theorems

* `commit_step`: A statement that finds what it relies on steps the table.
* `instance_guarded`: A call has looked at what its writing statement relies on.
* `instance_alone`: A call that runs alone is the method of the store.
* `instances_keep_state_machine`: Undisturbed runs keep the state machine.
* `decision_overwritten`: Other runs do not.
-/

namespace Asante

open Asante.Core Core.Prog

/-- A row without what its execution reported. -/
def ApprovalRow.unreported (row : ApprovalRow) : ApprovalRow :=
  { row with
    executedAt := row.executedAt.map fun _ => ""
    executionResultJson := row.executionResultJson.map fun _ => ⟨[]⟩ }

/-- The table without what executions reported. -/
def unreported (table : ApprovalTable) : ApprovalTable :=
  table.map ApprovalRow.unreported

/-- The table does not hold the credit of the request. -/
def Unrequested (r : CreditRequest) (table : ApprovalTable) : Prop :=
  ∀ row ∈ table, row.isCredit r.taskId r.reservationId r.amount = false

/-- What a statement relies on: the row or the credit is as its call has seen it,
    up to an execution reported again. -/
def Statement.Needs : Statement → ApprovalTable → Prop
  | insertRow r, table => Unrequested r table
  | updateDecision approvalId _ _ _, table =>
    ∃ row, Asante.selectById table approvalId = some row ∧ row.status = .pending
  | updateExecuted approvalId _, table =>
    ∃ row, Asante.selectById table approvalId = some row ∧
      (row.status = .approved ∨ row.status = .executed)
  | _, _ => True

/-- The row a statement decides. -/
def Statement.decides : Statement → Option String
  | updateDecision approvalId _ _ _ => some approvalId
  | _ => none

/-- Two statements decide the same row, or insert the same credit. -/
def Statement.Conflicts (c c' : Statement) : Prop :=
  (∃ approvalId, c.decides = some approvalId ∧ c'.decides = some approvalId) ∨
    ∃ r r', c = insertRow r ∧ c' = insertRow r' ∧ r.taskId = r'.taskId ∧
      r.reservationId = r'.reservationId ∧ r.amount = r'.amount

section Unreported

variable {table : ApprovalTable}

theorem selectById_unreported (approvalId : String) :
    selectById (unreported table) approvalId =
      (selectById table approvalId).map ApprovalRow.unreported := by
  unfold selectById unreported
  rw [List.find?_map]
  rfl

/-- An update that commutes with leaving out the report. -/
theorem updateRow_unreported {f g : ApprovalRow → ApprovalRow}
    (h : ∀ row, (f row).unreported = g row.unreported) (approvalId : String) :
    unreported (updateRow table approvalId f) = updateRow (unreported table) approvalId g := by
  unfold unreported updateRow
  rw [List.map_map, List.map_map]
  refine List.map_congr_left fun row _ => ?_
  dsimp only [Function.comp_apply]
  by_cases hid : row.approvalId = approvalId
  · rw [if_pos hid, h]
    exact (if_pos hid).symm
  · rw [if_neg hid]
    exact (if_neg hid).symm

theorem updateDecision_unreported (approvalId : String) (target : ApprovalStatus)
    (decidedAt decidedBy : String) (note : Option String) :
    unreported (updateDecision table approvalId target decidedAt decidedBy note) =
      updateDecision (unreported table) approvalId target decidedAt decidedBy note := by
  rw [updateDecision_eq, updateDecision_eq]
  refine updateRow_unreported ?_ approvalId
  exact fun _ => rfl

theorem updateExecuted_unreported (approvalId executedAt : String) (json : JsonText) :
    unreported (updateExecuted table approvalId executedAt json) =
      updateExecuted (unreported table) approvalId "" ⟨[]⟩ := by
  rw [updateExecuted_eq, updateExecuted_eq]
  refine updateRow_unreported ?_ approvalId
  exact fun _ => rfl

theorem unrequested_unreported {r : CreditRequest} (h : Unrequested r table) :
    Unrequested r (unreported table) := by
  intro row hrow
  rcases List.mem_map.mp hrow with ⟨old, hold, rfl⟩
  exact h old hold

/-- Reporting the execution of an executed row again changes the report only. -/
theorem unreported_again {row : ApprovalRow} (hc : row.unreported.Consistent)
    (hexecuted : row.status = .executed) :
    { row.unreported with
      status := ApprovalStatus.executed
      executedAt := some ""
      executionResultJson := some ⟨[]⟩ } = row.unreported := by
  have hat := hc.executedAt.mpr hexecuted
  have hresult := hc.executionResult.mpr hexecuted
  unfold ApprovalRow.unreported at hat hresult ⊢
  rw [Option.isSome_map] at hat hresult
  rcases Option.isSome_iff_exists.mp hat with ⟨executedAt, hat⟩
  rcases Option.isSome_iff_exists.mp hresult with ⟨json, hresult⟩
  rw [hat, hresult, hexecuted]
  rfl

end Unreported

section Steps

variable {table : ApprovalTable} {c c' : Statement} (env : StatementEnv)

/-- A statement is committed, or it raises and the table stays. -/
theorem env_apply {X : Type} (answer : Except Exc X × ApprovalTable) :
    (∃ e, env.apply table answer = (.error e, table)) ∨ env.apply table answer = answer := by
  unfold StatementEnv.apply
  rcases env.fault with _ | e
  · exact Or.inr rfl
  · exact Or.inl ⟨e, rfl⟩

/-- The tables a statement may leave: the same, one with a row decided, one with a
    row executed, or one with a row more. -/
theorem commit_cases (table : ApprovalTable) (c : Statement) : (commit c env table).2 = table ∨
    (∃ approvalId approved decidedBy note, c = .updateDecision approvalId approved decidedBy note ∧
      (commit c env table).2 =
        updateDecision table approvalId (decisionTarget approved) env.now decidedBy note) ∨
    (∃ approvalId json, c = .updateExecuted approvalId json ∧
      (commit c env table).2 = updateExecuted table approvalId env.now json) ∨
    (∃ r, c = .insertRow r ∧
      (∀ row ∈ table, row.approvalId ≠ (newRow env.now env.uuid r).approvalId) ∧
      (commit c env table).2 = table ++ [newRow env.now env.uuid r]) := by
  cases c with
  | selectById approvalId =>
      rcases env_apply env (.ok (selectById table approvalId), table) with ⟨e, h⟩ | h
      · exact Or.inl (congrArg Prod.snd h)
      · exact Or.inl (congrArg Prod.snd h)
  | selectCredit taskId reservationId amount =>
      rcases env_apply env (.ok (selectCredit table taskId reservationId amount), table) with
        ⟨e, h⟩ | h
      · exact Or.inl (congrArg Prod.snd h)
      · exact Or.inl (congrArg Prod.snd h)
  | updateDecision approvalId approved decidedBy note =>
      rcases env_apply env (.ok (), updateDecision table approvalId (decisionTarget approved)
        env.now decidedBy note) with ⟨e, h⟩ | h
      · exact Or.inl (congrArg Prod.snd h)
      · exact Or.inr (Or.inl ⟨approvalId, approved, decidedBy, note, rfl, congrArg Prod.snd h⟩)
  | updateExecuted approvalId json =>
      rcases env_apply env (.ok (), updateExecuted table approvalId env.now json) with ⟨e, h⟩ | h
      · exact Or.inl (congrArg Prod.snd h)
      · exact Or.inr (Or.inr (Or.inl ⟨approvalId, json, rfl, congrArg Prod.snd h⟩))
  | insertRow r =>
      -- The primary key may refuse the row.
      by_cases hid : table.any (fun row => row.approvalId = (newRow env.now env.uuid r).approvalId)
          = true
      · have hins : insertRow table (newRow env.now env.uuid r) = _ := if_pos hid
        left
        dsimp only [commit]
        rw [hins]
        dsimp only
        rcases env_apply env (.error (.integrityError
          "UNIQUE constraint failed: approval_requests.approval_id"), table) with ⟨e, h⟩ | h
        · exact congrArg Prod.snd h
        · exact congrArg Prod.snd h
      · have hins : insertRow table (newRow env.now env.uuid r) = _ := if_neg hid
        dsimp only [commit]
        rw [hins]
        dsimp only
        rcases env_apply env (.ok (newRow env.now env.uuid r),
          table ++ [newRow env.now env.uuid r]) with ⟨e, h⟩ | h
        · exact Or.inl (congrArg Prod.snd h)
        · refine Or.inr (Or.inr (Or.inr ⟨r, rfl, fun row hrow hsame => ?_, congrArg Prod.snd h⟩))
          exact hid (List.any_eq_true.mpr ⟨row, hrow, decide_eq_true hsame⟩)

/-- A statement that finds what it relies on steps the table, up to what
    executions reported. -/
theorem commit_step (hw : WellFormed (unreported table)) (hneeds : c.Needs table) :
    TableStep (unreported table) (unreported (commit c env table).2) := by
  rcases commit_cases env table c with h | ⟨approvalId, approved, decidedBy, note, rfl, h⟩ |
    ⟨approvalId, json, rfl, h⟩ | ⟨r, rfl, hid, h⟩
  · rw [h]
    exact .same
  · rcases hneeds with ⟨row, hsel, hpending⟩
    rw [h, updateDecision_unreported, updateDecision_eq]
    refine .update approvalId _ row.unreported ?_
      (.decided row.unreported approved env.now decidedBy note hpending)
    rw [selectById_unreported, hsel, Option.map_some]
  · rcases hneeds with ⟨row, hsel, hstatus⟩
    rw [h, updateExecuted_unreported, updateExecuted_eq]
    have hfound : selectById (unreported table) approvalId = some row.unreported := by
      rw [selectById_unreported, hsel, Option.map_some]
    refine .update approvalId _ row.unreported hfound ?_
    rcases hstatus with happroved | hexecuted
    · exact .executed row.unreported "" ⟨[]⟩ happroved
    · rw [unreported_again (hw.rows _ (selectById_some hfound).1) hexecuted]
      exact .same _
  · rw [h]
    have hnew : unreported (table ++ [newRow env.now env.uuid r]) =
        unreported table ++ [newRow env.now env.uuid r] := List.map_append
    rw [hnew]
    refine .insert _ (newRow_fresh env.now env.uuid r hw (unrequested_unreported hneeds)
      fun row hrow => ?_)
    rcases List.mem_map.mp hrow with ⟨old, hold, rfl⟩
    exact hid old hold

/-- A row that is there stays there, and its status moves only under a decision
    or an execution of it. -/
theorem commit_selects {approvalId : String} {row : ApprovalRow}
    (hsel : selectById table approvalId = some row) :
    ∃ later, selectById (commit c env table).2 approvalId = some later ∧
      (later.status = row.status ∨ c.decides = some approvalId ∨
        ∃ json, c = .updateExecuted approvalId json ∧ later.status = .executed) := by
  rcases commit_cases env table c with h | ⟨target, approved, decidedBy, note, rfl, h⟩ |
    ⟨target, json, rfl, h⟩ | ⟨r, rfl, hid, h⟩
  · rw [h]
    exact ⟨row, hsel, Or.inl rfl⟩
  · rw [h, updateDecision_eq]
    by_cases htarget : target = approvalId
    · rw [htarget, selectById_updateRow, hsel]
      · exact ⟨_, rfl, Or.inr (Or.inl rfl)⟩
      · exact fun _ => rfl
    · rw [selectById_updateRow_ne _ _ ?_ htarget]
      · exact ⟨row, hsel, Or.inl rfl⟩
      · exact fun _ => rfl
  · rw [h, updateExecuted_eq]
    by_cases htarget : target = approvalId
    · rw [htarget, selectById_updateRow, hsel]
      · exact ⟨_, rfl, Or.inr (Or.inr ⟨json, rfl, rfl⟩)⟩
      · exact fun _ => rfl
    · rw [selectById_updateRow_ne _ _ ?_ htarget]
      · exact ⟨row, hsel, Or.inl rfl⟩
      · exact fun _ => rfl
  · rw [h]
    refine ⟨row, ?_, Or.inl rfl⟩
    unfold selectById at hsel ⊢
    rw [List.find?_append, hsel, Option.some_or]

/-- A credit that is not requested stays so, unless it is inserted. -/
theorem commit_unrequested {r : CreditRequest} (h : Unrequested r table)
    (hother : ∀ r', c = .insertRow r' →
      ¬ (r'.taskId = r.taskId ∧ r'.reservationId = r.reservationId ∧ r'.amount = r.amount)) :
    Unrequested r (commit c env table).2 := by
  -- An update keeps the columns that make the credit of a row.
  have hupdate : ∀ (approvalId : String) (f : ApprovalRow → ApprovalRow),
      (∀ row, (f row).isCredit r.taskId r.reservationId r.amount =
        row.isCredit r.taskId r.reservationId r.amount) →
      Unrequested r (updateRow table approvalId f) := by
    intro approvalId f hf later hlater
    rcases List.mem_map.mp hlater with ⟨row, hrow, rfl⟩
    by_cases hid : row.approvalId = approvalId
    · rw [if_pos hid, hf]
      exact h row hrow
    · rw [if_neg hid]
      exact h row hrow
  rcases commit_cases env table c with hsame | ⟨target, approved, decidedBy, note, rfl, hsame⟩ |
    ⟨target, json, rfl, hsame⟩ | ⟨r', rfl, hid, hsame⟩
  · rw [hsame]
    exact h
  · rw [hsame, updateDecision_eq]
    refine hupdate target _ ?_
    exact fun _ => rfl
  · rw [hsame, updateExecuted_eq]
    refine hupdate target _ ?_
    exact fun _ => rfl
  · rw [hsame]
    intro later hlater
    rcases List.mem_append.mp hlater with hold | hnew
    · exact h later hold
    · rw [List.mem_singleton.mp hnew]
      refine Bool.eq_false_iff.mpr fun hcredit => hother r' rfl ?_
      exact (isCredit_iff rfl _ _ _).mp hcredit

/-- A decision relies on a row that is pending. -/
theorem decides_pending {approvalId : String} (hdecides : c.decides = some approvalId)
    (hneeds : c.Needs table) {row : ApprovalRow} (hsel : selectById table approvalId = some row) :
    row.status = .pending := by
  cases c with
  | updateDecision target approved decidedBy note =>
      rcases hneeds with ⟨other, hother, hpending⟩
      rw [Option.some.inj hdecides, hsel] at hother
      rw [Option.some.inj hother]
      exact hpending
  | _ => exact absurd hdecides (by simp only [Statement.decides, reduceCtorEq, not_false_eq_true])

/-- What a statement relies on is taken away by a conflicting one only. -/
theorem needs_frame (hneeds : c.Needs table) (hneeds' : c'.Needs table)
    (hclear : ¬ c.Conflicts c') : c'.Needs (commit c env table).2 := by
  cases c' with
  | selectById approvalId => trivial
  | selectCredit taskId reservationId amount => trivial
  | insertRow r =>
      refine commit_unrequested env hneeds' fun r' hc hsame => hclear (Or.inr ?_)
      exact ⟨r', r, hc, rfl, hsame⟩
  | updateDecision approvalId approved decidedBy note =>
      rcases hneeds' with ⟨row, hsel, hpending⟩
      rcases commit_selects (c := c) env hsel with
        ⟨later, hlater, hstatus | hdecides | ⟨json, rfl, -⟩⟩
      · exact ⟨later, hlater, hstatus.trans hpending⟩
      · exact absurd (Or.inl ⟨approvalId, hdecides, rfl⟩) hclear
      · -- An execution relies on a row that is pending no more.
        rcases hneeds with ⟨other, hother, hdecided⟩
        rw [hsel] at hother
        rw [← Option.some.inj hother, hpending] at hdecided
        exact absurd hdecided (by decide)
  | updateExecuted approvalId json =>
      rcases hneeds' with ⟨row, hsel, hdecided⟩
      rcases commit_selects (c := c) env hsel with
        ⟨later, hlater, hstatus | hdecides | ⟨_, _, hexecuted⟩⟩
      · exact ⟨later, hlater, hstatus ▸ hdecided⟩
      · rw [decides_pending hdecides hneeds hsel] at hdecided
        exact absurd hdecided (by decide)
      · exact ⟨later, hlater, Or.inr hexecuted⟩

end Steps

/-- The statements, with what they rely on and which of them conflict. -/
def statementIsolation : Isolation Statement Statement.Answer StatementEnv ApprovalTable where
  perform := commit
  inv := fun table => WellFormed (unreported table)
  needs := Statement.Needs
  conflicts := Statement.Conflicts
  keeps := fun _ env _ hw hneeds => wellFormed_step hw (commit_step env hw hneeds)
  frame := fun _ _ env _ _ hneeds hneeds' hclear => needs_frame env hneeds hneeds' hclear

section Calls

variable {table : ApprovalTable}

/-- A row is looked at, and what follows knows it. -/
theorem guarded_require (approvalId : String) {f : ApprovalRecord → StoreProg ApprovalRecord}
    (hf : ∀ later row, selectById later approvalId = some row →
      statementIsolation.Guarded (f (fromRow row)) later) :
    statementIsolation.Guarded (instanceRequire approvalId >>= f) table := by
  unfold instanceRequire execute
  rw [statement_bind]
  refine ⟨trivial, fun env later _ _ => ?_⟩
  dsimp only [statementIsolation, commit]
  rcases env_apply env (.ok (selectById later approvalId), later) with ⟨e, h⟩ | h
  · rw [h]
    trivial
  · rw [h]
    rcases hsel : selectById later approvalId with _ | row
    · trivial
    · exact hf later row hsel

/-- The last look at the row relies on nothing. -/
theorem guarded_reread (approvalId : String) :
    statementIsolation.Guarded (instanceRequire approvalId) table := by
  unfold instanceRequire execute
  rw [statement_bind]
  refine ⟨trivial, fun env later _ _ => ?_⟩
  dsimp only [statementIsolation, commit]
  rcases env_apply env (.ok (selectById later approvalId), later) with ⟨e, h⟩ | h
  · rw [h]
    trivial
  · rw [h]
    rcases selectById later approvalId with _ | row
    · trivial
    · trivial

/-- A call ends with another look at its row, whatever its update answered. -/
theorem guarded_update (answer : Except Exc Unit) (approvalId : String) :
    statementIsolation.Guarded
      (do
        let _ : Unit ← (Prog.ofExcept answer : StoreProg Unit)
        instanceRequire approvalId) table := by
  cases answer with
  | error e => trivial
  | ok _ => exact guarded_reread approvalId

/-- A call has looked at what its writing statement relies on. -/
theorem instance_guarded (call : InstanceCall) : statementIsolation.Guarded call.code table := by
  cases call with
  | create r =>
      change statementIsolation.Guarded (instanceCreate r) table
      unfold instanceCreate execute
      rw [statement_bind]
      refine ⟨trivial, fun env later _ _ => ?_⟩
      dsimp only [statementIsolation, commit]
      rcases env_apply env (.ok (selectCredit later r.taskId r.reservationId r.amount), later) with
        ⟨e, h⟩ | h
      · rw [h]
        trivial
      · rw [h]
        rcases hsel : selectCredit later r.taskId r.reservationId r.amount with _ | row
        · -- No row asks for the credit, so it may be inserted.
          refine ⟨selectCredit_none hsel, fun env' later' _ _ => ?_⟩
          rcases (commit (.insertRow r) env' later').1 with e | row
          · trivial
          · trivial
        · trivial
  | decide approvalId approved decidedBy note =>
      refine guarded_require approvalId fun later row hsel => ?_
      by_cases htarget : (fromRow row).status = decisionTarget approved
      · rw [if_pos htarget]
        trivial
      · rw [if_neg htarget]
        by_cases hpending : (fromRow row).status ≠ .pending
        · rw [if_pos hpending]
          trivial
        · rw [if_neg hpending]
          exact ⟨⟨row, hsel, not_not.mp hpending⟩, fun _ _ _ _ => guarded_update _ approvalId⟩
  | markExecuted approvalId result =>
      refine guarded_require approvalId fun later row hsel => ?_
      by_cases hexecuted : (fromRow row).status = .executed
      · rw [if_pos hexecuted]
        trivial
      · rw [if_neg hexecuted]
        by_cases happroved : (fromRow row).status ≠ .approved
        · rw [if_pos happroved]
          trivial
        · rw [if_neg happroved]
          rcases jsonDumps result with e | json
          · trivial
          · exact ⟨⟨row, hsel, Or.inl (not_not.mp happroved)⟩,
              fun _ _ _ _ => guarded_update _ approvalId⟩

end Calls

section Alone

variable {table : ApprovalTable} {envs : Nat → StatementEnv}

/-- The call of the store that an instance makes, at the clock and the identifier
    of its writing statement. -/
def InstanceCall.op (now uuid : String) : InstanceCall → StoreOp
  | create r => .create now uuid r
  | decide approvalId approved decidedBy note => .decide now approvalId approved decidedBy note
  | markExecuted approvalId result => .markExecuted now approvalId result

/-- What a program answers that runs alone, and the table it leaves. -/
def alone (p : StoreProg ApprovalRecord) (envs : Nat → StatementEnv) (table : ApprovalTable) :
    Except Exc ApprovalRecord × ApprovalTable :=
  ((run commit p envs table).outcome, (run commit p envs table).world)

theorem apply_quiet {X : Type} {env : StatementEnv} (hquiet : env.fault = none)
    (answer : Except Exc X × ApprovalTable) : env.apply table answer = answer := by
  unfold StatementEnv.apply
  rw [hquiet]

theorem alone_require (hquiet : (envs 0).fault = none) (approvalId : String)
    (f : ApprovalRecord → StoreProg ApprovalRecord) :
    alone (instanceRequire approvalId >>= f) envs table =
      match requireRecord table approvalId with
      | .error e => (.error e, table)
      | .ok current => alone (f current) (fun n => envs (n + 1)) table := by
  unfold instanceRequire execute requireRecord alone
  rw [statement_bind, call_bind, call_bind]
  dsimp only [run, commit]
  rw [apply_quiet hquiet]
  rcases selectById table approvalId with _ | row
  · rfl
  · rfl

theorem alone_reread (hquiet : (envs 0).fault = none) (approvalId : String) :
    alone (instanceRequire approvalId) envs table = (requireRecord table approvalId, table) := by
  unfold instanceRequire execute requireRecord alone
  rw [statement_bind, call_bind]
  dsimp only [run, commit]
  rw [apply_quiet hquiet]
  rcases selectById table approvalId with _ | row
  · rfl
  · rfl

/-- A call that runs alone, with nothing raised by SQLite, does what the method of
    the store does. -/
theorem instance_alone (hquiet : ∀ n, (envs n).fault = none) (call : InstanceCall) :
    alone call.code envs table = (call.op (envs 1).now (envs 1).uuid).apply table := by
  cases call with
  | create r =>
      change alone (instanceCreate r) envs table = createCreditRequest _ _ r table
      unfold instanceCreate execute createCreditRequest findCreditRequest alone
      rw [statement_bind, call_bind]
      dsimp only [run, commit]
      rw [apply_quiet (hquiet 0)]
      rcases selectCredit table r.taskId r.reservationId r.amount with _ | row
      · dsimp only [Prog.ofExcept, done_bind, Option.map_none]
        rw [statement_bind, call_bind]
        dsimp only [run, commit]
        rw [apply_quiet (hquiet 1)]
        rcases insertRow table (newRow (envs 1).now (envs 1).uuid r) with e | table'
        · rfl
        · rfl
      · rfl
  | decide approvalId approved decidedBy note =>
      change alone (instanceDecide approvalId approved decidedBy note) envs table =
        reread approvalId (decideLocked _ approvalId approved decidedBy note table)
      unfold instanceDecide decideLocked
      rw [alone_require (hquiet 0)]
      rcases requireRecord table approvalId with e | current
      · rfl
      · dsimp only
        by_cases htarget : current.status = decisionTarget approved
        · rw [if_pos htarget, if_pos htarget]
          rfl
        · rw [if_neg htarget, if_neg htarget]
          by_cases hpending : current.status ≠ .pending
          · rw [if_pos hpending, if_pos hpending]
            rfl
          · rw [if_neg hpending, if_neg hpending]
            unfold alone execute
            rw [statement_bind, call_bind]
            dsimp only [run, commit]
            rw [apply_quiet (hquiet 1)]
            exact alone_reread (hquiet 2) approvalId
  | markExecuted approvalId result =>
      change alone (instanceMarkExecuted approvalId result) envs table =
        reread approvalId (markExecutedLocked _ approvalId result table)
      unfold instanceMarkExecuted markExecutedLocked
      rw [alone_require (hquiet 0)]
      rcases requireRecord table approvalId with e | current
      · rfl
      · dsimp only
        by_cases hexecuted : current.status = .executed
        · rw [if_pos hexecuted, if_pos hexecuted]
          rfl
        · rw [if_neg hexecuted, if_neg hexecuted]
          by_cases happroved : current.status ≠ .approved
          · rw [if_pos happroved, if_pos happroved]
            rfl
          · rw [if_neg happroved, if_neg happroved]
            rcases jsonDumps result with e | json
            · rfl
            · unfold alone execute
              dsimp only [Prog.ofExcept, done_bind]
              rw [statement_bind, call_bind]
              dsimp only [run, commit]
              rw [apply_quiet (hquiet 1)]
              exact alone_reread (hquiet 2) approvalId

end Alone

/-- The tables of a run of any number of instances, from a new database file. -/
def instanceTables (sched : List (Action InstanceCall StatementEnv)) : List ApprovalTable :=
  statementIsolation.worlds InstanceCall.code (Config.start []) sched

/-- What the approval state machine asks of a row and what it is later: it is under
    its identifier, its status has moved along the edges, and its decision is as it
    was taken. -/
structure Endures (row later : ApprovalRow) : Prop where
  approvalId : later.approvalId = row.approvalId
  status : row.status.leadsTo later.status = true
  decision : row.status ≠ .pending → later.decidedAt = row.decidedAt ∧
    later.decidedBy = row.decidedBy ∧ later.decisionNote = row.decisionNote

/-- The statuses of each row are a path of the machine, every row endures, and no
    credit has two rows. -/
structure KeepsStateMachine (tables : List ApprovalTable) : Prop where
  path : ∀ i, StatusPath ((placeHistory tables i).map (·.status))
  kept : tables.Pairwise fun table later => ∀ (i : Nat) (row : ApprovalRow),
    table[i]? = some row → ∃ row', later[i]? = some row' ∧ Endures row row'
  once : ∀ table ∈ tables, table.Pairwise fun row other => ¬ row.SameCredit other

section Runs

theorem placeHistory_unreported (tables : List ApprovalTable) (i : Nat) :
    placeHistory (tables.map unreported) i =
      (placeHistory tables i).map ApprovalRow.unreported := by
  induction tables with
  | nil => rfl
  | cons table tables ih =>
      rw [List.map_cons, placeHistory_cons, placeHistory_cons, List.map_append, ih]
      unfold unreported
      rw [List.getElem?_map]
      rcases table[i]? with _ | row
      · rfl
      · rfl

theorem endures_unreported {row later : ApprovalRow}
    (h : Continues row.unreported later.unreported) : Endures row later :=
  ⟨h.approvalId, h.status, h.decision⟩

/-- Tables that step from one to the next up to what executions reported keep the
    state machine. -/
theorem keeps_of_chain {tables : List ApprovalTable}
    (h : (([] : ApprovalTable) :: tables).IsChain fun table later =>
      TableStep (unreported table) (unreported later)) :
    KeepsStateMachine ([] :: tables) := by
  have hchain : ((([] : ApprovalTable) :: tables).map unreported).IsChain TableStep :=
    (List.isChain_map unreported).mpr h
  refine ⟨fun i => ?_, ?_, fun table htable => ?_⟩
  · have hpath := statusPath_chain hchain i
    have hsame := placeHistory_unreported ([] :: tables) i
    rw [List.map_cons] at hsame
    change StatusPath ((placeHistory (unreported [] :: tables.map unreported) i).map _) at hpath
    rw [hsame, List.map_map] at hpath
    exact hpath
  · have hrows := rowsKept_chain wellFormed_nil hchain
    refine (List.pairwise_map (f := unreported) (l := [] :: tables).mp hrows).imp
      fun {table later} hkept i row hrow => ?_
    have hold : (unreported table)[i]? = some row.unreported := by
      unfold unreported
      rw [List.getElem?_map, hrow, Option.map_some]
    rcases hkept i row.unreported hold with ⟨new, hnew, hcont⟩
    unfold unreported at hnew
    rw [List.getElem?_map] at hnew
    rcases Option.map_eq_some_iff.mp hnew with ⟨row', hrow', rfl⟩
    exact ⟨row', hrow', endures_unreported hcont⟩
  · have hmem : unreported table ∈ (([] : ApprovalTable) :: tables).map unreported :=
      List.mem_map_of_mem htable
    have hw := wellFormed_chain wellFormed_nil hchain (unreported table) hmem
    exact List.pairwise_map.mp hw.credits

/-- Instances keep the approval state machine in every run in which no decision of
    a row is committed while another call stands before one of its own, and no
    credit is inserted while another call stands before inserting it. A statement
    that raises or leaves the table as it is may come anywhere. -/
theorem instances_keep_state_machine (sched : List (Action InstanceCall StatementEnv))
    (hs : statementIsolation.Undisturbed InstanceCall.code (Config.start []) sched) :
    KeepsStateMachine (instanceTables sched) := by
  have hstart : statementIsolation.Isolated
      (Config.start [] : Config InstanceCall Statement Statement.Answer Exc ApprovalRecord
        ApprovalTable) :=
    ⟨wellFormed_nil, fun _ hth => absurd hth List.not_mem_nil⟩
  have hchain := Isolation.worlds_chain
    (S := fun table later => TableStep (unreported table) (unreported later))
    (fun _ => .same) (fun _ env _ hw hneeds => commit_step env hw hneeds)
    (fun call table _ => instance_guarded call) sched hstart hs
  unfold instanceTables
  rcases statementIsolation.worlds_start InstanceCall.code (Config.start []) sched with
    ⟨rest, hrest⟩
  rw [hrest] at hchain ⊢
  exact keeps_of_chain hchain

/-- A credit of one task on a reservation. -/
def creditOn (reservationId : String) : CreditRequest :=
  { taskId := "task-1", requestedBy := "agent:task-1", reservationId := reservationId,
    amount := 80, reason := "late checkout", policyId := none }

/-- Looking for a credit is in nobody's way. -/
theorem selectCredit_clear (taskId reservationId : String) (amount : ℚ) (c' : Statement) :
    ¬ (Statement.selectCredit taskId reservationId amount).Conflicts c' := by
  rintro (⟨_, h, _⟩ | ⟨_, _, h, _⟩)
  · cases h
  · cases h

/-- Two instances ask for one credit and a third for another, statement by statement
    in turn; the first insertion raises. -/
def twoCredits : List (Action InstanceCall StatementEnv) :=
  [.spawn (.create (creditOn "R-1")), .spawn (.create (creditOn "R-1")),
    .spawn (.create (creditOn "R-2")), .advance 0 ⟨"09:00", "a", none⟩,
    .advance 1 ⟨"09:00", "b", none⟩, .advance 2 ⟨"09:00", "c", none⟩,
    .advance 0 ⟨"09:01", "a", some (.other "OperationalError")⟩,
    .advance 1 ⟨"09:01", "b", none⟩, .advance 2 ⟨"09:01", "c", none⟩]

theorem two_credits_keep_state_machine : KeepsStateMachine (instanceTables twoCredits) := by
  refine instances_keep_state_machine twoCredits
    ⟨trivial, trivial, trivial, ?_, ?_, ?_, ?_, ?_, ?_, trivial⟩
  · intro t c k tr hget _ j _ t' c' k' tr' _
    cases hget
    exact selectCredit_clear _ _ _ c'
  · intro t c k tr hget _ j _ t' c' k' tr' _
    cases hget
    exact selectCredit_clear _ _ _ c'
  · intro t c k tr hget _ j _ t' c' k' tr' _
    cases hget
    exact selectCredit_clear _ _ _ c'
  · -- What raises inserts nothing, so the same credit may wait.
    intro t c k tr hget hchange
    cases hget
    exact absurd rfl hchange
  · rintro t c k tr hget _ (_ | _ | _ | j) hj t' c' k' tr' hget'
    · cases hget'
    · exact absurd rfl hj
    · cases hget
      cases hget'
      rintro (⟨_, h, _⟩ | ⟨_, _, h, h', _, hreservation, _⟩)
      · cases h
      · cases h
        cases h'
        exact absurd hreservation (by decide)
    · cases hget'
  · rintro t c k tr hget _ (_ | _ | _ | j) hj t' c' k' tr' hget'
    · cases hget'
    · cases hget'
    · exact absurd rfl hj
    · cases hget'

/-- A row is approved and executed while the denial of another instance stands
    before its update. -/
def deniedLate : List (Action InstanceCall StatementEnv) :=
  [.spawn (.create (creditOn "R-1")), .advance 0 ⟨"09:00", "a", none⟩,
    .advance 0 ⟨"09:00", "a", none⟩,
    .spawn (.decide "approval:a" true "manager-1" none),
    .spawn (.decide "approval:a" false "manager-2" none),
    .advance 1 ⟨"09:01", "b", none⟩, .advance 2 ⟨"09:01", "c", none⟩,
    .advance 1 ⟨"09:02", "b", none⟩,
    .spawn (.markExecuted "approval:a" []), .advance 3 ⟨"09:03", "d", none⟩,
    .advance 3 ⟨"09:03", "d", none⟩, .advance 2 ⟨"09:04", "c", none⟩]

/-- Two instances look for the same credit before either inserts it. -/
def insertedTwice : List (Action InstanceCall StatementEnv) :=
  [.spawn (.create (creditOn "R-1")), .spawn (.create (creditOn "R-1")),
    .advance 0 ⟨"09:00", "a", none⟩, .advance 1 ⟨"09:00", "b", none⟩,
    .advance 0 ⟨"09:01", "a", none⟩, .advance 1 ⟨"09:01", "b", none⟩]

/-- Other runs overwrite an executed row with a denial, or insert a credit twice. -/
theorem decision_overwritten :
    (¬ ∀ (sched : List (Action InstanceCall StatementEnv)) (i : Nat),
      StatusPath ((placeHistory (instanceTables sched) i).map (·.status))) ∧
    ¬ ∀ (sched : List (Action InstanceCall StatementEnv)), ∀ table ∈ instanceTables sched,
      table.Pairwise fun row other => ¬ row.SameCredit other := by
  constructor
  · intro h
    have hpath := (h deniedLate 0).2
    have hstatuses : (placeHistory (instanceTables deniedLate) 0).map (·.status) =
        [.pending, .pending, .pending, .pending, .pending, .approved, .approved, .approved,
          .executed, .denied] := by decide +kernel
    rw [hstatuses] at hpath
    simp only [List.isChain_cons_cons] at hpath
    rcases hpath with ⟨_, _, _, _, _, _, _, _, hlast | hlast, _⟩
    · exact ApprovalStatus.noConfusion hlast
    · cases hlast
  · intro h
    have hmem : [newRow "09:01" "a" (creditOn "R-1"), newRow "09:01" "b" (creditOn "R-1")] ∈
        instanceTables insertedTwice := List.mem_of_getElem? (i := 6) rfl
    have hpair := h insertedTwice _ hmem
    rw [List.pairwise_cons] at hpair
    exact hpair.1 _ (List.mem_singleton.mpr rfl) ⟨rfl, rfl, rfl⟩

end Runs

end Asante
