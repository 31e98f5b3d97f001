import Asante.Theory.Contracts
import Asante.Theory.Footprints
import Asante.Theory.Replays

/-!
# Restarts

What is left when the process is stopped and started again. The approval store
is a file; everything else, the ledger with its idempotency keys, the work
orders, the outbox, the cache, the grants and the registry, is built anew. A
process may be stopped between any two commands, and whatever was running then
is gone.

So the key of an approved credit protects against a second credit only as long
as the process lives, and what protects across restarts is the row. A row that
was denied or executed is closed for good: no later process credits it, and it
never changes again. A row that is approved and not yet marked is not closed,
and the next process to approve it credits it, whether or not an earlier one
did.

The closed rows are the subject of a contract. A decision to approve one of them
raises, and what a decision does answer is the record it was asked for, so no
call ever comes to the point of crediting a closed row.

## Main definitions

* `World.restarted`: What a new process finds.
* `oneLife`, `afterLives`: The worlds that processes leave, one after the other.
* `ApprovalRow.Final`: The row was denied or executed.
* `closedContract`: The contract of the closed rows.

## Theorems

* `life_closed`: No process credits a row it finds closed.
* `approvals_outlive_restarts`: The approvals over any number of processes.
-/

namespace Asante

open Core.Prog Core.Contract Core.KeyedLog

/-- What a new process finds: the approvals, and nothing else of the old one. -/
def World.restarted (w : World) : World :=
  { World.empty with approvals := w.approvals }

/-- The world a process leaves that was started on the approvals of `w`. -/
def oneLife (d : Deployment) (w : World) (sched : List (Core.Action AppCall Env)) : World :=
  ((Core.Config.start w.restarted).exec perform (AppCall.code d) sched).world

/-- The world at the end of the last of some processes, one after the other. -/
def afterLives (d : Deployment) (lives : List (List (Core.Action AppCall Env))) : World :=
  lives.foldl (oneLife d) World.empty

/-- The row was denied or executed. -/
def ApprovalRow.Final (row : ApprovalRow) : Prop :=
  row.status = .denied ∨ row.status = .executed

section Contract

variable (d : Deployment) (closed : List ApprovalRow)

/-- A ledger call is made under the key of its writer, and not for a closed row. -/
def RequiresOpen : Cmd → Prop
  | .ledgerIssue writer credit key => key = some (writerKey d writer credit) ∧
    ∀ row ∈ closed, writer ≠ .approvedExecutor row.approvalId
  | _ => True

/-- A read record is the one under its identifier, and no closed row is approved. -/
def EnsuresClosed : (c : Cmd) → c.Answer → Prop
  | .requireRecord approvalId, answer => ∀ record, answer = .ok record →
    record.approvalId = approvalId
  | .decideLocked approvalId true _ _, answer => ∀ current, answer = .ok current →
    (∀ row ∈ closed, row.approvalId ≠ approvalId) ∧
      ∀ record, current = some record → record.approvalId = approvalId
  | _, _ => True

/-- The closed rows are in the table, and none was credited. -/
structure KeepsClosed (w : World) : Prop where
  table : WellFormed w.approvals
  ledgered : Ledgered d w
  rows : ∀ row ∈ closed, row ∈ w.approvals
  writes : ∀ wr ∈ w.writes, ∀ row ∈ closed, wr.writer ≠ .approvedExecutor row.approvalId

end Contract

section Kept

variable {d : Deployment} {closed : List ApprovalRow} {w : World}

theorem requireRecord_id {approvalId : String} {record : ApprovalRecord} {table : ApprovalTable}
    (h : requireRecord table approvalId = .ok record) : record.approvalId = approvalId := by
  rcases requireRecord_cases approvalId table with ⟨row, hsel, hread⟩ | ⟨-, e, hraise⟩
  · rw [hread] at h
    rw [← Except.ok.inj h]
    exact (selectById_some hsel).2
  · rw [hraise] at h
    exact absurd h (by simp only [reduceCtorEq, not_false_eq_true])

/-- A final row is neither pending nor approved. -/
theorem final_other {row : ApprovalRow} (h : row.Final) :
    row.status ≠ .pending ∧ row.status ≠ .approved := by
  rcases h with hs | hs
  · rw [hs]
    decide
  · rw [hs]
    decide

/-- A decision to approve that answers found a row that was not final. -/
theorem decide_open {now approvalId decidedBy : String} {note : Option String}
    {current : Option ApprovalRecord} (hw : WellFormed w.approvals)
    (h : (decideLocked now approvalId true decidedBy note w.approvals).1 = .ok current) :
    (∀ row ∈ w.approvals, row.Final → row.approvalId ≠ approvalId) ∧
      ∀ record, current = some record → record.approvalId = approvalId := by
  have hother : ∀ {found : ApprovalRow}, selectById w.approvals approvalId = some found →
      ¬ found.Final → ∀ row ∈ w.approvals, row.Final → row.approvalId ≠ approvalId := by
    rintro found hsel hopen row hrow hfinal rfl
    rw [selectById_of_mem hw.ids hrow] at hsel
    exact hopen (Option.some.inj hsel ▸ hfinal)
  rcases decideLocked_cases now approvalId decidedBy true note w.approvals with
    ⟨e, -, hans⟩ | ⟨row, hsel, hstatus, hans⟩ | ⟨row, hsel, hstatus, hans⟩
  · rw [hans] at h
    exact absurd h (by simp only [reduceCtorEq, not_false_eq_true])
  · rw [hans] at h
    refine ⟨hother hsel fun hfinal => (final_other hfinal).2 hstatus, fun record hrecord => ?_⟩
    rw [hrecord] at h
    rw [← Option.some.inj (Except.ok.inj h)]
    exact (selectById_some hsel).2
  · rw [hans] at h
    refine ⟨hother hsel fun hfinal => (final_other hfinal).1 hstatus, fun record hrecord => ?_⟩
    rw [hrecord] at h
    exact absurd (Except.ok.inj h) (by simp only [reduceCtorEq, not_false_eq_true])

/-- A row that is in the table and final stays in it as it is. -/
theorem final_kept {table : ApprovalTable} (hw : WellFormed w.approvals)
    (hstep : TableStep w.approvals table) {row : ApprovalRow} (hrow : row ∈ w.approvals)
    (hfinal : row.Final) : row ∈ table := by
  rcases List.mem_iff_getElem?.mp hrow with ⟨i, hi⟩
  rcases step_rows hw hstep hi with ⟨new, hnew, hmove⟩
  -- A row is decided while it is pending, and executed while it is approved.
  cases hmove with
  | same => exact List.mem_of_getElem? hnew
  | decided approved now decidedBy note hpending =>
      exact absurd hpending (final_other hfinal).1
  | executed now json happroved => exact absurd happroved (final_other hfinal).2

theorem keepsClosed_step (hclosed : ∀ row ∈ closed, row.Final) {c : Cmd}
    (hrequires : RequiresOpen d closed c) (env : Env) (h : KeepsClosed d closed w) :
    KeepsClosed d closed (perform c env w).2 := by
  have hstep := perform_table h.table c env
  have hkeyed : Keyed d c := by
    cases c with
    | ledgerIssue writer credit key => exact hrequires.1
    | _ => trivial
  refine ⟨wellFormed_step h.table hstep, (ledgered_step hkeyed h.ledgered env).1,
    fun row hrow => final_kept h.table hstep (h.rows row hrow) (hclosed row hrow), ?_⟩
  by_cases hledger : ∃ writer credit key, c = .ledgerIssue writer credit key
  · rcases hledger with ⟨writer, credit, key, rfl⟩
    intro wr hwr row hrow
    rcases perform_issue_cases writer credit key env with hsame | hcall
    · rw [hsame] at hwr
      exact h.writes wr hwr row hrow
    · rw [hcall] at hwr
      rcases issue_writes wr hwr with hold | rfl
      · exact h.writes wr hold row hrow
      · exact hrequires.2 row hrow
  · have hother : ∀ writer credit key, c ≠ .ledgerIssue writer credit key :=
      fun writer credit key hc => hledger ⟨writer, credit, key, hc⟩
    rw [(Prod.mk.inj (perform_ledger hother env)).2]
    exact h.writes

/-- The contract of the closed rows. -/
def closedContract (d : Deployment) (closed : List ApprovalRow)
    (hclosed : ∀ row ∈ closed, row.Final) : Core.Contract Cmd Cmd.Answer Env World where
  perform := perform
  requires := RequiresOpen d closed
  ensures := EnsuresClosed closed
  inv := KeepsClosed d closed
  adm := fun _ => True
  kept := fun c env w hrequires _ hinv => by
    refine ⟨?_, keepsClosed_step hclosed hrequires env hinv⟩
    cases c with
    | requireRecord approvalId =>
        intro record hrecord
        exact requireRecord_id (apply_ok hrecord).1
    | decideLocked approvalId approved decidedBy note =>
        cases approved with
        | false => trivial
        | true =>
            intro current hcurrent
            rcases decide_open hinv.table (apply_ok hcurrent).1 with ⟨hopen, hid⟩
            exact ⟨fun row hrow => hopen row (hinv.rows row hrow) (hclosed row hrow), hid⟩
    | _ => trivial

section Calls

theorem open_of_store {c : Cmd} (h : c.store ≠ some .ledger) : RequiresOpen d closed c := by
  cases c with
  | ledgerIssue writer credit key => exact absurd rfl h
  | _ => trivial

theorem storeless_open (c : Cmd) (h : c.store = none) : RequiresOpen d closed c :=
  open_of_store fun hc => absurd (h.symm.trans hc)
    (by simp only [reduceCtorEq, not_false_eq_true])

/-- An operation credits no closed row, unless it executes one. -/
theorem effects_open {call : ToolCall} {c : Cmd} (h : call.Effects d c)
    (hexecuted : ∀ approval task chain, call = .executeApproved approval task chain →
      ∀ row ∈ closed, row.approvalId ≠ approval.approvalId) : RequiresOpen d closed c := by
  cases call with
  | issueCredit retryPolicy reservationId amount reason task chain =>
      rw [show c = _ from h]
      exact ⟨rfl, fun row _ => by simp only [ne_eq, reduceCtorEq, not_false_eq_true]⟩
  | executeApproved approval task chain =>
      rcases h with rfl | ⟨result, rfl⟩ | rfl
      · refine ⟨rfl, fun row hrow hsame => ?_⟩
        exact hexecuted approval task chain rfl row hrow (Writer.approvedExecutor.inj hsame).symm
      · trivial
      · trivial
  | _ => exact open_of_store fun hc => absurd (effects_stores h _ hc) (by simp [ToolCall.stores])

variable (hclosed : ∀ row ∈ closed, row.Final)

/-- The program keeps to the contract of the closed rows, and returns what
    satisfies `Q`. -/
abbrev Heeds {α : Type} (Q : α → Prop) (p : App α) : Prop :=
  (closedContract d closed hclosed).Yields Q p

/-- Every operation but the execution of a closed row keeps to the contract. -/
theorem tool_spares (call : ToolCall)
    (hexecuted : ∀ approval task chain, call = .executeApproved approval task chain →
      ∀ row ∈ closed, row.approvalId ≠ approval.approvalId) :
    Heeds (d := d) hclosed (fun _ => True) (call.code d) :=
  yields_of_issues _ (issues_effects storeless_open d call fun _ h => effects_open h hexecuted)

/-- A decision to approve returns the record of a row that is not closed. -/
theorem decide_spares (approvalId decidedBy : String) (note : Option String) :
    Heeds (d := d) hclosed (fun record => record.approvalId = approvalId ∧
      ∀ row ∈ closed, row.approvalId ≠ approvalId)
      (approvalsDecide approvalId true decidedBy note) := by
  refine yields_bind _ (yields_orRaise (Q := fun current =>
    (∀ row ∈ closed, row.approvalId ≠ approvalId) ∧
      ∀ record, current = some record → record.approvalId = approvalId) (yields_ask trivial)
    fun current h => h current rfl) fun current hcurrent => ?_
  cases current with
  | some record => exact ⟨hcurrent.2 record rfl, hcurrent.1⟩
  | none =>
      -- The row was pending, and is read again.
      exact yields_orRaise (yields_ask trivial) fun record h => ⟨h record rfl, hcurrent.1⟩

theorem approve_spares (operator : AuthenticatedHuman) (approvalId : String)
    (note : Option String) :
    Heeds (d := d) hclosed (fun _ => True) (approveCreditRequest d operator approvalId note) := by
  have hrequire : Heeds (d := d) hclosed (fun _ => True) (orRaise (ask
      (.requireRecord approvalId))) := yields_orRaise (yields_ask trivial) fun _ _ => trivial
  have hopens : ∀ c, c.opens = true → RequiresOpen d closed c := fun c h =>
    storeless_open c (store_of_opens h)
  refine yields_validated (yields_bind _ (P := fun _ => True) (yields_ofExcept fun _ _ => trivial)
    fun _ _ => ?_)
  refine yields_bind _ (P := fun decided => ∀ record, decided = .inr record →
    record.approvalId = approvalId ∧ ∀ row ∈ closed, row.approvalId ≠ approvalId) ?_
    fun decided hdecided => ?_
  · refine yields_approvalErrors (yields_bind _ hrequire fun record _ => ?_)
    split
    · exact fun _ h => absurd h (by simp only [reduceCtorEq, not_false_eq_true])
    · refine yields_bind _ (decide_spares hclosed approvalId _ note) fun decided h => ?_
      exact fun record hrecord => Sum.inr.inj hrecord ▸ h
  · rcases decided with record | record
    · trivial
    · -- The record to execute is not one of a closed row.
      rcases hdecided record rfl with ⟨hid, hopen⟩
      refine yields_bind _ (yields_of_issues _ (opening_task hopens _ _ _))
        fun task _ => ?_
      refine yields_bind _ (yields_of_issues _ (opening_approvalExecutor hopens d _ _))
        fun chain _ => ?_
      refine yields_bind _ (tool_spares hclosed (.executeApproved record task chain) ?_)
        fun result _ => ?_
      · rintro approval task' chain' hcall row hrow
        rw [← (ToolCall.executeApproved.inj hcall).1, hid]
        exact hopen row hrow
      · exact yields_bind _ hrequire fun _ _ => trivial

/-- No call credits a closed row. -/
theorem app_spares (call : AppCall) :
    Heeds (d := d) hclosed (fun _ => True) (call.code d) := by
  cases call with
  | approve operator approvalId note => exact approve_spares hclosed operator approvalId note
  | mcp tool metadata =>
      refine yields_of_issues _ (app_effects storeless_open d _ fun c hc => ?_)
      rcases hc with ⟨context, heffect⟩
      refine effects_open heffect fun approval task chain hcall => ?_
      cases tool <;> exact absurd hcall (by simp only [McpTool.toolCall, reduceCtorEq,
        not_false_eq_true])
  | devIssueCredit operator reservationId amount reason =>
      refine yields_of_issues _ (app_effects storeless_open d _ fun c hc => ?_)
      rcases hc with ⟨task, chain, heffect⟩
      exact effects_open heffect fun _ _ _ hcall => absurd hcall
        (by simp only [reduceCtorEq, not_false_eq_true])
  | runAgent operator message =>
      refine yields_of_issues _ (app_effects storeless_open d _ fun c hc => ?_)
      rcases hc with ⟨context, rfl⟩ | ⟨taskId, rfl⟩
      · trivial
      · trivial
  | devGetReservation operator reservationId =>
      refine yields_of_issues _ (app_effects storeless_open d _ fun c hc => ?_)
      rcases hc with ⟨task, chain, heffect⟩
      exact effects_open heffect fun _ _ _ hcall => absurd hcall
        (by simp only [reduceCtorEq, not_false_eq_true])
  | deny operator approvalId note =>
      refine yields_of_issues _ (app_effects storeless_open d _ fun c hc => ?_)
      rcases hc with rfl | rfl
      · trivial
      · trivial

end Calls

end Kept

/-- A process that finds some rows denied or executed leaves them as they are, and
    credits none of them. -/
theorem life_closed (d : Deployment) {w : World} (hw : WellFormed w.approvals)
    (sched : List (Core.Action AppCall Env)) :
    WellFormed (oneLife d w sched).approvals ∧ Ledgered d (oneLife d w sched) ∧
      ∀ row ∈ w.approvals, row.Final → row ∈ (oneLife d w sched).approvals ∧
        ∀ wr ∈ (oneLife d w sched).writes, wr.writer ≠ .approvedExecutor row.approvalId := by
  classical
  let closed := w.approvals.filter fun row => decide row.Final
  have hclosed : ∀ row ∈ closed, row.Final :=
    fun row hrow => of_decide_eq_true (List.mem_filter.mp hrow).2
  have hstart : KeepsClosed d closed w.restarted := by
    refine ⟨hw, ⟨tracks_empty, fun wr hwr => absurd hwr List.not_mem_nil⟩,
      fun row hrow => (List.mem_filter.mp hrow).1, fun wr hwr => absurd hwr List.not_mem_nil⟩
  have hkept := ((closedContract d closed hclosed).exec_yields (AppCall.code d)
    (fun _ _ => True) hstart sched (fun call _ => app_spares hclosed call)
    fun _ _ _ => trivial).1
  refine ⟨hkept.table, hkept.ledgered, fun row hrow hfinal => ?_⟩
  have hmem : row ∈ closed := List.mem_filter.mpr ⟨hrow, decide_eq_true hfinal⟩
  exact ⟨hkept.rows row hmem, fun wr hwr => hkept.writes wr hwr row hmem⟩

theorem exists_continues (d : Deployment) {w : World} (hw : WellFormed w.approvals)
    (sched : List (Core.Action AppCall Env)) :
    ∀ row ∈ w.approvals, ∃ later ∈ (oneLife d w sched).approvals, Continues row later := by
  have hrun := Core.exec_invariant perform (AppCall.code d) (fun cfg => WellFormed
    cfg.world.approvals ∧ ∀ row ∈ w.approvals, ∃ later ∈ cfg.world.approvals, Continues row later)
    (fun cfg call h => h) (fun cfg i env call c k tr hget h => ?_) sched
    (Core.Config.start w.restarted) ⟨hw, fun row hrow => ⟨row, hrow, continues_refl row⟩⟩
  · exact hrun.2
  · rw [Core.act_advance_call perform (AppCall.code d) env hget]
    have hstep := perform_table h.1 c env
    refine ⟨wellFormed_step h.1 hstep, fun row hrow => ?_⟩
    rcases h.2 row hrow with ⟨mid, hmid, hcont⟩
    rcases step_kept h.1 hstep mid hmid with ⟨later, hlater, hcont'⟩
    exact ⟨later, hlater, continues_trans hcont hcont'⟩

theorem afterLives_snoc (d : Deployment) (lives : List (List (Core.Action AppCall Env)))
    (sched : List (Core.Action AppCall Env)) :
    afterLives d (lives ++ [sched]) = oneLife d (afterLives d lives) sched :=
  List.foldl_concat _ _ _ _

theorem afterLives_sound (d : Deployment) (lives : List (List (Core.Action AppCall Env))) :
    WellFormed (afterLives d lives).approvals ∧ Ledgered d (afterLives d lives) := by
  induction lives using List.reverseRecOn with
  | nil => exact ⟨wellFormed_nil, tracks_empty, fun wr hwr => absurd hwr List.not_mem_nil⟩
  | append_singleton lives sched ih =>
      rw [afterLives_snoc]
      have hlife := life_closed d ih.1 sched
      exact ⟨hlife.1, hlife.2.1⟩

/-- The approvals over any number of processes, each stopped anywhere: the ledger of
    a process holds at most one credit under an approval, every request continues with the
    decision it was given, and what was denied or executed stays as it is and is
    credited by no later process. -/
theorem approvals_outlive_restarts (d : Deployment)
    (before after : List (List (Core.Action AppCall Env))) :
    WellFormed (afterLives d before).approvals ∧
    (afterLives d before).ledger.entries = (afterLives d before).writes.map (·.credit) ∧
    (∀ approvalId, (approvedWrites (afterLives d before) approvalId).length ≤ 1) ∧
    (∀ row ∈ (afterLives d before).approvals,
      ∃ later ∈ (afterLives d (before ++ after)).approvals, Continues row later) ∧
    ∀ row ∈ (afterLives d before).approvals, row.Final →
      row ∈ (afterLives d (before ++ after)).approvals ∧
        (after ≠ [] → ∀ wr ∈ (afterLives d (before ++ after)).writes,
          wr.writer ≠ .approvedExecutor row.approvalId) := by
  rcases afterLives_sound d before with ⟨hwell, hledgered⟩
  refine ⟨hwell, ledgered_entries hledgered, fun approvalId => ?_, ?_, ?_⟩
  · exact filter_le_one hledgered _ (approvedCreditKey approvalId)
      fun _ _ hkey => of_decide_eq_true hkey
  · -- A row continues through one process after the other.
    induction after using List.reverseRecOn with
    | nil =>
        rw [List.append_nil]
        exact fun row hrow => ⟨row, hrow, continues_refl row⟩
    | append_singleton after sched ih =>
        intro row hrow
        rw [← List.append_assoc, afterLives_snoc]
        rcases ih row hrow with ⟨mid, hmid, hcont⟩
        rcases exists_continues d (afterLives_sound d (before ++ after)).1 sched mid hmid with
          ⟨later, hlater, hcont'⟩
        exact ⟨later, hlater, continues_trans hcont hcont'⟩
  · induction after using List.reverseRecOn with
    | nil =>
        rw [List.append_nil]
        exact fun row hrow _ => ⟨hrow, fun hne => absurd rfl hne⟩
    | append_singleton after sched ih =>
        intro row hrow hfinal
        rw [← List.append_assoc, afterLives_snoc]
        -- The last process found the row as it was.
        rcases (life_closed d (afterLives_sound d (before ++ after)).1 sched).2.2 row
          (ih row hrow hfinal).1 hfinal with ⟨hkept, hwrites⟩
        exact ⟨hkept, fun _ => hwrites⟩

/-- A process that is stopped after the credit and before the row is marked. -/
def crashSchedule : List (Core.Action AppCall Env) :=
  requestSchedule .granting ++ .spawn (.approve sampleApprover "approval:7f" none) ::
    List.replicate 12 (.advance 2 .granting)

/-- The next process approves the request again. -/
def againSchedule : List (Core.Action AppCall Env) :=
  .spawn (.approve sampleApprover "approval:7f" none) :: List.replicate 16 (.advance 0 .granting)

/-- Both processes make the credit: the row was not marked, and the key is gone. -/
example : (afterLives .sample [crashSchedule]).writes.length = 1 ∧
    (afterLives .sample [crashSchedule, againSchedule]).writes.length = 1 := by decide +kernel

end Asante
