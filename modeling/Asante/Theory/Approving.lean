import Asante.Theory.Outcomes

/-!
# Approving Side by Side

Any number of calls approving one approval at once, when Ruhusa allows them and
no provider fails. None of them fails either, and each reports the credit as
issued, unless one of them comes to decide a row that another has executed
since it read the row: `decide` takes an approved row, but raises on an
executed one.

`unexecutedAtDecide` is the condition that this does not happen. The sound
reading of it is that of any other environment: the calls of such a run are
within the terms under which the approval stays live, so the postcondition of
every one of them is that of success.

## Main definitions

* `liveTerms`: The terms under which one approval stays live.
* `decidesHere`, `unexecutedAtDecide`: No decision meets an executed row.

## Theorems

* `approve_depth`: An approval issues at most seventeen commands.
* `conforms_unexecuted`: Such runs are within the terms.
* `approving_succeeds`: Every call of such a run succeeds.
* `late_decision_conflicts`: Without the condition one may fail.
-/

namespace Asante

open Core.Prog

section Depth

theorem depthLe_ask (c : Cmd) : DepthLe (ask c) 1 :=
  ⟨Nat.one_pos, fun _ => trivial⟩

theorem depthLe_ofExcept {α : Type} (r : Except Exc α) (n : Nat) :
    DepthLe (Core.Prog.ofExcept r : App α) n := by
  cases r with
  | ok a => trivial
  | error e => trivial

theorem depthLe_orRaise {α : Type} {p : App (Except Exc α)} {n : Nat} (h : DepthLe p n) :
    DepthLe (orRaise p) n :=
  depthLe_bind h fun r => depthLe_ofExcept r 0

theorem depthLe_secured {submit : Int → Request} {body : Permit → Revalidation → App PyDict}
    {n : Nat} (h : ∀ permit live, DepthLe (body permit live) n) :
    DepthLe (secured submit body) (1 + (1 + (1 + n))) := by
  -- The clock, the admission and the revalidation come before the body.
  refine depthLe_bind (depthLe_ask _) fun now => ?_
  refine depthLe_bind (depthLe_orRaise (depthLe_ask _)) fun admission => ?_
  split
  · split
    · trivial
    · refine depthLe_bind (depthLe_ask _) fun live => ?_
      split
      · exact h _ _
      · trivial
  · trivial

theorem depthLe_markUnknownOnError {α : Type} {permit : Permit} {operation : App α} {n : Nat}
    (h : DepthLe operation n) : DepthLe (markUnknownOnError permit operation) (n + 1) := by
  refine depthLe_tryCatch h fun e => ?_
  split
  · exact depthLe_bind (n := 1) (m := 0) (depthLe_ask _) fun _ => trivial
  · trivial

theorem depthLe_completeOrRaise (permit : Permit) (message : String) :
    DepthLe (completeOrRaise permit message) 1 := by
  refine depthLe_bind (n := 1) (m := 0) (depthLe_ask _) fun completed => ?_
  split
  · trivial
  · trivial

theorem depthLe_decide (approvalId decidedBy : String) (approved : Bool) (note : Option String) :
    DepthLe (approvalsDecide approvalId approved decidedBy note) 2 := by
  refine depthLe_bind (n := 1) (m := 1) (depthLe_orRaise (depthLe_ask _)) fun r => ?_
  cases r with
  | some current => trivial
  | none => exact depthLe_orRaise (depthLe_ask _)

theorem depthLe_markExecuted (approvalId : String) (result : PyDict) :
    DepthLe (approvalsMarkExecuted approvalId result) 2 := by
  refine depthLe_bind (n := 1) (m := 1) (depthLe_orRaise (depthLe_ask _)) fun r => ?_
  cases r with
  | some current => trivial
  | none => exact depthLe_orRaise (depthLe_ask _)

theorem depthLe_executeApproved (d : Deployment) (record : ApprovalRecord) (task : TaskContext)
    (chain : List DelegationGrant) : DepthLe (executeApproved d record task chain) 8 := by
  unfold executeApproved
  split
  · trivial
  · split
    · -- Three for the opening, two for the credit and its handler, one to complete, two to
      -- mark.
      refine depthLe_secured (n := 5) fun permit live => ?_
      refine depthLe_bind (n := 2) (m := 3) (depthLe_markUnknownOnError (depthLe_orRaise
        (depthLe_ask _))) fun _ => ?_
      refine depthLe_bind (n := 1) (m := 2) (depthLe_completeOrRaise _ _) fun _ => ?_
      exact depthLe_bind (n := 2) (m := 0) (depthLe_markExecuted _ _) fun _ => trivial
    · trivial

theorem depthLe_decideApproved (operator : AuthenticatedHuman) (approvalId : String)
    (note : Option String) : DepthLe (decideApproved operator approvalId note) 3 := by
  refine depthLe_tryCatch (n := 3) (m := 0) ?_ fun e => ?_
  · -- One to read the record, two to decide it.
    refine depthLe_bind (n := 1) (m := 2) (depthLe_orRaise (depthLe_ask _)) fun record => ?_
    split
    · trivial
    · exact depthLe_bind (n := 2) (m := 0) (depthLe_decide _ _ _ _) fun _ => trivial
  · split
    · trivial
    · split
      · trivial
      · trivial

/-- An approval issues at most seventeen commands. -/
theorem approve_depth (d : Deployment) (operator : AuthenticatedHuman) (approvalId : String)
    (note : Option String) : DepthLe (approveCreditRequest d operator approvalId note) 17 := by
  unfold approveCreditRequest validated
  split
  · -- Three to decide, two to open the task, three to delegate, eight to execute, one to read.
    refine depthLe_bind (n := 0) (m := 17) (depthLe_ofExcept _ 0) fun _ => ?_
    refine depthLe_bind (n := 3) (m := 14) (depthLe_decideApproved _ _ _) fun decided => ?_
    cases decided with
    | inl record => trivial
    | inr record =>
        refine depthLe_bind (n := 2) (m := 12) ?_ fun task => ?_
        · refine depthLe_bind (n := 1) (m := 1) (depthLe_ask _) fun _ => ?_
          exact depthLe_bind (n := 1) (m := 0) (depthLe_ask _) fun _ => trivial
        refine depthLe_bind (n := 3) (m := 9) ?_ fun chain => ?_
        · refine depthLe_bind (n := 1) (m := 2) (depthLe_ask _) fun _ => ?_
          refine depthLe_bind (n := 1) (m := 1) (depthLe_ask _) fun _ => ?_
          refine depthLe_bind (n := 0) (m := 1) (depthLe_ofExcept _ 0) fun _ => ?_
          exact depthLe_bind (n := 1) (m := 0) (depthLe_orRaise (depthLe_ask _)) fun _ => trivial
        refine depthLe_bind (n := 8) (m := 1) (depthLe_executeApproved _ _ _ _) fun _ => ?_
        exact depthLe_bind (n := 1) (m := 0) (depthLe_orRaise (depthLe_ask _)) fun _ => trivial
  · trivial

end Depth

/-- The terms under which one approval stays live: Ruhusa allows, nothing fails,
    and no decision meets an executed row. -/
def liveTerms (approvalId : String) : Terms :=
  { openTerms with
    live := fun other => other = approvalId
    adm := Smooth approvalId
    directAllowed := fun _ _ _ _ _ _ _ _ _ => trivial
    requestAllowed := fun _ _ _ _ _ _ _ _ _ => trivial
    smooth := by
      rintro _ rfl c env w h
      exact h }

theorem provenance_live {d : Deployment} {w : World} (h : Provenance openTerms d w)
    {row : ApprovalRow} (hrow : row ∈ w.approvals) (hstatus : row.status ≠ .denied) :
    Provenance (liveTerms row.approvalId) d w where
  ledgered := h.ledgered
  table := h.table
  writes := h.writes
  rows := fun other hother =>
    ⟨trivial, (h.rows other hother).approver, (h.rows other hother).written,
      (h.rows other hother).reported⟩
  live := by
    rintro _ rfl
    exact ⟨row, hrow, rfl, hstatus⟩

/-- The action answers a decision on the approval. -/
def decidesHere (approvalId : String)
    (cfg : Core.Config AppCall Cmd Cmd.Answer Exc Response World) : Core.Action AppCall Env → Bool
  | .spawn _ => false
  | .advance i _ => match cfg.threads[i]?.bind (·.rest.next) with
    | some (.decideLocked other _ _ _) => other = approvalId
    | _ => false

/-- No decision on the approval meets an executed row. -/
def unexecutedAtDecide (d : Deployment) (approvalId : String) :
    Core.Config AppCall Cmd Cmd.Answer Exc Response World → List (Core.Action AppCall Env) → Bool
  | _, [] => true
  | cfg, a :: sched =>
    (!decidesHere approvalId cfg a || cfg.world.approvals.all fun row =>
      row.approvalId ≠ approvalId || row.status ≠ .executed) &&
      unexecutedAtDecide d approvalId (cfg.act perform (AppCall.code d) a) sched

/-- A schedule of approvals in which everything succeeds and no decision meets
    an executed row is within the terms. -/
theorem conforms_unexecuted (d : Deployment) (approvalId : String)
    (sched : List (Core.Action AppCall Env))
    (hcalls : ∀ call, Core.Action.spawn call ∈ sched → MayCall (liveTerms approvalId) call)
    (henvs : ∀ i env, Core.Action.advance i env ∈ sched → env.Succeeds)
    (cfg : Core.Config AppCall Cmd Cmd.Answer Exc Response World)
    (hdecide : unexecutedAtDecide d approvalId cfg sched = true) :
    (provenanceDiscipline (liveTerms approvalId) d).sys.Conforms (MayCall (liveTerms approvalId))
      (AppCall.code d) cfg sched := by
  induction sched generalizing cfg with
  | nil => trivial
  | cons a sched ih =>
      -- The first action meets the condition, and the rest is the induction.
      rcases Bool.and_eq_true_iff.mp hdecide with ⟨hhere, hrest⟩
      refine ⟨?_, ih (fun call h => hcalls call (List.mem_cons_of_mem _ h))
        (fun i env h => henvs i env (List.mem_cons_of_mem _ h)) _ hrest⟩
      cases a with
      | spawn call => exact hcalls call List.mem_cons_self
      | advance i env =>
          intro call c k tr hget
          refine ⟨henvs i env List.mem_cons_self, ?_⟩
          rintro decidedBy note rfl row hrow hid hexecuted
          -- An answer to a decision on this approval is an action that decides here.
          have hdecides : decidesHere approvalId cfg (.advance i env) = true := by
            simp only [decidesHere, hget, Option.bind_some, Core.Prog.next, decide_true]
          rw [hdecides, Bool.not_true, Bool.false_or] at hhere
          have hfalse := List.all_eq_true.mp hhere row hrow
          rw [hid, hexecuted] at hfalse
          exact absurd hfalse (by simp)

/-- What an approval that reported the credit of the row has answered. -/
def Succeeded (row : ApprovalRow) (rest : App Response) : Prop :=
  ∃ record execution, rest = done (.approvalExecution record execution) ∧ Reports row execution

/-- Any number of holders of the scope approve one approval that is not denied,
    at once, from any reachable state, while Ruhusa allows and no provider
    fails. If no decision meets an executed row, every call succeeds and reports
    the credit of the row as issued: it has answered so, or it is still running
    and has issued fewer than seventeen commands. -/
theorem approving_succeeds (d : Deployment) (before : List (Core.Action AppCall Env))
    (row : ApprovalRow) (hrow : row ∈ (appRun d before).world.approvals)
    (hstatus : row.status ≠ .denied) (sched : List (Core.Action AppCall Env))
    (hcalls : ∀ call, Core.Action.spawn call ∈ sched → ∃ operator note,
      call = .approve operator row.approvalId note ∧
        operator.scopes.contains "asante:approve" = true ∧ validNote note = true)
    (henvs : ∀ i env, Core.Action.advance i env ∈ sched → env.Succeeds)
    (hdecide : unexecutedAtDecide d row.approvalId (Core.Config.start (appRun d before).world)
      sched = true) :
    ∀ th ∈ ((Core.Config.start (appRun d before).world).exec perform (AppCall.code d)
      sched).threads,
      Succeeded row th.rest ∨ (th.rest.outcome = none ∧ th.trace.length < 17) := by
  have hmay : ∀ call, Core.Action.spawn call ∈ sched → MayCall (liveTerms row.approvalId) call := by
    intro call hcall
    rcases hcalls call hcall with ⟨operator, note, rfl, hscope, hnote⟩
    exact ⟨fun _ => trivial, fun _ => ⟨hscope, hnote⟩⟩
  -- The state reached so far has provenance; from here on the approval is live.
  have hprov : Provenance (liveTerms row.approvalId) d (appRun d before).world :=
    provenance_live (open_sound d before).world hrow hstatus
  rcases app_sound (liveTerms row.approvalId) d hprov sched
    (conforms_unexecuted d row.approvalId sched hmay henvs _ hdecide) with ⟨hsound, hgrows⟩
  intro th hth
  rcases hcalls th.call (Core.exec_spawned perform (AppCall.code d) (appRun d before).world sched
    th hth) with ⟨operator, note, hcall, _⟩
  have hpost := (hsound.threads th hth).2
  rw [hcall] at hpost
  rcases hrest : th.rest with resp | e | ⟨c, k⟩
  · -- The call answered. Its postcondition reports the credit of the row as it is now, and that
    -- row continues the one given.
    left
    rw [hrest] at hpost
    rcases hpost with ⟨record, execution, rfl, found, hfound, hid, _, hreports⟩
    rcases hgrows.rows row hrow with ⟨later, hlater, hcont⟩
    have hsame := eq_of_id hsound.world.table.ids hfound hlater (hid.trans hcont.approvalId.symm)
    have hreport := hreports rfl
    rw [hsame] at hreport
    refine ⟨record, execution, rfl, hreport.status, ?_, ?_⟩
    · rw [← hcont.reservationId]
      exact hreport.reservation
    · rw [← hcont.amount]
      exact hreport.amount
  · -- It raised, which a live approval does not.
    rw [hrest] at hpost
    exact absurd rfl hpost
  · -- It is still running, on a walk that has not used its commands up.
    right
    have hwalk := Core.exec_walks perform (AppCall.code d) (appRun d before).world sched th hth
    rw [hrest, hcall] at hwalk
    rcases depthLe_walks hwalk 17 (approve_depth d operator row.approvalId note) with ⟨_, hpos, _⟩
    exact ⟨rfl, by omega⟩

/-- Nobody refuses a request when everything succeeds. -/
theorem refusal_succeeds (submit : Int → Request) {envs : Nat → Env}
    (henvs : ∀ n, (envs n).Succeeds) : refusal submit envs = none := by
  rcases (henvs 1).begin (submit (envs 0).now) with ⟨hallowed, hpermit⟩
  rcases hsome : ((envs 1).begin (submit (envs 0).now)).permit with _ | permit
  · exact absurd hsome hpermit
  · have hlive := (henvs 2).revalidate (submit (envs 0).now) permit
    have hadmission := Env.admission_ok.mpr ⟨(henvs 1).create (submit (envs 0).now), rfl⟩
    simp only [refusal, hadmission, hallowed, hsome, hlive, if_true]

theorem granting_succeeds : Env.granting.Succeeds where
  fault := rfl
  create := fun _ => rfl
  begin := fun _ => ⟨rfl, by simp [Env.granting, Env.answering]⟩
  revalidate := fun _ _ => rfl
  complete := fun _ => rfl

/-- The row the agents asked for. -/
theorem requested_row : ∃ row ∈ (appRun .sample (requestSchedule .granting)).world.approvals,
    row.approvalId = "approval:7f" ∧ row.status = .pending := by
  have hrows : (appRun .sample (requestSchedule .granting)).world.approvals.map
      (fun row => (row.approvalId, row.status)) = [("approval:7f", .pending)] := by
    decide +kernel
  have hmem := List.mem_singleton.mpr (rfl : ("approval:7f", ApprovalStatus.pending) = _)
  rw [← hrows] at hmem
  rcases List.mem_map.mp hmem with ⟨row, hrow, hpair⟩
  exact ⟨row, hrow, congrArg Prod.fst hpair, congrArg Prod.snd hpair⟩

/-- Two approvals of the requested credit, whose commands are answered in the
    order given. -/
def twoApprovals (order : List Nat) : List (Core.Action AppCall Env) :=
  .spawn (.approve sampleApprover "approval:7f" none) ::
    .spawn (.approve sampleApprover "approval:7f" none) ::
    order.map fun i => .advance i .granting

theorem twoApprovals_calls (order : List Nat) (call : AppCall)
    (h : Core.Action.spawn call ∈ twoApprovals order) :
    call = .approve sampleApprover "approval:7f" none := by
  simpa [twoApprovals] using h

theorem twoApprovals_envs (order : List Nat) (i : Nat) (env : Env)
    (h : Core.Action.advance i env ∈ twoApprovals order) : env.Succeeds := by
  have hcases : i ∈ order ∧ Env.granting = env := by
    simpa [twoApprovals] using h
  rw [← hcases.2]
  exact granting_succeeds

/-- Both are decided before either executes. -/
theorem approving_succeeds_twice :
    ∃ row ∈ (appRun .sample (requestSchedule .granting)).world.approvals,
      ∀ th ∈ ((Core.Config.start (appRun .sample (requestSchedule .granting)).world).exec perform
          (AppCall.code .sample)
          (twoApprovals ([0, 0, 1, 0, 1] ++ List.replicate 13 0 ++ List.replicate 14 1))).threads,
        Succeeded row th.rest := by
  rcases requested_row with ⟨row, hrow, hid, hpending⟩
  refine ⟨row, hrow, fun th hth => ?_⟩
  have hended : ((Core.Config.start (appRun .sample (requestSchedule .granting)).world).exec perform
      (AppCall.code .sample) (twoApprovals ([0, 0, 1, 0, 1] ++ List.replicate 13 0 ++
        List.replicate 14 1))).threads.all (fun th => th.rest.next = none) = true := by
    decide +kernel
  have hrunning := List.all_eq_true.mp hended th hth
  rcases approving_succeeds .sample (requestSchedule .granting) row hrow
    (by rw [hpending]; exact ApprovalStatus.noConfusion)
    (twoApprovals ([0, 0, 1, 0, 1] ++ List.replicate 13 0 ++ List.replicate 14 1))
    (fun call hcall => ⟨sampleApprover, none, by rw [hid]; exact twoApprovals_calls _ call hcall,
      rfl, rfl⟩)
    (twoApprovals_envs _) (by rw [hid]; decide +kernel) th hth with hdone | ⟨hnone, _⟩
  · exact hdone
  · -- Neither is still running.
    rcases hrest : th.rest with resp | e | ⟨c, k⟩
    · rw [hrest] at hnone
      exact absurd hnone (by simp [Core.Prog.outcome])
    · rw [hrest] at hnone
      exact absurd hnone (by simp [Core.Prog.outcome])
    · rw [hrest] at hrunning
      exact absurd hrunning (by simp [Core.Prog.next])

/-- What a program that has ended with an HTTP error answered with. -/
def errorStatus {α : Type} : App α → Option Nat
  | .fail (.httpException status _) => some status
  | _ => none

/-- Both read the approval pending, the first decides and executes it, and only
    then the second decides: it is answered with a conflict. -/
theorem late_decision_conflicts :
    ¬ ∀ (d : Deployment) (before : List (Core.Action AppCall Env)) (row : ApprovalRow),
      row ∈ (appRun d before).world.approvals → row.status ≠ .denied →
      ∀ sched : List (Core.Action AppCall Env),
      (∀ call, Core.Action.spawn call ∈ sched → ∃ operator note,
        call = .approve operator row.approvalId note ∧
          operator.scopes.contains "asante:approve" = true ∧ validNote note = true) →
      (∀ i env, Core.Action.advance i env ∈ sched → env.Succeeds) →
      ∀ th ∈ ((Core.Config.start (appRun d before).world).exec perform (AppCall.code d)
        sched).threads, errorStatus th.rest ≠ some 409 := by
  intro h
  rcases requested_row with ⟨row, hrow, hid, hpending⟩
  have hconflict : ((Core.Config.start (appRun .sample (requestSchedule .granting)).world).exec
      perform (AppCall.code .sample) (twoApprovals ([0, 1] ++ List.replicate 15 0 ++
        [1]))).threads.any (fun th => errorStatus th.rest = some 409) = true := by
    decide +kernel
  rcases List.any_eq_true.mp hconflict with ⟨th, hth, hstatus⟩
  exact h .sample (requestSchedule .granting) row hrow
    (by rw [hpending]; exact ApprovalStatus.noConfusion) _
    (fun call hcall => ⟨sampleApprover, none, by rw [hid]; exact twoApprovals_calls _ call hcall,
      rfl, rfl⟩)
    (twoApprovals_envs _) th hth (of_decide_eq_true hstatus)

end Asante
