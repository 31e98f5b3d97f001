import Asante.Model.Server

/-!
# Entry Points

The HTTP endpoints and the MCP tools, as one type of calls with one program
each. A run of the application is a pool of such calls over one world.

The caller of an HTTP endpoint is the human its access token was validated
for. What is left out of the endpoints is telemetry and the rendering of a
record as JSON: a response holds the record itself. The agents of a run are not
modelled. They are one step, since what they do to the world they do through
MCP calls, which are calls of their own; a run of the application may take any
of them while the agents of a task are running, before, or after.

## Main definitions

* `Response`: What an entry point answers.
* `runAgent`, `devIssueCredit`, `devGetReservation`: The agent run and the
  direct endpoints.
* `approveCreditRequest`, `denyCreditRequest`: The human decisions.
* `AppCall`, `AppCall.code`: The calls.
* `ToolCall`, `ToolCall.code`: Calls of the secured tools themselves, with any
  task, chain and record.
* `Deployment.sample`, `sampleTask`, `Env.granting`, `Env.refusing`: A
  deployment, a task and two outsides to evaluate calls in.
-/

namespace Asante

/-- What an entry point answers. -/
inductive Response where
  | body (fields : PyDict)
  | approvalRecord (record : ApprovalRecord)
  | approvalExecution (approval : ApprovalRecord) (execution : PyDict)

/-- A request body the framework has validated. -/
def validated {α : Type} (valid : Bool) (endpoint : App α) : App α :=
  if valid then endpoint else throw (.httpException 422 "request validation failed")

/-- The task an endpoint opens for the caller. -/
def openTask (operator : AuthenticatedHuman) (purpose : String) (lifetime : Int) :
    App TaskContext := do
  let taskId : String ← ask .uuid4
  let now : Int ← ask .now
  return { taskId := taskId
           initiatedBy := operator.principalId
           purpose := purpose
           expiresAt := now + lifetime }

/-- The context of an agent run: its task with one chain for each specialist
    capability, issued in the order of the fields. -/
def openRun (d : Deployment) (operator : AuthenticatedHuman) : App AsanteRunContext := do
  let task ← openTask operator "Asante property operations" (minutes 30)
  let reservations ← issueReservationsDelegation d task
  let propertyOperations ← issuePropertyOperationsDelegation d task
  let guestSupportMessage ← issueGuestSupportMessageDelegation d task
  let serviceRecovery ← issueServiceRecoveryDelegation d task defaultSupervisorCreditLimit
    defaultServiceRecoveryCreditLimit
  let serviceRecoveryCreditRequest ← issueServiceRecoveryCreditRequestDelegation d task
    defaultServiceRecoveryApprovalRequestLimit
  return { task := task
           reservationsDelegation := reservations
           propertyOperationsDelegation := propertyOperations
           guestSupportMessageDelegation := guestSupportMessage
           serviceRecoveryDelegation := serviceRecovery
           serviceRecoveryCreditRequestDelegation := serviceRecoveryCreditRequest }

/-- `run_agent`. The `finally` clause unregisters the task whether the agents
    return or raise. -/
def runAgent (d : Deployment) (operator : AuthenticatedHuman) (message : String) :
    App Response :=
  validated (message ≠ "") do
    let context ← openRun d operator
    orRaise (ask (.registerTask context))
    let result : Except Exc String ← ask (.runAgents message context)
    let _ : Unit ← ask (.unregisterTask context.task.taskId)
    let output ← Core.Prog.ofExcept result
    return .body [("task_id", .str context.task.taskId),
      ("initiated_by", .str operator.principalId), ("output", .str output)]

/-- `{"task_id": ..., "initiated_by": ..., **result}`. -/
def taskResponse (task : TaskContext) (result : PyDict) : Response :=
  .body (PyDict.merge
    [("task_id", .str task.taskId), ("initiated_by", .str task.initiatedBy)] result)

/-- `dev_issue_credit`. -/
def devIssueCredit (d : Deployment) (operator : AuthenticatedHuman) (reservationId : String)
    (amount : ℚ) (reason : String) : App Response :=
  validated (reservationId ≠ "" && 0 < amount && reason ≠ "") do
    let task ← openTask operator "direct guest credit test" (minutes 30)
    let delegationChain ← issueServiceRecoveryDelegation d task defaultSupervisorCreditLimit
      defaultServiceRecoveryCreditLimit
    let result ← issueCredit d d.retryPolicy reservationId amount reason task delegationChain
    return taskResponse task result

/-- `dev_get_reservation`. -/
def devGetReservation (d : Deployment) (operator : AuthenticatedHuman) (reservationId : String) :
    App Response := do
  let task ← openTask operator "direct reservation read test" (minutes 30)
  let delegationChain ← issueReservationsDelegation d task
  let result ← getReservation d reservationId task delegationChain
  return taskResponse task result

/-- `_require_approval_scope`. -/
def requireApprovalScope (operator : AuthenticatedHuman) : Except Exc Unit :=
  if operator.scopes.contains "asante:approve" then .ok ()
  else .error (.httpException 403 "asante:approve scope required for human approval decisions")

/-- `except LookupError ... 404 ... except ApprovalStateError ... 409`. -/
def approvalErrors {α : Type} (decision : App α) : App α :=
  tryCatch decision fun e =>
    if e.isLookup then throw (.httpException 404 e.text)
    else if e.isApprovalState then throw (.httpException 409 e.text)
    else throw e

/-- `ApprovalDecisionRequest`: a note has at most 1000 characters. -/
def validNote (note : Option String) : Bool :=
  match note with
  | some text => text.length ≤ 1000
  | none => true

/-- The execution a repeated approval reports. -/
def repeatedExecution (record : ApprovalRecord) : PyDict :=
  (record.executionResult.getD []).merge [("deduplicated", .bool true)]

/-- The guarded part of `approve_credit_request`: the record to execute, or the
    record of an approval that was executed before. -/
def decideApproved (operator : AuthenticatedHuman) (approvalId : String) (note : Option String) :
    App (ApprovalRecord ⊕ ApprovalRecord) :=
  approvalErrors do
    let record ← orRaise (ask (.requireRecord approvalId))
    if record.status = .executed then return .inl record
    else
      let decided ← approvalsDecide approvalId true operator.principalId note
      return .inr decided

/-- `approve_credit_request`. -/
def approveCreditRequest (d : Deployment) (operator : AuthenticatedHuman) (approvalId : String)
    (note : Option String) : App Response :=
  validated (validNote note) do
    let _ : Unit ← Core.Prog.ofExcept (requireApprovalScope operator)
    match ← decideApproved operator approvalId note with
    | .inl record => return .approvalExecution record (repeatedExecution record)
    | .inr record => do
      let task ← openTask operator s!"execute approved guest credit {approvalId}" (minutes 10)
      let delegationChain ← issueApprovalExecutorDelegation d task 100
      let result ← executeApproved d record task delegationChain
      let refreshed ← orRaise (ask (.requireRecord approvalId))
      return .approvalExecution refreshed result

/-- `deny_credit_request`. -/
def denyCreditRequest (operator : AuthenticatedHuman) (approvalId : String)
    (note : Option String) : App Response :=
  validated (validNote note) do
    let _ : Unit ← Core.Prog.ofExcept (requireApprovalScope operator)
    let record ← approvalErrors (approvalsDecide approvalId false operator.principalId note)
    return .approvalRecord record

/-- A call of an entry point. -/
inductive AppCall where
  | runAgent (operator : AuthenticatedHuman) (message : String)
  | mcp (tool : McpTool) (metadata : PyDict)
  | devIssueCredit (operator : AuthenticatedHuman) (reservationId : String) (amount : ℚ)
      (reason : String)
  | devGetReservation (operator : AuthenticatedHuman) (reservationId : String)
  | approve (operator : AuthenticatedHuman) (approvalId : String) (note : Option String)
  | deny (operator : AuthenticatedHuman) (approvalId : String) (note : Option String)

/-- The program of a call. -/
def AppCall.code (d : Deployment) : AppCall → App Response
  | runAgent operator message => Asante.runAgent d operator message
  | mcp tool metadata => do
    let result ← tool.call d metadata
    return .body result
  | devIssueCredit operator reservationId amount reason =>
    Asante.devIssueCredit d operator reservationId amount reason
  | devGetReservation operator reservationId =>
    Asante.devGetReservation d operator reservationId
  | approve operator approvalId note => approveCreditRequest d operator approvalId note
  | deny operator approvalId note => denyCreditRequest operator approvalId note

/-- A call of a secured tool, with the task and the chain it is given. -/
inductive ToolCall where
  | issueCredit (retryPolicy : RetryPolicy) (reservationId : String) (amount : ℚ)
      (reason : String) (task : TaskContext) (chain : List DelegationGrant)
  | getReservation (reservationId : String) (task : TaskContext) (chain : List DelegationGrant)
  | createMaintenanceRequest (reservationId category urgency description : String)
      (task : TaskContext) (chain : List DelegationGrant)
  | sendGuestMessage (reservationId message : String) (task : TaskContext)
      (chain : List DelegationGrant)
  | requestGuestCredit (reservationId : String) (amount : ℚ) (reason : String)
      (task : TaskContext) (chain : List DelegationGrant)
  | executeApproved (approval : ApprovalRecord) (task : TaskContext)
      (chain : List DelegationGrant)

/-- The program of a tool call. -/
def ToolCall.code (d : Deployment) : ToolCall → App PyDict
  | issueCredit retryPolicy reservationId amount reason task chain =>
    Asante.issueCredit d retryPolicy reservationId amount reason task chain
  | getReservation reservationId task chain =>
    Asante.getReservation d reservationId task chain
  | createMaintenanceRequest reservationId category urgency description task chain =>
    Asante.createMaintenanceRequest d reservationId category urgency description task chain
  | sendGuestMessage reservationId message task chain =>
    Asante.sendGuestMessage d reservationId message task chain
  | requestGuestCredit reservationId amount reason task chain =>
    Asante.requestGuestCredit d reservationId amount reason task chain
  | executeApproved approval task chain => Asante.executeApproved d approval task chain

/-- The deployment `main` builds when nothing is configured. -/
def Deployment.defaults (sha256 : String → String) : Deployment :=
  { trustDomain := "asante.jamiiz.io"
    sha256 := sha256
    digestError := fun _ => none
    retryPolicy :=
      { maxAttempts := 2
        initialBackoffSeconds := 1 / 20
        maxBackoffSeconds := 1 / 5
        attempts_pos := by omega
        initial_nonneg := by decide +kernel
        max_nonneg := by decide +kernel }
    cacheTtlSeconds := 300
    ttl_pos := by decide +kernel }

/-- Digests of the texts the worked calls hash. -/
def knownDigests : List (String × String) :=
  [ ("reservation-read-v1\nreservation.read\nreservation:R-3001",
      "73e69487b8bbbb4dabd918715b6d0e5bbd0101646f1d1658213cf1adeba8b089"),
    ("guest.credit.issue\n7f\nR-3001\n12.50",
      "71f7376fe1aefec9a61240f8da9b96c558aa4f0b7f32cada475bc8a93d81cd90"),
    ("guest.credit.issue\n7f\nR-3001\n-0.00",
      "dc85c5fbc27576dae010ea9f6685f04b2c8ce551fbfa1b0748d6bc03dae9d65a"),
    ("guest.credit.issue\n7f\nR-3001\n0.00",
      "88e11115e17b96cc8069b95a229977c2515734137b2072bddb06d1ad396595f2"),
    ("guest.message.send\n7f\nR-3001\nPool closed",
      "97df927330741c11de2bb6c3aea4067772b7d45d2b79a36cfca02970cf1a2206"),
    ("guest.message.send\n7f\nR-3001\nPool closed\nSorry",
      "b93bff8db8e70cf6a3c2d1f35c8fa70045f7a142180a7bbbfe61c636a7c5c354") ]

/-- The hash on the known texts, and an injective stand-in on all others. -/
def sampleSha256 (text : String) : String :=
  (knownDigests.lookup text).getD ("x" ++ text)

theorem knownDigests_mem {text digest : String} (h : knownDigests.lookup text = some digest) :
    (text, digest) ∈ knownDigests := by
  rcases List.lookup_eq_some_iff.mp h with ⟨l, r, hl, _⟩
  rw [hl]
  exact List.mem_append_right l List.mem_cons_self

theorem sampleSha256_injective : Function.Injective sampleSha256 := by
  have hdistinct : ∀ u ∈ knownDigests, ∀ v ∈ knownDigests, u.2 = v.2 → u.1 = v.1 := by
    decide +kernel
  have hhex : ∀ u ∈ knownDigests, u.2.toList.head? ≠ some 'x' := by decide +kernel
  -- A digest is hexadecimal, so it is none of the stand-ins.
  have hstand : ∀ (digest text : String), (∃ known, (known, digest) ∈ knownDigests) →
      digest ≠ "x" ++ text := by
    intro digest text ⟨known, hknown⟩ heq
    refine hhex _ hknown ?_
    rw [heq, String.toList_append]
    rfl
  intro a b hab
  unfold sampleSha256 at hab
  rcases ha : knownDigests.lookup a with _ | da
  · rcases hb : knownDigests.lookup b with _ | db
    · rw [ha, hb, Option.getD_none, Option.getD_none] at hab
      exact (String.append_right_inj "x").mp hab
    · rw [ha, hb, Option.getD_none, Option.getD_some] at hab
      exact absurd hab.symm (hstand db a ⟨b, knownDigests_mem hb⟩)
  · rcases hb : knownDigests.lookup b with _ | db
    · rw [ha, hb, Option.getD_none, Option.getD_some] at hab
      exact absurd hab (hstand da b ⟨a, knownDigests_mem ha⟩)
    · rw [ha, hb, Option.getD_some, Option.getD_some] at hab
      exact hdistinct _ (knownDigests_mem ha) _ (knownDigests_mem hb) hab

/-- The default deployment over the sample hash. -/
def Deployment.sample : Deployment :=
  .defaults sampleSha256

/-- A task to evaluate calls in. -/
def sampleTask : TaskContext :=
  { taskId := "7f"
    initiatedBy := "oauth:https://dev.asante.local#claire"
    purpose := "Asante property operations"
    expiresAt := minutes 30 }

/-- An outside in which Ruhusa answers by the effects given for the two checks
    and nothing fails. -/
def Env.answering (admitted revalidated : Request → DecisionEffect) : Env :=
  { now := 0
    nowText := "2026-01-01T00:00:00+00:00"
    monotonic := 0
    uuid := "7f"
    create := fun _ => none
    begin := fun req =>
      { allowed := admitted req = .allow
        authorization := { effect := admitted req, policyId := none, reason := "" }
        permit := some ⟨0⟩ }
    revalidate := fun req _ =>
      { allowed := revalidated req = .allow
        authorization := { effect := revalidated req, policyId := none, reason := "" } }
    complete := fun _ => true
    fault := .none
    agentRun := .ok "" }

/-- Ruhusa allows every request. -/
def Env.granting : Env :=
  .answering (fun _ => .allow) (fun _ => .allow)

/-- Ruhusa denies every request. -/
def Env.refusing : Env :=
  .answering (fun _ => .deny) (fun _ => .deny)

end Asante
