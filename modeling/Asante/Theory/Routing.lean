import Asante.Theory.ApprovalStore
import Asante.Theory.CreditSession
import Asante.Theory.Issuance

/-!
# Credit Routing

Which credits are issued at once, which are requested from a human, and which
approved ones are executed, by amount.

Three things decide: the limits of the presented chain, the conditions of the
policy rules, and the order of the rules. A chain has one limit in effect, the
smallest of its grants, and the issuing functions see to it that this is the
specialist's. The two rules about direct credits overlap below 25, and the
allowing one is listed first. So the amounts fall into two bands that meet at 25
and end at 100, each cut off at the limit of its chain.

What Ruhusa decides is assumed here, as `Env.Routes`: it denies a request with an
argument over a limit of its chain, and otherwise follows the first matching rule.
An allowed credit is issued if its key can be derived, and raises otherwise.

## Main definitions

* `routedEffect`, `Env.Routes`: The decision, and an outside that decides so.
* `ChainLimits`: The limit a chain has in effect.
* `IssuedBy`: A chain that an issuing call returned.
* `AnswersWith`, `RecordsRequest`, `ExecutesRow`: What a run did.

## Theorems

* `chain_credit`, `chain_request`, `chain_executor`: The limits of issued chains.
* `credit_effect`, `request_effect`, `approved_effect`: The bands.
* `credit_routing`: What each operation does with an amount.
-/

namespace Asante

open Core.Prog

/-- What Ruhusa decides about a request: it denies when a numeric argument is over
    a limit in the chain, and otherwise the first matching rule decides, or none
    matches and it denies. -/
def routedEffect (trustDomain : String) (req : Request) : DecisionEffect :=
  if req.delegationChain.all (·.scope.withinLimits req) then
    ((firstMatch (policyRules trustDomain) req).map (·.effect)).getD .deny
  else .deny

/-- Ruhusa makes the request and decides so at both checks, an admission comes with
    a permit that is completed in the end, and no provider raises. -/
structure Env.Routes (env : Env) (trustDomain : String) : Prop where
  fault : env.fault = .none
  create : ∀ req, env.create req = none
  begin : ∀ req, (env.begin req).allowed = decide (routedEffect trustDomain req = .allow) ∧
    (env.begin req).authorization.effect = routedEffect trustDomain req
  permit : ∀ req, (env.begin req).allowed = true → (env.begin req).permit ≠ none
  revalidate : ∀ req permit,
    (env.revalidate req permit).allowed = decide (routedEffect trustDomain req = .allow)
  complete : ∀ permit, env.complete permit = true

/-- The limit the chain has in effect for the amount of a request. -/
def ChainLimits (chain : List DelegationGrant) (limit : ℚ) : Prop :=
  ∀ req amount, amountArgument req = some amount →
    (chain.all (·.scope.withinLimits req) = true ↔ amount ≤ limit)

/-- The chain was issued by the call, in some world. -/
def IssuedBy (d : Deployment) (call : IssueCall) (chain : List DelegationGrant) : Prop :=
  ∃ (envs : Nat → Env) (w : World), (∀ n, (envs n).fault = .none) ∧
    (run perform (call.code d) envs w).outcome = .ok chain

section Chains

variable {d : Deployment}

theorem limitScope_withinLimits (action : String) (limit : ℚ) {req : Request} {amount : ℚ}
    (h : amountArgument req = some amount) :
    (limitScope action limit).withinLimits req = decide (amount ≤ limit) := by
  unfold amountArgument at h
  simp only [limitScope, Scope.withinLimits, List.all_cons, List.all_nil, h, Bool.and_true]

/-- A chain of two grants with a limit each has the smaller one in effect. -/
theorem chainLimits_pair {root child : DelegationGrant} {action : String}
    {rootLimit childLimit : ℚ} (hle : childLimit ≤ rootLimit)
    (hroot : root.scope = limitScope action rootLimit)
    (hchild : child.scope = limitScope action childLimit) :
    ChainLimits [root, child] childLimit := by
  intro req amount hamount
  simp only [List.all_cons, List.all_nil, Bool.and_true, hroot, hchild,
    limitScope_withinLimits action _ hamount, Bool.and_eq_true, decide_eq_true_eq]
  exact ⟨fun h => h.2, fun h => ⟨h.trans hle, h⟩⟩

/-- A chain issued with a limit for each grant has the smaller one in effect. -/
theorem issueChain_limits {task : TaskContext} {workload : Workload} {action : String}
    {rootLimit childLimit : ℚ} {chain : List DelegationGrant} {envs : Nat → Env} {w : World}
    (henvs : ∀ n, (envs n).fault = .none) (hle : childLimit ≤ rootLimit)
    (hout : (run perform (issueChain d task workload (limitScope action rootLimit)
      (limitScope action childLimit)) envs w).outcome = .ok chain) :
    ChainLimits chain childLimit := by
  rcases run_issueChain d w henvs task workload (limitScope action rootLimit)
    (limitScope action childLimit) with ⟨root, child, hchain, -, hroot, hchild, -⟩
  rw [hchain] at hout
  rw [← Except.ok.inj hout]
  exact chainLimits_pair hle hroot hchild

/-- The limit in effect for an automatic credit is the specialist's. -/
theorem chain_credit {task : TaskContext} {supervisorLimit limit : ℚ}
    {chain : List DelegationGrant}
    (h : IssuedBy d (.serviceRecovery task supervisorLimit limit) chain) :
    ChainLimits chain limit := by
  rcases h with ⟨envs, w, henvs, hout⟩
  dsimp only [IssueCall.code] at hout
  rcases serviceRecovery_cases d task supervisorLimit limit with
    ⟨e, hraised⟩ | ⟨-, hle, hissued⟩
  · rw [hraised] at hout
    exact absurd hout (by simp only [run, reduceCtorEq, not_false_eq_true])
  · rw [hissued] at hout
    exact issueChain_limits henvs hle hout

theorem chain_request {task : TaskContext} {limit : ℚ} {chain : List DelegationGrant}
    (h : IssuedBy d (.serviceRecoveryCreditRequest task limit) chain) :
    ChainLimits chain limit := by
  rcases h with ⟨envs, w, henvs, hout⟩
  dsimp only [IssueCall.code] at hout
  rcases serviceRecoveryRequest_cases d task limit with ⟨e, hraised⟩ | ⟨-, hissued⟩
  · rw [hraised] at hout
    exact absurd hout (by simp only [run, reduceCtorEq, not_false_eq_true])
  · rw [hissued] at hout
    exact issueChain_limits henvs le_rfl hout

theorem chain_executor {task : TaskContext} {limit : ℚ} {chain : List DelegationGrant}
    (h : IssuedBy d (.approvalExecutor task limit) chain) : ChainLimits chain limit := by
  rcases h with ⟨envs, w, henvs, hout⟩
  dsimp only [IssueCall.code] at hout
  rcases run_issueExecutor d w henvs task limit with
    ⟨⟨e, hraised⟩, -⟩ | ⟨grant, hissued, -, hscope, -⟩
  · rw [hraised] at hout
    exact absurd hout (by simp only [reduceCtorEq, not_false_eq_true])
  · rw [hissued] at hout
    rw [← Except.ok.inj hout]
    intro req amount hamount
    simp only [List.all_cons, List.all_nil, Bool.and_true, hscope,
      limitScope_withinLimits approvedCreditAction _ hamount, decide_eq_true_eq]

end Chains

section Effects

/-- The first rule decides if it applies, and else the rules after it. -/
theorem firstMatch_cons (rule : PolicyRule) (rules : List PolicyRule) (req : Request) :
    (firstMatch (rule :: rules) req).map (·.effect) =
      if rule.applies req then some rule.effect else (firstMatch rules req).map (·.effect) := by
  unfold firstMatch
  rw [List.find?_cons]
  cases rule.applies req with
  | true => rfl
  | false => rfl

theorem firstMatch_nil (req : Request) : (firstMatch [] req).map (·.effect) = none := rfl

theorem resource_startsWith (reservationId : String) :
    startsWith (reservationResource reservationId) "reservation:" = true := by
  unfold startsWith reservationResource
  rw [String.toList_append]
  exact List.isPrefixOf_iff_prefix.mpr (List.prefix_append _ _)

/-- A request within the limit of its chain is decided by the rules, and one over
    it is denied. -/
theorem routedEffect_limit {trustDomain : String} {req : Request} {amount limit : ℚ}
    (hchain : ChainLimits req.delegationChain limit) (hamount : amountArgument req = some amount) :
    routedEffect trustDomain req = if amount ≤ limit then
      ((firstMatch (policyRules trustDomain) req).map (·.effect)).getD .deny else .deny := by
  unfold routedEffect
  by_cases hlimit : amount ≤ limit
  · rw [if_pos ((hchain req amount hamount).mpr hlimit), if_pos hlimit]
  · rw [if_neg fun h => hlimit ((hchain req amount hamount).mp h), if_neg hlimit]

variable (d : Deployment) (reservationId reason : String) (amount : ℚ) (task : TaskContext)
  {chain : List DelegationGrant} {limit : ℚ} (now : Int)

/-- A direct credit is allowed up to 25 and needs approval from there up to 100,
    the limit of the chain permitting. -/
theorem credit_effect (hchain : ChainLimits chain limit) :
    routedEffect d.trustDomain (creditRequest d reservationId amount reason task chain now) =
      if 0 < amount ∧ amount ≤ min limit 25 then .allow
      else if 25 < amount ∧ amount ≤ min limit 100 then .requireApproval else .deny := by
  have hamount : amountArgument (creditRequest d reservationId amount reason task chain now) =
      some amount := rfl
  have hresource := resource_startsWith reservationId
  rw [routedEffect_limit hchain hamount]
  simp only [policyRules, firstMatch_cons, firstMatch_nil, PolicyRule.applies, creditAtMost,
    hamount]
  simp [creditRequest, hresource]
  -- Above 25 an amount is positive, and up to 25 the first of the two rules applies.
  grind

/-- A credit request is allowed above 25 and up to 100, the limit of the chain
    permitting. -/
theorem request_effect (hchain : ChainLimits chain limit) :
    routedEffect d.trustDomain (operationRequest d "guest.credit.request" .serviceRecovery
        reservationId [("amount", .num amount), ("reason", .str reason)] task chain now) =
      if 25 < amount ∧ amount ≤ min limit 100 then .allow else .deny := by
  have hamount : amountArgument (operationRequest d "guest.credit.request" .serviceRecovery
      reservationId [("amount", .num amount), ("reason", .str reason)] task chain now) =
      some amount := rfl
  have hresource := resource_startsWith reservationId
  rw [routedEffect_limit hchain hamount]
  simp only [policyRules, firstMatch_cons, firstMatch_nil, PolicyRule.applies,
    creditRequestBetween, hamount]
  simp [operationRequest, hresource]
  grind

/-- An approved credit with an identifier is allowed up to 100, the limit of the
    chain permitting. -/
theorem approved_effect {approval : ApprovalRecord} (hid : approval.approvalId ≠ "")
    (hchain : ChainLimits chain limit) :
    routedEffect d.trustDomain (approvedRequest d approval task chain now) =
      if 0 < approval.amount ∧ approval.amount ≤ min limit 100 then .allow else .deny := by
  have hamount : amountArgument (approvedRequest d approval task chain now) =
      some approval.amount := rfl
  have hverified : (approvedRequest d approval task chain now).arguments.get?
      "approval_verified" = some (.bool true) := rfl
  have hnamed : (approvedRequest d approval task chain now).arguments.get?
      "approval_id" = some (.str approval.approvalId) := rfl
  have hresource := resource_startsWith approval.reservationId
  rw [routedEffect_limit hchain hamount]
  simp only [policyRules, firstMatch_cons, firstMatch_nil, PolicyRule.applies, creditAtMost,
    verifiedApprovedCredit, hamount, hverified, hnamed]
  simp [approvedRequest, hresource, hid]
  grind

end Effects

section Runs

variable {d : Deployment} {envs : Nat → Env} (w : World)

/-- An operation is admitted when its request is to be allowed, and is answered
    with the effect otherwise. -/
theorem refusal_routed (henvs : ∀ n, (envs n).Routes d.trustDomain) (submit : Int → Request) :
    (routedEffect d.trustDomain (submit (envs 0).now) = .allow → refusal submit envs = none) ∧
    (routedEffect d.trustDomain (submit (envs 0).now) ≠ .allow → ∃ reason,
      refusal submit envs =
        some (.ok (blocked (routedEffect d.trustDomain (submit (envs 0).now)).value reason))) := by
  rcases (henvs 1).begin (submit (envs 0).now) with ⟨hallowed, heffect⟩
  have hadmission := Env.admission_ok.mpr ⟨(henvs 1).create (submit (envs 0).now), rfl⟩
  constructor
  · intro hallow
    have hbegin : ((envs 1).begin (submit (envs 0).now)).allowed = true := by
      rw [hallowed]
      exact decide_eq_true hallow
    rcases hsome : ((envs 1).begin (submit (envs 0).now)).permit with _ | permit
    · exact absurd hsome ((henvs 1).permit _ hbegin)
    · have hlive : ((envs 2).revalidate (submit (envs 0).now) permit).allowed = true := by
        rw [(henvs 2).revalidate]
        exact decide_eq_true hallow
      simp only [refusal, hadmission, hbegin, hsome, hlive, if_true]
  · intro hdenied
    have hbegin : ((envs 1).begin (submit (envs 0).now)).allowed = false := by
      rw [hallowed]
      exact decide_eq_false hdenied
    refine ⟨((envs 1).begin (submit (envs 0).now)).authorization.reason, ?_⟩
    simp only [refusal, hadmission, hbegin, heffect, Bool.false_eq_true, if_false]

/-- An admitted request for a credit answers with a row of the store that asks for
    it. -/
theorem run_createRequest (hfault : ∀ n, (envs n).fault = .none) (reservationId : String)
    (amount : ℚ) (reason : String) (task : TaskContext)
    (hfresh : ∀ row ∈ w.approvals, row.approvalId ≠ "approval:" ++ (envs 1).uuid) :
    ∃ resp w' row, (run perform (createRequest reservationId amount reason task) envs w).outcome =
        .ok resp ∧
      (run perform (createRequest reservationId amount reason task) envs w).world = w' ∧
      (run perform (createRequest reservationId amount reason task) envs w).steps.length = 2 ∧
      row ∈ w'.approvals ∧ row.isCredit task.taskId reservationId amount = true ∧
      resp.get? "approval_id" = some (.str row.approvalId) := by
  unfold createRequest orRaise
  rw [ask_bind, call_bind]
  dsimp only [run, perform]
  rw [hfault]
  dsimp only [Fault.apply, Core.Prog.ofExcept]
  rw [done_bind, ask_bind, call_bind]
  dsimp only [run, perform]
  rw [hfault]
  dsimp only [Fault.apply]
  generalize hr : ({ taskId := task.taskId
                     requestedBy := task.initiatedBy
                     reservationId := reservationId
                     amount := amount
                     reason := reason
                     policyId := some "service-recovery-credit-request" } : CreditRequest) = r
  have hcredit : r.taskId = task.taskId ∧ r.reservationId = reservationId ∧ r.amount = amount := by
    rw [← hr]
    exact ⟨rfl, rfl, rfl⟩
  -- The row is there already, is inserted, or its identifier is taken, which it is not.
  rcases createCreditRequest_cases (envs 1).nowText (envs 1).uuid r w.approvals with
    ⟨row, hsel, hans⟩ | ⟨-, -, hans⟩ | ⟨⟨row, hrow, hsame⟩, -⟩
  · rcases selectCredit_some hsel with ⟨hmem, hrow⟩
    rw [hcredit.1, hcredit.2.1, hcredit.2.2] at hrow
    simp only [Nat.zero_add, hans, done_bind]
    exact ⟨_, _, row, rfl, rfl, rfl, hmem, hrow, rfl⟩
  · simp only [Nat.zero_add, hans, done_bind]
    refine ⟨_, _, newRow (envs 1).nowText (envs 1).uuid r, rfl, rfl, rfl,
      List.mem_append_right _ (List.mem_singleton.mpr rfl), ?_, rfl⟩
    exact (isCredit_iff rfl _ _ _).mpr hcredit
  · exact absurd hsame (hfresh row hrow)

/-- Marking an approved row executed answers and leaves it executed. -/
theorem run_markExecuted (hfault : ∀ n, (envs n).fault = .none) {approvalId : String}
    {result : PyDict} (hresult : dictSerialisable result = true) {row : ApprovalRow}
    (hsel : selectById w.approvals approvalId = some row) (happroved : row.status = .approved) :
    (∃ record, (run perform (approvalsMarkExecuted approvalId result) envs w).outcome =
        .ok record) ∧
      ∃ executed, selectById (run perform (approvalsMarkExecuted approvalId result) envs
        w).world.approvals approvalId = some executed ∧ executed.status = .executed := by
  have hanswer : markExecutedLocked (envs 0).nowText approvalId result w.approvals =
      (.ok none, updateExecuted w.approvals approvalId (envs 0).nowText ⟨result⟩) := by
    rcases markExecutedLocked_cases (envs 0).nowText approvalId result w.approvals with
      ⟨e, hno, -⟩ | ⟨other, hother, hexecuted, -⟩ | ⟨-, -, -, hans⟩
    · have hfalse := (hno row hsel).2 happroved
      rw [hresult] at hfalse
      exact Bool.noConfusion hfalse
    · rw [← Option.some.inj (hsel.symm.trans hother), happroved] at hexecuted
      exact absurd hexecuted (by decide)
    · exact hans
  have hupdated := selectById_updateRow w.approvals approvalId
    (fun row => { row with
      status := .executed
      executedAt := some (envs 0).nowText
      executionResultJson := some ⟨result⟩ }) fun _ => rfl
  rw [← updateExecuted_eq, hsel, Option.map_some] at hupdated
  unfold approvalsMarkExecuted orRaise
  rw [ask_bind, call_bind]
  dsimp only [run, perform]
  rw [hfault, hanswer]
  dsimp only [Fault.apply, Core.Prog.ofExcept]
  rw [done_bind, ask_bind]
  dsimp only [run, perform]
  rw [hfault]
  dsimp only [Fault.apply]
  -- The row is read again, and is there.
  rw [requireRecord_some approvalId _ hupdated]
  exact ⟨⟨_, rfl⟩, _, hupdated, rfl⟩

variable (d)

/-- The executor, admitted with an approved record of the store, answers that the
    credit was issued and leaves the row executed. -/
theorem run_executeApproved (henvs : ∀ n, (envs n).Routes d.trustDomain) {row : ApprovalRow}
    (hsel : selectById w.approvals row.approvalId = some row) (happroved : row.status = .approved)
    (task : TaskContext) (chain : List DelegationGrant)
    (h : refusal (approvedRequest d (fromRow row) task chain) envs = none) :
    ∃ resp executed, (run perform (executeApproved d (fromRow row) task chain) envs w).outcome =
        .ok resp ∧ resp.get? "status" = some (.str "issued") ∧
      selectById (run perform (executeApproved d (fromRow row) task chain) envs
        w).world.approvals row.approvalId = some executed ∧ executed.status = .executed := by
  have hrecord : (fromRow row).status = .approved := happroved
  have hnot : (fromRow row).status ≠ .executed := by
    rw [hrecord]
    decide
  unfold executeApproved
  rw [if_neg hnot, if_pos hrecord]
  rcases run_opened _ _ w h with ⟨permit, -, hout, hworld⟩
  rw [hout, hworld]
  generalize hlive : (envs 2).revalidate (approvedRequest d (fromRow row) task chain
    (envs 0).now) permit = live
  generalize hcredit : (⟨(fromRow row).reservationId, (fromRow row).amount,
    (fromRow row).reason⟩ : Credit) = credit
  generalize hwriter : Writer.approvedExecutor (fromRow row).approvalId = writer
  generalize hkey : approvedCreditKey (fromRow row).approvalId = key
  rcases run_ledgerIssue w (fun n => envs (n + 3)) (henvs 3).fault writer credit (some key) with
    ⟨steps, hfirst, hlength⟩
  let finish := fun providerResult : PyDict =>
    let result := providerResult.merge [("approval_id", .str (fromRow row).approvalId),
      ("effect", .str "allow"), ("policy_id", optStr live.authorization.policyId)]
    approvalsMarkExecuted (fromRow row).approvalId result >>= fun _ => (done result : App PyDict)
  rcases run_handled w finish permit
    "approved credit executed but Ruhusa lifecycle did not complete"
    (congrArg (·.outcome) hfirst) (congrArg (·.world) hfirst)
    ((congrArg (·.steps.length) hfirst).trans hlength) with ⟨hcompleted, -⟩
  rcases hcompleted ((henvs 4).complete permit) with ⟨hlast, hlastWorld⟩
  -- The provider's answer and what is merged into it have a JSON form.
  rcases run_markExecuted (w.issue writer credit (some key))
    (fun n => (henvs (n + 1 + 1 + 3)).fault)
    (executedResult_serialisable (w.ledger.record (some key) credit).1.1
      (w.ledger.record (some key) credit).1.2 row.approvalId live.authorization.policyId)
    hsel happroved with ⟨⟨record, hrecord⟩, executed, hexecuted, hstatus⟩
  rcases run_bind_ok perform _ (fun _ => (done (executedResult
    (w.ledger.record (some key) credit).1.1 (w.ledger.record (some key) credit).1.2
    row.approvalId live.authorization.policyId) : App PyDict)) _ _ hrecord with
    ⟨hfinal, hfinalWorld⟩
  refine ⟨_, executed, hlast.trans hfinal, rfl, ?_, hstatus⟩
  refine Eq.trans (congrArg (fun v : World => selectById v.approvals row.approvalId) ?_) hexecuted
  exact hlastWorld.trans hfinalWorld

end Runs

/-- A finished run of a tool. -/
abbrev ToolRun := Core.Finish Cmd Cmd.Answer Exc PyDict World

/-- The run answered with the text under the key. -/
def AnswersWith (f : ToolRun) (key text : String) : Prop :=
  ∃ resp, f.outcome = .ok resp ∧ resp.get? key = some (.str text)

/-- The run answered with the identifier of a row that asks for the credit. -/
def RecordsRequest (f : ToolRun) (taskId reservationId : String) (amount : ℚ) : Prop :=
  ∃ resp row, f.outcome = .ok resp ∧ row ∈ f.world.approvals ∧
    row.isCredit taskId reservationId amount = true ∧
    resp.get? "approval_id" = some (.str row.approvalId)

/-- The run answered that the credit was issued and left the row executed. -/
def ExecutesRow (f : ToolRun) (approvalId : String) : Prop :=
  AnswersWith f "status" "issued" ∧
    ∃ row, selectById f.world.approvals approvalId = some row ∧ row.status = .executed

theorem answersWith_iff {f : ToolRun} {resp : PyDict} (h : f.outcome = .ok resp)
    (key text : String) : AnswersWith f key text ↔ resp.get? key = some (.str text) :=
  ⟨fun ⟨_, hout, hget⟩ => Except.ok.inj (h.symm.trans hout) ▸ hget, fun hget => ⟨resp, h, hget⟩⟩

theorem effectValue_inj {effect other : DecisionEffect} :
    some (PyVal.str effect.value) = some (.str other.value) ↔ effect = other := by
  constructor
  · intro h
    have hvalue := PyVal.str.inj (Option.some.inj h)
    revert hvalue
    cases effect <;> cases other <;> decide
  · intro h
    rw [h]

section Operations

variable {d : Deployment} {envs : Nat → Env} (w : World) (reservationId reason : String)
  (amount : ℚ) (task : TaskContext) {chain : List DelegationGrant} {limit : ℚ}

/-- A tool run that was refused, answered with the effect of the decision. -/
theorem refused_answers {f : ToolRun} {effect : DecisionEffect} {why : String}
    (hout : f.outcome = .ok (blocked effect.value why)) :
    ¬ AnswersWith f "status" "issued" ∧
      (∀ other : DecisionEffect, AnswersWith f "effect" other.value ↔ effect = other) ∧
      ∀ taskId reservationId amount, ¬ RecordsRequest f taskId reservationId amount := by
  refine ⟨fun h => ?_, fun other => ?_, fun taskId reservationId amount h => ?_⟩
  · have hstatus := (answersWith_iff hout _ _).mp h
    exact absurd (PyVal.str.inj (Option.some.inj hstatus)) (by decide : "blocked" ≠ "issued")
  · exact (answersWith_iff hout _ _).trans effectValue_inj
  · -- A refusal has no such key.
    rcases h with ⟨resp, row, hresp, -, -, hget⟩
    rw [← Except.ok.inj (hout.symm.trans hresp)] at hget
    exact Option.some_ne_none _ hget.symm

variable (chain)

/-- `issue_credit` issues when the decision is to allow and its key can be derived,
    and otherwise answers with the decision and changes nothing, or raises. -/
theorem credit_decided (henvs : ∀ n, (envs n).Routes d.trustDomain) (retryPolicy : RetryPolicy) :
    let f := run perform (issueCredit d retryPolicy reservationId amount reason task chain) envs w
    let effect := routedEffect d.trustDomain
      (creditRequest d reservationId amount reason task chain (envs 0).now)
    (AnswersWith f "status" "issued" ↔ effect = .allow ∧
        d.digestError (creditCanonical task.taskId reservationId amount) = none) ∧
      (∀ other : DecisionEffect, other ≠ .allow →
        (AnswersWith f "effect" other.value ↔ effect = other)) ∧
      (effect ≠ .allow → f.world = w) := by
  intro f effect
  rcases refusal_routed henvs (creditRequest d reservationId amount reason task chain) with
    ⟨hadmitted, hrefused⟩
  by_cases hallow : effect = .allow
  · rcases buildCreditIdempotencyKey_cases d.sha256 d.digestError task.taskId reservationId
      amount with ⟨e, herror, hbuild⟩ | ⟨hnone, hbuild⟩
    · -- With no key it raises, and so answers nothing.
      have hout := (run_unkeyedCredit w d retryPolicy reservationId amount reason task chain
        hbuild (hadmitted hallow)).2
      have hsilent : ∀ key text, ¬ AnswersWith f key text := by
        rintro key text ⟨resp, hresp, -⟩
        exact absurd (hout.symm.trans hresp) (by simp only [reduceCtorEq, not_false_eq_true])
      refine ⟨iff_of_false (hsilent _ _) fun h => ?_, fun other hother =>
        iff_of_false (hsilent _ _) fun h => hother (h.symm.trans hallow),
        fun hnot => absurd hallow hnot⟩
      exact absurd (herror.symm.trans h.2) (by simp only [reduceCtorEq, not_false_eq_true])
    · rcases run_issueCredit w d (fun n => (henvs n).fault) retryPolicy reservationId amount
        reason task chain hbuild (hadmitted hallow) with ⟨permit, live, -, -, hcompleted, -⟩
      have hout := hcompleted ((henvs 4).complete permit)
      refine ⟨iff_of_true ?_ ⟨hallow, hnone⟩, fun other _ => ?_, fun hnot => absurd hallow hnot⟩
      · exact (answersWith_iff hout _ _).mpr rfl
      · rw [hallow]
        exact (answersWith_iff hout _ _).trans (@effectValue_inj .allow other)
  · rcases hrefused hallow with ⟨why, hrefusal⟩
    rcases run_refused _ _ (w := w) hrefusal with ⟨hout, hworld⟩
    rcases refused_answers hout with ⟨hstatus, heffect, -⟩
    exact ⟨iff_of_false hstatus fun h => hallow h.1, fun other _ => heffect other,
      fun _ => hworld⟩

/-- `request_guest_credit` records the request when the decision is to allow, and
    changes nothing otherwise. -/
theorem request_decided (henvs : ∀ n, (envs n).Routes d.trustDomain)
    (hfresh : ∀ row ∈ w.approvals, row.approvalId ≠ "approval:" ++ (envs 4).uuid) :
    let f := run perform (requestGuestCredit d reservationId amount reason task chain) envs w
    let effect := routedEffect d.trustDomain (operationRequest d "guest.credit.request"
      .serviceRecovery reservationId [("amount", .num amount), ("reason", .str reason)] task chain
      (envs 0).now)
    (RecordsRequest f task.taskId reservationId amount ↔ effect = .allow) ∧
      (effect ≠ .allow → f.world = w) := by
  intro f effect
  rcases refusal_routed henvs (operationRequest d "guest.credit.request" .serviceRecovery
    reservationId [("amount", .num amount), ("reason", .str reason)] task chain) with
    ⟨hadmitted, hrefused⟩
  by_cases hallow : effect = .allow
  · refine ⟨iff_of_true ?_ hallow, fun hnot => absurd hallow hnot⟩
    rcases run_opened _ (fun permit live => do
      let result ← markUnknownOnError permit (createRequest reservationId amount reason task)
      completeOrRaise permit "operation executed but Ruhusa lifecycle did not complete"
      return allowed result live) w (hadmitted hallow) with ⟨permit, -, hout, hworld⟩
    rcases run_createRequest w (fun n => (henvs (n + 3)).fault)
      reservationId amount reason task hfresh with
      ⟨resp, w', row, hresp, hw', hsteps, hmem, hcredit, hget⟩
    rcases run_handled w (fun result => done (allowed result
        ((envs 2).revalidate (operationRequest d "guest.credit.request" .serviceRecovery
          reservationId [("amount", .num amount), ("reason", .str reason)] task chain
          (envs 0).now) permit))) permit
      "operation executed but Ruhusa lifecycle did not complete" hresp hw' hsteps with
      ⟨hcompleted, -⟩
    rcases hcompleted ((henvs 5).complete permit) with ⟨hlast, hlastWorld⟩
    refine ⟨_, row, hout.trans hlast, ?_, hcredit, ?_⟩
    · have hleft := hworld.trans hlastWorld
      change row ∈ (run perform (secured _ _) envs w).world.approvals
      rw [hleft]
      exact hmem
    · unfold allowed
      rw [PyDict.get?_merge_left _ _ _ (by simp)]
      exact hget
  · rcases hrefused hallow with ⟨why, hrefusal⟩
    rcases run_refused _ _ (w := w) hrefusal with ⟨hout, hworld⟩
    rcases refused_answers hout with ⟨-, -, hrequest⟩
    exact ⟨iff_of_false (hrequest _ _ _) hallow, fun _ => hworld⟩

/-- The executor executes an approved row of the store when the decision is to
    allow, and changes nothing otherwise. -/
theorem approved_decided (henvs : ∀ n, (envs n).Routes d.trustDomain) {row : ApprovalRow}
    (hsel : selectById w.approvals row.approvalId = some row)
    (happroved : row.status = .approved) :
    let f := run perform (executeApproved d (fromRow row) task chain) envs w
    let effect := routedEffect d.trustDomain
      (approvedRequest d (fromRow row) task chain (envs 0).now)
    (ExecutesRow f row.approvalId ↔ effect = .allow) ∧ (effect ≠ .allow → f.world = w) := by
  intro f effect
  rcases refusal_routed henvs (approvedRequest d (fromRow row) task chain) with
    ⟨hadmitted, hrefused⟩
  by_cases hallow : effect = .allow
  · refine ⟨iff_of_true ?_ hallow, fun hnot => absurd hallow hnot⟩
    rcases run_executeApproved d w henvs hsel happroved task chain (hadmitted hallow) with
      ⟨resp, executed, hout, hstatus, hexecuted⟩
    exact ⟨⟨resp, hout, hstatus⟩, executed, hexecuted⟩
  · rcases hrefused hallow with ⟨why, hrefusal⟩
    have hrecord : (fromRow row).status = .approved := happroved
    have hnot : (fromRow row).status ≠ .executed := by
      rw [hrecord]
      decide
    have hcode : f = run perform (executeApproved d (fromRow row) task chain) envs w := rfl
    unfold executeApproved at hcode
    rw [if_neg hnot, if_pos hrecord] at hcode
    rcases run_refused _ _ (w := w) hrefusal with ⟨hout, hworld⟩
    rw [hcode, hworld]
    rcases refused_answers hout with ⟨hstatus, -, -⟩
    exact ⟨iff_of_false (fun h => hstatus h.1) hallow, fun _ => rfl⟩

variable {chain}

/-- What `issue_credit` does with an amount, given the limit of its chain. -/
theorem issue_routed (henvs : ∀ n, (envs n).Routes d.trustDomain) (retryPolicy : RetryPolicy)
    (hchain : ChainLimits chain limit) :
    let f := run perform (issueCredit d retryPolicy reservationId amount reason task chain) envs w
    (AnswersWith f "status" "issued" ↔ (0 < amount ∧ amount ≤ min limit 25) ∧
        d.digestError (creditCanonical task.taskId reservationId amount) = none) ∧
      (AnswersWith f "effect" "require_approval" ↔ 25 < amount ∧ amount ≤ min limit 100) ∧
      (AnswersWith f "effect" "deny" ↔
        ¬ (0 < amount ∧ amount ≤ min limit 25) ∧ ¬ (25 < amount ∧ amount ≤ min limit 100)) ∧
      (¬ (0 < amount ∧ amount ≤ min limit 25) → f.world = w) := by
  intro f
  rcases credit_decided w reservationId reason amount task chain henvs retryPolicy with
    ⟨hissued, heffect, hworld⟩
  have hband := credit_effect d reservationId reason amount task (envs 0).now hchain
  -- The bands exclude each other.
  have hapart : 0 < amount ∧ amount ≤ min limit 25 → ¬ (25 < amount ∧ amount ≤ min limit 100) :=
    fun hsmall hlarge => absurd (hsmall.2.trans (min_le_right _ _)) (not_le.mpr hlarge.1)
  have happroval := heffect .requireApproval (by decide)
  have hdeny := heffect .deny (by decide)
  rw [hband] at hissued happroval hdeny hworld
  by_cases hsmall : 0 < amount ∧ amount ≤ min limit 25
  · rw [if_pos hsmall] at hissued happroval hdeny
    refine ⟨hissued.trans (and_congr_left' (iff_of_true rfl hsmall)), happroval.trans ?_,
      hdeny.trans ?_, fun h => absurd hsmall h⟩
    · exact iff_of_false (by decide) (hapart hsmall)
    · exact iff_of_false (by decide) fun h => h.1 hsmall
  · rw [if_neg hsmall] at hissued happroval hdeny hworld
    by_cases hlarge : 25 < amount ∧ amount ≤ min limit 100
    · rw [if_pos hlarge] at hissued happroval hdeny hworld
      refine ⟨hissued.trans (and_congr_left' (iff_of_false (by decide) hsmall)),
        happroval.trans (iff_of_true rfl hlarge), hdeny.trans ?_, fun _ => hworld (by decide)⟩
      exact iff_of_false (by decide) fun h => h.2 hlarge
    · rw [if_neg hlarge] at hissued happroval hdeny hworld
      exact ⟨hissued.trans (and_congr_left' (iff_of_false (by decide) hsmall)),
        happroval.trans (iff_of_false (by decide) hlarge),
        hdeny.trans (iff_of_true rfl ⟨hsmall, hlarge⟩), fun _ => hworld (by decide)⟩

/-- An effect that allows in one case and denies in the other. -/
theorem allow_or_deny {p : Prop} [Decidable p] :
    (if p then DecisionEffect.allow else .deny) = .allow ↔ p := by
  by_cases h : p
  · rw [if_pos h]
    exact iff_of_true rfl h
  · rw [if_neg h]
    exact iff_of_false (by decide) h

/-- What `request_guest_credit` does with an amount. -/
theorem request_routed (henvs : ∀ n, (envs n).Routes d.trustDomain)
    (hfresh : ∀ row ∈ w.approvals, row.approvalId ≠ "approval:" ++ (envs 4).uuid)
    (hchain : ChainLimits chain limit) :
    let f := run perform (requestGuestCredit d reservationId amount reason task chain) envs w
    (RecordsRequest f task.taskId reservationId amount ↔ 25 < amount ∧ amount ≤ min limit 100) ∧
      (¬ (25 < amount ∧ amount ≤ min limit 100) → f.world = w) := by
  intro f
  rcases request_decided w reservationId reason amount task chain henvs hfresh with
    ⟨hrecords, hworld⟩
  rw [request_effect d reservationId reason amount task (envs 0).now hchain] at hrecords hworld
  exact ⟨hrecords.trans allow_or_deny, fun h => hworld fun hallow => h (allow_or_deny.mp hallow)⟩

/-- What the executor does with the amount of an approved row. -/
theorem executor_routed (henvs : ∀ n, (envs n).Routes d.trustDomain) {row : ApprovalRow}
    (hsel : selectById w.approvals row.approvalId = some row) (happroved : row.status = .approved)
    (hid : row.approvalId ≠ "") (hchain : ChainLimits chain limit) :
    let f := run perform (executeApproved d (fromRow row) task chain) envs w
    (ExecutesRow f row.approvalId ↔ 0 < row.amount ∧ row.amount ≤ min limit 100) ∧
      (¬ (0 < row.amount ∧ row.amount ≤ min limit 100) → f.world = w) := by
  intro f
  rcases approved_decided w task chain henvs hsel happroved with ⟨hexecutes, hworld⟩
  have hnamed : (fromRow row).approvalId ≠ "" := hid
  have heffect := approved_effect d task (envs 0).now hnamed hchain
  rw [heffect] at hexecutes hworld
  exact ⟨hexecutes.trans allow_or_deny, fun h => hworld fun hallow => h (allow_or_deny.mp hallow)⟩

end Operations

/-- Credits are routed by amount. An automatic credit is issued up to 25, where its
    key can be derived, needs approval from there up to 100 and is denied beyond; a
    request is recorded above 25 and up to 100; an approved credit is executed up to
    100; and each of them within the limit of its chain. So with the default limits
    every amount in `(0, 100]` is for exactly one of the first two operations and no
    other amount is for either, and what is requested can be executed once it is
    approved. -/
theorem credit_routing (d : Deployment) (task : TaskContext) (reservationId reason : String)
    (amount : ℚ) (envs : Nat → Env) (henvs : ∀ n, (envs n).Routes d.trustDomain) (w : World)
    (retryPolicy : RetryPolicy)
    (hfresh : ∀ row ∈ w.approvals, row.approvalId ≠ "approval:" ++ (envs 4).uuid) :
    let issue := fun chain =>
      run perform (issueCredit d retryPolicy reservationId amount reason task chain) envs w
    let request := fun chain =>
      run perform (requestGuestCredit d reservationId amount reason task chain) envs w
    let keyed := d.digestError (creditCanonical task.taskId reservationId amount) = none
    (∀ supervisorLimit limit chain,
      IssuedBy d (.serviceRecovery task supervisorLimit limit) chain →
      (AnswersWith (issue chain) "status" "issued" ↔
        (0 < amount ∧ amount ≤ min limit 25) ∧ keyed) ∧
      (AnswersWith (issue chain) "effect" "require_approval" ↔
        25 < amount ∧ amount ≤ min limit 100) ∧
      (AnswersWith (issue chain) "effect" "deny" ↔
        ¬ (0 < amount ∧ amount ≤ min limit 25) ∧ ¬ (25 < amount ∧ amount ≤ min limit 100)) ∧
      (¬ (0 < amount ∧ amount ≤ min limit 25) → (issue chain).world = w)) ∧
    (∀ limit chain, IssuedBy d (.serviceRecoveryCreditRequest task limit) chain →
      (RecordsRequest (request chain) task.taskId reservationId amount ↔
        25 < amount ∧ amount ≤ min limit 100) ∧
      (¬ (25 < amount ∧ amount ≤ min limit 100) → (request chain).world = w)) ∧
    (∀ executorTask limit chain row, IssuedBy d (.approvalExecutor executorTask limit) chain →
      selectById w.approvals row.approvalId = some row → row.status = .approved →
      row.approvalId ≠ "" →
      let execute := run perform (executeApproved d (fromRow row) executorTask chain) envs w
      (ExecutesRow execute row.approvalId ↔ 0 < row.amount ∧ row.amount ≤ min limit 100) ∧
      (¬ (0 < row.amount ∧ row.amount ≤ min limit 100) → execute.world = w)) ∧
    (∀ creditChain requestChain,
      IssuedBy d (.serviceRecovery task defaultSupervisorCreditLimit
        defaultServiceRecoveryCreditLimit) creditChain →
      IssuedBy d (.serviceRecoveryCreditRequest task
        defaultServiceRecoveryApprovalRequestLimit) requestChain →
      let issued := AnswersWith (issue creditChain) "status" "issued"
      let requested := RecordsRequest (request requestChain) task.taskId reservationId amount
      (keyed → 0 < amount ∧ amount ≤ 100 → Xor issued requested) ∧
      (¬ (0 < amount ∧ amount ≤ 100) → ¬ issued ∧ ¬ requested) ∧
      (requested → ∀ executorTask executorChain executorEnvs v row,
        IssuedBy d (.approvalExecutor executorTask 100) executorChain →
        (∀ n, (executorEnvs n : Env).Routes d.trustDomain) →
        selectById v.approvals row.approvalId = some row → row.status = .approved →
        row.approvalId ≠ "" → row.amount = amount →
        ExecutesRow (run perform (executeApproved d (fromRow row) executorTask executorChain)
          executorEnvs v) row.approvalId)) := by
  intro issue request keyed
  have hissue : ∀ supervisorLimit limit chain,
      IssuedBy d (.serviceRecovery task supervisorLimit limit) chain →
      _ := fun _ limit chain hchain => issue_routed w reservationId reason amount task henvs
        retryPolicy (chain_credit hchain)
  have hrequest : ∀ limit chain, IssuedBy d (.serviceRecoveryCreditRequest task limit) chain →
      _ := fun limit chain hchain => request_routed w reservationId reason amount task henvs hfresh
        (chain_request hchain)
  refine ⟨hissue, hrequest, ?_, ?_⟩
  · intro executorTask limit chain row hchain hsel happroved hid
    exact executor_routed w executorTask henvs hsel happroved hid (chain_executor hchain)
  · intro creditChain requestChain hcredit hcreditRequest issued requested
    have hissued : issued ↔ (0 < amount ∧ amount ≤ 25) ∧ keyed := by
      have h := (hissue _ _ creditChain hcredit).1
      rwa [defaultServiceRecoveryCreditLimit, min_self] at h
    have hrequested : requested ↔ 25 < amount ∧ amount ≤ 100 := by
      have h := (hrequest _ requestChain hcreditRequest).1
      rwa [defaultServiceRecoveryApprovalRequestLimit, min_self] at h
    refine ⟨fun hkeyed hin => ?_, fun hout => ⟨fun h => ?_, fun h => ?_⟩, fun h => ?_⟩
    · -- One band ends where the other starts.
      rcases le_or_gt amount 25 with hsmall | hlarge
      · exact Or.inl ⟨hissued.mpr ⟨⟨hin.1, hsmall⟩, hkeyed⟩,
          fun h => absurd hsmall (not_le.mpr (hrequested.mp h).1)⟩
      · exact Or.inr ⟨hrequested.mpr ⟨hlarge, hin.2⟩,
          fun h => absurd (hissued.mp h).1.2 (not_le.mpr hlarge)⟩
    · rcases hissued.mp h with ⟨⟨hpos, hle⟩, -⟩
      exact hout ⟨hpos, hle.trans (by norm_num)⟩
    · rcases hrequested.mp h with ⟨hlarge, hle⟩
      exact hout ⟨lt_trans (by norm_num) hlarge, hle⟩
    · intro executorTask executorChain executorEnvs v row hchain hexecutor hsel happroved hid
        hamount
      rcases hrequested.mp h with ⟨hlarge, hle⟩
      refine (executor_routed v executorTask hexecutor hsel happroved hid
        (chain_executor hchain)).1.mpr ?_
      rw [hamount, min_self]
      exact ⟨lt_trans (by norm_num) hlarge, hle⟩

/-- An outside in which Ruhusa decides so and nothing fails. -/
def Env.routing (trustDomain : String) : Env :=
  .answering (routedEffect trustDomain) (routedEffect trustDomain)

theorem routing_routes (trustDomain : String) : (Env.routing trustDomain).Routes trustDomain where
  fault := rfl
  create := fun _ => rfl
  begin := fun _ => ⟨rfl, rfl⟩
  permit := fun _ _ h => Option.some_ne_none _ h
  revalidate := fun _ _ => rfl
  complete := fun _ => rfl

/-- A credit of 40 is requested from a human. -/
theorem forty_requested : RecordsRequest
    (run perform (requestGuestCredit .sample "R-3001" 40 "broken air conditioning" sampleTask
        (IssueCall.serviceRecoveryCreditRequest sampleTask 100).sampleChain)
      (fun _ => .routing Deployment.sample.trustDomain) World.empty) "7f" "R-3001" 40 := by
  have hissued : IssuedBy .sample (.serviceRecoveryCreditRequest sampleTask 100)
      (IssueCall.serviceRecoveryCreditRequest sampleTask 100).sampleChain :=
    ⟨fun _ => .granting, World.empty, fun _ => rfl, by rfl⟩
  exact ((credit_routing .sample sampleTask "R-3001" "broken air conditioning" 40 _
    (fun _ => routing_routes _) World.empty Deployment.sample.retryPolicy
    (fun _ h => absurd h List.not_mem_nil)).2.1 100 _ hissued).1.mpr
    ⟨by norm_num, by norm_num⟩

end Asante
