import Asante.Model.Http
import Asante.Theory.Identities
import Asante.Theory.OnBehalf

/-!
# The Application behind Authentication

A run over HTTP against a run of the application. The dependency in front of
the endpoints neither changes the world nor is asked for anything else, so what
clients do over HTTP is what the endpoints do for the humans whose tokens were
verified, with the MCP calls beside them. Results about every run of the
application then say something about tokens: the human in a task, or on an
approval, presented a token that was verified in the same run, by the dependency
in front of the call.

MCP calls carry no token. They can do nothing for a client by themselves: unless
the token of some request is verified, the world stays as it was.

## Main definitions

* `Presented`: The dependency verified the token of a request.
* `Stands`, `TurnedAway`: What an HTTP call is in the application.
* `TakesDecision`: A request asked for the decision of a row.

## Theorems

* `http_refines`: A run over HTTP is a run of the application.
* `http_on_behalf`: Every submitted request is for a human with a verified token.
* `http_decided`: Every decision is that of a verified holder of the scope, and was
  taken by the verified request.
* `http_unverified`: Without a verified token nothing happens.
* `default_scope_undecided`: Development tokens decide nothing by default.
-/

namespace Asante

open Core.Prog

variable {jwt : Jwt} {environ : Environ}

/-- A started call over HTTP. -/
abbrev HttpThread (jwt : Jwt) :=
  Core.Thread (HttpCall jwt) (HttpCmd jwt) (HttpAnswer jwt) Exc Response

/-- The dependency in front of the application. -/
def httpLayer (jwt : Jwt) (environ : Environ) (d : Deployment) :
    Core.Layer (httpPerform jwt environ) (httpCode jwt d) perform (AppCall.code d) :=
  Core.guardLayer (httpGuard jwt) perform (AppCall.code d) id fun credentials env =>
    requireAuthenticatedHuman jwt environ env.now credentials

/-- The dependency has verified the credentials of the request as those of the
    human, before anything else was done for it. -/
def Presented (th' : HttpThread jwt) (endpoint : Endpoint) (human : VerifiedHuman) : Prop :=
  ∃ credentials rest, th'.call = .request credentials endpoint ∧
    th'.trace = ⟨.inr credentials, .ok human⟩ :: rest

/-- What a call over HTTP is in the application: an MCP call as it is, or a call
    of an endpoint by the human whose token was verified for it. -/
inductive Stands (th' : HttpThread jwt) : AppCall → Prop
  | mcp (tool : McpTool) (metadata : PyDict) (h : th'.call = .mcp tool metadata) :
      Stands th' (.mcp tool metadata)
  | endpoint (endpoint : Endpoint) (human : VerifiedHuman) (h : Presented th' endpoint human) :
      Stands th' (endpoint.appCall human.toAuthenticatedHuman)

/-- The HTTP call has done what the call of the application has done. -/
structure Serves (th' : HttpThread jwt)
    (th : Core.Thread AppCall Cmd Cmd.Answer Exc Response) : Prop where
  stands : Stands th' th.call
  rest : th'.rest = embed _ th.rest
  trace : th'.trace.filterMap Core.Event.visible = th.trace

/-- The request has only been asked for its token so far, or raised what
    verifying it raised. -/
def TurnedAway (th' : HttpThread jwt) : Prop :=
  ∃ credentials endpoint, th'.call = .request credentials endpoint ∧
    (th'.trace = [] ∨ ∃ e, th'.trace = [⟨.inr credentials, .error e⟩] ∧ th'.rest = .fail e)

theorem visible_lifted (tr : List AppEvent) :
    (tr.map (Core.liftEvent fun _ : Option (Credentials jwt) =>
      Except Exc VerifiedHuman)).filterMap Core.Event.visible = tr := by
  rw [List.filterMap_map]
  exact List.filterMap_some

section Runs

variable {d : Deployment} {sched : List (Core.Action (HttpCall jwt) Env)}

/-- What the dependency has verified in a run, it verified at some moment of it. -/
theorem presented_verified {th' : HttpThread jwt}
    (hth' : th' ∈ (httpRun jwt environ d sched).threads) {endpoint : Endpoint}
    {human : VerifiedHuman} (h : Presented th' endpoint human) :
    ∃ credentials, .spawn (.request credentials endpoint) ∈ sched ∧
      ∃ i env, .advance i env ∈ sched ∧
        requireAuthenticatedHuman jwt environ env.now credentials = .ok human := by
  rcases h with ⟨credentials, rest, hcall, htrace⟩
  have hspawned := Core.exec_spawned (httpPerform jwt environ) (httpCode jwt d) World.empty sched
    th' hth'
  rw [hcall] at hspawned
  have hev : (⟨.inr credentials, .ok human⟩ : Core.Event (HttpCmd jwt) (HttpAnswer jwt)) ∈
      th'.trace := by
    rw [htrace]
    exact List.mem_cons_self
  rcases Core.exec_recorded (httpPerform jwt environ) (httpCode jwt d) World.empty sched hth' with
    ⟨i, hrecorded⟩
  rcases List.append_of_mem (hrecorded _ hev) with ⟨pre, post, hsplit⟩
  rcases Core.exec_history (httpPerform jwt environ) (httpCode jwt d) World.empty sched hsplit with
    ⟨before, env, after, rfl, -, hanswer⟩
  exact ⟨credentials, hspawned, i, env, List.mem_append_right _ List.mem_cons_self, hanswer⟩

/-- A call that was let in stands for the call it was let in as. -/
theorem letIn_serves {th' : HttpThread jwt}
    {th : Core.Thread AppCall Cmd Cmd.Answer Exc Response}
    (h : Core.LetIn (httpGuard jwt) th' th) : Serves th' th := by
  rcases th' with ⟨call', rest', tr'⟩
  rcases th with ⟨call, rest, tr⟩
  rcases h with ⟨hrest, ⟨hcall, htrace⟩ | ⟨credentials, admitted, r, hcall, hadmit, htrace⟩⟩
  · dsimp only at hrest hcall htrace
    cases call' with
    | request credentials endpoint =>
        exact absurd hcall (by simp only [httpGuard, reduceCtorEq, not_false_eq_true])
    | mcp tool metadata =>
        rw [← Sum.inl.inj hcall]
        exact ⟨.mcp tool metadata rfl, hrest, by rw [htrace, visible_lifted]⟩
  · dsimp only at hrest hcall hadmit htrace
    cases call' with
    | mcp tool metadata =>
        exact absurd hcall (by simp only [httpGuard, reduceCtorEq, not_false_eq_true])
    | request presented endpoint =>
        cases Sum.inr.inj hcall
        -- The dependency returned a human, who is the operator of the call.
        cases r with
        | error e => exact absurd hadmit (by simp only [Except.map, reduceCtorEq,
            not_false_eq_true])
        | ok human =>
            rw [← Except.ok.inj hadmit]
            refine ⟨.endpoint endpoint human ⟨credentials, _, rfl, htrace⟩, hrest, ?_⟩
            rw [htrace]
            exact visible_lifted tr

theorem notLetIn_turnedAway {th' : HttpThread jwt}
    (h : Core.NotLetIn (httpGuard jwt) (AppCall.code d) th') : TurnedAway th' := by
  rcases th' with ⟨call', rest', tr'⟩
  rcases h with ⟨credentials, letIn, hcall, hopen⟩
  dsimp only at hcall hopen
  cases call' with
  | mcp tool metadata =>
      exact absurd hcall (by simp only [httpGuard, reduceCtorEq, not_false_eq_true])
  | request presented endpoint =>
      cases Sum.inr.inj hcall
      refine ⟨credentials, endpoint, rfl, ?_⟩
      rcases hopen with ⟨htrace, -⟩ | ⟨r, e, hadmit, htrace, hrest⟩
      · exact Or.inl htrace
      · cases r with
        | ok human => exact absurd hadmit (by simp only [Except.map, reduceCtorEq,
            not_false_eq_true])
        | error e' =>
            rw [← Except.error.inj hadmit] at hrest
            exact Or.inr ⟨e', htrace, hrest⟩

variable {lower : List (Core.Action AppCall Env)} {place : Nat → Option Nat}

/-- A run over HTTP follows a run of the application. -/
def HttpFollows (environ : Environ) (d : Deployment)
    (sched : List (Core.Action (HttpCall jwt) Env)) (lower : List (Core.Action AppCall Env))
    (place : Nat → Option Nat) : Prop :=
  Core.Follows (httpLayer jwt environ d) (httpRun jwt environ d sched) (appRun d lower) place

theorem serves_lower (h : HttpFollows environ d sched lower place)
    {th : Core.Thread AppCall Cmd Cmd.Answer Exc Response} (hth : th ∈ (appRun d lower).threads) :
    ∃ th' ∈ (httpRun jwt environ d sched).threads, Serves th' th := by
  rcases Core.follows_lower h hth with ⟨th', hth', hrel⟩
  exact ⟨th', hth', letIn_serves hrel⟩

theorem serves_upper (h : HttpFollows environ d sched lower place) {th' : HttpThread jwt}
    (hth' : th' ∈ (httpRun jwt environ d sched).threads) :
    TurnedAway th' ∨ ∃ th ∈ (appRun d lower).threads, Serves th' th := by
  rcases Core.follows_upper h hth' with ⟨o, hrel, hlower⟩
  cases o with
  | none => exact Or.inl (notLetIn_turnedAway hrel)
  | some th => exact Or.inr ⟨th, hlower th rfl, letIn_serves hrel⟩

/-- The operator of a call of the application is a verified human who called an
    endpoint, and the request has done what the call has. -/
theorem operator_presented (h : HttpFollows environ d sched lower place)
    {th : Core.Thread AppCall Cmd Cmd.Answer Exc Response} (hth : th ∈ (appRun d lower).threads)
    {operator : AuthenticatedHuman} (hoperator : th.call.operator? = some operator) :
    ∃ th' ∈ (httpRun jwt environ d sched).threads, ∃ endpoint human,
      Presented th' endpoint human ∧ operator = human.toAuthenticatedHuman ∧
        th.call = endpoint.appCall operator ∧
        th'.trace.filterMap Core.Event.visible = th.trace := by
  rcases serves_lower h hth with ⟨th', hth', hserves⟩
  refine ⟨th', hth', ?_⟩
  have htrace := hserves.trace
  rcases th with ⟨call, rest, tr⟩
  have hstands := hserves.stands
  dsimp only at hstands hoperator htrace ⊢
  cases hstands with
  | mcp tool metadata hcall =>
      exact absurd hoperator (by simp only [AppCall.operator?, reduceCtorEq, not_false_eq_true])
  | endpoint endpoint human hpresented =>
      have hsame : operator = human.toAuthenticatedHuman := by
        cases endpoint <;> exact (Option.some.inj hoperator).symm
      exact ⟨endpoint, human, hpresented, hsame, by rw [hsame], htrace⟩

end Runs

/-- Every run over HTTP is a run of the application, in environments of the run:
    the world is the same, every call of the application is served to a client,
    and every client's call is served or was turned away with nothing done. -/
theorem http_refines (jwt : Jwt) (environ : Environ) (d : Deployment)
    (sched : List (Core.Action (HttpCall jwt) Env)) :
    ∃ lower : List (Core.Action AppCall Env),
      (∀ j env, .advance j env ∈ lower → ∃ i, .advance i env ∈ sched) ∧
      (httpRun jwt environ d sched).world = (appRun d lower).world ∧
      (∀ th ∈ (appRun d lower).threads, ∃ th' ∈ (httpRun jwt environ d sched).threads,
        Serves th' th) ∧
      ∀ th' ∈ (httpRun jwt environ d sched).threads, TurnedAway th' ∨
        ∃ th ∈ (appRun d lower).threads, Serves th' th := by
  rcases Core.layer_run (httpLayer jwt environ d) World.empty sched with
    ⟨lower, place, hfollows, hfrom⟩
  refine ⟨lower, fun j env hmem => ?_, hfollows.world.symm, fun th => serves_lower hfollows,
    fun th' => serves_upper hfollows⟩
  rcases hfrom j env hmem with ⟨i, env', hmem', rfl⟩
  exact ⟨i, hmem'⟩

/-- In every run over HTTP, every request that is submitted is in a task of a
    human who called an endpoint with a token that was verified in that run. -/
theorem http_on_behalf (jwt : Jwt) (environ : Environ) (d : Deployment)
    (sched : List (Core.Action (HttpCall jwt) Env)) :
    ∀ th ∈ (httpRun jwt environ d sched).threads, ∀ ev ∈ th.trace, ∀ c req, ev.cmd = .inl c →
      Submits req c → ∃ caller ∈ (httpRun jwt environ d sched).threads, ∃ endpoint human,
        Presented caller endpoint human ∧
          req.task.initiatedBy = humanPrincipal human.issuer human.subject := by
  intro th hth ev hev c req hcmd hreq
  rcases Core.layer_run (httpLayer jwt environ d) World.empty sched with
    ⟨lower, place, hfollows, -⟩
  rcases serves_upper hfollows hth with hturned | ⟨th₀, hth₀, hserves⟩
  · -- A call that was turned away has submitted nothing.
    rcases hturned with ⟨credentials, endpoint, -, htrace | ⟨e, htrace, -⟩⟩
    · rw [htrace] at hev
      exact absurd hev List.not_mem_nil
    · rw [htrace] at hev
      rw [List.mem_singleton.mp hev] at hcmd
      exact absurd hcmd (by simp only [reduceCtorEq, not_false_eq_true])
  · rcases ev with ⟨cmd, answer⟩
    dsimp only at hcmd
    subst hcmd
    have hev₀ : (⟨c, answer⟩ : AppEvent) ∈ th₀.trace := by
      rw [← hserves.trace]
      exact List.mem_filterMap.mpr ⟨_, hev, rfl⟩
    rcases app_on_behalf d lower th₀ hth₀ _ hev₀ req hreq with
      ⟨caller, hcaller, operator, hoperator, hhuman⟩
    rcases operator_presented hfollows hcaller hoperator with
      ⟨th', hth', endpoint, human, hpresented, hsame, -, -⟩
    refine ⟨th', hth', endpoint, human, hpresented, ?_⟩
    rw [hhuman, hsame, human.principal]

/-- The human of a token runs the agents, which ask for a credit of 40, and then
    approves it. -/
def tokenSchedule (env : Env) (token : PlainToken) : List (Core.Action (HttpCall plainJwt) Env) :=
  .spawn (.request (some ⟨"Bearer", token⟩) (.runAgent "the room is too hot")) ::
    List.replicate 29 (.advance 0 env) ++
    .spawn (.mcp (.requestGuestCredit "R-3001" 40 "broken air conditioning")
      [(asanteTaskMetaKey, .str "7f"), (asanteWorkloadMetaKey, .str "service-recovery")]) ::
    List.replicate 8 (.advance 1 env) ++
    .spawn (.request (some ⟨"Bearer", token⟩) (.approve "approval:7f" none)) ::
    List.replicate 17 (.advance 2 env)

/-- The command submits a request. -/
def submitsSome : HttpCmd jwt → Bool
  | .inl (.begin _) => true
  | _ => false

/-- The agents of the run submit for its human. -/
theorem http_on_behalf_sample :
    ∃ th ∈ (httpRun plainJwt (fun _ => none) .sample
        (tokenSchedule .granting (plainDevToken "claire"))).threads, ∃ ev ∈ th.trace,
      ∃ req, ev.cmd = .inl (.begin req) ∧ ∃ caller ∈ (httpRun plainJwt (fun _ => none) .sample
        (tokenSchedule .granting (plainDevToken "claire"))).threads, ∃ endpoint human,
        Presented caller endpoint human ∧
          req.task.initiatedBy = humanPrincipal human.issuer human.subject := by
  have hsubmits : ((httpRun plainJwt (fun _ => none) .sample
      (tokenSchedule .granting (plainDevToken "claire"))).threads.any fun th =>
        th.trace.any fun ev => submitsSome ev.cmd) = true := by
    decide +kernel
  rcases List.any_eq_true.mp hsubmits with ⟨th, hth, hany⟩
  rcases List.any_eq_true.mp hany with ⟨⟨cmd, answer⟩, hev, hcmd⟩
  rcases cmd with c | credentials
  · cases c with
    | begin req =>
        exact ⟨th, hth, _, hev, req, rfl,
          http_on_behalf plainJwt (fun _ => none) .sample _ th hth _ hev _ req rfl rfl⟩
    | _ => exact absurd hcmd Bool.noConfusion
  · exact absurd hcmd Bool.noConfusion

/-- The endpoint decides the approval of the row, the way the row was decided. -/
def DecidesAs (row : ApprovalRow) (endpoint : Endpoint) : Prop :=
  ∃ note, endpoint = if row.status = .denied then .deny row.approvalId note
    else .approve row.approvalId note

/-- The request has asked the store for the decision of the row, the way the row was
    decided and as the human. -/
def TakesDecision (th' : HttpThread jwt) (row : ApprovalRow) (human : VerifiedHuman) : Prop :=
  ∃ ev ∈ th'.trace, ∃ note, ev.cmd =
    .inl (.decideLocked row.approvalId (row.status ≠ .denied) human.principalId note)

theorem appCall_approve {endpoint : Endpoint} {operator human : AuthenticatedHuman}
    {approvalId : String} {note : Option String}
    (h : endpoint.appCall operator = .approve human approvalId note) :
    endpoint = .approve approvalId note := by
  cases endpoint with
  | approve called note' =>
      rcases AppCall.approve.inj h with ⟨-, rfl, rfl⟩
      rfl
  | _ => exact AppCall.noConfusion h

theorem appCall_deny {endpoint : Endpoint} {operator human : AuthenticatedHuman}
    {approvalId : String} {note : Option String}
    (h : endpoint.appCall operator = .deny human approvalId note) :
    endpoint = .deny approvalId note := by
  cases endpoint with
  | deny called note' =>
      rcases AppCall.deny.inj h with ⟨-, rfl, rfl⟩
      rfl
  | _ => exact AppCall.noConfusion h

theorem decidesAs_of_decision {row : ApprovalRow} {endpoint : Endpoint}
    {operator human : AuthenticatedHuman}
    (h : Decision (endpoint.appCall operator) row.approvalId (row.status ≠ .denied) human) :
    DecidesAs row endpoint := by
  rcases h with ⟨-, ⟨hstatus, note, hcall⟩ | ⟨hstatus, note, hcall⟩⟩
  · exact ⟨note, (appCall_approve hcall).trans (if_neg (of_decide_eq_true hstatus)).symm⟩
  · exact ⟨note, (appCall_deny hcall).trans
      (if_pos (not_not.mp (of_decide_eq_false hstatus))).symm⟩

/-- A decided row was decided by the request of a verified human who called an
    endpoint. -/
theorem decision_presented {d : Deployment} {sched : List (Core.Action (HttpCall jwt) Env)}
    {row : ApprovalRow} (hrow : row ∈ (httpRun jwt environ d sched).world.approvals)
    {decidedBy : String} (hby : row.decidedBy = some decidedBy) :
    ∃ caller ∈ (httpRun jwt environ d sched).threads, ∃ endpoint human,
      Presented caller endpoint human ∧ TakesDecision caller row human ∧
        decidedBy = human.principalId ∧
        Decision (endpoint.appCall human.toAuthenticatedHuman) row.approvalId
          (row.status ≠ .denied) human.toAuthenticatedHuman := by
  rcases Core.layer_run (httpLayer jwt environ d) World.empty sched with
    ⟨lower, place, hfollows, -⟩
  have hworld : (appRun d lower).world = (httpRun jwt environ d sched).world := hfollows.world
  rcases app_decided d lower row (hworld ▸ hrow) decidedBy hby with
    ⟨th, hth, decider, hdecision, rfl, ev, hev, note, hcmd⟩
  have hoperator : th.call.operator? = some decider := by
    rcases hdecision with ⟨-, ⟨-, note, hcall⟩ | ⟨-, note, hcall⟩⟩
    · rw [hcall]
      rfl
    · rw [hcall]
      rfl
  rcases operator_presented hfollows hth hoperator with
    ⟨th', hth', endpoint, human, hpresented, rfl, hcall, htrace⟩
  rw [hcall] at hdecision
  -- The event that decided is one of the request's own.
  rw [← htrace] at hev
  rcases List.mem_filterMap.mp hev with ⟨⟨cmd, answer⟩, hmem, hvisible⟩
  have hdecides : cmd = .inl ev.cmd := by
    cases cmd with
    | inl c => rw [← Option.some.inj hvisible]
    | inr credentials => exact absurd hvisible (by simp only [Core.Event.visible, reduceCtorEq,
        not_false_eq_true])
  exact ⟨th', hth', endpoint, human, hpresented,
    ⟨_, hmem, note, hdecides.trans (congrArg Sum.inl hcmd)⟩, rfl, hdecision⟩

/-- In every run over HTTP, a row that names a human was approved or denied, as
    its status says, by a request of that human: the dependency verified the token of
    this request, the token carries the scope, and this request asked the store for
    the decision. -/
theorem http_decided (jwt : Jwt) (environ : Environ) (d : Deployment)
    (sched : List (Core.Action (HttpCall jwt) Env)) :
    ∀ row ∈ (httpRun jwt environ d sched).world.approvals, ∀ decidedBy,
      row.decidedBy = some decidedBy →
        ∃ caller ∈ (httpRun jwt environ d sched).threads, ∃ endpoint human,
          Presented caller endpoint human ∧ DecidesAs row endpoint ∧
            TakesDecision caller row human ∧ "asante:approve" ∈ human.scopes ∧
            decidedBy = humanPrincipal human.issuer human.subject := by
  intro row hrow decidedBy hby
  rcases decision_presented hrow hby with
    ⟨caller, hcaller, endpoint, human, hpresented, hdecides, rfl, hdecision⟩
  exact ⟨caller, hcaller, endpoint, human, hpresented, decidesAs_of_decision hdecision, hdecides,
    List.contains_iff_mem.mp hdecision.1, human.principal⟩

/-- A development token with the scope to approve. -/
def plainManagerToken : PlainToken :=
  ⟨devClaims (fun _ => none) 0 "7f" "claire" { scope := "asante:operate asante:approve" },
    defaultDevJwtSecret, "HS256", [("typ", .str "at+jwt")]⟩

/-- The credit is approved by a human with the scope. -/
theorem http_decided_sample :
    ∃ row ∈ (httpRun plainJwt (fun _ => none) .sample
        (tokenSchedule .granting plainManagerToken)).world.approvals,
      row.approvalId = "approval:7f" ∧ ∃ human : VerifiedHuman,
        "asante:approve" ∈ human.scopes ∧
          row.decidedBy = some (humanPrincipal human.issuer human.subject) := by
  have hrows : ((httpRun plainJwt (fun _ => none) .sample
      (tokenSchedule .granting plainManagerToken)).world.approvals.any fun row =>
        row.approvalId = "approval:7f" && row.decidedBy.isSome) = true := by
    decide +kernel
  rcases List.any_eq_true.mp hrows with ⟨row, hrow, hboth⟩
  rcases Bool.and_eq_true_iff.mp hboth with ⟨hid, hsome⟩
  rcases Option.isSome_iff_exists.mp hsome with ⟨decidedBy, hby⟩
  rcases http_decided plainJwt (fun _ => none) .sample _ row hrow decidedBy hby with
    ⟨-, -, -, human, -, -, -, hscope, rfl⟩
  exact ⟨row, hrow, of_decide_eq_true hid, human, hscope, hby⟩

/-- The token was made for development, with what `create_dev_access_token` does
    by default but for the subject, the client and the lifetime. -/
def DefaultScope (jwt : Jwt) (environ : Environ) (token : jwt.Token) : Prop :=
  ∃ now uuid subject options, options.secret = none ∧ options.scope = "asante:operate" ∧
    createDevAccessToken jwt environ now uuid subject options = .ok token

/-- The provenance of the application, in a run over HTTP. -/
theorem http_provenance (jwt : Jwt) (environ : Environ) (d : Deployment)
    (sched : List (Core.Action (HttpCall jwt) Env)) :
    ∃ T, Provenance T d (httpRun jwt environ d sched).world := by
  rcases Core.layer_run (httpLayer jwt environ d) World.empty sched with
    ⟨lower, place, hfollows, -⟩
  have hworld : (appRun d lower).world = (httpRun jwt environ d sched).world := hfollows.world
  exact ⟨_, hworld ▸ (open_sound d lower).world⟩

/-- Where Ruhusa follows the listed policies, what the direct tool writes is small. -/
theorem http_direct_small (jwt : Jwt) (environ : Environ) (d : Deployment)
    (sched : List (Core.Action (HttpCall jwt) Env))
    (hpolicy : ∀ i env, .advance i env ∈ sched → env.Follows (policyRules d.trustDomain))
    {wr : Write} (hwr : wr ∈ (httpRun jwt environ d sched).world.writes) {taskId : String}
    (hwriter : wr.writer = .issueCredit taskId) :
    0 < wr.credit.amount ∧ wr.credit.amount ≤ 25 := by
  rcases Core.layer_run (httpLayer jwt environ d) World.empty sched with
    ⟨lower, place, hfollows, hfrom⟩
  have hworld : (appRun d lower).world = (httpRun jwt environ d sched).world := hfollows.world
  rw [← hworld] at hwr
  have hprov := policy_provenance d lower (fun _ _ => True) (fun _ _ _ _ _ => trivial)
    fun j env hmem => by
      rcases hfrom j env hmem with ⟨i, env', hmem', rfl⟩
      exact hpolicy i _ hmem'
  have hok := hprov.writes wr hwr
  rw [hwriter] at hok
  exact hok

/-- In every run over HTTP in which all tokens are development tokens of the
    default scope: whatever is asked for stays pending, and the ledger holds credits
    of the direct tool only, which are small where Ruhusa follows the listed
    policies. -/
theorem default_scope_undecided (jwt : Jwt) (environ : Environ)
    (hmode : lower (strip ((environ "ASANTE_AUTH_MODE").getD defaultAuthMode)) = "dev")
    (hjwt : jwt.RoundTrips (devKey environ jwt)) (d : Deployment)
    (sched : List (Core.Action (HttpCall jwt) Env))
    (hdefault : ∀ scheme token endpoint,
      .spawn (.request (some ⟨scheme, token⟩) endpoint) ∈ sched → DefaultScope jwt environ token) :
    (∀ row ∈ (httpRun jwt environ d sched).world.approvals, row.status = .pending) ∧
      (httpRun jwt environ d sched).world.ledger.entries =
        (httpRun jwt environ d sched).world.writes.map (·.credit) ∧
      ∀ wr ∈ (httpRun jwt environ d sched).world.writes,
        (∃ taskId, wr.writer = .issueCredit taskId) ∧
          ((∀ i env, .advance i env ∈ sched → env.Follows (policyRules d.trustDomain)) →
            0 < wr.credit.amount ∧ wr.credit.amount ≤ 25) := by
  rcases http_provenance jwt environ d sched with ⟨T, hprov⟩
  have hpending : ∀ row ∈ (httpRun jwt environ d sched).world.approvals,
      row.status = .pending := by
    intro row hrow
    rcases hby : row.decidedBy with _ | decidedBy
    · have hconsistent := (hprov.table.rows row hrow).decidedBy
      rw [hby] at hconsistent
      exact not_not.mp fun hne => Bool.noConfusion (hconsistent.mpr hne)
    · rcases decision_presented hrow hby with
        ⟨caller, hcaller, endpoint, human, hpresented, -, -, hdecision⟩
      rcases presented_verified hcaller hpresented with
        ⟨credentials, hspawned, i, env, -, hverified⟩
      rcases require_verified hverified with ⟨⟨scheme, token⟩, -, rfl, -⟩
      rcases hdefault scheme token endpoint hspawned with
        ⟨now, uuid, subject, options, hsecret, hscope, hcreated⟩
      -- The scopes of the human who decided are those of the token.
      have hscopes := require_dev_scopes hmode hjwt hsecret hcreated hverified
      rw [hscope] at hscopes
      have hno : ((splitWords "asante:operate").dedup).contains "asante:approve" = false := by
        decide +kernel
      rw [← hscopes, hdecision.1] at hno
      exact absurd hno Bool.noConfusion
  refine ⟨hpending, ledgered_entries hprov.ledgered, fun wr hwr => ?_⟩
  have hok := hprov.writes wr hwr
  rcases hwriter : wr.writer with taskId | approvalId
  · exact ⟨⟨taskId, rfl⟩, fun hpolicy =>
      http_direct_small jwt environ d sched hpolicy hwr hwriter⟩
  · -- A credit of the executor is backed by a row that was approved.
    rw [hwriter] at hok
    rcases hok with ⟨row, hrow, hbacks⟩
    rcases hbacks.granted with happroved | hexecuted
    · rw [hpending row hrow] at happroved
      exact absurd happroved ApprovalStatus.noConfusion
    · rw [hpending row hrow] at hexecuted
      exact absurd hexecuted ApprovalStatus.noConfusion

/-- The run of the agents, the approval of its credit, and a small credit issued
    directly. -/
def defaultSchedule : List (Core.Action (HttpCall plainJwt) Env) :=
  tokenSchedule .byPolicy (plainDevToken "claire") ++
    .spawn (.request (some ⟨"Bearer", plainDevToken "claire"⟩)
      (.devIssueCredit "R-3001" 20 "late check-in")) ::
    List.replicate 13 (.advance 3 .byPolicy)

/-- The credit that was asked for is still to be decided, and the one that was
    issued is small. -/
theorem default_scope_undecided_sample :
    (∃ row ∈ (httpRun plainJwt (fun _ => none) .sample defaultSchedule).world.approvals,
      row.approvalId = "approval:7f" ∧ row.status = .pending) ∧
      ∃ wr ∈ (httpRun plainJwt (fun _ => none) .sample defaultSchedule).world.writes,
        (∃ taskId, wr.writer = .issueCredit taskId) ∧ 0 < wr.credit.amount ∧
          wr.credit.amount ≤ 25 := by
  have hrows : ((httpRun plainJwt (fun _ => none) .sample
      defaultSchedule).world.approvals.any fun row => row.approvalId = "approval:7f") = true := by
    decide +kernel
  have hwrites : (httpRun plainJwt (fun _ => none) .sample defaultSchedule).world.writes.any
      (fun _ => true) = true := by
    decide +kernel
  rcases List.any_eq_true.mp hrows with ⟨row, hrow, hid⟩
  rcases List.any_eq_true.mp hwrites with ⟨wr, hwr, -⟩
  -- All requests carry the one token.
  have htokens : ∀ scheme token endpoint,
      .spawn (.request (some ⟨scheme, token⟩) endpoint) ∈ defaultSchedule →
        token = plainDevToken "claire" := by
    intro scheme token endpoint hmem
    simp only [defaultSchedule, tokenSchedule, List.cons_append, List.mem_append, List.mem_cons,
      List.mem_replicate, Core.Action.spawn.injEq, HttpCall.request.injEq, Option.some.injEq,
      reduceCtorEq, and_false, or_false, false_or] at hmem
    rcases hmem with ⟨hsame, -⟩ | ⟨hsame, -⟩ | ⟨hsame, -⟩
    · exact (Credentials.mk.inj hsame).2
    · exact (Credentials.mk.inj hsame).2
    · exact (Credentials.mk.inj hsame).2
  have hpolicy : ∀ i env, .advance i env ∈ defaultSchedule →
      env.Follows (policyRules Deployment.sample.trustDomain) := by
    intro i env hmem
    have henv : env = .byPolicy := by
      simp only [defaultSchedule, tokenSchedule, List.cons_append, List.mem_append, List.mem_cons,
        List.mem_replicate, reduceCtorEq, Core.Action.advance.injEq, false_or] at hmem
      rcases hmem with ((⟨-, -, rfl⟩ | ⟨-, -, rfl⟩) | ⟨-, -, rfl⟩) | ⟨-, -, rfl⟩ <;> rfl
    exact henv ▸ byPolicy_follows
  rcases default_scope_undecided plainJwt (fun _ => none) (by decide +kernel)
    (plainJwt_roundTrips _) .sample defaultSchedule fun scheme token endpoint hmem => by
      rw [htokens scheme token endpoint hmem]
      exact ⟨0, "7f", "claire", {}, rfl, rfl, rfl⟩ with ⟨hpending, -, hdirect⟩
  exact ⟨⟨row, hrow, of_decide_eq_true hid, hpending row hrow⟩, wr, hwr, (hdirect wr hwr).1,
    (hdirect wr hwr).2 hpolicy⟩

/-- If every event of a run leaves the world as it is, so does the run. -/
theorem passive_world (d : Deployment) (sched : List (Core.Action AppCall Env))
    (h : ∀ th ∈ (appRun d sched).threads, ∀ ev ∈ th.trace, Passive ev) :
    (appRun d sched).world = World.empty := by
  have hkept := Core.exec_invariant perform (AppCall.code d)
    (fun cfg => (∀ i ev, (i, ev) ∈ cfg.history → Passive ev) → cfg.world = World.empty)
    (fun cfg t hcfg hpassive => hcfg hpassive) (fun cfg i env t c k tr hget hcfg hpassive => ?_)
    sched (Core.Config.start World.empty) fun _ => rfl
  · refine hkept fun i ev hev => ?_
    rcases (Core.exec_events perform (AppCall.code d) World.empty sched i ev).mp hev with
      ⟨th, hget, hmem⟩
    exact h th (List.mem_of_getElem? hget) ev hmem
  · rw [Core.act_advance_call perform (AppCall.code d) env hget] at hpassive ⊢
    -- The last event changed nothing, and neither did those before it.
    rw [(hpassive i _ (List.mem_append_right _ (List.mem_singleton.mpr rfl))).2 env cfg.world]
    exact hcfg fun j ev hev => hpassive j ev (List.mem_append_left _ hev)

/-- In every run over HTTP in which the dependency verifies no request, whatever is
    sent to the endpoints and whatever MCP calls are made, the world stays as it
    was. -/
theorem http_unverified (jwt : Jwt) (environ : Environ) (d : Deployment)
    (sched : List (Core.Action (HttpCall jwt) Env))
    (hnone : ∀ th ∈ (httpRun jwt environ d sched).threads, ∀ endpoint human,
      ¬ Presented th endpoint human) :
    (httpRun jwt environ d sched).world = World.empty := by
  rcases Core.layer_run (httpLayer jwt environ d) World.empty sched with
    ⟨lower, place, hfollows, -⟩
  have hworld : (appRun d lower).world = (httpRun jwt environ d sched).world := hfollows.world
  rw [← hworld]
  -- Nobody is the operator of a call, so no MCP call finds a run.
  have hanonymous : ∀ th ∈ (appRun d lower).threads, th.call.operator? = none := by
    intro th hth
    rcases hoperator : th.call.operator? with _ | operator
    · rfl
    · rcases operator_presented hfollows hth hoperator with
        ⟨th', hth', endpoint, human, hpresented, -, -, -⟩
      exact absurd hpresented (hnone th' hth' endpoint human)
  refine passive_world d lower fun th hth ev hev => ?_
  rcases th with ⟨call, p, tr⟩
  cases call with
  | mcp tool metadata =>
      have hwalk := Core.exec_walks perform (AppCall.code d) World.empty lower _ hth
      rcases mcp_shape d tool metadata hwalk with hrefused | ⟨context, hresolves⟩
      · exact hrefused.passive ev hev
      · rcases List.mem_iff_getElem?.mp hth with ⟨i, hget⟩
        rcases resolves_dispatched d lower hget hresolves with ⟨j, operator, pre, hdispatched⟩
        rcases hdispatched.run with ⟨runner, message, hrunner, hcall⟩
        have hnobody := hanonymous runner (List.mem_of_getElem? hrunner)
        rw [hcall] at hnobody
        exact absurd hnobody (by simp only [AppCall.operator?, reduceCtorEq, not_false_eq_true])
  | _ => exact absurd (hanonymous _ hth) (by simp only [AppCall.operator?, reduceCtorEq,
      not_false_eq_true])

/-- A request without a token, and an MCP call for a task nobody has started. -/
def anonymousSchedule : List (Core.Action (HttpCall plainJwt) Env) :=
  .spawn (.request none (.runAgent "the room is too hot")) ::
    List.replicate 4 (.advance 0 .granting)
    ++ .spawn (.mcp (.issueGuestCredit "R-3001" 25 "late check-in")
      [(asanteTaskMetaKey, .str "7f"), (asanteWorkloadMetaKey, .str "service-recovery")]) ::
    List.replicate 4 (.advance 1 .granting)

/-- Neither call does anything. -/
theorem http_unverified_sample :
    (httpRun plainJwt (fun _ => none) .sample anonymousSchedule).world = World.empty := by
  refine http_unverified plainJwt (fun _ => none) .sample anonymousSchedule ?_
  intro th hth endpoint human hpresented
  rcases presented_verified hth hpresented with ⟨credentials, hmem, i, env, -, hverified⟩
  have hcredentials : credentials = none := by
    simp only [anonymousSchedule, List.cons_append, List.mem_append, List.mem_cons,
      List.mem_replicate, Core.Action.spawn.injEq, HttpCall.request.injEq, reduceCtorEq, and_false,
      or_false] at hmem
    exact hmem.1
  rcases require_verified hverified with ⟨presented, verifier, hpresented, -⟩
  rw [hcredentials] at hpresented
  exact absurd hpresented (by simp only [reduceCtorEq, not_false_eq_true])

end Asante
