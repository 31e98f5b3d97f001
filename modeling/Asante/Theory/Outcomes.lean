import Asante.Theory.Decisions

/-!
# Outcomes of Application Runs

What every run of the application guarantees about its credits, from a state
with nothing recorded: any number of calls of any entry points, with their
commands interleaved in any order, whatever the providers do.

The results differ in what they assume. That each credit has its provenance
assumes that Ruhusa allows only what the listed policies allow. That an
approval is executed at most once, and never after a denial, assumes nothing.

## Main definitions

* `appRun`: A run of the application.
* `Env.byPolicy`, `approveSchedule`: A run to evaluate.
* `Env.Follows`: Ruhusa allows only what a list of rules allows.
* `policyTerms`, `openTerms`: The terms of the two results.
* `approvedWrites`: The credits under the key of an approval.

## Theorems

* `app_sound`: Provenance holds throughout a run.
* `credit_provenance`: Every credit was small, or requested and approved.
* `approval_agreement`: One execution at most, none after a denial.
-/

namespace Asante

open Core.Prog Core.KeyedLog

/-- A run of the application from a world with nothing recorded. -/
def appRun (d : Deployment) (sched : List (Core.Action AppCall Env)) :
    Core.Config AppCall Cmd Cmd.Answer Exc Response World :=
  (Core.Config.start World.empty).exec perform (AppCall.code d) sched

theorem provenance_empty (T : Terms) (d : Deployment) (hlive : ∀ approvalId, ¬ T.live approvalId) :
    Provenance T d World.empty where
  ledgered := ⟨tracks_empty, fun _ hwr => absurd hwr List.not_mem_nil⟩
  table := wellFormed_nil
  writes := fun _ hwr => absurd hwr List.not_mem_nil
  rows := fun _ hrow => absurd hrow List.not_mem_nil
  live := fun approvalId ha => absurd ha (hlive approvalId)

/-- When no approval is to stay live, only who approves has to be one who may. -/
theorem mayCall_of_dead {T : Terms} (hdead : ∀ approvalId, ¬ T.live approvalId) {call : AppCall}
    (happrover : ∀ operator approvalId note, call = .approve operator approvalId note →
      operator.scopes.contains "asante:approve" = true →
        T.approver approvalId operator.principalId) : MayCall T call := by
  cases call with
  | approve operator approvalId note =>
      exact ⟨happrover operator approvalId note rfl, fun h => absurd h (hdead approvalId)⟩
  | deny operator approvalId note => exact hdead approvalId
  | _ => trivial

/-- Provenance holds throughout a run whose calls and environments are within
    the terms. -/
theorem app_sound (T : Terms) (d : Deployment) {w : World} (hw : Provenance T d w)
    (sched : List (Core.Action AppCall Env))
    (hs : (provenanceDiscipline T d).sys.Conforms (MayCall T) (AppCall.code d)
      (Core.Config.start w) sched) :
    (provenanceDiscipline T d).sys.Sound (MayCall T) (AppPost T)
        ((Core.Config.start w).exec perform (AppCall.code d) sched) ∧
      Grows w ((Core.Config.start w).exec perform (AppCall.code d) sched).world :=
  (provenanceDiscipline T d).sys.exec_sound (appPost_stable T d) (app_safe T d) sched _
    ((provenanceDiscipline T d).sys.start_sound hw) hs

/-- Ruhusa allows a request at either check only if the first of the rules that
    matches it allows it. -/
structure Env.Follows (env : Env) (rules : List PolicyRule) : Prop where
  begin : ∀ req, (env.begin req).allowed = true → policyAllows rules req = true
  revalidate : ∀ req permit, (env.revalidate req permit).allowed = true →
    policyAllows rules req = true

/-- The terms when Ruhusa follows the listed policies. -/
def policyTerms (trustDomain : String) (approver : String → String → Prop) : Terms where
  direct amount := 0 < amount ∧ amount ≤ 25
  request amount := 25 < amount ∧ amount ≤ 100
  approver := approver
  live _ := False
  adm _ env _ := env.Follows (policyRules trustDomain)
  directAllowed req permit _ _ _ hadm hallowed haction hamount :=
    policyAllows_creditIssue (hadm.revalidate req permit hallowed) haction hamount
  requestAllowed req permit _ _ _ hadm hallowed haction hamount :=
    policyAllows_creditRequest (hadm.revalidate req permit hallowed) haction hamount
  smooth _ h := h.elim

/-- The provenance of a run in which Ruhusa follows the listed policies, with whoever
    has called for an approval as who may approve it. -/
theorem policy_provenance (d : Deployment) (sched : List (Core.Action AppCall Env))
    (approver : String → String → Prop)
    (happrover : ∀ operator approvalId note,
      Core.Action.spawn (.approve operator approvalId note) ∈ sched →
        operator.scopes.contains "asante:approve" = true →
        approver approvalId operator.principalId)
    (hpolicy : ∀ i env, Core.Action.advance i env ∈ sched →
      env.Follows (policyRules d.trustDomain)) :
    Provenance (policyTerms d.trustDomain approver) d (appRun d sched).world := by
  let T := policyTerms d.trustDomain approver
  have hcalls : ∀ call, Core.Action.spawn call ∈ sched → MayCall T call := by
    refine fun call hcall => mayCall_of_dead (fun _ => id)
      fun operator approvalId note heq hscope => happrover operator approvalId note ?_ hscope
    rw [← heq]
    exact hcall
  -- The terms ask the same of every state, so they hold in whatever order the steps come.
  exact (app_sound T d (provenance_empty T d fun _ => id) sched
    ((provenanceDiscipline T d).sys.conforms_of_forall
      (fun env => env.Follows (policyRules d.trustDomain)) (fun _ _ _ h => h) sched hcalls
      hpolicy _)).1.world

/-- In every run in which Ruhusa allows only what the listed policies allow,
    whatever else happens: the ledger is the writes, and each of them is a small
    credit of the direct tool, or a larger one of the executor for which the
    store holds a row that asked for it and was approved by a holder of the
    approval scope. -/
theorem credit_provenance (d : Deployment) (sched : List (Core.Action AppCall Env))
    (hpolicy : ∀ i env, Core.Action.advance i env ∈ sched →
      env.Follows (policyRules d.trustDomain)) :
    (appRun d sched).world.ledger.entries = (appRun d sched).world.writes.map (·.credit) ∧
    ∀ wr ∈ (appRun d sched).world.writes,
      (∃ taskId, wr.writer = .issueCredit taskId ∧ 0 < wr.credit.amount ∧
        wr.credit.amount ≤ 25) ∨
      (∃ approvalId, wr.writer = .approvedExecutor approvalId ∧ 25 < wr.credit.amount ∧
        wr.credit.amount ≤ 100 ∧
        ∃ row ∈ (appRun d sched).world.approvals, row.approvalId = approvalId ∧
          row.reservationId = wr.credit.reservationId ∧ row.amount = wr.credit.amount ∧
          (row.status = .approved ∨ row.status = .executed) ∧
          ∃ operator note, Core.Action.spawn (.approve operator approvalId note) ∈ sched ∧
            operator.scopes.contains "asante:approve" = true ∧
            row.decidedBy = some operator.principalId) := by
  -- Who may approve is who did call with the scope.
  let T := policyTerms d.trustDomain fun approvalId human => ∃ operator note,
    Core.Action.spawn (.approve operator approvalId note) ∈ sched ∧
      operator.scopes.contains "asante:approve" = true ∧ human = operator.principalId
  have hprov : Provenance T d (appRun d sched).world := by
    refine policy_provenance d sched _ (fun operator approvalId note hcall hscope => ?_) hpolicy
    exact ⟨operator, note, hcall, hscope, rfl⟩
  refine ⟨ledgered_entries hprov.ledgered, fun wr hwr => ?_⟩
  have hok := hprov.writes wr hwr
  rcases hwriter : wr.writer with taskId | approvalId
  · -- A direct credit is within the bounds its request was allowed with.
    rw [hwriter] at hok
    exact Or.inl ⟨taskId, rfl, hok.1, hok.2⟩
  · rw [hwriter] at hok
    rcases hok with ⟨row, hrow, hbacks⟩
    have hdue := hprov.rows row hrow
    have hamount : 25 < row.amount ∧ row.amount ≤ 100 := hdue.amount
    -- The backing row was asked for within its bounds, and decided by an approver.
    rcases hdue.approver hbacks.granted with
      ⟨human, hdecided, operator, note, hcall, hscope, hhuman⟩
    rw [hbacks.approvalId] at hcall
    rw [hhuman] at hdecided
    rw [hbacks.amount] at hamount
    exact Or.inr ⟨approvalId, rfl, hamount.1, hamount.2, row, hrow, hbacks.approvalId,
      hbacks.reservationId, hbacks.amount, hbacks.granted, operator, note, hcall, hscope, hdecided⟩

/-- A human who may approve. -/
def sampleApprover : AuthenticatedHuman :=
  { principalId := "oauth:https://dev.asante.local#claire", scopes := ["asante:approve"] }

/-- An outside in which Ruhusa answers as the listed policies do. -/
def Env.byPolicy : Env :=
  let effect : Request → DecisionEffect := fun req =>
    if policyAllows (policyRules Deployment.sample.trustDomain) req then .allow else .deny
  .answering effect effect

theorem byPolicy_follows : Env.byPolicy.Follows (policyRules Deployment.sample.trustDomain) := by
  have heffect : ∀ req, (if policyAllows (policyRules Deployment.sample.trustDomain) req
      then DecisionEffect.allow else .deny) = .allow →
      policyAllows (policyRules Deployment.sample.trustDomain) req = true := by
    intro req h
    by_contra hno
    rw [if_neg hno] at h
    exact DecisionEffect.noConfusion h
  exact ⟨fun req h => heffect req (of_decide_eq_true h),
    fun req _ h => heffect req (of_decide_eq_true h)⟩

/-- A run in which the agents of a task ask for a credit of 40. -/
def requestSchedule (env : Env) : List (Core.Action AppCall Env) :=
  .spawn (.runAgent sampleApprover "the room is too hot") :: List.replicate 28 (.advance 0 env) ++
    .spawn (.mcp (.requestGuestCredit "R-3001" 40 "broken air conditioning")
      [(asanteTaskMetaKey, .str "7f"), (asanteWorkloadMetaKey, .str "service-recovery")]) ::
    List.replicate 8 (.advance 1 env)

/-- A human approves what the agents asked for, and it is executed. -/
def approveSchedule (env : Env) : List (Core.Action AppCall Env) :=
  requestSchedule env ++ .spawn (.approve sampleApprover "approval:7f" none) ::
    List.replicate 16 (.advance 2 env)

theorem credit_provenance_sample :
    (appRun .sample (approveSchedule .byPolicy)).world.writes.map (·.credit.amount) = [40] ∧
    ∀ wr ∈ (appRun .sample (approveSchedule .byPolicy)).world.writes,
      0 < wr.credit.amount ∧ wr.credit.amount ≤ 100 := by
  have hpolicy : ∀ i env, Core.Action.advance i env ∈ approveSchedule .byPolicy →
      env.Follows (policyRules Deployment.sample.trustDomain) := by
    intro i env hmem
    have hcases : i = 0 ∧ env = .byPolicy ∨ i = 1 ∧ env = .byPolicy ∨ i = 2 ∧ env = .byPolicy := by
      simpa [approveSchedule, requestSchedule] using hmem
    rcases hcases with ⟨_, rfl⟩ | ⟨_, rfl⟩ | ⟨_, rfl⟩
    · exact byPolicy_follows
    · exact byPolicy_follows
    · exact byPolicy_follows
  refine ⟨by decide +kernel, fun wr hwr => ?_⟩
  rcases (credit_provenance .sample (approveSchedule .byPolicy) hpolicy).2 wr hwr with
    ⟨_, _, hpos, hle⟩ | ⟨_, _, hlow, hhigh, _⟩
  · exact ⟨hpos, hle.trans (by decide +kernel)⟩
  · exact ⟨lt_trans (by decide +kernel) hlow, hhigh⟩

/-- The terms that assume nothing. -/
def openTerms : Terms where
  direct _ := True
  request _ := True
  approver _ _ := True
  live _ := False
  adm _ _ _ := True
  directAllowed _ _ _ _ _ _ _ _ _ := trivial
  requestAllowed _ _ _ _ _ _ _ _ _ := trivial
  smooth _ h := h.elim

/-- The credits under the key of an approval. -/
def approvedWrites (w : World) (approvalId : String) : List Write :=
  w.writes.filter fun wr => wr.key = some (approvedCreditKey approvalId)

section Approved

variable {T : Terms} {d : Deployment} {w : World}

theorem approvedWrites_le_one (h : Provenance T d w) (approvalId : String) :
    (approvedWrites w approvalId).length ≤ 1 :=
  filter_le_one h.ledgered _ (approvedCreditKey approvalId) fun _ _ hkey => of_decide_eq_true hkey

/-- A credit under the key of an approval is backed by its row. -/
theorem approvedWrites_backed (h : Provenance T d w) {approvalId : String} {wr : Write}
    (hwr : wr ∈ approvedWrites w approvalId) :
    ∃ row ∈ w.approvals, Backs row approvalId wr.credit := by
  rcases List.mem_filter.mp hwr with ⟨hmem, hkey⟩
  -- Only the executor of the approval writes under its key.
  have hwriter := writer_of_approvedKey h.ledgered hmem (of_decide_eq_true hkey)
  have hok := h.writes wr hmem
  rwa [hwriter] at hok

/-- A row is not both granted and denied. -/
theorem granted_not_denied (h : Provenance T d w) {row other : ApprovalRow}
    (hrow : row ∈ w.approvals) (hother : other ∈ w.approvals)
    (hid : row.approvalId = other.approvalId) (hgranted : row.Granted)
    (hdenied : other.status = .denied) : False := by
  rw [eq_of_id h.table.ids hrow hother hid] at hgranted
  rcases hgranted with hs | hs
  · rw [hdenied] at hs
    exact ApprovalStatus.noConfusion hs
  · rw [hdenied] at hs
    exact ApprovalStatus.noConfusion hs

end Approved

theorem mayCall_open (call : AppCall) : MayCall openTerms call :=
  mayCall_of_dead (fun _ => id) fun _ _ _ _ _ => trivial

theorem open_sound (d : Deployment) (sched : List (Core.Action AppCall Env)) :
    (provenanceDiscipline openTerms d).sys.Sound (MayCall openTerms) (AppPost openTerms)
      (appRun d sched) :=
  (app_sound openTerms d (provenance_empty openTerms d fun _ => id) sched
    ((provenanceDiscipline openTerms d).sys.conforms_of_forall (fun _ => True)
      (fun _ _ _ h => h) sched (fun call _ => mayCall_open call) (fun _ _ _ => trivial) _)).1

/-- In every run, whatever Ruhusa answers and whatever fails: there is at most
    one credit under the key of an approval; once a denial has succeeded there
    is none and no approval succeeds; and an executed row has its one credit,
    with its reservation and amount. -/
theorem approval_agreement (d : Deployment) (sched : List (Core.Action AppCall Env))
    (approvalId : String) :
    (approvedWrites (appRun d sched).world approvalId).length ≤ 1 ∧
    (∀ th ∈ (appRun d sched).threads, ∀ operator note resp,
      th.call = .deny operator approvalId note → th.rest = done resp →
      approvedWrites (appRun d sched).world approvalId = [] ∧
      ∀ th' ∈ (appRun d sched).threads, ∀ operator' note' resp',
        th'.call = .approve operator' approvalId note' → th'.rest ≠ done resp') ∧
    (∀ row ∈ (appRun d sched).world.approvals, row.approvalId = approvalId →
      row.status = .executed →
      ∃ wr, approvedWrites (appRun d sched).world approvalId = [wr] ∧
        wr.credit.reservationId = row.reservationId ∧ wr.credit.amount = row.amount) ∧
    (appRun d sched).world.ledger.entries = (appRun d sched).world.writes.map (·.credit) := by
  have hsound := open_sound d sched
  have hprov : Provenance openTerms d (appRun d sched).world := hsound.world
  refine ⟨approvedWrites_le_one hprov approvalId, ?_, ?_, ledgered_entries hprov.ledgered⟩
  · intro th hth operator note resp hcall hrest
    have hpost := (hsound.threads th hth).2
    rw [hrest, hcall] at hpost
    rcases hpost with ⟨row, hrow, hid, hdenied⟩
    refine ⟨List.eq_nil_iff_forall_not_mem.mpr fun wr hwr => ?_, ?_⟩
    · -- A credit would be backed by a granted row, and the row is denied.
      rcases approvedWrites_backed hprov hwr with ⟨backing, hbacking, hbacks⟩
      exact granted_not_denied hprov hbacking hrow (hbacks.approvalId.trans hid.symm)
        hbacks.granted hdenied
    · -- A successful approval left a granted row under the same identifier.
      intro th' hth' operator' note' resp' hcall' hrest'
      have hpost' := (hsound.threads th' hth').2
      rw [hrest', hcall'] at hpost'
      rcases hpost' with ⟨_, _, _, granted, hgranted, hgrantedId, hstatus, _⟩
      exact granted_not_denied hprov hgranted hrow (hgrantedId.trans hid.symm) hstatus hdenied
  · intro row hrow hid hexecuted
    rcases (hprov.rows row hrow).written hexecuted with ⟨wr, hwr, hwriter⟩
    -- The write of an executed row is under the approval's key, and there is only one.
    have hmem : wr ∈ approvedWrites (appRun d sched).world approvalId := by
      refine List.mem_filter.mpr ⟨hwr, decide_eq_true ?_⟩
      rw [hprov.ledgered.keyed wr hwr, hwriter, hid]
      rfl
    rcases approvedWrites_backed hprov hmem with ⟨backing, hbacking, hbacks⟩
    have hsame := eq_of_id hprov.table.ids hbacking hrow (hbacks.approvalId.trans hid.symm)
    rw [hsame] at hbacks
    refine ⟨wr, ?_, hbacks.reservationId.symm, hbacks.amount.symm⟩
    rcases List.length_eq_one_iff.mp (Nat.le_antisymm (approvedWrites_le_one hprov approvalId)
      (List.length_pos_of_mem hmem)) with ⟨only, honly⟩
    rw [honly] at hmem ⊢
    rw [List.mem_singleton.mp hmem]

end Asante
