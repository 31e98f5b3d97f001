import Mathlib.Data.List.Induction
import Asante.Theory.Authorization

/-!
# Issuing Delegations

What the issuing functions register and return.

The ten functions go through three constructions: a chain of two grants with one
scope for both, a chain of two with a limit for each, and a single grant for the
executor. Each checks its limits before the first registration, so it registers
the whole chain or nothing. `IssuedChain` is what all of them have in common, and
`issueCall_cases` is the one place where the functions are taken apart.

A chain of one issue is of no use elsewhere. Its grants carry one task and one
action, and Ruhusa asks every grant of a presented chain for the task and the
action of the request.

## Main definitions

* `IssueCall`, `IssueCall.code`: The issuing functions with their arguments.
* `Scope.Within`: A scope that allows no more than another.
* `Attenuated`: A chain that only ever narrows.
* `issueSession`: A sequence of issuing calls.
* `Undisclosed`: What an operation that is not admitted may answer.

## Theorems

* `issueCall_cases`: What an issuing call registers and returns.
* `issuance_attenuates`: Every call registers an attenuated chain or nothing,
  and so every grant of a store belongs to one.
* `chains_not_transferable`: A chain admits no operation of another action or
  task.
-/

namespace Asante

open Core.Prog

/-- A call of an issuing function. -/
inductive IssueCall where
  | reservations (task : TaskContext)
  | propertyOperations (task : TaskContext)
  | guestSupportMessage (task : TaskContext)
  | serviceRecovery (task : TaskContext) (supervisorLimit serviceRecoveryLimit : ℚ)
  | serviceRecoveryCreditRequest (task : TaskContext) (limit : ℚ)
  | approvalExecutor (task : TaskContext) (limit : ℚ)
  | guestSupport (task : TaskContext) (supervisorLimit guestSupportLimit : ℚ)
  | guestSupportReservation (task : TaskContext)
  | guestSupportCreditRequest (task : TaskContext) (limit : ℚ)
  | guestSupportService (task : TaskContext)

namespace IssueCall

/-- The program of a call. -/
def code (d : Deployment) : IssueCall → App (List DelegationGrant)
  | reservations task => issueReservationsDelegation d task
  | propertyOperations task => issuePropertyOperationsDelegation d task
  | guestSupportMessage task => issueGuestSupportMessageDelegation d task
  | serviceRecovery task supervisorLimit serviceRecoveryLimit =>
    issueServiceRecoveryDelegation d task supervisorLimit serviceRecoveryLimit
  | serviceRecoveryCreditRequest task limit =>
    issueServiceRecoveryCreditRequestDelegation d task limit
  | approvalExecutor task limit => issueApprovalExecutorDelegation d task limit
  | guestSupport task supervisorLimit guestSupportLimit =>
    issueGuestSupportDelegation d task supervisorLimit guestSupportLimit
  | guestSupportReservation task => issueGuestSupportReservationDelegation d task
  | guestSupportCreditRequest task limit => issueGuestSupportCreditRequestDelegation d task limit
  | guestSupportService task => issueGuestSupportServiceDelegation d task

def task : IssueCall → TaskContext
  | reservations task => task
  | propertyOperations task => task
  | guestSupportMessage task => task
  | serviceRecovery task _ _ => task
  | serviceRecoveryCreditRequest task _ => task
  | approvalExecutor task _ => task
  | guestSupport task _ _ => task
  | guestSupportReservation task => task
  | guestSupportCreditRequest task _ => task
  | guestSupportService task => task

/-- The workload the chain is meant for. -/
def workload : IssueCall → Workload
  | reservations _ => .reservations
  | propertyOperations _ => .propertyOperations
  | guestSupportMessage _ => .guestSupport
  | serviceRecovery _ _ _ => .serviceRecovery
  | serviceRecoveryCreditRequest _ _ => .serviceRecovery
  | approvalExecutor _ _ => .approvalExecutor
  | guestSupport _ _ _ => .serviceRecovery
  | guestSupportReservation _ => .reservations
  | guestSupportCreditRequest _ _ => .serviceRecovery
  | guestSupportService _ => .guestSupport

/-- The action the chain is meant for. -/
def action : IssueCall → String
  | reservations _ => "reservation.read"
  | propertyOperations _ => "maintenance.create"
  | guestSupportMessage _ => "guest.message.send"
  | serviceRecovery _ _ _ => "guest.credit.issue"
  | serviceRecoveryCreditRequest _ _ => "guest.credit.request"
  | approvalExecutor _ _ => "guest.credit.issue.approved"
  | guestSupport _ _ _ => "guest.credit.issue"
  | guestSupportReservation _ => "reservation.read"
  | guestSupportCreditRequest _ _ => "guest.credit.request"
  | guestSupportService _ => "guest.message.send"

/-- The longest a grant of the function lasts. -/
def cap : IssueCall → Int
  | approvalExecutor _ _ => minutes 10
  | _ => minutes 30

end IssueCall

/-- The child allows no more than the parent: its actions and prefixes are among
    the parent's, and it has a positive limit within the parent's wherever the
    parent has one. -/
structure Scope.Within (child parent : Scope) : Prop where
  actions : child.actions ⊆ parent.actions
  prefixes : child.resourcePrefixes ⊆ parent.resourcePrefixes
  limits : ∀ key bound, (key, bound) ∈ parent.maxNumericArguments →
    ∃ b, (key, b) ∈ child.maxNumericArguments ∧ 0 < b ∧ b ≤ bound

/-- The chain only ever narrows: it leads from the initiator of the task to the
    workload, every grant is of the task and ends with it and within the cap, and
    every scope allows no more than the one before it. -/
structure Attenuated (d : Deployment) (task : TaskContext) (workload : Workload) (now cap : Int)
    (chain : List DelegationGrant) : Prop where
  nonempty : chain ≠ []
  leads : linked task.initiatedBy chain (principalId d.trustDomain workload) = true
  sameTask : ∀ grant ∈ chain, grant.taskId = task.taskId
  expiry : ∀ grant ∈ chain, grant.expiresAt ≤ task.expiresAt ∧ grant.expiresAt ≤ now + cap
  narrowed : chain.IsChain fun parent child => child.scope.Within parent.scope

/-- What an issuing call did: it raised and registered nothing, or it registered
    and returned an attenuated chain of grants for its one action. -/
inductive IssuedChain (d : Deployment) (call : IssueCall) (now : Int) (w : World) :
    Except Exc (List DelegationGrant) → World → Prop where
  | raised (e : Exc) : IssuedChain d call now w (.error e) w
  | registered (chain : List DelegationGrant)
      (h : Attenuated d call.task call.workload now call.cap chain)
      (haction : ∀ grant ∈ chain, grant.scope.actions = [call.action]) :
      IssuedChain d call now w (.ok chain) { w with grants := w.grants ++ chain }

theorem actionScope_within (action : String) :
    (actionScope action).Within (actionScope action) where
  actions := fun _ h => h
  prefixes := fun _ h => h
  limits := fun _ _ h => absurd h List.not_mem_nil

/-- A scope of the action with a limit on the amount. -/
def limitScope (action : String) (limit : ℚ) : Scope :=
  { actionScope action with maxNumericArguments := [("amount", limit)] }

/-- A scope with a limit, and what its limit was checked for. -/
theorem limitedScope_cases (action message : String) (limit : ℚ) :
    (limit ≤ 0 ∧ limitedScope action message limit = .error (.valueError message)) ∨
      (0 < limit ∧ limitedScope action message limit = .ok (limitScope action limit)) := by
  unfold limitedScope
  by_cases hlimit : limit ≤ 0
  · exact Or.inl ⟨hlimit, if_pos hlimit⟩
  · exact Or.inr ⟨not_le.mp hlimit, if_neg hlimit⟩

theorem limited_within (action : String) {child parent : ℚ} (hpos : 0 < child)
    (hle : child ≤ parent) : (limitScope action child).Within (limitScope action parent) where
  actions := fun _ h => h
  prefixes := fun _ h => h
  limits := by
    intro key bound h
    rcases Prod.mk.inj (List.mem_singleton.mp h) with ⟨rfl, rfl⟩
    exact ⟨child, List.mem_singleton.mpr rfl, hpos, hle⟩

section Run

variable (d : Deployment) {envs : Nat → Env} (w : World)

/-- The two grants of a chain, both registered. -/
theorem run_issueChain (henvs : ∀ n, (envs n).fault = .none) (task : TaskContext)
    (workload : Workload) (rootScope childScope : Scope) : ∃ root child : DelegationGrant,
    (run perform (issueChain d task workload rootScope childScope) envs w).outcome =
        .ok [root, child] ∧
      (run perform (issueChain d task workload rootScope childScope) envs w).world =
        { w with grants := w.grants ++ [root, child] } ∧
      root.scope = rootScope ∧ child.scope = childScope ∧
      (childScope.Within rootScope →
        Attenuated d task workload (envs 0).now (minutes 30) [root, child]) := by
  unfold issueChain orRaise
  -- The clock and two identifiers, and then one registration after the other.
  rw [ask_bind]
  dsimp only [run, perform]
  rw [ask_bind]
  dsimp only [run, perform]
  rw [ask_bind]
  dsimp only [run, perform]
  rw [ask_bind, call_bind]
  dsimp only [run, perform]
  rw [henvs]
  dsimp only [Fault.apply, Core.Prog.ofExcept]
  rw [done_bind, ask_bind, call_bind]
  dsimp only [run, perform]
  rw [henvs]
  dsimp only [Fault.apply, Core.Prog.ofExcept]
  rw [done_bind]
  refine ⟨_, _, rfl, ?_, rfl, rfl, fun hwithin => ⟨List.cons_ne_nil _ _, ?_, ?_, ?_, ?_⟩⟩
  · rw [List.append_assoc]
    rfl
  · simp only [linked, decide_true, Bool.and_self]
  · intro grant hgrant
    rcases List.mem_pair.mp hgrant with rfl | rfl
    · rfl
    · rfl
  · intro grant hgrant
    rcases List.mem_pair.mp hgrant with rfl | rfl
    · exact ⟨min_le_left _ _, min_le_right _ _⟩
    · exact ⟨min_le_left _ _, min_le_right _ _⟩
  · exact .cons_cons hwithin (.singleton _)

/-- A call that goes through the chain of two grants. -/
theorem issued_chain (henvs : ∀ n, (envs n).fault = .none) {call : IssueCall}
    {rootScope childScope : Scope}
    (hcode : call.code d = issueChain d call.task call.workload rootScope childScope)
    (hcap : call.cap = minutes 30) (hwithin : childScope.Within rootScope)
    (hroot : rootScope.actions = [call.action]) (hchild : childScope.actions = [call.action]) :
    IssuedChain d call (envs 0).now w (run perform (call.code d) envs w).outcome
      (run perform (call.code d) envs w).world := by
  rcases run_issueChain d w henvs call.task call.workload rootScope childScope with
    ⟨root, child, hout, hworld, hrootScope, hchildScope, hchain⟩
  rw [hcode, hout, hworld]
  refine .registered _ (hcap ▸ hchain hwithin) fun grant hgrant => ?_
  rcases List.mem_pair.mp hgrant with rfl | rfl
  · rw [hrootScope, hroot]
  · rw [hchildScope, hchild]

/-- A call that checks its limits first and does not get past them. -/
theorem issued_raised {call : IssueCall} {e : Exc} (hcode : call.code d = fail e) :
    IssuedChain d call (envs 0).now w (run perform (call.code d) envs w).outcome
      (run perform (call.code d) envs w).world := by
  rw [hcode]
  exact .raised e

/-- The delegation of the automatic credit raises, or both limits are positive, the
    specialist's is within the supervisor's, and a chain is issued with them. -/
theorem serviceRecovery_cases (task : TaskContext) (supervisorLimit limit : ℚ) :
    (∃ e, issueServiceRecoveryDelegation d task supervisorLimit limit = fail e) ∨
      (0 < limit ∧ limit ≤ supervisorLimit ∧
        issueServiceRecoveryDelegation d task supervisorLimit limit =
          issueChain d task .serviceRecovery (limitScope guestCreditAction supervisorLimit)
            (limitScope guestCreditAction limit)) := by
  unfold issueServiceRecoveryDelegation creditScope
  by_cases hlimits : supervisorLimit < limit
  · rw [if_pos hlimits]
    exact Or.inl ⟨_, rfl⟩
  · rw [if_neg hlimits]
    rcases limitedScope_cases guestCreditAction "delegation limit must be greater than zero"
      supervisorLimit with ⟨-, hroot⟩ | ⟨-, hroot⟩
    · rw [hroot]
      exact Or.inl ⟨_, rfl⟩
    · rcases limitedScope_cases guestCreditAction "delegation limit must be greater than zero"
        limit with ⟨-, hchild⟩ | ⟨hpos, hchild⟩
      · rw [hroot, hchild]
        exact Or.inl ⟨_, rfl⟩
      · rw [hroot, hchild]
        exact Or.inr ⟨hpos, not_lt.mp hlimits, rfl⟩

/-- The delegation of the credit request raises, or its limit is positive and a
    chain is issued with it. -/
theorem serviceRecoveryRequest_cases (task : TaskContext) (limit : ℚ) :
    (∃ e, issueServiceRecoveryCreditRequestDelegation d task limit = fail e) ∨
      (0 < limit ∧ issueServiceRecoveryCreditRequestDelegation d task limit =
        issueChain d task .serviceRecovery (limitScope guestCreditRequestAction limit)
          (limitScope guestCreditRequestAction limit)) := by
  unfold issueServiceRecoveryCreditRequestDelegation creditRequestScope
  rcases limitedScope_cases guestCreditRequestAction
    "approval request limit must be greater than zero" limit with ⟨-, hscope⟩ | ⟨hpos, hscope⟩
  · rw [hscope]
    exact Or.inl ⟨_, rfl⟩
  · rw [hscope]
    exact Or.inr ⟨hpos, rfl⟩

/-- The two limits of the automatic credit, whichever of its names is called. -/
theorem issued_credit (henvs : ∀ n, (envs n).fault = .none) {call : IssueCall}
    {supervisorLimit limit : ℚ} (hcode : call.code d =
      issueServiceRecoveryDelegation d call.task supervisorLimit limit)
    (hcap : call.cap = minutes 30) (hworkload : call.workload = .serviceRecovery)
    (haction : call.action = guestCreditAction) :
    IssuedChain d call (envs 0).now w (run perform (call.code d) envs w).outcome
      (run perform (call.code d) envs w).world := by
  rcases serviceRecovery_cases d call.task supervisorLimit limit with
    ⟨e, hraised⟩ | ⟨hpos, hle, hissued⟩
  · exact issued_raised d w (hcode.trans hraised)
  · rw [hissued, ← hworkload] at hcode
    exact issued_chain d w henvs hcode hcap (limited_within guestCreditAction hpos hle)
      (congrArg (fun action => [action]) haction.symm)
      (congrArg (fun action => [action]) haction.symm)

/-- The limit of the credit request, whichever of its names is called. -/
theorem issued_request (henvs : ∀ n, (envs n).fault = .none) {call : IssueCall} {limit : ℚ}
    (hcode : call.code d = issueServiceRecoveryCreditRequestDelegation d call.task limit)
    (hcap : call.cap = minutes 30) (hworkload : call.workload = .serviceRecovery)
    (haction : call.action = guestCreditRequestAction) :
    IssuedChain d call (envs 0).now w (run perform (call.code d) envs w).outcome
      (run perform (call.code d) envs w).world := by
  rcases serviceRecoveryRequest_cases d call.task limit with ⟨e, hraised⟩ | ⟨hpos, hissued⟩
  · exact issued_raised d w (hcode.trans hraised)
  · rw [hissued, ← hworkload] at hcode
    exact issued_chain d w henvs hcode hcap
      (limited_within guestCreditRequestAction hpos le_rfl)
      (congrArg (fun action => [action]) haction.symm)
      (congrArg (fun action => [action]) haction.symm)

/-- The single grant of the executor; the limit is checked after the clock and
    the identifier were drawn. -/
theorem run_issueExecutor (henvs : ∀ n, (envs n).fault = .none) (task : TaskContext) (limit : ℚ) :
    ((∃ e, (run perform (issueApprovalExecutorDelegation d task limit) envs w).outcome =
        .error e) ∧
      (run perform (issueApprovalExecutorDelegation d task limit) envs w).world = w) ∨
    ∃ grant : DelegationGrant,
      (run perform (issueApprovalExecutorDelegation d task limit) envs w).outcome =
          .ok [grant] ∧
        (run perform (issueApprovalExecutorDelegation d task limit) envs w).world =
          { w with grants := w.grants ++ [grant] } ∧
        grant.scope = limitScope approvedCreditAction limit ∧
        Attenuated d task .approvalExecutor (envs 0).now (minutes 10) [grant] := by
  unfold issueApprovalExecutorDelegation approvedCreditScope orRaise
  rw [ask_bind]
  dsimp only [run, perform]
  rw [ask_bind]
  dsimp only [run, perform]
  rcases limitedScope_cases approvedCreditAction
    "approved credit limit must be greater than zero" limit with ⟨-, hscope⟩ | ⟨-, hscope⟩
  · rw [hscope]
    exact Or.inl ⟨⟨_, rfl⟩, rfl⟩
  · rw [hscope]
    dsimp only [Core.Prog.ofExcept]
    rw [done_bind, ask_bind, call_bind]
    dsimp only [run, perform]
    rw [henvs]
    dsimp only [Fault.apply]
    rw [done_bind]
    refine Or.inr ⟨_, rfl, rfl, rfl, List.cons_ne_nil _ _, ?_, ?_, ?_, .singleton _⟩
    · simp only [linked, decide_true, Bool.and_self]
    · intro grant hgrant
      rw [List.mem_singleton.mp hgrant]
    · intro grant hgrant
      rw [List.mem_singleton.mp hgrant]
      exact ⟨min_le_left _ _, min_le_right _ _⟩

theorem issued_executor (henvs : ∀ n, (envs n).fault = .none) (task : TaskContext) (limit : ℚ) :
    IssuedChain d (.approvalExecutor task limit) (envs 0).now w
      (run perform (issueApprovalExecutorDelegation d task limit) envs w).outcome
      (run perform (issueApprovalExecutorDelegation d task limit) envs w).world := by
  rcases run_issueExecutor d w henvs task limit with
    ⟨⟨e, hout⟩, hworld⟩ | ⟨grant, hout, hworld, hscope, hchain⟩
  · rw [hout, hworld]
    exact .raised e
  · rw [hout, hworld]
    refine .registered _ hchain fun other hother => ?_
    rw [List.mem_singleton.mp hother, hscope]
    rfl

/-- What an issuing call registers and returns. -/
theorem issueCall_cases (henvs : ∀ n, (envs n).fault = .none) (call : IssueCall) :
    IssuedChain d call (envs 0).now w (run perform (call.code d) envs w).outcome
      (run perform (call.code d) envs w).world := by
  cases call with
  | reservations task =>
      exact issued_chain d w henvs rfl rfl (actionScope_within _) rfl rfl
  | propertyOperations task =>
      exact issued_chain d w henvs rfl rfl (actionScope_within _) rfl rfl
  | guestSupportMessage task =>
      exact issued_chain d w henvs rfl rfl (actionScope_within _) rfl rfl
  | serviceRecovery task supervisorLimit limit =>
      exact issued_credit d w henvs rfl rfl rfl rfl
  | serviceRecoveryCreditRequest task limit => exact issued_request d w henvs rfl rfl rfl rfl
  | approvalExecutor task limit => exact issued_executor d w henvs task limit
  -- The older names are the same functions.
  | guestSupport task supervisorLimit limit => exact issued_credit d w henvs rfl rfl rfl rfl
  | guestSupportReservation task =>
      exact issued_chain d w henvs rfl rfl (actionScope_within _) rfl rfl
  | guestSupportCreditRequest task limit => exact issued_request d w henvs rfl rfl rfl rfl
  | guestSupportService task =>
      exact issued_chain d w henvs rfl rfl (actionScope_within _) rfl rfl

end Run

/-- A sequence of issuing calls, each with the environments its commands meet. -/
def issueSession (d : Deployment) (calls : List (IssueCall × (Nat → Env))) (w : World) : World :=
  calls.foldl (fun v c => (run perform (c.1.code d) c.2 v).world) w

/-- Issuing only ever attenuates, and is all or nothing. A call raises and changes
    nothing, or it registers exactly the chain it returns, which only narrows; so
    after any sequence of calls on a store that held nothing, every grant of the
    store belongs to such a chain, all of which is in the store. -/
theorem issuance_attenuates (d : Deployment) (w : World)
    (calls : List (IssueCall × (Nat → Env)))
    (hcalls : ∀ c ∈ calls, ∀ n, (c.2 n).fault = .none) :
    (∀ c ∈ calls, ∀ v : World,
      (∃ e, (run perform (c.1.code d) c.2 v).outcome = .error e ∧
        (run perform (c.1.code d) c.2 v).world = v) ∨
      ∃ chain, (run perform (c.1.code d) c.2 v).outcome = .ok chain ∧
        (run perform (c.1.code d) c.2 v).world = { v with grants := v.grants ++ chain } ∧
        Attenuated d c.1.task c.1.workload (c.2 0).now c.1.cap chain) ∧
    ∀ grant ∈ (issueSession d calls { w with grants := [] }).grants,
      ∃ c ∈ calls, ∃ chain, grant ∈ chain ∧
        chain ⊆ (issueSession d calls { w with grants := [] }).grants ∧
        Attenuated d c.1.task c.1.workload (c.2 0).now c.1.cap chain := by
  have hcall : ∀ c ∈ calls, ∀ v : World,
      (∃ e, (run perform (c.1.code d) c.2 v).outcome = .error e ∧
        (run perform (c.1.code d) c.2 v).world = v) ∨
      ∃ chain, (run perform (c.1.code d) c.2 v).outcome = .ok chain ∧
        (run perform (c.1.code d) c.2 v).world = { v with grants := v.grants ++ chain } ∧
        Attenuated d c.1.task c.1.workload (c.2 0).now c.1.cap chain := by
    intro c hc v
    have hissued := issueCall_cases d v (hcalls c hc) c.1
    generalize (run perform (c.1.code d) c.2 v).outcome = outcome at hissued ⊢
    generalize (run perform (c.1.code d) c.2 v).world = world at hissued ⊢
    cases hissued with
    | raised e => exact Or.inl ⟨e, rfl, rfl⟩
    | registered chain h _ => exact Or.inr ⟨chain, rfl, rfl, h⟩
  refine ⟨hcall, ?_⟩
  induction calls using List.reverseRecOn with
  | nil => exact fun grant hgrant => absurd hgrant List.not_mem_nil
  | append_singleton calls c ih =>
      have hsnoc : issueSession d (calls ++ [c]) { w with grants := [] } =
          (run perform (c.1.code d) c.2 (issueSession d calls { w with grants := [] })).world := by
        rw [issueSession, List.foldl_append]
        rfl
      have hlast : c ∈ calls ++ [c] := List.mem_append_right _ (List.mem_singleton.mpr rfl)
      have hold := ih (fun c' hc' => hcalls c' (List.mem_append_left _ hc'))
        fun c' hc' => hcall c' (List.mem_append_left _ hc')
      rw [hsnoc]
      rcases hcall c hlast (issueSession d calls { w with grants := [] }) with
        ⟨e, -, hworld⟩ | ⟨chain, -, hworld, hchain⟩
      · rw [hworld]
        intro grant hgrant
        rcases hold grant hgrant with ⟨c', hc', hrest⟩
        exact ⟨c', List.mem_append_left _ hc', hrest⟩
      · rw [hworld]
        intro grant hgrant
        rcases List.mem_append.mp hgrant with hbefore | hnew
        · -- The grants that were there are still there, with their chains.
          rcases hold grant hbefore with ⟨c', hc', chain', hmem, hsub, hrest⟩
          exact ⟨c', List.mem_append_left _ hc', chain', hmem,
            fun g hg => List.mem_append_left _ (hsub hg), hrest⟩
        · exact ⟨c, hlast, chain, hnew, fun g hg => List.mem_append_right _ hg, hchain⟩

/-- An accepted and a refused call for a specialist, and the executor's. -/
def sampleIssues : List (IssueCall × (Nat → Env)) :=
  [(.serviceRecovery sampleTask 100 25, fun _ => .granting),
    (.serviceRecovery sampleTask 20 25, fun _ => .granting),
    (.approvalExecutor sampleTask 100, fun _ => .granting)]

theorem issuance_sample :
    (issueSession .sample sampleIssues { World.empty with grants := [] }).grants.length = 3 ∧
    ∀ grant ∈ (issueSession .sample sampleIssues { World.empty with grants := [] }).grants,
      ∃ c ∈ sampleIssues, ∃ chain, grant ∈ chain ∧
        chain ⊆ (issueSession .sample sampleIssues { World.empty with grants := [] }).grants ∧
        Attenuated .sample c.1.task c.1.workload (c.2 0).now c.1.cap chain := by
  refine ⟨by decide +kernel, (issuance_attenuates .sample World.empty sampleIssues ?_).2⟩
  intro c hc n
  simp only [sampleIssues, List.mem_cons, List.not_mem_nil, or_false] at hc
  rcases hc with rfl | rfl | rfl
  · rfl
  · rfl
  · rfl

/-- The action of the operation. -/
def ToolCall.action : ToolCall → String
  | issueCredit _ _ _ _ _ _ => "guest.credit.issue"
  | getReservation _ _ _ => "reservation.read"
  | createMaintenanceRequest _ _ _ _ _ _ => "maintenance.create"
  | sendGuestMessage _ _ _ _ => "guest.message.send"
  | requestGuestCredit _ _ _ _ _ => "guest.credit.request"
  | executeApproved _ _ _ => "guest.credit.issue.approved"

/-- The task the operation runs for. -/
def ToolCall.task : ToolCall → TaskContext
  | issueCredit _ _ _ _ task _ => task
  | getReservation _ task _ => task
  | createMaintenanceRequest _ _ _ _ task _ => task
  | sendGuestMessage _ _ task _ => task
  | requestGuestCredit _ _ _ task _ => task
  | executeApproved _ task _ => task

/-- The chain the operation presents. -/
def ToolCall.chain : ToolCall → List DelegationGrant
  | issueCredit _ _ _ _ _ chain => chain
  | getReservation _ _ chain => chain
  | createMaintenanceRequest _ _ _ _ _ chain => chain
  | sendGuestMessage _ _ _ chain => chain
  | requestGuestCredit _ _ _ _ chain => chain
  | executeApproved _ _ chain => chain

/-- A request carries the action, the task and the chain of its operation. -/
theorem request_carries (d : Deployment) (call : ToolCall) (now : Int) :
    (call.request d now).action = call.action ∧ (call.request d now).task = call.task ∧
      (call.request d now).delegationChain = call.chain := by
  cases call with
  | issueCredit retryPolicy reservationId amount reason task chain => exact ⟨rfl, rfl, rfl⟩
  | getReservation reservationId task chain => exact ⟨rfl, rfl, rfl⟩
  | createMaintenanceRequest reservationId category urgency description task chain =>
      exact ⟨rfl, rfl, rfl⟩
  | sendGuestMessage reservationId message task chain => exact ⟨rfl, rfl, rfl⟩
  | requestGuestCredit reservationId amount reason task chain => exact ⟨rfl, rfl, rfl⟩
  | executeApproved approval task chain => exact ⟨rfl, rfl, rfl⟩

/-- A request that is sanctioned with an issued chain is of the action and the
    task the chain was issued for. -/
theorem sanctioned_issued {d : Deployment} {registered : List DelegationGrant} {req : Request}
    (h : sanctioned d.trustDomain registered req = true) {call : IssueCall} {now : Int} {w : World}
    {w' : World} (hissued : IssuedChain d call now w (.ok req.delegationChain) w') :
    req.action = call.action ∧ req.task.taskId = call.task.taskId := by
  simp only [sanctioned, Bool.and_eq_true, List.all_eq_true, decide_eq_true_eq] at h
  generalize hchain : req.delegationChain = chain at hissued h
  cases hissued with
  | registered chain hatt haction =>
      rcases List.exists_mem_of_ne_nil chain hatt.nonempty with ⟨grant, hgrant⟩
      rcases h.2 grant hgrant with ⟨⟨-, htask⟩, hcontains⟩
      -- The scope of the grant contains the request's action, and has only one.
      simp only [Scope.contains, Bool.and_eq_true, List.contains_iff_mem, haction grant hgrant,
        List.mem_singleton] at hcontains
      exact ⟨hcontains.1.1, htask.symm.trans (hatt.sameTask grant hgrant)⟩

/-- An operation whose request is made and not allowed ends there. -/
theorem run_denied (submit : Int → Request) (body : Permit → Revalidation → App PyDict)
    {envs : Nat → Env} (w : World) (hcreate : (envs 1).create (submit (envs 0).now) = none)
    (h : ((envs 1).begin (submit (envs 0).now)).allowed = false) :
    (∃ effect reason, (run perform (secured submit body) envs w).outcome =
        .ok (blocked effect reason)) ∧
      (run perform (secured submit body) envs w).world = w ∧
      (run perform (secured submit body) envs w).trace =
        admissionTrace (envs 0).now (submit (envs 0).now)
          ((envs 1).begin (submit (envs 0).now)) := by
  have hnot : ¬ ((envs 1).begin (submit (envs 0).now)).allowed = true := by
    rw [h]
    exact Bool.false_ne_true
  unfold secured
  rw [ask_bind]
  dsimp only [run, perform]
  rw [admit_bind]
  dsimp only [run, perform]
  rw [Env.admission_ok.mpr ⟨hcreate, rfl⟩, ofExcept_ok, done_bind, if_neg hnot]
  exact ⟨⟨_, _, rfl⟩, rfl, rfl⟩

theorem replayExecuted_status (approval : ApprovalRecord) :
    (replayExecuted approval).get? "status" = some (.str "issued") := by
  have hsets : replayExecuted approval = (((approval.executionResult.getD []).set "status"
      (.str "issued")).set "approval_id" (.str approval.approvalId)).set "deduplicated"
      (.bool true) := rfl
  rw [hsets, PyDict.get?_set, if_neg (by decide), PyDict.get?_set, if_neg (by decide),
    PyDict.get?_set, if_pos rfl]

/-- What a call that Ruhusa does not admit answers with: nothing that was found and
    no reservation, or an error, where its key or its request could not be made. -/
def Undisclosed (d : Deployment) (call : ToolCall) (envs : Nat → Env) :
    Except Exc PyDict → Prop
  | .ok resp => resp.get? "status" ≠ some (.str "found") ∧
      (¬ call.Replays → resp.get? "reservation" = none)
  | .error e => call.keyError d = some e ∨ (envs 1).create (call.request d (envs 0).now) = some e

/-- An operation that Ruhusa does not admit is answered as blocked or raises before
    Ruhusa is asked, or it is the replay of an executed approval; in all cases
    nothing is asked further and nothing changes. -/
theorem run_unadmitted (d : Deployment) (call : ToolCall) {envs : Nat → Env} (w : World)
    (h : ((envs 1).begin (call.request d (envs 0).now)).allowed = false) :
    (∀ req permit, ¬ Admitted (run perform (call.code d) envs w).trace req permit) ∧
      (run perform (call.code d) envs w).world = w ∧
      Undisclosed d call envs (run perform (call.code d) envs w).outcome := by
  have hfound : ∀ s : String, s ≠ "found" → some (PyVal.str s) ≠ some (PyVal.str "found") :=
    fun s hs heq => hs (PyVal.str.inj (Option.some.inj heq))
  have hempty : ∀ req permit, ¬ Admitted [] req permit := by
    intro req permit hadm
    rcases admitted_begin hadm with ⟨adm, hmem, -⟩
    exact absurd hmem List.not_mem_nil
  by_cases hreplay : call.Replays
  · rcases replay_code d hreplay with ⟨approval, task, chain, -, hcode⟩
    rw [hcode]
    refine ⟨hempty, rfl, ?_, fun hno => absurd hreplay hno⟩
    rw [replayExecuted_status]
    exact hfound _ (by decide)
  · rcases code_shape d call hreplay with
      ⟨effect, reason, hcode⟩ | ⟨e, herror, hcode⟩ | ⟨body, hcode⟩
    · rw [hcode]
      exact ⟨hempty, rfl, hfound "blocked" (by decide), fun _ => rfl⟩
    · rw [hcode]
      exact ⟨hempty, rfl, Or.inl herror⟩
    · rw [hcode]
      rcases hcreate : (envs 1).create (call.request d (envs 0).now) with _ | e
      · rcases run_denied (call.request d) body w hcreate h with
          ⟨⟨effect, reason, hout⟩, hworld, htrace⟩
        rw [hout, hworld, htrace]
        refine ⟨fun req permit hadm => ?_, rfl, hfound "blocked" (by decide), fun _ => rfl⟩
        -- The one decision in the trace is the refusal.
        rcases admitted_begin hadm with ⟨adm, hmem, hallowed⟩
        rcases List.mem_cons.mp hmem with hnow | hbegin
        · cases hnow
        · cases List.mem_singleton.mp hbegin
          rw [h] at hallowed
          exact Bool.noConfusion hallowed
      · -- The factory raised, so Ruhusa was asked nothing.
        have hraised : refusal (call.request d) envs = some (.error e) := by
          unfold refusal
          dsimp only
          rw [Env.admission_error.mpr hcreate]
        rcases run_refused (call.request d) body (w := w) hraised with ⟨hout, hworld⟩
        rw [hout, hworld, run_uncreated (call.request d) body w hcreate]
        refine ⟨fun req permit hadm => ?_, rfl, Or.inr hcreate⟩
        rcases admitted_begin hadm with ⟨adm, hmem, -⟩
        rcases List.mem_cons.mp hmem with hnow | hbegin
        · cases hnow
        · cases List.mem_singleton.mp hbegin

/-- Chains are not transferable. Where Ruhusa allows only what is sanctioned, an
    operation that presents a chain issued for another action or another task is
    not admitted and changes nothing, and it does not disclose a reservation. -/
theorem chains_not_transferable (d : Deployment) (issue : IssueCall) (issueEnvs : Nat → Env)
    (hissue : ∀ n, (issueEnvs n).fault = .none) (v : World) (call : ToolCall)
    (hchain : (run perform (issue.code d) issueEnvs v).outcome = .ok call.chain)
    (hother : issue.action ≠ call.action ∨ issue.task.taskId ≠ call.task.taskId)
    (envs : Nat → Env) (w : World) (hruhusa : ∀ n req, ((envs n).begin req).allowed = true →
      sanctioned d.trustDomain w.grants req = true) :
    (∀ req permit, ¬ Admitted (run perform (call.code d) envs w).trace req permit) ∧
      (run perform (call.code d) envs w).world = w ∧
      Undisclosed d call envs (run perform (call.code d) envs w).outcome := by
  refine run_unadmitted d call w (Bool.eq_false_iff.mpr fun hallowed => ?_)
  rcases request_carries d call (envs 0).now with ⟨haction, htask, hpresented⟩
  have hissued := issueCall_cases d v hissue issue
  rw [hchain, ← hpresented] at hissued
  rcases sanctioned_issued (hruhusa _ _ hallowed) hissued with ⟨hsame, hsameTask⟩
  rcases hother with hne | hne
  · exact hne (hsame.symm.trans haction)
  · rw [htask] at hsameTask
    exact hne hsameTask.symm

/-- The chain a call issues when everything succeeds. -/
def IssueCall.sampleChain (call : IssueCall) : List DelegationGrant :=
  match (run perform (call.code .sample) (fun _ => .granting) World.empty).outcome with
  | .ok chain => chain
  | .error _ => []

/-- An outside in which Ruhusa allows exactly what is sanctioned. -/
def Env.sanctioning (registered : List DelegationGrant) : Env :=
  .answering (fun req => if sanctioned Deployment.sample.trustDomain registered req then .allow
    else .deny) fun _ => .allow

/-- The chain of the reservations specialist does not issue a credit. -/
theorem reservation_chain_not_transferable :
    (run perform (ToolCall.code .sample (.issueCredit Deployment.sample.retryPolicy "R-3001" 10
        "late check-in" sampleTask (IssueCall.reservations sampleTask).sampleChain))
      (fun _ => .sanctioning (IssueCall.reservations sampleTask).sampleChain)
      { World.empty with grants := (IssueCall.reservations sampleTask).sampleChain }).world =
    { World.empty with grants := (IssueCall.reservations sampleTask).sampleChain } := by
  refine (chains_not_transferable .sample (.reservations sampleTask) (fun _ => .granting)
    (fun _ => rfl) World.empty (.issueCredit Deployment.sample.retryPolicy "R-3001" 10
      "late check-in" sampleTask (IssueCall.reservations sampleTask).sampleChain) rfl
    (Or.inl (by decide)) _ _ fun _ req hallowed => ?_).2.1
  by_cases hsanctioned : sanctioned Deployment.sample.trustDomain
      (IssueCall.reservations sampleTask).sampleChain req = true
  · exact hsanctioned
  · simp only [Env.sanctioning, Env.answering, if_neg hsanctioned, reduceCtorEq,
      decide_false, Bool.false_eq_true] at hallowed

end Asante
