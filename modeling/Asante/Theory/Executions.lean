import Asante.Theory.Dispatch
import Asante.Theory.Decisions

/-!
# Executions of Approvals

What an approval call has done by the time it writes the credit, and by the time
it marks the row as executed.

Only approvals execute. A walk of one that has come to the ledger call has decided
the approval, opened a task for its caller, registered one grant from the caller,
and had Ruhusa admit and revalidate the executor's request with that task and that
grant. What it marks the row with is what the ledger answered, extended by the
policy that admitted it, and that is also what it returns.

## Main definitions

* `executing`: The commands of an execution.
* `Decides`: The record an approval call goes on with.
* `executionResult`: The result an execution is marked with.

## Theorems

* `walks_secured`: A secured operation has only asked, or was admitted.
* `walks_executeApproved`: The executor, from its first command on.
* `walks_approve`: An approval, up to the executor.
* `app_executes`: Only approvals execute.
-/

namespace Asante

open Core.Prog

/-- The ledger call of the executor, and the mark on the row. -/
def executing : Cmd → Bool
  | .ledgerIssue (.approvedExecutor _) _ _ => true
  | .markExecutedLocked _ _ => true
  | _ => false

/-- The command submits no request and executes nothing. -/
def Prepares (c : Cmd) : Prop :=
  executing c = false ∧ ∀ req, c ≠ .begin req

theorem background_prepares {c : Cmd} (h : background c = true) : Prepares c := by
  cases c with
  | begin req => exact absurd h Bool.noConfusion
  | ledgerIssue writer credit key => exact absurd h Bool.noConfusion
  | markExecutedLocked approvalId result => exact absurd h Bool.noConfusion
  | _ => exact ⟨rfl, fun _ => Cmd.noConfusion⟩

theorem executing_unprepared {c : Cmd} (h : executing c = true) : ¬ Prepares c := by
  rintro ⟨hno, -⟩
  rw [h] at hno
  exact Bool.noConfusion hno

theorem background_unexecuting {c : Cmd} (h : background c = true) : executing c = false :=
  (background_prepares h).1

theorem asking_unexecuting {c : Cmd} (h : asking c = true) : executing c = false := by
  cases c with
  | ledgerIssue writer credit key => exact absurd h Bool.noConfusion
  | markExecutedLocked approvalId result => exact absurd h Bool.noConfusion
  | _ => rfl

/-- The record the call goes on with, as the decision handed it on or as it was
    read again after the decision. -/
def Decides (tr : List AppEvent) (operator : AuthenticatedHuman) (approvalId : String)
    (note : Option String) (record : ApprovalRecord) : Prop :=
  ⟨.decideLocked approvalId true operator.principalId note, .ok (some record)⟩ ∈ tr ∨
    (⟨.decideLocked approvalId true operator.principalId note, .ok none⟩ ∈ tr ∧
      ⟨.requireRecord approvalId, .ok record⟩ ∈ tr)

/-- `{**provider_result, "approval_id": ..., "effect": "allow", "policy_id": ...}`. -/
def executionResult (approvalId : String) (providerResult : PyDict) (live : Revalidation) :
    PyDict :=
  providerResult.merge [("approval_id", .str approvalId), ("effect", .str "allow"),
    ("policy_id", optStr live.authorization.policyId)]

/-- The trace executes the record: after some preparation Ruhusa has admitted the
    executor's request for an approved record, the ledger call is the first thing
    done then, and all that may follow is to mark the row with the extended answer,
    which is also what is returned. -/
def Executing (d : Deployment) (record : ApprovalRecord) (task : TaskContext)
    (chain : List DelegationGrant) (t : List AppEvent) (o : Option (Except Exc PyDict)) : Prop :=
  record.status = .approved ∧ ∃ pre now adm permit live answer post,
    (∀ e ∈ pre, Prepares e.cmd) ∧
    adm.allowed = true ∧ adm.permit = some permit ∧ live.allowed = true ∧
    t = pre ++ (gateTrace now (approvedRequest d record task chain now) adm permit live ++
      ⟨.ledgerIssue (.approvedExecutor record.approvalId)
        ⟨record.reservationId, record.amount, record.reason⟩
        (some (approvedCreditKey record.approvalId)), answer⟩ :: post) ∧
    (∀ e ∈ post, executing e.cmd = true → ∃ resp, answer = .ok resp ∧
      e.cmd = .markExecutedLocked record.approvalId
        (executionResult record.approvalId resp live)) ∧
    ∀ out, o = some (.ok out) → ∃ resp, answer = .ok resp ∧
      out = executionResult record.approvalId resp live

section Walks

variable {d : Deployment} {t : List AppEvent}

/-- A secured operation has only asked so far, or Ruhusa has admitted its request
    and it is on its body. -/
theorem walks_secured {submit : Int → Request} {body : Permit → Revalidation → App PyDict}
    {q : App PyDict} (h : Walks (secured submit body) t q) :
    (∀ ev ∈ t, asking ev.cmd = true) ∨ ∃ now adm permit live rest,
      adm.allowed = true ∧ adm.permit = some permit ∧ live.allowed = true ∧
        t = gateTrace now (submit now) adm permit live ++ rest ∧
        Walks (body permit live) rest q := by
  unfold secured at h
  rw [ask_bind] at h
  cases h with
  | refl => exact Or.inl fun ev hev => absurd hev List.not_mem_nil
  | call _ _ now t _ h =>
      dsimp only at h
      rw [admit_bind] at h
      cases h with
      | refl =>
          refine Or.inl fun ev hev => ?_
          rw [List.mem_singleton.mp hev]
          rfl
      | call _ _ answer t _ h =>
          dsimp only at h
          -- A refusal ends the operation, and so far it has only asked.
          have hasked : (∀ ev ∈ t, asking ev.cmd = true) →
              ∀ ev ∈ (⟨.now, now⟩ :: ⟨.begin (submit now), answer⟩ :: t : List AppEvent),
                asking ev.cmd = true := by
            intro ht ev hev
            simp only [List.mem_cons] at hev
            rcases hev with rfl | rfl | hev
            · rfl
            · rfl
            · exact ht ev hev
          have hended : ∀ {resp : PyDict}, Walks (done resp : App PyDict) t q →
              ∀ ev ∈ t, asking ev.cmd = true := by
            intro resp hresp ev hev
            rw [(walks_done hresp).1] at hev
            exact absurd hev List.not_mem_nil
          rcases answer with e | adm
          · -- The factory raised, which ends the operation too.
            refine Or.inl (hasked fun ev hev => ?_)
            rw [(walks_fail h).1] at hev
            exact absurd hev List.not_mem_nil
          rw [ofExcept_ok, done_bind] at h
          by_cases hallowed : adm.allowed = true
          · rw [if_pos hallowed] at h
            rcases hpermit : adm.permit with _ | permit
            · rw [hpermit] at h
              exact Or.inl (hasked (hended h))
            · rw [hpermit] at h
              dsimp only at h
              rw [ask_bind] at h
              cases h with
              | refl => exact Or.inl (hasked fun ev hev => absurd hev List.not_mem_nil)
              | call _ _ live t _ h =>
                  dsimp only at h
                  by_cases hlive : live.allowed = true
                  · rw [if_pos hlive] at h
                    exact Or.inr ⟨now, adm, permit, live, t, hallowed, hpermit, hlive, rfl, h⟩
                  · rw [if_neg hlive] at h
                    refine Or.inl (hasked fun ev hev => ?_)
                    rw [(walks_done h).1] at hev
                    rw [List.mem_singleton.mp hev]
                    rfl
          · rw [if_neg hallowed] at h
            exact Or.inl (hasked (hended h))

theorem gateTrace_asking {now : Int} {req : Request} {adm : Admission} {permit : Permit}
    {live : Revalidation} {ev : AppEvent} (h : ev ∈ gateTrace now req adm permit live) :
    asking ev.cmd = true := by
  simp only [gateTrace, admissionTrace, List.cons_append, List.nil_append, List.mem_cons,
    List.not_mem_nil, or_false] at h
  rcases h with rfl | rfl | rfl
  · rfl
  · rfl
  · rfl

/-- A provider step that raised marks the permit, at most, and returns nothing. -/
theorem walks_handled {α β : Type} {permit : Permit} {e : Exc} {f : α → App β} {q : App β}
    (h : Walks (markUnknownOnError permit (fail e) >>= f) t q) :
    (∀ ev ∈ t, executing ev.cmd = false) ∧ ∀ out, q ≠ done out := by
  unfold markUnknownOnError at h
  rw [tryCatch_fail] at h
  by_cases hexc : e.isException = true
  · rw [if_pos hexc, ask_bind, call_bind] at h
    cases h with
    | refl =>
        exact ⟨fun ev hev => absurd hev List.not_mem_nil, fun _ => by
          simp only [ne_eq, reduceCtorEq, not_false_eq_true]⟩
    | call _ _ answer t _ h =>
        rcases walks_fail h with ⟨rfl, rfl⟩
        refine ⟨fun ev hev => ?_, fun _ => by
          simp only [ne_eq, reduceCtorEq, not_false_eq_true]⟩
        rw [List.mem_singleton.mp hev]
        rfl
  · rw [if_neg hexc] at h
    rcases walks_fail h with ⟨rfl, rfl⟩
    exact ⟨fun ev hev => absurd hev List.not_mem_nil, fun _ => by
      simp only [ne_eq, reduceCtorEq, not_false_eq_true]⟩

/-- What the executor goes on with once the ledger has answered. -/
theorem walks_settle {permit : Permit} {message approvalId : String} {result : PyDict}
    {q : App PyDict} (h : Walks (completeOrRaise permit message >>= fun _ =>
      approvalsMarkExecuted approvalId result >>= fun _ => pure result) t q) :
    (∀ ev ∈ t, executing ev.cmd = true → ev.cmd = .markExecutedLocked approvalId result) ∧
      ∀ out, q = done out → out = result := by
  have hissues : Issues (fun c => executing c = true → c = .markExecutedLocked approvalId result)
      (completeOrRaise permit message >>= fun _ =>
        approvalsMarkExecuted approvalId result >>= fun _ => (pure result : App PyDict)) := by
    have hquiet : ∀ c, background c = true →
        (executing c = true → c = .markExecutedLocked approvalId result) := fun c hc hexec =>
      absurd hexec (by rw [background_unexecuting hc]; exact Bool.noConfusion)
    refine issues_bind _ _ (issues_completeOrRaise hquiet) fun _ => ?_
    refine issues_bind _ _ ?_ fun _ => trivial
    refine issues_bind _ _ (issues_orRaise (issues_ask fun _ => rfl)) fun r => ?_
    split
    · trivial
    · exact issues_orRaise (issues_ask (hquiet _ rfl))
  refine ⟨(issues_walks h hissues).1, fun out hout => ?_⟩
  rw [hout] at h
  rcases walks_bind_done h with ⟨_, _, _, -, -, h⟩
  rcases walks_bind_done h with ⟨_, _, _, -, -, h⟩
  exact Core.Prog.done.inj (walks_done h).2

/-- An executor that has executed anything has executed its record. -/
theorem walks_executeApproved {record : ApprovalRecord} {task : TaskContext}
    {chain : List DelegationGrant} {q : App PyDict}
    (h : Walks (executeApproved d record task chain) t q) {ev : AppEvent} (hev : ev ∈ t)
    (hexec : executing ev.cmd = true) : Executing d record task chain t q.outcome := by
  unfold executeApproved at h
  by_cases hexecuted : record.status = .executed
  · -- A replay issues no command.
    rw [if_pos hexecuted] at h
    rw [(walks_done h).1] at hev
    exact absurd hev List.not_mem_nil
  · rw [if_neg hexecuted] at h
    by_cases happroved : record.status = .approved
    · rw [if_pos happroved] at h
      refine ⟨happroved, ?_⟩
      rcases walks_secured h with hasking |
        ⟨now, adm, permit, live, rest, hallowed, hpermit, hlive, rfl, hbody⟩
      · have hno := asking_unexecuting (hasking ev hev)
        rw [hexec] at hno
        exact Bool.noConfusion hno
      · have hrest : ev ∈ rest := by
          refine (List.mem_append.mp hev).resolve_left fun hgate => ?_
          have hno := asking_unexecuting (gateTrace_asking hgate)
          rw [hexec] at hno
          exact Bool.noConfusion hno
        unfold markUnknownOnError orRaise at hbody
        rw [ask_bind, tryCatch_call, call_bind] at hbody
        cases hbody with
        | refl => exact absurd hrest List.not_mem_nil
        | call _ _ answer rest _ hafter =>
            refine ⟨[], now, adm, permit, live, answer, rest,
              fun e he => absurd he List.not_mem_nil, hallowed, hpermit, hlive, rfl, ?_⟩
            cases answer with
            | error e =>
                rcases walks_handled hafter with ⟨hquiet, hraised⟩
                refine ⟨fun e he hexec => ?_, fun out hq => absurd (outcome_ok hq) (hraised out)⟩
                rw [hquiet e he] at hexec
                exact Bool.noConfusion hexec
            | ok resp =>
                rcases walks_settle hafter with ⟨hmarks, hout⟩
                exact ⟨fun e he hexec => ⟨resp, rfl, hmarks e he hexec⟩,
                  fun out hq => ⟨resp, rfl, hout out (outcome_ok hq)⟩⟩
    · rw [if_neg happroved] at h
      rw [(walks_done h).1] at hev
      exact absurd hev List.not_mem_nil

/-- Preparation before and commands that execute nothing after an execution. -/
theorem executing_within {record : ApprovalRecord} {task : TaskContext}
    {chain : List DelegationGrant} {o : Option (Except Exc PyDict)}
    (h : Executing d record task chain t o) (before after : List AppEvent)
    (hbefore : ∀ e ∈ before, Prepares e.cmd) (hafter : ∀ e ∈ after, executing e.cmd = false) :
    Executing d record task chain (before ++ (t ++ after)) o := by
  rcases h with ⟨happroved, pre, now, adm, permit, live, answer, post, hpre, hallowed, hpermit,
    hlive, rfl, hmarks, hout⟩
  refine ⟨happroved, before ++ pre, now, adm, permit, live, answer, post ++ after, fun e he => ?_,
    hallowed, hpermit, hlive, ?_, fun e he hexec => ?_, hout⟩
  · rcases List.mem_append.mp he with he | he
    · exact hbefore e he
    · exact hpre e he
  · simp only [List.append_assoc, List.cons_append]
  · rcases List.mem_append.mp he with he | he
    · exact hmarks e he hexec
    · rw [hafter e he] at hexec
      exact Bool.noConfusion hexec

/-- All that an execution has executed is its ledger call, and the mark with the
    extended answer, which is also what it returns. -/
theorem executing_cases {record : ApprovalRecord} {task : TaskContext}
    {chain : List DelegationGrant} {o : Option (Except Exc PyDict)}
    (h : Executing d record task chain t o) : ∃ (live : Revalidation) (answer : Except Exc PyDict),
      (∀ ev ∈ t, executing ev.cmd = true →
        ev = ⟨.ledgerIssue (.approvedExecutor record.approvalId)
          ⟨record.reservationId, record.amount, record.reason⟩
          (some (approvedCreditKey record.approvalId)), answer⟩ ∨
        ∃ resp, answer = .ok resp ∧ ev.cmd = .markExecutedLocked record.approvalId
          (executionResult record.approvalId resp live)) ∧
      (⟨.ledgerIssue (.approvedExecutor record.approvalId)
        ⟨record.reservationId, record.amount, record.reason⟩
        (some (approvedCreditKey record.approvalId)), answer⟩ : AppEvent) ∈ t ∧
      ∀ out, o = some (.ok out) → ∃ resp, answer = .ok resp ∧
        out = executionResult record.approvalId resp live := by
  rcases h with ⟨-, pre, now, adm, permit, live, answer, post, hpre, -, -, -, rfl, hmarks, hout⟩
  refine ⟨live, answer, fun ev hev hexec => ?_, ?_, hout⟩
  · simp only [List.mem_append, List.mem_cons] at hev
    rcases hev with hev | hev | hev | hev
    -- Neither the preparation nor the opening executes.
    · rw [(hpre ev hev).1] at hexec
      exact Bool.noConfusion hexec
    · rw [asking_unexecuting (gateTrace_asking hev)] at hexec
      exact Bool.noConfusion hexec
    · exact Or.inl hev
    · exact Or.inr (hmarks ev hev hexec)
  · simp only [List.mem_append, List.mem_cons, true_or, or_true]

/-- A decision that was answered with a record has gone by the handler. -/
theorem walks_approvalErrors {α : Type} {decision : App α} {a : α}
    (h : Walks (approvalErrors decision) t (done a)) : Walks decision t (done a) := by
  have hended : Walks (approvalErrors decision) t (Core.Prog.ended (.ok a)) := h
  rcases walks_tryCatch_ended.mp hended with ⟨b, hb, hw⟩ | ⟨e, t₁, t₂, rfl, _, hhandler⟩
  · rw [Except.ok.inj hb]
    exact hw
  · -- The handler only raises.
    have hraised : ∀ e' : Exc, (Core.Prog.ended (.ok a) : App α) ≠ fail e' := fun e' => by
      simp only [Core.Prog.ended, ne_eq, reduceCtorEq, not_false_eq_true]
    split at hhandler
    · exact absurd (walks_fail hhandler).2 (hraised _)
    · split at hhandler
      · exact absurd (walks_fail hhandler).2 (hraised _)
      · exact absurd (walks_fail hhandler).2 (hraised _)

/-- The record a decision goes on with. -/
theorem walks_decideApproved {operator : AuthenticatedHuman} {approvalId : String}
    {note : Option String} {record : ApprovalRecord}
    (h : Walks (decideApproved operator approvalId note) t (done (.inr record))) :
    Decides t operator approvalId note record := by
  rcases walks_bind_done (walks_approvalErrors h) with ⟨current, t₁, t₂, rfl, -, h⟩
  by_cases hexecuted : current.status = .executed
  · rw [if_pos hexecuted] at h
    exact absurd (Core.Prog.done.inj (walks_done h).2) (by simp only [reduceCtorEq,
      not_false_eq_true])
  · rw [if_neg hexecuted] at h
    rcases walks_bind_done h with ⟨decided, t₃, t₄, rfl, hdecide, h⟩
    rw [Sum.inr.inj (Core.Prog.done.inj (walks_done h).2)]
    rcases walks_bind_done hdecide with ⟨answer, t₅, t₆, rfl, hlocked, hrest⟩
    have hevent := walks_ask (walks_orRaise hlocked)
    cases answer with
    | some current =>
        -- Decided before, and handed on as it is.
        rw [Core.Prog.done.inj (walks_done hrest).2, hevent]
        left
        simp only [List.mem_append, List.mem_singleton, true_or, or_true]
    | none =>
        rw [hevent, walks_ask (walks_orRaise hrest)]
        right
        simp only [List.mem_append, List.mem_singleton, true_or, or_true, and_self]

theorem decides_mono {operator : AuthenticatedHuman} {approvalId : String} {note : Option String}
    {record : ApprovalRecord} {t' : List AppEvent} (h : Decides t operator approvalId note record)
    (ht : t ⊆ t') : Decides t' operator approvalId note record :=
  h.imp (fun hsome => ht hsome) fun hnone => ⟨ht hnone.1, ht hnone.2⟩

/-- The one grant of the executor. -/
theorem approvalExecutor_issued {task : TaskContext} {limit : ℚ} {chain : List DelegationGrant}
    (h : Walks (issueApprovalExecutorDelegation d task limit) t (done chain)) :
    ∃ grant, chain = [grant] ∧ grant.grantorId = task.initiatedBy ∧
      grant.taskId = task.taskId := by
  rcases walks_bind_done h with ⟨now, _, _, -, -, h₁⟩
  rcases walks_bind_done h₁ with ⟨uuid, _, _, -, -, h₂⟩
  rcases walks_bind_done h₂ with ⟨scope, _, _, -, -, h₃⟩
  rcases walks_bind_done h₃ with ⟨⟨⟩, _, _, -, -, h₄⟩
  exact ⟨_, Core.Prog.done.inj (walks_done h₄).2, rfl, rfl⟩

/-- The executor, followed by another look at the row. -/
theorem walks_reread {record : ApprovalRecord} {task : TaskContext} {chain : List DelegationGrant}
    {approvalId : String} {q : App Response}
    (h : Walks (executeApproved d record task chain >>= fun result =>
      orRaise (ask (.requireRecord approvalId)) >>= fun refreshed =>
        pure (.approvalExecution refreshed result)) t q) {ev : AppEvent} (hev : ev ∈ t)
    (hexec : executing ev.cmd = true) :
    ∃ o, Executing d record task chain t o ∧ ∀ resp, q = done resp → ∃ refreshed payload,
      resp = .approvalExecution refreshed payload ∧ o = some (.ok payload) := by
  rcases walks_bind h with ⟨p', hp', rfl⟩ | ⟨payload, t₁, t₂, rfl, hexecute, hrest⟩
  · refine ⟨p'.outcome, walks_executeApproved hp' hev hexec, fun resp hresp => ?_⟩
    -- What is still in the executor has returned nothing.
    cases p' with
    | done a =>
        unfold orRaise at hresp
        rw [done_bind, ask_bind, call_bind] at hresp
        exact absurd hresp (by simp only [reduceCtorEq, not_false_eq_true])
    | fail e => exact absurd hresp (by simp only [fail_bind, reduceCtorEq, not_false_eq_true])
    | call c k => exact absurd hresp (by simp only [call_bind, reduceCtorEq, not_false_eq_true])
  · have hquiet : ∀ e ∈ t₂, executing e.cmd = false := by
      refine (issues_walks hrest (S := fun c => executing c = false) ?_).1
      exact issues_bind _ _ (issues_orRaise (issues_ask rfl)) fun _ => trivial
    have hfirst : ev ∈ t₁ := by
      refine (List.mem_append.mp hev).resolve_right fun hright => ?_
      rw [hquiet ev hright] at hexec
      exact Bool.noConfusion hexec
    have hwithin := executing_within (walks_executeApproved hexecute hfirst hexec) [] t₂
      (fun e he => absurd he List.not_mem_nil) hquiet
    refine ⟨some (.ok payload), hwithin, fun resp hresp => ?_⟩
    rw [hresp] at hrest
    rcases walks_bind_done hrest with ⟨refreshed, _, _, -, -, hreturn⟩
    exact ⟨refreshed, payload, Core.Prog.done.inj (walks_done hreturn).2, rfl⟩

/-- An approval that has executed anything was called by a holder of the scope, who
    is the human of the task and the grantor of the one grant that the executor
    works with. -/
theorem walks_approve {operator : AuthenticatedHuman} {approvalId : String} {note : Option String}
    {q : App Response} (h : Walks (approveCreditRequest d operator approvalId note) t q)
    {ev : AppEvent} (hev : ev ∈ t) (hexec : executing ev.cmd = true) :
    operator.scopes.contains "asante:approve" = true ∧ ∃ record task grant o,
      Decides t operator approvalId note record ∧ task.initiatedBy = operator.principalId ∧
      grant.grantorId = operator.principalId ∧ grant.taskId = task.taskId ∧
      Executing d record task [grant] t o ∧
      ∀ resp, q = done resp → ∃ refreshed payload,
        resp = .approvalExecution refreshed payload ∧ o = some (.ok payload) := by
  have hother := executing_unprepared hexec
  unfold approveCreditRequest validated at h
  split at h
  · rcases walks_through h (issues_ofExcept (S := Prepares) _) hev hother with
      ⟨⟨⟩, t₁, t₂, rfl, hscope, -, h₂, hev₂⟩
    rcases walks_ofExcept hscope with ⟨rfl, hok⟩
    refine ⟨?_, ?_⟩
    · by_contra hno
      unfold requireApprovalScope at hok
      rw [if_neg hno] at hok
      exact absurd hok (by simp only [reduceCtorEq, not_false_eq_true])
    · have hdecide : Prepares (.decideLocked approvalId true operator.principalId note) :=
        ⟨rfl, fun _ => Cmd.noConfusion⟩
      rcases walks_through h₂ (issues_decideApproved (fun _ => background_prepares) operator
        approvalId note hdecide) hev₂ hother with ⟨decided, t₃, t₄, rfl, hdecided, hp₃, h₄, hev₄⟩
      rcases decided with record | record
      · -- A repeated approval executes nothing.
        rw [(walks_done h₄).1] at hev₄
        exact absurd hev₄ List.not_mem_nil
      · rcases walks_through h₄ (issues_openTask (fun _ => background_prepares) _ _ _) hev₄ hother
          with ⟨task, t₅, t₆, rfl, htask, hp₅, h₆, hev₆⟩
        rcases walks_through h₆ (issues_approvalExecutor (fun _ => background_prepares) d _ _) hev₆
          hother with ⟨chain, t₇, t₈, rfl, hchain, hp₇, h₈, hev₈⟩
        rcases approvalExecutor_issued hchain with ⟨grant, rfl, hgrantor, htaskId⟩
        have hhuman := openTask_human htask
        rcases walks_reread h₈ hev₈ hexec with ⟨o, hexecuting, hreturned⟩
        refine ⟨record, task, grant, o, decides_mono (walks_decideApproved hdecided)
          fun e he => ?_, hhuman, hgrantor.trans hhuman, htaskId, ?_, hreturned⟩
        · simp only [List.mem_append, he, true_or, or_true]
        · have hwithin := executing_within hexecuting (t₃ ++ (t₅ ++ t₇)) []
            (fun e he => ?_) fun e he => absurd he List.not_mem_nil
          · simp only [List.append_nil, List.append_assoc] at hwithin
            exact hwithin
          · simp only [List.mem_append] at he
            rcases he with he | he | he
            · exact hp₃ e he
            · exact hp₅ e he
            · exact hp₇ e he
  · rw [(walks_fail h).1] at hev
    exact absurd hev List.not_mem_nil

/-- Only approvals execute. -/
theorem app_executes {call : AppCall} {q : App Response} (h : Walks (call.code d) t q)
    {ev : AppEvent} (hev : ev ∈ t) (hexec : executing ev.cmd = true) :
    ∃ operator approvalId note, call = .approve operator approvalId note := by
  have hnever : ¬ Issues (fun c => executing c = false) (call.code d) := by
    intro hissues
    have hno := (issues_walks h hissues).1 ev hev
    rw [hexec] at hno
    exact Bool.noConfusion hno
  have hquiet : ∀ c, background c = true → executing c = false := fun _ => background_unexecuting
  -- The tools of the server have writes of their own.
  have htool : ∀ call : ToolCall, (∀ c, call.Writes d c → executing c = false) →
      Issues (fun c => executing c = false) (call.code d) :=
    fun call hwrites => issues_tool hquiet d call (fun _ => ⟨rfl, fun _ => rfl⟩) hwrites
  cases call with
  | approve operator approvalId note => exact ⟨operator, approvalId, note, rfl⟩
  | runAgent operator message =>
      exact absurd (issues_runAgent hquiet d operator message (fun _ => rfl) fun _ => rfl) hnever
  | mcp tool metadata =>
      have hcall : Issues (fun c => executing c = false) (tool.call d metadata >>= fun resp =>
          (pure (Response.body resp) : App Response)) := by
        refine issues_bind _ _ (issues_mcp d hquiet tool metadata fun context => htool _ ?_)
          fun _ => trivial
        intro c hc
        cases tool with
        | issueGuestCredit reservationId amount reason =>
            rw [hc]
            rfl
        | requestGuestCredit reservationId amount reason =>
            rcases hc with ⟨r, rfl⟩
            rfl
        | _ => exact hc.elim
      exact absurd hcall hnever
  | devIssueCredit operator reservationId amount reason =>
      refine absurd (issues_devIssueCredit d hquiet operator reservationId amount reason
        fun task chain => htool _ fun c hc => ?_) hnever
      rw [hc]
      rfl
  | devGetReservation operator reservationId =>
      exact absurd (issues_devGetReservation hquiet d operator reservationId
        fun _ => ⟨rfl, fun _ => rfl⟩) hnever
  | deny operator approvalId note =>
      exact absurd (issues_deny hquiet operator approvalId note rfl) hnever

end Walks

section History

variable {T : Terms} {d : Deployment} {C : Type} {A : C → Prop}
  {Q : C → Except Exc Response → World → Prop}
  {cfg : Core.Config C Cmd Cmd.Answer Exc Response World}

/-- The record is a copy of the row of the approval at some point of its past. -/
def Copies (w : World) (approvalId : String) (record : ApprovalRecord) : Prop :=
  ∃ row ∈ w.approvals, row.approvalId = approvalId ∧
    ∃ old, record = fromRow old ∧ Continues old row

theorem copies_approvalId {w : World} {approvalId : String} {record : ApprovalRecord}
    (h : Copies w approvalId record) : record.approvalId = approvalId := by
  rcases h with ⟨row, -, hid, old, rfl, hcont⟩
  exact hcont.approvalId.symm.trans hid

/-- A record that was read is a copy. -/
theorem record_copies (h : (provenanceDiscipline T d).sys.Sound A Q cfg) {i : Nat}
    {approvalId : String} {record : ApprovalRecord}
    (hev : (i, (⟨.requireRecord approvalId, .ok record⟩ : AppEvent)) ∈ cfg.history) :
    Copies cfg.world approvalId record := by
  rcases h.history _ hev with ⟨env, v, -, -, hanswer, hle⟩
  have happly : (env.fault.apply v (requireRecord v.approvals approvalId, v)).1 = .ok record :=
    hanswer
  rcases apply_ok happly with ⟨hrecord, hworld⟩
  change Grows (env.fault.apply v (requireRecord v.approvals approvalId, v)).2 cfg.world at hle
  rw [hworld] at hle
  dsimp only at hrecord hle
  rcases requireRecord_cases approvalId v.approvals with ⟨old, hsel, hrec⟩ | ⟨-, e, hrec⟩
  · rw [hrec] at hrecord
    rcases selectById_some hsel with ⟨hmem, hid⟩
    rcases hle.rows old hmem with ⟨row, hrow, hcont⟩
    exact ⟨row, hrow, hcont.approvalId.trans hid, old, (Except.ok.inj hrecord).symm, hcont⟩
  · rw [hrec] at hrecord
    exact absurd hrecord (by simp only [reduceCtorEq, not_false_eq_true])

theorem reached_decided {approved : Bool} {row : ApprovalRow} (h : Reached approved row) :
    row.status ≠ .pending := by
  intro hpending
  cases approved with
  | true =>
      rcases h with hs | hs
      · rw [hs] at hpending
        exact ApprovalStatus.noConfusion hpending
      · rw [hs] at hpending
        exact ApprovalStatus.noConfusion hpending
  | false =>
      have hs : row.status = .denied := h
      rw [hs] at hpending
      exact ApprovalStatus.noConfusion hpending

/-- The row of a decision that was answered names who took it: the caller, or who
    is named by the record that was handed on. -/
theorem decided_kept (h : (provenanceDiscipline T d).sys.Sound A Q cfg) {i : Nat}
    {approvalId : String} {approved : Bool} {decidedBy : String} {note : Option String}
    {r : Option ApprovalRecord}
    (hev : (i, (⟨.decideLocked approvalId approved decidedBy note, .ok r⟩ : AppEvent)) ∈
      cfg.history) :
    ∃ row ∈ cfg.world.approvals, row.approvalId = approvalId ∧ Reached approved row ∧
      (r = none → row.decidedBy = some decidedBy) ∧
      ∀ current, r = some current → row.decidedBy = current.decidedBy ∧
        ∃ old, current = fromRow old ∧ Continues old row := by
  rcases h.history _ hev with ⟨env, v, -, -, hanswer, hle⟩
  rcases decide_answered hanswer with ⟨old, hold, hid, hreached, hnone, hsome⟩
  rcases Grows.rows hle old hold with ⟨row, hrow, hcont⟩
  -- Nobody takes a decision a second time.
  have hsame := (hcont.decision (reached_decided hreached)).2.1
  refine ⟨row, hrow, hcont.approvalId.trans hid, reached_continues hcont hreached,
    fun hr => hsame.trans (hnone hr), fun current hr => ⟨?_, old, hsome current hr, hcont⟩⟩
  rw [hsome current hr]
  exact hsame

/-- The record an approval goes on with is a copy. -/
theorem decides_copies (h : (provenanceDiscipline T d).sys.Sound A Q cfg) {i : Nat}
    {tr : List AppEvent} (htr : ∀ ev ∈ tr, (i, ev) ∈ cfg.history) {operator : AuthenticatedHuman}
    {approvalId : String} {note : Option String} {record : ApprovalRecord}
    (hdecides : Decides tr operator approvalId note record) :
    Copies cfg.world approvalId record := by
  rcases hdecides with hsome | ⟨-, hread⟩
  · rcases decided_kept h (htr _ hsome) with ⟨row, hrow, hid, -, -, hcurrent⟩
    exact ⟨row, hrow, hid, (hcurrent record rfl).2⟩
  · exact record_copies h (htr _ hread)

end History

end Asante
