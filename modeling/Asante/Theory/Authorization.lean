import Asante.Core.Run
import Asante.Model.Main

/-!
# Authorization Before Effect

No secured operation touches a store before Ruhusa has admitted its request
with a permit and revalidated the same request with that permit.

`Admitted` says this of a trace. `Gated` is what every secured operation keeps
at every point of its trace, however Ruhusa, the providers and the stores
answer: either it is admitted already, or it has done nothing but ask, and if
it has ended it ended in a refusal or raised. `tool_gated` proves that once for
all the operations, and both the results about a call run alone and the results
about calls running side by side are read off it.

Two exits stand outside. An approval that was executed before is answered with
its stored result, without asking Ruhusa and without doing anything. And a
request Ruhusa's factory makes no invocation of is never begun: the operation
raises what the factory raised, as a guest operation raises what deriving its
key raised.

## Main definitions

* `Admitted`: A trace admits and revalidates a request with a permit.
* `asking`: The commands that precede admission.
* `touchesStores`, `World.stores`: The stores and what may change them.
* `Gated`: Admitted, or asking only and refused or raising at the end.
* `ToolCall.request`: The request a call submits.
* `ToolCall.keyText`, `ToolCall.keyError`: The text the key of a call is derived
  from, and what deriving it raises.
* `ToolCall.Replays`: The call is answered from an executed approval.
* `refusal`: How the opening of an operation ends, if it goes no further.

## Theorems

* `along_secured`: What holds along a secured operation.
* `tool_gated`: Every operation but a replay is gated.
* `store_step_admitted`: A step on a store follows admission.
* `no_effect_without_authorization`: Refusals are blocked and change nothing,
  and changes follow admission.
* `denied_read_independent_of_cache`: A refused read does not depend on the
  cache or the provider, nor change them, and what is disclosed was admitted.
-/

namespace Asante

open Core.Prog

/-- Ruhusa admitted the request with the permit and, later, revalidated the
    request with that permit. -/
def Admitted (tr : List AppEvent) (req : Request) (permit : Permit) : Prop :=
  ∃ (a b c : List AppEvent) (adm : Admission) (live : Revalidation),
    tr = a ++ ⟨.begin req, .ok adm⟩ :: (b ++ ⟨.revalidate req permit, live⟩ :: c) ∧
      adm.allowed = true ∧ adm.permit = some permit ∧ live.allowed = true

/-- The commands an operation issues before it is admitted. -/
def asking : Cmd → Bool
  | .now => true
  | .begin _ => true
  | .revalidate _ _ => true
  | _ => false

/-- The commands that may change the ledger, the work orders, the outbox or the
    approvals. -/
def touchesStores : Cmd → Bool
  | .ledgerIssue _ _ _ => true
  | .maintenanceCreate _ _ => true
  | .outboxSend _ _ _ => true
  | .createCreditRequest _ => true
  | .decideLocked _ _ _ _ => true
  | .markExecutedLocked _ _ => true
  | _ => false

/-- The four stores of the secured operations. -/
def World.stores (w : World) :
    GuestCreditLedger × MaintenanceWorkOrderStore × GuestMessageOutbox × ApprovalTable :=
  (w.ledger, w.workOrders, w.outbox, w.approvals)

theorem admitted_append {tr : List AppEvent} {req : Request} {permit : Permit}
    (h : Admitted tr req permit) (more : List AppEvent) : Admitted (tr ++ more) req permit := by
  rcases h with ⟨a, b, c, adm, live, htr, hrest⟩
  refine ⟨a, b, c ++ more, adm, live, ?_, hrest⟩
  rw [htr]
  simp only [List.append_assoc, List.cons_append]

/-- The step that completes an admission is the revalidation. -/
theorem admitted_before {tr : List AppEvent} {ev : AppEvent} {req : Request} {permit : Permit}
    (h : Admitted (tr ++ [ev]) req permit) (hev : asking ev.cmd = false) :
    Admitted tr req permit := by
  rcases h with ⟨a, b, c, adm, live, htr, hrest⟩
  rcases List.eq_nil_or_concat c with hc | ⟨c', x, hc⟩
  · -- The revalidation would be the last event, but that one does not ask.
    have hlast : tr ++ [ev] =
        (a ++ ⟨.begin req, .ok adm⟩ :: b) ++ [⟨.revalidate req permit, live⟩] := by
      rw [htr, hc]
      simp only [List.append_assoc, List.cons_append]
    have hrev := (List.append_inj' hlast rfl).2
    rw [(List.cons.inj hrev).1] at hev
    exact absurd hev (by simp only [asking, Bool.true_eq_false, not_false_eq_true])
  · -- The revalidation came earlier, so it is still there without the last event.
    refine ⟨a, b, c', adm, live, ?_, hrest⟩
    have hlast : tr ++ [ev] =
        (a ++ ⟨.begin req, .ok adm⟩ :: (b ++ ⟨.revalidate req permit, live⟩ :: c')) ++ [x] := by
      rw [htr, hc]
      simp only [List.append_assoc, List.cons_append, List.concat_eq_append]
    exact (List.append_inj' hlast rfl).1

theorem apply_world {V X : Type} (view : World → V) (fault : Fault) (w : World)
    (step : Except Exc X × World) (h : view step.2 = view w) :
    view (fault.apply w step).2 = view w := by
  -- A fault before the step or none at all leaves the view; a fault after it keeps the step's.
  cases fault with
  | none => exact h
  | before e => rfl
  | after e => exact h

/-- Every other command leaves the stores as they are. -/
theorem perform_stores {c : Cmd} (h : touchesStores c = false) (env : Env) (w : World) :
    (perform c env w).2.stores = w.stores := by
  -- The six commands that touch a store are excluded; the rest keep all four.
  cases c with
  | ledgerIssue writer credit key => exact absurd h Bool.noConfusion
  | maintenanceCreate r key => exact absurd h Bool.noConfusion
  | outboxSend reservationId message key => exact absurd h Bool.noConfusion
  | createCreditRequest r => exact absurd h Bool.noConfusion
  | decideLocked approvalId approved decidedBy note => exact absurd h Bool.noConfusion
  | markExecutedLocked approvalId result => exact absurd h Bool.noConfusion
  | findCreditRequest taskId reservationId amount => exact apply_world World.stores _ _ _ rfl
  | requireRecord approvalId => exact apply_world World.stores _ _ _ rfl
  | cacheGet key => exact apply_world World.stores _ _ _ rfl
  | cachePut key value ttlSeconds => exact apply_world World.stores _ _ _ rfl
  | providerGetReservation reservationId => exact apply_world World.stores _ _ _ rfl
  | registerGrant grant => exact apply_world World.stores _ _ _ rfl
  | extractTraceContext metadata => exact apply_world World.stores _ _ _ rfl
  | _ => rfl

/-- The trace of an operation that has been answered at admission. -/
def admissionTrace (now : Int) (req : Request) (adm : Admission) : List AppEvent :=
  [⟨.now, now⟩, ⟨.begin req, .ok adm⟩]

/-- The trace of an operation whose request the factory makes no invocation of. -/
def uncreatedTrace (now : Int) (req : Request) (e : Exc) : List AppEvent :=
  [⟨.now, now⟩, ⟨.begin req, .error e⟩]

/-- The trace of an operation that has been answered at revalidation. -/
def gateTrace (now : Int) (req : Request) (adm : Admission) (permit : Permit)
    (live : Revalidation) : List AppEvent :=
  admissionTrace now req adm ++ [⟨.revalidate req permit, live⟩]

theorem gateTrace_admitted (now : Int) (req : Request) {adm : Admission} {permit : Permit}
    {live : Revalidation} (hadm : adm.allowed = true) (hpermit : adm.permit = some permit)
    (hlive : live.allowed = true) : Admitted (gateTrace now req adm permit live) req permit :=
  ⟨[⟨.now, now⟩], [], [], adm, live, rfl, hadm, hpermit, hlive⟩

/-- What holds along a secured operation: at its opening, where its request
    cannot be made, at its three refusals, and along its body once admitted. -/
theorem along_secured {P : List AppEvent → Option (Except Exc PyDict) → Prop}
    (submit : Int → Request) (body : Permit → Revalidation → App PyDict)
    (hstart : P [] none) (hnow : ∀ n : Int, P [⟨.now, n⟩] none)
    (hcreate : ∀ n e, P (uncreatedTrace n (submit n) e) (some (.error e)))
    (hbegin : ∀ n adm, P (admissionTrace n (submit n) adm) none)
    (hrefused : ∀ n adm effect reason, adm.allowed = false ∨ adm.permit = none →
      P (admissionTrace n (submit n) adm) (some (.ok (blocked effect reason))))
    (hrevoked : ∀ n adm permit live effect reason, live.allowed = false →
      P (gateTrace n (submit n) adm permit live) (some (.ok (blocked effect reason))))
    (hbody : ∀ n adm permit live, adm.allowed = true → adm.permit = some permit →
      live.allowed = true → Along P (body permit live) (gateTrace n (submit n) adm permit live)) :
    Along P (secured submit body) [] := by
  unfold secured
  rw [ask_bind]
  refine ⟨hstart, fun (n : Int) => ?_⟩
  dsimp only
  rw [admit_bind]
  refine ⟨hnow n, fun (answer : Except Exc Admission) => ?_⟩
  rcases answer with e | adm
  · exact hcreate n e
  dsimp only
  rw [ofExcept_ok, done_bind]
  -- Admission without a permit, and each refusal, end the operation on the spot.
  by_cases hadm : adm.allowed = true
  · rw [if_pos hadm]
    rcases hpermit : adm.permit with _ | permit
    · exact hrefused n adm _ _ (Or.inr hpermit)
    · dsimp only
      rw [ask_bind]
      refine ⟨hbegin n adm, fun (live : Revalidation) => ?_⟩
      dsimp only
      by_cases hlive : live.allowed = true
      · rw [if_pos hlive]
        exact hbody n adm permit live hadm hpermit hlive
      · rw [if_neg hlive]
        exact hrevoked n adm permit live _ _ (Bool.eq_false_iff.mpr hlive)
  · rw [if_neg hadm]
    exact hrefused n adm _ _ (Or.inl (Bool.eq_false_iff.mpr hadm))

/-- The request is admitted, or the operation has only asked and, if it has
    ended, was refused or raised. -/
def Gated (submit : Int → Request) (tr : List AppEvent) (o : Option (Except Exc PyDict)) : Prop :=
  (∃ now permit, Admitted tr (submit now) permit) ∨
    ((∀ ev ∈ tr, asking ev.cmd = true) ∧
      ∀ resp, o = some (.ok resp) → ∃ effect reason, resp = blocked effect reason)

theorem secured_gated (submit : Int → Request) (body : Permit → Revalidation → App PyDict) :
    Along (Gated submit) (secured submit body) [] := by
  -- Up to admission the operation has only asked.
  have hasking : ∀ n req adm, ∀ ev ∈ admissionTrace n req adm, asking ev.cmd = true := by
    intro n req adm ev hev
    simp only [admissionTrace, List.mem_cons, List.not_mem_nil, or_false] at hev
    rcases hev with rfl | rfl
    · rfl
    · rfl
  have hopen : ∀ resp : PyDict, (none : Option (Except Exc PyDict)) = some (.ok resp) →
      ∃ effect reason, resp = blocked effect reason :=
    fun resp hout => absurd hout (by simp only [reduceCtorEq, not_false_eq_true])
  have hblocked : ∀ effect reason resp,
      some (Except.ok (blocked effect reason)) = some (Except.ok resp : Except Exc PyDict) →
      ∃ effect reason, resp = blocked effect reason :=
    fun effect reason resp hout =>
      ⟨effect, reason, (Except.ok.inj (Option.some.inj hout)).symm⟩
  refine along_secured submit body ?_ ?_ ?_ ?_ ?_ ?_ ?_
  · exact Or.inr ⟨fun ev hev => absurd hev List.not_mem_nil, hopen⟩
  · intro n
    refine Or.inr ⟨fun ev hev => ?_, hopen⟩
    rw [List.mem_singleton.mp hev]
    rfl
  · -- The factory was asked, and nothing else.
    intro n e
    refine Or.inr ⟨fun ev hev => ?_, fun resp hout => ?_⟩
    · simp only [uncreatedTrace, List.mem_cons, List.not_mem_nil, or_false] at hev
      rcases hev with rfl | rfl
      · rfl
      · rfl
    · exact absurd (Option.some.inj hout) (by simp only [reduceCtorEq, not_false_eq_true])
  · exact fun n adm => Or.inr ⟨hasking n _ adm, hopen⟩
  · exact fun n adm effect reason _ => Or.inr ⟨hasking n _ adm, hblocked effect reason⟩
  · intro n adm permit live effect reason _
    refine Or.inr ⟨fun ev hev => ?_, hblocked effect reason⟩
    -- The revalidation asks as well.
    rcases List.mem_append.mp hev with hold | hnew
    · exact hasking n _ adm ev hold
    · rw [List.mem_singleton.mp hnew]
      rfl
  · intro n adm permit live hadm hpermit hlive
    have hgate := gateTrace_admitted n (submit n) hadm hpermit hlive
    -- Once admitted, always admitted: the admission stays in the trace.
    exact along_of_extends _ _ fun t o => Or.inl ⟨n, permit, admitted_append hgate t⟩

/-- The request a call submits. -/
def ToolCall.request (d : Deployment) : ToolCall → Int → Request
  | issueCredit _ reservationId amount reason task chain =>
    creditRequest d reservationId amount reason task chain
  | getReservation reservationId task chain => reservationRequest d reservationId task chain
  | createMaintenanceRequest reservationId category urgency description task chain =>
    operationRequest d "maintenance.create" .propertyOperations reservationId
      [("category", .str category), ("urgency", .str (lower (strip urgency))),
        ("description", .str description)] task chain
  | sendGuestMessage reservationId message task chain =>
    operationRequest d "guest.message.send" .guestSupport reservationId
      [("message", .str message)] task chain
  | requestGuestCredit reservationId amount reason task chain =>
    operationRequest d "guest.credit.request" .serviceRecovery reservationId
      [("amount", .num amount), ("reason", .str reason)] task chain
  | executeApproved approval task chain => approvedRequest d approval task chain

/-- The text the key of a call is derived from, if it derives one. -/
def ToolCall.keyText : ToolCall → Option String
  | issueCredit _ reservationId amount _ task _ =>
    some (creditCanonical task.taskId reservationId amount)
  | getReservation reservationId _ _ => some (reservationCanonical reservationId)
  | createMaintenanceRequest reservationId category urgency description task _ =>
    some (operationCanonical "maintenance.create" task.taskId reservationId
      (maintenancePayload category urgency description))
  | sendGuestMessage reservationId message task _ =>
    some (operationCanonical "guest.message.send" task.taskId reservationId (strip message))
  | requestGuestCredit _ _ _ _ _ => none
  | executeApproved _ _ _ => none

/-- What deriving the key of a call raises, if it does. -/
def ToolCall.keyError (d : Deployment) (call : ToolCall) : Option Exc :=
  call.keyText.bind d.digestError

/-- The call is answered with the stored result of an executed approval. -/
def ToolCall.Replays : ToolCall → Prop
  | executeApproved approval _ _ => approval.status = .executed
  | _ => False

theorem gated_blocked (submit : Int → Request) (effect reason : String) :
    Gated submit [] (some (.ok (blocked effect reason))) :=
  Or.inr ⟨fun _ hev => absurd hev List.not_mem_nil,
    fun _ hout => ⟨effect, reason, (Except.ok.inj (Option.some.inj hout)).symm⟩⟩

theorem gated_raised (submit : Int → Request) (e : Exc) : Gated submit [] (some (.error e)) :=
  Or.inr ⟨fun _ hev => absurd hev List.not_mem_nil, fun _ hout =>
    absurd (Option.some.inj hout) (by simp only [reduceCtorEq, not_false_eq_true])⟩

/-- A guest operation raises what deriving its key raises, before anything is
    asked, and is that of its request otherwise. -/
theorem keyed_operation (d : Deployment) (action taskId reservationId payload : String)
    (f : String → App PyDict) :
    (∃ e, d.digestError (operationCanonical action taskId reservationId payload) = some e ∧
      (ofExcept (operationKey d.sha256 d.digestError action taskId reservationId payload) >>= f) =
        fail e) ∨
    (d.digestError (operationCanonical action taskId reservationId payload) = none ∧
      (ofExcept (operationKey d.sha256 d.digestError action taskId reservationId payload) >>= f) =
        f (operationDigest d.sha256 action taskId reservationId payload)) := by
  rcases operationKey_cases d.sha256 d.digestError taskId reservationId action payload with
    ⟨e, herror, hkey⟩ | ⟨hnone, hkey⟩
  · rw [hkey]
    exact Or.inl ⟨e, herror, rfl⟩
  · rw [hkey]
    exact Or.inr ⟨hnone, rfl⟩

/-- A call that does not replay is refused on its arguments, raises what deriving
    its key raises, or is the opening of its request with some body. -/
theorem code_shape (d : Deployment) (call : ToolCall) (h : ¬ call.Replays) :
    (∃ effect reason, call.code d = done (blocked effect reason)) ∨
      (∃ e, call.keyError d = some e ∧ call.code d = fail e) ∨
      ∃ body, call.code d = secured (call.request d) body := by
  cases call with
  | issueCredit retryPolicy reservationId amount reason task chain =>
      exact Or.inr (Or.inr ⟨_, rfl⟩)
  | getReservation reservationId task chain => exact Or.inr (Or.inr ⟨_, rfl⟩)
  | createMaintenanceRequest reservationId category urgency description task chain =>
      simp only [ToolCall.code, ToolCall.request, createMaintenanceRequest, executeOperation]
      -- The urgency is checked before the key is derived, and the key before the gate.
      split
      · rcases keyed_operation d "maintenance.create" task.taskId reservationId
          (maintenancePayload category urgency description) _ with
          ⟨e, herror, hraise⟩ | ⟨-, hkeyed⟩
        · exact Or.inr (Or.inl ⟨e, herror, hraise⟩)
        · exact Or.inr (Or.inr ⟨_, hkeyed⟩)
      · exact Or.inl ⟨_, _, rfl⟩
  | sendGuestMessage reservationId message task chain =>
      simp only [ToolCall.code, ToolCall.request, sendGuestMessage, executeOperation]
      -- An empty message is refused before the key is derived.
      split
      · exact Or.inl ⟨_, _, rfl⟩
      · rcases keyed_operation d "guest.message.send" task.taskId reservationId
          (strip message) _ with ⟨e, herror, hraise⟩ | ⟨-, hkeyed⟩
        · exact Or.inr (Or.inl ⟨e, herror, hraise⟩)
        · exact Or.inr (Or.inr ⟨_, hkeyed⟩)
  | requestGuestCredit reservationId amount reason task chain =>
      exact Or.inr (Or.inr ⟨_, rfl⟩)
  | executeApproved approval task chain =>
      simp only [ToolCall.code, ToolCall.request, executeApproved]
      have hnot : approval.status ≠ .executed := h
      -- What is neither executed nor approved is refused before the gate.
      rw [if_neg hnot]
      split
      · exact Or.inr (Or.inr ⟨_, rfl⟩)
      · exact Or.inl ⟨_, _, rfl⟩

/-- Every secured operation but a replay is gated by its own request. -/
theorem tool_gated (d : Deployment) (call : ToolCall) (h : ¬ call.Replays) :
    Along (Gated (call.request d)) (call.code d) [] := by
  rcases code_shape d call h with ⟨effect, reason, hcode⟩ | ⟨e, -, hcode⟩ | ⟨body, hcode⟩
  · rw [hcode]
    exact gated_blocked _ _ _
  · rw [hcode]
    exact gated_raised _ e
  · rw [hcode]
    exact secured_gated _ _

theorem replay_code (d : Deployment) {call : ToolCall} (h : call.Replays) :
    ∃ approval task chain, call = .executeApproved approval task chain ∧
      call.code d = done (replayExecuted approval) := by
  cases call with
  | executeApproved approval task chain =>
      refine ⟨approval, task, chain, rfl, ?_⟩
      exact if_pos h
  | _ => exact absurd h (by simp only [ToolCall.Replays, not_false_eq_true])

/-- On every walk of an operation, a step on a store comes after Ruhusa admitted
    and revalidated the request of the call. -/
theorem store_step_admitted (d : Deployment) (call : ToolCall) {pre post : List AppEvent}
    {ev : AppEvent} {q : App PyDict} (hw : Walks (call.code d) (pre ++ ev :: post) q)
    (hev : touchesStores ev.cmd = true) :
    ∃ now permit, Admitted pre (call.request d now) permit := by
  by_cases hreplay : call.Replays
  · -- A replay issues no command at all.
    rcases replay_code d hreplay with ⟨approval, task, chain, _, hcode⟩
    rw [hcode] at hw
    generalize htr : pre ++ ev :: post = tr at hw
    cases hw
    exact absurd htr (List.append_ne_nil_of_right_ne_nil _ (List.cons_ne_nil _ _))
  · -- The trace up to the event is itself a walk, so the gate applies to it.
    have hsplit : pre ++ ev :: post = (pre ++ [ev]) ++ post := by
      rw [List.append_assoc, List.singleton_append]
    rw [hsplit] at hw
    rcases walks_split hw with ⟨m, hm, _⟩
    have hasking : asking ev.cmd = false := by
      cases hc : ev.cmd with
      | now => rw [hc] at hev; exact absurd hev Bool.noConfusion
      | begin req => rw [hc] at hev; exact absurd hev Bool.noConfusion
      | revalidate req permit => rw [hc] at hev; exact absurd hev Bool.noConfusion
      | _ => rfl
    rcases along_walks hm [] (tool_gated d call hreplay) with ⟨now, permit, hadm⟩ | ⟨hall, _⟩
    · exact ⟨now, permit, admitted_before hadm hasking⟩
    · -- A refused operation has only asked, and this command does not.
      have hlast := hall ev (List.mem_append_right pre (List.mem_singleton.mpr rfl))
      rw [hasking] at hlast
      exact absurd hlast Bool.noConfusion

section Runs

variable (submit : Int → Request) (body : Permit → Revalidation → App PyDict)

/-- How the opening of a secured operation ends in these environments, if it does
    not go on to the body: the factory raises, or Ruhusa refuses. -/
def refusal (submit : Int → Request) (envs : Nat → Env) : Option (Except Exc PyDict) :=
  let now := (envs 0).now
  match (envs 1).admission (submit now) with
  | .error e => some (.error e)
  | .ok admission =>
    if admission.allowed then
      match admission.permit with
      | none => some (.ok (blocked "deny" "missing execution permit"))
      | some permit =>
        let live := (envs 2).revalidate (submit now) permit
        if live.allowed then none
        else some (.ok (blocked live.authorization.effect.value live.authorization.reason))
    else some (.ok (blocked admission.authorization.effect.value admission.authorization.reason))

/-- The opening reads nothing but what Ruhusa, its factory and the clock answer. -/
theorem refusal_congr {envs envs' : Nat → Env} (hnow : ∀ n, (envs n).now = (envs' n).now)
    (hcreate : ∀ n, (envs n).create = (envs' n).create)
    (hbegin : ∀ n, (envs n).begin = (envs' n).begin)
    (hrevalidate : ∀ n, (envs n).revalidate = (envs' n).revalidate) :
    refusal submit envs = refusal submit envs' := by
  unfold refusal Env.admission
  rw [hnow 0, hcreate 1, hbegin 1, hrevalidate 2]

/-- The opening ends in a refusal, or raises what the factory raised. -/
theorem refusal_cases {envs : Nat → Env} {out : Except Exc PyDict}
    (h : refusal submit envs = some out) :
    (∃ effect reason, out = .ok (blocked effect reason)) ∨
      ∃ e, (envs 1).create (submit (envs 0).now) = some e ∧ out = .error e := by
  unfold refusal at h
  dsimp only at h
  rcases hadmission : (envs 1).admission (submit (envs 0).now) with e | admission
  · rw [hadmission] at h
    exact Or.inr ⟨e, Env.admission_error.mp hadmission, (Option.some.inj h).symm⟩
  · rw [hadmission] at h
    dsimp only at h
    -- The three refusals in the order of the opening.
    split at h
    · split at h
      · exact Or.inl ⟨_, _, (Option.some.inj h).symm⟩
      · split at h
        · exact absurd h (by simp only [reduceCtorEq, not_false_eq_true])
        · exact Or.inl ⟨_, _, (Option.some.inj h).symm⟩
    · exact Or.inl ⟨_, _, (Option.some.inj h).symm⟩

theorem refusal_blocked {envs : Nat → Env} {resp : PyDict}
    (h : refusal submit envs = some (.ok resp)) :
    ∃ effect reason, resp = blocked effect reason := by
  rcases refusal_cases submit h with ⟨effect, reason, hresp⟩ | ⟨e, -, hraise⟩
  · exact ⟨effect, reason, Except.ok.inj hresp⟩
  · exact absurd hraise (by simp only [reduceCtorEq, not_false_eq_true])

/-- A refused operation ends as its opening did and changes nothing. -/
theorem run_refused {envs : Nat → Env} {w : World} {out : Except Exc PyDict}
    (h : refusal submit envs = some out) :
    (run perform (secured submit body) envs w).outcome = out ∧
      (run perform (secured submit body) envs w).world = w := by
  -- The first three commands are answered by the environments 0, 1 and 2.
  unfold secured
  rw [ask_bind]
  dsimp only [run, perform]
  rw [admit_bind]
  dsimp only [run, perform]
  unfold refusal at h
  dsimp only at h
  rcases hadmission : (envs 1).admission (submit (envs 0).now) with e | admission
  · rw [hadmission] at h
    exact ⟨Option.some.inj h, rfl⟩
  rw [hadmission] at h
  dsimp only at h
  rw [ofExcept_ok, done_bind]
  split at h
  · next hallowed =>
      rw [if_pos hallowed]
      revert h
      rcases admission.permit with _ | permit
      · exact fun h => ⟨Option.some.inj h, rfl⟩
      · dsimp only
        rw [ask_bind]
        dsimp only [run, perform]
        by_cases hlive : ((envs 2).revalidate (submit (envs 0).now) permit).allowed = true
        · -- Revalidation allowed, so this was no refusal.
          rw [if_pos hlive]
          exact fun h => absurd h (by simp only [reduceCtorEq, not_false_eq_true])
        · rw [if_neg hlive, if_neg hlive]
          exact fun h => ⟨Option.some.inj h, rfl⟩
  · next hallowed =>
      rw [if_neg hallowed]
      exact ⟨Option.some.inj h, rfl⟩

/-- An operation whose request the factory makes no invocation of has asked for
    nothing else. -/
theorem run_uncreated {envs : Nat → Env} (w : World) {e : Exc}
    (h : (envs 1).create (submit (envs 0).now) = some e) :
    (run perform (secured submit body) envs w).trace =
      uncreatedTrace (envs 0).now (submit (envs 0).now) e := by
  unfold secured
  rw [ask_bind]
  dsimp only [run, perform]
  rw [admit_bind]
  dsimp only [run, perform]
  rw [Env.admission_error.mpr h]
  rfl

/-- An operation that is not refused has been let through by both checks. -/
theorem refusal_none {envs : Nat → Env} (h : refusal submit envs = none) :
    (envs 1).create (submit (envs 0).now) = none ∧
      ((envs 1).begin (submit (envs 0).now)).allowed = true ∧
      ∃ permit, ((envs 1).begin (submit (envs 0).now)).permit = some permit ∧
        ((envs 2).revalidate (submit (envs 0).now) permit).allowed = true := by
  unfold refusal at h
  dsimp only at h
  rcases hadmission : (envs 1).admission (submit (envs 0).now) with e | admission
  · rw [hadmission] at h
    exact absurd h (by simp only [reduceCtorEq, not_false_eq_true])
  rw [hadmission] at h
  dsimp only at h
  rcases Env.admission_ok.mp hadmission with ⟨hcreate, rfl⟩
  refine ⟨hcreate, ?_⟩
  split at h
  · next hallowed =>
      split at h
      · exact absurd h (by simp only [reduceCtorEq, not_false_eq_true])
      · next permit hpermit =>
          split at h
          · next hlive => exact ⟨hallowed, permit, hpermit, hlive⟩
          · exact absurd h (by simp only [reduceCtorEq, not_false_eq_true])
  · exact absurd h (by simp only [reduceCtorEq, not_false_eq_true])

/-- An operation that both checks let through opens with them, and goes on as its
    body, from the fourth environment on. -/
theorem run_gate {envs : Nat → Env} (w : World) {permit : Permit}
    (hcreate : (envs 1).create (submit (envs 0).now) = none)
    (hallowed : ((envs 1).begin (submit (envs 0).now)).allowed = true)
    (hpermit : ((envs 1).begin (submit (envs 0).now)).permit = some permit)
    (hlive : ((envs 2).revalidate (submit (envs 0).now) permit).allowed = true) :
    let rest := run perform (body permit ((envs 2).revalidate (submit (envs 0).now) permit))
      (fun n => envs (n + 3)) w
    (run perform (secured submit body) envs w).outcome = rest.outcome ∧
      (run perform (secured submit body) envs w).world = rest.world ∧
      (run perform (secured submit body) envs w).trace = gateTrace (envs 0).now
        (submit (envs 0).now) ((envs 1).begin (submit (envs 0).now)) permit
        ((envs 2).revalidate (submit (envs 0).now) permit) ++ rest.trace := by
  intro rest
  unfold secured
  rw [ask_bind]
  dsimp only [run, perform]
  rw [admit_bind]
  dsimp only [run, perform]
  rw [Env.admission_ok.mpr ⟨hcreate, rfl⟩, ofExcept_ok, done_bind, if_pos hallowed, hpermit]
  dsimp only
  rw [ask_bind]
  dsimp only [run, perform]
  rw [if_pos hlive]
  exact ⟨rfl, rfl, rfl⟩

/-- An operation that is not refused is admitted. -/
theorem run_admitted {envs : Nat → Env} (w : World) (h : refusal submit envs = none) :
    ∃ permit, Admitted (run perform (secured submit body) envs w).trace
      (submit (envs 0).now) permit := by
  rcases refusal_none submit h with ⟨hcreate, hallowed, permit, hpermit, hlive⟩
  rcases run_gate submit body w hcreate hallowed hpermit hlive with ⟨-, -, htrace⟩
  refine ⟨permit, ?_⟩
  rw [htrace]
  exact admitted_append (gateTrace_admitted _ _ hallowed hpermit hlive) _

/-- An operation that is not refused goes on as its body. -/
theorem run_opened {envs : Nat → Env} (w : World) (h : refusal submit envs = none) :
    ∃ permit, ((envs 1).begin (submit (envs 0).now)).permit = some permit ∧
      (run perform (secured submit body) envs w).outcome =
        (run perform (body permit ((envs 2).revalidate (submit (envs 0).now) permit))
          (fun n => envs (n + 3)) w).outcome ∧
      (run perform (secured submit body) envs w).world =
        (run perform (body permit ((envs 2).revalidate (submit (envs 0).now) permit))
          (fun n => envs (n + 3)) w).world := by
  rcases refusal_none submit h with ⟨hcreate, hallowed, permit, hpermit, hlive⟩
  rcases run_gate submit body w hcreate hallowed hpermit hlive with ⟨hout, hworld, -⟩
  exact ⟨permit, hpermit, hout, hworld⟩

/-- A provider operation that returns under the handler of a secured tool: the
    permit is completed and the tool goes on with the result, or the tool
    raises. -/
theorem run_handled {envs : Nat → Env} (w : World) {operation : App PyDict}
    (f : PyDict → App PyDict) (permit : Permit) (message : String) {resp : PyDict} {w' : World}
    {n : Nat}
    (hout : (run perform operation envs w).outcome = .ok resp)
    (hworld : (run perform operation envs w).world = w')
    (hsteps : (run perform operation envs w).steps.length = n) :
    let tool := markUnknownOnError permit operation >>= fun result =>
      completeOrRaise permit message >>= fun _ => f result
    ((envs n).complete permit = true →
      (run perform tool envs w).outcome =
          (run perform (f resp) (fun m => envs (m + 1 + n)) w').outcome ∧
        (run perform tool envs w).world =
          (run perform (f resp) (fun m => envs (m + 1 + n)) w').world) ∧
    (¬ (envs n).complete permit = true →
      (run perform tool envs w).outcome = .error (.runtimeError message) ∧
        (run perform tool envs w).world = w') := by
  intro tool
  have hhandled : run perform (markUnknownOnError permit operation) envs w =
      run perform operation envs w := run_tryCatch_ok perform operation _ envs w hout
  have hbind := run_bind_ok perform (markUnknownOnError permit operation)
    (fun result => completeOrRaise permit message >>= fun _ => f result) envs w
    ((congrArg (·.outcome) hhandled).trans hout)
  rw [hhandled, hworld, hsteps] at hbind
  rw [hbind.1, hbind.2]
  -- The completion is one command.
  unfold completeOrRaise
  rw [ask_bind, call_bind]
  dsimp only [run, perform]
  rw [Nat.zero_add]
  constructor
  · intro hcomplete
    rw [if_pos hcomplete]
    exact ⟨rfl, rfl⟩
  · intro hcomplete
    rw [if_neg hcomplete]
    exact ⟨rfl, rfl⟩

end Runs

/-- Nothing happens without two live authorizations in the same call. A call
    that does not replay, and in which Ruhusa did not admit and revalidate a
    request with a permit, changes nothing and is answered as blocked, unless
    Ruhusa was never asked: then it may instead raise what the factory raised of
    its request, or what deriving its key raised before anything. A replay
    issues no command and answers with the stored result; and a step of any
    call that changes a store comes after the call's own request was admitted
    and revalidated with one permit. -/
theorem no_effect_without_authorization (d : Deployment) (call : ToolCall) (envs : Nat → Env)
    (w : World) :
    (¬ call.Replays →
      (∀ req permit, ¬ Admitted (run perform (call.code d) envs w).trace req permit) →
      (run perform (call.code d) envs w).world = w ∧
      ((∃ resp, (run perform (call.code d) envs w).outcome = .ok resp ∧
          resp.get? "status" = some (.str "blocked")) ∨
        ∃ e, (run perform (call.code d) envs w).outcome = .error e ∧
          ((call.keyError d = some e ∧ (run perform (call.code d) envs w).trace = []) ∨
            ((envs 1).create (call.request d (envs 0).now) = some e ∧
              (run perform (call.code d) envs w).trace =
                uncreatedTrace (envs 0).now (call.request d (envs 0).now) e)))) ∧
    (call.Replays → ∃ approval task chain, call = .executeApproved approval task chain ∧
      (run perform (call.code d) envs w).outcome = .ok (replayExecuted approval) ∧
      (run perform (call.code d) envs w).steps = [] ∧
      (run perform (call.code d) envs w).world = w) ∧
    (∀ pre s post, (run perform (call.code d) envs w).steps = pre ++ s :: post →
      s.after.stores ≠ s.before.stores →
      ∃ now permit, Admitted (pre.map (·.event)) (call.request d now) permit) := by
  refine ⟨fun hreplay hnone => ?_, fun hreplay => ?_, fun pre s post hsteps hchange => ?_⟩
  · rcases code_shape d call hreplay with
      ⟨effect, reason, hcode⟩ | ⟨e, herror, hcode⟩ | ⟨body, hcode⟩
    · rw [hcode]
      -- Refused on its arguments: nothing was asked and nothing changed.
      exact ⟨rfl, Or.inl ⟨_, rfl, rfl⟩⟩
    · rw [hcode]
      exact ⟨rfl, Or.inr ⟨e, rfl, Or.inl ⟨herror, rfl⟩⟩⟩
    · rw [hcode] at hnone ⊢
      -- No admission in the trace means that the opening ended the call.
      rcases hrefusal : refusal (call.request d) envs with _ | out
      · rcases run_admitted _ body w hrefusal with ⟨permit, hadm⟩
        exact absurd hadm (hnone _ permit)
      · rcases run_refused _ body hrefusal with ⟨hout, hworld⟩
        refine ⟨hworld, ?_⟩
        rcases refusal_cases _ hrefusal with ⟨effect, reason, hresp⟩ | ⟨e, hcreate, hraise⟩
        · exact Or.inl ⟨_, by rw [hout, hresp], rfl⟩
        · exact Or.inr ⟨e, by rw [hout, hraise],
            Or.inr ⟨hcreate, run_uncreated _ body w hcreate⟩⟩
  · rcases replay_code d hreplay with ⟨approval, task, chain, hcall, hcode⟩
    refine ⟨approval, task, chain, hcall, ?_⟩
    rw [hcode]
    exact ⟨rfl, rfl, rfl⟩
  · -- What changed the store is a command of the run, in the world it was performed in.
    have hs : s ∈ (run perform (call.code d) envs w).steps := by
      rw [hsteps]
      exact List.mem_append_right pre List.mem_cons_self
    rcases run_perform perform _ envs w s hs with ⟨n, hstep⟩
    -- Only a command on the stores can have changed them.
    have htouch : touchesStores s.event.cmd = true := by
      by_contra hno
      have hframe := perform_stores (Bool.eq_false_iff.mpr hno) (envs n) s.before
      rw [hstep] at hframe
      exact hchange hframe
    -- The events before it are a walk of the operation.
    have hwalk := run_walks perform (call.code d) envs w
    unfold Core.Finish.trace at hwalk
    rw [hsteps, List.map_append, List.map_cons] at hwalk
    exact store_step_admitted d call hwalk htouch

/-- An approval that was executed before. -/
def executedApproval : ApprovalRecord :=
  { approvalId := "approval:0f"
    action := approvedCreditAction
    taskId := "7f"
    requestedBy := "oauth:https://dev.asante.local#claire"
    reservationId := "R-3001"
    amount := 40
    reason := "broken air conditioning"
    policyId := some "service-recovery-credit-request"
    status := .executed
    createdAt := "2026-01-01T00:00:00+00:00"
    executionResult := some [("status", .str "issued"), ("amount", .num 40)] }

/-- A replay is not blocked, though Ruhusa would refuse. -/
theorem executed_replays_without_authorization :
    ¬ ∀ (d : Deployment) (call : ToolCall) (envs : Nat → Env) (w : World),
      (∀ n req, ((envs n).begin req).allowed = false) →
      ∃ resp, (run perform (call.code d) envs w).outcome = .ok resp ∧
        resp.get? "status" = some (.str "blocked") := by
  intro h
  rcases h .sample (.executeApproved executedApproval sampleTask []) (fun _ => Env.refusing)
    World.empty (fun _ _ => rfl) with ⟨resp, hout, hstatus⟩
  -- The replay answers with the stored result, whose status is not `blocked`.
  have hresp : replayExecuted executedApproval = resp := Except.ok.inj hout
  rw [← hresp] at hstatus
  exact absurd (Option.some.inj hstatus) (by simp)

/-- A reservation read that Ruhusa refuses answers the same whatever the cache
    and the provider hold, without a reservation, and leaves both as they
    were, and one that could not be submitted to Ruhusa raises the same; and in
    every pool of tool calls, a read that answered with a reservation was
    admitted and revalidated for its own request. -/
theorem denied_read_independent_of_cache (d : Deployment) :
    (∀ (reservationId : String) (task : TaskContext) (chain : List DelegationGrant)
      (envs envs' : Nat → Env) (w w' : World),
      (∀ n, (envs n).now = (envs' n).now ∧ (envs n).create = (envs' n).create ∧
        (envs n).begin = (envs' n).begin ∧ (envs n).revalidate = (envs' n).revalidate) →
      (∀ req permit, ¬ Admitted
        (run perform (getReservation d reservationId task chain) envs w).trace req permit) →
      ∃ out,
        (run perform (getReservation d reservationId task chain) envs w).outcome = out ∧
        (run perform (getReservation d reservationId task chain) envs' w').outcome = out ∧
        ((∃ resp, out = .ok resp ∧ resp.get? "reservation" = none) ∨
          ∃ e, out = .error e ∧ (envs 1).create
            (reservationRequest d reservationId task chain (envs 0).now) = some e) ∧
        (run perform (getReservation d reservationId task chain) envs w).world = w ∧
        (run perform (getReservation d reservationId task chain) envs' w').world = w') ∧
    (∀ (w : World) (sched : List (Core.Action ToolCall Env)),
      ∀ th ∈ ((Core.Config.start w).exec perform (ToolCall.code d) sched).threads,
      ∀ reservationId task chain, th.call = .getReservation reservationId task chain →
      ∀ resp value, th.rest = done resp → resp.get? "reservation" = some value →
      ∃ now permit, Admitted th.trace (reservationRequest d reservationId task chain now)
        permit) := by
  constructor
  · intro reservationId task chain envs envs' w w' hsame hnone
    unfold getReservation at hnone ⊢
    -- The opening decides the same in both families of environments.
    rcases hrefusal : refusal (reservationRequest d reservationId task chain) envs with _ | out
    · rcases run_admitted _ _ w hrefusal with ⟨permit, hadm⟩
      exact absurd hadm (hnone _ permit)
    · have hrefusal' := hrefusal
      rw [refusal_congr _ (fun n => (hsame n).1) (fun n => (hsame n).2.1)
        (fun n => (hsame n).2.2.1) (fun n => (hsame n).2.2.2)] at hrefusal'
      rcases run_refused _ _ hrefusal with ⟨hout, hworld⟩
      rcases run_refused _ _ hrefusal' with ⟨hout', hworld'⟩
      refine ⟨out, hout, hout', ?_, hworld, hworld'⟩
      rcases refusal_cases _ hrefusal with ⟨effect, reason, hresp⟩ | ⟨e, hcreate, hraise⟩
      · exact Or.inl ⟨_, hresp, rfl⟩
      · exact Or.inr ⟨e, hraise, hcreate⟩
  · intro w sched th hth reservationId task chain hcall resp value hdone hvalue
    -- The trace of a thread in a pool is a walk of its operation.
    have hwalk := Core.exec_walks perform (ToolCall.code d) w sched th hth
    rw [hcall] at hwalk
    rcases along_walks hwalk [] (tool_gated d _ id) with ⟨now, permit, hadm⟩ | ⟨_, hrefused⟩
    · exact ⟨now, permit, hadm⟩
    · -- A refusal carries no reservation.
      rw [hdone] at hrefused
      rcases hrefused _ rfl with ⟨effect, reason, hresp⟩
      rw [hresp] at hvalue
      exact absurd hvalue (by simp [blocked, PyDict.get?_cons])

/-- An admission is there to be found in the trace. -/
theorem admitted_begin {tr : List AppEvent} {req : Request} {permit : Permit}
    (h : Admitted tr req permit) :
    ∃ adm : Admission, (⟨.begin req, .ok adm⟩ : AppEvent) ∈ tr ∧ adm.allowed = true := by
  rcases h with ⟨a, b, c, adm, live, htr, hadm, _, _⟩
  refine ⟨adm, ?_, hadm⟩
  rw [htr]
  exact List.mem_append_right a List.mem_cons_self

/-- A world whose cache holds the reservation `R-3001`. -/
def cachedWorld : World :=
  { World.empty with cache :=
      { entries := [(reservationDigest sampleSha256 "R-3001",
          ⟨[("guest_name", .str "Amina N.")], 0, 300⟩)]
        getCalls := 0 } }

/-- A read of `R-3001`, admitted and answered. -/
def readSchedule : List (Core.Action ToolCall Env) :=
  .spawn (.getReservation "R-3001" sampleTask []) :: List.replicate 7 (.advance 0 .granting)

theorem denied_read_sample :
    (∃ resp,
      (run perform (getReservation .sample "R-3001" sampleTask []) (fun _ => Env.refusing)
        World.empty).outcome = .ok resp ∧
      (run perform (getReservation .sample "R-3001" sampleTask []) (fun _ => Env.refusing)
        cachedWorld).outcome = .ok resp ∧
      resp.get? "reservation" = none) ∧
    (∃ now permit, Admitted
      (((Core.Config.start World.empty).exec perform (ToolCall.code .sample)
        readSchedule).threads.flatMap (·.trace))
      (reservationRequest .sample "R-3001" sampleTask [] now) permit) := by
  constructor
  · -- The trace of the refused read is two events long, and its one decision denies.
    have hdenied : ∀ req permit, ¬ Admitted
        (run perform (getReservation .sample "R-3001" sampleTask []) (fun _ => Env.refusing)
          World.empty).trace req permit := by
      intro req permit h
      rcases admitted_begin h with ⟨adm, hmem, hallowed⟩
      rcases List.mem_cons.mp hmem with hnow | hbegin
      · cases hnow
      · rcases List.mem_cons.mp hbegin with hbegin | hrest
        · cases hbegin
          exact absurd hallowed (by decide)
        · cases hrest
    rcases (denied_read_independent_of_cache .sample).1 "R-3001" sampleTask []
      (fun _ => Env.refusing) (fun _ => Env.refusing) World.empty cachedWorld
      (fun _ => ⟨rfl, rfl, rfl, rfl⟩) hdenied with
      ⟨out, hout, hout', ⟨resp, hresp, hnone⟩ | ⟨e, hraise, hcreate⟩, _⟩
    · exact ⟨resp, hout.trans hresp, hout'.trans hresp, hnone⟩
    · exact absurd hcreate (by simp [Env.refusing, Env.answering])
  · exact (denied_read_independent_of_cache .sample).2 World.empty readSchedule _
      (List.mem_singleton.mpr rfl) "R-3001" sampleTask [] rfl _ _ rfl rfl

end Asante
