import Asante.Core.Dict
import Asante.Model.ApiModels
import Asante.Theory.Authentication
import Asante.Theory.Contracts
import Asante.Theory.Unasked

/-!
# Conformance to the API Models

No answer of an endpoint is turned into an internal error because it does not
fit the response model: in every run, whatever the calls and their order and
whatever fails, what an endpoint returns is accepted by an alternative of its
model, and so is every record of the listings. The one exception is the trace id:
the models take a text, so where the telemetry is disabled and there is none,
everything but a denial is refused.

The one thing the application cannot see to itself is the effect of a refusal,
which is what Ruhusa says it is. The models of a blocked request know `deny` and
`require_approval`, so the results assume that Ruhusa does not refuse a request
with the effect `allow`.

The proof is a contract. A value is put in the cache only if it is a
reservation record, a reservation the cache or the provider answers is one, and
the answer of the ledger is a credit; from that alone every operation returns
what its endpoint declares.

## Main definitions

* `Env.RefusesPlainly`: No request is refused with the effect `allow`.
* `responseContract`: What the operations put in and what they are answered.
* `CreditResult`, `ReservationResult`: What the direct operations return.
* `Endpoint.traced`: The endpoints whose body carries the trace id.
* `Accepted`: What the endpoint of a call returns is valid, if it needs no trace id.

## Theorems

* `app_accepted`: Every call keeps to the contract and ends in a valid response.
* `http_responses_valid`: What the endpoints answer over HTTP is valid, but for a
  missing trace id.
* `http_reads_valid`: And so are the listings and the identity that is shown.
-/

namespace Asante

open Core.Prog Core.Contract

/-- Ruhusa refuses no request with the effect `allow`. -/
structure Env.RefusesPlainly (env : Env) : Prop where
  begin : ∀ req, (env.begin req).allowed = false → (env.begin req).authorization.effect ≠ .allow
  revalidate : ∀ req permit, (env.revalidate req permit).allowed = false →
    (env.revalidate req permit).authorization.effect ≠ .allow

/-- A reservation is put in the cache only if it is a reservation record. -/
def Requires : Cmd → Prop
  | .cachePut _ value _ => reservationRecord.accepts value = true
  | _ => True

/-- What the answers satisfy that end up in a response. -/
def Ensures : (c : Cmd) → c.Answer → Prop
  | .begin _, answer => ∀ admission, answer = .ok admission → admission.allowed = false →
    admission.authorization.effect ≠ .allow
  | .revalidate _ _, live => live.allowed = false → live.authorization.effect ≠ .allow
  | .ledgerIssue _ _ _, answer => ∀ result, answer = .ok result →
    ∃ credit deduplicated, result = withDeduplicated (Credit.toDict credit) deduplicated
  | .cacheGet _, answer => ∀ lookup value, answer = .ok lookup → lookup.value = some value →
    reservationRecord.accepts value = true
  | .providerGetReservation _, answer => ∀ value, answer = .ok (some value) →
    reservationRecord.accepts value = true
  | _, _ => True

/-- The reservations of the cache and of the provider are reservation records. -/
structure RecordsOnly (w : World) : Prop where
  cached : ∀ e ∈ w.cache.entries, reservationRecord.accepts e.2.value = true
  provided : ∀ e ∈ w.reservations.reservations, reservationRecord.accepts e.2 = true

theorem recordsOnly_empty : RecordsOnly World.empty where
  cached := fun _ he => absurd he List.not_mem_nil
  provided := by
    have hseeded : (seededReservations.all fun e => reservationRecord.accepts e.2) = true := by
      decide
    exact List.all_eq_true.mp hseeded

theorem recordsOnly_frame {c : Cmd} (hcache : c.store ≠ some .cache)
    (hreservations : c.store ≠ some .reservations) (env : Env) {w : World} (h : RecordsOnly w) :
    RecordsOnly (perform c env w).2 where
  cached := (perform_frame hcache env w : (perform c env w).2.cache = w.cache) ▸ h.cached
  provided := (perform_frame hreservations env w :
    (perform c env w).2.reservations = w.reservations) ▸ h.provided

/-- A step that answers keeps the records where it is taken with no fault. -/
theorem recordsOnly_apply {X : Type} {fault : Fault} {w : World} {step : Except Exc X × World}
    (hw : RecordsOnly w) (hstep : RecordsOnly step.2) : RecordsOnly (fault.apply w step).2 := by
  cases fault with
  | none => exact hstep
  | before e => exact hw
  | after e => exact hstep

theorem mem_popEntry {entries : List (String × CacheEntry ℚ)} {key : String}
    {e : String × CacheEntry ℚ} (h : e ∈ popEntry entries key) : e ∈ entries :=
  (List.mem_filter.mp h).1

/-- A lookup answers a record, and takes nothing in. -/
theorem cacheGet_records {w : World} (h : RecordsOnly w) (monotonic : ℚ) (key : String) :
    (∀ value, (cacheGet monotonic key w.cache).1.value = some value →
      reservationRecord.accepts value = true) ∧
    RecordsOnly { w with cache := (cacheGet monotonic key w.cache).2 } := by
  rcases hlookup : w.cache.entries.lookup key with _ | entry
  · simp only [cacheGet, hlookup]
    exact ⟨fun value hvalue => absurd hvalue (by simp only [reduceCtorEq, not_false_eq_true]),
      h.cached, h.provided⟩
  · by_cases hexpired : entry.expiresAt ≤ monotonic
    · simp only [cacheGet, hlookup, if_pos hexpired]
      exact ⟨fun value hvalue => absurd hvalue (by simp only [reduceCtorEq, not_false_eq_true]),
        fun e he => h.cached e (mem_popEntry he), h.provided⟩
    · simp only [cacheGet, hlookup, if_neg hexpired]
      refine ⟨fun value hvalue => ?_, h.cached, h.provided⟩
      rw [← Option.some.inj hvalue]
      exact h.cached _ (Core.mem_of_lookup hlookup)

theorem cachePut_records {w : World} (h : RecordsOnly w) {monotonic ttlSeconds : ℚ} {key : String}
    {value : PyDict} (hvalue : reservationRecord.accepts value = true) :
    RecordsOnly { w with cache := (cachePut monotonic key value ttlSeconds w.cache).2 } := by
  unfold cachePut
  split
  · exact ⟨h.cached, h.provided⟩
  · refine ⟨fun e he => ?_, h.provided⟩
    rcases List.mem_cons.mp he with rfl | hold
    · exact hvalue
    · exact h.cached e (mem_popEntry hold)

/-- The contract of the responses. -/
def responseContract : Core.Contract Cmd Cmd.Answer Env World where
  perform := perform
  requires := Requires
  ensures := Ensures
  inv := RecordsOnly
  adm := Env.RefusesPlainly
  kept := fun c env w hrequires hadm hinv => by
    cases c with
    | begin req =>
        exact ⟨fun admission hanswer => (Env.admission_ok.mp hanswer).2 ▸ hadm.begin req, hinv⟩
    | revalidate req permit => exact ⟨hadm.revalidate req permit, hinv⟩
    | ledgerIssue writer credit key =>
        refine ⟨fun result hresult => ?_,
          recordsOnly_frame (by simp [Cmd.store]) (by simp [Cmd.store]) env hinv⟩
        have hanswer := Except.ok.inj (apply_ok hresult).1
        exact ⟨_, _, hanswer.symm⟩
    | cacheGet key =>
        have hget := cacheGet_records hinv env.monotonic key
        refine ⟨fun lookup value hanswer hvalue => ?_, recordsOnly_apply hinv hget.2⟩
        rw [← Except.ok.inj (apply_ok hanswer).1] at hvalue
        exact hget.1 value hvalue
    | cachePut key value ttlSeconds =>
        exact ⟨trivial, recordsOnly_apply hinv (cachePut_records hinv hrequires)⟩
    | providerGetReservation reservationId =>
        refine ⟨fun value hanswer => ?_, recordsOnly_apply hinv ⟨hinv.cached, hinv.provided⟩⟩
        exact hinv.provided _ (Core.mem_of_lookup (Except.ok.inj (apply_ok hanswer).1))
    | _ => exact ⟨trivial, recordsOnly_frame (by simp [Cmd.store]) (by simp [Cmd.store]) env hinv⟩

/-- The program keeps to the contract, and what it returns satisfies `Q`. -/
abbrev Responds {α : Type} (Q : α → Prop) (p : App α) : Prop :=
  responseContract.Yields Q p

section Rules

variable {α β : Type} {Q : α → Prop}

/-- A program that fills no cache says nothing of what it returns. -/
theorem responds_free {p : App α} (h : Issues (fun c => c.store ≠ some .cache) p) :
    Responds (fun _ => True) p := by
  refine yields_of_issues _ (issues_mono (fun c hc => ?_) h)
  cases c with
  | cachePut key value ttlSeconds => exact absurd rfl hc
  | _ => trivial

/-- A refusal, with an effect that is not `allow`. -/
def IsBlocked (result : PyDict) : Prop :=
  ∃ effect : DecisionEffect, ∃ reason, effect ≠ .allow ∧ result = blocked effect.value reason

/-- A secured operation is refused, or ends as its body does. -/
theorem responds_secured {Q : PyDict → Prop} {submit : Int → Request}
    {body : Permit → Revalidation → App PyDict} (hrefused : ∀ result, IsBlocked result → Q result)
    (hbody : ∀ permit live, Responds Q (body permit live)) : Responds Q (secured submit body) := by
  unfold secured
  refine yields_bind _ (yields_ask trivial) fun now _ => ?_
  refine yields_bind _ (yields_orRaise (Q := fun admission => admission.allowed = false →
    admission.authorization.effect ≠ .allow) (yields_ask trivial)
    fun admission h => h admission rfl) fun admission hadmission => ?_
  by_cases hallowed : admission.allowed = true
  · rw [if_pos hallowed]
    cases admission.permit with
    | none => exact hrefused _ ⟨.deny, _, by decide, rfl⟩
    | some permit =>
        refine yields_bind _ (yields_ask trivial) fun live hlive => ?_
        by_cases hstill : live.allowed = true
        · rw [if_pos hstill]
          exact hbody permit live
        · rw [if_neg hstill]
          exact hrefused _ ⟨_, _, hlive (Bool.eq_false_iff.mpr hstill), rfl⟩
  · rw [if_neg hallowed]
    exact hrefused _ ⟨_, _, hadmission (Bool.eq_false_iff.mpr hallowed), rfl⟩

theorem responds_markUnknown {permit : Permit} {operation : App α} (h : Responds Q operation) :
    Responds Q (markUnknownOnError permit operation) := by
  refine yields_tryCatch _ h fun e => ?_
  split
  · exact yields_bind _ (yields_ask trivial) fun _ _ => trivial
  · trivial

theorem responds_complete {permit : Permit} {message : String} {rest : App α}
    (h : Responds Q rest) : Responds Q (completeOrRaise permit message >>= fun _ => rest) := by
  refine yields_bind _ (P := fun _ => True) (yields_bind _ (yields_ask trivial)
    fun completed _ => ?_) fun _ _ => h
  split
  · trivial
  · trivial

end Rules

/-- What a direct credit returns. -/
def CreditResult (result : PyDict) : Prop :=
  IsBlocked result ∨ ∃ credit deduplicated live,
    result = allowed (withDeduplicated (Credit.toDict credit) deduplicated) live

theorem issueCredit_result (d : Deployment) (retryPolicy : RetryPolicy) (reservationId : String)
    (amount : ℚ) (reason : String) (task : TaskContext) (chain : List DelegationGrant) :
    Responds CreditResult (issueCredit d retryPolicy reservationId amount reason task chain) := by
  refine responds_secured (fun result h => Or.inl h) fun permit live => ?_
  have hissue : ∀ key, Responds (fun result => ∃ credit deduplicated,
      result = withDeduplicated (Credit.toDict credit) deduplicated)
      (orRaise (ask (.ledgerIssue (.issueCredit task.taskId) ⟨reservationId, amount, reason⟩
        key))) :=
    fun key => yields_orRaise (yields_ask trivial) fun result h => h result rfl
  refine yields_bind _ (P := fun _ => True) (yields_ofExcept fun _ _ => trivial) fun key _ => ?_
  refine yields_bind _ (responds_markUnknown (yields_retry (fun _ => trivial)
    (fun _ => trivial) (hissue key) _ _))
    fun result hresult => ?_
  rcases hresult with ⟨credit, deduplicated, rfl⟩
  exact responds_complete (Or.inr ⟨credit, deduplicated, live, rfl⟩)

/-- What a reservation read returns. -/
inductive ReservationResult : PyDict → Prop
  | blocked (result : PyDict) (h : IsBlocked result) : ReservationResult result
  | notFound (policyId : Option String) : ReservationResult
      [("status", .str "not_found"), ("effect", .str "allow"), ("policy_id", optStr policyId),
        ("cache", .str "miss")]
  | found (live : Revalidation) (cache : String) (reservation : PyDict)
      (hcache : cache = "hit" ∨ cache = "miss")
      (h : reservationRecord.accepts reservation = true) :
      ReservationResult (foundReservation live cache reservation)

theorem getReservation_result (d : Deployment) (reservationId : String) (task : TaskContext)
    (chain : List DelegationGrant) :
    Responds ReservationResult (getReservation d reservationId task chain) := by
  refine responds_secured .blocked fun permit live => ?_
  refine yields_bind _ (P := fun _ => True) (yields_ofExcept fun _ _ => trivial) fun key _ => ?_
  refine yields_bind _ (yields_orRaise (Q := fun lookup => ∀ value, lookup.value = some value →
    reservationRecord.accepts value = true) (yields_ask trivial)
    fun lookup h value => h lookup value rfl) fun lookup hlookup => ?_
  split
  · next value hhit hvalue =>
      exact responds_complete (.found live "hit" value (Or.inl rfl) (hlookup value hvalue))
  · -- The provider is asked, and what it answers is put in the cache before it is returned.
    refine yields_bind _ (yields_orRaise (Q := fun reservation => ∀ value,
      reservation = some value → reservationRecord.accepts value = true) (yields_ask trivial)
      fun reservation h value hvalue => h value (hvalue ▸ rfl)) fun reservation hreservation => ?_
    cases reservation with
    | none => exact responds_complete (.notFound _)
    | some reservation =>
        have haccepted := hreservation reservation rfl
        refine yields_bind _ (yields_orRaise (Q := fun _ => True) (yields_ask haccepted)
          fun _ _ => trivial) fun _ _ => ?_
        exact responds_complete (.found live "miss" reservation (Or.inr rfl) haccepted)

/-- What the endpoint returns carries the trace id: that of a denial does not. -/
def Endpoint.traced : Endpoint → Bool
  | deny _ _ => false
  | _ => true

/-- What the endpoint of a call returns is valid, unless it carries a trace id and
    there is none. -/
def Accepted (call : AppCall) (response : Response) : Prop :=
  ∀ endpoint operator, call = Endpoint.appCall operator endpoint → ∀ traceId lastAgent,
    endpoint.valid (endpoint.render traceId lastAgent response) =
      (traceId.isSome || !endpoint.traced)

/-- A model that takes a text for the trace id accepts nothing that has none. -/
theorem accepts_untraced {model : ResponseModel} {fields : PyDict}
    (hfield : ⟨"trace_id", FieldType.text, false⟩ ∈ model)
    (hnone : fields.get? "trace_id" = some .none) : model.accepts fields = false := by
  refine Bool.eq_false_iff.mpr fun haccepts => ?_
  have htext := List.all_eq_true.mp haccepts _ hfield
  unfold ResponseField.accepts at htext
  rw [hnone] at htext
  exact Bool.noConfusion htext

/-- Every model of an endpoint that carries a trace id takes a text for it. -/
theorem traced_models {endpoint : Endpoint} (htraced : endpoint.traced = true) :
    ∀ model ∈ endpoint.responseModels, ⟨"trace_id", FieldType.text, false⟩ ∈ model := by
  cases endpoint with
  | deny approvalId note => exact Bool.noConfusion htraced
  | _ => simp [Endpoint.responseModels, agentRunResponse, creditIssuedResponse,
      creditBlockedResponse, reservationFoundResponse, reservationNotFoundResponse,
      reservationBlockedResponse, approvalExecutionResponse, taskFields]

/-- With no trace id, nothing that carries one is valid. -/
theorem untraced_invalid {endpoint : Endpoint} {fields : PyDict}
    (htraced : endpoint.traced = true) (hnone : fields.get? "trace_id" = some .none) :
    endpoint.valid fields = false := by
  refine List.any_eq_false.mpr fun model hmodel => ?_
  exact Bool.eq_false_iff.mp (accepts_untraced (traced_models htraced model hmodel) hnone)

/-- A program that works on other stores than the cache. -/
theorem responds_worksOn {α : Type} {stores : List Store} {p : App α} (hcache : .cache ∉ stores)
    (h : Issues (WorksOn stores) p) : Responds (fun _ => True) p := by
  refine responds_free (issues_mono (fun c hc => ?_) h)
  exact fun hstore => hcache (hc _ hstore)

/-- Every operation keeps to the contract. -/
theorem tool_responds (d : Deployment) (call : ToolCall) :
    Responds (fun _ => True) (call.code d) := by
  cases call with
  | getReservation reservationId task chain =>
      exact yields_mono _ (fun _ _ => trivial) (getReservation_result d reservationId task chain)
  | _ => exact responds_worksOn (by simp [ToolCall.stores]) (tool_footprint d _)

theorem mcp_responds (d : Deployment) (tool : McpTool) (metadata : PyDict) :
    Responds (fun _ => True) (tool.call d metadata) := by
  refine yields_bind _ (yields_ofExcept fun _ _ => trivial) fun _ _ => ?_
  refine yields_bind _ (yields_ofExcept fun _ _ => trivial) fun taskId _ => ?_
  refine yields_bind _ (yields_orRaise (Q := fun _ => True) (yields_ask trivial)
    fun _ _ => trivial) fun _ _ => ?_
  refine yields_tryCatch _ ?_ fun e => ?_
  · rw [forTrustedTask_eq]
    exact yields_bind _ (yields_orRaise (Q := fun _ => True) (yields_ask trivial)
      fun _ _ => trivial) fun context _ => tool_responds d _
  · split
    · trivial
    · trivial

/-- A blocked result has no trace id of its own. -/
theorem blocked_untraced {result : PyDict} (h : IsBlocked result) (task : TaskContext) :
    (PyDict.merge [("trace_id", .none)] (PyDict.merge [("task_id", .str task.taskId),
      ("initiated_by", .str task.initiatedBy)] result)).get? "trace_id" = some .none := by
  rcases h with ⟨effect, reason, -, rfl⟩
  rfl

/-- The entries of a blocked result, as the endpoints of the direct operations
    return them. -/
theorem blocked_accepted {result : PyDict} (h : IsBlocked result) (traceId : String)
    (task : TaskContext) : (taskFields ++ blockedFields).accepts (PyDict.merge
      [("trace_id", .str traceId)] (PyDict.merge
        [("task_id", .str task.taskId), ("initiated_by", .str task.initiatedBy)] result)) =
      true := by
  rcases h with ⟨effect, reason, hne, rfl⟩
  cases effect with
  | allow => exact absurd rfl hne
  | deny => rfl
  | requireApproval => rfl

theorem credit_accepted {result : PyDict} (h : CreditResult result) (operator : AuthenticatedHuman)
    (reservationId : String) (amount : ℚ) (reason : String) (task : TaskContext) :
    Accepted (.devIssueCredit operator reservationId amount reason) (taskResponse task result) := by
  intro endpoint operator' hcall traceId lastAgent
  cases endpoint with
  | devIssueCredit reservationId' amount' reason' =>
      cases traceId with
      | none =>
          refine untraced_invalid rfl ?_
          rcases h with hblocked | ⟨credit, deduplicated, live, rfl⟩
          · exact blocked_untraced hblocked task
          · rfl
      | some traceId =>
          refine List.any_eq_true.mpr ?_
          rcases h with hblocked | ⟨credit, deduplicated, live, rfl⟩
          · exact ⟨creditBlockedResponse, List.mem_cons_of_mem _ List.mem_cons_self,
              blocked_accepted hblocked traceId task⟩
          · refine ⟨creditIssuedResponse, List.mem_cons_self, ?_⟩
            rcases live with ⟨stillAllowed, effect, _ | policyId, why⟩
            · rfl
            · rfl
  | _ => exact absurd hcall (by simp only [Endpoint.appCall, reduceCtorEq, not_false_eq_true])

theorem reservation_accepted {result : PyDict} (h : ReservationResult result)
    (operator : AuthenticatedHuman) (reservationId : String) (task : TaskContext) :
    Accepted (.devGetReservation operator reservationId) (taskResponse task result) := by
  intro endpoint operator' hcall traceId lastAgent
  cases endpoint with
  | devGetReservation reservationId' =>
      cases traceId with
      | none =>
          refine untraced_invalid rfl ?_
          cases h with
          | blocked _ hblocked => exact blocked_untraced hblocked task
          | notFound policyId => rfl
          | found live cache reservation hcache haccepted => rfl
      | some traceId =>
          refine List.any_eq_true.mpr ?_
          cases h with
          | blocked _ hblocked =>
              exact ⟨reservationBlockedResponse,
                List.mem_cons_of_mem _ (List.mem_cons_of_mem _ List.mem_cons_self),
                blocked_accepted hblocked traceId task⟩
          | notFound policyId =>
              refine ⟨reservationNotFoundResponse,
                List.mem_cons_of_mem _ List.mem_cons_self, ?_⟩
              cases policyId with
              | none => rfl
              | some policyId => rfl
          | found live cache reservation hcache haccepted =>
              refine ⟨reservationFoundResponse, List.mem_cons_self, ?_⟩
              -- Every field is accepted as it stands, and the reservation as a record.
              have hlast :=
                (Bool.and_true (reservationRecord.accepts reservation)).trans haccepted
              rcases live with ⟨stillAllowed, effect, _ | policyId, why⟩
              · rcases hcache with rfl | rfl
                · exact hlast
                · exact hlast
              · rcases hcache with rfl | rfl
                · exact hlast
                · exact hlast
  | _ => exact absurd hcall (by simp only [Endpoint.appCall, reduceCtorEq, not_false_eq_true])

section Records

variable {fields : PyDict}

theorem accepts_nil : ResponseModel.accepts [] fields = true := rfl

theorem accepts_cons {field : ResponseField} {model : ResponseModel}
    (h : field.accepts fields = true) (hrest : model.accepts fields = true) :
    ResponseModel.accepts (field :: model) fields = true :=
  Bool.and_eq_true_iff.mpr ⟨h, hrest⟩

theorem orNone_optStr (value : Option String) :
    FieldType.orNone FieldType.text (optStr value) = true := by
  cases value with
  | none => rfl
  | some text => rfl

theorem orNone_optDict (value : Option PyDict) :
    FieldType.orNone FieldType.anyDict (optDict value) = true := by
  cases value with
  | none => rfl
  | some fields => rfl

end Records

/-- A record of the store is one of its model. -/
theorem record_accepted (record : ApprovalRecord) :
    approvalRecordResponse.accepts record.toDict = true := by
  have hstatus : (FieldType.literal ["pending", "approved", "denied", "executed"]
      (.str record.status.text)) = true := by
    cases record.status with
    | pending => rfl
    | approved => rfl
    | denied => rfl
    | executed => rfl
  exact accepts_cons rfl <| accepts_cons rfl <| accepts_cons rfl <| accepts_cons rfl <|
    accepts_cons rfl <| accepts_cons rfl <| accepts_cons rfl <|
    accepts_cons (orNone_optStr record.policyId) <| accepts_cons hstatus <| accepts_cons rfl <|
    accepts_cons (orNone_optStr record.decidedAt) <|
    accepts_cons (orNone_optStr record.decidedBy) <|
    accepts_cons (orNone_optStr record.decisionNote) <|
    accepts_cons (orNone_optStr record.executedAt) <|
    accepts_cons (orNone_optDict record.executionResult) accepts_nil

theorem approval_accepted (operator : AuthenticatedHuman) (approvalId : String)
    (note : Option String) (record : ApprovalRecord) (execution : PyDict) :
    Accepted (.approve operator approvalId note) (.approvalExecution record execution) := by
  intro endpoint operator' hcall traceId lastAgent
  cases endpoint with
  | approve approvalId' note' =>
      cases traceId with
      | none => exact untraced_invalid rfl rfl
      | some traceId =>
          refine List.any_eq_true.mpr ⟨approvalExecutionResponse, List.mem_cons_self, ?_⟩
          exact accepts_cons (record_accepted record) <| accepts_cons rfl <|
            accepts_cons rfl accepts_nil
  | _ => exact absurd hcall (by simp only [Endpoint.appCall, reduceCtorEq, not_false_eq_true])

theorem denial_accepted (operator : AuthenticatedHuman) (approvalId : String)
    (note : Option String) (record : ApprovalRecord) :
    Accepted (.deny operator approvalId note) (.approvalRecord record) := by
  intro endpoint operator' hcall traceId lastAgent
  cases endpoint with
  | deny approvalId' note' =>
      rw [show (traceId.isSome || !Endpoint.traced (.deny approvalId' note')) = true from
        Bool.or_true _]
      exact List.any_eq_true.mpr ⟨approvalRecordResponse, List.mem_cons_self,
        record_accepted record⟩
  | _ => exact absurd hcall (by simp only [Endpoint.appCall, reduceCtorEq, not_false_eq_true])

theorem run_accepted (operator : AuthenticatedHuman) (message : String) (taskId output : String) :
    Accepted (.runAgent operator message) (.body [("task_id", .str taskId),
      ("initiated_by", .str operator.principalId), ("output", .str output)]) := by
  intro endpoint operator' hcall traceId lastAgent
  cases endpoint with
  | runAgent message' =>
      cases traceId with
      | none => exact untraced_invalid rfl rfl
      | some traceId => exact List.any_eq_true.mpr ⟨agentRunResponse, List.mem_cons_self, rfl⟩
  | _ => exact absurd hcall (by simp only [Endpoint.appCall, reduceCtorEq, not_false_eq_true])

/-- A command that works on no store, or not on the cache. -/
theorem uncached_of_storeless (c : Cmd) (h : c.store = none) : c.store ≠ some .cache :=
  fun hc => absurd (h.symm.trans hc) (by simp only [reduceCtorEq, not_false_eq_true])

/-- Every call keeps to the contract, and ends in a response that is valid where it
    needs no trace id. -/
theorem app_accepted (d : Deployment) (call : AppCall) :
    Responds (Accepted call) (call.code d) := by
  have hopens : ∀ c : Cmd, c.opens = true → c.store ≠ some .cache := fun c h =>
    uncached_of_storeless c (store_of_opens h)
  cases call with
  | runAgent operator message =>
      refine yields_validated (yields_bind _ (responds_free (opening_run hopens d operator))
        fun context _ => ?_)
      refine yields_bind _ (yields_orRaise (Q := fun _ => True) (yields_ask trivial)
        fun _ _ => trivial) fun _ _ => ?_
      refine yields_bind _ (yields_ask trivial) fun result _ => ?_
      refine yields_bind _ (yields_ask trivial) fun _ _ => ?_
      refine yields_bind _ (P := fun _ => True) (yields_ofExcept fun _ _ => trivial)
        fun output _ => ?_
      exact run_accepted operator message _ output
  | mcp tool metadata =>
      refine yields_bind _ (mcp_responds d tool metadata) fun result _ => ?_
      intro endpoint operator hcall
      cases endpoint <;> exact absurd hcall (by simp only [Endpoint.appCall, reduceCtorEq,
        not_false_eq_true])
  | devIssueCredit operator reservationId amount reason =>
      refine yields_validated (yields_bind _ (responds_free (opening_task hopens _ _ _))
        fun task _ => ?_)
      refine yields_bind _ (responds_free (opening_serviceRecovery hopens d _ _ _))
        fun chain _ => ?_
      refine yields_bind _ (issueCredit_result d _ _ _ _ _ _) fun result hresult => ?_
      exact credit_accepted hresult operator reservationId amount reason task
  | devGetReservation operator reservationId =>
      refine yields_bind _ (responds_free (opening_task hopens _ _ _)) fun task _ => ?_
      refine yields_bind _ (responds_free (opening_chain hopens d _ _ _ _)) fun chain _ => ?_
      refine yields_bind _ (getReservation_result d _ _ _) fun result hresult => ?_
      exact reservation_accepted hresult operator reservationId task
  | approve operator approvalId note =>
      have hrequire : Issues (fun c => c.store ≠ some .cache) (orRaise (ask
          (.requireRecord approvalId))) := issues_orRaise (issues_ask (by simp [Cmd.store]))
      have hdecide : Issues (fun c => c.store ≠ some .cache)
          (decideApproved operator approvalId note) := by
        refine issues_approvalErrors (issues_bind _ _ hrequire fun record => ?_)
        split
        · trivial
        · exact issues_bind _ _ (issues_decision (by simp [Cmd.store]) (by simp [Cmd.store]))
            fun _ => trivial
      refine yields_validated (yields_bind _ (P := fun _ => True)
        (yields_ofExcept fun _ _ => trivial) fun _ _ => ?_)
      refine yields_bind _ (responds_free hdecide) fun decided _ => ?_
      rcases decided with record | record
      · exact approval_accepted operator approvalId note record _
      · refine yields_bind _ (responds_free (opening_task hopens _ _ _)) fun task _ => ?_
        refine yields_bind _ (responds_free (opening_approvalExecutor hopens d _ _))
          fun chain _ => ?_
        refine yields_bind _ (tool_responds d (.executeApproved record task chain))
          fun result _ => ?_
        refine yields_bind _ (responds_free hrequire) fun refreshed _ => ?_
        exact approval_accepted operator approvalId note refreshed result
  | deny operator approvalId note =>
      refine yields_validated (yields_bind _ (P := fun _ => True)
        (yields_ofExcept fun _ _ => trivial) fun _ _ => ?_)
      refine yields_bind _ (responds_free (issues_approvalErrors (issues_decision
        (by simp [Cmd.store]) (by simp [Cmd.store])))) fun record _ => ?_
      exact denial_accepted operator approvalId note record

/-- What a thread of the application has returned is valid, but for the trace id. -/
theorem run_responses (d : Deployment) (sched : List (Core.Action AppCall Env))
    (hruhusa : ∀ i env, .advance i env ∈ sched → env.RefusesPlainly) :
    ∀ th ∈ (appRun d sched).threads, ∀ response, th.rest = done response →
      Accepted th.call response := by
  intro th hth response hrest
  have hyields := (responseContract.exec_yields (AppCall.code d) Accepted recordsOnly_empty sched
    (fun call _ => app_accepted d call) hruhusa).2 th hth
  rw [hrest] at hyields
  exact hyields

/-- In every run over HTTP in which Ruhusa does not refuse a request with the
    effect `allow`, whatever an endpoint returns fits the model it declares, if there
    is a trace id or the endpoint is the denial, and is refused otherwise. -/
theorem http_responses_valid (jwt : Jwt) (environ : Environ) (d : Deployment)
    (sched : List (Core.Action (HttpCall jwt) Env))
    (hruhusa : ∀ i env, .advance i env ∈ sched → env.RefusesPlainly) :
    ∀ th ∈ (httpRun jwt environ d sched).threads, ∀ credentials endpoint response,
      th.call = .request credentials endpoint → th.rest = done response → ∀ traceId lastAgent,
        endpoint.valid (endpoint.render traceId lastAgent response) =
          (traceId.isSome || !endpoint.traced) := by
  intro th hth credentials endpoint response hcall hrest
  rcases Core.layer_run (httpLayer jwt environ d) World.empty sched with
    ⟨lower, place, hfollows, hfrom⟩
  rcases serves_upper hfollows hth with hturned | ⟨th₀, hth₀, hserves⟩
  · -- A call that was turned away has returned nothing.
    rcases hturned with ⟨credentials', endpoint', hcall', htrace | ⟨e, -, hraised⟩⟩
    · have hwalk := Core.exec_walks (httpPerform jwt environ) (httpCode jwt d) World.empty sched
        th hth
      rw [htrace, hrest, hcall'] at hwalk
      cases hwalk
    · exact absurd (hraised.symm.trans hrest) (by simp only [reduceCtorEq, not_false_eq_true])
  · rcases th₀ with ⟨call₀, rest₀, tr₀⟩
    have hreturned : rest₀ = done response := embed_done (hserves.rest.symm.trans hrest)
    have hvalid : Accepted call₀ response := by
      refine run_responses d lower (fun j env hmem => ?_) _ hth₀ response hreturned
      rcases hfrom j env hmem with ⟨i, env', hmem', rfl⟩
      exact hruhusa i _ hmem'
    have hstands : Stands th call₀ := hserves.stands
    cases hstands with
    | mcp tool metadata hmcp =>
        exact absurd (hcall.symm.trans hmcp) (by simp only [reduceCtorEq, not_false_eq_true])
    | endpoint called human hpresented =>
        rcases hpresented with ⟨credentials', rest, hrequest, -⟩
        rw [(HttpCall.request.inj (hcall.symm.trans hrequest)).2]
        exact hvalid called _ rfl

/-- A run in which a credit is issued, and a reservation read twice. -/
def directSchedule (token : PlainToken) : List (Core.Action (HttpCall plainJwt) Env) :=
  .spawn (.request (some ⟨"Bearer", token⟩) (.devIssueCredit "R-3001" 20 "late check-in")) ::
    List.replicate 13 (.advance 0 .granting) ++
    .spawn (.request (some ⟨"Bearer", token⟩) (.devGetReservation "R-3001")) ::
    List.replicate 15 (.advance 1 .granting) ++
    .spawn (.request (some ⟨"Bearer", token⟩) (.devGetReservation "R-3001")) ::
    List.replicate 13 (.advance 2 .granting)

/-- The request was answered from the cache. -/
def answeredFromCache : Option (Except Exc Response) → Bool
  | some (.ok (.body fields)) =>
    match fields.get? "cache" with
    | some (.str cache) => cache = "hit"
    | _ => false
  | _ => false

theorem granting_refusesPlainly : Env.granting.RefusesPlainly where
  begin := fun _ h => Bool.noConfusion h
  revalidate := fun _ _ h => Bool.noConfusion h

/-- The second read is answered from the cache, with a response that is valid if the
    telemetry is on. -/
theorem http_responses_valid_sample :
    ∃ th ∈ (httpRun plainJwt (fun _ => none) .sample
        (directSchedule (plainDevToken "claire"))).threads, ∃ credentials endpoint response,
      th.call = .request credentials endpoint ∧ th.rest = done response ∧
        answeredFromCache th.rest.outcome = true ∧
        endpoint.valid (endpoint.render (some "4fed3c7e83ab990b624a33ffb153aba9") "" response) =
          true := by
  have hcached : ((httpRun plainJwt (fun _ => none) .sample
      (directSchedule (plainDevToken "claire"))).threads.any fun th =>
        answeredFromCache th.rest.outcome) = true := by
    decide +kernel
  rcases List.any_eq_true.mp hcached with ⟨th, hth, hanswered⟩
  have hplain : ∀ i env, .advance i env ∈ directSchedule (plainDevToken "claire") →
      env.RefusesPlainly := by
    intro i env hmem
    have henv : env = .granting := by
      simp only [directSchedule, List.cons_append, List.mem_append, List.mem_cons,
        List.mem_replicate, reduceCtorEq, Core.Action.advance.injEq, false_or] at hmem
      rcases hmem with ⟨⟨-, -, rfl⟩ | ⟨-, -, rfl⟩⟩ | ⟨-, -, rfl⟩ <;> rfl
    exact henv ▸ granting_refusesPlainly
  have hspawned := Core.exec_spawned (httpPerform plainJwt fun _ => none)
    (httpCode plainJwt .sample) World.empty _ th hth
  have hrequest : ∃ credentials endpoint, th.call = .request credentials endpoint := by
    simp only [directSchedule, List.cons_append, List.mem_append, List.mem_cons,
      List.mem_replicate, reduceCtorEq, Core.Action.spawn.injEq, and_false, or_false,
      false_or] at hspawned
    rcases hspawned with h | h | h <;> exact ⟨_, _, h⟩
  rcases hrequest with ⟨credentials, endpoint, hcall⟩
  rcases houtcome : th.rest.outcome with _ | e | response
  · rw [houtcome] at hanswered
    exact absurd hanswered Bool.noConfusion
  · rw [houtcome] at hanswered
    exact absurd hanswered Bool.noConfusion
  · have hrest : th.rest = done response := outcome_ok houtcome
    exact ⟨th, hth, credentials, endpoint, response, hcall, hrest, hanswered,
      http_responses_valid plainJwt (fun _ => none) .sample _ hplain th hth credentials endpoint
        response hcall hrest _ _⟩

/-- Every record of an answered listing is one of the model. -/
def ListsOnly (model : ResponseModel) (answer : Except Exc (List PyDict)) : Prop :=
  ∀ records, answer = .ok records → ∀ record ∈ records, model.accepts record = true

theorem listsOnly_read {jwt : Jwt} {environ : Environ} {now : Int}
    {credentials : Option (Credentials jwt)} {model : ResponseModel} {records : List PyDict}
    (h : ∀ record ∈ records, model.accepts record = true) :
    ListsOnly model (protectedRead jwt environ now credentials fun _ => records) := by
  intro answered hanswer
  unfold protectedRead at hanswer
  cases hverified : requireAuthenticatedHuman jwt environ now credentials with
  | error e =>
      rw [hverified] at hanswer
      exact absurd hanswer (by simp only [Except.map, reduceCtorEq, not_false_eq_true])
  | ok human =>
      rw [hverified] at hanswer
      exact Except.ok.inj hanswer ▸ h

theorem all_text (texts : List String) : FieldType.listOf FieldType.text
    (.list (texts.map .str)) = true := by
  refine List.all_eq_true.mpr fun value hmem => ?_
  rcases List.mem_map.mp hmem with ⟨text, -, rfl⟩
  rfl

/-- In every run over HTTP, whoever reads at whatever time, the records of every
    listing fit their model, and the identity that is shown does if there is a trace
    id. -/
theorem http_reads_valid (jwt : Jwt) (environ : Environ) (d : Deployment)
    (sched : List (Core.Action (HttpCall jwt) Env)) (now : Int)
    (credentials : Option (Credentials jwt)) :
    ListsOnly creditRecord
        (listDemoCredits jwt environ now credentials (httpRun jwt environ d sched).world) ∧
      ListsOnly workOrderRecord
        (listWorkOrders jwt environ now credentials (httpRun jwt environ d sched).world) ∧
      ListsOnly guestMessageRecord
        (listGuestMessages jwt environ now credentials (httpRun jwt environ d sched).world) ∧
      ListsOnly approvalRecordResponse
        (listApprovals jwt environ now credentials (httpRun jwt environ d sched).world) ∧
      ∀ traceId fields, whoami jwt environ now credentials traceId = .ok fields →
        whoAmIResponse.accepts fields = traceId.isSome := by
  rcases Core.layer_run (httpLayer jwt environ d) World.empty sched with
    ⟨lower, place, hfollows, -⟩
  have hworld : (appRun d lower).world = (httpRun jwt environ d sched).world := hfollows.world
  refine ⟨listsOnly_read fun record hmem => ?_, listsOnly_read fun record hmem => ?_,
    listsOnly_read fun record hmem => ?_, listsOnly_read fun record hmem => ?_,
    fun traceId fields hanswer => ?_⟩
  · rcases List.mem_map.mp hmem with ⟨credit, -, rfl⟩
    rfl
  · rcases List.mem_map.mp hmem with ⟨order, horder, rfl⟩
    -- An order was only made for an urgency the tool knows.
    rw [← hworld] at horder
    rcases work_order_asked d lower order horder with ⟨-, -, -, -, -, hurgency⟩
    exact accepts_cons rfl <| accepts_cons rfl <| accepts_cons rfl <| accepts_cons hurgency <|
      accepts_cons rfl <| accepts_cons rfl <| accepts_cons rfl accepts_nil
  · rcases List.mem_map.mp hmem with ⟨outbound, -, rfl⟩
    rfl
  · rcases List.mem_map.mp hmem with ⟨record, -, rfl⟩
    exact record_accepted record
  · unfold whoami protectedRead at hanswer
    cases hverified : requireAuthenticatedHuman jwt environ now credentials with
    | error e =>
        rw [hverified] at hanswer
        exact absurd hanswer (by simp only [Except.map, reduceCtorEq, not_false_eq_true])
    | ok operator =>
        rw [hverified] at hanswer
        rw [← Except.ok.inj hanswer]
        cases traceId with
        | none => exact accepts_untraced (by simp [whoAmIResponse]) rfl
        | some traceId =>
            exact accepts_cons rfl <| accepts_cons rfl <| accepts_cons rfl <|
              accepts_cons (all_text _) <| accepts_cons rfl <| accepts_cons (all_text _) <|
              accepts_cons rfl accepts_nil

end Asante
