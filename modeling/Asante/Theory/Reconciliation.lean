import Asante.Core.History
import Asante.Core.Monitor
import Asante.Theory.Contracts
import Asante.Theory.Metering

/-!
# Reconciliation

The record of a run tells what happened in it. Each decision of Ruhusa, each
lookup in the cache, each permit that is marked as unknown and each retry of a
credit is recorded by the very next step of the call that saw it, with the action,
the effect, the outcome or the attempt it had; so in every state of every run the
counters are what has happened, but for the calls that are about to record. A call
of the server records itself once, with the outcome of what it returns, and one
that raises when a task is not found.

The labels are from a vocabulary that is written down once, but for the attempts
of a retry, of which there are as many as the policy allows. No reservation, no
human, no amount and no text of a prompt is ever in a label, whatever is asked
for, and the number of different metrics does not grow.

All of this is one monitor, which follows every call. Its state is what the call
owes the record.

## Main definitions

* `Observation`: What happens of what telemetry counts.
* `Metric.fixed`, `Metric.vocabulary`: The metrics there are, without and with the
  retries.
* `Meter`, `meter`: The monitor of the record.
* `Metered.Settles`: A program that owes nothing where it ends.
* `Metered.Billed`: What a call has recorded when it has returned.
* `Metered.Raised`, `Metered.Unbilled`: How a call has come to raise, and what it has
  recorded by then.
* `observes`, `counts`, `owes`: The two sides of an account, and what is between them.

## Theorems

* `settles_tool`, `bills_code`: Every tool and every call obeys the monitor.
* `metrics_reconcile`: What is recorded is what has happened.
* `metrics_listed`: Every metric is one of the vocabulary.
* `vocabulary_length`: How many those are.
* `calls_recorded`: What a call of the server records of itself.
-/

namespace Asante

open Core.Prog Core.Contract

/-- What happens of what telemetry counts: a decision of Ruhusa on an action, a
    lookup in the cache, a permit that is marked as unknown, a retry after an
    attempt. -/
inductive Observation where
  | decision (action effect phase : String)
  | lookup (outcome : String)
  | unknown
  | retry (attempt : Nat)
  deriving DecidableEq

/-- What is observed of a command by its answer. -/
def Cmd.observation : (c : Cmd) → c.Answer → Option Observation
  | .begin req, .ok admission =>
    some (.decision req.action admission.authorization.effect.value "admission")
  | .revalidate req _, live =>
    some (.decision req.action live.authorization.effect.value "revalidation")
  | .cacheGet _, .ok lookup => some (.lookup (Metered.lookupOutcome lookup.hit lookup.expired))
  | .markUnknown _, _ => some .unknown
  | .recordCreditRetry attempt, _ => some (.retry attempt)
  | _, _ => none

/-- What a metric is a record of. -/
def Metric.observation : Metric → Option Observation
  | authorization action effect phase => some (.decision action effect phase)
  | cacheLookup outcome => some (.lookup outcome)
  | creditExecution outcome => if outcome = "unknown" then some .unknown else none
  | operationExecution _ outcome => if outcome = "unknown" then some .unknown else none
  | creditRetry attempt => some (.retry attempt)
  | _ => none

/-- The metric is of a call of the server. -/
def Metric.ofCall : Metric → Bool
  | mcpCall _ _ => true
  | _ => false

/-- The actions decisions are recorded for. -/
def meteredActions : List String :=
  ["guest.credit.issue", "reservation.read", "maintenance.create", "guest.message.send",
    "guest.credit.request", "guest.credit.issue.approved"]

/-- The outcomes of the approval requests. -/
def requestOutcomes : List String :=
  ["approval_pending", "approval_approved", "approval_denied", "approval_executed"]

/-- The outcomes of the tools of the server, by name. -/
def callOutcomes : List (String × List String) :=
  [("issue_guest_credit", ["error", "blocked", "issued"]),
    ("get_reservation", ["error", "blocked", "hit", "miss"]),
    ("create_maintenance_request", ["error", "blocked", "open"]),
    ("send_guest_message", ["error", "blocked", "sent"]),
    ("request_guest_credit", "error" :: "blocked" :: requestOutcomes)]

/-- The outcomes of the guest operations, by action. -/
def operationOutcomes : List (String × List String) :=
  [("maintenance.create", ["blocked", "error", "unknown", "open"]),
    ("guest.message.send", ["blocked", "error", "unknown", "sent"]),
    ("guest.credit.request", "blocked" :: "error" :: "unknown" :: requestOutcomes)]

/-- The metrics there are besides the retries. -/
def Metric.fixed : List Metric :=
  (meteredActions.flatMap fun action => ["allow", "deny", "require_approval"].flatMap fun effect =>
    ["admission", "revalidation"].map fun phase => .authorization action effect phase) ++
  (callOutcomes.flatMap fun tool => tool.2.map fun outcome => .mcpCall tool.1 outcome) ++
  ["hit", "expired", "miss"].map .cacheLookup ++
  ["admission", "revalidation"].map .cacheDeniedBeforeLookup ++
  ["blocked", "error", "unknown", "deduplicated", "issued"].map .creditExecution ++
  [.creditDeduplication] ++
  operationOutcomes.flatMap fun operation =>
    operation.2.map fun outcome => .operationExecution operation.1 outcome

/-- All the metrics there are, where a credit is attempted so often: a retry comes
    after every attempt but the last. -/
def Metric.vocabulary (attempts : Nat) : List Metric :=
  Metric.fixed ++ (List.range' 1 (attempts - 1)).map .creditRetry

theorem mem_fixed {attempts : Nat} {m : Metric} (h : m ∈ Metric.fixed) :
    m ∈ Metric.vocabulary attempts :=
  List.mem_append_left _ h

theorem mem_retry {attempts attempt : Nat} (hpos : 1 ≤ attempt) (h : attempt < attempts) :
    .creditRetry attempt ∈ Metric.vocabulary attempts := by
  refine List.mem_append_right _ (List.mem_map_of_mem (List.mem_range'_1.mpr ⟨hpos, ?_⟩))
  omega

theorem vocabulary_length (attempts : Nat) :
    (Metric.vocabulary attempts).length = 81 + (attempts - 1) := by
  have hfixed : Metric.fixed.length = 81 := by decide
  rw [Metric.vocabulary, List.length_append, List.length_map, List.length_range', hfixed]

/-- The registry answers with an error exactly when the task is not registered. -/
theorem requireTask_error_iff {taskId : String} {registry : TaskRegistry} {e : Exc} :
    requireTask taskId registry = .error e ↔ registry.lookup taskId = none ∧
      e = .trustedTaskNotFoundError "unknown or expired trusted task" := by
  unfold requireTask
  cases registry.lookup taskId with
  | none => simp only [Except.error.injEq, true_and, eq_comm]
  | some context => simp only [reduceCtorEq, false_and]

/-- What a command can answer: the stores answer entries of one status, and the
    registry only that a task is not found. -/
def Cmd.Possible : (c : Cmd) → c.Answer → Prop
  | .ledgerIssue _ _ _, answer => ∀ result, answer = .ok result →
    result.get? "status" = some (.str "issued")
  | .maintenanceCreate _ _, answer => ∀ result, answer = .ok result →
    result.get? "status" = some (.str "open")
  | .outboxSend _ _ _, answer => ∀ result, answer = .ok result →
    result.get? "status" = some (.str "sent")
  | .requireTask _, answer => ∀ e, answer = .error e → e.isTaskNotFound = true
  | _, _ => True

theorem perform_possible (c : Cmd) (env : Env) (w : World) : c.Possible (perform c env w).1 := by
  cases c with
  | ledgerIssue writer credit key =>
      intro result hresult
      rw [← Except.ok.inj (apply_ok hresult).1]
      exact PyDict.get?_set_other _ _ _ _ (by decide)
  | maintenanceCreate r key =>
      intro result hresult
      rw [← Except.ok.inj (apply_ok hresult).1]
      exact PyDict.get?_set_other _ _ _ _ (by decide)
  | outboxSend reservationId message key =>
      intro result hresult
      rw [← Except.ok.inj (apply_ok hresult).1]
      exact PyDict.get?_set_other _ _ _ _ (by decide)
  | requireTask taskId =>
      intro e he
      rw [(requireTask_error_iff.mp he).2]
      rfl
  | _ => trivial

/-- What a thread owes the record, and the calls of the server it has recorded. -/
structure Meter where
  owed : Option Observation
  calls : List Metric

/-- The meter after an event. What is observed is recorded at once, and nothing
    else is recorded of what can be observed. -/
def Meter.next (attempts : Nat) (st : Meter) :
    (c : Cmd ⊕ Metric) → Core.Extend Cmd.Answer (fun _ => Unit) c → Option Meter
  | .inl c, answer => if st.owed = none then some { st with owed := c.observation answer } else none
  | .inr m, _ =>
    if st.owed = m.observation ∧ m ∈ Metric.vocabulary attempts then
      some { owed := none, calls := st.calls ++ [m].filter Metric.ofCall }
    else none

/-- The monitor of the record, where a credit is attempted so often. -/
def meter (attempts : Nat) :
    Core.Monitor (Cmd ⊕ Metric) (Core.Extend Cmd.Answer fun _ => Unit) where
  State := Meter
  start := ⟨none, []⟩
  possible := fun c => match c with
    | .inl c => c.Possible
    | .inr _ => fun _ => True
  next := Meter.next attempts

/-- A command of which nothing is observed. -/
def Quiet (c : Cmd) : Prop :=
  ∀ answer, c.observation answer = none

/-- The contract of the commands of which nothing is observed. -/
def quietContract : Core.Contract Cmd Cmd.Answer Env World where
  perform := perform
  requires := Quiet
  ensures := Cmd.Possible
  inv := fun _ => True
  adm := fun _ => True
  kept := fun c env w _ _ _ => ⟨perform_possible c env w, trivial⟩

/-- How often the call may attempt its credit. -/
def ToolCall.attempts : ToolCall → Nat
  | issueCredit retryPolicy _ _ _ _ _ => retryPolicy.maxAttempts
  | _ => 0

/-- An event of a run that records. -/
abbrev MeteredEvent :=
  Core.Event (Cmd ⊕ Metric) (Core.Extend Cmd.Answer fun _ => Unit)

namespace Metered

/-- The program owes nothing where it ends and has recorded no call, and what it
    returns satisfies `P`. -/
abbrev Settles {α : Type} (attempts : Nat) (P : α → Prop) (p : Metered α) : Prop :=
  (meter attempts).Obeys (fun st a => st = ⟨none, []⟩ ∧ P a) (fun st _ => st = ⟨none, []⟩)
    ⟨none, []⟩ p

section Rules

variable {α β : Type} {P : α → Prop} {Q : β → Prop} {attempts : Nat}

theorem settles_done {a : α} (h : P a) : Settles attempts P (pure a) :=
  ⟨rfl, h⟩

theorem settles_throw (e : Exc) : Settles attempts P (throw e : Metered α) :=
  rfl

theorem next_cmd (c : Cmd) (answer : c.Answer) :
    (meter attempts).next ⟨none, []⟩ (.inl c) answer = some ⟨c.observation answer, []⟩ := by
  simp only [meter, Meter.next, if_pos]

/-- What is observed of a command is owed by the program that goes on. -/
theorem settles_answer {c : Cmd} {k : c.Answer → Metered α}
    (h : ∀ answer, (meter attempts).Obeys (fun st a => st = ⟨none, []⟩ ∧ P a)
      (fun st _ => st = ⟨none, []⟩) ⟨c.observation answer, []⟩ (k answer)) :
    Settles attempts P (Core.Prog.call (.inl c) k) :=
  fun answer _ => ⟨_, next_cmd c answer, h answer⟩

/-- A program of which nothing is observed owes nothing. -/
theorem settles_plain {p : App α} (h : quietContract.Yields P p) :
    Settles attempts P (plain p) := by
  induction p with
  | done a => exact ⟨rfl, h⟩
  | fail e => rfl
  | call c k ih =>
      intro answer hanswer
      refine ⟨⟨none, []⟩, ?_, ih answer (h.2 answer hanswer)⟩
      rw [next_cmd, show c.observation answer = none from h.1 answer]

theorem settles_bind {p : Metered α} {f : α → Metered β} (hp : Settles attempts P p)
    (hf : ∀ a, P a → Settles attempts Q (f a)) : Settles attempts Q (p >>= f) := by
  refine Core.Monitor.obeys_bind (Core.Monitor.obeys_mono (fun st a h => ?_) (fun _ _ h => h) hp)
  rcases h with ⟨rfl, ha⟩
  exact hf a ha

theorem settles_tryCatch {p : Metered α} {g : Exc → Metered α} (hp : Settles attempts P p)
    (hg : ∀ e, Settles attempts P (g e)) : Settles attempts P (tryCatch p g) := by
  refine Core.Monitor.obeys_tryCatch (Core.Monitor.obeys_mono (fun _ _ h => h)
    (fun st e h => ?_) hp)
  rcases h with rfl
  exact hg e

theorem next_note {m : Metric} {owed : Option Observation} (howed : owed = m.observation)
    (hmem : m ∈ Metric.vocabulary attempts) (hcall : m.ofCall = false) :
    (meter attempts).next ⟨owed, []⟩ (.inr m) () = some ⟨none, []⟩ := by
  simp only [meter, Meter.next, if_pos (And.intro howed hmem), List.filter_cons, hcall,
    List.filter_nil, Bool.false_eq_true, if_false, List.append_nil]

/-- What is owed is recorded next. -/
theorem settles_owed {m : Metric} {f : Metered α} {owed : Option Observation}
    (howed : owed = m.observation) (hmem : m ∈ Metric.vocabulary attempts)
    (hcall : m.ofCall = false) (hf : Settles attempts P f) :
    (meter attempts).Obeys (fun st a => st = ⟨none, []⟩ ∧ P a) (fun st _ => st = ⟨none, []⟩)
      ⟨owed, []⟩ (note m >>= fun _ => f) :=
  fun _ _ => ⟨⟨none, []⟩, next_note howed hmem hcall, hf⟩

/-- A metric of nothing that is observed. -/
theorem settles_note {m : Metric} (hnone : m.observation = none) (hmem : m ∈ Metric.fixed)
    (hcall : m.ofCall = false) : Settles attempts (fun _ => True) (note m) :=
  fun _ _ => ⟨⟨none, []⟩, next_note hnone.symm (mem_fixed hmem) hcall, rfl, trivial⟩

/-- What is observed of a command is recorded next. -/
theorem settles_observed {c : Cmd} {m : c.Answer → Metric} {f : c.Answer → Metered α}
    (hobserved : ∀ answer, c.observation answer = (m answer).observation)
    (hmem : ∀ answer, m answer ∈ Metric.vocabulary attempts)
    (hcall : ∀ answer, (m answer).ofCall = false) (hf : ∀ answer, Settles attempts P (f answer)) :
    Settles attempts P (plain (ask c) >>= fun answer => note (m answer) >>= fun _ => f answer) :=
  settles_answer fun answer => settles_owed (hobserved answer) (hmem answer) (hcall answer)
    (hf answer)

/-- A lookup that raises is not recorded. -/
theorem settles_lookup {key : String} {f : CacheLookup ℚ → Metered α}
    (hf : ∀ lookup, Settles attempts P (f lookup)) :
    Settles attempts P (plain (orRaise (ask (.cacheGet key))) >>= fun lookup =>
      recordCacheLookup lookup.hit lookup.expired >>= fun _ => f lookup) := by
  have hmem : ∀ hit expired, Metric.cacheLookup (lookupOutcome hit expired) ∈
      Metric.fixed := by decide
  refine settles_answer (c := .cacheGet key) fun answer => ?_
  cases answer with
  | error e => rfl
  | ok lookup => exact settles_owed rfl (mem_fixed (hmem _ _)) rfl (hf lookup)

theorem mem_authorization {action phase : String} (haction : action ∈ meteredActions)
    (hphase : phase ∈ ["admission", "revalidation"]) (effect : DecisionEffect) :
    .authorization action effect.value phase ∈ Metric.fixed := by
  have heffect : effect.value ∈ ["allow", "deny", "require_approval"] := by
    cases effect <;> decide
  simp only [Metric.fixed, List.append_assoc]
  refine List.mem_append_left _ (List.mem_flatMap.mpr ⟨action, haction, ?_⟩)
  exact List.mem_flatMap.mpr ⟨effect.value, heffect, List.mem_map_of_mem hphase⟩

/-- A decision of Ruhusa is recorded next; a request that cannot be made is none. -/
theorem settles_admission {action : String} {req : Request} {f : Admission → Metered α}
    (hreq : req.action = action) (haction : action ∈ meteredActions)
    (hf : ∀ admission, Settles attempts P (f admission)) :
    Settles attempts P (plain (orRaise (ask (.begin req))) >>= fun admission =>
      recordAuthorization action admission.authorization.effect.value "admission" >>=
        fun _ => f admission) := by
  refine settles_answer (c := .begin req) fun answer => ?_
  cases answer with
  | error e => rfl
  | ok admission =>
      refine settles_owed ?_ (mem_fixed (mem_authorization haction (by decide) _)) rfl
        (hf admission)
      rw [← hreq]
      rfl

/-- A secured operation records both decisions, and settles where its refusals and
    its body do. -/
theorem settles_secured {P : PyDict → Prop} {action : String} {submit : Int → Request}
    {denied : String → Metered Unit} {missing : Metered Unit}
    {body : Permit → Revalidation → Metered PyDict}
    (hsubmit : ∀ now, (submit now).action = action) (haction : action ∈ meteredActions)
    (hdenied : ∀ phase ∈ ["admission", "revalidation"],
      Settles attempts (fun _ => True) (denied phase))
    (hmissing : Settles attempts (fun _ => True) missing)
    (hblocked : ∀ effect reason, P (blocked effect reason))
    (hbody : ∀ permit live, Settles attempts P (body permit live)) :
    Settles attempts P (secured action submit denied missing body) := by
  have hrefused : ∀ effect reason, Settles attempts P (pure (blocked effect reason)) :=
    fun effect reason => settles_done (hblocked effect reason)
  unfold secured
  refine settles_bind (settles_plain (yields_ask fun _ => rfl)) fun now _ => ?_
  refine settles_admission (hsubmit now) haction fun admission => ?_
  split
  · split
    · exact settles_bind hmissing fun _ _ => hrefused _ _
    · next permit hpermit =>
        refine settles_observed (fun live => ?_) (fun live => ?_) (fun _ => rfl) fun live => ?_
        · rw [← hsubmit now]
          rfl
        · exact mem_fixed (mem_authorization haction (by decide) _)
        · split
          · exact hbody permit live
          · exact settles_bind (hdenied _ (by decide)) fun _ _ => hrefused _ _
  · exact settles_bind (hdenied _ (by decide)) fun _ _ => hrefused _ _

/-- A permit that is marked as unknown is recorded as such. -/
theorem settles_markUnknown {permit : Permit} {operation : Metered α} {m : Metric}
    (hunknown : m.observation = some .unknown) (hmem : m ∈ Metric.fixed)
    (hcall : m.ofCall = false) (h : Settles attempts P operation) :
    Settles attempts P (markUnknownOnError permit operation (note m)) := by
  refine settles_tryCatch h fun e => ?_
  split
  · exact settles_observed (fun _ => hunknown.symm) (fun _ => mem_fixed hmem) (fun _ => hcall)
      fun _ => settles_throw e
  · exact settles_throw e

theorem settles_complete {permit : Permit} {message : String} {incomplete : Metered Unit}
    {rest : Metered α} (hincomplete : Settles attempts (fun _ => True) incomplete)
    (h : Settles attempts P rest) :
    Settles attempts P (completeOrRaise permit message incomplete >>= fun _ => rest) := by
  refine settles_bind (P := fun _ => True) ?_ fun _ _ => h
  refine settles_bind (settles_plain (yields_ask fun _ => rfl)) fun completed _ => ?_
  split
  · exact settles_done trivial
  · exact settles_bind hincomplete fun _ _ => settles_throw _

/-- A retry is recorded with its attempt. -/
theorem settles_creditRetry {attempt : Nat} (hpos : 1 ≤ attempt) (h : attempt < attempts) :
    Settles attempts (fun _ => True) (recordCreditRetry attempt) :=
  settles_observed (c := .recordCreditRetry attempt) (m := fun _ => .creditRetry attempt)
    (fun _ => rfl) (fun _ => mem_retry hpos h) (fun _ => rfl) fun _ => settles_done trivial

/-- The retry loop settles where its operation does and its policy allows no more
    attempts. -/
theorem settles_retry {operation : App α} {policy : RetryPolicy}
    (hpolicy : policy.maxAttempts ≤ attempts) (h : quietContract.Yields P operation) :
    ∀ left attempt, 1 ≤ attempt →
      Settles attempts P (retryFrom operation policy recordCreditRetry left attempt) := by
  intro left
  induction left with
  | zero => exact fun _ _ => settles_throw _
  | succ left ih =>
      intro attempt hpos
      refine settles_tryCatch (settles_plain h) fun e => ?_
      split
      · split
        · exact settles_throw e
        · next hmore =>
            refine settles_bind (settles_creditRetry hpos (by omega)) fun _ _ => ?_
            dsimp only
            split
            · exact settles_bind (settles_plain (yields_ask fun _ => rfl)) fun _ _ =>
                ih (attempt + 1) (by omega)
            · exact ih (attempt + 1) (by omega)
      · exact settles_throw e

theorem mem_operation {action outcome : String} {outcomes : List String}
    (hlisted : (action, outcomes) ∈ operationOutcomes) (hmem : outcome ∈ outcomes) :
    .operationExecution action outcome ∈ Metric.fixed := by
  simp only [Metric.fixed, List.append_assoc]
  iterate 6 refine List.mem_append_right _ ?_
  exact List.mem_flatMap.mpr ⟨_, hlisted, List.mem_map_of_mem hmem⟩

theorem mem_call {tool outcome : String} {outcomes : List String}
    (hlisted : (tool, outcomes) ∈ callOutcomes) (hmem : outcome ∈ outcomes) :
    .mcpCall tool outcome ∈ Metric.fixed := by
  simp only [Metric.fixed, List.append_assoc]
  refine List.mem_append_right _ (List.mem_append_left _ ?_)
  exact List.mem_flatMap.mpr ⟨_, hlisted, List.mem_map_of_mem hmem⟩

/-- The status of the result is one of these. -/
def StatusIn (outcomes : List String) (result : PyDict) : Prop :=
  ∃ outcome ∈ outcomes, result.get? "status" = some (.str outcome)

theorem blocked_statusIn {outcomes : List String} (h : "blocked" ∈ outcomes)
    (effect reason : String) : StatusIn outcomes (blocked effect reason) :=
  ⟨"blocked", h, rfl⟩

theorem allowed_statusIn {outcomes : List String} {result : PyDict} (h : StatusIn outcomes result)
    (live : Revalidation) : StatusIn outcomes (allowed result live) := by
  rcases h with ⟨outcome, hmem, hstatus⟩
  refine ⟨outcome, hmem, ?_⟩
  rw [allowed, PyDict.get?_merge_left _ _ _ (by simp), hstatus]

/-- A guest operation settles, and records the status of its result. -/
theorem settles_operation (repr : PyVal → String) (d : Deployment) {action : String}
    (executingWorkload : Workload) (reservationId : String) (arguments : PyDict)
    (task : TaskContext) (chain : List DelegationGrant) {operation : App PyDict}
    {outcomes : List String} (haction : action ∈ meteredActions)
    (hlisted : (action, "blocked" :: "error" :: "unknown" :: outcomes) ∈ operationOutcomes)
    (hknown : "unknown" ∉ outcomes) (h : quietContract.Yields (StatusIn outcomes) operation) :
    Settles attempts (StatusIn ("blocked" :: outcomes)) (executeOperation repr d action
      executingWorkload reservationId arguments task chain operation) := by
  have hmem : ∀ outcome ∈ "blocked" :: "error" :: "unknown" :: outcomes,
      .operationExecution action outcome ∈ Metric.fixed := fun _ => mem_operation hlisted
  have hblocked := hmem "blocked" List.mem_cons_self
  have herror := hmem "error" (List.mem_cons_of_mem _ List.mem_cons_self)
  refine settles_secured (fun _ => rfl) haction
    (fun _ _ => settles_note rfl hblocked rfl) (settles_note rfl herror rfl)
    (blocked_statusIn List.mem_cons_self) fun permit live => ?_
  refine settles_bind (settles_markUnknown rfl
    (hmem "unknown" (List.mem_cons_of_mem _ (List.mem_cons_of_mem _ List.mem_cons_self))) rfl
    (settles_plain h))
    fun result hresult => ?_
  refine settles_complete (settles_note rfl herror rfl) ?_
  rcases hresult with ⟨outcome, houtcome, hstatus⟩
  have hne : outcome ≠ "unknown" := fun hunknown => hknown (hunknown ▸ houtcome)
  rw [hstatus]
  refine settles_bind (settles_note ?_ (hmem outcome ?_) rfl) fun _ _ => settles_done ?_
  · exact if_neg hne
  · exact List.mem_cons_of_mem _ (List.mem_cons_of_mem _ (List.mem_cons_of_mem _ houtcome))
  · exact allowed_statusIn ⟨outcome, List.mem_cons_of_mem _ houtcome, hstatus⟩ live

/-- What the tools of the server return, as far as it is recorded. -/
def Told : ToolCall → PyDict → Prop
  | .issueCredit _ _ _ _ _ _ => StatusIn ["blocked", "issued"]
  | .getReservation _ _ _ => fun result =>
    (result.get? "cache" = none ∧ StatusIn ["blocked"] result) ∨
      ∃ cache ∈ ["hit", "miss"], result.get? "cache" = some (.str cache)
  | .createMaintenanceRequest _ _ _ _ _ _ => StatusIn ["blocked", "open"]
  | .sendGuestMessage _ _ _ _ => StatusIn ["blocked", "sent"]
  | .requestGuestCredit _ _ _ _ _ => StatusIn ("blocked" :: requestOutcomes)
  | .executeApproved _ _ _ => fun _ => True

/-- Every tool settles. -/
theorem settles_tool (repr : PyVal → String) (d : Deployment) (call : ToolCall)
    (hattempts : call.attempts ≤ attempts) :
    Settles attempts (Told call) (toolCode repr d call) := by
  have hcredit : ∀ outcome ∈ ["blocked", "error", "deduplicated", "issued"],
      Settles attempts (fun _ => True) (recordCreditExecution outcome) := by
    intro outcome hmem
    refine settles_note (if_neg ?_) ?_ rfl
    · rintro rfl
      exact absurd hmem (by decide)
    · revert outcome
      decide
  cases call with
  | issueCredit retryPolicy reservationId amount reason task chain =>
      simp only [toolCode, issueCredit]
      refine settles_secured (fun _ => rfl) (by decide) (fun _ _ => hcredit "blocked" (by decide))
        (hcredit "error" (by decide)) (blocked_statusIn (by decide)) fun permit live => ?_
      refine settles_bind (settles_plain (yields_of_issues _ (issues_ofExcept _))) fun key _ => ?_
      refine settles_bind (P := StatusIn ["issued"]) (settles_markUnknown rfl (by decide) rfl
        (settles_retry hattempts ?_ _ 1 le_rfl)) fun result hresult => ?_
      · exact yields_orRaise (yields_ask fun _ => rfl) fun result h =>
          ⟨"issued", by decide, h result rfl⟩
      · refine settles_complete (hcredit "error" (by decide)) ?_
        rcases hresult with ⟨outcome, houtcome, hstatus⟩
        have htold : StatusIn ["blocked", "issued"] (allowed result live) :=
          allowed_statusIn ⟨outcome, List.mem_cons_of_mem _ houtcome, hstatus⟩ live
        split
        · refine settles_bind (settles_note rfl (by decide) rfl) fun _ _ => ?_
          exact settles_bind (hcredit "deduplicated" (by decide)) fun _ _ => settles_done htold
        · exact settles_bind (hcredit "issued" (by decide)) fun _ _ => settles_done htold
  | getReservation reservationId task chain =>
      have hnothing : Settles attempts (fun _ => True) (pure () : Metered Unit) :=
        settles_done trivial
      simp only [toolCode, getReservation]
      refine settles_secured (fun _ => rfl) (by decide)
        (fun phase hphase => settles_note rfl ?_ rfl) hnothing
        (fun effect reason => Or.inl ⟨rfl, "blocked", by decide, rfl⟩) fun permit live => ?_
      · revert phase
        decide
      · refine settles_bind (settles_plain (yields_of_issues _ (issues_ofExcept _)))
          fun cacheKey _ => ?_
        refine settles_lookup fun lookup => ?_
        split
        · exact settles_complete hnothing (settles_done (Or.inr ⟨"hit", by decide, rfl⟩))
        · refine settles_bind (settles_plain (yields_of_issues _
            (issues_orRaise (issues_ask fun _ => rfl)))) fun reservation _ => ?_
          split
          · exact settles_complete hnothing (settles_done (Or.inr ⟨"miss", by decide, rfl⟩))
          · refine settles_bind (settles_plain (yields_of_issues _
              (issues_orRaise (issues_ask fun _ => rfl)))) fun _ _ => ?_
            exact settles_complete hnothing (settles_done (Or.inr ⟨"miss", by decide, rfl⟩))
  | createMaintenanceRequest reservationId category urgency description task chain =>
      simp only [toolCode, createMaintenanceRequest]
      split
      · refine settles_bind (settles_plain (yields_of_issues _ (issues_ofExcept _)))
          fun key _ => ?_
        refine settles_operation repr d _ _ _ _ _ (by decide) (by decide) (by decide) ?_
        exact yields_orRaise (yields_ask fun _ => rfl) fun result h => ⟨_, by decide, h result rfl⟩
      · exact settles_done (blocked_statusIn (by decide) _ _)
  | sendGuestMessage reservationId message task chain =>
      simp only [toolCode, sendGuestMessage]
      split
      · exact settles_done (blocked_statusIn (by decide) _ _)
      · refine settles_bind (settles_plain (yields_of_issues _ (issues_ofExcept _)))
          fun key _ => ?_
        refine settles_operation repr d _ _ _ _ _ (by decide) (by decide) (by decide) ?_
        exact yields_orRaise (yields_ask fun _ => rfl) fun result h => ⟨_, by decide, h result rfl⟩
  | requestGuestCredit reservationId amount reason task chain =>
      refine settles_operation repr d _ _ _ _ _ (by decide) (by decide) (by decide) ?_
      refine yields_bind _ (P := fun _ => True) (yields_of_issues _
        (issues_orRaise (issues_ask fun _ => rfl))) fun existing _ => ?_
      refine yields_bind _ (P := fun _ => True) (yields_of_issues _
        (issues_orRaise (issues_ask fun _ => rfl))) fun record _ => ?_
      refine ⟨"approval_" ++ record.status.text, ?_, rfl⟩
      cases record.status <;> decide
  | executeApproved approval task chain =>
      have hnothing : Settles attempts (fun _ => True) (pure () : Metered Unit) :=
        settles_done trivial
      simp only [toolCode, executeApproved]
      split
      · exact settles_done trivial
      · split
        · refine settles_secured (fun _ => rfl) (by decide)
            (fun _ _ => hcredit "blocked" (by decide)) hnothing (fun _ _ => trivial)
            fun permit live => ?_
          refine settles_bind (P := fun _ => True) (settles_markUnknown rfl (by decide) rfl
            (settles_plain (yields_of_issues _ (issues_orRaise (issues_ask fun _ => rfl)))))
            fun result _ => ?_
          refine settles_complete hnothing ?_
          refine settles_bind (P := fun _ => True) (settles_plain (yields_of_issues _ ?_))
            fun _ _ => ?_
          · refine issues_bind _ _ (issues_orRaise (issues_ask fun _ => rfl)) fun current => ?_
            split
            · trivial
            · exact issues_orRaise (issues_ask fun _ => rfl)
          · exact settles_bind (hcredit "issued" (by decide)) fun _ _ => settles_done trivial
        · exact settles_done trivial

theorem outcome_mem (repr : PyVal → String) (d : Deployment) (context : AsanteRunContext)
    {tool : McpTool} {result : PyDict} (h : Told (tool.toolCall d context) result) :
    .mcpCall tool.name (outcome repr tool result) ∈ Metric.fixed := by
  -- The text of a status that is listed for the tool.
  have hstatus : ∀ (name : String) (listed : List String) {outcomes : List String},
      StatusIn outcomes result → (name, listed) ∈ callOutcomes →
      (∀ outcome ∈ outcomes, outcome ∈ listed) →
      .mcpCall name (pyStr repr ((result.get? "status").getD (.str "unknown"))) ∈
        Metric.fixed := by
    rintro name listed outcomes ⟨outcome, hmem, hstatus⟩ hlisted hsub
    rw [hstatus]
    exact mem_call hlisted (hsub outcome hmem)
  cases tool with
  | issueGuestCredit reservationId amount reason =>
      exact hstatus "issue_guest_credit" ["error", "blocked", "issued"] h (by decide)
        (by decide)
  | getReservation reservationId =>
      rcases h with ⟨hcache, hblocked⟩ | ⟨cache, hmem, hcache⟩
      · simp only [outcome, hcache, Option.getD_none]
        exact hstatus "get_reservation" ["error", "blocked", "hit", "miss"] hblocked (by decide)
          (by decide)
      · simp only [outcome, hcache, Option.getD_some]
        have hlisted : ("get_reservation", ["error", "blocked", "hit", "miss"]) ∈ callOutcomes := by
          decide
        refine mem_call hlisted ?_
        exact List.mem_cons_of_mem _ (List.mem_cons_of_mem _ hmem)
  | createMaintenanceRequest reservationId category urgency description =>
      exact hstatus "create_maintenance_request" ["error", "blocked", "open"] h (by decide)
        (by decide)
  | sendGuestMessage reservationId message =>
      exact hstatus "send_guest_message" ["error", "blocked", "sent"] h (by decide)
        (by decide)
  | requestGuestCredit reservationId amount reason =>
      exact hstatus "request_guest_credit" ("error" :: "blocked" :: requestOutcomes) h (by decide)
        (by decide)

theorem toolCall_attempts (d : Deployment) (tool : McpTool) (context : AsanteRunContext) :
    (tool.toolCall d context).attempts ≤ d.retryPolicy.maxAttempts := by
  cases tool with
  | issueGuestCredit reservationId amount reason => exact le_rfl
  | _ => exact Nat.zero_le _

/-- The tool of the registered run. -/
theorem forTrustedTask_eq (repr : PyVal → String) (d : Deployment) (tool : McpTool)
    (taskId : String) : forTrustedTask repr d tool taskId =
      plain (orRaise (ask (.requireTask taskId))) >>= fun context =>
        toolCode repr d (tool.toolCall d context) := by
  cases tool with
  | issueGuestCredit reservationId amount reason => rfl
  | getReservation reservationId => rfl
  | createMaintenanceRequest reservationId category urgency description => rfl
  | sendGuestMessage reservationId message => rfl
  | requestGuestCredit reservationId amount reason => rfl

theorem settles_forTrustedTask (repr : PyVal → String) (d : Deployment) (tool : McpTool)
    (taskId : String) : Settles d.retryPolicy.maxAttempts
      (fun result => .mcpCall tool.name (outcome repr tool result) ∈ Metric.fixed)
      (forTrustedTask repr d tool taskId) := by
  rw [forTrustedTask_eq]
  refine settles_bind (settles_plain (yields_of_issues _ (issues_orRaise
    (issues_ask fun _ => rfl)))) fun context _ => ?_
  exact Core.Monitor.obeys_mono (fun st result h =>
    (⟨h.1, outcome_mem repr d context h.2⟩ : _ ∧ _)) (fun _ _ h => h)
    (settles_tool repr d (tool.toolCall d context) (toolCall_attempts d tool context))

/-- The calls of the server a call has recorded when it returns: its own, with
    the outcome of what it returns. -/
def Billed (repr : PyVal → String) : AppCall → Response → List Metric → Prop
  | .mcp tool _, response, calls => ∃ result, response = .body result ∧
    calls = [.mcpCall tool.name (outcome repr tool result)]
  | _, _, calls => calls = []

/-- The call is one of the server. -/
def IsMcp (call : AppCall) : Prop :=
  ∃ tool metadata, call = .mcp tool metadata

/-- The meter follows a call, to where nothing is owed. Where it raises, only a call
    of the server may have recorded one. -/
abbrev Bills (repr : PyVal → String) (attempts : Nat) (call : AppCall) (p : Metered Response) :
    Prop :=
  (meter attempts).Obeys (fun st response => st.owed = none ∧ Billed repr call response st.calls)
    (fun st _ => st.owed = none ∧ (st.calls = [] ∨ IsMcp call)) ⟨none, []⟩ p

theorem bills_settled {repr : PyVal → String} {call : AppCall} {p : Metered Response}
    (hcall : ∀ response, Billed repr call response []) (h : Settles attempts (fun _ => True) p) :
    Bills repr attempts call p := by
  refine Core.Monitor.obeys_mono (fun st response hst => ?_) (fun st e hst => ?_) h
  · rw [hst.1]
    exact ⟨rfl, hcall response⟩
  · rw [hst]
    exact ⟨rfl, Or.inl rfl⟩

/-- What comes after a program that settles is followed from the start. -/
theorem settled_bind {Q : Meter → β → Prop} {X : Meter → Exc → Prop} {p : Metered α}
    {f : α → Metered β} (hp : Settles attempts P p) (hraise : ∀ e, X ⟨none, []⟩ e)
    (hf : ∀ a, P a → (meter attempts).Obeys Q X ⟨none, []⟩ (f a)) :
    (meter attempts).Obeys Q X ⟨none, []⟩ (p >>= f) := by
  refine Core.Monitor.obeys_bind (Core.Monitor.obeys_mono (fun st a h => ?_) (fun st e h => ?_) hp)
  · rcases h with ⟨rfl, ha⟩
    exact hf a ha
  · rcases h with rfl
    exact hraise e

theorem next_call {m : Metric} (hnone : m.observation = none) (hmem : m ∈ Metric.fixed)
    (hcall : m.ofCall = true) :
    (meter attempts).next ⟨none, []⟩ (.inr m) () = some ⟨none, [m]⟩ := by
  simp only [meter, Meter.next, hnone, true_and, if_pos (mem_fixed hmem), List.filter_cons, hcall,
    List.filter_nil, if_true, List.nil_append]

/-- A call of the server is recorded once, when it returns or when its task is not
    there. -/
theorem bills_call (repr : PyVal → String) (d : Deployment) (tool : McpTool)
    (metadata : PyDict) : Bills repr d.retryPolicy.maxAttempts (.mcp tool metadata)
      (code repr d (.mcp tool metadata)) := by
  have herror : .mcpCall tool.name "error" ∈ Metric.fixed := by
    cases tool <;> exact of_decide_eq_true rfl
  have hmcp : ∀ calls : List Metric, calls = [] ∨ IsMcp (.mcp tool metadata) :=
    fun _ => Or.inr ⟨tool, metadata, rfl⟩
  have hraise : ∀ _ : Exc, (none : Option Observation) = none ∧
      (([] : List Metric) = [] ∨ IsMcp (.mcp tool metadata)) := fun _ => ⟨rfl, hmcp _⟩
  refine Core.Monitor.obeys_bind (settled_bind (settles_plain (yields_of_issues _
    (issues_ofExcept _))) hraise fun _ _ => ?_)
  refine settled_bind (settles_plain (yields_of_issues _ (issues_ofExcept _))) hraise
    fun taskId _ => ?_
  refine settled_bind (settles_plain (yields_of_issues _ (issues_orRaise
    (issues_ask fun _ => rfl)))) hraise fun _ _ => ?_
  refine Core.Monitor.obeys_bind (Core.Monitor.obeys_tryCatch (Core.Monitor.obeys_mono
    (fun st result h => ?_) (fun st e h => ?_) (settles_forTrustedTask repr d tool taskId)))
  · -- The result is returned after its outcome is recorded.
    rcases h with ⟨rfl, hmem⟩
    exact fun _ _ => ⟨_, next_call rfl hmem rfl, rfl, result, rfl, rfl⟩
  · rcases h with rfl
    split
    · exact fun _ _ => ⟨_, next_call rfl herror rfl, rfl, hmcp _⟩
    · exact hraise e

theorem opens_quiet (c : Cmd) (h : c.opens = true) : Quiet c := by
  cases c with
  | uuid4 => exact fun _ => rfl
  | now => exact fun _ => rfl
  | registerGrant grant => exact fun _ => rfl
  | _ => exact absurd h Bool.noConfusion

/-- A program of which nothing is observed, whatever it returns. -/
theorem settles_quiet {p : App α} (h : Issues Quiet p) :
    Settles attempts (fun _ => True) (plain p) :=
  settles_plain (yields_of_issues _ h)

theorem settles_approve (d : Deployment) (operator : AuthenticatedHuman) (approvalId : String)
    (note : Option String) :
    Settles attempts (fun _ => True) (approveCreditRequest d operator approvalId note) := by
  have hrequire : Issues Quiet (orRaise (ask (.requireRecord approvalId))) :=
    issues_orRaise (issues_ask fun _ => rfl)
  unfold approveCreditRequest
  split
  · refine settles_bind (settles_quiet (issues_ofExcept _)) fun _ _ => ?_
    refine settles_bind (settles_quiet ?_) fun decided _ => ?_
    · refine issues_approvalErrors (issues_bind _ _ hrequire fun record => ?_)
      split
      · trivial
      · exact issues_bind _ _ (issues_decision (fun _ => rfl) fun _ => rfl) fun _ => trivial
    · split
      · exact settles_done trivial
      · next record =>
          refine settles_bind (settles_quiet (opening_task opens_quiet _ _ _)) fun task _ => ?_
          refine settles_bind (settles_quiet (opening_approvalExecutor opens_quiet d _ _))
            fun chain _ => ?_
          refine settles_bind (settles_tool default d (.executeApproved record task chain)
            (Nat.zero_le _)) fun result _ => ?_
          exact settles_bind (settles_quiet hrequire) fun _ _ => settles_done trivial
  · exact settles_throw _

/-- Every call bills: the calls of the server their own, the others none. -/
theorem bills_code (repr : PyVal → String) (d : Deployment) (call : AppCall) :
    Bills repr d.retryPolicy.maxAttempts call (code repr d call) := by
  cases call with
  | runAgent operator message =>
      refine bills_settled (fun _ => rfl) (settles_quiet ?_)
      refine issues_validated (issues_bind _ _ (opening_run opens_quiet d operator)
        fun context => ?_)
      refine issues_bind _ _ (issues_orRaise (issues_ask fun _ => rfl)) fun _ => ?_
      refine issues_bind _ _ (issues_ask fun _ => rfl) fun result => ?_
      refine issues_bind _ _ (issues_ask fun _ => rfl) fun _ => ?_
      exact issues_bind _ _ (issues_ofExcept _) fun _ => trivial
  | mcp tool metadata => exact bills_call repr d tool metadata
  | devIssueCredit operator reservationId amount reason =>
      refine bills_settled (fun _ => rfl) ?_
      simp only [code, devIssueCredit]
      split
      · refine settles_bind (settles_quiet (opening_task opens_quiet _ _ _)) fun task _ => ?_
        refine settles_bind (settles_quiet (opening_serviceRecovery opens_quiet d _ _ _))
          fun chain _ => ?_
        exact settles_bind (settles_tool repr d
          (.issueCredit d.retryPolicy reservationId amount reason task chain) le_rfl)
          fun _ _ => settles_done trivial
      · exact settles_throw _
  | devGetReservation operator reservationId =>
      refine bills_settled (fun _ => rfl) ?_
      refine settles_bind (settles_quiet (opening_task opens_quiet _ _ _)) fun task _ => ?_
      refine settles_bind (settles_quiet (opening_chain opens_quiet d _ _ _ _)) fun chain _ => ?_
      exact settles_bind (settles_tool repr d (.getReservation reservationId task chain)
        (Nat.zero_le _)) fun _ _ => settles_done trivial
  | approve operator approvalId note =>
      exact bills_settled (fun _ => rfl) (settles_approve d operator approvalId note)
  | deny operator approvalId note =>
      refine bills_settled (fun _ => rfl) (settles_quiet ?_)
      refine issues_validated (issues_bind _ _ (issues_ofExcept _) fun _ => ?_)
      exact issues_bind _ _ (issues_approvalErrors (issues_decision (fun _ => rfl)
        fun _ => rfl)) fun _ => trivial

end Rules

end Metered

/-- What is observed of an event. -/
def observationOf : MeteredEvent → Option Observation
  | ⟨.inl c, answer⟩ => c.observation answer
  | ⟨.inr _, _⟩ => none

/-- The event is such an observation. -/
def observes (o : Observation) (ev : MeteredEvent) : Bool :=
  observationOf ev = some o

/-- The metric counts such observations. -/
def counts (o : Observation) (m : Metric) : Bool :=
  m.observation = some o

/-- What the meter has come to after the events of a trace. -/
structure Kept (attempts : Nat) (tr : List MeteredEvent) (st : Meter) : Prop where
  owed : st.owed = tr.getLast?.bind observationOf
  counted : ∀ o, tr.countP (observes o) =
    (tr.filterMap Core.Event.note).countP (counts o) + if st.owed = some o then 1 else 0
  listed : ∀ m ∈ tr.filterMap Core.Event.note, m ∈ Metric.vocabulary attempts
  calls : st.calls = (tr.filterMap Core.Event.note).filter Metric.ofCall

theorem kept_cmd {attempts : Nat} {tr : List MeteredEvent} {st : Meter} (h : Kept attempts tr st)
    (howed : st.owed = none) (c : Cmd) (answer : c.Answer) :
    Kept attempts (tr ++ [⟨.inl c, answer⟩]) { st with owed := c.observation answer } := by
  have hnotes : (tr ++ [(⟨.inl c, answer⟩ : MeteredEvent)]).filterMap Core.Event.note =
      tr.filterMap Core.Event.note := by
    rw [List.filterMap_append]
    exact List.append_nil _
  refine ⟨?_, fun o => ?_, ?_, ?_⟩
  · rw [List.getLast?_concat]
    rfl
  · have hcounted := h.counted o
    rw [howed, if_neg (by simp only [reduceCtorEq, not_false_eq_true])] at hcounted
    rw [hnotes, List.countP_append, hcounted, List.countP_singleton]
    exact congrArg _ (if_congr decide_eq_true_iff rfl rfl)
  · rw [hnotes]
    exact h.listed
  · rw [hnotes]
    exact h.calls

theorem kept_note {attempts : Nat} {tr : List MeteredEvent} {st : Meter} (h : Kept attempts tr st)
    {m : Metric} (howed : st.owed = m.observation) (hmem : m ∈ Metric.vocabulary attempts) :
    Kept attempts (tr ++ [⟨.inr m, ()⟩])
      { owed := none, calls := st.calls ++ [m].filter Metric.ofCall } := by
  have hnotes : (tr ++ [(⟨.inr m, ()⟩ : MeteredEvent)]).filterMap Core.Event.note =
      tr.filterMap Core.Event.note ++ [m] := by
    rw [List.filterMap_append]
    rfl
  refine ⟨?_, fun o => ?_, ?_, ?_⟩
  · rw [List.getLast?_concat]
    rfl
  · -- What was owed is what the metric counts.
    rw [hnotes, List.countP_append, List.countP_append, h.counted o, howed, List.countP_singleton,
      List.countP_singleton]
    simp only [observes, observationOf, counts, reduceCtorEq, decide_false, Bool.false_eq_true,
      if_false, decide_eq_true_eq, Nat.add_zero]
  · rw [hnotes]
    intro m' hm'
    rcases List.mem_append.mp hm' with hold | hnew
    · exact h.listed m' hold
    · rw [List.mem_singleton.mp hnew]
      exact hmem
  · rw [hnotes, List.filter_append, h.calls]

theorem kept_after {attempts : Nat} {tr : List MeteredEvent} {st : Meter}
    (h : (meter attempts).after tr = some st) : Kept attempts tr st := by
  refine Core.Monitor.after_induction (M := meter attempts) (P := Kept attempts)
    ⟨rfl, fun o => rfl, ?_, rfl⟩
    (fun tr st ev st' hkept hnext => ?_) tr h
  · exact fun m hm => absurd hm List.not_mem_nil
  · rcases ev with ⟨c | m, answer⟩
    · have hcmd : Meter.next attempts st (.inl c) answer = some st' := hnext
      rcases Option.ite_none_right_eq_some.mp hcmd with ⟨howed, hst⟩
      rw [← Option.some.inj hst]
      exact kept_cmd hkept howed c answer
    · have hnote : Meter.next attempts st (.inr m) answer = some st' := hnext
      rcases Option.ite_none_right_eq_some.mp hnote with ⟨⟨howed, hmem⟩, hst⟩
      rw [← Option.some.inj hst]
      exact kept_note hkept howed hmem

namespace Metered

/-- How a call of the server has come to raise, and the calls it has recorded by
    then. It has not looked for its task; its task was not registered; its tool
    raised; or its tool raised the error of a task that is not found, though the task
    was registered. -/
inductive Raised (repr : PyVal → String) (d : Deployment) (tool : McpTool) :
    List MeteredEvent → Exc → List Metric → Prop where
  | refused (tr : List MeteredEvent) (e : Exc)
      (h : ∀ ev ∈ tr, ∀ taskId answer, ev ≠ ⟨.inl (.requireTask taskId), answer⟩) :
      Raised repr d tool tr e []
  | unregistered (front : List MeteredEvent) (taskId : String) (e : Exc) :
      Raised repr d tool (front ++ [⟨.inl (.requireTask taskId), .error e⟩,
          ⟨.inr (.mcpCall tool.name "error"), ()⟩])
        (.toolError "trusted Asante task context is unavailable") [.mcpCall tool.name "error"]
  | operation (front : List MeteredEvent) (taskId : String) (context : AsanteRunContext)
      (back : List MeteredEvent) (e : Exc)
      (hback : Walks (toolCode repr d (tool.toolCall d context)) back (fail e))
      (h : e.isTaskNotFound = false) :
      Raised repr d tool (front ++ ⟨.inl (.requireTask taskId), .ok context⟩ :: back) e []
  | misnamed (front : List MeteredEvent) (taskId : String) (context : AsanteRunContext)
      (back : List MeteredEvent) (e : Exc)
      (hback : Walks (toolCode repr d (tool.toolCall d context)) back (fail e))
      (h : e.isTaskNotFound = true) :
      Raised repr d tool (front ++ ⟨.inl (.requireTask taskId), .ok context⟩ ::
          (back ++ [⟨.inr (.mcpCall tool.name "error"), ()⟩]))
        (.toolError "trusted Asante task context is unavailable") [.mcpCall tool.name "error"]

/-- The calls of the server a call has recorded when it raises: what the way it came
    to says of a call of the server, and none of another call. -/
def Unbilled (repr : PyVal → String) (d : Deployment) :
    AppCall → List MeteredEvent → Exc → List Metric → Prop
  | .mcp tool _, tr, e, calls => Raised repr d tool tr e calls
  | _, _, _, calls => calls = []

end Metered

/-- The calls of the server that are recorded in a trace. -/
def callsOf (tr : List MeteredEvent) : List Metric :=
  (tr.filterMap Core.Event.note).filter Metric.ofCall

theorem callsOf_append (tr tr' : List MeteredEvent) :
    callsOf (tr ++ tr') = callsOf tr ++ callsOf tr' := by
  rw [callsOf, List.filterMap_append, List.filter_append]
  rfl

/-- What is left of the tool of a registered run: what a walk of it that raised has
    recorded is no call of the server. -/
theorem callsOf_tool {repr : PyVal → String} {d : Deployment} {call : ToolCall}
    {back : List MeteredEvent} {e : Exc}
    (hback : Walks (Metered.toolCode repr d call) back (fail e))
    (hpossible : ∀ ev ∈ back, (meter call.attempts).possible ev.cmd ev.answer) :
    callsOf back = [] := by
  rcases Core.Monitor.obeys_walks (Metered.settles_tool repr d call le_rfl) back hpossible hback
    with ⟨st, hafter, hst⟩
  have hstart : st = ⟨none, []⟩ := hst
  rw [callsOf, ← (kept_after hafter).calls, hstart]

/-- The operation of a tool of the server raised: its task was not registered, or its
    tool raised. -/
theorem walks_forTrustedTask {repr : PyVal → String} {d : Deployment} {tool : McpTool}
    {taskId : String} {tr : List MeteredEvent} {e : Exc}
    (hw : Walks (Metered.forTrustedTask repr d tool taskId) tr (fail e)) :
    tr = [⟨.inl (.requireTask taskId), .error e⟩] ∨ ∃ context back,
      tr = ⟨.inl (.requireTask taskId), .ok context⟩ :: back ∧
        Walks (Metered.toolCode repr d (tool.toolCall d context)) back (fail e) := by
  rw [Metered.forTrustedTask_eq] at hw
  cases hw with
  | call c k answer back q hrest =>
      rcases answer with e₀ | context
      · rcases walks_fail hrest with ⟨rfl, hfail⟩
        cases hfail
        exact Or.inl rfl
      · exact Or.inr ⟨context, back, rfl, hrest⟩

/-- A call of the server whose metadata was read raised where the operation of its
    tool did, or where the record of the error came after. -/
theorem raised_served {repr : PyVal → String} {d : Deployment} {tool : McpTool} {taskId : String}
    {attempts : Nat} (front : List MeteredEvent) {tr : List MeteredEvent} {e : Exc}
    (hw : Walks (tryCatch (Metered.forTrustedTask repr d tool taskId) fun e =>
      if e.isTaskNotFound then do
        Metered.recordMcpCall "error" tool.name
        throw (.toolError "trusted Asante task context is unavailable")
      else throw e) tr (fail e)) (hfront : callsOf front = [])
    (hpossible : ∀ ev ∈ tr, (meter attempts).possible ev.cmd ev.answer) :
    Metered.Raised repr d tool (front ++ tr) e (callsOf (front ++ tr)) := by
  rcases (walks_tryCatch_ended (o := .error e)).mp hw with
    ⟨a, ha, -⟩ | ⟨e₀, t₁, t₂, rfl, hbody, hhandler⟩
  · exact absurd ha (by simp only [reduceCtorEq, not_false_eq_true])
  have hback : ∀ ev ∈ t₁, (meter attempts).possible ev.cmd ev.answer :=
    fun ev hev => hpossible ev (List.mem_append_left _ hev)
  have hcmd : ∀ (c : Cmd) (answer : c.Answer) (tr : List MeteredEvent),
      callsOf (⟨.inl c, answer⟩ :: tr) = callsOf tr := fun _ _ _ => rfl
  have htool : ∀ {context back}, t₁ = ⟨.inl (.requireTask taskId), .ok context⟩ :: back →
      Walks (Metered.toolCode repr d (tool.toolCall d context)) back (fail e₀) →
      callsOf back = [] := by
    rintro context back rfl htool
    exact callsOf_tool htool fun ev hev => hback ev (List.mem_cons_of_mem _ hev)
  by_cases hmissing : e₀.isTaskNotFound = true
  · -- The handler records the error, and raises its own.
    rw [if_pos hmissing] at hhandler
    cases hhandler with
    | call c k answer t q hrest =>
        rcases walks_fail hrest with ⟨rfl, hfail⟩
        cases hfail
        rw [callsOf_append, hfront, List.nil_append, callsOf_append]
        rcases walks_forTrustedTask hbody with rfl | ⟨context, back, hfound, hwalk⟩
        · exact .unregistered front taskId e₀
        · rw [hfound, hcmd, htool hfound hwalk]
          exact .misnamed front taskId context back e₀ hwalk hmissing
  · rw [if_neg hmissing] at hhandler
    rcases walks_fail hhandler with ⟨rfl, hfail⟩
    cases hfail
    rw [List.append_nil, callsOf_append, hfront, List.nil_append]
    rcases walks_forTrustedTask hbody with rfl | ⟨context, back, hfound, hwalk⟩
    · -- The registry raises nothing else.
      exact absurd (hback _ List.mem_cons_self e rfl) hmissing
    · rw [hfound, hcmd, htool hfound hwalk]
      exact .operation front taskId context back e hwalk (Bool.eq_false_iff.mpr hmissing)

/-- A call of the server that raised did so in one of the ways there are. -/
theorem raised_call {repr : PyVal → String} {d : Deployment} {tool : McpTool} {metadata : PyDict}
    {attempts : Nat} {tr : List MeteredEvent} {e : Exc}
    (hw : Walks (Metered.code repr d (.mcp tool metadata)) tr (fail e))
    (hpossible : ∀ ev ∈ tr, (meter attempts).possible ev.cmd ev.answer) :
    Metered.Raised repr d tool tr e (callsOf tr) := by
  have hnothing : ∀ e, Metered.Raised repr d tool [] e (callsOf []) :=
    fun e => .refused [] e fun ev hev => absurd hev List.not_mem_nil
  -- Only the call itself raises, not what is made of its result.
  rcases (walks_bind_ended (o := .error e)).mp hw with
    ⟨e', he, hcall⟩ | ⟨result, t₁, t₂, -, -, hdone⟩
  · cases he
    unfold Metered.call at hcall
    generalize requireSpecialist metadata tool.owner = specialist at hcall
    generalize taskIdFromMeta metadata = resolved at hcall
    rcases specialist with e₁ | ⟨⟩
    · rcases walks_fail hcall with ⟨rfl, -⟩
      exact hnothing e
    rcases resolved with e₁ | taskId
    · rcases walks_fail hcall with ⟨rfl, -⟩
      exact hnothing e
    cases hcall with
    | call c k extracted t q hrest =>
        rcases extracted with e₁ | ⟨⟩
        · rcases walks_fail hrest with ⟨rfl, -⟩
          refine .refused _ e fun ev hev taskId answer hrequired => ?_
          rw [List.mem_singleton.mp hev] at hrequired
          exact absurd (congrArg Core.Event.cmd hrequired)
            (by simp only [Sum.inl.injEq, reduceCtorEq, not_false_eq_true])
        · -- The metadata was read, and what goes on is the operation.
          rcases (walks_bind_ended (p := tryCatch (Metered.forTrustedTask repr d tool taskId) _)
            (o := .error e)).mp hrest with
            ⟨e', he, hserved⟩ | ⟨result, t₁, t₂, -, -, hnoted⟩
          · cases he
            exact raised_served [⟨.inl (.extractTraceContext metadata), .ok ()⟩] hserved rfl
              fun ev hev => hpossible ev (List.mem_cons_of_mem _ hev)
          · -- The result is recorded and returned.
            cases hnoted with
            | call c k answer t q hlast =>
                exact absurd (walks_done hlast).2
                  (by simp only [ended, reduceCtorEq, not_false_eq_true])
  · exact absurd (walks_done hdone).2 (by simp only [ended, reduceCtorEq, not_false_eq_true])

section Runs

variable (repr : PyVal → String) (d : Deployment) (sched : List (Core.Action AppCall Env))

theorem recorded_possible (attempts : Nat) (c : Cmd ⊕ Metric) (env : Env)
    (w : World × List Metric) :
    (meter attempts).possible c (Core.recordedPerform perform c env w).1 := by
  cases c with
  | inl c => exact perform_possible c env w.1
  | inr m => trivial

/-- The meter has followed every thread of a run that records. -/
theorem run_metered : ∀ th ∈ (meteredRun repr d sched).threads, ∃ st : Meter,
    Kept d.retryPolicy.maxAttempts th.trace st ∧ (meter d.retryPolicy.maxAttempts).Obeys
      (fun st response => st.owed = none ∧ Metered.Billed repr th.call response st.calls)
      (fun st _ => st.owed = none ∧ (st.calls = [] ∨ Metered.IsMcp th.call)) st th.rest := by
  intro th hth
  rcases Core.Monitor.exec_obeys (recorded_possible _) (Metered.bills_code repr d) (World.empty, [])
    sched th hth with ⟨st, hafter, hobeys⟩
  exact ⟨st, kept_after hafter, hobeys⟩

theorem record_noted : (meteredRun repr d sched).world.2 =
    (meteredRun repr d sched).history.filterMap fun e => e.2.note :=
  Core.recorded_history perform (Metered.code repr d) World.empty sched

/-- Every metric of every run is one of the vocabulary, and there are but as many of
    these as attempts that may be retried beside the fixed ones. -/
theorem metrics_listed :
    (meteredRun repr d sched).world.2 ⊆ Metric.vocabulary d.retryPolicy.maxAttempts ∧
      (Metric.vocabulary d.retryPolicy.maxAttempts).length =
        81 + (d.retryPolicy.maxAttempts - 1) := by
  refine ⟨?_, vocabulary_length _⟩
  intro m hm
  have hrecord : m ∈ (meteredRun repr d sched).history.filterMap fun e => e.2.note := by
    rw [← record_noted]
    exact hm
  rcases List.mem_filterMap.mp hrecord with ⟨⟨i, ev⟩, hev, hnote⟩
  -- The event is one of a thread, which the meter has followed.
  rcases (Core.exec_events (Core.recordedPerform perform) (Metered.code repr d) (World.empty, [])
    sched i ev).mp hev with ⟨th, hth, hmem⟩
  rcases run_metered repr d sched th (List.mem_of_getElem? hth) with ⟨st, hkept, -⟩
  exact hkept.listed m (List.mem_filterMap.mpr ⟨ev, hmem, hnote⟩)

/-- A call of the server that has returned has recorded itself once, with the
    outcome of what it returned; one that has raised has recorded itself, with an
    error, when its task was not found, or when the tool itself raised that of a task
    that was found, and otherwise not; and other calls record no call of the
    server. -/
theorem calls_recorded :
    (∀ th ∈ (meteredRun repr d sched).threads, ∀ response, th.rest = done response →
      Metered.Billed repr th.call response (callsOf th.trace)) ∧
    ∀ th ∈ (meteredRun repr d sched).threads, ∀ e, th.rest = fail e →
      Metered.Unbilled repr d th.call th.trace e (callsOf th.trace) := by
  constructor
  · intro th hth response hrest
    rcases run_metered repr d sched th hth with ⟨st, hkept, hobeys⟩
    rw [hrest] at hobeys
    rw [callsOf, ← hkept.calls]
    exact hobeys.2
  · intro th hth e hrest
    rcases run_metered repr d sched th hth with ⟨st, hkept, hobeys⟩
    rw [hrest] at hobeys
    rcases th with ⟨call, rest, tr⟩
    cases call with
    | mcp tool metadata =>
        have hwalk := Core.exec_walks (Core.recordedPerform perform) (Metered.code repr d)
          (World.empty, []) sched _ hth
        rw [hrest] at hwalk
        exact raised_call hwalk (Core.Monitor.exec_possible (recorded_possible 0) _ sched _ hth)
    | _ =>
        change callsOf tr = []
        rw [callsOf, ← hkept.calls]
        exact hobeys.2.resolve_right fun ⟨_, _, h⟩ => absurd h
          (by simp only [reduceCtorEq, not_false_eq_true])

end Runs

end Asante
