import Asante.Theory.Authorization

/-!
# Disciplines for the Application

The rules by which the programs of the application are shown to keep a
discipline, whatever the discipline says about the ledger and the approvals.

Most steps of most programs touch neither: they ask Ruhusa, read a clock, end a
permit, read a row. A discipline whose invariant and order look only at the
core of the world, that is the ledger, its history and the approvals, is kept
by all of them, and `safe_inert` says so once. What is left for a discipline to
establish are the four commands that do touch the core.

The shapes the programs share have a rule each: the secured opening, the end of
a permit, the handler around a provider step, the retry loop.

## Main definitions

* `World.core`, `touchesCore`: The ledger, its history and the approvals, and
  the commands that may change them.
* `background`: The commands that submit no request, change no registration and
  do not touch the core.
* `AppDiscipline`: A discipline that looks at the core only.
* `ToolCall.Writes`: The core commands a tool call may issue.

## Theorems

* `safe_inert`: A step off the core keeps any such discipline.
* `safe_secured`: Safety of a secured operation from its body.
* `safe_completeOrRaise`, `safe_markUnknownOnError`, `safe_retry`: The shared
  shapes.
* `safe_issues`: Safety of a program that never touches the core.
* `keeps_bind`, `keeps_tryCatch`: Safety with nothing said of the end.
* `issues_secured` and its siblings: What the programs issue, for any predicate
  that holds of the background.
* `issues_tool`: A tool call issues its request, its writes, and the background.
-/

namespace Asante

open Core.Prog

/-- The ledger, its history and the approvals. -/
def World.core (w : World) : GuestCreditLedger × List Write × ApprovalTable :=
  (w.ledger, w.writes, w.approvals)

/-- The commands that may change the core. -/
def touchesCore : Cmd → Bool
  | .ledgerIssue _ _ _ => true
  | .createCreditRequest _ => true
  | .decideLocked _ _ _ _ => true
  | .markExecutedLocked _ _ => true
  | _ => false

/-- The commands that neither submit a request to Ruhusa, nor change the registry
    of tasks, nor touch the core. -/
def background : Cmd → Bool
  | .begin _ => false
  | .revalidate _ _ => false
  | .registerTask _ => false
  | .unregisterTask _ => false
  | c => !touchesCore c

theorem background_core {c : Cmd} (h : background c = true) : touchesCore c = false := by
  cases c with
  | ledgerIssue writer credit key => exact absurd h Bool.noConfusion
  | createCreditRequest r => exact absurd h Bool.noConfusion
  | decideLocked approvalId approved decidedBy note => exact absurd h Bool.noConfusion
  | markExecutedLocked approvalId result => exact absurd h Bool.noConfusion
  | _ => rfl

theorem perform_core {c : Cmd} (h : touchesCore c = false) (env : Env) (w : World) :
    (perform c env w).2.core = w.core := by
  cases c with
  | ledgerIssue writer credit key => exact absurd h Bool.noConfusion
  | createCreditRequest r => exact absurd h Bool.noConfusion
  | decideLocked approvalId approved decidedBy note => exact absurd h Bool.noConfusion
  | markExecutedLocked approvalId result => exact absurd h Bool.noConfusion
  | maintenanceCreate r key => exact apply_world World.core _ _ _ rfl
  | outboxSend reservationId message key => exact apply_world World.core _ _ _ rfl
  | findCreditRequest taskId reservationId amount => exact apply_world World.core _ _ _ rfl
  | requireRecord approvalId => exact apply_world World.core _ _ _ rfl
  | cacheGet key => exact apply_world World.core _ _ _ rfl
  | cachePut key value ttlSeconds => exact apply_world World.core _ _ _ rfl
  | providerGetReservation reservationId => exact apply_world World.core _ _ _ rfl
  | registerGrant grant => exact apply_world World.core _ _ _ rfl
  | extractTraceContext metadata => exact apply_world World.core _ _ _ rfl
  | _ => rfl

/-- A fallible step happened, or nothing did. -/
theorem apply_cases {X : Type} (fault : Fault) (w : World) (step : Except Exc X × World) :
    (fault.apply w step).2 = w ∨ (fault.apply w step).2 = step.2 := by
  cases fault with
  | none => exact Or.inr rfl
  | before e => exact Or.inl rfl
  | after e => exact Or.inr rfl

/-- A fallible step that was answered did happen. -/
theorem apply_ok {X : Type} {fault : Fault} {w : World} {step : Except Exc X × World} {x : X}
    (h : (fault.apply w step).1 = .ok x) : step.1 = .ok x ∧ (fault.apply w step).2 = step.2 := by
  cases fault with
  | none => exact ⟨h, rfl⟩
  | before e => exact absurd h (by simp only [Fault.apply, reduceCtorEq, not_false_eq_true])
  | after e => exact absurd h (by simp only [Fault.apply, reduceCtorEq, not_false_eq_true])

/-- A discipline of the application whose invariant and order look at the core
    of the world only. -/
structure AppDiscipline where
  inv : World → Prop
  le : World → World → Prop
  adm : Cmd → Env → World → Prop
  refl : ∀ w, le w w
  trans : ∀ {u v w}, le u v → le v w → le u w
  core : ∀ v v' : World, v'.core = v.core → inv v → inv v' ∧ le v v'

/-- The discipline it is, for the steps of the application. -/
def AppDiscipline.sys (D : AppDiscipline) : Core.Discipline Cmd Cmd.Answer Env World :=
  { perform := perform
    inv := D.inv
    le := D.le
    adm := D.adm
    refl := D.refl
    trans := D.trans }

section Rules

variable (D : AppDiscipline) {α : Type} {w : World}

/-- A step off the core keeps the discipline. -/
theorem safe_inert {Q : Except Exc α → World → Prop} {c : Cmd} {k : c.Answer → App α}
    (hc : touchesCore c = false)
    (h : ∀ env v (r : c.Answer), (perform c env v).1 = r → D.adm c env v → D.inv v →
      D.inv (perform c env v).2 → D.le w (perform c env v).2 →
      D.sys.Safe Q (k r) (perform c env v).2) :
    D.sys.Safe Q (.call c k) w := by
  intro v hle hinv env hadm
  rcases D.core v (perform c env v).2 (perform_core hc env v) hinv with ⟨hinv', hle'⟩
  exact ⟨hinv', hle', h env v _ rfl hadm hinv hinv' (D.trans hle hle')⟩

/-- A fallible answer is returned or raised, whichever it is. -/
theorem safe_ofExcept {Q : Except Exc α → World → Prop} {r : Except Exc α}
    (hok : ∀ a, r = .ok a → Q (.ok a) w) (herr : ∀ e, r = .error e → Q (.error e) w) :
    D.sys.Safe Q (Core.Prog.ofExcept r) w := by
  cases r with
  | ok a => exact hok a rfl
  | error e => exact herr e rfl

/-- A program that never touches the core is safe, with nothing said of how it
    ends. -/
theorem safe_issues (p : App α) (h : Issues (fun c => touchesCore c = false) p)
    {Q : Except Exc α → World → Prop} (hQ : ∀ r w, Q r w) : D.sys.Safe Q p w :=
  D.sys.safe_of_issues (fun _ hc env v hinv _ => D.core v _ (perform_core hc env v) hinv) p h hQ w

/-- The program keeps the discipline from every world, with nothing said of how
    it ends. -/
def AppDiscipline.Keeps (p : App α) : Prop :=
  ∀ w, D.sys.Safe (fun _ _ => True) p w

theorem keeps_issues {p : App α} (h : Issues (fun c => touchesCore c = false) p) : D.Keeps p :=
  fun w => safe_issues D (w := w) p h fun _ _ => trivial

theorem keeps_done (a : α) : D.Keeps (done a) :=
  fun _ => trivial

theorem keeps_bind {β : Type} {p : App α} {f : α → App β} (hp : D.Keeps p)
    (hf : ∀ a, D.Keeps (f a)) : D.Keeps (p >>= f) := by
  -- The first program leaves a world from which the second keeps the discipline.
  refine fun w => D.sys.safe_bind _ _ _ _ (D.sys.safe_mono (fun r v _ => ?_) _ _ (hp w))
  cases r with
  | ok a => exact hf a v
  | error e => trivial

theorem keeps_tryCatch {p : App α} {g : Exc → App α} (hp : D.Keeps p)
    (hg : ∀ e, D.Keeps (g e)) : D.Keeps (tryCatch p g) := by
  refine fun w => D.sys.safe_tryCatch _ _ _ _ (D.sys.safe_mono (fun r v _ => ?_) _ _ (hp w))
  cases r with
  | ok a => trivial
  | error e => exact hg e v

theorem keeps_ofExcept (r : Except Exc α) : D.Keeps (Core.Prog.ofExcept r) := by
  cases r with
  | ok a => exact fun _ => trivial
  | error e => exact fun _ => trivial

/-- A secured operation is safe when its refusals and a raising factory satisfy
    the postcondition and its body is safe wherever it is reached. -/
theorem safe_secured {Q : Except Exc PyDict → World → Prop} {submit : Int → Request}
    {body : Permit → Revalidation → App PyDict}
    (hcreate : ∀ now env v e, D.adm (.begin (submit now)) env v → D.inv v → D.le w v →
      env.create (submit now) = some e → Q (.error e) v)
    (hbegin : ∀ now env v, D.adm (.begin (submit now)) env v → D.inv v → D.le w v →
      (env.begin (submit now)).allowed = false ∨ (env.begin (submit now)).permit = none →
      ∀ effect reason, Q (.ok (blocked effect reason)) v)
    (hrevalidate : ∀ now permit env v, D.adm (.revalidate (submit now) permit) env v → D.inv v →
      D.le w v → (env.revalidate (submit now) permit).allowed = false →
      ∀ effect reason, Q (.ok (blocked effect reason)) v)
    (hbody : ∀ now permit env v, D.adm (.revalidate (submit now) permit) env v → D.inv v →
      D.le w v → (env.revalidate (submit now) permit).allowed = true →
      D.sys.Safe Q (body permit (env.revalidate (submit now) permit)) v) :
    D.sys.Safe Q (secured submit body) w := by
  unfold secured
  rw [ask_bind]
  refine safe_inert D rfl fun _ _ now _ _ _ _ hnow => ?_
  rw [admit_bind]
  refine safe_inert D rfl fun env v answer hanswer hadm _ hinv hle => ?_
  have hbegun := D.trans hnow hle
  rcases answer with e | admission
  · exact hcreate now env v e hadm hinv hbegun (Env.admission_error.mp hanswer)
  have hadmission := (Env.admission_ok.mp hanswer).2
  rw [ofExcept_ok, done_bind]
  by_cases hallowed : admission.allowed = true
  · rw [if_pos hallowed]
    -- The three refusals and the body, in the order of the opening.
    rcases hpermit : admission.permit with _ | permit
    · refine hbegin now env v hadm hinv hbegun (Or.inr ?_) _ _
      rw [hadmission, hpermit]
    · dsimp only
      rw [ask_bind]
      refine safe_inert D rfl fun env v live hanswer hadm _ hinv hle => ?_
      have hlive := D.trans hbegun hle
      have hrevalidated : env.revalidate (submit now) permit = live := hanswer
      by_cases hstill : live.allowed = true
      · rw [if_pos hstill]
        -- The body is reached with the live answer of the revalidation.
        rw [← hrevalidated] at hstill ⊢
        exact hbody now permit env v hadm hinv hlive hstill
      · rw [if_neg hstill]
        refine hrevalidate now permit env v hadm hinv hlive ?_ _ _
        rw [hrevalidated, Bool.eq_false_iff]
        exact hstill
  · rw [if_neg hallowed]
    refine hbegin now env v hadm hinv hbegun (Or.inl ?_) _ _
    rw [hadmission, Bool.eq_false_iff]
    exact hallowed

/-- Ending a permit is safe when both answers are. -/
theorem safe_completeOrRaise {Q : Except Exc α → World → Prop} {permit : Permit}
    {message : String} {rest : App α}
    (hok : ∀ v, D.inv v → D.le w v → D.sys.Safe Q rest v)
    (hraise : ∀ env v, D.adm (.complete permit) env v → D.le w v → env.complete permit = false →
      Q (.error (.runtimeError message)) v) :
    D.sys.Safe Q (completeOrRaise permit message >>= fun _ => rest) w := by
  unfold completeOrRaise
  rw [ask_bind, call_bind]
  refine safe_inert D rfl fun env v (completed : Bool) hanswer hadm _ hinv hle => ?_
  cases completed with
  | true => exact hok v hinv hle
  | false => exact hraise env v hadm hle hanswer

/-- A handled provider step is safe when the step is, with nothing owed after a
    raise but the postcondition of the raise. -/
theorem safe_markUnknownOnError {Q : Except Exc α → World → Prop} {permit : Permit}
    {operation : App α}
    (h : D.sys.Safe (fun r v => match r with
      | .ok a => Q (.ok a) v
      | .error e => ∀ v', D.le v v' → Q (.error e) v') operation w) :
    D.sys.Safe Q (markUnknownOnError permit operation) w := by
  unfold markUnknownOnError
  refine D.sys.safe_tryCatch _ _ _ _ (D.sys.safe_mono (fun r v hr => ?_) _ _ h)
  rcases r with e | a
  · dsimp only
    by_cases hexc : e.isException = true
    · -- `mark_unknown` is off the core; the postcondition survives it by hypothesis.
      rw [if_pos hexc, ask_bind]
      exact safe_inert D rfl fun _ _ _ _ _ _ _ hle => hr _ hle
    · rw [if_neg hexc]
      exact hr v (D.refl v)
  · exact hr

/-- The retry loop is safe when its operation is, wherever it is tried, and a
    raise satisfies the postcondition anywhere. -/
theorem safe_retry {Q : Except Exc α → World → Prop} {operation : App α} (policy : RetryPolicy)
    (hraise : ∀ e v, Q (.error e) v) (hop : ∀ v, D.sys.Safe Q operation v) :
    ∀ left attempt w, D.sys.Safe Q
      (retryFrom operation policy (fun n => ask (.recordCreditRetry n)) left attempt) w := by
  intro left
  induction left with
  | zero => exact fun attempt w => hraise _ w
  | succ left ih =>
      -- Each attempt is safe from the world it starts in.
      intro attempt w
      unfold retryFrom
      refine D.sys.safe_tryCatch _ _ _ _ (D.sys.safe_mono (fun r v hr => ?_) _ _ (hop w))
      rcases r with e | a
      · dsimp only
        by_cases htransient : e.isTransient = true
        · rw [if_pos htransient]
          by_cases hbudget : policy.maxAttempts ≤ attempt
          · rw [if_pos hbudget]
            exact hr
          · rw [if_neg hbudget, ask_bind]
            -- Counting the retry and sleeping the backoff touch nothing of the core.
            refine safe_inert D rfl fun _ _ _ _ _ _ _ _ => ?_
            by_cases hbackoff : 0 < policy.backoffSeconds attempt
            · rw [if_pos hbackoff, ask_bind]
              exact safe_inert D rfl fun _ _ _ _ _ _ _ _ => ih (attempt + 1) _
            · rw [if_neg hbackoff]
              exact ih (attempt + 1) _
        · rw [if_neg htransient]
          exact hr
      · exact hr

end Rules

section Issues

variable {S : Cmd → Prop} {α : Type}

theorem issues_ask {c : Cmd} (h : S c) : Issues S (ask c) :=
  ⟨h, fun _ => trivial⟩

theorem issues_ofExcept (r : Except Exc α) : Issues S (Core.Prog.ofExcept r : App α) := by
  cases r with
  | ok a => trivial
  | error e => trivial

theorem issues_orRaise {p : App (Except Exc α)} (h : Issues S p) : Issues S (orRaise p) :=
  issues_bind _ _ h issues_ofExcept

/-- What a program issues that goes on with a derived key: nothing if the key
    cannot be derived. -/
theorem issues_creditKey {d : Deployment} {taskId reservationId : String} {amount : ℚ}
    {f : String → App α} (h : Issues S (f (creditDigest d.sha256 taskId reservationId amount))) :
    Issues S (Core.Prog.ofExcept
      (buildCreditIdempotencyKey d.sha256 d.digestError taskId reservationId amount) >>= f) := by
  rcases buildCreditIdempotencyKey_cases d.sha256 d.digestError taskId reservationId amount with
    ⟨e, -, hkey⟩ | ⟨-, hkey⟩
  · rw [hkey]
    trivial
  · rw [hkey]
    exact h

theorem issues_operationKey {d : Deployment} {action taskId reservationId payload : String}
    {f : String → App α}
    (h : Issues S (f (operationDigest d.sha256 action taskId reservationId payload))) :
    Issues S (Core.Prog.ofExcept
      (operationKey d.sha256 d.digestError action taskId reservationId payload) >>= f) := by
  rcases operationKey_cases d.sha256 d.digestError taskId reservationId action payload with
    ⟨e, -, hkey⟩ | ⟨-, hkey⟩
  · rw [hkey]
    trivial
  · rw [hkey]
    exact h

theorem issues_reservationKey {d : Deployment} {reservationId : String} {f : String → App α}
    (h : Issues S (f (reservationDigest d.sha256 reservationId))) :
    Issues S (Core.Prog.ofExcept
      (buildReservationCacheKey d.sha256 d.digestError reservationId) >>= f) := by
  rcases buildReservationCacheKey_cases d.sha256 d.digestError reservationId with
    ⟨e, -, hkey⟩ | ⟨-, hkey⟩
  · rw [hkey]
    trivial
  · rw [hkey]
    exact h

theorem issues_validated {valid : Bool} {endpoint : App α} (h : Issues S endpoint) :
    Issues S (validated valid endpoint) := by
  unfold validated
  split
  · exact h
  · trivial

/-- The core commands a tool call may issue. -/
def ToolCall.Writes (d : Deployment) : ToolCall → Cmd → Prop
  | issueCredit _ reservationId amount reason task _, c =>
    c = .ledgerIssue (.issueCredit task.taskId) ⟨reservationId, amount, reason⟩
      (some (creditDigest d.sha256 task.taskId reservationId amount))
  | requestGuestCredit _ _ _ _ _, c => ∃ r, c = .createCreditRequest r
  | executeApproved approval _ _, c =>
    c = .ledgerIssue (.approvedExecutor approval.approvalId)
        ⟨approval.reservationId, approval.amount, approval.reason⟩
        (some (approvedCreditKey approval.approvalId)) ∨
      ∃ result, c = .markExecutedLocked approval.approvalId result
  | _, _ => False

variable (hS : ∀ c, background c = true → S c)

include hS

theorem issues_secured {submit : Int → Request} {body : Permit → Revalidation → App PyDict}
    (hsubmit : ∀ now, S (.begin (submit now)) ∧ ∀ permit, S (.revalidate (submit now) permit))
    (hbody : ∀ permit live, Issues S (body permit live)) : Issues S (secured submit body) := by
  unfold secured
  refine issues_bind _ _ (issues_ask (hS _ rfl)) fun now => ?_
  refine issues_bind _ _ (issues_orRaise (issues_ask (hsubmit now).1)) fun admission => ?_
  split
  · split
    · trivial
    · refine issues_bind _ _ (issues_ask ((hsubmit now).2 _)) fun live => ?_
      split
      · exact hbody _ _
      · trivial
  · trivial

theorem issues_markUnknownOnError {permit : Permit} {operation : App α}
    (h : Issues S operation) : Issues S (markUnknownOnError permit operation) := by
  refine issues_tryCatch _ _ h fun e => ?_
  split
  · exact issues_bind _ _ (issues_ask (hS _ rfl)) fun _ => trivial
  · trivial

theorem issues_completeOrRaise {permit : Permit} {message : String} :
    Issues S (completeOrRaise permit message) := by
  refine issues_bind _ _ (issues_ask (hS _ rfl)) fun completed => ?_
  split
  · trivial
  · trivial

theorem issues_retry {operation : App α} {policy : RetryPolicy} (h : Issues S operation) :
    ∀ left attempt, Issues S
      (retryFrom operation policy (fun n => ask (.recordCreditRetry n)) left attempt) := by
  intro left
  induction left with
  | zero => exact fun _ => trivial
  | succ left ih =>
      intro attempt
      refine issues_tryCatch _ _ h fun e => ?_
      split
      · split
        · trivial
        · refine issues_bind _ _ (issues_ask (hS _ rfl)) fun _ => ?_
          dsimp only
          split
          · exact issues_bind _ _ (issues_ask (hS _ rfl)) fun _ => ih _
          · exact ih _
      · trivial

/-- What a tool call issues: its request, its writes, and commands of the
    background. -/
theorem issues_tool (d : Deployment) (call : ToolCall)
    (hsubmit : ∀ now, S (.begin (call.request d now)) ∧
      ∀ permit, S (.revalidate (call.request d now) permit))
    (hwrites : ∀ c, call.Writes d c → S c) : Issues S (call.code d) := by
  cases call with
  | issueCredit retryPolicy reservationId amount reason task chain =>
      refine issues_secured hS hsubmit fun permit live => ?_
      refine issues_creditKey ?_
      refine issues_bind _ _ (issues_markUnknownOnError hS (issues_retry hS
        -- The retried write is the credit under its derived key.
        (issues_orRaise (issues_ask (hwrites _ rfl))) _ _)) fun _ => ?_
      exact issues_bind _ _ (issues_completeOrRaise hS) fun _ => trivial
  | getReservation reservationId task chain =>
      -- Each of the three exits completes the permit and answers.
      have hend : ∀ permit message (resp : PyDict), Issues S
          (completeOrRaise permit message >>= fun _ => (pure resp : App PyDict)) :=
        fun _ _ _ => issues_bind _ _ (issues_completeOrRaise hS) fun _ => trivial
      refine issues_secured hS hsubmit fun permit live => ?_
      refine issues_reservationKey ?_
      refine issues_bind _ _ (issues_orRaise (issues_ask (hS _ rfl))) fun lookup => ?_
      split
      · exact hend _ _ _
      · refine issues_bind _ _ (issues_orRaise (issues_ask (hS _ rfl))) fun reservation => ?_
        split
        · exact hend _ _ _
        · exact issues_bind _ _ (issues_orRaise (issues_ask (hS _ rfl))) fun _ => hend _ _ _
  | createMaintenanceRequest reservationId category urgency description task chain =>
      simp only [ToolCall.code, createMaintenanceRequest]
      split
      · refine issues_operationKey ?_
        refine issues_secured hS hsubmit fun permit live => ?_
        refine issues_bind _ _ (issues_markUnknownOnError hS
          (issues_orRaise (issues_ask (hS _ rfl)))) fun _ => ?_
        exact issues_bind _ _ (issues_completeOrRaise hS) fun _ => trivial
      · trivial
  | sendGuestMessage reservationId message task chain =>
      simp only [ToolCall.code, sendGuestMessage]
      split
      · trivial
      · refine issues_operationKey ?_
        refine issues_secured hS hsubmit fun permit live => ?_
        refine issues_bind _ _ (issues_markUnknownOnError hS
          (issues_orRaise (issues_ask (hS _ rfl)))) fun _ => ?_
        exact issues_bind _ _ (issues_completeOrRaise hS) fun _ => trivial
  | requestGuestCredit reservationId amount reason task chain =>
      refine issues_secured hS hsubmit fun permit live => ?_
      refine issues_bind _ _ (issues_markUnknownOnError hS ?_) fun _ => ?_
      · -- The request is looked up first; only the insert touches the core.
        refine issues_bind _ _ (issues_orRaise (issues_ask (hS _ rfl))) fun _ => ?_
        exact issues_bind _ _ (issues_orRaise (issues_ask (hwrites _ ⟨_, rfl⟩))) fun _ => trivial
      · exact issues_bind _ _ (issues_completeOrRaise hS) fun _ => trivial
  | executeApproved approval task chain =>
      simp only [ToolCall.code, executeApproved]
      split
      · trivial
      · split
        · refine issues_secured hS hsubmit fun permit live => ?_
          -- The credit under the approval's key, then the mark on its row.
          refine issues_bind _ _ (issues_markUnknownOnError hS (issues_orRaise (issues_ask
            (hwrites _ (Or.inl rfl))))) fun _ => ?_
          refine issues_bind _ _ (issues_completeOrRaise hS) fun _ => ?_
          refine issues_bind _ _ ?_ fun _ => trivial
          refine issues_bind _ _ (issues_orRaise (issues_ask (hwrites _ (Or.inr ⟨_, rfl⟩))))
            fun r => ?_
          split
          · trivial
          · exact issues_orRaise (issues_ask (hS _ rfl))
        · trivial

theorem issues_openTask (operator : AuthenticatedHuman) (purpose : String) (lifetime : Int) :
    Issues S (openTask operator purpose lifetime) := by
  refine issues_bind _ _ (issues_ask (hS _ rfl)) fun _ => ?_
  exact issues_bind _ _ (issues_ask (hS _ rfl)) fun _ => trivial

theorem issues_issueChain (d : Deployment) (task : TaskContext) (childWorkload : Workload)
    (rootScope childScope : Scope) :
    Issues S (issueChain d task childWorkload rootScope childScope) := by
  refine issues_bind _ _ (issues_ask (hS _ rfl)) fun _ => ?_
  refine issues_bind _ _ (issues_ask (hS _ rfl)) fun _ => ?_
  refine issues_bind _ _ (issues_ask (hS _ rfl)) fun _ => ?_
  refine issues_bind _ _ (issues_orRaise (issues_ask (hS _ rfl))) fun _ => ?_
  exact issues_bind _ _ (issues_orRaise (issues_ask (hS _ rfl))) fun _ => trivial

theorem issues_serviceRecovery (d : Deployment) (task : TaskContext)
    (supervisorLimit serviceRecoveryLimit : ℚ) :
    Issues S (issueServiceRecoveryDelegation d task supervisorLimit serviceRecoveryLimit) := by
  unfold issueServiceRecoveryDelegation
  split
  · trivial
  · refine issues_bind _ _ (issues_ofExcept _) fun _ => ?_
    exact issues_bind _ _ (issues_ofExcept _) fun _ => issues_issueChain hS d _ _ _ _

theorem issues_approvalExecutor (d : Deployment) (task : TaskContext) (limit : ℚ) :
    Issues S (issueApprovalExecutorDelegation d task limit) := by
  refine issues_bind _ _ (issues_ask (hS _ rfl)) fun _ => ?_
  refine issues_bind _ _ (issues_ask (hS _ rfl)) fun _ => ?_
  refine issues_bind _ _ (issues_ofExcept _) fun _ => ?_
  exact issues_bind _ _ (issues_orRaise (issues_ask (hS _ rfl))) fun _ => trivial

theorem issues_openRun (d : Deployment) (operator : AuthenticatedHuman) :
    Issues S (openRun d operator) := by
  refine issues_bind _ _ (issues_openTask hS _ _ _) fun task => ?_
  refine issues_bind _ _ (issues_issueChain hS d _ _ _ _) fun _ => ?_
  refine issues_bind _ _ (issues_issueChain hS d _ _ _ _) fun _ => ?_
  refine issues_bind _ _ (issues_issueChain hS d _ _ _ _) fun _ => ?_
  refine issues_bind _ _ (issues_serviceRecovery hS d _ _ _) fun _ => ?_
  refine issues_bind _ _ (issues_bind _ _ (issues_ofExcept _) fun _ =>
    issues_issueChain hS d _ _ _ _) fun _ => ?_
  trivial

/-- An agent run registers and unregisters its task, and otherwise issues
    commands of the background. -/
theorem issues_runAgent (d : Deployment) (operator : AuthenticatedHuman) (message : String)
    (hregister : ∀ context, S (.registerTask context))
    (hunregister : ∀ taskId, S (.unregisterTask taskId)) :
    Issues S (runAgent d operator message) := by
  refine issues_validated (issues_bind _ _ (issues_openRun hS d operator) fun context => ?_)
  refine issues_bind _ _ (issues_orRaise (issues_ask (hregister _))) fun _ => ?_
  refine issues_bind _ _ (issues_ask (hS _ rfl)) fun _ => ?_
  refine issues_bind _ _ (issues_ask (hunregister _)) fun _ => ?_
  exact issues_bind _ _ (issues_ofExcept _) fun _ => trivial

theorem issues_devGetReservation (d : Deployment) (operator : AuthenticatedHuman)
    (reservationId : String)
    (hsubmit : ∀ req, S (.begin req) ∧ ∀ permit, S (.revalidate req permit)) :
    Issues S (devGetReservation d operator reservationId) := by
  refine issues_bind _ _ (issues_openTask hS _ _ _) fun task => ?_
  refine issues_bind _ _ (issues_issueChain hS d _ _ _ _) fun chain => ?_
  refine issues_bind _ _ (issues_tool hS d (.getReservation reservationId task chain)
    (fun _ => hsubmit _) fun _ => False.elim) fun _ => trivial

end Issues

section Keeps

variable (D : AppDiscipline) {α : Type}

theorem keeps_completeOrRaise (permit : Permit) (message : String) :
    D.Keeps (completeOrRaise permit message) :=
  keeps_issues D (issues_completeOrRaise fun _ => background_core)

theorem keeps_markUnknownOnError {permit : Permit} {operation : App α} (h : D.Keeps operation) :
    D.Keeps (markUnknownOnError permit operation) := by
  refine keeps_tryCatch D h fun e => ?_
  split
  · exact keeps_issues D (issues_bind _ _ (issues_ask rfl) fun _ => trivial)
  · exact fun _ => trivial

/-- A tool call that writes nothing to the core keeps the discipline. -/
theorem keeps_tool (d : Deployment) (call : ToolCall) (hwrites : ∀ c, ¬ call.Writes d c) :
    D.Keeps (call.code d) := by
  refine keeps_issues D (issues_tool (fun _ => background_core) d call (fun now => ?_)
    fun c hc => absurd hc (hwrites c))
  exact ⟨rfl, fun _ => rfl⟩

theorem keeps_retry {operation : App α} (policy : RetryPolicy) (h : D.Keeps operation)
    (left attempt : Nat) : D.Keeps
      (retryFrom operation policy (fun n => ask (.recordCreditRetry n)) left attempt) :=
  fun w => safe_retry D policy (fun _ _ => trivial) h left attempt w

end Keeps

end Asante
