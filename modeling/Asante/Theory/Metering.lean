import Asante.Model.Telemetry
import Asante.Theory.Footprints

/-!
# Metering

Telemetry does nothing. The programs that record are those of the application
without their records, the tools and the server and the endpoints alike, so a
run of the application that records is a run of the application: the same
answers, the same world, and a record beside it.

Everything that is shown of the runs of the application holds of the recording
ones by that.

## Main definitions

* `meteredRun`: A run of the application that records.
* `Silenced`: A thread of such a run, without its records.

## Theorems

* `erase_tool`, `erase_call`, `erase_code`: The programs without their records.
* `telemetry_inert`: A run that records is a run.
-/

namespace Asante

open Core.Prog

namespace Metered

section Erasing

variable {α : Type}

@[simp] theorem erase_plain (p : App α) : erase (plain p) = p :=
  erase_embed p

@[simp] theorem erase_note (m : Metric) : erase (note m) = done () := rfl

theorem erase_secured {action : String} {submit : Int → Request} {denied : String → Metered Unit}
    {missing : Metered Unit} {body : Permit → Revalidation → Metered PyDict}
    (hdenied : ∀ phase, erase (denied phase) = done ()) (hmissing : erase missing = done ()) :
    erase (secured action submit denied missing body) =
      Asante.secured submit fun permit live => erase (body permit live) := by
  unfold secured Asante.secured
  rw [erase_bind, erase_plain]
  refine bind_congr fun now => ?_
  rw [erase_bind, erase_plain]
  refine bind_congr fun admission => ?_
  rw [recordAuthorization, erase_bind, erase_note, done_bind, apply_ite erase]
  refine ite_congr rfl (fun _ => ?_) fun _ => ?_
  · rcases admission.permit with _ | permit
    · dsimp only
      rw [erase_bind, hmissing]
      rfl
    · dsimp only
      rw [erase_bind, erase_plain]
      refine bind_congr fun live => ?_
      rw [recordAuthorization, erase_bind, erase_note, done_bind, apply_ite erase]
      refine ite_congr rfl (fun _ => rfl) fun _ => ?_
      rw [erase_bind, hdenied]
      rfl
  · rw [erase_bind, hdenied]
    rfl

theorem erase_markUnknownOnError {permit : Permit} {operation : Metered α} {unknown : Metered Unit}
    (hunknown : erase unknown = done ()) :
    erase (markUnknownOnError permit operation unknown) =
      Asante.markUnknownOnError permit (erase operation) := by
  unfold markUnknownOnError Asante.markUnknownOnError
  rw [erase_tryCatch]
  refine congrArg _ (funext fun e => ?_)
  rw [apply_ite erase]
  refine ite_congr rfl (fun _ => ?_) fun _ => rfl
  rw [erase_bind, erase_plain]
  refine bind_congr fun _ => ?_
  rw [erase_bind, hunknown]
  rfl

theorem erase_completeOrRaise {permit : Permit} {message : String} {incomplete : Metered Unit}
    (hincomplete : erase incomplete = done ()) :
    erase (completeOrRaise permit message incomplete) =
      Asante.completeOrRaise permit message := by
  unfold completeOrRaise Asante.completeOrRaise
  rw [erase_bind, erase_plain]
  refine bind_congr fun completed => ?_
  rw [apply_ite erase]
  refine ite_congr rfl (fun _ => rfl) fun _ => ?_
  rw [erase_bind, hincomplete]
  rfl

@[simp] theorem erase_recordCreditRetry (attempt : Nat) :
    erase (recordCreditRetry attempt) = ask (.recordCreditRetry attempt) := by
  unfold recordCreditRetry
  rw [erase_bind, erase_plain, erase_note]
  rfl

/-- The retry loop, attempt by attempt. -/
theorem erase_retryFrom {operation : App α} {policy : RetryPolicy} {onRetry : Nat → Metered Unit} :
    ∀ left attempt, erase (retryFrom operation policy onRetry left attempt) =
      Asante.retryFrom operation policy (fun n => erase (onRetry n)) left attempt := by
  intro left
  induction left with
  | zero => exact fun _ => rfl
  | succ left ih =>
      intro attempt
      unfold retryFrom Asante.retryFrom
      rw [erase_tryCatch, erase_plain]
      refine congrArg _ (funext fun e => ?_)
      rw [apply_ite erase]
      refine ite_congr rfl (fun _ => ?_) fun _ => rfl
      rw [apply_ite erase]
      refine ite_congr rfl (fun _ => rfl) fun _ => ?_
      -- The record, the pause where there is one, and the attempts that are left.
      rw [erase_bind]
      refine bind_congr fun _ => ?_
      dsimp only
      rw [apply_ite erase]
      refine ite_congr rfl (fun _ => ?_) fun _ => ih (attempt + 1)
      rw [erase_bind, erase_plain]
      exact bind_congr fun _ => ih (attempt + 1)

theorem erase_executeWithBoundedRetry {operation : App α} {policy : RetryPolicy} :
    erase (executeWithBoundedRetry operation policy recordCreditRetry) =
      Asante.executeWithBoundedRetry operation policy
        fun attempt => ask (.recordCreditRetry attempt) := by
  unfold executeWithBoundedRetry Asante.executeWithBoundedRetry
  rw [erase_retryFrom]
  simp only [erase_recordCreditRetry]

variable (repr : PyVal → String) (d : Deployment)

theorem erase_executeOperation (action : String) (executingWorkload : Workload)
    (reservationId : String) (arguments : PyDict) (task : TaskContext)
    (chain : List DelegationGrant) (operation : App PyDict) :
    erase (executeOperation repr d action executingWorkload reservationId arguments task chain
      operation) = Asante.executeOperation d action executingWorkload reservationId arguments task
        chain operation := by
  unfold executeOperation
  rw [erase_secured (fun _ => rfl) rfl]
  refine congrArg _ (funext fun permit => funext fun live => ?_)
  rw [erase_bind, erase_markUnknownOnError rfl, erase_plain]
  refine bind_congr fun result => ?_
  rw [erase_bind, erase_completeOrRaise rfl]
  exact bind_congr fun _ => rfl

/-- The tools are those of the application, without their records. -/
theorem erase_tool (call : ToolCall) : erase (toolCode repr d call) = call.code d := by
  cases call with
  | issueCredit retryPolicy reservationId amount reason task chain =>
      unfold toolCode issueCredit ToolCall.code Asante.issueCredit
      rw [erase_secured (fun _ => rfl) rfl]
      refine congrArg _ (funext fun permit => funext fun live => ?_)
      rw [erase_bind, erase_plain]
      refine bind_congr fun key => ?_
      rw [erase_bind, erase_markUnknownOnError rfl, erase_executeWithBoundedRetry]
      refine bind_congr fun result => ?_
      rw [erase_bind, erase_completeOrRaise rfl]
      refine bind_congr fun _ => ?_
      -- Both outcomes return the same.
      split
      · rfl
      · rfl
  | getReservation reservationId task chain =>
      -- Each of the three exits completes the permit and answers.
      have hend : ∀ permit message (resp : PyDict),
          erase (completeOrRaise permit message (pure ()) >>= fun _ => pure resp) =
            Asante.completeOrRaise permit message >>= fun _ => pure resp := by
        intro permit message resp
        rw [erase_bind, erase_completeOrRaise rfl]
        rfl
      unfold toolCode getReservation ToolCall.code Asante.getReservation
      rw [erase_secured (fun _ => rfl) rfl]
      refine congrArg _ (funext fun permit => funext fun live => ?_)
      rw [erase_bind, erase_plain]
      refine bind_congr fun cacheKey => ?_
      rw [erase_bind, erase_plain]
      refine bind_congr fun lookup => ?_
      rw [recordCacheLookup, erase_bind, erase_note, done_bind]
      generalize lookup.hit = hit, lookup.value = value
      rcases hit with _ | _ <;> rcases value with _ | value
      case true.some => exact hend _ _ _
      -- The lookup that does not answer goes to the provider.
      all_goals
        dsimp only
        rw [erase_bind, erase_plain]
        refine bind_congr fun reservation => ?_
        cases reservation with
        | none => exact hend _ _ _
        | some reservation =>
            dsimp only
            rw [erase_bind, erase_plain]
            exact bind_congr fun _ => hend _ _ _
  | createMaintenanceRequest reservationId category urgency description task chain =>
      refine (apply_ite erase _ _ _).trans (ite_congr rfl (fun _ => ?_) fun _ => rfl)
      rw [erase_bind, erase_plain]
      exact bind_congr fun key => erase_executeOperation repr d _ _ _ _ _ _ _
  | sendGuestMessage reservationId message task chain =>
      refine (apply_ite erase _ _ _).trans (ite_congr rfl (fun _ => rfl) fun _ => ?_)
      rw [erase_bind, erase_plain]
      exact bind_congr fun key => erase_executeOperation repr d _ _ _ _ _ _ _
  | requestGuestCredit reservationId amount reason task chain =>
      exact erase_executeOperation repr d _ _ _ _ _ _ _
  | executeApproved approval task chain =>
      refine (apply_ite erase _ _ _).trans (ite_congr rfl (fun _ => rfl) fun _ => ?_)
      refine (apply_ite erase _ _ _).trans (ite_congr rfl (fun _ => ?_) fun _ => rfl)
      rw [erase_secured (fun _ => rfl) rfl]
      refine congrArg _ (funext fun permit => funext fun live => ?_)
      rw [erase_bind, erase_markUnknownOnError rfl, erase_plain]
      refine bind_congr fun providerResult => ?_
      rw [erase_bind, erase_completeOrRaise rfl]
      refine bind_congr fun _ => ?_
      dsimp only
      rw [erase_bind, erase_plain]
      exact bind_congr fun _ => rfl

theorem erase_forTrustedTask (tool : McpTool) (taskId : String) :
    erase (forTrustedTask repr d tool taskId) = tool.forTrustedTask d taskId := by
  rw [forTrustedTask_eq]
  unfold forTrustedTask
  rw [erase_bind, erase_plain]
  refine bind_congr fun context => ?_
  rw [← erase_tool repr d (tool.toolCall d context)]
  cases tool with
  | issueGuestCredit reservationId amount reason => rfl
  | getReservation reservationId => rfl
  | createMaintenanceRequest reservationId category urgency description => rfl
  | sendGuestMessage reservationId message => rfl
  | requestGuestCredit reservationId amount reason => rfl

theorem erase_call (tool : McpTool) (metadata : PyDict) :
    erase (call repr d tool metadata) = tool.call d metadata := by
  unfold call McpTool.call serverTool
  rw [erase_bind, erase_plain]
  refine bind_congr fun _ => ?_
  rw [erase_bind, erase_plain]
  refine bind_congr fun taskId => ?_
  rw [erase_bind, erase_plain]
  refine bind_congr fun _ => ?_
  rw [erase_bind, erase_tryCatch, erase_forTrustedTask]
  -- The outcome is recorded of a result that is returned as it is.
  refine (bind_done _).trans (congrArg _ (funext fun e => ?_))
  rw [apply_ite erase]
  exact ite_congr rfl (fun _ => rfl) fun _ => rfl

/-- The calls are those of the application, without their records. -/
theorem erase_code (call : AppCall) : erase (code repr d call) = call.code d := by
  have htool := erase_tool repr d
  cases call with
  | runAgent operator message => exact erase_plain _
  | mcp tool metadata =>
      unfold code AppCall.code
      dsimp only
      rw [erase_bind, erase_call]
      rfl
  | devIssueCredit operator reservationId amount reason =>
      refine (apply_ite erase _ _ _).trans (ite_congr rfl (fun _ => ?_) fun _ => rfl)
      rw [erase_bind, erase_plain]
      refine bind_congr fun task => ?_
      rw [erase_bind, erase_plain]
      refine bind_congr fun chain => ?_
      rw [erase_bind]
      exact congrArg (· >>= fun result => pure (taskResponse task result))
        (htool (.issueCredit d.retryPolicy reservationId amount reason task chain))
  | devGetReservation operator reservationId =>
      unfold code AppCall.code devGetReservation Asante.devGetReservation
      dsimp only
      rw [erase_bind, erase_plain]
      refine bind_congr fun task => ?_
      rw [erase_bind, erase_plain]
      refine bind_congr fun chain => ?_
      rw [erase_bind]
      exact congrArg (· >>= fun result => pure (taskResponse task result))
        (htool (.getReservation reservationId task chain))
  | approve operator approvalId note =>
      refine (apply_ite erase _ _ _).trans (ite_congr rfl (fun _ => ?_) fun _ => rfl)
      rw [erase_bind, erase_plain]
      refine bind_congr fun _ => ?_
      rw [erase_bind, erase_plain]
      refine bind_congr fun decided => ?_
      rcases decided with record | record
      · rfl
      · dsimp only
        rw [erase_bind, erase_plain]
        refine bind_congr fun task => ?_
        rw [erase_bind, erase_plain]
        refine bind_congr fun chain => ?_
        have hexecute : erase (executeApproved d record task chain) =
            Asante.executeApproved d record task chain :=
          htool (.executeApproved record task chain)
        rw [erase_bind, hexecute]
        refine bind_congr fun result => ?_
        rw [erase_bind, erase_plain]
        exact bind_congr fun _ => rfl
  | deny operator approvalId note => exact erase_plain _

end Erasing

end Metered

/-- A run of the application that records, from nothing recorded. -/
def meteredRun (repr : PyVal → String) (d : Deployment)
    (sched : List (Core.Action AppCall Env)) :
    Core.Config AppCall (Cmd ⊕ Metric) (Core.Extend Cmd.Answer fun _ => Unit) Exc Response
      (World × List Metric) :=
  (Core.Config.start (World.empty, ([] : List Metric))).exec (Core.recordedPerform perform)
    (Metered.code repr d) sched

/-- The second thread is the first without its records. -/
structure Silenced
    (th' : Core.Thread AppCall (Cmd ⊕ Metric) (Core.Extend Cmd.Answer fun _ => Unit) Exc Response)
    (th : Core.Thread AppCall Cmd Cmd.Answer Exc Response) : Prop where
  call : th.call = th'.call
  rest : th.rest = erase th'.rest
  trace : th.trace = th'.trace.filterMap Core.Event.visible

/-- A run that records is a run of the application: the same calls with the same
    programs left and the same answers, in environments of the first, and the
    same world. -/
theorem telemetry_inert (repr : PyVal → String) (d : Deployment)
    (sched : List (Core.Action AppCall Env)) :
    ∃ lower : List (Core.Action AppCall Env),
      (∀ j env, .advance j env ∈ lower → ∃ i, .advance i env ∈ sched) ∧
      (meteredRun repr d sched).world.1 = (appRun d lower).world ∧
      (∀ th ∈ (appRun d lower).threads, ∃ th' ∈ (meteredRun repr d sched).threads,
        Silenced th' th) ∧
      ∀ th' ∈ (meteredRun repr d sched).threads, ∃ th ∈ (appRun d lower).threads,
        Silenced th' th := by
  rcases Core.layer_run (Core.recordLayer perform (Metered.code repr d)) (World.empty, []) sched
    with ⟨lower, place, hfollows, hfrom⟩
  have hrun : (Core.Config.start World.empty).exec perform
      (fun call => erase (Metered.code repr d call)) lower = appRun d lower := by
    rw [funext (Metered.erase_code repr d)]
    rfl
  refine ⟨lower, fun j env hmem => ?_, ?_, fun th hth => ?_, fun th' hth' => ?_⟩
  · rcases hfrom j env hmem with ⟨i, env', hadvance, rfl⟩
    exact ⟨i, hadvance⟩
  · rw [← hrun]
    exact hfollows.world.symm
  · rw [← hrun] at hth
    rcases Core.follows_lower hfollows hth with ⟨th', hth', th, hsome, hcall, hrest, htrace⟩
    cases hsome
    exact ⟨th', hth', hcall, hrest, htrace⟩
  · rcases Core.follows_upper hfollows hth' with ⟨o, ⟨th, rfl, hcall, hrest, htrace⟩, hmem⟩
    refine ⟨th, ?_, hcall, hrest, htrace⟩
    rw [← hrun]
    exact hmem th rfl

end Asante
