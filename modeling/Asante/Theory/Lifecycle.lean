import Asante.Theory.Authorization

/-!
# The Execution Lifecycle

Once Ruhusa has revalidated a permit the operation owes it an end: `complete`,
or `mark_unknown` when the provider raised.

Every command is sorted by what it means for that debt. `closes` ends it,
`working` is the provider step and what belongs to it, and the rest neither
ends it nor fails it. A trace is then a gate, a stretch of work, perhaps an
end, and a quiet tail, and the counts come apart along the same seams, so each
exit of each operation is one of four kinds: `leaf_complete`, `leaf_marked`,
and `leaf_open` and `leaf_unkeyed`, which leave the debt unpaid.

`Works` is what the handler relies on: the provider step raises exactly what
its last provider command answered. The retry loop is the one place where that
takes an induction.

The reservation read has no handler, so it reaches `leaf_open` whenever the
cache or the provider raises; the other operations reach it only through an
exception that `except Exception` does not catch. The credit and the
reservation read derive their key between the revalidation and the handler, so
a text without a digest takes them to `leaf_unkeyed`. `lifecycle_closed_iff`
says that these are the only ways.

## Main definitions

* `closes`, `working`, `quiet`: The commands, sorted.
* `providerRaised`: What the last provider command of a trace raised.
* `Revalidated`, `Closed`: The debt, and its end.
* `Handled`: The provider raised nothing, or something the operation handles.
* `Works`: A provider step raises what its last command answered.

## Theorems

* `works_retry`: The retry loop is a provider step.
* `along_lifecycle`: A handled provider step closes what it can.
* `lifecycle_closed_iff`: An operation closes its permit exactly when its key
  was derived and the provider step was handled.
-/

namespace Asante

open Core.Prog

/-- The commands that end the lifecycle of a permit. -/
def closes (permit : Permit) : Cmd → Bool
  | .complete p => p = permit
  | .markUnknown p => p = permit
  | _ => false

/-- What a fallible step raised. -/
def raisedBy {X : Type} : Except Exc X → Option Exc
  | .ok _ => none
  | .error e => some e

/-- What a provider or store raised at a step of the provider's, and nothing for
    any other step. -/
def providerAnswer : AppEvent → Option (Option Exc)
  | ⟨.ledgerIssue _ _ _, r⟩ => some (raisedBy r)
  | ⟨.maintenanceCreate _ _, r⟩ => some (raisedBy r)
  | ⟨.outboxSend _ _ _, r⟩ => some (raisedBy r)
  | ⟨.findCreditRequest _ _ _, r⟩ => some (raisedBy r)
  | ⟨.createCreditRequest _, r⟩ => some (raisedBy r)
  | ⟨.cacheGet _, r⟩ => some (raisedBy r)
  | ⟨.cachePut _ _ _, r⟩ => some (raisedBy r)
  | ⟨.providerGetReservation _, r⟩ => some (raisedBy r)
  | _ => none

/-- The commands of a provider step. -/
def working : Cmd → Bool
  | .ledgerIssue _ _ _ => true
  | .maintenanceCreate _ _ => true
  | .outboxSend _ _ _ => true
  | .findCreditRequest _ _ _ => true
  | .createCreditRequest _ => true
  | .cacheGet _ => true
  | .cachePut _ _ _ => true
  | .providerGetReservation _ => true
  | .recordCreditRetry _ => true
  | .sleep _ => true
  | _ => false

/-- The commands after an operation has ended its permit. -/
def quiet : Cmd → Bool
  | .markExecutedLocked _ _ => true
  | .requireRecord _ => true
  | _ => false

/-- What the last provider command of a trace answered, if there is one. -/
def lastAnswer (tr : List AppEvent) : Option (Option Exc) :=
  (tr.filterMap providerAnswer).getLast?

/-- What the provider step of a trace raised: what its last command did, since
    the step goes on after no exception that it does not retry. -/
def providerRaised (tr : List AppEvent) : Option Exc :=
  (lastAnswer tr).join

/-- Ruhusa revalidated the permit. -/
def Revalidated (tr : List AppEvent) (permit : Permit) : Prop :=
  ∃ req, ∃ live : Revalidation, (⟨.revalidate req permit, live⟩ : AppEvent) ∈ tr ∧
    live.allowed = true

/-- Exactly one command ended the permit, and it was `mark_unknown` exactly when
    the provider step raised. -/
def Closed (tr : List AppEvent) (permit : Permit) : Prop :=
  tr.countP (fun ev => closes permit ev.cmd) = 1 ∧
    ((∃ ev ∈ tr, ev.cmd = .markUnknown permit) ↔ (providerRaised tr).isSome = true)

/-- The call reads a reservation. -/
def ToolCall.Reads : ToolCall → Bool
  | getReservation _ _ _ => true
  | _ => false

/-- What the provider raised is an `Exception`, and the operation is one of those
    that handle it. -/
def Handled (reads : Bool) (tr : List AppEvent) : Prop :=
  ∀ e, providerRaised tr = some e → e.isException = true ∧ reads = false

section Traces

variable {reads : Bool} {permit : Permit}

theorem closings_nil {tr : List AppEvent} (permit : Permit)
    (h : ∀ ev ∈ tr, closes permit ev.cmd = false) :
    tr.countP (fun ev => closes permit ev.cmd) = 0 := by
  rw [List.countP_eq_zero]
  intro ev hev
  rw [h ev hev]
  exact Bool.false_ne_true

theorem closes_of_working {c : Cmd} (h : working c = true) : closes permit c = false := by
  cases c with
  | complete p => exact absurd h Bool.noConfusion
  | markUnknown p => exact absurd h Bool.noConfusion
  | _ => rfl

theorem closes_of_quiet {c : Cmd} (h : quiet c = true) : closes permit c = false := by
  cases c with
  | complete p => exact absurd h Bool.noConfusion
  | markUnknown p => exact absurd h Bool.noConfusion
  | _ => rfl

theorem providerAnswer_of_quiet {ev : AppEvent} (h : quiet ev.cmd = true) :
    providerAnswer ev = none := by
  rcases ev with ⟨c, r⟩
  cases c with
  | markExecutedLocked approvalId result => rfl
  | requireRecord approvalId => rfl
  | _ => exact absurd h Bool.noConfusion

theorem marks_iff_closes {c : Cmd} (h : closes permit c = false) : c ≠ .markUnknown permit := by
  intro hc
  rw [hc] at h
  exact absurd h (by simp only [closes, decide_true, Bool.true_eq_false, not_false_eq_true])

/-- A trace of an operation: the gate, the work, what ended the permit, and a
    quiet tail. -/
structure Shape (permit : Permit) (gate work close tail : List AppEvent) : Prop where
  opened : ∃ now req adm live, gate = gateTrace now req adm permit live
  worked : ∀ ev ∈ work, working ev.cmd = true
  closed : ∀ ev ∈ close, ∃ p, ev.cmd = .complete p ∨ ev.cmd = .markUnknown p
  ended : ∀ ev ∈ tail, quiet ev.cmd = true

variable {gate work close tail : List AppEvent}

theorem shape_gate (hgate : ∃ now req adm live, gate = gateTrace now req adm permit live) :
    Shape permit gate [] [] [] :=
  ⟨hgate, fun _ h => absurd h List.not_mem_nil, fun _ h => absurd h List.not_mem_nil,
    fun _ h => absurd h List.not_mem_nil⟩

theorem shape_raised (h : Shape permit gate work close tail) :
    providerRaised (gate ++ work ++ close ++ tail) = providerRaised work := by
  rcases h.opened with ⟨now, req, adm, live, hgate⟩
  have hclose : close.filterMap providerAnswer = [] := by
    rw [List.filterMap_eq_nil_iff]
    rintro ⟨c, r⟩ hev
    -- `complete` and `mark_unknown` ask the gateway, so neither carries a provider answer.
    rcases h.closed _ hev with ⟨p, hc | hc⟩
    · cases hc
      rfl
    · cases hc
      rfl
  have htail : tail.filterMap providerAnswer = [] :=
    List.filterMap_eq_nil_iff.mpr fun ev hev => providerAnswer_of_quiet (h.ended ev hev)
  unfold providerRaised lastAnswer
  rw [List.filterMap_append, List.filterMap_append, List.filterMap_append, hclose, htail, hgate]
  simp only [gateTrace, admissionTrace, List.cons_append, List.nil_append, List.filterMap_cons,
    providerAnswer, List.filterMap_nil, List.append_nil]

theorem shape_closings (h : Shape permit gate work close tail) :
    (gate ++ work ++ close ++ tail).countP (fun ev => closes permit ev.cmd) =
      close.countP (fun ev => closes permit ev.cmd) := by
  rcases h.opened with ⟨now, req, adm, live, hgate⟩
  -- The gate asks for a decision and a revalidation and ends no permit.
  have hzero : gate.countP (fun ev => closes permit ev.cmd) = 0 := by
    rw [hgate]
    rfl
  rw [List.countP_append, List.countP_append, List.countP_append, hzero,
    closings_nil permit fun ev hev => closes_of_working (h.worked ev hev),
    closings_nil permit fun ev hev => closes_of_quiet (h.ended ev hev)]
  omega

theorem shape_marked (h : Shape permit gate work close tail) :
    (∃ ev ∈ gate ++ work ++ close ++ tail, ev.cmd = .markUnknown permit) ↔
      ∃ ev ∈ close, ev.cmd = .markUnknown permit := by
  rcases h.opened with ⟨now, req, adm, live, hgate⟩
  constructor
  · rintro ⟨ev, hev, hmark⟩
    have hopens : closes permit ev.cmd ≠ false := by
      intro hc
      exact marks_iff_closes hc hmark
    -- Only the closing part can hold the mark.
    rcases List.mem_append.mp hev with hev | hev
    · rcases List.mem_append.mp hev with hev | hev
      · rcases List.mem_append.mp hev with hev | hev
        · -- The gate asks; it marks nothing.
          rw [hgate] at hev
          simp only [gateTrace, admissionTrace, List.cons_append, List.nil_append, List.mem_cons,
            List.not_mem_nil, or_false] at hev
          rcases hev with rfl | rfl | rfl
          · exact absurd hmark (by simp only [reduceCtorEq, not_false_eq_true])
          · exact absurd hmark (by simp only [reduceCtorEq, not_false_eq_true])
          · exact absurd hmark (by simp only [reduceCtorEq, not_false_eq_true])
        · exact absurd (closes_of_working (h.worked ev hev)) hopens
      · exact ⟨ev, hev, hmark⟩
    · exact absurd (closes_of_quiet (h.ended ev hev)) hopens
  · rintro ⟨ev, hev, hmark⟩
    exact ⟨ev, List.mem_append_left _ (List.mem_append_right _ hev), hmark⟩

/-- The permit revalidated in such a trace is the one of its gate. -/
theorem shape_revalidated (h : Shape permit gate work close tail) {p : Permit}
    (hp : Revalidated (gate ++ work ++ close ++ tail) p) : p = permit := by
  rcases h.opened with ⟨now, req, adm, live, hgate⟩
  rcases hp with ⟨r, l, hmem, _⟩
  -- A revalidation can only be a gate event: the later parts hold other commands.
  rcases List.mem_append.mp hmem with hmem | hmem
  · rcases List.mem_append.mp hmem with hmem | hmem
    · rcases List.mem_append.mp hmem with hmem | hmem
      · rw [hgate] at hmem
        simp only [gateTrace, admissionTrace, List.cons_append, List.nil_append, List.mem_cons,
          List.not_mem_nil, or_false] at hmem
        rcases hmem with hev | hev | hev
        · cases hev
        · cases hev
        · cases hev
          rfl
      · exact absurd (h.worked _ hmem) Bool.noConfusion
    · rcases h.closed _ hmem with ⟨q, hc | hc⟩
      · cases hc
      · cases hc
  · exact absurd (h.ended _ hmem) Bool.noConfusion

end Traces

/-- At the end of an operation, a revalidated permit is closed exactly when the
    key was derived and the provider step was handled. -/
def Settled (keyed : Prop) (reads : Bool) (tr : List AppEvent)
    (o : Option (Except Exc PyDict)) : Prop :=
  ∀ out, o = some out → ∀ permit, Revalidated tr permit →
    (Closed tr permit ↔ keyed ∧ Handled reads tr)

section Leaves

variable {keyed : Prop} {reads : Bool} {permit : Permit} {gate work : List AppEvent}

theorem settled_none (keyed : Prop) (reads : Bool) (tr : List AppEvent) :
    Settled keyed reads tr none :=
  fun _ hout => absurd hout (by simp only [reduceCtorEq, not_false_eq_true])

/-- An exit after `complete`: the provider step raised nothing. -/
theorem leaf_complete {tail : List AppEvent} {completed : Bool} (hkeyed : keyed)
    (o : Option (Except Exc PyDict))
    (h : Shape permit gate work [⟨.complete permit, completed⟩] tail)
    (hraised : providerRaised work = none) :
    Settled keyed reads (gate ++ work ++ [⟨.complete permit, completed⟩] ++ tail) o := by
  intro out _ p hp
  rw [shape_revalidated h hp]
  refine iff_of_true ⟨?_, ?_⟩ ⟨hkeyed, fun e he => ?_⟩
  · -- The closing part is the one `complete`, and every other part closes nothing.
    rw [shape_closings h]
    simp only [List.countP_singleton, closes, decide_true, if_true]
  · -- Nothing is marked and nothing was raised: both sides are false.
    rw [shape_marked h, shape_raised h, hraised]
    refine iff_of_false (fun ⟨ev, hev, hmark⟩ => ?_) Bool.false_ne_true
    rw [List.mem_singleton.mp hev] at hmark
    exact absurd hmark (by simp only [reduceCtorEq, not_false_eq_true])
  · rw [shape_raised h, hraised] at he
    exact absurd he (by simp only [reduceCtorEq, not_false_eq_true])

/-- An exit after `mark_unknown`: the provider step raised something the
    operation handles. -/
theorem leaf_marked {e : Exc} (hkeyed : keyed) (o : Option (Except Exc PyDict))
    (h : Shape permit gate work [⟨.markUnknown permit, ()⟩] [])
    (hraised : providerRaised work = some e) (hexc : e.isException = true) :
    Settled keyed false (gate ++ work ++ [⟨.markUnknown permit, ()⟩]) o := by
  intro out _ p hp
  have hsplit : gate ++ work ++ [⟨.markUnknown permit, ()⟩] =
      gate ++ work ++ [(⟨.markUnknown permit, ()⟩ : AppEvent)] ++ [] := (List.append_nil _).symm
  rw [hsplit] at hp ⊢
  rw [shape_revalidated h hp]
  refine iff_of_true ⟨?_, ?_⟩ ⟨hkeyed, fun e' he => ?_⟩
  · -- `mark_unknown` closes the permit just as `complete` does, and only once.
    rw [shape_closings h]
    simp only [List.countP_singleton, closes, decide_true, if_true]
  · -- It stands beside a raised exception: both sides are true.
    rw [shape_marked h, shape_raised h, hraised]
    exact iff_of_true ⟨_, List.mem_singleton.mpr rfl, rfl⟩ rfl
  · rw [shape_raised h, hraised] at he
    rw [← Option.some.inj he]
    exact ⟨hexc, rfl⟩

/-- Nothing ended the permit, so it is not closed. -/
theorem shape_open (h : Shape permit gate work [] []) {p : Permit}
    (hp : Revalidated (gate ++ work ++ [] ++ []) p) : ¬ Closed (gate ++ work ++ [] ++ []) p := by
  rw [shape_revalidated h hp]
  intro hc
  have hcount := hc.1
  rw [shape_closings h] at hcount
  exact absurd hcount (by simp only [List.countP_nil, Nat.zero_ne_one, not_false_eq_true])

/-- An exit that ends nothing: the provider step raised something the operation
    does not handle. -/
theorem leaf_open {e : Exc} (o : Option (Except Exc PyDict)) (h : Shape permit gate work [] [])
    (hraised : providerRaised work = some e) (hnot : ¬ (e.isException = true ∧ reads = false)) :
    Settled keyed reads (gate ++ work) o := by
  intro out _ p hp
  have hsplit : gate ++ work = gate ++ work ++ [] ++ [] := by
    rw [List.append_nil, List.append_nil]
  rw [hsplit] at hp ⊢
  -- The exception that was raised is one the operation does not handle.
  exact iff_of_false (shape_open h hp) fun hh =>
    hnot (hh.2 e (by rw [shape_raised h, hraised]))

/-- An exit right after the gate, where the key could not be derived. -/
theorem leaf_unkeyed (o : Option (Except Exc PyDict)) (h : Shape permit gate [] [] [])
    (hkeyed : ¬ keyed) : Settled keyed reads gate o := by
  intro out _ p hp
  have hsplit : gate = gate ++ [] ++ [] ++ [] := by
    rw [List.append_nil, List.append_nil, List.append_nil]
  rw [hsplit] at hp ⊢
  exact iff_of_false (shape_open h hp) fun hh => hkeyed hh.1

end Leaves

/-- A provider step: it only works, and it raises exactly what its last provider
    command answered. -/
def Works {α : Type} (op : App α) : Prop :=
  Along (fun tr o => (∀ ev ∈ tr, working ev.cmd = true) ∧
    ∀ out : Except Exc α, o = some out → lastAnswer tr = some (raisedBy out)) op []

section Steps

variable {α β : Type}

theorem lastAnswer_append (t u : List AppEvent) :
    lastAnswer (t ++ u) = (lastAnswer u).or (lastAnswer t) := by
  unfold lastAnswer
  rw [List.filterMap_append, List.getLast?_append]

/-- A provider step is one wherever it starts. -/
theorem works_after {op : App α} (h : Works op) {pre : List AppEvent}
    (hpre : ∀ ev ∈ pre, working ev.cmd = true) :
    Along (fun tr o => (∀ ev ∈ tr, working ev.cmd = true) ∧
      ∀ out : Except Exc α, o = some out → lastAnswer tr = some (raisedBy out)) op pre := by
  rw [← List.append_nil pre, along_shift]
  refine along_mono (fun t o ht => ⟨fun ev hev => ?_, fun out hout => ?_⟩) _ _ h
  · -- Working so far, and working from here on.
    rcases List.mem_append.mp hev with hold | hnew
    · exact hpre ev hold
    · exact ht.1 ev hnew
  · -- A provider step always ends in an answer of its own, which hides the earlier ones.
    rw [lastAnswer_append, ht.2 out hout, Option.some_or]

/-- One command of the provider. -/
theorem works_command (c : Cmd) (k : c.Answer → Except Exc α) (hc : working c = true)
    (hk : ∀ r, providerAnswer ⟨c, r⟩ = some (raisedBy (k r))) :
    Works (orRaise (.call c fun r => .done (k r))) := by
  refine ⟨⟨fun ev hev => absurd hev List.not_mem_nil,
    fun out hout => absurd hout (by simp only [reduceCtorEq, not_false_eq_true])⟩, fun r => ?_⟩
  have hone : ∀ ev ∈ [(⟨c, r⟩ : AppEvent)], working ev.cmd = true := by
    intro ev hev
    rw [List.mem_singleton.mp hev]
    exact hc
  have hlast : lastAnswer [(⟨c, r⟩ : AppEvent)] = some (raisedBy (k r)) := by
    unfold lastAnswer
    rw [List.filterMap_cons_some (hk r)]
    rfl
  -- What the command answered is what the step returns.
  change Along _ (Core.Prog.ofExcept (k r)) [⟨c, r⟩]
  rcases hr : k r with e | a
  · refine ⟨hone, fun out hout => ?_⟩
    rw [← Option.some.inj hout, ← hr]
    exact hlast
  · refine ⟨hone, fun out hout => ?_⟩
    rw [← Option.some.inj hout, ← hr]
    exact hlast

theorem works_bind {op : App α} {f : α → App β} (h : Works op) (hf : ∀ a, Works (f a)) :
    Works (op >>= f) := by
  unfold Works
  rw [along_bind]
  refine along_mono (fun t o ht => ?_) _ _ h
  -- Not ended yet: there is no answer to account for.
  rcases o with _ | e | a
  · exact ⟨ht.1, fun out hout => absurd hout (by simp only [reduceCtorEq, not_false_eq_true])⟩
  · -- The first step raised, so the second never starts and its last answer stands.
    refine ⟨ht.1, fun out hout => ?_⟩
    rw [← Option.some.inj hout]
    exact ht.2 _ rfl
  · -- The second step starts on a working trace.
    exact works_after (hf a) ht.1

/-- A value computed from what a provider step returned. -/
theorem works_map {op : App α} (g : α → β) (h : Works op) :
    Works (op >>= fun a => .done (g a)) := by
  unfold Works
  rw [along_bind]
  refine along_mono (fun t o ht => ?_) _ _ h
  rcases o with _ | e | a
  · exact ⟨ht.1, fun out hout => absurd hout (by simp only [reduceCtorEq, not_false_eq_true])⟩
  · refine ⟨ht.1, fun out hout => ?_⟩
    rw [← Option.some.inj hout]
    exact ht.2 _ rfl
  · refine ⟨ht.1, fun out hout => ?_⟩
    rw [← Option.some.inj hout]
    exact ht.2 _ rfl

/-- The retry loop is a provider step: it ends in the answer of the last
    attempt, since it never runs out of attempts before it has raised. -/
theorem works_retry {op : App α} (h : Works op) (policy : RetryPolicy) :
    ∀ left attempt, 0 < left → left + attempt = policy.maxAttempts + 1 →
      Works (retryFrom op policy (fun n => ask (.recordCreditRetry n)) left attempt) := by
  intro left
  induction left with
  -- No attempts left: the policy allows at least one, so the loop never starts here.
  | zero => exact fun attempt hpos _ => absurd hpos (Nat.lt_irrefl 0)
  | succ left ih =>
      intro attempt _ hleft
      unfold retryFrom Works
      rw [along_tryCatch]
      refine along_mono (fun t o ht => ?_) _ _ h
      -- One attempt by itself, then the three ways it can end.
      rcases o with _ | e | a
      · exact ht
      · -- An attempt raised; what follows depends on the class and the budget.
        have hraise : (∀ ev ∈ t, working ev.cmd = true) ∧ ∀ out : Except Exc α,
            some (Except.error e) = some out → lastAnswer t = some (raisedBy out) := ht
        dsimp only
        by_cases htransient : e.isTransient = true
        · rw [if_pos htransient]
          by_cases hbudget : policy.maxAttempts ≤ attempt
          · -- The budget is spent: the exception of this attempt is what the loop raises.
            rw [if_pos hbudget]
            exact hraise
          · -- Another attempt follows, after the retry is counted and the backoff slept.
            rw [if_neg hbudget]
            have hopen : ∀ pre : List AppEvent, (∀ ev ∈ pre, working ev.cmd = true) →
                (∀ ev ∈ pre, working ev.cmd = true) ∧ ∀ out : Except Exc α,
                  none = some out → lastAnswer pre = some (raisedBy out) :=
              fun pre hpre => ⟨hpre, fun out hout =>
                absurd hout (by simp only [reduceCtorEq, not_false_eq_true])⟩
            have hsnoc : ∀ (pre : List AppEvent) (ev : AppEvent),
                (∀ x ∈ pre, working x.cmd = true) → working ev.cmd = true →
                ∀ x ∈ pre ++ [ev], working x.cmd = true := by
              intro pre ev hpre hev x hx
              rcases List.mem_append.mp hx with hold | hnew
              · exact hpre x hold
              · rw [List.mem_singleton.mp hnew]
                exact hev
            have hnext := ih (attempt + 1) (by omega) (by omega)
            refine ⟨hopen t ht.1, fun r => ?_⟩
            have hretry := hsnoc t ⟨.recordCreditRetry attempt, r⟩ ht.1 rfl
            dsimp only
            -- `sleep` is called only for a positive backoff.
            by_cases hbackoff : 0 < policy.backoffSeconds attempt
            · rw [if_pos hbackoff]
              refine ⟨hopen _ hretry, fun r' => ?_⟩
              exact works_after hnext (hsnoc _ ⟨.sleep _, r'⟩ hretry rfl)
            · rw [if_neg hbackoff]
              exact works_after hnext hretry
        · -- A permanent exception ends the loop at once.
          rw [if_neg htransient]
          exact hraise
      · -- The attempt returned, and so does the loop.
        exact ht

end Steps

/-- A handled provider step and what follows it settle the permit: complete after
    a value, mark unknown after an exception the handler catches, and leave it
    open only after one it does not. -/
theorem along_lifecycle {keyed : Prop} (hkeyed : keyed) {permit : Permit}
    {gate : List AppEvent} {op : App PyDict}
    (hgate : ∃ now req adm live, gate = gateTrace now req adm permit live) (hop : Works op)
    (message : String) (rest : PyDict → App PyDict)
    (hrest : ∀ result, Issues (fun c => quiet c = true) (rest result)) :
    Along (Settled keyed false)
      (markUnknownOnError permit op >>= fun result =>
        completeOrRaise permit message >>= fun _ => rest result) gate := by
  rw [along_bind]
  unfold markUnknownOnError
  -- The provider step starts after the gate; its own trace is what `Works` is about.
  rw [along_tryCatch, ← List.append_nil gate, along_shift]
  refine along_mono (fun t o ht => ?_) _ _ hop
  have hshape : Shape permit gate t [] [] :=
    ⟨hgate, ht.1, fun _ h => absurd h List.not_mem_nil, fun _ h => absurd h List.not_mem_nil⟩
  rcases o with _ | e | a
  · exact settled_none _ _ _
  · -- The provider step raised.
    have hraised : providerRaised t = some e := by
      unfold providerRaised
      rw [ht.2 _ rfl]
      rfl
    dsimp only
    by_cases hexc : e.isException = true
    · -- An `Exception`: the handler marks the permit unknown and raises again.
      rw [if_pos hexc]
      refine ⟨settled_none _ _ _, fun _ => ?_⟩
      have hmarked : Shape permit gate t [⟨.markUnknown permit, ()⟩] [] := by
        refine ⟨hgate, ht.1, fun ev hev => ⟨permit, Or.inr ?_⟩,
          fun _ h => absurd h List.not_mem_nil⟩
        rw [List.mem_singleton.mp hev]
      exact leaf_marked hkeyed _ hmarked hraised hexc
    · -- Not an `Exception`, so the handler does not see it and the permit stays open.
      rw [if_neg hexc]
      exact leaf_open _ hshape hraised (fun h => hexc h.1)
  · -- The provider step returned: `complete` is called, whatever it answers.
    have hraised : providerRaised t = none := by
      unfold providerRaised
      rw [ht.2 _ rfl]
      rfl
    refine ⟨settled_none _ _ _, fun (completed : Bool) => ?_⟩
    have hcomplete : ∀ tail : List AppEvent, (∀ ev ∈ tail, quiet ev.cmd = true) →
        Shape permit gate t [⟨.complete permit, completed⟩] tail := by
      intro tail htail
      refine ⟨hgate, ht.1, fun ev hev => ⟨permit, Or.inl ?_⟩, htail⟩
      rw [List.mem_singleton.mp hev]
    dsimp only
    cases completed with
    | true =>
        -- Completed; the rest of the operation touches the approval record at most.
        refine along_of_walks _ _ fun tail q hw => ?_
        exact leaf_complete hkeyed _ (hcomplete tail (issues_walks hw (hrest a)).1) hraised
    | false =>
        -- `complete` answered false: the permit is closed all the same, and the call raises.
        have hleaf := @leaf_complete _ false _ _ _ [] _ hkeyed
          (some (.error (.runtimeError message)))
          (hcomplete [] (fun _ h => absurd h List.not_mem_nil)) hraised
        rwa [List.append_nil] at hleaf

section Operations

variable {keyed : Prop} {reads : Bool}

/-- Before revalidation there is nothing to settle. -/
theorem settled_secured {submit : Int → Request} {body : Permit → Revalidation → App PyDict}
    (hbody : ∀ now adm permit live, adm.allowed = true → adm.permit = some permit →
      live.allowed = true →
      Along (Settled keyed reads) (body permit live) (gateTrace now (submit now) adm permit live)) :
    Along (Settled keyed reads) (secured submit body) [] := by
  refine along_secured submit body (settled_none _ _ _) (fun _ => settled_none _ _ _)
    ?_ (fun _ _ => settled_none _ _ _) ?_ ?_ hbody
  · -- No invocation was made: Ruhusa revalidated nothing.
    rintro now e out _ permit ⟨req, live, hmem, _⟩
    simp only [uncreatedTrace, List.mem_cons, List.not_mem_nil, or_false] at hmem
    rcases hmem with hev | hev
    · cases hev
    · cases hev
  · -- Denied admission: the trace is too short to hold a revalidation.
    rintro now adm effect reason _ out _ permit ⟨req, live, hmem, _⟩
    simp only [admissionTrace, List.mem_cons, List.not_mem_nil, or_false] at hmem
    rcases hmem with hev | hev
    · cases hev
    · cases hev
  · -- Denied revalidation: the one in the trace did not allow.
    rintro now adm permit live effect reason hlive out _ p ⟨req, live', hmem, hallowed⟩
    simp only [gateTrace, admissionTrace, List.cons_append, List.nil_append, List.mem_cons,
      List.not_mem_nil, or_false] at hmem
    rcases hmem with hev | hev | hev
    · cases hev
    · cases hev
    · cases hev
      rw [hlive] at hallowed
      exact absurd hallowed Bool.false_ne_true

theorem settled_nil (o : Option (Except Exc PyDict)) : Settled keyed reads [] o :=
  fun _ _ _ ⟨_, _, hmem, _⟩ => absurd hmem List.not_mem_nil

theorem works_ledgerIssue (writer : Writer) (credit : Credit) (key : Option String) :
    Works (orRaise (ask (.ledgerIssue writer credit key))) :=
  works_command (.ledgerIssue writer credit key) id rfl fun _ => rfl

theorem works_createRequest (reservationId : String) (amount : ℚ) (reason : String)
    (task : TaskContext) : Works (createRequest reservationId amount reason task) := by
  unfold createRequest
  refine works_bind (works_command (.findCreditRequest _ _ _) id rfl fun _ => rfl)
    fun existing => ?_
  exact works_map _ (works_command (.createCreditRequest _) id rfl fun _ => rfl)

theorem approvalsMarkExecuted_quiet (approvalId : String) (result : PyDict) :
    Issues (fun c => quiet c = true) (approvalsMarkExecuted approvalId result) := by
  refine ⟨rfl, fun (r : Except Exc (Option ApprovalRecord)) => ?_⟩
  rcases r with e | current | _
  · trivial
  · refine ⟨rfl, fun (r : Except Exc ApprovalRecord) => ?_⟩
    rcases r with e | record
    · trivial
    · trivial
  · trivial

theorem settled_issueCredit (d : Deployment) (retryPolicy : RetryPolicy) (reservationId : String)
    (amount : ℚ) (reason : String) (task : TaskContext) (chain : List DelegationGrant) :
    Along (Settled (d.digestError (creditCanonical task.taskId reservationId amount) = none) false)
      (issueCredit d retryPolicy reservationId amount reason task chain) [] := by
  unfold issueCredit
  refine settled_secured fun now adm permit live _ _ _ => ?_
  have hgate : ∃ now' req adm' live', gateTrace now
      (creditRequest d reservationId amount reason task chain now) adm permit live =
        gateTrace now' req adm' permit live' := ⟨now, _, adm, live, rfl⟩
  rcases buildCreditIdempotencyKey_cases d.sha256 d.digestError task.taskId reservationId amount
    with ⟨e, herror, hkey⟩ | ⟨hnone, hkey⟩
  · -- The key is derived outside the handler.
    rw [hkey, ofExcept_error, fail_bind]
    refine leaf_unkeyed _ (shape_gate hgate) ?_
    rw [herror]
    exact Option.some_ne_none e
  · rw [hkey, ofExcept_ok, done_bind]
    refine along_lifecycle hnone hgate ?_ _ (fun result => .done (allowed result live))
      (fun _ => trivial)
    -- The retry policy of the credit is validated, so it allows a first attempt.
    exact works_retry (works_ledgerIssue _ _ _) retryPolicy _ 1 retryPolicy.attempts_pos rfl

theorem settled_executeOperation (d : Deployment) (action : String) (executingWorkload : Workload)
    (reservationId : String) (arguments : PyDict) (task : TaskContext)
    (chain : List DelegationGrant) {operation : App PyDict} (h : Works operation) (hkeyed : keyed) :
    Along (Settled keyed false) (executeOperation d action executingWorkload reservationId arguments
      task chain operation) [] := by
  unfold executeOperation
  refine settled_secured fun now adm permit live _ _ _ => ?_
  exact along_lifecycle hkeyed ⟨now, _, adm, live, rfl⟩ h _
    (fun result => .done (allowed result live)) (fun _ => trivial)

theorem settled_executeApproved (d : Deployment) (approval : ApprovalRecord) (task : TaskContext)
    (chain : List DelegationGrant) :
    Along (Settled True false) (executeApproved d approval task chain) [] := by
  unfold executeApproved
  by_cases hexecuted : approval.status = .executed
  · rw [if_pos hexecuted]
    exact settled_nil _
  · rw [if_neg hexecuted]
    by_cases happroved : approval.status = .approved
    · rw [if_pos happroved]
      refine settled_secured fun now adm permit live _ _ _ => ?_
      refine along_lifecycle trivial ⟨now, _, adm, live, rfl⟩ (works_ledgerIssue _ _ _) _ _
        fun result => ?_
      -- After `complete` only the approval record is read and marked.
      exact issues_bind _ _ (approvalsMarkExecuted_quiet _ _) fun _ => trivial
    · rw [if_neg happroved]
      exact settled_nil _

/-- The reservation read has no handler: it settles exactly when its key can be
    derived and neither the cache nor the provider raises. -/
theorem settled_getReservation (d : Deployment) (reservationId : String) (task : TaskContext)
    (chain : List DelegationGrant) :
    Along (Settled (d.digestError (reservationCanonical reservationId) = none) true)
      (getReservation d reservationId task chain) [] := by
  unfold getReservation
  refine settled_secured fun now adm permit live _ _ _ => ?_
  generalize hgate : gateTrace now (reservationRequest d reservationId task chain now) adm permit
    live = gate
  have hopened : ∃ now req adm live, gate = gateTrace now req adm permit live :=
    ⟨now, _, adm, live, hgate.symm⟩
  rcases buildReservationCacheKey_cases d.sha256 d.digestError reservationId with
    ⟨e, herror, hkey⟩ | ⟨hnone, hkey⟩
  · rw [hkey, ofExcept_error, fail_bind]
    refine leaf_unkeyed _ (shape_gate hopened) ?_
    rw [herror]
    exact Option.some_ne_none e
  rw [hkey, ofExcept_ok, done_bind]
  -- Every exit after a command that raised leaves the permit open.
  have hopen : ∀ (work : List AppEvent) (e : Exc) (o : Option (Except Exc PyDict)),
      (∀ ev ∈ work, working ev.cmd = true) → lastAnswer work = some (some e) →
      Settled (d.digestError (reservationCanonical reservationId) = none) true
        (gate ++ work) o := by
    intro work e o hwork hlast
    refine leaf_open o ⟨hopened, hwork, fun _ h => absurd h List.not_mem_nil,
      fun _ h => absurd h List.not_mem_nil⟩ (e := e) ?_ (fun h => Bool.noConfusion h.2)
    rw [providerRaised, hlast]
    rfl
  -- Every exit after `complete` follows commands that raised nothing.
  have hclose : ∀ (work : List AppEvent) (message : String) (resp : PyDict),
      (∀ ev ∈ work, working ev.cmd = true) → lastAnswer work = some none →
      Along (Settled (d.digestError (reservationCanonical reservationId) = none) true)
        (completeOrRaise permit message >>= fun _ => .done resp) (gate ++ work) := by
    intro work message resp hwork hlast
    refine ⟨settled_none _ _ _, fun (completed : Bool) => ?_⟩
    have hleaf : ∀ o, Settled (d.digestError (reservationCanonical reservationId) = none) true
        (gate ++ work ++ [⟨.complete permit, completed⟩]) o := by
      intro o
      have h := @leaf_complete _ true permit gate work [] completed hnone o
        ⟨hopened, hwork, fun ev hev => ⟨permit, Or.inl (by rw [List.mem_singleton.mp hev])⟩,
          fun _ h => absurd h List.not_mem_nil⟩ (by rw [providerRaised, hlast]; rfl)
      rwa [List.append_nil] at h
    cases completed with
    | true => exact hleaf _
    | false => exact hleaf _
  -- The cache is asked first, then the provider on a miss, and the answer is cached. A raise at
  -- any of the three leaves the permit open.
  refine ⟨settled_none _ _ _, fun (r : Except Exc (CacheLookup ℚ)) => ?_⟩
  rcases r with e | lookup
  · exact hopen [⟨.cacheGet _, .error e⟩] e _ (by simp [working]) rfl
  · conv => arg 2; whnf
    split
    · exact hclose [⟨.cacheGet _, .ok lookup⟩] _ _ (by simp [working]) rfl
    · refine ⟨settled_none _ _ _, fun (r : Except Exc (Option PyDict)) => ?_⟩
      rw [List.append_assoc]
      rcases r with e | _ | reservation
      · exact hopen [⟨.cacheGet _, .ok lookup⟩, ⟨.providerGetReservation _, .error e⟩] e _
          (by simp [working]) rfl
      · exact hclose [⟨.cacheGet _, .ok lookup⟩, ⟨.providerGetReservation _, .ok none⟩] _ _
          (by simp [working]) rfl
      · refine ⟨settled_none _ _ _, fun (r : Except Exc Unit) => ?_⟩
        rw [List.append_assoc]
        rcases r with e | _
        · exact hopen [⟨.cacheGet _, .ok lookup⟩,
            ⟨.providerGetReservation _, .ok (some reservation)⟩, ⟨.cachePut _ _ _, .error e⟩] e _
            (by simp [working]) rfl
        · exact hclose [⟨.cacheGet _, .ok lookup⟩,
            ⟨.providerGetReservation _, .ok (some reservation)⟩, ⟨.cachePut _ _ _, .ok ()⟩] _ _
            (by simp [working]) rfl

/-- Every operation settles its permit as far as its key can be derived and it
    handles the provider. -/
theorem tool_settled (d : Deployment) (call : ToolCall) :
    Along (Settled (call.keyError d = none) call.Reads) (call.code d) [] := by
  cases call with
  | issueCredit retryPolicy reservationId amount reason task chain =>
      exact settled_issueCredit d retryPolicy reservationId amount reason task chain
  | getReservation reservationId task chain =>
      exact settled_getReservation d reservationId task chain
  | createMaintenanceRequest reservationId category urgency description task chain =>
      refine along_ite (fun _ => ?_) fun _ => settled_nil _
      rcases keyed_operation d "maintenance.create" task.taskId reservationId
        (maintenancePayload category urgency description) _ with ⟨e, -, hraise⟩ | ⟨hnone, hkeyed⟩
      · rw [hraise]
        exact settled_nil _
      · rw [hkeyed]
        exact settled_executeOperation d _ _ _ _ _ _
          (works_command (.maintenanceCreate _ _) id rfl fun _ => rfl) hnone
  | sendGuestMessage reservationId message task chain =>
      -- An empty message is refused, and a key derived, before the gate is asked.
      refine along_ite (fun _ => settled_nil _) fun _ => ?_
      rcases keyed_operation d "guest.message.send" task.taskId reservationId (strip message) _
        with ⟨e, -, hraise⟩ | ⟨hnone, hkeyed⟩
      · rw [hraise]
        exact settled_nil _
      · rw [hkeyed]
        exact settled_executeOperation d _ _ _ _ _ _
          (works_command (.outboxSend _ _ _) id rfl fun _ => rfl) hnone
  | requestGuestCredit reservationId amount reason task chain =>
      exact settled_executeOperation d _ _ _ _ _ _ (works_createRequest _ _ _ _) rfl
  | executeApproved approval task chain =>
      exact along_mono (fun t o h out hout permit hp => (h out hout permit hp).trans
        (and_congr_left' (iff_of_true trivial rfl))) _ _
        (settled_executeApproved d approval task chain)

end Operations

/-- However the commands of an operation are answered, in any run and any
    interleaving: if it has ended and Ruhusa had revalidated the permit, then
    exactly one of `complete` and `mark_unknown` was called, the latter exactly
    when the provider step raised, if and only if the key of the call can be
    derived and the provider step raised nothing, or an `Exception` in an
    operation other than the reservation read. -/
theorem lifecycle_closed_iff (d : Deployment) (call : ToolCall) (tr : List AppEvent)
    (o : Except Exc PyDict) (hw : Walks (call.code d) tr (ended o)) (permit : Permit)
    (hrevalidated : Revalidated tr permit) :
    Closed tr permit ↔ call.keyError d = none ∧ Handled call.Reads tr := by
  have hsettled := along_walks hw [] (tool_settled d call)
  rw [outcome_ended] at hsettled
  exact hsettled o rfl permit hrevalidated

/-- A credit request that is recorded: its permit is completed. -/
theorem lifecycle_closed_requested :
    Closed (run perform (ToolCall.code .sample (.requestGuestCredit "R-3001" 40 "no hot water"
      sampleTask [])) (fun _ => Env.granting) World.empty).trace ⟨0⟩ := by
  refine (lifecycle_closed_iff .sample
    (.requestGuestCredit "R-3001" 40 "no hot water" sampleTask []) _ _
    (run_walks perform _ (fun _ => Env.granting) World.empty) ⟨0⟩ ?_).mpr ⟨rfl, ?_⟩
  · exact ⟨_, _, List.mem_cons_of_mem _ (List.mem_cons_of_mem _ List.mem_cons_self), rfl⟩
  · intro e he
    have hnone : (none : Option Exc) = some e := he
    exact absurd hnone (by simp only [reduceCtorEq, not_false_eq_true])

/-- The reservation system fails at the fifth step of a read, and everything is
    granted otherwise. -/
def failingProvider (n : Nat) : Env :=
  if n = 4 then { Env.granting with fault := .before (.runtimeError "provider unavailable") }
  else .granting

/-- A read whose provider raises leaves its revalidated permit open. -/
theorem failing_read_not_closed :
    ¬ ∀ (d : Deployment) (call : ToolCall) (envs : Nat → Env) (w : World) (permit : Permit),
      Revalidated (run perform (call.code d) envs w).trace permit →
      Closed (run perform (call.code d) envs w).trace permit := by
  intro h
  have hclosed := h .sample (.getReservation "R-3001" sampleTask []) failingProvider World.empty
    ⟨0⟩ ⟨_, _, List.mem_cons_of_mem _ (List.mem_cons_of_mem _ List.mem_cons_self), rfl⟩
  exact Nat.zero_ne_one hclosed.1

end Asante
