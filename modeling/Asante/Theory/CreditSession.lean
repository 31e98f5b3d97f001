import Mathlib.Data.List.Induction
import Asante.Theory.GuestOperations

/-!
# Issued Credits

What an issued answer of the direct credit tool is about.

Policy, ledger and response all work with the amount as it was asked for. The
idempotency key alone is derived from a rendering of it with two decimals, so two
amounts less than a cent apart can share a key. The second of two such calls is
answered with the entry of the first: it reports an amount that was not asked
for, and its own is not in the ledger.

A session is a sequence of authorised calls against a ledger that never raises.
The text of a key may have no digest, and such a call raises and records nothing;
Ruhusa may still refuse to complete a permit, and such a call records its credit
and raises. Every key is bound to the credit of the first call that used it, and
every other call is answered with what its key is bound to. So the answers are
right exactly when each call that is completed asks for what the first call with
its text asked for.

## Main definitions

* `CreditCall`, `creditSession`: A sequence of credit calls.
* `CreditCall.Authorised`, `CreditCall.Completes`: What Ruhusa makes of a call.
* `CreditCall.keyed`: The key of the call can be derived.
* `IssuedCredit.AsAsked`: An issued answer is about the credit of its call.
* `CreditsAnswered`: The invariant of a session.

## Theorems

* `run_issueCredit`: An authorised credit call.
* `as_asked_iff`: When a session is answered about what was asked.
* `as_asked_of_cents`: Which it is where amounts that agree in the cents are equal.
* `cent_apart_merged`: Two amounts within a cent.
-/

namespace Asante

open Core.Prog Core.KeyedLog

/-- One call of `issue_credit`, with the environments its commands meet. -/
structure CreditCall where
  retryPolicy : RetryPolicy
  reservationId : String
  amount : ℚ
  reason : String
  task : TaskContext
  chain : List DelegationGrant
  envs : Nat → Env

namespace CreditCall

/-- The program of the call. -/
def code (d : Deployment) (c : CreditCall) : App PyDict :=
  issueCredit d c.retryPolicy c.reservationId c.amount c.reason c.task c.chain

/-- The request the call submits, at the time it does. -/
def request (d : Deployment) (c : CreditCall) : Request :=
  creditRequest d c.reservationId c.amount c.reason c.task c.chain (c.envs 0).now

/-- The credit the call asks for. -/
def credit (c : CreditCall) : Credit :=
  ⟨c.reservationId, c.amount, c.reason⟩

/-- The text the key of the call is derived from. -/
def text (c : CreditCall) : String :=
  creditCanonical c.task.taskId c.reservationId c.amount

/-- The idempotency key of the call. -/
def key (d : Deployment) (c : CreditCall) : String :=
  creditDigest d.sha256 c.task.taskId c.reservationId c.amount

/-- Ruhusa admits the request with a permit and revalidates it, and the ledger
    does not raise. -/
structure Authorised (d : Deployment) (c : CreditCall) : Prop where
  fault : ∀ n, (c.envs n).fault = .none
  admitted : refusal (creditRequest d c.reservationId c.amount c.reason c.task c.chain) c.envs =
    none

/-- The text of the key has a digest. -/
def keyed (d : Deployment) (c : CreditCall) : Bool :=
  (d.digestError c.text).isNone

/-- The key of the call is derived, and Ruhusa completes its permit. -/
def Completes (d : Deployment) (c : CreditCall) : Prop :=
  c.keyed d = true ∧ ∀ permit, ((c.envs 1).begin (c.request d)).permit = some permit →
    (c.envs 4).complete permit = true

end CreditCall

/-- A call that was answered, with the world it left. -/
structure IssuedCredit where
  call : CreditCall
  outcome : Except Exc PyDict
  world : World

/-- If the answer is `issued`, it has the reservation and the amount of the call,
    and the ledger holds a credit of that reservation and amount. -/
def IssuedCredit.AsAsked (a : IssuedCredit) : Prop :=
  ∀ resp, a.outcome = .ok resp → resp.get? "status" = some (.str "issued") →
    resp.get? "reservation_id" = some (.str a.call.reservationId) ∧
      resp.get? "amount" = some (.num a.call.amount) ∧
      ∃ credit ∈ a.world.ledger.entries,
        credit.reservationId = a.call.reservationId ∧ credit.amount = a.call.amount

/-- A sequence of calls, one after the other: their answers and the last world. -/
def creditSession (d : Deployment) (calls : List CreditCall) (w : World) :
    List IssuedCredit × World :=
  calls.foldl (fun s c =>
    let f := run perform (c.code d) c.envs s.2
    (s.1 ++ [⟨c, f.outcome, f.world⟩], f.world)) ([], w)

section Run

variable {envs : Nat → Env} (w : World)

/-- A retried operation that returns at once is not retried. -/
theorem run_executeWithBoundedRetry {α : Type} (operation : App α) (policy : RetryPolicy)
    (onRetry : Nat → App Unit) {a : α} (h : (run perform operation envs w).outcome = .ok a) :
    run perform (executeWithBoundedRetry operation policy onRetry) envs w =
      run perform operation envs w := by
  unfold executeWithBoundedRetry
  -- A policy allows an attempt.
  rcases hmax : policy.maxAttempts with _ | left
  · have hpos := policy.attempts_pos
    omega
  · exact run_tryCatch_ok perform operation _ envs w h

/-- The ledger answers at once. -/
theorem run_ledgerIssue (envs : Nat → Env) (hfault : (envs 0).fault = .none) (writer : Writer)
    (credit : Credit) (key : Option String) : ∃ steps,
      run perform (orRaise (ask (.ledgerIssue writer credit key))) envs w =
        ⟨.ok (ledgerIssue credit key w.ledger).1, w.issue writer credit key, steps⟩ ∧
      steps.length = 1 := by
  unfold orRaise
  rw [ask_bind]
  dsimp only [run, perform]
  rw [hfault]
  exact ⟨_, rfl, rfl⟩

variable (d : Deployment)

/-- An admitted credit call whose key is derived records its credit. It answers with
    what the ledger answered if its permit is completed, and raises otherwise. -/
theorem run_issueCredit (hfault : ∀ n, (envs n).fault = .none) (retryPolicy : RetryPolicy)
    (reservationId : String) (amount : ℚ) (reason : String) (task : TaskContext)
    (chain : List DelegationGrant)
    (hbuild : buildCreditIdempotencyKey d.sha256 d.digestError task.taskId reservationId amount =
      .ok (creditDigest d.sha256 task.taskId reservationId amount))
    (h : refusal (creditRequest d reservationId amount reason task chain) envs = none) :
    ∃ permit live, ((envs 1).begin (creditRequest d reservationId amount reason task chain
        (envs 0).now)).permit = some permit ∧
      (run perform (issueCredit d retryPolicy reservationId amount reason task chain) envs
        w).world = w.issue (.issueCredit task.taskId) ⟨reservationId, amount, reason⟩
          (some (creditDigest d.sha256 task.taskId reservationId amount)) ∧
      ((envs 4).complete permit = true →
        (run perform (issueCredit d retryPolicy reservationId amount reason task chain) envs
          w).outcome = .ok (allowed (ledgerIssue ⟨reservationId, amount, reason⟩
            (some (creditDigest d.sha256 task.taskId reservationId amount))
            w.ledger).1 live)) ∧
      (¬ (envs 4).complete permit = true → ∃ e,
        (run perform (issueCredit d retryPolicy reservationId amount reason task chain) envs
          w).outcome = .error e) := by
  generalize creditDigest d.sha256 task.taskId reservationId amount = key at hbuild ⊢
  generalize hcredit : (⟨reservationId, amount, reason⟩ : Credit) = credit
  let operation : App PyDict :=
    orRaise (ask (.ledgerIssue (.issueCredit task.taskId) credit (some key)))
  unfold issueCredit
  rcases run_opened _ _ w h with ⟨permit, hpermit, hout, hworld⟩
  rw [hout, hworld, hbuild, ofExcept_ok, done_bind, hcredit]
  rcases run_ledgerIssue w (fun n => envs (n + 3)) (hfault 3) (.issueCredit task.taskId) credit
    (some key) with ⟨steps, hfirst, hlength⟩
  have hretried := run_executeWithBoundedRetry w operation retryPolicy
    (fun attempt => ask (.recordCreditRetry attempt)) (congrArg (·.outcome) hfirst)
  rw [hfirst] at hretried
  let live := (envs 2).revalidate (creditRequest d reservationId amount reason task chain
    (envs 0).now) permit
  rcases run_handled w (fun result => done (allowed result live)) permit
    "credit executed but Ruhusa could not complete execution lifecycle"
    (congrArg (·.outcome) hretried) (congrArg (·.world) hretried)
    ((congrArg (·.steps.length) hretried).trans hlength) with ⟨hcompleted, hraised⟩
  refine ⟨permit, live, hpermit, ?_, fun hyes => (hcompleted hyes).1, fun hno =>
    ⟨_, (hraised hno).1⟩⟩
  by_cases hcomplete : (envs 4).complete permit = true
  · exact (hcompleted hcomplete).2
  · exact (hraised hcomplete).2

/-- An admitted credit call whose key cannot be derived raises and records nothing. -/
theorem run_unkeyedCredit (retryPolicy : RetryPolicy) (reservationId : String) (amount : ℚ)
    (reason : String) (task : TaskContext) (chain : List DelegationGrant) {e : Exc}
    (hbuild : buildCreditIdempotencyKey d.sha256 d.digestError task.taskId reservationId amount =
      .error e)
    (h : refusal (creditRequest d reservationId amount reason task chain) envs = none) :
    (run perform (issueCredit d retryPolicy reservationId amount reason task chain) envs
        w).world = w ∧
      (run perform (issueCredit d retryPolicy reservationId amount reason task chain) envs
        w).outcome = .error e := by
  unfold issueCredit
  rcases run_opened _ _ w h with ⟨permit, -, hout, hworld⟩
  rw [hout, hworld, hbuild]
  exact ⟨rfl, rfl⟩

/-- An authorised call of a session that has a key records its credit under it, and
    answers with the entry of the key if it is completed. -/
theorem run_creditCall {c : CreditCall} (hc : c.Authorised d) :
    (run perform (c.code d) c.envs w).world.ledger =
        (if c.keyed d then (w.ledger.record (some (c.key d)) c.credit).2 else w.ledger) ∧
      (c.Completes d → ∃ deduplicated live, (run perform (c.code d) c.envs w).outcome =
        .ok (allowed (withDeduplicated (w.ledger.record (some (c.key d)) c.credit).1.1.toDict
          deduplicated) live)) ∧
      (¬ c.Completes d → ∃ e, (run perform (c.code d) c.envs w).outcome = .error e) := by
  rcases buildCreditIdempotencyKey_cases d.sha256 d.digestError c.task.taskId c.reservationId
    c.amount with ⟨e, herror, hbuild⟩ | ⟨hnone, hbuild⟩
  · -- With no key, the call stops before the ledger.
    have hkeyed : c.keyed d = false := congrArg Option.isNone herror
    rcases run_unkeyedCredit w d c.retryPolicy c.reservationId c.amount c.reason c.task c.chain
      hbuild hc.admitted with ⟨hworld, hout⟩
    refine ⟨?_, fun h => absurd (hkeyed.symm.trans h.1) Bool.false_ne_true, fun _ => ⟨e, hout⟩⟩
    rw [hkeyed]
    exact congrArg World.ledger hworld
  · have hkeyed : c.keyed d = true := congrArg Option.isNone hnone
    rcases run_issueCredit w d hc.fault c.retryPolicy c.reservationId c.amount c.reason c.task
      c.chain hbuild hc.admitted with ⟨permit, live, hpermit, hworld, hcompleted, hraised⟩
    refine ⟨?_, fun h => ⟨_, live, hcompleted (h.2 permit hpermit)⟩,
      fun h => hraised fun hyes => h ⟨hkeyed, fun permit' hpermit' => ?_⟩⟩
    · unfold CreditCall.code
      rw [hworld, hkeyed]
      rfl
    · rw [Option.some.inj (hpermit'.symm.trans hpermit)]
      exact hyes

end Run

section Session

variable {d : Deployment}

/-- A call has the key of one whose text has a digest exactly when it hashes that
    text. -/
theorem creditKey_eq_iff (hsha : Function.Injective d.sha256) {p c : CreditCall}
    (hc : c.keyed d = true) : (p.keyed d = true ∧ p.key d = c.key d) ↔ p.text = c.text := by
  constructor
  · exact fun h => hsha ((String.append_right_inj "credit:").mp h.2)
  · intro h
    refine ⟨?_, congrArg (fun text => "credit:" ++ d.sha256 text) h⟩
    rw [CreditCall.keyed, h]
    exact hc

/-- In tasks of one line, calls hash the same text when they are of one task and
    one reservation and their amounts render alike. -/
theorem text_eq_iff {p c : CreditCall} (hp : OneLine p.task.taskId)
    (hc : OneLine c.task.taskId) : p.text = c.text ↔ p.task.taskId = c.task.taskId ∧
      p.reservationId = c.reservationId ∧ fixed2 p.amount = fixed2 c.amount := by
  constructor
  · intro htext
    have hkey : creditDigest id p.task.taskId p.reservationId p.amount =
        creditDigest id c.task.taskId c.reservationId c.amount :=
      (String.append_right_inj "credit:").mpr htext
    exact directKey_inj Function.injective_id hp hc hkey
  · rintro ⟨htask, hreservation, hcents⟩
    unfold CreditCall.text creditCanonical
    rw [htask, hreservation, hcents]

/-- The invariant of a session: a key is bound to the credit of the first call that
    derived it, which is in the ledger; a completed call was answered with what its
    key is bound to, and any other raised. -/
structure CreditsAnswered (d : Deployment) (w : World) (answers : List IssuedCredit) : Prop where
  bound : ∀ k, w.ledger.find k =
    ((answers.map (·.call)).find? fun c => c.keyed d = true ∧ c.key d = k).map (·.credit)
  kept : ∀ k credit, w.ledger.find k = some credit → credit ∈ w.ledger.entries
  answered : ∀ a ∈ answers, a.call.Completes d → ∃ credit deduplicated live,
    w.ledger.find (a.call.key d) = some credit ∧ credit ∈ a.world.ledger.entries ∧
      a.outcome = .ok (allowed (withDeduplicated credit.toDict deduplicated) live)
  raised : ∀ a ∈ answers, ¬ a.call.Completes d → ∃ e, a.outcome = .error e

theorem answered_empty (d : Deployment) (w : World) :
    CreditsAnswered d { w with ledger := .empty } [] where
  bound := fun _ => rfl
  kept := fun _ _ h => absurd h (by simp only [Core.KeyedLog.find, Core.KeyedLog.empty,
    List.lookup_nil, reduceCtorEq, not_false_eq_true])
  answered := fun _ ha => absurd ha List.not_mem_nil
  raised := fun _ ha => absurd ha List.not_mem_nil

/-- A call keeps the invariant, its own answer added. -/
theorem answered_step {w : World} {answers : List IssuedCredit} (h : CreditsAnswered d w answers)
    {c : CreditCall} (hc : c.Authorised d) :
    CreditsAnswered d (run perform (c.code d) c.envs w).world
      (answers ++ [⟨c, (run perform (c.code d) c.envs w).outcome,
        (run perform (c.code d) c.envs w).world⟩]) := by
  rcases run_creditCall w d hc with ⟨hledger, hcompleted, hraised⟩
  generalize (run perform (c.code d) c.envs w).world = w' at hledger ⊢
  have hfind : ∀ k, w'.ledger.find k =
      (w.ledger.find k).or (if c.keyed d = true ∧ c.key d = k then some c.credit else none) := by
    intro k
    rw [hledger]
    cases hkeyed : c.keyed d with
    | true =>
        simp only [true_and, if_true]
        exact record_find w.ledger (c.key d) k c.credit
    | false =>
        simp only [Bool.false_eq_true, false_and, if_false]
        exact Option.or_none.symm
  have hentries : ∀ credit, credit ∈ w.ledger.entries → credit ∈ w'.ledger.entries := by
    intro credit hmem
    rw [hledger]
    split
    · exact (record_entries w.ledger (c.key d) c.credit).1 credit hmem
    · exact hmem
  have hkept : ∀ k credit, w'.ledger.find k = some credit → credit ∈ w'.ledger.entries := by
    intro k credit hk
    rw [hfind] at hk
    rcases hold : w.ledger.find k with _ | existing
    · -- Bound by this call, so the key was free.
      rw [hold, Option.none_or] at hk
      by_cases hkey : c.keyed d = true ∧ c.key d = k
      · rw [if_pos hkey] at hk
        rw [← Option.some.inj hk, hledger, if_pos hkey.1]
        refine (record_entries w.ledger (c.key d) c.credit).2 ?_
        rw [hkey.2, hold]
        rfl
      · rw [if_neg hkey] at hk
        exact absurd hk (by simp only [reduceCtorEq, not_false_eq_true])
    · rw [hold, Option.some_or] at hk
      exact hentries _ (h.kept k credit (hold.trans hk))
  refine ⟨fun k => ?_, hkept, fun a ha hcompletes => ?_, fun a ha hnot => ?_⟩
  · rw [hfind, h.bound, List.map_append, List.find?_append, Option.map_or]
    refine congrArg _ ?_
    by_cases hkey : c.keyed d = true ∧ c.key d = k
    · simp only [List.map_cons, List.map_nil, List.find?_cons, hkey, and_self, decide_true,
        if_true, Option.map_some]
    · simp only [List.map_cons, List.map_nil, List.find?_cons, hkey, decide_false, if_false,
        List.find?_nil, Option.map_none]
  · rcases List.mem_append.mp ha with hbefore | hnew
    · -- A bound key stays bound to what it was.
      rcases h.answered a hbefore hcompletes with ⟨credit, deduplicated, live, hbound, hrest⟩
      refine ⟨credit, deduplicated, live, ?_, hrest⟩
      rw [hfind, hbound, Option.some_or]
    · rw [List.mem_singleton.mp hnew] at hcompletes ⊢
      rcases hcompleted hcompletes with ⟨deduplicated, live, hout⟩
      have hbound : w'.ledger.find (c.key d) =
          some (w.ledger.record (some (c.key d)) c.credit).1.1 := by
        rw [hledger, if_pos hcompletes.1]
        exact record_answer w.ledger (c.key d) c.credit
      exact ⟨_, deduplicated, live, hbound, hkept _ _ hbound, hout⟩
  · rcases List.mem_append.mp ha with hbefore | hnew
    · exact h.raised a hbefore hnot
    · rw [List.mem_singleton.mp hnew] at hnot ⊢
      exact hraised hnot

theorem creditSession_snoc (d : Deployment) (calls : List CreditCall) (c : CreditCall)
    (w : World) : creditSession d (calls ++ [c]) w =
      ((creditSession d calls w).1 ++
          [⟨c, (run perform (c.code d) c.envs (creditSession d calls w).2).outcome,
            (run perform (c.code d) c.envs (creditSession d calls w).2).world⟩],
        (run perform (c.code d) c.envs (creditSession d calls w).2).world) := by
  unfold creditSession
  rw [List.foldl_append]
  rfl

theorem creditSession_calls (d : Deployment) (calls : List CreditCall) (w : World) :
    (creditSession d calls w).1.map (·.call) = calls := by
  induction calls using List.reverseRecOn with
  | nil => rfl
  | append_singleton calls c ih =>
      rw [creditSession_snoc, List.map_append, ih]
      rfl

theorem answered_session (d : Deployment) (w : World) (calls : List CreditCall)
    (hcalls : ∀ c ∈ calls, c.Authorised d) :
    CreditsAnswered d (creditSession d calls { w with ledger := .empty }).2
      (creditSession d calls { w with ledger := .empty }).1 := by
  induction calls using List.reverseRecOn with
  | nil => exact answered_empty d w
  | append_singleton calls c ih =>
      rw [creditSession_snoc]
      exact answered_step (ih fun c' hc' => hcalls c' (List.mem_append_left _ hc'))
        (hcalls c (List.mem_append_right _ (List.mem_singleton.mpr rfl)))

/-- An answer with an entry of the ledger is about what was asked when the entry
    is. -/
theorem asAsked_entry {a : IssuedCredit} {credit : Credit} {deduplicated : Bool}
    {live : Revalidation} (hmem : credit ∈ a.world.ledger.entries)
    (hout : a.outcome = .ok (allowed (withDeduplicated credit.toDict deduplicated) live)) :
    a.AsAsked ↔
      credit.reservationId = a.call.reservationId ∧ credit.amount = a.call.amount := by
  have hget : ∀ key, key ≠ "effect" ∧ key ≠ "policy_id" → key ≠ "deduplicated" →
      (allowed (withDeduplicated credit.toDict deduplicated) live).get? key =
        credit.toDict.get? key := by
    intro key hkey hne
    rw [allowed_get? _ _ _ _ hkey, if_neg hne]
  have hreservation := hget "reservation_id" (by decide) (by decide)
  have hamount := hget "amount" (by decide) (by decide)
  constructor
  · intro h
    rcases h _ hout ((hget "status" (by decide) (by decide)).trans rfl) with
      ⟨hsame, hsameAmount, -⟩
    exact ⟨PyVal.str.inj (Option.some.inj (hreservation.symm.trans hsame)),
      PyVal.num.inj (Option.some.inj (hamount.symm.trans hsameAmount))⟩
  · rintro ⟨hsame, hsameAmount⟩ resp hresp -
    rw [← Except.ok.inj (hout.symm.trans hresp), hreservation, hamount, ← hsame, ← hsameAmount]
    exact ⟨rfl, rfl, credit, hmem, rfl, rfl⟩

/-- A call of a session is answered about what it asked for exactly when, if it
    is completed, the first call with its text asked for the same. -/
theorem asAsked_first (hsha : Function.Injective d.sha256) {w : World}
    {answers : List IssuedCredit} (h : CreditsAnswered d w answers) {a : IssuedCredit}
    (ha : a ∈ answers) : a.AsAsked ↔ (a.call.Completes d →
      ∀ first, ((answers.map (·.call)).find? fun c => c.text = a.call.text) = some first →
        first.reservationId = a.call.reservationId ∧ first.amount = a.call.amount) := by
  by_cases hcompletes : a.call.Completes d
  · have hsame : (fun c : CreditCall => decide (c.keyed d = true ∧ c.key d = a.call.key d)) =
        fun c => decide (c.text = a.call.text) :=
      funext fun c => decide_eq_decide.mpr (creditKey_eq_iff hsha hcompletes.1)
    rcases h.answered a ha hcompletes with ⟨credit, deduplicated, live, hbound, hmem, hout⟩
    rw [asAsked_entry hmem hout]
    -- The entry is the credit of the first call under the key.
    rw [h.bound, hsame, Option.map_eq_some_iff] at hbound
    rcases hbound with ⟨first, hfirst, rfl⟩
    rw [hfirst]
    exact ⟨fun hcredit _ _ hother => Option.some.inj hother ▸ hcredit,
      fun hall => hall hcompletes first rfl⟩
  · -- It raised, and a call that raised answers nothing.
    rcases h.raised a ha hcompletes with ⟨e, hout⟩
    refine iff_of_true (fun resp hresp _ => ?_) fun hyes => absurd hyes hcompletes
    rw [hout] at hresp
    exact absurd hresp (by simp only [reduceCtorEq, not_false_eq_true])

end Session

/-- The issued answers of a session of authorised calls are about what was asked,
    exactly when each completed call asks for the reservation and the amount that
    the first call with its text asked for. -/
theorem as_asked_iff (d : Deployment) (hsha : Function.Injective d.sha256) (w : World)
    (calls : List CreditCall) (hcalls : ∀ c ∈ calls, c.Authorised d) :
    (∀ a ∈ (creditSession d calls { w with ledger := .empty }).1, a.AsAsked) ↔
      ∀ c ∈ calls, c.Completes d → ∀ first, (calls.find? fun p => p.text = c.text) = some first →
        first.reservationId = c.reservationId ∧ first.amount = c.amount := by
  have hsession := answered_session d w calls hcalls
  have hanswers := creditSession_calls d calls { w with ledger := .empty }
  generalize creditSession d calls { w with ledger := .empty } = session at hsession hanswers ⊢
  -- The answers are to the calls, so it is the same to speak of either.
  rw [← hanswers, List.forall_mem_map]
  exact forall₂_congr fun a ha => asAsked_first hsha hsession ha

/-- In tasks of one line, the issued answers are about what was asked where the
    calls of one task for one reservation that agree in the cents are for the same
    amount. -/
theorem as_asked_of_cents (d : Deployment) (hsha : Function.Injective d.sha256) (w : World)
    (calls : List CreditCall) (hcalls : ∀ c ∈ calls, c.Authorised d)
    (hline : ∀ c ∈ calls, OneLine c.task.taskId)
    (hcents : ∀ p ∈ calls, ∀ c ∈ calls, p.task.taskId = c.task.taskId →
      p.reservationId = c.reservationId → SameCents p.amount c.amount → p.amount = c.amount) :
    ∀ a ∈ (creditSession d calls { w with ledger := .empty }).1, a.AsAsked := by
  intro a ha
  have hcall : a.call ∈ calls :=
    creditSession_calls d calls { w with ledger := .empty } ▸ List.mem_map_of_mem ha
  refine (asAsked_first hsha (answered_session d w calls hcalls) ha).mpr fun _ first hfirst => ?_
  rw [creditSession_calls] at hfirst
  -- The first call with the text is of the same task and reservation.
  have hmem := List.mem_of_find?_eq_some hfirst
  have htext : first.text = a.call.text := of_decide_eq_true
    (List.find?_some (p := fun p : CreditCall => decide (p.text = a.call.text)) hfirst)
  rcases (text_eq_iff (hline first hmem) (hline a.call hcall)).mp htext with
    ⟨htask, hreservation, hrender⟩
  exact ⟨hreservation, hcents first hmem a.call hcall htask hreservation
    (fixed2_eq_iff.mp hrender)⟩

/-- A credit for the sample task, when everything succeeds. -/
def sampleCredit (amount : ℚ) : CreditCall :=
  { retryPolicy := Deployment.sample.retryPolicy
    reservationId := "R-3001"
    amount := amount
    reason := "late check-in"
    task := sampleTask
    chain := []
    envs := fun _ => .granting }

theorem sampleCredit_authorised (amounts : List ℚ) :
    ∀ c ∈ amounts.map sampleCredit, c.Authorised .sample := by
  intro c hc
  rcases List.mem_map.mp hc with ⟨amount, -, rfl⟩
  exact ⟨fun _ => rfl, rfl⟩

/-- The same credit asked for twice is answered twice about itself. -/
theorem repeated_as_asked :
    (creditSession .sample ([25 / 2, 25 / 2].map sampleCredit)
      { World.empty with ledger := .empty }).1.length = 2 ∧
    ∀ a ∈ (creditSession .sample ([25 / 2, 25 / 2].map sampleCredit)
      { World.empty with ledger := .empty }).1, a.AsAsked := by
  refine ⟨by decide +kernel, (as_asked_iff .sample sampleSha256_injective World.empty _
    (sampleCredit_authorised _)).mpr fun c hc _ first hfirst => ?_⟩
  have hmem := List.mem_of_find?_eq_some hfirst
  simp only [List.map_cons, List.map_nil, List.mem_cons, List.not_mem_nil, or_false,
    or_self] at hc hmem
  rw [hc, hmem]
  exact ⟨rfl, rfl⟩

/-- Two credits a fraction of a cent apart are merged into one. -/
theorem cent_apart_merged : ¬ ∀ d : Deployment, Function.Injective d.sha256 →
    ∀ calls : List CreditCall, (∀ c ∈ calls, 0 < c.amount ∧ c.amount ≤ 25) →
      (∀ c ∈ calls, c.Authorised d) →
      ∀ a ∈ (creditSession d calls { World.empty with ledger := .empty }).1, a.AsAsked := by
  intro h
  have hcalls := sampleCredit_authorised [12501 / 1000, 12504 / 1000]
  have hasked := h .sample sampleSha256_injective ([12501 / 1000, 12504 / 1000].map sampleCredit)
    (fun c hc => ?_) hcalls _ (List.mem_cons_of_mem _ List.mem_cons_self)
  · -- The second answer is about the first amount.
    have hfirst := (asAsked_first sampleSha256_injective
      (answered_session .sample World.empty _ hcalls)
      (List.mem_cons_of_mem _ List.mem_cons_self)).mp hasked ⟨rfl, fun _ _ => rfl⟩
      (sampleCredit (12501 / 1000)) ?_
    · exact absurd hfirst.2 (by decide +kernel)
    · rw [creditSession_calls]
      exact List.find?_cons_of_pos (by decide +kernel)
  · rcases List.mem_map.mp hc with ⟨amount, hamount, rfl⟩
    rcases List.mem_pair.mp hamount with rfl | rfl
    · exact ⟨by decide +kernel, by decide +kernel⟩
    · exact ⟨by decide +kernel, by decide +kernel⟩

end Asante
