import Asante.Core.Run
import Asante.Model.Main

/-!
# Bounded Retry

What the retry loop does with an operation, whatever the operation does.

A run of the loop is the runs of the operation one after another, with a notice
and a pause between them. `Retries` says so along the loop, and the loop ends at
`lastAttempt`: the first attempt whose outcome is not transient, or the last one
the policy allows. `bounded_retry_exact` is the equivalence. Every end of the
loop is such a sequence, and every sequence of attempts is a run of the loop.

The operation is any program, so its outcomes are any sequence, one attempt
being answered differently from the next. The notice is any program that does
not raise.

## Main definitions

* `lastAttempt`: The attempt a sequence of outcomes ends at.
* `pause`: The pause after an attempt.
* `weave`: The attempts up to one of them, with what is between them.
* `Retries`: The runs of the loop from an attempt on.

## Theorems

* `make_ok_iff`: The constructor accepts exactly the policies there are.
* `backoff_mono`, `backoff_le_max`, `backoff_nonneg`: The pauses.
* `retryFrom_ended`: The loop ends as `Retries` says.
* `retries_iff`: What the runs of the loop are made of.
* `bounded_retry_exact`: The loop from its first attempt.
-/

namespace Asante

open Core.Prog

theorem ask_walks (c : Cmd) (r : c.Answer) : Walks (ask c) [⟨c, r⟩] (done r) :=
  walks_perform c r

/-- The constructor accepts exactly the arguments a policy carries. -/
theorem make_ok_iff (maxAttempts : Int) (initial max : ℚ) (policy : RetryPolicy) :
    RetryPolicy.make maxAttempts initial max = .ok policy ↔
      (policy.maxAttempts : Int) = maxAttempts ∧ policy.initialBackoffSeconds = initial ∧
        policy.maxBackoffSeconds = max := by
  rcases policy with ⟨n, i, m, hn, hi, hm⟩
  unfold RetryPolicy.make
  by_cases h1 : maxAttempts < 1
  · rw [dif_pos h1]
    refine iff_of_false (by simp only [reduceCtorEq, not_false_eq_true]) fun h => ?_
    have hcast : (n : Int) = maxAttempts := h.1
    omega
  · rw [dif_neg h1]
    by_cases h2 : initial < 0
    · rw [dif_pos h2]
      refine iff_of_false (by simp only [reduceCtorEq, not_false_eq_true]) fun h => ?_
      exact absurd (h.2.1 ▸ hi) (not_le.mpr h2)
    · rw [dif_neg h2]
      by_cases h3 : max < 0
      · rw [dif_pos h3]
        refine iff_of_false (by simp only [reduceCtorEq, not_false_eq_true]) fun h => ?_
        exact absurd (h.2.2 ▸ hm) (not_le.mpr h3)
      · rw [dif_neg h3]
        simp only [Except.ok.injEq, RetryPolicy.mk.injEq]
        refine and_congr ?_ (and_congr eq_comm eq_comm)
        omega

section Pauses

variable (policy : RetryPolicy)

theorem backoff_le_max (k : Nat) : policy.backoffSeconds k ≤ policy.maxBackoffSeconds :=
  min_le_right _ _

theorem backoff_nonneg (k : Nat) : 0 ≤ policy.backoffSeconds k := by
  refine le_min ?_ policy.max_nonneg
  exact mul_nonneg policy.initial_nonneg (pow_nonneg zero_le_two _)

/-- A later pause is not shorter. -/
theorem backoff_mono {j k : Nat} (hjk : j ≤ k) :
    policy.backoffSeconds j ≤ policy.backoffSeconds k := by
  refine min_le_min_right _ ?_
  refine mul_le_mul_of_nonneg_left ?_ policy.initial_nonneg
  exact pow_le_pow_right₀ one_le_two (Nat.sub_le_sub_right hjk 1)

/-- The pause after an attempt, and nothing when it is of no length. -/
def pause (k : Nat) : List AppEvent :=
  if 0 < policy.backoffSeconds k then [⟨.sleep (policy.backoffSeconds k), ()⟩] else []

/-- A pause is left out only when its length is zero. -/
theorem pause_eq_nil (k : Nat) : pause policy k = [] ↔ policy.backoffSeconds k = 0 := by
  have hnonneg := backoff_nonneg policy k
  unfold pause
  by_cases hpos : 0 < policy.backoffSeconds k
  · rw [if_pos hpos]
    exact iff_of_false (List.cons_ne_nil _ _) hpos.ne'
  · rw [if_neg hpos]
    exact iff_of_true rfl (le_antisymm (not_lt.mp hpos) hnonneg)

end Pauses

/-- The outcome is a transient failure. -/
def transient {α : Type} : Except Exc α → Bool
  | .ok _ => false
  | .error e => e.isTransient

/-- The attempt a sequence of outcomes ends at: the first that is not transient,
    if the policy allows it, and the last one the policy allows otherwise. -/
def lastAttempt {α : Type} (policy : RetryPolicy) (outcome : Nat → Except Exc α) : Nat :=
  ((List.range' 1 policy.maxAttempts).find? fun k => !transient (outcome k)).getD
    policy.maxAttempts

/-- The attempts from one on up to another, with the notice and the pause after
    each but the last. -/
def weave (policy : RetryPolicy) (attempt notice : Nat → List AppEvent) (first last : Nat) :
    List AppEvent :=
  (List.range' first (last - first)).flatMap (fun k => attempt k ++ notice k ++ pause policy k) ++
    attempt last

/-- The runs of the loop from an attempt on, with their outcomes. -/
inductive Retries {α : Type} (operation : App α) (policy : RetryPolicy)
    (onRetry : Nat → App Unit) : Nat → List AppEvent → Except Exc α → Prop where
  | last (k : Nat) (t : List AppEvent) (o : Except Exc α) (h : Walks operation t (ended o))
      (hlast : transient o = false ∨ policy.maxAttempts ≤ k) :
      Retries operation policy onRetry k t o
  | again (k : Nat) (t : List AppEvent) (e : Exc) (r : List AppEvent) (tr : List AppEvent)
      (o : Except Exc α) (h : Walks operation t (fail e)) (he : e.isTransient = true)
      (hk : k < policy.maxAttempts) (hr : Walks (onRetry k) r (done ()))
      (hrest : Retries operation policy onRetry (k + 1) tr o) :
      Retries operation policy onRetry k (t ++ r ++ pause policy k ++ tr) o

section Loop

variable {α : Type} (operation : App α) (policy : RetryPolicy) (onRetry : Nat → App Unit)

/-- What the loop goes on with after the notice: the pause, and the rest. -/
theorem walks_pause {k : Nat} {rest : App α} {t : List AppEvent} {o : Except Exc α} :
    Walks (if 0 < policy.backoffSeconds k then
        (ask (.sleep (policy.backoffSeconds k)) >>= fun _ => rest) else rest) t (ended o) ↔
      ∃ tr, t = pause policy k ++ tr ∧ Walks rest tr (ended o) := by
  unfold pause
  by_cases hpos : 0 < policy.backoffSeconds k
  · rw [if_pos hpos, if_pos hpos, walks_bind_ended]
    constructor
    · rintro (⟨e, -, hfail⟩ | ⟨_, t₁, t₂, rfl, hsleep, hrest⟩)
      · -- The pause is one command, which does not raise.
        cases hfail with
        | call c k r tr q h => exact absurd (walks_done h).2 (by
            simp only [reduceCtorEq, not_false_eq_true])
      · cases hsleep with
        | call c k r tr q h =>
            rw [(walks_done h).1]
            exact ⟨t₂, rfl, hrest⟩
    · rintro ⟨tr, rfl, hrest⟩
      have hsleep : Walks (ask (.sleep (policy.backoffSeconds k)))
          [⟨.sleep (policy.backoffSeconds k), ()⟩] (done ()) :=
        ask_walks (.sleep (policy.backoffSeconds k)) ()
      exact Or.inr ⟨(), _, tr, rfl, hsleep, hrest⟩
  · rw [if_neg hpos, if_neg hpos]
    exact ⟨fun h => ⟨t, rfl, h⟩, fun ⟨tr, ht, h⟩ => ht ▸ h⟩

/-- What the loop does with what an attempt raised. -/
def retryHandler (rest : App α) (k : Nat) (e : Exc) : App α :=
  if e.isTransient then
    if policy.maxAttempts ≤ k then throw e
    else do
      onRetry k
      if 0 < policy.backoffSeconds k then
        let _ : Unit ← ask (.sleep (policy.backoffSeconds k))
        rest
      else rest
  else throw e

theorem retryFrom_succ (left k : Nat) : retryFrom operation policy onRetry (left + 1) k =
    tryCatch operation (retryHandler policy onRetry
      (retryFrom operation policy onRetry left (k + 1)) k) :=
  rfl

/-- An exception that is not transient is raised again, and so is any at the last
    attempt. -/
theorem retryHandler_last {rest : App α} {k : Nat} {e : Exc}
    (h : e.isTransient = false ∨ policy.maxAttempts ≤ k) :
    retryHandler policy onRetry rest k e = fail e := by
  unfold retryHandler
  by_cases he : e.isTransient = true
  · rw [if_pos he, if_pos (h.resolve_left fun hfalse => Bool.noConfusion (he.symm.trans hfalse))]
    rfl
  · rw [if_neg he]
    rfl

variable {operation onRetry}

/-- A run of one attempt and what follows: it is the last, or it failed and the
    loop goes on. -/
theorem walks_attempt (hquiet : ∀ k tr e, ¬ Walks (onRetry k) tr (fail e)) {rest : App α} {k : Nat}
    {tr : List AppEvent} {o : Except Exc α} :
    Walks (tryCatch operation (retryHandler policy onRetry rest k)) tr (ended o) ↔
      (Walks operation tr (ended o) ∧ (transient o = false ∨ policy.maxAttempts ≤ k)) ∨
      ∃ t e r tr', tr = t ++ r ++ pause policy k ++ tr' ∧ Walks operation t (fail e) ∧
        e.isTransient = true ∧ k < policy.maxAttempts ∧ Walks (onRetry k) r (done ()) ∧
        Walks rest tr' (ended o) := by
  rw [walks_tryCatch_ended]
  constructor
  · rintro (⟨a, rfl, hp⟩ | ⟨e, t, t', rfl, hp, hg⟩)
    · exact Or.inl ⟨hp, Or.inl rfl⟩
    · by_cases hlast : e.isTransient = false ∨ policy.maxAttempts ≤ k
      · -- Raised again, unchanged.
        rw [retryHandler_last policy onRetry hlast] at hg
        rcases walks_fail hg with ⟨rfl, ho⟩
        rw [ended_error ho, List.append_nil]
        exact Or.inl ⟨hp, hlast⟩
      · rcases not_or.mp hlast with ⟨he, hk⟩
        have he : e.isTransient = true := Bool.not_eq_false _ ▸ he
        unfold retryHandler at hg
        rw [if_pos he, if_neg hk, walks_bind_ended] at hg
        rcases hg with ⟨e', -, hraised⟩ | ⟨_, r, t'', rfl, hnotice, hpause⟩
        · exact absurd hraised (hquiet k t' e')
        · rcases (walks_pause policy).mp hpause with ⟨tr', rfl, hrest⟩
          refine Or.inr ⟨t, e, r, tr', ?_, hp, he, not_le.mp hk, hnotice, hrest⟩
          simp only [List.append_assoc]
  · rintro (⟨hp, hlast⟩ | ⟨t, e, r, tr', rfl, hp, he, hk, hnotice, hrest⟩)
    · cases o with
      | ok a => exact Or.inl ⟨a, rfl, hp⟩
      | error e =>
          refine Or.inr ⟨e, tr, [], (List.append_nil tr).symm, hp, ?_⟩
          rw [retryHandler_last policy onRetry hlast]
          exact .refl _
    · refine Or.inr ⟨e, t, r ++ (pause policy k ++ tr'), by simp only [List.append_assoc], hp, ?_⟩
      unfold retryHandler
      rw [if_pos he, if_neg (not_le.mpr hk), walks_bind_ended]
      exact Or.inr ⟨(), r, _, rfl, hnotice, (walks_pause policy).mpr ⟨tr', rfl, hrest⟩⟩

/-- The loop ends as the attempts do, one after another. -/
theorem retryFrom_ended (hquiet : ∀ k tr e, ¬ Walks (onRetry k) tr (fail e)) (left : Nat)
    {k : Nat} (hk : k + left = policy.maxAttempts) {tr : List AppEvent} {o : Except Exc α} :
    Walks (retryFrom operation policy onRetry (left + 1) k) tr (ended o) ↔
      Retries operation policy onRetry k tr o := by
  induction left generalizing k tr with
  | zero =>
      rw [retryFrom_succ, walks_attempt policy hquiet]
      constructor
      · rintro (⟨hp, hlast⟩ | ⟨t, e, r, tr', -, -, -, hlt, -⟩)
        · exact .last k tr o hp hlast
        · -- No attempt is left.
          omega
      · intro h
        cases h with
        | last _ _ _ hp hlast => exact Or.inl ⟨hp, hlast⟩
        | again _ _ _ _ _ _ _ _ hlt => omega
  | succ left ih =>
      rw [retryFrom_succ, walks_attempt policy hquiet]
      constructor
      · rintro (⟨hp, hlast⟩ | ⟨t, e, r, tr', rfl, hp, he, hlt, hnotice, hrest⟩)
        · exact .last k tr o hp hlast
        · exact .again k t e r tr' o hp he hlt hnotice ((ih (by omega)).mp hrest)
      · intro h
        cases h with
        | last _ _ _ hp hlast => exact Or.inl ⟨hp, hlast⟩
        | again _ t e r tr' _ hp he hlt hnotice hrest =>
            exact Or.inr ⟨t, e, r, tr', rfl, hp, he, hlt, hnotice, (ih (by omega)).mpr hrest⟩

end Loop

/-- From an attempt on, the outcomes end at another: all before it are transient,
    and it is not or is the last the policy allows. -/
structure EndsAt {α : Type} (policy : RetryPolicy) (outcome : Nat → Except Exc α)
    (first last : Nat) : Prop where
  le : first ≤ last
  allowed : last ≤ policy.maxAttempts
  failed : ∀ k, first ≤ k → k < last → transient (outcome k) = true
  stops : transient (outcome last) = false ∨ policy.maxAttempts ≤ last

theorem lastAttempt_iff {α : Type} {policy : RetryPolicy} {outcome : Nat → Except Exc α}
    {n : Nat} : EndsAt policy outcome 1 n ↔ lastAttempt policy outcome = n := by
  have hpos := policy.attempts_pos
  unfold lastAttempt
  rcases hfind : (List.range' 1 policy.maxAttempts).find? fun k => !transient (outcome k) with
    _ | m
  · -- Every attempt the policy allows is transient.
    rw [List.find?_range'_eq_none] at hfind
    simp only [Bool.not_not] at hfind
    rw [Option.getD_none]
    constructor
    · intro h
      refine le_antisymm (h.stops.resolve_left fun hlast => ?_) h.allowed
      have htransient := hfind n h.le (by have := h.allowed; omega)
      exact Bool.noConfusion (htransient.symm.trans hlast)
    · rintro rfl
      exact ⟨hpos, le_rfl, fun k hk hlt => hfind k hk (by omega), Or.inr le_rfl⟩
  · rw [List.find?_range'_eq_some] at hfind
    rcases hfind with ⟨hm, hmem, hbefore⟩
    rw [List.mem_range'_1] at hmem
    simp only [Bool.not_not] at hbefore
    have hm : transient (outcome m) = false := by simpa only [Bool.not_eq_true'] using hm
    rw [Option.getD_some]
    constructor
    · intro h
      -- Neither of the two can be before the other.
      by_cases hlt : m < n
      · exact absurd ((h.failed m hmem.1 hlt).symm.trans hm) Bool.noConfusion
      · by_cases hgt : n < m
        · have hend := h.stops.resolve_right (by omega)
          exact absurd ((hbefore n h.le hgt).symm.trans hend) Bool.noConfusion
        · omega
    · rintro rfl
      exact ⟨hmem.1, by omega, hbefore, Or.inl hm⟩

theorem weave_self (policy : RetryPolicy) (attempt notice : Nat → List AppEvent) (k : Nat) :
    weave policy attempt notice k k = attempt k := by
  rw [weave, Nat.sub_self]
  rfl

theorem weave_step (policy : RetryPolicy) (attempt notice : Nat → List AppEvent) {k n : Nat}
    (h : k < n) : weave policy attempt notice k n =
      attempt k ++ notice k ++ pause policy k ++ weave policy attempt notice (k + 1) n := by
  have hlen : n - k = n - (k + 1) + 1 := by omega
  rw [weave, hlen, List.range'_succ, List.flatMap_cons, List.append_assoc]
  rfl

theorem weave_congr (policy : RetryPolicy) {attempt attempt' notice notice' : Nat → List AppEvent}
    {k n : Nat} (hk : k ≤ n) (hattempt : ∀ j, k ≤ j → attempt j = attempt' j)
    (hnotice : ∀ j, k ≤ j → notice j = notice' j) :
    weave policy attempt notice k n = weave policy attempt' notice' k n := by
  induction h : n - k generalizing k with
  | zero =>
      have hkn : k = n := by omega
      rw [hkn, weave_self, weave_self, hattempt n (by omega)]
  | succ m ih =>
      have hlt : k < n := by omega
      rw [weave_step policy attempt notice hlt, weave_step policy attempt' notice' hlt,
        hattempt k le_rfl, hnotice k le_rfl]
      rw [ih (by omega) (fun j hj => hattempt j (by omega)) (fun j hj => hnotice j (by omega))
        (by omega)]

/-- What the runs of the loop from an attempt on are made of: runs of the
    operation up to the attempt the outcomes end at, with runs of the notice in
    between. -/
theorem retries_iff {α : Type} {operation : App α} {policy : RetryPolicy}
    {onRetry : Nat → App Unit} {k : Nat} (hk : k ≤ policy.maxAttempts) {tr : List AppEvent}
    {o : Except Exc α} : Retries operation policy onRetry k tr o ↔
      ∃ (attempt : Nat → List AppEvent) (outcome : Nat → Except Exc α)
        (notice : Nat → List AppEvent) (n : Nat), EndsAt policy outcome k n ∧
        (∀ j, k ≤ j → j ≤ n → Walks operation (attempt j) (ended (outcome j))) ∧
        (∀ j, k ≤ j → j < n → Walks (onRetry j) (notice j) (done ())) ∧
        tr = weave policy attempt notice k n ∧ o = outcome n := by
  constructor
  · intro h
    induction h with
    | last k t o hp hlast =>
        refine ⟨fun _ => t, fun _ => o, fun _ => [], k, ⟨le_rfl, hk, ?_, hlast⟩, ?_, ?_,
          (weave_self policy (fun _ => t) (fun _ => []) k).symm, rfl⟩
        · intro j hj hlt
          omega
        · exact fun j _ _ => hp
        · intro j hj hlt
          omega
    | again k t e r tr o hp he hlt hnotice _ ih =>
        rcases ih hlt with ⟨attempt, outcome, notice, n, hends, hattempt, hnotices, htr, ho⟩
        -- The attempt at hand is put before the others.
        have hother : ∀ {β : Type} (f : Nat → β) (b : β) (j : Nat), k + 1 ≤ j →
            f j = Function.update f k b j := by
          intro β f b j hj
          rw [Function.update_of_ne (by omega)]
        have hle := hends.le
        refine ⟨Function.update attempt k t, Function.update outcome k (.error e),
          Function.update notice k r, n, ⟨by omega, hends.allowed, ?_, ?_⟩, ?_, ?_, ?_, ?_⟩
        · intro j hj hjn
          rcases Nat.eq_or_lt_of_le hj with rfl | hj
          · rw [Function.update_self]
            exact he
          · rw [← hother outcome _ j hj]
            exact hends.failed j hj hjn
        · rw [← hother outcome _ n hle]
          exact hends.stops
        · intro j hj hjn
          rcases Nat.eq_or_lt_of_le hj with rfl | hj
          · rw [Function.update_self, Function.update_self]
            exact hp
          · rw [← hother attempt _ j hj, ← hother outcome _ j hj]
            exact hattempt j hj hjn
        · intro j hj hjn
          rcases Nat.eq_or_lt_of_le hj with rfl | hj
          · rw [Function.update_self]
            exact hnotice
          · rw [← hother notice _ j hj]
            exact hnotices j hj hjn
        · rw [weave_step policy _ _ (by omega : k < n), Function.update_self,
            Function.update_self, htr]
          rw [weave_congr policy hle (hother attempt t) (hother notice r)]
        · rw [← hother outcome _ n hle]
          exact ho
  · rintro ⟨attempt, outcome, notice, n, hends, hattempt, hnotice, rfl, rfl⟩
    have hle := hends.le
    induction h : n - k generalizing k with
    | zero =>
        have hkn : k = n := by omega
        subst hkn
        rw [weave_self]
        exact .last k _ _ (hattempt k le_rfl le_rfl) hends.stops
    | succ m ih =>
        have hlt : k < n := by omega
        have hallowed := hends.allowed
        rw [weave_step policy attempt notice hlt]
        have hfailed := hends.failed k le_rfl hlt
        have hwalk := hattempt k le_rfl hle
        rcases houtcome : outcome k with e | a
        · rw [houtcome] at hfailed hwalk
          refine .again k _ e _ _ _ hwalk hfailed (by omega) (hnotice k le_rfl hlt) ?_
          refine ih (by omega) ⟨by omega, hallowed, fun j hj => hends.failed j (by omega),
            hends.stops⟩ (fun j hj => hattempt j (by omega)) (fun j hj => hnotice j (by omega))
            (by omega) (by omega)
        · -- A value is not a transient failure.
          rw [houtcome] at hfailed
          exact absurd hfailed Bool.noConfusion

/-- The loop is exact. Its runs are the runs of the operation up to the last
    attempt of their outcomes, one after another, with between two of them the
    notice of the failed attempt and the pause after it; it ends as the last of
    them did, and raises nothing of its own. The pauses do not get shorter, are
    within the bound, and are left out only where they have no length. -/
theorem bounded_retry_exact {α : Type} (operation : App α) (policy : RetryPolicy)
    (onRetry : Nat → App Unit) (hquiet : ∀ k tr e, ¬ Walks (onRetry k) tr (fail e)) :
    (∀ (tr : List AppEvent) (o : Except Exc α),
      Walks (executeWithBoundedRetry operation policy onRetry) tr (ended o) ↔
        ∃ (attempt : Nat → List AppEvent) (outcome : Nat → Except Exc α)
          (notice : Nat → List AppEvent),
          (∀ k, 1 ≤ k → k ≤ lastAttempt policy outcome →
            Walks operation (attempt k) (ended (outcome k))) ∧
          (∀ k, 1 ≤ k → k < lastAttempt policy outcome →
            Walks (onRetry k) (notice k) (done ())) ∧
          tr = weave policy attempt notice 1 (lastAttempt policy outcome) ∧
          o = outcome (lastAttempt policy outcome)) ∧
    (∀ tr e, Walks (executeWithBoundedRetry operation policy onRetry) tr (fail e) →
      ∃ t, Walks operation t (fail e)) ∧
    (∀ k, policy.backoffSeconds k =
      min (policy.initialBackoffSeconds * 2 ^ (k - 1)) policy.maxBackoffSeconds) ∧
    (∀ j k, j ≤ k → policy.backoffSeconds j ≤ policy.backoffSeconds k) ∧
    (∀ k, policy.backoffSeconds k ≤ policy.maxBackoffSeconds) ∧
    ∀ k, pause policy k = [] ↔ policy.backoffSeconds k = 0 := by
  have hpos := policy.attempts_pos
  have hiff : ∀ (tr : List AppEvent) (o : Except Exc α),
      Walks (executeWithBoundedRetry operation policy onRetry) tr (ended o) ↔
        ∃ (attempt : Nat → List AppEvent) (outcome : Nat → Except Exc α)
          (notice : Nat → List AppEvent),
          (∀ k, 1 ≤ k → k ≤ lastAttempt policy outcome →
            Walks operation (attempt k) (ended (outcome k))) ∧
          (∀ k, 1 ≤ k → k < lastAttempt policy outcome →
            Walks (onRetry k) (notice k) (done ())) ∧
          tr = weave policy attempt notice 1 (lastAttempt policy outcome) ∧
          o = outcome (lastAttempt policy outcome) := by
    intro tr o
    have hleft : policy.maxAttempts = policy.maxAttempts - 1 + 1 := by omega
    unfold executeWithBoundedRetry
    rw [hleft, retryFrom_ended policy hquiet _ (by omega), retries_iff hpos]
    constructor
    · rintro ⟨attempt, outcome, notice, n, hends, hattempt, hnotice, htr, ho⟩
      have hn := lastAttempt_iff.mp hends
      subst hn
      exact ⟨attempt, outcome, notice, hattempt, hnotice, htr, ho⟩
    · rintro ⟨attempt, outcome, notice, hattempt, hnotice, htr, ho⟩
      exact ⟨attempt, outcome, notice, _, lastAttempt_iff.mpr rfl, hattempt, hnotice, htr, ho⟩
  refine ⟨hiff, fun tr e h => ?_, fun _ => rfl, fun _ _ => backoff_mono policy,
    backoff_le_max policy, pause_eq_nil policy⟩
  rcases (hiff tr (.error e)).mp h with ⟨attempt, outcome, notice, hattempt, -, -, ho⟩
  have hends : EndsAt policy outcome 1 (lastAttempt policy outcome) := lastAttempt_iff.mpr rfl
  have hlast := hattempt _ hends.le le_rfl
  rw [← ho] at hlast
  exact ⟨_, hlast⟩

/-- A ledger call, as the credit tool makes it. -/
def sampleIssue : Cmd :=
  .ledgerIssue (.issueCredit "7f") ⟨"R-3001", 25 / 2, "late check-in"⟩ (some "credit:7f")

/-- What a ledger call answers when the provider fails it transiently. -/
def sampleFailure : Exc :=
  .transientCreditProviderError "ledger is restarting"

/-- One transient failure and then an answer, under the policy that allows two
    attempts. -/
theorem retried_once :
    (∀ k tr e, ¬ Walks (ask (.recordCreditRetry k)) tr (fail e)) ∧
    Walks (executeWithBoundedRetry (orRaise (ask sampleIssue)) Deployment.sample.retryPolicy
        fun attempt => ask (.recordCreditRetry attempt))
      [⟨sampleIssue, .error sampleFailure⟩, ⟨.recordCreditRetry 1, ()⟩, ⟨.sleep (1 / 20), ()⟩,
        ⟨sampleIssue, .ok []⟩] (ended (.ok [])) := by
  have hquiet : ∀ k tr e, ¬ Walks (ask (.recordCreditRetry k)) tr (fail e) := by
    intro k tr e h
    cases h with
    | call c r a t q h => exact absurd (walks_done h).2 (by
        simp only [reduceCtorEq, not_false_eq_true])
  refine ⟨hquiet, ?_⟩
  let outcome : Nat → Except Exc PyDict := fun k => if k = 1 then .error sampleFailure else .ok []
  have hissue : ∀ k, Walks (orRaise (ask sampleIssue)) [⟨sampleIssue, outcome k⟩]
      (ended (outcome k)) := by
    intro k
    have hraise := walks_bind_left (ask_walks sampleIssue (outcome k))
      fun r : Except Exc PyDict => Core.Prog.ofExcept r
    rcases hk : outcome k with e | a
    · rw [hk] at hraise
      exact hraise
    · rw [hk] at hraise
      exact hraise
  have hlast : lastAttempt Deployment.sample.retryPolicy outcome = 2 := by decide
  refine ((bounded_retry_exact (orRaise (ask sampleIssue)) Deployment.sample.retryPolicy _
    hquiet).1 _ _).mpr ⟨fun k => [⟨sampleIssue, outcome k⟩], outcome,
      fun k => [⟨.recordCreditRetry k, ()⟩], fun k _ _ => hissue k,
      fun k _ _ => ask_walks (.recordCreditRetry k) (), ?_, ?_⟩
  · have hpause : pause Deployment.sample.retryPolicy 1 = [⟨.sleep (1 / 20), ()⟩] := by
      have hbackoff : Deployment.sample.retryPolicy.backoffSeconds 1 = 1 / 20 := by decide +kernel
      rw [pause, hbackoff, if_pos (by decide +kernel)]
    rw [hlast, weave_step _ _ _ one_lt_two, hpause]
    rfl
  · rw [hlast]
    rfl

end Asante
