import Mathlib.Tactic.Common

/-!
# Programs over Commands

A program is a tree. Each inner node issues one command and waits for its
answer; the answer chooses the branch, and a leaf either returns a value or
raises. Nothing is said here about what a command does: the same tree is read
later as a sequential run against a world, as one thread of a pool, or with
every answer left open.

Exceptions are part of the tree rather than of the answers, so `bind` stops at
a raised exception and `tryCatch` is the only way past one. A tree is finite
along every branch, which is what makes every reading of it a structural
recursion.

`Walks` reads a program with every answer left open: `Walks p tr q` says that
answering the commands of `p` as `tr` records leaves `q`. A fact about every
walk is a fact about every behaviour of whatever answers the commands.
`Along` is the same quantifier written as a recursion on the tree, which is
the form a proof about a concrete program can compute with, and
`along_walks` connects the two.

## Main definitions

* `Prog`: A program over commands, returning a value or raising.
* `Event`: A command with the answer it was given.
* `Walks`: Answering a sequence of commands leads from a program to another.
* `Along`: A property of the trace holds at every node of a program.
* `DepthLe`: A program issues at most a given number of commands.
* `Issues`: Every command a program may issue satisfies a predicate.

## Theorems

* `along_bind`: Facts about a sequence are facts about its two halves.
* `along_tryCatch`: Facts about a guarded body and its handler.
* `along_walks`: A property that holds along a program holds on every walk.
* `along_of_walks`: The converse.
* `along_mono`: Weakening the property.
* `along_ite`: Facts about a branch are facts about the side taken.
* `along_shift`: Reading what came before as part of the property.
* `walks_append`, `walks_split`: Walks compose, and come apart anywhere.
* `walks_bind`, `walks_bind_done`, `walks_tryCatch`: How far a walk of a compound program
  has come.
* `walks_bind_left`, `walks_tryCatch_left`: A walk of a part is a walk of the whole.
* `depthLe_walks`: A program of bounded depth has no longer walk.
* `depthLe_bind`, `depthLe_tryCatch`: The depth of a compound program.
* `issues_bind`, `issues_tryCatch`: What a compound program may issue.
* `issues_bind_returned`: The same, for the values that can be returned.
* `issues_walks`: A command on a walk is one the program may issue.
* `walks_through`: A walk with another command has come through the program.
-/

namespace Asante

namespace Core

/-- A program over the commands `C`, the command `c` being answered in `R c`.
    It returns a value of `α` or raises an exception of `E`. -/
inductive Prog (C : Type) (R : C → Type) (E α : Type) : Type where
  | done (a : α)
  | fail (e : E)
  | call (c : C) (k : R c → Prog C R E α)

/-- A command together with the answer it was given. -/
structure Event (C : Type) (R : C → Type) where
  cmd : C
  answer : R cmd

namespace Prog

variable {C : Type} {R : C → Type} {E α β : Type}

/-- Run `p`, and `f` on what it returns. -/
def bind : Prog C R E α → (α → Prog C R E β) → Prog C R E β
  | done a, f => f a
  | fail e, _ => fail e
  | call c k, f => call c fun r => bind (k r) f

/-- Run `p`, and the handler `h` on what it raises. -/
def handle : Prog C R E α → (E → Prog C R E α) → Prog C R E α
  | done a, _ => done a
  | fail e, h => h e
  | call c k, h => call c fun r => handle (k r) h

/-- The program that issues one command and returns its answer. -/
def perform (c : C) : Prog C R E (R c) :=
  call c done

/-- Return or raise what a fallible command answered. -/
def ofExcept : Except E α → Prog C R E α
  | .ok a => done a
  | .error e => fail e

instance : Monad (Prog C R E) where
  pure := done
  bind := bind

instance : MonadExceptOf E (Prog C R E) where
  throw := fail
  tryCatch := handle

@[simp] theorem pure_eq (a : α) : (pure a : Prog C R E α) = done a := rfl

@[simp] theorem throw_eq (e : E) : (throw e : Prog C R E α) = fail e := rfl

@[simp] theorem done_bind (a : α) (f : α → Prog C R E β) : (done a >>= f) = f a := rfl

@[simp] theorem fail_bind (e : E) (f : α → Prog C R E β) :
    ((fail e : Prog C R E α) >>= f) = fail e := rfl

@[simp] theorem call_bind (c : C) (k : R c → Prog C R E α) (f : α → Prog C R E β) :
    (call c k >>= f) = call c fun r => k r >>= f := rfl

@[simp] theorem tryCatch_done (a : α) (h : E → Prog C R E α) :
    tryCatch (done a : Prog C R E α) h = done a := rfl

@[simp] theorem tryCatch_fail (e : E) (h : E → Prog C R E α) :
    tryCatch (fail e : Prog C R E α) h = h e := rfl

@[simp] theorem tryCatch_call (c : C) (k : R c → Prog C R E α) (h : E → Prog C R E α) :
    tryCatch (call c k) h = call c fun r => tryCatch (k r) h := rfl

@[simp] theorem ofExcept_ok (a : α) : (ofExcept (.ok a) : Prog C R E α) = done a := rfl

@[simp] theorem ofExcept_error (e : E) : (ofExcept (.error e) : Prog C R E α) = fail e := rfl

/-- What a program that has ended ended with, and nothing for one still
    waiting for an answer. -/
def outcome : Prog C R E α → Option (Except E α)
  | done a => some (.ok a)
  | fail e => some (.error e)
  | call _ _ => none

/-- The command a program waits to have answered, if it has not ended. -/
def next : Prog C R E α → Option C
  | done _ => none
  | fail _ => none
  | call c _ => some c

/-- Answering the commands of the first program as the trace records leads to
    the second. -/
inductive Walks : Prog C R E α → List (Event C R) → Prog C R E α → Prop where
  | refl (p : Prog C R E α) : Walks p [] p
  | call (c : C) (k : R c → Prog C R E α) (r : R c) (tr : List (Event C R))
      (q : Prog C R E α) (h : Walks (k r) tr q) : Walks (call c k) (⟨c, r⟩ :: tr) q

/-- The property `P` holds of the trace so far at every node of the program:
    with no outcome at a command still to be answered, and with the outcome at
    a leaf. -/
def Along (P : List (Event C R) → Option (Except E α) → Prop) :
    Prog C R E α → List (Event C R) → Prop
  | done a, tr => P tr (some (.ok a))
  | fail e, tr => P tr (some (.error e))
  | call c k, tr => P tr none ∧ ∀ r, Along P (k r) (tr ++ [⟨c, r⟩])

/-- The program issues at most `n` commands, however they are answered. -/
def DepthLe : Prog C R E α → Nat → Prop
  | done _, _ => True
  | fail _, _ => True
  | call _ k, n => 0 < n ∧ ∀ r, DepthLe (k r) (n - 1)

variable {P : List (Event C R) → Option (Except E β) → Prop}

theorem along_head {P : List (Event C R) → Option (Except E α) → Prop}
    {p : Prog C R E α} {tr : List (Event C R)} (h : Along P p tr) : P tr p.outcome := by
  cases p with
  | done a => exact h
  | fail e => exact h
  | call c k => exact h.1

/-- A sequence keeps `P` exactly when its first half does up to the value it
    returns, and the second half does from there. -/
theorem along_bind (p : Prog C R E α) (f : α → Prog C R E β) (tr : List (Event C R)) :
    Along P (p >>= f) tr ↔
      Along (fun t o => match o with
        | none => P t none
        | some (.ok a) => Along P (f a) t
        | some (.error e) => P t (some (.error e))) p tr := by
  induction p generalizing tr with
  | done a => exact Iff.rfl
  | fail e => exact Iff.rfl
  | call c k ih =>
      simp only [call_bind, Along]
      -- Both sides ask the same of the command; the rest is the induction at each answer.
      exact and_congr Iff.rfl (forall_congr' fun r => ih r _)

/-- A guarded body keeps `P` exactly when the body does up to what it raises,
    and the handler does from there. -/
theorem along_tryCatch (p : Prog C R E β) (h : E → Prog C R E β) (tr : List (Event C R)) :
    Along P (tryCatch p h) tr ↔
      Along (fun t o => match o with
        | none => P t none
        | some (.ok a) => P t (some (.ok a))
        | some (.error e) => Along P (h e) t) p tr := by
  induction p generalizing tr with
  | done a => exact Iff.rfl
  | fail e => exact Iff.rfl
  | call c k ih =>
      simp only [tryCatch_call, Along]
      -- As for a sequence, with the handler in place of the continuation.
      exact and_congr Iff.rfl (forall_congr' fun r => ih r _)

theorem along_mono {P' : List (Event C R) → Option (Except E β) → Prop}
    (hP : ∀ t o, P t o → P' t o) (p : Prog C R E β) (tr : List (Event C R))
    (h : Along P p tr) : Along P' p tr := by
  induction p generalizing tr with
  | done a => exact hP _ _ h
  | fail e => exact hP _ _ h
  | call c k ih => exact ⟨hP _ _ h.1, fun r => ih r _ (h.2 r)⟩

/-- A property that only needs the trace to extend the one at hand holds along
    every program from there. -/
theorem along_of_extends (p : Prog C R E β) (tr : List (Event C R))
    (h : ∀ t o, P (tr ++ t) o) : Along P p tr := by
  induction p generalizing tr with
  | done a => simpa only [Along, List.append_nil] using h [] (some (.ok a))
  | fail e => simpa only [Along, List.append_nil] using h [] (some (.error e))
  | call c k ih =>
      refine ⟨by simpa only [List.append_nil] using h [] none, fun r => ih r _ (fun t o => ?_)⟩
      rw [List.append_assoc]
      exact h _ _

/-- A property that holds along a program holds on every walk out of it. -/
theorem along_walks {p q : Prog C R E β} {tr : List (Event C R)} (hw : Walks p tr q) :
    ∀ (pre : List (Event C R)), Along P p pre → P (pre ++ tr) q.outcome := by
  induction hw with
  | refl p =>
      intro pre h
      rw [List.append_nil]
      -- The walk ends here, so the property is the one at the node.
      exact along_head h
  | call c k r tr q _ ih =>
      intro pre h
      have hrest := ih _ (h.2 r)
      -- The events so far are the prefix, then the answered command, then the rest.
      rwa [List.append_assoc] at hrest

/-- A property that holds on every walk out of a program holds along it. -/
theorem along_of_walks (p : Prog C R E β) (pre : List (Event C R))
    (h : ∀ tr q, Walks p tr q → P (pre ++ tr) q.outcome) : Along P p pre := by
  induction p generalizing pre with
  | done a => simpa only [Along, List.append_nil, outcome] using h [] _ (.refl _)
  | fail e => simpa only [Along, List.append_nil, outcome] using h [] _ (.refl _)
  | call c k ih =>
      refine ⟨by simpa only [List.append_nil, outcome] using h [] _ (.refl _), fun r => ?_⟩
      refine ih r _ (fun tr q hw => ?_)
      rw [List.append_assoc]
      exact h _ q (.call c k r tr q hw)

/-- A branch keeps `P` when the side taken does. -/
theorem along_ite {c : Prop} [Decidable c] {p q : Prog C R E β} {tr : List (Event C R)}
    (hp : c → Along P p tr) (hq : ¬ c → Along P q tr) : Along P (if c then p else q) tr := by
  by_cases h : c
  · rw [if_pos h]
    exact hp h
  · rw [if_neg h]
    exact hq h

/-- What comes before the program starts can be read as part of the property. -/
theorem along_shift (p : Prog C R E β) (pre tr : List (Event C R)) :
    Along P p (pre ++ tr) ↔ Along (fun t o => P (pre ++ t) o) p tr := by
  induction p generalizing tr with
  | done a => exact Iff.rfl
  | fail e => exact Iff.rfl
  | call c k ih =>
      simp only [Along, List.append_assoc]
      exact and_congr Iff.rfl (forall_congr' fun r => ih r _)

theorem walks_append {p q s : Prog C R E α} {t u : List (Event C R)}
    (h1 : Walks p t q) (h2 : Walks q u s) : Walks p (t ++ u) s := by
  induction h1 with
  | refl p => exact h2
  | call c k r tr q _ ih => exact .call c k r _ s (ih h2)

/-- A walk passes through a program at every point of its trace. -/
theorem walks_split {p q : Prog C R E α} {pre post : List (Event C R)}
    (h : Walks p (pre ++ post) q) : ∃ m, Walks p pre m ∧ Walks m post q := by
  induction pre generalizing p with
  | nil => exact ⟨p, .refl p, h⟩
  | cons ev pre ih =>
      cases h with
      | call c k r tr _ hrest =>
          -- The walk takes the command of the trace, and goes on in what it led to.
          rcases ih hrest with ⟨m, hpre, hpost⟩
          exact ⟨m, .call c k r pre m hpre, hpost⟩

/-- One command and its answer. -/
theorem walks_perform (c : C) (r : R c) :
    Walks (perform c : Prog C R E (R c)) [⟨c, r⟩] (done r) :=
  .call c done r [] _ (.refl _)

theorem walks_done {a : α} {t : List (Event C R)} {q : Prog C R E α}
    (h : Walks (done a) t q) : t = [] ∧ q = done a := by
  cases h with
  | refl => exact ⟨rfl, rfl⟩

theorem walks_fail {e : E} {t : List (Event C R)} {q : Prog C R E α}
    (h : Walks (fail e) t q) : t = [] ∧ q = fail e := by
  cases h with
  | refl => exact ⟨rfl, rfl⟩

/-- A walk of a sequence is still in its first half, or has come through it. -/
theorem walks_bind {p : Prog C R E α} {f : α → Prog C R E β} {t : List (Event C R)}
    {q : Prog C R E β} (h : Walks (p >>= f) t q) : (∃ p', Walks p t p' ∧ q = p' >>= f) ∨
      ∃ a t₁ t₂, t = t₁ ++ t₂ ∧ Walks p t₁ (done a) ∧ Walks (f a) t₂ q := by
  induction p generalizing t with
  | done a => exact Or.inr ⟨a, [], t, rfl, .refl _, h⟩
  | fail e =>
      rcases walks_fail h with ⟨rfl, rfl⟩
      -- Raising is the end of the whole sequence, still in its first half.
      exact Or.inl ⟨fail e, .refl _, rfl⟩
  | call c k ih =>
      rw [call_bind] at h
      cases h with
      -- The command is still to be answered.
      | refl => exact Or.inl ⟨call c k, .refl _, rfl⟩
      | call _ _ r t _ hrest =>
          rcases ih r hrest with ⟨p', hp', hq⟩ | ⟨a, t₁, t₂, ht, hp', hq⟩
          · exact Or.inl ⟨p', .call c k r t p' hp', hq⟩
          · refine Or.inr ⟨a, ⟨c, r⟩ :: t₁, t₂, ?_, .call c k r t₁ _ hp', hq⟩
            rw [ht, List.cons_append]

/-- A sequence that has returned has come through its first half. -/
theorem walks_bind_done {p : Prog C R E α} {f : α → Prog C R E β} {t : List (Event C R)} {b : β}
    (h : Walks (p >>= f) t (done b)) :
    ∃ a t₁ t₂, t = t₁ ++ t₂ ∧ Walks p t₁ (done a) ∧ Walks (f a) t₂ (done b) := by
  rcases walks_bind h with ⟨p', hp', hq⟩ | hthrough
  · cases p' with
    | done a =>
        refine ⟨a, t, [], (List.append_nil t).symm, hp', ?_⟩
        rw [done_bind] at hq
        rw [← hq]
        exact .refl _
    -- A sequence still in its first half has returned nothing.
    | fail e => exact absurd hq (by simp only [fail_bind, reduceCtorEq, not_false_eq_true])
    | call c k => exact absurd hq (by simp only [call_bind, reduceCtorEq, not_false_eq_true])
  · exact hthrough

/-- A walk of a program whose result is only rendered is a walk of the program. -/
theorem walks_bind_pure {p : Prog C R E α} {f : α → β} {t : List (Event C R)} {q : Prog C R E β}
    (h : Walks (p >>= fun a => pure (f a)) t q) :
    ∃ p', Walks p t p' ∧ ∀ b, q = done b → ∃ a, p' = done a ∧ b = f a := by
  rcases walks_bind h with ⟨p', hp', rfl⟩ | ⟨a, t₁, t₂, rfl, hp, hrest⟩
  · refine ⟨p', hp', fun b hb => ?_⟩
    cases p' with
    | done a => exact ⟨a, rfl, (done.inj hb).symm⟩
    | fail e => exact absurd hb (by simp only [fail_bind, reduceCtorEq, not_false_eq_true])
    | call c k => exact absurd hb (by simp only [call_bind, reduceCtorEq, not_false_eq_true])
  · rcases walks_done hrest with ⟨rfl, hq⟩
    -- Rendering issues no command, so the walk is that of the first half.
    rw [List.append_nil]
    refine ⟨done a, hp, fun b hb => ⟨a, rfl, ?_⟩⟩
    rw [hq] at hb
    exact (done.inj hb).symm

/-- A walk of the first half is a walk of the sequence. -/
theorem walks_bind_left {p p' : Prog C R E α} {t : List (Event C R)} (h : Walks p t p')
    (f : α → Prog C R E β) : Walks (p >>= f) t (p' >>= f) := by
  induction h with
  | refl p => exact .refl _
  | call c k r tr q _ ih => exact .call c _ r tr _ ih

/-- A walk of the body is a walk of the guarded body. -/
theorem walks_tryCatch_left {p p' : Prog C R E α} {t : List (Event C R)} (h : Walks p t p')
    (g : E → Prog C R E α) : Walks (tryCatch p g) t (tryCatch p' g) := by
  induction h with
  | refl p => exact .refl _
  | call c k r tr q _ ih => exact .call c _ r tr _ ih

/-- A walk of a guarded body is still in the body, or has come through what the
    body raised to the handler. -/
theorem walks_tryCatch {p : Prog C R E α} {g : E → Prog C R E α} {t : List (Event C R)}
    {q : Prog C R E α} (h : Walks (tryCatch p g) t q) :
    (∃ p', Walks p t p' ∧ q = tryCatch p' g) ∨
      ∃ e t₁ t₂, t = t₁ ++ t₂ ∧ Walks p t₁ (fail e) ∧ Walks (g e) t₂ q := by
  induction p generalizing t with
  | done a =>
      rcases walks_done h with ⟨rfl, rfl⟩
      -- Returning is the end of the whole, still in the body.
      exact Or.inl ⟨done a, .refl _, rfl⟩
  | fail e => exact Or.inr ⟨e, [], t, rfl, .refl _, h⟩
  | call c k ih =>
      rw [tryCatch_call] at h
      cases h with
      -- The command is still to be answered.
      | refl => exact Or.inl ⟨call c k, .refl _, rfl⟩
      | call _ _ r t _ hrest =>
          rcases ih r hrest with ⟨p', hp', hq⟩ | ⟨e, t₁, t₂, ht, hp', hq⟩
          · exact Or.inl ⟨p', .call c k r t p' hp', hq⟩
          · refine Or.inr ⟨e, ⟨c, r⟩ :: t₁, t₂, ?_, .call c k r t₁ _ hp', hq⟩
            rw [ht, List.cons_append]

/-- A program of bounded depth has no walk longer than the bound. -/
theorem depthLe_walks {p q : Prog C R E α} {tr : List (Event C R)} (hw : Walks p tr q) :
    ∀ n, DepthLe p n → tr.length ≤ n ∧ DepthLe q (n - tr.length) := by
  induction hw with
  | refl p =>
      intro n h
      exact ⟨Nat.zero_le _, h⟩
  | call c k r tr q _ ih =>
      intro n h
      rcases h with ⟨hpos, hrest⟩
      rcases ih (n - 1) (hrest r) with ⟨hlen, hq⟩
      -- One command is spent, both of the bound and of the trace.
      have hsub : n - (tr.length + 1) = n - 1 - tr.length := by omega
      rw [List.length_cons, hsub]
      exact ⟨by omega, hq⟩

theorem depthLe_mono {p : Prog C R E α} {m n : Nat} (hmn : m ≤ n) (h : DepthLe p m) :
    DepthLe p n := by
  induction p generalizing m n with
  | done a => trivial
  | fail e => trivial
  | call c k ih => exact ⟨by have := h.1; omega, fun r => ih r (by omega) (h.2 r)⟩

/-- The depth of a sequence is at most the sum of the depths of its halves. -/
theorem depthLe_bind {p : Prog C R E α} {f : α → Prog C R E β} {n m : Nat} (hp : DepthLe p n)
    (hf : ∀ a, DepthLe (f a) m) : DepthLe (p >>= f) (n + m) := by
  induction p generalizing n with
  | done a => exact depthLe_mono (Nat.le_add_left m n) (hf a)
  | fail e => trivial
  | call c k ih =>
      have hpos := hp.1
      refine ⟨by omega, fun r => ?_⟩
      -- The command is charged to the first half.
      have hsub : n + m - 1 = n - 1 + m := by omega
      rw [hsub]
      exact ih r (hp.2 r)

theorem depthLe_tryCatch {p : Prog C R E α} {g : E → Prog C R E α} {n m : Nat}
    (hp : DepthLe p n) (hg : ∀ e, DepthLe (g e) m) : DepthLe (tryCatch p g) (n + m) := by
  induction p generalizing n with
  | done a => trivial
  | fail e => exact depthLe_mono (Nat.le_add_left m n) (hg e)
  | call c k ih =>
      have hpos := hp.1
      refine ⟨by omega, fun r => ?_⟩
      have hsub : n + m - 1 = n - 1 + m := by omega
      rw [hsub]
      exact ih r (hp.2 r)

theorem outcome_ok {p : Prog C R E α} {a : α} (h : p.outcome = some (.ok a)) : p = done a := by
  cases p with
  | done b => rw [Except.ok.inj (Option.some.inj h)]
  | fail e => exact absurd (Option.some.inj h) (by simp only [reduceCtorEq, not_false_eq_true])
  | call c k => exact absurd h (by simp only [outcome, reduceCtorEq, not_false_eq_true])

/-- Every command the program may issue satisfies the predicate. -/
def Issues (S : C → Prop) : Prog C R E α → Prop
  | done _ => True
  | fail _ => True
  | call c k => S c ∧ ∀ r, Issues S (k r)

variable {S : C → Prop}

theorem issues_mono {S' : C → Prop} (hS : ∀ c, S c → S' c) {p : Prog C R E α}
    (h : Issues S p) : Issues S' p := by
  induction p with
  | done a => trivial
  | fail e => trivial
  | call c k ih => exact ⟨hS c h.1, fun r => ih r (h.2 r)⟩

theorem issues_bind (p : Prog C R E α) (f : α → Prog C R E β) (hp : Issues S p)
    (hf : ∀ a, Issues S (f a)) : Issues S (p >>= f) := by
  induction p with
  | done a => exact hf a
  | fail e => trivial
  | call c k ih => exact ⟨hp.1, fun r => ih r (hp.2 r)⟩

/-- What the second half of a sequence may issue, for the values the first half can
    return. -/
theorem issues_bind_returned (p : Prog C R E α) (f : α → Prog C R E β) (hp : Issues S p)
    (hf : ∀ t a, Walks p t (done a) → Issues S (f a)) : Issues S (p >>= f) := by
  induction p with
  | done a => exact hf [] a (.refl _)
  | fail e => trivial
  | call c k ih => exact ⟨hp.1, fun r => ih r (hp.2 r) fun t a h => hf _ a (.call c k r t _ h)⟩

theorem issues_tryCatch (p : Prog C R E α) (g : E → Prog C R E α) (hp : Issues S p)
    (hg : ∀ e, Issues S (g e)) : Issues S (tryCatch p g) := by
  induction p with
  | done a => trivial
  | fail e => exact hg e
  | call c k ih => exact ⟨hp.1, fun r => ih r (hp.2 r)⟩

/-- A command on a walk out of a program is one it may issue. -/
theorem issues_walks {p q : Prog C R E α} {tr : List (Event C R)} (hw : Walks p tr q)
    (h : Issues S p) : (∀ ev ∈ tr, S ev.cmd) ∧ Issues S q := by
  induction hw with
  | refl p => exact ⟨fun ev hev => absurd hev List.not_mem_nil, h⟩
  | call c k r tr q _ ih =>
      rcases ih (h.2 r) with ⟨htr, hq⟩
      refine ⟨fun ev hev => ?_, hq⟩
      rcases List.mem_cons.mp hev with hhead | htail
      · rw [hhead]
        exact h.1
      · exact htr ev htail

/-- A walk of a sequence that has an event its first half does not issue has come
    through it. -/
theorem walks_through {p : Prog C R E α} {f : α → Prog C R E β} {t : List (Event C R)}
    {q : Prog C R E β} (h : Walks (p >>= f) t q) (hp : Issues S p) {ev : Event C R} (hev : ev ∈ t)
    (hother : ¬ S ev.cmd) : ∃ a t₁ t₂, t = t₁ ++ t₂ ∧ Walks p t₁ (done a) ∧
      (∀ e ∈ t₁, S e.cmd) ∧ Walks (f a) t₂ q ∧ ev ∈ t₂ := by
  rcases walks_bind h with ⟨p', hp', -⟩ | ⟨a, t₁, t₂, rfl, hfirst, hrest⟩
  · exact absurd ((issues_walks hp' hp).1 ev hev) hother
  · have hissues := (issues_walks hfirst hp).1
    refine ⟨a, t₁, t₂, rfl, hfirst, hissues, hrest, ?_⟩
    exact (List.mem_append.mp hev).resolve_left fun hleft => hother (hissues ev hleft)

end Prog

end Core

end Asante
