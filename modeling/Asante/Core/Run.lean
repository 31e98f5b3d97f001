import Asante.Core.Program

/-!
# Sequential Runs

One program run alone against a world. Each command is answered by `perform`
in the environment whose turn it is; the environments come from a sequence
without end, so a run never lacks one, and a run is a recursion on the program
tree and always ends.

The run keeps its steps, each with the world it was taken in and the world it
left, so a statement about what a run did to the world is a statement about its
steps.

## Main definitions

* `Step`: A command, its answer, and the world on both sides.
* `Finish`: How a run ended, where, and its steps.
* `run`: Run a program.

## Theorems

* `walks_bind_ended`, `walks_tryCatch_ended`: Walks to the end of a compound program.
* `run_walks`: The steps of a run are a walk to its outcome.
* `run_perform`: Each step did what `perform` says.
* `run_bind_ok`, `run_tryCatch_ok`: Running a compound program whose first part
  returns.
-/

namespace Asante

namespace Core

/-- One step of a run: the command with its answer, and the world before and
    after it. -/
structure Step (C : Type) (R : C → Type) (W : Type) where
  event : Event C R
  before : W
  after : W

/-- How a run ended, the world it left, and its steps. -/
structure Finish (C : Type) (R : C → Type) (E α W : Type) where
  outcome : Except E α
  world : W
  steps : List (Step C R W)

/-- What a finished run did. -/
def Finish.trace {C : Type} {R : C → Type} {E α W : Type} (f : Finish C R E α W) :
    List (Event C R) :=
  f.steps.map (·.event)

namespace Prog

variable {C : Type} {R : C → Type} {E α β W Env : Type}

/-- The program that has ended with an outcome. -/
def ended : Except E α → Prog C R E α
  | .ok a => done a
  | .error e => fail e

@[simp] theorem outcome_ended (o : Except E α) :
    (ended o : Prog C R E α).outcome = some o := by
  cases o with
  | ok a => rfl
  | error e => rfl

theorem ended_ok {o : Except E α} {a : α} (h : (ended o : Prog C R E α) = done a) : o = .ok a := by
  cases o with
  | ok a' => exact congrArg Except.ok (done.inj h)
  | error e => exact absurd h (by simp only [ended, reduceCtorEq, not_false_eq_true])

theorem ended_error {o : Except E α} {e : E} (h : (ended o : Prog C R E α) = fail e) :
    o = .error e := by
  cases o with
  | ok a => exact absurd h (by simp only [ended, reduceCtorEq, not_false_eq_true])
  | error e' => exact congrArg Except.error (fail.inj h)

theorem ended_ne_call (o : Except E α) (c : C) (k : R c → Prog C R E α) : ended o ≠ call c k := by
  cases o with
  | ok a => simp only [ended, ne_eq, reduceCtorEq, not_false_eq_true]
  | error e => simp only [ended, ne_eq, reduceCtorEq, not_false_eq_true]

/-- A walk to the end of a sequence ends where the first half raises, or goes on
    with what it returned. -/
theorem walks_bind_ended {p : Prog C R E α} {f : α → Prog C R E β} {t : List (Event C R)}
    {o : Except E β} : Walks (p >>= f) t (ended o) ↔
      (∃ e, o = .error e ∧ Walks p t (fail e)) ∨
        ∃ a t₁ t₂, t = t₁ ++ t₂ ∧ Walks p t₁ (done a) ∧ Walks (f a) t₂ (ended o) := by
  constructor
  · intro h
    rcases walks_bind h with ⟨p', hp', hq⟩ | hthrough
    · cases p' with
      | done a =>
          refine Or.inr ⟨a, t, [], (List.append_nil t).symm, hp', ?_⟩
          rw [hq, done_bind]
          exact .refl _
      | fail e => exact Or.inl ⟨e, ended_error hq, hp'⟩
      | call c k => exact absurd hq (ended_ne_call _ _ _)
    · exact Or.inr hthrough
  · rintro (⟨e, rfl, hp⟩ | ⟨a, t₁, t₂, rfl, hp, hf⟩)
    · exact walks_bind_left hp f
    · exact walks_append (walks_bind_left hp f) hf

/-- A walk to the end of a guarded body ends where the body returns, or goes on
    with the handler. -/
theorem walks_tryCatch_ended {p : Prog C R E α} {g : E → Prog C R E α} {t : List (Event C R)}
    {o : Except E α} : Walks (tryCatch p g) t (ended o) ↔
      (∃ a, o = .ok a ∧ Walks p t (done a)) ∨
        ∃ e t₁ t₂, t = t₁ ++ t₂ ∧ Walks p t₁ (fail e) ∧ Walks (g e) t₂ (ended o) := by
  constructor
  · intro h
    rcases walks_tryCatch h with ⟨p', hp', hq⟩ | hthrough
    · cases p' with
      | done a => exact Or.inl ⟨a, ended_ok hq, hp'⟩
      | fail e =>
          refine Or.inr ⟨e, t, [], (List.append_nil t).symm, hp', ?_⟩
          rw [hq, tryCatch_fail]
          exact .refl _
      | call c k => exact absurd hq (ended_ne_call _ _ _)
    · exact Or.inr hthrough
  · rintro (⟨a, rfl, hp⟩ | ⟨e, t₁, t₂, rfl, hp, hg⟩)
    · exact walks_tryCatch_left hp g
    · exact walks_append (walks_tryCatch_left hp g) hg

section Run

variable (perform : (c : C) → Env → W → R c × W)

/-- Run a program from a world, the commands meeting the environments of the
    sequence in turn. -/
def run : Prog C R E α → (Nat → Env) → W → Finish C R E α W
  | done a, _, w => { outcome := .ok a, world := w, steps := [] }
  | fail e, _, w => { outcome := .error e, world := w, steps := [] }
  | call c k, envs, w =>
    let answer := perform c (envs 0) w
    let rest := run (k answer.1) (fun n => envs (n + 1)) answer.2
    { rest with steps := ⟨⟨c, answer.1⟩, w, answer.2⟩ :: rest.steps }

/-- The steps of a run are a walk of the program to its outcome. -/
theorem run_walks (p : Prog C R E α) (envs : Nat → Env) (w : W) :
    Walks p (run perform p envs w).trace (ended (run perform p envs w).outcome) := by
  induction p generalizing envs w with
  | done a => exact .refl _
  | fail e => exact .refl _
  | call c k ih => exact .call c k _ _ _ (ih _ _ _)

/-- Each step of a run did what `perform` says in some environment. -/
theorem run_perform (p : Prog C R E α) (envs : Nat → Env) (w : W) :
    ∀ s ∈ (run perform p envs w).steps, ∃ n,
      (perform s.event.cmd (envs n) s.before) = (s.event.answer, s.after) := by
  induction p generalizing envs w with
  | done a => exact fun s hs => absurd hs List.not_mem_nil
  | fail e => exact fun s hs => absurd hs List.not_mem_nil
  | call c k ih =>
      intro s hs
      rcases List.mem_cons.mp hs with hhead | htail
      · rw [hhead]
        exact ⟨0, rfl⟩
      · rcases ih _ _ _ s htail with ⟨n, hn⟩
        exact ⟨n + 1, hn⟩

/-- A sequence whose first half returned goes on with the second half, in the
    environments the first one left. -/
theorem run_bind_ok (p : Prog C R E α) (f : α → Prog C R E β) (envs : Nat → Env) (w : W) {a : α}
    (h : (run perform p envs w).outcome = .ok a) :
    (run perform (p >>= f) envs w).outcome =
        (run perform (f a) (fun n => envs (n + (run perform p envs w).steps.length))
          (run perform p envs w).world).outcome ∧
      (run perform (p >>= f) envs w).world =
        (run perform (f a) (fun n => envs (n + (run perform p envs w).steps.length))
          (run perform p envs w).world).world := by
  induction p generalizing envs w with
  | done a' =>
      rw [Except.ok.inj h]
      exact ⟨rfl, rfl⟩
  | fail e => exact absurd h (by simp only [run, reduceCtorEq, not_false_eq_true])
  | call c k ih =>
      rw [call_bind]
      dsimp only [run, List.length_cons]
      -- One command further, so every later environment is one further too.
      exact ih _ _ _ h

/-- A guarded body that returned passes its handler by. -/
theorem run_tryCatch_ok (p : Prog C R E α) (g : E → Prog C R E α) (envs : Nat → Env) (w : W)
    {a : α} (h : (run perform p envs w).outcome = .ok a) :
    run perform (tryCatch p g) envs w = run perform p envs w := by
  induction p generalizing envs w with
  | done a' => rfl
  | fail e => exact absurd h (by simp only [run, reduceCtorEq, not_false_eq_true])
  | call c k ih =>
      rw [tryCatch_call]
      dsimp only [run]
      rw [ih _ _ _ h]

end Run

end Prog

end Core

end Asante
