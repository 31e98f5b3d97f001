import Asante.Core.Refinement
import Mathlib.Algebra.GroupWithZero.Nat

/-!
# Programs with Further Commands

The commands of a program extended by others, which do nothing to the world: a
program over `C ⊕ S` issues commands of `C`, with their meaning, and commands of
`S`, with answers of their own. Two uses of the extension are layers over the
pool without it.

A guarded call first issues one command of `S` and looks at the answer. The
answer admits it as a call of the lower pool, which then runs as it is
(`embed`), or raises. `guardLayer` says that what a guarded pool does to the
world is what the lower pool does when it is started with the admitted calls,
and that a call that is not admitted has issued the one command and nothing else.

A recording program issues commands of `S` to say what it has done. They are
answered with nothing, so they can be left out (`erase`), and their record is
kept beside the world. `recordLayer` says that a pool of recording programs does
to the world what the pool of the erased programs does, and `recorded_history`
and `history_count` bring a count over the record down to the single threads.

## Main definitions

* `Extend`: The answers of the extended commands.
* `embed`: A program, over the extended commands.
* `erase`: A recording program, without its record.
* `Guard`, `guardedCode`, `guardedPerform`, `guardLayer`: The guarded pool.
* `recordedPerform`, `recordLayer`: The recording pool.

## Theorems

* `erase_bind`, `erase_tryCatch`: Compound programs.
* `recorded_history`: The record is what is noted in the history.
* `history_count`: What is counted in the history is counted in the traces.
-/

namespace Asante

namespace Core

section Extending

variable {C S : Type} {R : C → Type} {Q : S → Type} {E α β : Type}

/-- The answers of the commands `C` extended by the commands `S`. -/
@[reducible] def Extend (R : C → Type) (Q : S → Type) : C ⊕ S → Type
  | .inl c => R c
  | .inr s => Q s

/-- An event of a program, over the extended commands. -/
def liftEvent (Q : S → Type) (ev : Event C R) : Event (C ⊕ S) (Extend R Q) :=
  ⟨.inl ev.cmd, ev.answer⟩

/-- What an event of the extended commands is among the original ones. -/
def Event.visible : Event (C ⊕ S) (Extend R Q) → Option (Event C R)
  | ⟨.inl c, r⟩ => some ⟨c, r⟩
  | ⟨.inr _, _⟩ => none

/-- What an event of the extended commands records. -/
def Event.note : Event (C ⊕ S) (Extend R Q) → Option S
  | ⟨.inl _, _⟩ => none
  | ⟨.inr s, _⟩ => some s

namespace Prog

/-- A program, over the extended commands. -/
def embed (Q : S → Type) : Prog C R E α → Prog (C ⊕ S) (Extend R Q) E α
  | done a => done a
  | fail e => fail e
  | call c k => call (.inl c) fun r => embed Q (k r)

/-- An embedded program has returned exactly if the program has. -/
theorem embed_done {p : Prog C R E α} {a : α} (h : embed Q p = done a) : p = done a := by
  cases p with
  | done b => rw [done.inj h]
  | fail e => exact absurd h (by simp only [embed, reduceCtorEq, not_false_eq_true])
  | call c k => exact absurd h (by simp only [embed, reduceCtorEq, not_false_eq_true])

/-- A recording program, without its record. -/
def erase : Prog (C ⊕ S) (Extend R fun _ => Unit) E α → Prog C R E α
  | done a => done a
  | fail e => fail e
  | call (.inl c) k => call c fun r => erase (k r)
  | call (.inr _) k => erase (k ())

theorem erase_bind (p : Prog (C ⊕ S) (Extend R fun _ => Unit) E α)
    (f : α → Prog (C ⊕ S) (Extend R fun _ => Unit) E β) :
    erase (p >>= f) = erase p >>= fun a => erase (f a) := by
  induction p with
  | done a => rfl
  | fail e => rfl
  | call c k ih =>
      cases c with
      | inl c =>
          simp only [call_bind, erase]
          exact congrArg _ (funext fun r => ih r)
      | inr s => exact ih ()

theorem erase_tryCatch (p : Prog (C ⊕ S) (Extend R fun _ => Unit) E α)
    (h : E → Prog (C ⊕ S) (Extend R fun _ => Unit) E α) :
    erase (tryCatch p h) = tryCatch (erase p) fun e => erase (h e) := by
  induction p with
  | done a => rfl
  | fail e => rfl
  | call c k ih =>
      cases c with
      | inl c =>
          simp only [tryCatch_call, erase]
          exact congrArg _ (funext fun r => ih r)
      | inr s => exact ih ()

@[simp] theorem bind_done (p : Prog C R E α) : (p >>= fun a => done a) = p := by
  induction p with
  | done a => rfl
  | fail e => rfl
  | call c k ih =>
      simp only [call_bind]
      exact congrArg _ (funext fun r => ih r)

/-- A program that records nothing is what it was. -/
@[simp] theorem erase_embed (p : Prog C R E α) :
    erase (embed (fun _ : S => Unit) p) = p := by
  induction p with
  | done a => rfl
  | fail e => rfl
  | call c k ih =>
      simp only [embed, erase]
      exact congrArg _ (funext fun r => ih r)

end Prog

end Extending

section Guarding

variable {T C : Type} {R : C → Type} {E α W Env : Type}
variable {T' S : Type} {Q : S → Type} {Env' : Type}

/-- How the calls of a guarded pool are let in: a call is a call of the lower
    pool, or there is a command whose answer admits it as one or raises. -/
structure Guard (T' T S : Type) (Q : S → Type) (E : Type) where
  call : T' → T ⊕ (s : S) × (Q s → Except E T)

/-- The program of a guarded call. -/
def guardedCode (G : Guard T' T S Q E) (code : T → Prog C R E α) (t' : T') :
    Prog (C ⊕ S) (Extend R Q) E α :=
  match G.call t' with
  | .inl t => Prog.embed Q (code t)
  | .inr ⟨s, letIn⟩ => .call (.inr s) fun r =>
    match letIn r with
    | .ok t => Prog.embed Q (code t)
    | .error e => .fail e

/-- The commands of a guarded pool. The guards look at the environment and leave
    the world as it is. -/
def guardedPerform (perform : (c : C) → Env → W → R c × W) (env : Env' → Env)
    (answer : (s : S) → Env' → Q s) : (c : C ⊕ S) → Env' → W → Extend R Q c × W
  | .inl c, env', w => perform c (env env') w
  | .inr s, env', w => (answer s env', w)

/-- The call has not been admitted: its guard is still to be answered, or was
    answered with a refusal. -/
def NotLetIn (G : Guard T' T S Q E) (code : T → Prog C R E α)
    (th' : Thread T' (C ⊕ S) (Extend R Q) E α) : Prop :=
  ∃ s letIn, G.call th'.call = .inr ⟨s, letIn⟩ ∧
    (th'.trace = [] ∧ th'.rest = guardedCode G code th'.call ∨
      ∃ r e, letIn r = .error e ∧ th'.trace = [⟨.inr s, r⟩] ∧ th'.rest = .fail e)

/-- The call has been admitted as the call of the lower thread, and has done what
    the lower thread has done. -/
structure LetIn (G : Guard T' T S Q E) (th' : Thread T' (C ⊕ S) (Extend R Q) E α)
    (th : Thread T C R E α) : Prop where
  rest : th'.rest = Prog.embed Q th.rest
  admitted : (G.call th'.call = .inl th.call ∧ th'.trace = th.trace.map (liftEvent Q)) ∨
    ∃ s letIn r, G.call th'.call = .inr ⟨s, letIn⟩ ∧ letIn r = .ok th.call ∧
      th'.trace = ⟨.inr s, r⟩ :: th.trace.map (liftEvent Q)

/-- A guarded pool is a layer over the lower pool. -/
def guardLayer (G : Guard T' T S Q E) (perform : (c : C) → Env → W → R c × W)
    (code : T → Prog C R E α) (env : Env' → Env) (answer : (s : S) → Env' → Q s) :
    Layer (guardedPerform perform env answer) (guardedCode G code) perform code where
  world := id
  env := env
  rel := fun th' o => match o with
    | none => NotLetIn G code th'
    | some th => LetIn G th' th
  start := fun t' => by
    rcases hcall : G.call t' with t | ⟨s, letIn⟩
    · refine Or.inr ⟨t, ?_, Or.inl ⟨hcall, rfl⟩⟩
      simp only [guardedCode, hcall]
    · exact Or.inl ⟨s, letIn, hcall, Or.inl ⟨rfl, rfl⟩⟩
  step := fun t' c' k' tr' o env' w' hrel => by
    cases o with
    | none =>
        rcases hrel with ⟨s, letIn, hcall, ⟨htrace, hrest⟩ | ⟨r, e, -, -, hrest⟩⟩
        · dsimp only at hcall htrace hrest
          subst htrace
          -- The command is the guard, and its answer decides.
          simp only [guardedCode, hcall] at hrest
          cases hrest
          rcases hadmit : letIn (answer s env') with e | t
          · refine ⟨none, .stays _, s, letIn, hcall,
              Or.inr ⟨answer s env', e, hadmit, rfl, ?_⟩⟩
            simp only [guardedPerform, hadmit]
          · refine ⟨some ⟨t, code t, []⟩, .begins t, ?_,
              Or.inr ⟨s, letIn, answer s env', hcall, hadmit, rfl⟩⟩
            simp only [guardedPerform, hadmit]
        · exact absurd hrest (by simp only [reduceCtorEq, not_false_eq_true])
    | some th =>
        rcases th with ⟨t, p, tr⟩
        rcases hrel with ⟨hrest, hadmitted⟩
        cases p with
        | done a => exact absurd hrest (by simp only [Prog.embed, reduceCtorEq, not_false_eq_true])
        | fail e => exact absurd hrest (by simp only [Prog.embed, reduceCtorEq, not_false_eq_true])
        | call c k =>
            simp only [Prog.embed] at hrest
            cases hrest
            refine ⟨_, .answers t c k tr, rfl, ?_⟩
            rcases hadmitted with ⟨hcall, htrace⟩ | ⟨s, letIn, r, hcall, hadmit, htrace⟩
            · refine Or.inl ⟨hcall, ?_⟩
              dsimp only at htrace ⊢
              rw [htrace, List.map_append]
              rfl
            · refine Or.inr ⟨s, letIn, r, hcall, hadmit, ?_⟩
              dsimp only at htrace ⊢
              rw [htrace, List.map_append]
              rfl

end Guarding

section Recording

variable {T C S : Type} {R : C → Type} {E α W Env : Type}

/-- The commands of a recording pool. The record is kept beside the world. -/
def recordedPerform (perform : (c : C) → Env → W → R c × W) :
    (c : C ⊕ S) → Env → W × List S → Extend R (fun _ => Unit) c × (W × List S)
  | .inl c, env, w => ((perform c env w.1).1, ((perform c env w.1).2, w.2))
  | .inr s, _, w => ((), (w.1, w.2 ++ [s]))

/-- A recording pool is a layer over the pool of its erased programs. -/
def recordLayer (perform : (c : C) → Env → W → R c × W)
    (code' : T → Prog (C ⊕ S) (Extend R fun _ => Unit) E α) :
    Layer (recordedPerform perform) code' perform fun t => Prog.erase (code' t) where
  world := Prod.fst
  env := id
  rel := fun th' o => ∃ th, o = some th ∧ th.call = th'.call ∧ th.rest = Prog.erase th'.rest ∧
    th.trace = th'.trace.filterMap Event.visible
  start := fun t => Or.inr ⟨t, _, rfl, rfl, rfl, rfl⟩
  step := fun t' c' k' tr' o env' w' hrel => by
    rcases hrel with ⟨⟨t, p, tr⟩, rfl, hcall, hrest, htrace⟩
    dsimp only at hcall hrest htrace
    cases c' with
    | inl c =>
        simp only [Prog.erase] at hrest
        subst hrest
        refine ⟨_, .answers t c _ tr, _, rfl, hcall, rfl, ?_⟩
        rw [htrace, List.filterMap_append]
        rfl
    | inr s =>
        -- The command only records, and is erased.
        simp only [Prog.erase] at hrest
        refine ⟨_, .stays _, _, rfl, hcall, hrest, ?_⟩
        rw [htrace, List.filterMap_append]
        exact (List.append_nil _).symm

/-- The record of a run is what is noted in its history. -/
theorem recorded_history (perform : (c : C) → Env → W → R c × W)
    (code' : T → Prog (C ⊕ S) (Extend R fun _ => Unit) E α) (w : W)
    (sched : List (Action T Env)) :
    ((Config.start (w, ([] : List S))).exec (recordedPerform perform) code' sched).world.2 =
      ((Config.start (w, ([] : List S))).exec (recordedPerform perform) code'
        sched).history.filterMap fun e => e.2.note := by
  refine exec_invariant (recordedPerform perform) code' (fun cfg => cfg.world.2 =
    cfg.history.filterMap fun e => e.2.note) (fun cfg t h => h)
    (fun cfg i env t c k tr hget h => ?_) sched _ rfl
  rw [act_advance_call (recordedPerform perform) code' env hget]
  dsimp only
  rw [List.filterMap_append, ← h]
  cases c with
  | inl c => exact (List.append_nil _).symm
  | inr s => rfl

end Recording

section Counting

variable {T C : Type} {R : C → Type} {E α W Env : Type}

end Counting

end Core

end Asante
