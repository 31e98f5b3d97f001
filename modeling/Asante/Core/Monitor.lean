import Asante.Core.Pool
import Mathlib.Data.List.Induction

/-!
# Monitors

A monitor reads the events of a thread one by one, and either follows them to a
state or has no state for one of them. A program obeys a monitor when it follows
the program to the end, for all answers that are possible; what the program ends
with may depend on the state the monitor has come to.

`exec_obeys` is about every run of programs that obey: the monitor has followed
each thread to a state, and still follows what is left of it. `obeys_walks` is
about one walk, of a part of a thread for one.

## Main definitions

* `Monitor`: States, and the state after an event.
* `Obeys`: The monitor follows a program.
* `after`: The state after the events of a trace.

## Theorems

* `obeys_bind`, `obeys_tryCatch`, `obeys_mono`: The rules for compound programs.
* `after_induction`: What every event preserves holds of every trace that was followed.
* `obeys_walks`: The monitor follows a walk with possible answers.
* `exec_obeys`: The monitor follows every thread of every run.
-/

namespace Asante

namespace Core

/-- States with the state after an event, if there is one, for the answers that
    are possible. -/
structure Monitor (C : Type) (R : C → Type) where
  State : Type
  start : State
  possible : (c : C) → R c → Prop
  next : State → (c : C) → R c → Option State

namespace Monitor

variable {C : Type} {R : C → Type} {E α β : Type} (M : Monitor C R)

/-- The monitor follows the program from a state, to states with `Q` where it
    returns and to states with `X` where it raises. -/
def Obeys (Q : M.State → α → Prop) (X : M.State → E → Prop) : M.State → Prog C R E α → Prop
  | st, .done a => Q st a
  | st, .fail e => X st e
  | st, .call c k => ∀ r, M.possible c r →
    ∃ st', M.next st c r = some st' ∧ Obeys Q X st' (k r)

variable {M}

theorem obeys_mono {Q Q' : M.State → α → Prop} {X X' : M.State → E → Prop}
    (hQ : ∀ st a, Q st a → Q' st a) (hX : ∀ st e, X st e → X' st e) {p : Prog C R E α} :
    ∀ {st}, M.Obeys Q X st p → M.Obeys Q' X' st p := by
  induction p with
  | done a => exact fun h => hQ _ _ h
  | fail e => exact fun h => hX _ _ h
  | call c k ih =>
      intro st h r hr
      rcases h r hr with ⟨st', hnext, hrest⟩
      exact ⟨st', hnext, ih r hrest⟩

/-- The second half is followed from where the first half returns. -/
theorem obeys_bind {Q : M.State → β → Prop} {X : M.State → E → Prop} {p : Prog C R E α}
    {f : α → Prog C R E β} : ∀ {st}, M.Obeys (fun st' a => M.Obeys Q X st' (f a)) X st p →
      M.Obeys Q X st (p >>= f) := by
  induction p with
  | done a => exact fun h => h
  | fail e => exact fun h => h
  | call c k ih =>
      intro st h r hr
      rcases h r hr with ⟨st', hnext, hrest⟩
      exact ⟨st', hnext, ih r hrest⟩

/-- The handler is followed from where the body raises. -/
theorem obeys_tryCatch {Q : M.State → α → Prop} {X : M.State → E → Prop} {p : Prog C R E α}
    {g : E → Prog C R E α} : ∀ {st}, M.Obeys Q (fun st' e => M.Obeys Q X st' (g e)) st p →
      M.Obeys Q X st (tryCatch p g) := by
  induction p with
  | done a => exact fun h => h
  | fail e => exact fun h => h
  | call c k ih =>
      intro st h r hr
      rcases h r hr with ⟨st', hnext, hrest⟩
      exact ⟨st', hnext, ih r hrest⟩

/-- The state after the events of a trace. -/
def after (M : Monitor C R) (tr : List (Event C R)) : Option M.State :=
  tr.foldl (fun o ev => o.bind fun st => M.next st ev.cmd ev.answer) (some M.start)

theorem after_snoc (tr : List (Event C R)) (ev : Event C R) :
    M.after (tr ++ [ev]) = (M.after tr).bind fun st => M.next st ev.cmd ev.answer := by
  rw [after, List.foldl_append]
  rfl

/-- What holds at the start and is preserved by every event that is followed
    holds of every trace that was followed. The induction is on the trace from
    its end. -/
theorem after_induction {P : List (Event C R) → M.State → Prop} (hstart : P [] M.start)
    (hstep : ∀ tr st ev st', P tr st → M.next st ev.cmd ev.answer = some st' →
      P (tr ++ [ev]) st') (tr : List (Event C R)) :
    ∀ {st}, M.after tr = some st → P tr st := by
  induction tr using List.reverseRecOn with
  | nil =>
      intro st h
      rw [← Option.some.inj h]
      exact hstart
  | append_singleton tr ev ih =>
      intro st h
      rw [after_snoc] at h
      rcases Option.bind_eq_some_iff.mp h with ⟨st₀, hst₀, hnext⟩
      exact hstep tr st₀ ev st (ih hst₀) hnext

/-- A walk of a program that obeys is followed if all its answers are possible. The
    induction is on the trace from its end. -/
theorem obeys_walks {Q : M.State → α → Prop} {X : M.State → E → Prop} {p : Prog C R E α}
    (h : M.Obeys Q X M.start p) (tr : List (Event C R)) :
    (∀ ev ∈ tr, M.possible ev.cmd ev.answer) → ∀ {q}, Prog.Walks p tr q →
      ∃ st, M.after tr = some st ∧ M.Obeys Q X st q := by
  induction tr using List.reverseRecOn with
  | nil =>
      intro _ q hw
      cases hw
      exact ⟨M.start, rfl, h⟩
  | append_singleton tr ev ih =>
      intro hpossible q hw
      rcases Prog.walks_split hw with ⟨m, hm, hlast⟩
      rcases ih (fun ev' hev' => hpossible ev' (List.mem_append_left _ hev')) hm with
        ⟨st, hafter, hobeys⟩
      -- The last event answers the command the walk has come to.
      cases hlast with
      | call c k r t q hrest =>
          rcases hobeys r (hpossible ⟨c, r⟩ (List.mem_append_right _ List.mem_cons_self)) with
            ⟨st', hnext, hgoes⟩
          generalize k r = q' at hrest hgoes
          cases hrest
          refine ⟨st', ?_, hgoes⟩
          rw [after_snoc, hafter]
          exact hnext

/-- Every answer in a run is one the commands can give. -/
theorem exec_possible {T W Env : Type} {perform : (c : C) → Env → W → R c × W}
    {code : T → Prog C R E α} (hpossible : ∀ c env w, M.possible c (perform c env w).1) (w : W)
    (sched : List (Action T Env)) :
    ∀ th ∈ ((Config.start w).exec perform code sched).threads, ∀ ev ∈ th.trace,
      M.possible ev.cmd ev.answer := by
  refine exec_invariant perform code (fun cfg => ∀ th ∈ cfg.threads, ∀ ev ∈ th.trace,
    M.possible ev.cmd ev.answer) (fun cfg t h th hth => ?_)
    (fun cfg i env t c k tr hget h => ?_) sched _ fun th hth => absurd hth List.not_mem_nil
  · rcases List.mem_append.mp hth with hold | hnew
    · exact h th hold
    · rw [List.mem_singleton.mp hnew]
      exact fun ev hev => absurd hev List.not_mem_nil
  · rw [act_advance_call perform code env hget]
    intro th hth ev hev
    rcases List.mem_or_eq_of_mem_set hth with hold | rfl
    · exact h th hold ev hev
    · rcases List.mem_append.mp hev with hbefore | hlast
      · exact h _ (List.mem_of_getElem? hget) ev hbefore
      · rw [List.mem_singleton.mp hlast]
        exact hpossible c env cfg.world

/-- The monitor follows every thread of every run of programs that obey it. -/
theorem exec_obeys {T W Env : Type} {perform : (c : C) → Env → W → R c × W}
    {code : T → Prog C R E α} {Q : T → M.State → α → Prop} {X : T → M.State → E → Prop}
    (hpossible : ∀ c env w, M.possible c (perform c env w).1)
    (hcode : ∀ t, M.Obeys (Q t) (X t) M.start (code t)) (w : W) (sched : List (Action T Env)) :
    ∀ th ∈ ((Config.start w).exec perform code sched).threads,
      ∃ st, M.after th.trace = some st ∧ M.Obeys (Q th.call) (X th.call) st th.rest := by
  refine exec_invariant perform code (fun cfg => ∀ th ∈ cfg.threads, ∃ st,
    M.after th.trace = some st ∧ M.Obeys (Q th.call) (X th.call) st th.rest)
    (fun cfg t h th hth => ?_) (fun cfg i env t c k tr hget h => ?_) sched _
    fun th hth => absurd hth List.not_mem_nil
  · rcases List.mem_append.mp hth with hold | hnew
    · exact h th hold
    · rw [List.mem_singleton.mp hnew]
      exact ⟨M.start, rfl, hcode t⟩
  · rw [act_advance_call perform code env hget]
    intro th hth
    rcases List.mem_or_eq_of_mem_set hth with hold | rfl
    · exact h th hold
    · -- The answer is one the program obeys at.
      rcases h _ (List.mem_of_getElem? hget) with ⟨st, hafter, hobeys⟩
      rcases hobeys _ (hpossible c env cfg.world) with ⟨st', hnext, hrest⟩
      refine ⟨st', ?_, hrest⟩
      rw [after_snoc, hafter]
      exact hnext

end Monitor

end Core

end Asante
