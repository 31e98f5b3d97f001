import Mathlib.Data.List.Induction
import Asante.Core.Pool

/-!
# Histories of Pools

The history of a run against the threads that made it. Every event of the
history was one action of the schedule, taken in a configuration the run passed
through, and that configuration is itself the end of a run: what is proved of
every run holds there too. `exec_history` says so, and lets an invariant of
configurations be used at the moment an event happened.

An event in the history of a thread's number is an event in its trace, so facts
about traces, which are facts about one program, become facts about the
history, which is shared.

## Theorems

* `exec_events`: The history and the traces hold the same events.
* `exec_recorded`: The events of a thread are in the history.
* `exec_origin`: What stands in the world was put there by the history.
* `exec_history`: An event of the history was an action of the schedule.
* `exec_kept`: A thread goes on working on the call it was started for.
-/

namespace Asante

namespace Core

variable {T C : Type} {R : C → Type} {E α W Env : Type}
variable (perform : (c : C) → Env → W → R c × W) (code : T → Prog C R E α)

/-- The history of a run and the traces of its threads hold the same events. -/
theorem exec_events (w : W) (sched : List (Action T Env)) (i : Nat) (ev : Event C R) :
    (i, ev) ∈ ((Config.start w).exec perform code sched).history ↔
      ∃ th, ((Config.start w).exec perform code sched).threads[i]? = some th ∧ ev ∈ th.trace := by
  refine exec_invariant perform code (fun cfg => (i, ev) ∈ cfg.history ↔
    ∃ th, cfg.threads[i]? = some th ∧ ev ∈ th.trace) (fun cfg t h => h.trans ?_)
    (fun cfg j env t c k tr hget h => ?_) sched _ ?_
  · -- A thread that has just been started has no events.
    dsimp only [Config.act]
    constructor
    · rintro ⟨th, hth, hev⟩
      exact ⟨th, List.getElem?_append_left (List.getElem?_eq_some_iff.mp hth).1 ▸ hth, hev⟩
    · rintro ⟨th, hth, hev⟩
      rcases Nat.lt_or_ge i cfg.threads.length with hlt | hge
      · rw [List.getElem?_append_left hlt] at hth
        exact ⟨th, hth, hev⟩
      · rw [List.getElem?_append_right hge] at hth
        rw [List.mem_singleton.mp (List.mem_of_getElem? hth)] at hev
        exact absurd hev List.not_mem_nil
  · rw [act_advance_call perform code env hget]
    -- The history and the trace of the stepped thread both gain the event.
    dsimp only
    rw [List.mem_append, h, List.mem_singleton, Prod.mk.injEq]
    by_cases hij : j = i
    · subst hij
      rw [List.getElem?_set_self (List.getElem?_eq_some_iff.mp hget).1, hget]
      simp only [Option.some.injEq, exists_eq_left', List.mem_append, List.mem_singleton, true_and]
    · rw [List.getElem?_set_ne hij]
      -- Another thread's trace is as it was, and the new event is not its own.
      refine ⟨fun hev => hev.resolve_right fun hnew => hij hnew.1.symm, Or.inl⟩
  · simp only [Config.start, List.not_mem_nil, List.getElem?_nil, reduceCtorEq, false_and,
      exists_false]

/-- The events of a thread are in the history, under its number. -/
theorem exec_recorded (w : W) (sched : List (Action T Env)) {th : Thread T C R E α}
    (hth : th ∈ ((Config.start w).exec perform code sched).threads) :
    ∃ i, ∀ ev ∈ th.trace, (i, ev) ∈ ((Config.start w).exec perform code sched).history := by
  rcases List.mem_iff_getElem?.mp hth with ⟨i, hi⟩
  exact ⟨i, fun ev hev => (exec_events perform code w sched i ev).mpr ⟨th, hi, hev⟩⟩

/-- What every command leaves as it was or puts there itself was put there by a
    command of the history, if nothing was there at the start. The commands may rely
    on an invariant of the world. -/
theorem exec_origin_under {X : Type} (inv : W → Prop) (items : W → List X) (puts : C → X → Prop)
    (hinv : ∀ c env w, inv w → inv (perform c env w).2)
    (hstep : ∀ c env w, inv w → ∀ x ∈ items (perform c env w).2, x ∈ items w ∨ puts c x) {w : W}
    (hw : inv w) (hstart : items w = []) (sched : List (Action T Env)) :
    ∀ x ∈ items ((Config.start w).exec perform code sched).world,
      ∃ i ev, (i, ev) ∈ ((Config.start w).exec perform code sched).history ∧ puts ev.cmd x := by
  refine (exec_invariant perform code (fun cfg => inv cfg.world ∧ ∀ x ∈ items cfg.world,
    ∃ i ev, (i, ev) ∈ cfg.history ∧ puts ev.cmd x) (fun cfg t h => h)
    (fun cfg i env t c k tr hget h => ?_) sched _ ⟨hw, ?_⟩).2
  · rw [act_advance_call perform code env hget]
    refine ⟨hinv c env _ h.1, fun x hx => ?_⟩
    rcases hstep c env cfg.world h.1 x hx with hold | hputs
    · rcases h.2 x hold with ⟨j, ev, hev, hputs⟩
      exact ⟨j, ev, List.mem_append_left _ hev, hputs⟩
    · exact ⟨i, _, List.mem_append_right _ (List.mem_singleton.mpr rfl), hputs⟩
  · intro x hx
    change x ∈ items w at hx
    rw [hstart] at hx
    exact absurd hx List.not_mem_nil

/-- The same, of commands that rely on nothing. -/
theorem exec_origin {X : Type} (items : W → List X) (puts : C → X → Prop)
    (hstep : ∀ c env w, ∀ x ∈ items (perform c env w).2, x ∈ items w ∨ puts c x) {w : W}
    (hstart : items w = []) (sched : List (Action T Env)) :
    ∀ x ∈ items ((Config.start w).exec perform code sched).world,
      ∃ i ev, (i, ev) ∈ ((Config.start w).exec perform code sched).history ∧ puts ev.cmd x :=
  exec_origin_under perform code (fun _ => True) items puts (fun _ _ _ _ => trivial)
    (fun c env w _ => hstep c env w) trivial hstart sched

theorem exec_snoc (cfg : Config T C R E α W) (sched : List (Action T Env)) (a : Action T Env) :
    cfg.exec perform code (sched ++ [a]) = (cfg.exec perform code sched).act perform code a :=
  exec_append perform code cfg sched [a]

/-- An event of the history was an action of the schedule: the run before that
    action had the history before the event, the thread was waiting for the
    answer, and the world and the environment of the moment gave it. -/
theorem exec_history (w : W) (sched : List (Action T Env)) {pre post : List (Nat × Event C R)}
    {i : Nat} {ev : Event C R}
    (h : ((Config.start w).exec perform code sched).history = pre ++ (i, ev) :: post) :
    ∃ before env after, sched = before ++ .advance i env :: after ∧
      ((Config.start w).exec perform code before).history = pre ∧
      (perform ev.cmd env ((Config.start w).exec perform code before).world).1 = ev.answer := by
  induction sched using List.reverseRecOn generalizing post with
  | nil => exact absurd h.symm (List.append_ne_nil_of_right_ne_nil pre (List.cons_ne_nil _ _))
  | append_singleton sched a ih =>
      -- An event that was there before the last action is found by induction.
      have hold : ∀ post', ((Config.start w).exec perform code sched).history =
          pre ++ (i, ev) :: post' → ∃ before env after,
          sched ++ [a] = before ++ .advance i env :: after ∧
          ((Config.start w).exec perform code before).history = pre ∧
          (perform ev.cmd env ((Config.start w).exec perform code before).world).1 =
            ev.answer := by
        intro post' hpost'
        rcases ih hpost' with ⟨before, env, after, hsched, hrest⟩
        exact ⟨before, env, after ++ [a], by rw [hsched, List.append_assoc, List.cons_append],
          hrest⟩
      rw [exec_snoc] at h
      cases a with
      | spawn t => exact hold post h
      | advance j env =>
          rcases act_advance_cases perform code ((Config.start w).exec perform code sched) j env
            with ⟨t, c, k, tr, hget⟩ | hsame
          · rw [act_advance_call perform code env hget] at h
            -- The event is the one this action adds, or it was there before.
            rcases List.eq_nil_or_concat post with hpost | ⟨post', last, hpost⟩
            · rw [hpost] at h
              rcases List.append_inj' h rfl with ⟨hpre, hlast⟩
              rcases Prod.mk.inj (List.cons.inj hlast).1 with ⟨hj, hev⟩
              rw [← hj, ← hev]
              exact ⟨sched, env, [], rfl, hpre, rfl⟩
            · rw [hpost, List.concat_eq_append, ← List.cons_append, ← List.append_assoc] at h
              exact hold post' (List.append_inj' h rfl).1
          · rw [hsame] at h
            exact hold post h

/-- A thread goes on working on the call it was started for. -/
theorem exec_kept (w : W) (before after : List (Action T Env)) {j : Nat}
    {th : Thread T C R E α}
    (h : ((Config.start w).exec perform code before).threads[j]? = some th) :
    ∃ later, ((Config.start w).exec perform code (before ++ after)).threads[j]? = some later ∧
      later.call = th.call := by
  have hcalls := exec_calls perform code (before ++ after) (Config.start w)
  rw [List.filterMap_append, ← List.append_assoc, ← exec_calls perform code before] at hcalls
  have hget := congrArg (·[j]?) hcalls
  -- The calls of the longer run start with the calls of the shorter one.
  rw [List.getElem?_append_left (by
    rw [List.length_map]
    exact (List.getElem?_eq_some_iff.mp h).1), List.getElem?_map, List.getElem?_map, h] at hget
  rcases Option.map_eq_some_iff.mp hget with ⟨later, hlater, hcall⟩
  exact ⟨later, hlater, hcall⟩

end Core

end Asante
