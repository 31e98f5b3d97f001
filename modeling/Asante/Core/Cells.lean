import Asante.Core.Refinement

/-!
# Cells of a World

A part of the world that some calls of a pool keep to, and the others keep out
of. What a `Cell` shows of the world decides the answers of the commands inside
it and what they do to it; the commands outside leave what it shows as it is.

Calls that keep inside do not notice calls that keep outside: for every run there
is one with only the calls inside, in the same environments, in which these calls
do exactly what they did and the cell ends up the same. The run is found in two
steps. The pool follows one in which the world is nothing but the cell
(`cellLayer`), and there only the calls inside are started; and calls inside
cannot tell that pool from the original one (`cell_alone`).

## Main definitions

* `Cell`: What is shown of the world, and the commands inside and outside.
* `cellPerform`: The commands in a world that is nothing but the cell.
* `cellLayer`: The pool over the cell.

## Theorems

* `cell_alone`: Calls inside do the same in the cell and in the world.
* `cell_separate`: What the other calls do makes no difference.
-/

namespace Asante

namespace Core

open Prog

variable {T C : Type} {R : C → Type} {E α W Env : Type}

/-- A part of the world, with commands that depend on nothing else and commands
    that leave it as it is. -/
structure Cell (perform : (c : C) → Env → W → R c × W) where
  view : W → W
  inside : C → Prop
  outside : C → Prop
  answer : ∀ c env w, inside c → (perform c env (view w)).1 = (perform c env w).1
  keeps : ∀ c env w, inside c → view (perform c env (view w)).2 = view (perform c env w).2
  leaves : ∀ c env w, outside c → view (perform c env w).2 = view w

variable {perform : (c : C) → Env → W → R c × W} (cell : Cell perform) {code : T → Prog C R E α}
  {relevant : T → Bool}

/-- The commands in a world that is nothing but the cell. -/
def cellPerform (c : C) (env : Env) (w : W) : R c × W :=
  ((perform c env w).1, cell.view (perform c env w).2)

/-- The pool as a layer over the cell, in which only the calls inside are
    started. -/
def cellLayer (hin : ∀ t, relevant t = true → Issues cell.inside (code t))
    (hout : ∀ t, relevant t = false → Issues cell.outside (code t)) :
    Layer perform code (cellPerform cell) code where
  world := cell.view
  env := id
  rel := fun th' o => (relevant th'.call = true ∧ o = some th' ∧ Issues cell.inside th'.rest) ∨
    (relevant th'.call = false ∧ o = none ∧ Issues cell.outside th'.rest)
  start := fun t => by
    by_cases hrel : relevant t = true
    · exact Or.inr ⟨t, Or.inl ⟨hrel, rfl, hin t hrel⟩⟩
    · rw [Bool.not_eq_true] at hrel
      exact Or.inl (Or.inr ⟨hrel, rfl, hout t hrel⟩)
  step := fun t c k tr o env w hrel => by
    rcases hrel with ⟨hrelevant, rfl, hc, hk⟩ | ⟨hrelevant, rfl, hc, hk⟩
    · -- A command inside is answered in the cell as it is in the world.
      have hmoves : Moves (cellPerform cell) code env (cell.view w) _ _ _ := .answers t c k tr
      have hanswer : (cellPerform cell c env (cell.view w)).1 = (perform c env w).1 :=
        cell.answer c env w hc
      have hworld : (cellPerform cell c env (cell.view w)).2 = cell.view (perform c env w).2 :=
        cell.keeps c env w hc
      rw [hanswer, hworld] at hmoves
      exact ⟨_, hmoves, Or.inl ⟨hrelevant, rfl, hk _⟩⟩
    · refine ⟨none, ?_, Or.inr ⟨hrelevant, rfl, hk _⟩⟩
      rw [cell.leaves c env w hc]
      exact .stays none

/-- The two pools at one moment: the same threads, all of them inside, over the
    cell and over the world. -/
structure SameInside (cfg' cfg : Config T C R E α W) : Prop where
  world : cfg'.world = cell.view cfg.world
  threads : cfg'.threads = cfg.threads
  inside : ∀ th ∈ cfg.threads, Issues cell.inside th.rest

variable {cell} {cfg' cfg : Config T C R E α W}

theorem sameInside_act (h : SameInside cell cfg' cfg) (a : Action T Env)
    (hin : ∀ t, a = .spawn t → Issues cell.inside (code t)) :
    SameInside cell (cfg'.act (cellPerform cell) code a) (cfg.act perform code a) := by
  cases a with
  | spawn t =>
      refine ⟨h.world, congrArg (· ++ [_]) h.threads, fun th hth => ?_⟩
      rcases List.mem_append.mp hth with hold | hnew
      · exact h.inside th hold
      · rw [List.mem_singleton.mp hnew]
        exact hin t rfl
  | advance i env =>
      rcases hget : cfg.threads[i]? with _ | ⟨t, p, tr⟩
      · have hget' : cfg'.threads[i]? = none := by rw [h.threads, hget]
        simp only [Config.act, hget, hget']
        exact h
      · have hget' : cfg'.threads[i]? = some ⟨t, p, tr⟩ := by rw [h.threads, hget]
        have hinside := h.inside _ (List.mem_of_getElem? hget)
        cases p with
        | done a =>
            simp only [Config.act, hget, hget']
            exact h
        | fail e =>
            simp only [Config.act, hget, hget']
            exact h
        | call c k =>
            rcases hinside with ⟨hc, hk⟩
            have hanswer : (cellPerform cell c env cfg'.world).1 = (perform c env cfg.world).1 := by
              rw [h.world]
              exact cell.answer c env cfg.world hc
            have hworld : (cellPerform cell c env cfg'.world).2 =
                cell.view (perform c env cfg.world).2 := by
              rw [h.world]
              exact cell.keeps c env cfg.world hc
            rw [act_advance_call (cellPerform cell) code env hget',
              act_advance_call perform code env hget, hanswer, hworld, h.threads]
            refine ⟨rfl, rfl, fun th hth => ?_⟩
            rcases List.mem_or_eq_of_mem_set hth with hold | rfl
            · exact h.inside th hold
            · exact hk _

/-- Calls that keep inside do the same in the cell and in the world. -/
theorem cell_alone (sched : List (Action T Env)) (h : SameInside cell cfg' cfg)
    (hin : ∀ t, .spawn t ∈ sched → Issues cell.inside (code t)) :
    SameInside cell (cfg'.exec (cellPerform cell) code sched) (cfg.exec perform code sched) := by
  induction sched generalizing cfg' cfg with
  | nil => exact h
  | cons a sched ih =>
      refine ih (sameInside_act h a fun t ht => hin t ?_) fun t ht => hin t ?_
      · exact ht ▸ List.mem_cons_self
      · exact List.mem_cons_of_mem _ ht

/-- Calls that keep inside a cell do not notice calls that keep outside it: for
    every run there is one with only the calls inside, in environments of the
    first, in which they do what they did and the cell ends up the same. -/
theorem cell_separate (cell : Cell perform)
    (hin : ∀ t, relevant t = true → Issues cell.inside (code t))
    (hout : ∀ t, relevant t = false → Issues cell.outside (code t)) (w : W)
    (sched : List (Action T Env)) :
    ∃ lower : List (Action T Env),
      (∀ t, .spawn t ∈ lower → relevant t = true ∧ .spawn t ∈ sched) ∧
      (∀ j env, .advance j env ∈ lower → ∃ i, .advance i env ∈ sched) ∧
      cell.view ((Config.start w).exec perform code lower).world =
        cell.view ((Config.start w).exec perform code sched).world ∧
      ∀ th, th ∈ ((Config.start w).exec perform code lower).threads ↔
        th ∈ ((Config.start w).exec perform code sched).threads ∧ relevant th.call = true := by
  rcases layer_run (cellLayer cell hin hout) w sched with ⟨lower, place, hfollows, hfrom⟩
  -- What is started below are calls of the run above.
  have hbelow : ∀ th ∈ ((Config.start (cell.view w)).exec (cellPerform cell) code lower).threads,
      th ∈ ((Config.start w).exec perform code sched).threads ∧ relevant th.call = true := by
    intro th hth
    rcases follows_lower hfollows hth with ⟨th', hth', ⟨hrelevant, hsame, -⟩ | ⟨-, hnone, -⟩⟩
    · rw [Option.some.inj hsame]
      exact ⟨hth', hrelevant⟩
    · exact absurd hnone (Option.some_ne_none _)
  have hspawned : ∀ t, .spawn t ∈ lower → relevant t = true ∧ .spawn t ∈ sched := by
    intro t ht
    have hcall : t ∈ ((Config.start (cell.view w)).exec (cellPerform cell) code lower).threads.map
        (·.call) := by
      rw [exec_calls]
      exact List.mem_append_right _ (List.mem_filterMap.mpr ⟨_, ht, rfl⟩)
    rcases List.mem_map.mp hcall with ⟨th, hth, rfl⟩
    rcases hbelow th hth with ⟨habove, hrelevant⟩
    exact ⟨hrelevant, exec_spawned perform code w sched th habove⟩
  have hstart : SameInside cell (Config.start (cell.view w) : Config T C R E α W)
      (Config.start w) := ⟨rfl, rfl, fun _ hth => absurd hth List.not_mem_nil⟩
  have hsame := cell_alone lower hstart fun t ht => hin t (hspawned t ht).1
  refine ⟨lower, hspawned, fun j env hmem => ?_, ?_, fun th => ⟨fun hth => ?_, ?_⟩⟩
  · rcases hfrom j env hmem with ⟨i, env', hmem', rfl⟩
    exact ⟨i, hmem'⟩
  · rw [← hsame.world]
    exact hfollows.world
  · exact hbelow th (hsame.threads ▸ hth)
  · rintro ⟨hth, hrelevant⟩
    rcases follows_upper hfollows hth with ⟨o, ⟨-, rfl, -⟩ | ⟨hirrelevant, -⟩, hlower⟩
    · exact hsame.threads ▸ hlower th rfl
    · rw [hrelevant] at hirrelevant
      exact absurd hirrelevant Bool.noConfusion

end Core

end Asante
