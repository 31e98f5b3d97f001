import Asante.Core.Pool

/-!
# Pools over Pools

A pool whose threads do what the threads of another pool do, with steps of
their own in between. The lower pool is the one that is already understood; the
upper one adds something around it, a check before a call is let in or a record
of what the call did.

A thread of the upper pool stands for a thread of the lower one, or for none
yet. What it does to the lower pool is one of three things (`Moves`): nothing,
when the step is its own; starting the call it stands for from then on; or
answering the command its lower thread waits for. A `Layer` is a relation that
every step of every upper thread keeps with one of these moves.

Threads need not be numbered alike, since the upper pool has threads that never
let anything in. `Follows` keeps a partial numbering beside the two
configurations: it is injective, it places every lower thread, and related
threads are at related places. `exec_follows` is the simulation: every schedule
of the upper pool has a schedule of the lower pool that it follows, in the
environments the upper steps were given. What is proved of every run of the
lower pool is then true of every run of the upper one.

## Main definitions

* `Moves`: What one step of an upper thread does to the lower pool.
* `Layer`: A relation between threads that every step keeps.
* `Follows`: An upper configuration follows a lower one.
* `From`: The environments of a lower schedule are those of an upper one.
* `Changes`: One list differs from another at one place.

## Theorems

* `follows_start`: Two pools that have not started anything.
* `follows_stays`, `follows_begins`, `follows_answers`: The three moves.
* `follows_act`: One action of the upper pool.
* `exec_follows`: A whole schedule, from any configurations.
* `layer_run`: A whole run.
* `follows_lower`, `follows_upper`: From a thread of one pool to the other's.
-/

namespace Asante

namespace Core

section Layers

variable {T C : Type} {R : C → Type} {E α W Env : Type}
variable {T' C' : Type} {R' : C' → Type} {E' α' W' Env' : Type}

/-- What one step of an upper thread does to the lower pool: nothing, start the
    call that the thread stands for from then on, or answer the command the
    lower thread waits for. -/
inductive Moves (perform : (c : C) → Env → W → R c × W) (code : T → Prog C R E α) (env : Env)
    (w : W) : Option (Thread T C R E α) → Option (Thread T C R E α) → W → Prop
  | stays (o : Option (Thread T C R E α)) : Moves perform code env w o o w
  | begins (t : T) : Moves perform code env w none (some ⟨t, code t, []⟩) w
  | answers (t : T) (c : C) (k : R c → Prog C R E α) (tr : List (Event C R)) :
      Moves perform code env w (some ⟨t, .call c k, tr⟩)
        (some ⟨t, k (perform c env w).1, tr ++ [⟨c, (perform c env w).1⟩]⟩) (perform c env w).2

/-- The upper pool as a layer over the lower one: the lower world in an upper
    one, the lower environment in an upper one, and a relation between the
    threads of the two that every step keeps. -/
structure Layer (perform' : (c : C') → Env' → W' → R' c × W') (code' : T' → Prog C' R' E' α')
    (perform : (c : C) → Env → W → R c × W) (code : T → Prog C R E α) where
  world : W' → W
  env : Env' → Env
  rel : Thread T' C' R' E' α' → Option (Thread T C R E α) → Prop
  start : ∀ t', rel ⟨t', code' t', []⟩ none ∨ ∃ t, rel ⟨t', code' t', []⟩ (some ⟨t, code t, []⟩)
  step : ∀ t' c' k' tr' o env' w', rel ⟨t', .call c' k', tr'⟩ o →
    ∃ o', Moves perform code (env env') (world w') o o' (world (perform' c' env' w').2) ∧
      rel ⟨t', k' (perform' c' env' w').1, tr' ++ [⟨c', (perform' c' env' w').1⟩]⟩ o'

variable {perform' : (c : C') → Env' → W' → R' c × W'} {code' : T' → Prog C' R' E' α'}
  {perform : (c : C) → Env → W → R c × W} {code : T → Prog C R E α}

/-- The upper configuration follows the lower one: the lower world is the one in
    it, and the threads of the two are related at related places. -/
structure Follows (L : Layer perform' code' perform code) (cfg' : Config T' C' R' E' α' W')
    (cfg : Config T C R E α W) (place : Nat → Option Nat) : Prop where
  world : cfg.world = L.world cfg'.world
  threads : ∀ i th', cfg'.threads[i]? = some th' →
    L.rel th' ((place i).bind fun j => cfg.threads[j]?)
  placed : ∀ i j, place i = some j → i < cfg'.threads.length ∧ j < cfg.threads.length
  injective : ∀ i i' j, place i = some j → place i' = some j → i = i'
  onto : ∀ j, j < cfg.threads.length → ∃ i, place i = some j

/-- Every environment of the lower schedule is that of an action of the upper
    one. -/
def From (L : Layer perform' code' perform code) (sched' : List (Action T' Env'))
    (sched : List (Action T Env)) : Prop :=
  ∀ j env, .advance j env ∈ sched → ∃ i env', .advance i env' ∈ sched' ∧ env = L.env env'

variable {L : Layer perform' code' perform code} {cfg' : Config T' C' R' E' α' W'}
  {cfg : Config T C R E α W} {place : Nat → Option Nat}

theorem follows_start (L : Layer perform' code' perform code) (w' : W') :
    Follows L (Config.start w') (Config.start (L.world w')) (fun _ => none) where
  world := rfl
  threads := fun _ _ h => by
    exact absurd h (by simp only [Config.start, List.getElem?_nil, reduceCtorEq,
      not_false_eq_true])
  placed := fun _ _ h => by
    exact absurd h (by simp only [reduceCtorEq, not_false_eq_true])
  injective := fun _ _ _ h => by
    exact absurd h (by simp only [reduceCtorEq, not_false_eq_true])
  onto := fun _ h => absurd h (Nat.not_lt_zero _)

/-- One list has one item more or another item at one place, and is the other
    list elsewhere. -/
structure Changes {X : Type} (xs xs' : List X) (i : Nat) (x : X) : Prop where
  here : xs'[i]? = some x
  others : ∀ i', i' ≠ i → xs'[i']? = xs[i']?
  length : xs.length ≤ xs'.length

theorem changes_append {X : Type} (xs : List X) (x : X) :
    Changes xs (xs ++ [x]) xs.length x where
  here := List.getElem?_concat_length
  others := fun i' hne => by
    rcases Nat.lt_or_ge i' xs.length with hlt | hge
    · exact List.getElem?_append_left hlt
    · rw [List.getElem?_eq_none hge, List.getElem?_eq_none]
      rw [List.length_append, List.length_singleton]
      omega
  length := by
    rw [List.length_append]
    exact Nat.le_add_right _ _

theorem changes_set {X : Type} {xs : List X} {i : Nat} (hi : i < xs.length) (x : X) :
    Changes xs (xs.set i x) i x where
  here := List.getElem?_set_self hi
  others := fun _ hne => List.getElem?_set_ne (Ne.symm hne)
  length := Nat.le_of_eq List.length_set.symm

section Keeping

variable {threads' : List (Thread T' C' R' E' α')} {w' : W'} {history' : List (Nat × Event C' R')}
  {i : Nat} {th' : Thread T' C' R' E' α'}

/-- The upper thread has moved by itself. -/
theorem follows_stays (h : Follows L cfg' cfg place) (hw : L.world w' = L.world cfg'.world)
    (hc : Changes cfg'.threads threads' i th')
    (hrel : L.rel th' ((place i).bind fun j => cfg.threads[j]?)) :
    Follows L ⟨w', threads', history'⟩ cfg place where
  world := h.world.trans hw.symm
  threads := fun i' th hth => by
    by_cases hii : i' = i
    · subst hii
      rw [← Option.some.inj (hc.here.symm.trans hth)]
      exact hrel
    · exact h.threads i' th ((hc.others i' hii).symm.trans hth)
  placed := fun i' j hplace =>
    ⟨Nat.lt_of_lt_of_le (h.placed i' j hplace).1 hc.length, (h.placed i' j hplace).2⟩
  injective := h.injective
  onto := h.onto

/-- The upper thread has begun to stand for a call, which the lower pool starts. -/
theorem follows_begins (h : Follows L cfg' cfg place) (hw : L.world w' = L.world cfg'.world)
    (hc : Changes cfg'.threads threads' i th') (hunplaced : place i = none) (t : T)
    (hrel : L.rel th' (some ⟨t, code t, []⟩)) :
    Follows L ⟨w', threads', history'⟩ (cfg.act perform code (.spawn t))
      (fun i' => if i' = i then some cfg.threads.length else place i') where
  world := h.world.trans hw.symm
  threads := fun i' th hth => by
    have hlower := changes_append cfg.threads (⟨t, code t, []⟩ : Thread T C R E α)
    change L.rel th ((if i' = i then some cfg.threads.length else place i').bind
      fun j => (cfg.threads ++ [_])[j]?)
    by_cases hii : i' = i
    · subst hii
      rw [if_pos rfl, Option.bind_some, hlower.here, ← Option.some.inj (hc.here.symm.trans hth)]
      exact hrel
    · have hold := h.threads i' th ((hc.others i' hii).symm.trans hth)
      rw [if_neg hii]
      rcases hplace : place i' with _ | j
      · rw [hplace] at hold
        exact hold
      · -- A lower thread that was there keeps its place.
        rw [hplace, Option.bind_some] at hold
        rw [Option.bind_some, hlower.others j (Nat.ne_of_lt (h.placed i' j hplace).2)]
        exact hold
  placed := fun i' j hplace => by
    have hi := (List.getElem?_eq_some_iff.mp hc.here).1
    change i' < threads'.length ∧ j < (cfg.threads ++ [_]).length
    rw [List.length_append, List.length_singleton]
    by_cases hii : i' = i
    · rw [if_pos hii] at hplace
      rw [← Option.some.inj hplace, hii]
      exact ⟨hi, Nat.lt_succ_self _⟩
    · rw [if_neg hii] at hplace
      exact ⟨Nat.lt_of_lt_of_le (h.placed i' j hplace).1 hc.length,
        Nat.lt_succ_of_lt (h.placed i' j hplace).2⟩
  injective := fun i₁ i₂ j h₁ h₂ => by
    -- The new place is beyond all the old ones.
    have hfresh : ∀ i', place i' ≠ some cfg.threads.length :=
      fun i' hp => absurd (h.placed i' _ hp).2 (Nat.lt_irrefl _)
    by_cases hi₁ : i₁ = i
    · by_cases hi₂ : i₂ = i
      · exact hi₁.trans hi₂.symm
      · rw [if_pos hi₁] at h₁
        rw [if_neg hi₂, ← Option.some.inj h₁] at h₂
        exact absurd h₂ (hfresh i₂)
    · rw [if_neg hi₁] at h₁
      by_cases hi₂ : i₂ = i
      · rw [if_pos hi₂] at h₂
        rw [← Option.some.inj h₂] at h₁
        exact absurd h₁ (hfresh i₁)
      · rw [if_neg hi₂] at h₂
        exact h.injective i₁ i₂ j h₁ h₂
  onto := fun j hj => by
    change j < (cfg.threads ++ [_]).length at hj
    rw [List.length_append, List.length_singleton] at hj
    rcases Nat.lt_succ_iff_lt_or_eq.mp hj with hlt | rfl
    · rcases h.onto j hlt with ⟨i', hi'⟩
      have hii : i' ≠ i := fun hne => by
        rw [hne, hunplaced] at hi'
        exact absurd hi' (by simp only [reduceCtorEq, not_false_eq_true])
      exact ⟨i', (if_neg hii).trans hi'⟩
    · exact ⟨i, if_pos rfl⟩

/-- The upper thread has moved with its lower one. -/
theorem follows_answers (h : Follows L cfg' cfg place) {j : Nat} (hplace : place i = some j)
    {env' : Env'} {t : T} {c : C} {k : R c → Prog C R E α} {tr : List (Event C R)}
    (hlower : cfg.threads[j]? = some ⟨t, .call c k, tr⟩)
    (hw : L.world w' = (perform c (L.env env') cfg.world).2)
    (hc : Changes cfg'.threads threads' i th')
    (hrel : L.rel th' (some ⟨t, k (perform c (L.env env') cfg.world).1,
      tr ++ [⟨c, (perform c (L.env env') cfg.world).1⟩]⟩)) :
    Follows L ⟨w', threads', history'⟩ (cfg.act perform code (.advance j (L.env env'))) place := by
  have hj := (h.placed i j hplace).2
  rw [act_advance_call perform code (L.env env') hlower]
  refine ⟨hw.symm, fun i' th hth => ?_, fun i' j' hplace' => ?_, h.injective, fun j' hj' => ?_⟩
  · dsimp only
    by_cases hii : i' = i
    · subst hii
      rw [hplace, Option.bind_some, List.getElem?_set_self hj,
        ← Option.some.inj (hc.here.symm.trans hth)]
      exact hrel
    · have hold := h.threads i' th ((hc.others i' hii).symm.trans hth)
      rcases hplace' : place i' with _ | j'
      · rw [hplace'] at hold
        exact hold
      · -- Another upper thread stands for another lower one.
        rw [hplace', Option.bind_some] at hold
        have hjj : j ≠ j' := fun hne => hii (h.injective i' i j' hplace' (hne ▸ hplace))
        rw [Option.bind_some, List.getElem?_set_ne hjj]
        exact hold
  · rw [List.length_set]
    exact ⟨Nat.lt_of_lt_of_le (h.placed i' j' hplace').1 hc.length, (h.placed i' j' hplace').2⟩
  · rw [List.length_set] at hj'
    exact h.onto j' hj'

end Keeping

/-- Starting a call of the upper pool starts at most one of the lower pool. -/
theorem follows_spawn (h : Follows L cfg' cfg place) (t' : T') :
    ∃ (acts : List (Action T Env)) (place' : Nat → Option Nat),
      Follows L (cfg'.act perform' code' (.spawn t')) (cfg.exec perform code acts) place' ∧
        ∀ j env, .advance j env ∉ acts := by
  have hc := changes_append cfg'.threads (⟨t', code' t', []⟩ : Thread T' C' R' E' α')
  have hunplaced : place cfg'.threads.length = none := by
    rcases hplace : place cfg'.threads.length with _ | j
    · rfl
    · exact absurd (h.placed _ j hplace).1 (Nat.lt_irrefl _)
  rcases L.start t' with hnone | ⟨t, hsome⟩
  · refine ⟨[], place, follows_stays h rfl hc ?_, fun _ _ => List.not_mem_nil⟩
    rw [hunplaced]
    exact hnone
  · refine ⟨[.spawn t], _, follows_begins h rfl hc hunplaced t hsome, fun j env hmem => ?_⟩
    exact absurd (List.mem_singleton.mp hmem) (by simp only [reduceCtorEq, not_false_eq_true])

/-- Answering a command of the upper pool is at most one action of the lower
    pool. -/
theorem follows_advance (h : Follows L cfg' cfg place) (i : Nat) (env' : Env') :
    ∃ (acts : List (Action T Env)) (place' : Nat → Option Nat),
      Follows L (cfg'.act perform' code' (.advance i env')) (cfg.exec perform code acts) place' ∧
        ∀ j env, .advance j env ∈ acts → env = L.env env' := by
  rcases act_advance_cases perform' code' cfg' i env' with ⟨t', c', k', tr', hget⟩ | hsame
  · rcases L.step t' c' k' tr' _ env' cfg'.world (h.threads i _ hget) with ⟨o', hmoves, hrel⟩
    rw [act_advance_call perform' code' env' hget]
    have hc := fun th' : Thread T' C' R' E' α' =>
      changes_set (List.getElem?_eq_some_iff.mp hget).1 th'
    -- What the upper thread stands for, and the lower world after the step.
    generalize ho : ((place i).bind fun j => cfg.threads[j]?) = o at hmoves
    generalize hv : L.world (perform' c' env' cfg'.world).2 = v at hmoves
    rw [← h.world] at hmoves
    cases hmoves with
    | stays o =>
        refine ⟨[], place, follows_stays h (hv.trans h.world) (hc _) ?_,
          fun _ _ hmem => absurd hmem List.not_mem_nil⟩
        rw [exec_nil, ho]
        exact hrel
    | begins t =>
        have hunplaced : place i = none := by
          rcases hplace : place i with _ | j
          · rfl
          · rw [hplace, Option.bind_some,
              List.getElem?_eq_getElem (h.placed i j hplace).2] at ho
            exact absurd ho (Option.some_ne_none _)
        refine ⟨[.spawn t], _, follows_begins h (hv.trans h.world) (hc _) hunplaced t hrel,
          fun j env hmem => ?_⟩
        exact absurd (List.mem_singleton.mp hmem) (by simp only [reduceCtorEq, not_false_eq_true])
    | answers t c k tr =>
        rcases hplace : place i with _ | j
        · rw [hplace] at ho
          exact absurd ho (by simp only [Option.bind_none, reduceCtorEq, not_false_eq_true])
        · rw [hplace] at ho
          refine ⟨[.advance j (L.env env')], place,
            follows_answers h hplace ho hv (hc _) hrel, fun j' env hmem => ?_⟩
          exact (Action.advance.inj (List.mem_singleton.mp hmem)).2
  · rw [hsame]
    exact ⟨[], place, h, fun _ _ hmem => absurd hmem List.not_mem_nil⟩

/-- One action of the upper pool is at most one action of the lower one. -/
theorem follows_act (h : Follows L cfg' cfg place) (a : Action T' Env') :
    ∃ acts place', Follows L (cfg'.act perform' code' a) (cfg.exec perform code acts) place' ∧
      From L [a] acts := by
  cases a with
  | spawn t' =>
      rcases follows_spawn h t' with ⟨acts, place', hact, hquiet⟩
      exact ⟨acts, place', hact, fun j env hmem => absurd hmem (hquiet j env)⟩
  | advance i env' =>
      rcases follows_advance h i env' with ⟨acts, place', hact, henv⟩
      exact ⟨acts, place', hact, fun j env hmem =>
        ⟨i, env', List.mem_singleton.mpr rfl, henv j env hmem⟩⟩

/-- Every schedule of the upper pool follows one of the lower pool. -/
theorem exec_follows (sched' : List (Action T' Env')) (h : Follows L cfg' cfg place) :
    ∃ sched place', Follows L (cfg'.exec perform' code' sched') (cfg.exec perform code sched)
      place' ∧ From L sched' sched := by
  induction sched' generalizing cfg' cfg place with
  | nil => exact ⟨[], place, h, fun _ _ hmem => absurd hmem List.not_mem_nil⟩
  | cons a sched' ih =>
      rcases follows_act h a with ⟨acts, place', hact, hfrom⟩
      rcases ih hact with ⟨sched, place'', hrest, hfrom'⟩
      refine ⟨acts ++ sched, place'', ?_, fun j env hmem => ?_⟩
      · rw [exec_cons, exec_append]
        exact hrest
      · rcases List.mem_append.mp hmem with hmem | hmem
        · rcases hfrom j env hmem with ⟨i, env', ha, henv⟩
          exact ⟨i, env', List.mem_cons.mpr (Or.inl (List.mem_singleton.mp ha)), henv⟩
        · rcases hfrom' j env hmem with ⟨i, env', ha, henv⟩
          exact ⟨i, env', List.mem_cons_of_mem _ ha, henv⟩

/-- Every run of the upper pool follows a run of the lower one. -/
theorem layer_run (L : Layer perform' code' perform code) (w' : W')
    (sched' : List (Action T' Env')) :
    ∃ sched place, Follows L ((Config.start w').exec perform' code' sched')
      ((Config.start (L.world w')).exec perform code sched) place ∧ From L sched' sched :=
  exec_follows sched' (follows_start L w')

/-- A lower thread is stood for by an upper one. -/
theorem follows_lower (h : Follows L cfg' cfg place) {th : Thread T C R E α}
    (hth : th ∈ cfg.threads) : ∃ th' ∈ cfg'.threads, L.rel th' (some th) := by
  rcases List.mem_iff_getElem?.mp hth with ⟨j, hj⟩
  rcases h.onto j (List.getElem?_eq_some_iff.mp hj).1 with ⟨i, hplace⟩
  have hget := List.getElem?_eq_getElem (h.placed i j hplace).1
  refine ⟨_, List.mem_of_getElem? hget, ?_⟩
  have hrel := h.threads i _ hget
  rw [hplace, Option.bind_some, hj] at hrel
  exact hrel

/-- An upper thread stands for a lower one, or for none. -/
theorem follows_upper (h : Follows L cfg' cfg place) {th' : Thread T' C' R' E' α'}
    (hth' : th' ∈ cfg'.threads) : ∃ o, L.rel th' o ∧ ∀ th, o = some th → th ∈ cfg.threads := by
  rcases List.mem_iff_getElem?.mp hth' with ⟨i, hi⟩
  refine ⟨_, h.threads i th' hi, fun th hth => ?_⟩
  rcases hplace : place i with _ | j
  · rw [hplace] at hth
    exact absurd hth (by simp only [Option.bind_none, reduceCtorEq, not_false_eq_true])
  · rw [hplace] at hth
    exact List.mem_of_getElem? hth

end Layers

end Core

end Asante
