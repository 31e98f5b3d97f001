import Asante.Core.Program

/-!
# Pools of Programs

Programs running side by side over one world. A thread is a program with the
call it was started for; an action starts a thread or lets one thread have its
next command answered. Commands are the atomic steps, so a schedule, a list of
actions, is an arbitrary interleaving.

What answers a command is the world and an environment: `Env` stands for
everything outside the program, and every step may meet a different one. The
schedule carries the environments, so quantifying over schedules quantifies
over every behaviour of the outside as well as over every interleaving.

A `Discipline` is the way to reason about such a pool one thread at a time. It
fixes an invariant of the world, an order along which the world may only grow,
and which environments a command may meet. `Safe` is what a thread has to
establish by itself: whatever larger world satisfying the invariant it wakes up
in, its next command keeps the invariant and grows the world. What a thread
knows about the world survives the other threads exactly when it is stable
under growth, so no thread is ever checked against another.

`exec_sound` is the soundness of that reading: from safe programs every
conforming schedule keeps the invariant, and every thread that has ended
satisfies its postcondition, then and later.

## Main definitions

* `Thread`: A started call, what is left of it, and what it did so far.
* `Config`: The world, the threads, and the history of all commands.
* `exec`: Run a schedule.
* `Discipline`: An invariant, a growth order, and admissible environments.
* `Safe`: A program keeps a discipline, and ends in its postcondition.
* `Conforms`: Every action of a schedule is admissible where it is taken.
* `Sound`: What a discipline maintains of a whole configuration.

## Theorems

* `safe_grow`: What a thread knows survives growth of the world.
* `safe_bind`: Safety of a sequence from safety of its halves.
* `safe_tryCatch`: Safety of a guarded body from the body and its handler.
* `safe_mono`: Weakening the postcondition.
* `safe_grown`, `safe_seq`: Sequencing with the invariant at hand in between.
* `safe_of_issues`: Safety of a program from its commands one by one.
* `act_sound`: One action keeps a configuration sound.
* `exec_sound`: Every conforming schedule keeps a configuration sound.
* `exec_invariant`, `exec_threads`: A property kept by every action holds of
  every run, and one kept by every answer of every thread.
* `exec_calls`, `exec_spawned`: The threads are the started calls, in order.
* `exec_walks`: What a thread did is a walk of its program.
-/

namespace Asante

namespace Core

/-- A started call: what it was started for, what is left of it, and the
    commands it has had answered. -/
structure Thread (T C : Type) (R : C → Type) (E α : Type) where
  call : T
  rest : Prog C R E α
  trace : List (Event C R)

/-- The world, the threads over it, and every command any of them had
    answered, in order, with the thread's number. -/
structure Config (T C : Type) (R : C → Type) (E α W : Type) where
  world : W
  threads : List (Thread T C R E α)
  history : List (Nat × Event C R)

/-- An action of the scheduler: start a call, or answer the next command of
    one thread in some environment. -/
inductive Action (T Env : Type) where
  | spawn (t : T)
  | advance (i : Nat) (env : Env)

/-- The call an action starts, if it starts one. -/
def Action.started {T Env : Type} : Action T Env → Option T
  | spawn t => some t
  | advance _ _ => none

section Pool

variable {T C : Type} {R : C → Type} {E α W Env : Type}

/-- The pool before anything was started. -/
def Config.start (w : W) : Config T C R E α W :=
  { world := w, threads := [], history := [] }

variable (perform : (c : C) → Env → W → R c × W) (code : T → Prog C R E α)

/-- One action. Advancing a thread that has ended, or one that was never
    started, changes nothing. -/
def Config.act (cfg : Config T C R E α W) : Action T Env → Config T C R E α W
  | .spawn t => { cfg with threads := cfg.threads ++ [⟨t, code t, []⟩] }
  | .advance i env =>
    match cfg.threads[i]? with
    | some ⟨t, .call c k, tr⟩ =>
      { world := (perform c env cfg.world).2
        threads := cfg.threads.set i
          ⟨t, k (perform c env cfg.world).1, tr ++ [⟨c, (perform c env cfg.world).1⟩]⟩
        history := cfg.history ++ [(i, ⟨c, (perform c env cfg.world).1⟩)] }
    | _ => cfg

/-- Run a schedule. -/
def Config.exec (cfg : Config T C R E α W) (sched : List (Action T Env)) :
    Config T C R E α W :=
  sched.foldl (Config.act perform code) cfg

@[simp] theorem exec_nil (cfg : Config T C R E α W) : cfg.exec perform code [] = cfg := rfl

@[simp] theorem exec_cons (cfg : Config T C R E α W) (a : Action T Env)
    (sched : List (Action T Env)) :
    cfg.exec perform code (a :: sched) = (cfg.act perform code a).exec perform code sched := rfl

theorem exec_append (cfg : Config T C R E α W) (s u : List (Action T Env)) :
    cfg.exec perform code (s ++ u) = (cfg.exec perform code s).exec perform code u :=
  List.foldl_append

/-- Where advancing thread `i` finds it waiting for an answer. -/
theorem act_advance_call {cfg : Config T C R E α W} {i : Nat} {t : T} {c : C}
    {k : R c → Prog C R E α} {tr : List (Event C R)} (env : Env)
    (h : cfg.threads[i]? = some ⟨t, .call c k, tr⟩) :
    cfg.act perform code (.advance i env) =
      { world := (perform c env cfg.world).2
        threads := cfg.threads.set i
          ⟨t, k (perform c env cfg.world).1, tr ++ [⟨c, (perform c env cfg.world).1⟩]⟩
        history := cfg.history ++ [(i, ⟨c, (perform c env cfg.world).1⟩)] } := by
  simp only [Config.act, h]

/-- Advancing a thread either answers the command it waits for or changes
    nothing. -/
theorem act_advance_cases (cfg : Config T C R E α W) (i : Nat) (env : Env) :
    (∃ t c k tr, cfg.threads[i]? = some ⟨t, .call c k, tr⟩) ∨
      cfg.act perform code (.advance i env) = cfg := by
  rcases h : cfg.threads[i]? with _ | ⟨t, p, tr⟩
  · -- No such thread, or one that has ended: nothing to answer.
    exact Or.inr (by simp only [Config.act, h])
  · cases p with
    | done a => exact Or.inr (by simp only [Config.act, h])
    | fail e => exact Or.inr (by simp only [Config.act, h])
    | call c k => exact Or.inl ⟨t, c, k, tr, rfl⟩

/-- A property of configurations that survives starting a call and answering a
    command holds of every run. -/
theorem exec_invariant (Inv : Config T C R E α W → Prop)
    (hspawn : ∀ cfg t, Inv cfg → Inv (cfg.act perform code (.spawn t : Action T Env)))
    (hadvance : ∀ cfg i env t c k tr, cfg.threads[i]? = some ⟨t, .call c k, tr⟩ → Inv cfg →
      Inv (cfg.act perform code (.advance i env)))
    (sched : List (Action T Env)) (cfg : Config T C R E α W) (h : Inv cfg) :
    Inv (cfg.exec perform code sched) := by
  induction sched generalizing cfg with
  | nil => exact h
  | cons a sched ih =>
      rw [exec_cons]
      refine ih _ ?_
      cases a with
      | spawn t => exact hspawn cfg t h
      | advance i env =>
          rcases act_advance_cases perform code cfg i env with ⟨t, c, k, tr, hget⟩ | hsame
          · exact hadvance cfg i env t c k tr hget h
          · rwa [hsame]

/-- A property of threads that holds of every started call and survives every
    answer holds of every thread of every run. -/
theorem exec_threads (Good : Thread T C R E α → Prop)
    (hstart : ∀ t, Good ⟨t, code t, []⟩)
    (hstep : ∀ t c k tr r, Good ⟨t, .call c k, tr⟩ → Good ⟨t, k r, tr ++ [⟨c, r⟩]⟩)
    (sched : List (Action T Env)) (cfg : Config T C R E α W)
    (h0 : ∀ th ∈ cfg.threads, Good th) :
    ∀ th ∈ (cfg.exec perform code sched).threads, Good th := by
  refine exec_invariant perform code (fun cfg => ∀ th ∈ cfg.threads, Good th)
    (fun cfg t h th hth => ?_) (fun cfg i env t c k tr hget h => ?_) sched cfg h0
  · -- The old threads are as they were, and the new one has just been started.
    rcases List.mem_append.mp hth with hold | hnew
    · exact h th hold
    · rw [List.mem_singleton.mp hnew]
      exact hstart t
  · rw [act_advance_call perform code env hget]
    intro th hth
    -- Only the stepped thread has changed.
    rcases List.mem_or_eq_of_mem_set hth with hold | hnew
    · exact h th hold
    · rw [hnew]
      exact hstep t c k tr _ (h _ (List.mem_of_getElem? hget))

/-- What a thread did is a walk of the program of its call. -/
theorem exec_walks (w : W) (sched : List (Action T Env)) :
    ∀ th ∈ ((Config.start w).exec perform code sched).threads,
      Prog.Walks (code th.call) th.trace th.rest := by
  refine exec_threads perform code (fun th => Prog.Walks (code th.call) th.trace th.rest)
    (fun t => .refl _) (fun t c k tr r h => ?_) sched _ ?_
  · exact Prog.walks_append h (.call c k r [] _ (.refl _))
  · intro th hth
    exact absurd hth (by simp only [Config.start, List.not_mem_nil, not_false_eq_true])

/-- The threads are the started calls, in the order they were started. -/
theorem exec_calls (sched : List (Action T Env)) (cfg : Config T C R E α W) :
    (cfg.exec perform code sched).threads.map (·.call) =
      cfg.threads.map (·.call) ++ sched.filterMap Action.started := by
  induction sched generalizing cfg with
  | nil => simp only [exec_nil, List.filterMap_nil, List.append_nil]
  | cons a sched ih =>
      rw [exec_cons, ih]
      cases a with
      | spawn t =>
          simp only [Config.act, List.map_append, List.map_cons, List.map_nil,
            List.filterMap_cons, Action.started, List.append_assoc, List.singleton_append]
      | advance i env =>
          simp only [List.filterMap_cons, Action.started]
          rcases act_advance_cases perform code cfg i env with ⟨t, c, k, tr, hget⟩ | hsame
          · rw [act_advance_call perform code env hget]
            congr 1
            rw [List.map_set]
            -- Place by place: the stepped thread keeps its call, and the others stay.
            refine List.ext_getElem? (fun j => ?_)
            rw [List.getElem?_set]
            split
            · next hij =>
                subst hij
                rw [List.getElem?_map, hget]
                have hlt : i < (cfg.threads.map (·.call)).length := by
                  rw [List.length_map]
                  exact (List.getElem?_eq_some_iff.mp hget).1
                rw [if_pos hlt]
                rfl
            · rfl
          · rw [hsame]

/-- The call of a thread was started by the schedule. -/
theorem exec_spawned (w : W) (sched : List (Action T Env)) :
    ∀ th ∈ ((Config.start w).exec perform code sched).threads, Action.spawn th.call ∈ sched := by
  intro th hth
  have hmem : th.call ∈ (((Config.start w).exec perform code sched).threads).map (·.call) :=
    List.mem_map.mpr ⟨th, hth, rfl⟩
  rw [exec_calls] at hmem
  rcases List.mem_filterMap.mp hmem with ⟨a, ha, hstarted⟩
  cases a with
  | spawn t =>
      rw [← Option.some.inj hstarted]
      exact ha
  | advance i env => exact absurd hstarted (by simp only [Action.started, reduceCtorEq,
      not_false_eq_true])

end Pool

/-- A way of reasoning about a pool one thread at a time: an invariant of the
    world, an order along which it only grows, and the environments each
    command may meet. -/
structure Discipline (C : Type) (R : C → Type) (Env W : Type) where
  perform : (c : C) → Env → W → R c × W
  inv : W → Prop
  le : W → W → Prop
  adm : (c : C) → Env → W → Prop
  refl : ∀ w, le w w
  trans : ∀ {u v w}, le u v → le v w → le u w

namespace Discipline

variable {T C : Type} {R : C → Type} {E α β W Env : Type} (D : Discipline C R Env W)

/-- The program keeps the discipline from the world `w` on and ends in `Q`:
    in every larger world it may wake up in, its next command keeps the
    invariant, grows the world, and leaves a safe program. -/
def Safe (Q : Except E α → W → Prop) : Prog C R E α → W → Prop
  | .done a, w => Q (.ok a) w
  | .fail e, w => Q (.error e) w
  | .call c k, w => ∀ w', D.le w w' → D.inv w' → ∀ env, D.adm c env w' →
      D.inv (D.perform c env w').2 ∧ D.le w' (D.perform c env w').2 ∧
        Safe Q (k (D.perform c env w').1) (D.perform c env w').2

/-- A postcondition that survives growth of the world. -/
def Stable (Q : Except E α → W → Prop) : Prop :=
  ∀ r w w', D.le w w' → Q r w → Q r w'

theorem safe_grow {Q : Except E α → W → Prop} (hQ : D.Stable Q) {w w' : W}
    (hle : D.le w w') (p : Prog C R E α) (h : D.Safe Q p w) : D.Safe Q p w' := by
  cases p with
  | done a => exact hQ _ _ _ hle h
  | fail e => exact hQ _ _ _ hle h
  | call c k => exact fun v hv => h v (D.trans hle hv)

theorem safe_mono {Q Q' : Except E α → W → Prop} (hQ : ∀ r w, Q r w → Q' r w)
    (p : Prog C R E α) (w : W) (h : D.Safe Q p w) : D.Safe Q' p w := by
  induction p generalizing w with
  | done a => exact hQ _ _ h
  | fail e => exact hQ _ _ h
  | call c k ih =>
      intro w' hle hinv env hadm
      rcases h w' hle hinv env hadm with ⟨h1, h2, h3⟩
      -- The three parts hold of the first command; the last is the induction.
      exact ⟨h1, h2, ih _ _ h3⟩

/-- A sequence is safe when its first half is safe up to the value it returns
    and the second half is safe from there. -/
theorem safe_bind (Q : Except E β → W → Prop) (p : Prog C R E α) (f : α → Prog C R E β)
    (w : W) (h : D.Safe (fun r v => match r with
      | .ok a => D.Safe Q (f a) v
      | .error e => Q (.error e) v) p w) : D.Safe Q (p >>= f) w := by
  induction p generalizing w with
  | done a => exact h
  | fail e => exact h
  | call c k ih =>
      intro w' hle hinv env hadm
      rcases h w' hle hinv env hadm with ⟨h1, h2, h3⟩
      exact ⟨h1, h2, ih _ _ h3⟩

/-- A guarded body is safe when it is safe up to what it raises and the handler
    is safe from there. -/
theorem safe_tryCatch (Q : Except E α → W → Prop) (p : Prog C R E α)
    (g : E → Prog C R E α) (w : W) (h : D.Safe (fun r v => match r with
      | .ok a => Q (.ok a) v
      | .error e => D.Safe Q (g e) v) p w) : D.Safe Q (tryCatch p g) w := by
  induction p generalizing w with
  | done a => exact h
  | fail e => exact h
  | call c k ih =>
      intro w' hle hinv env hadm
      rcases h w' hle hinv env hadm with ⟨h1, h2, h3⟩
      exact ⟨h1, h2, ih _ _ h3⟩

/-- A program that is safe from a world satisfying the invariant ends in a
    larger one that does. -/
theorem safe_grown {Q : Except E α → W → Prop} (p : Prog C R E α) (w : W) (hinv : D.inv w)
    (h : D.Safe Q p w) : D.Safe (fun r v => Q r v ∧ D.inv v ∧ D.le w v) p w := by
  induction p generalizing w with
  | done a => exact ⟨h, hinv, D.refl w⟩
  | fail e => exact ⟨h, hinv, D.refl w⟩
  | call c k ih =>
      intro w' hle hinv' env hadm
      rcases h w' hle hinv' env hadm with ⟨h1, h2, h3⟩
      refine ⟨h1, h2, D.safe_mono (fun r v hr => ?_) _ _ (ih _ _ h1 h3)⟩
      -- Grown up to the command, by the command, and from there to the end.
      exact ⟨hr.1, hr.2.1, D.trans (D.trans hle h2) hr.2.2⟩

/-- The rule for a sequence: the second half starts where the first half left
    the world, which still satisfies the invariant and has only grown. -/
theorem safe_seq (Q' : Except E α → W → Prop) {Q : Except E β → W → Prop} {p : Prog C R E α}
    {f : α → Prog C R E β} {w : W} (hinv : D.inv w) (hp : D.Safe Q' p w)
    (hok : ∀ a v, Q' (.ok a) v → D.inv v → D.le w v → D.Safe Q (f a) v)
    (herr : ∀ e v, Q' (.error e) v → D.inv v → D.le w v → Q (.error e) v) :
    D.Safe Q (p >>= f) w := by
  refine D.safe_bind _ _ _ _ (D.safe_mono (fun r v hr => ?_) _ _ (D.safe_grown p w hinv hp))
  cases r with
  | ok a => exact hok a v hr.1 hr.2.1 hr.2.2
  | error e => exact herr e v hr.1 hr.2.1 hr.2.2

/-- A program whose every command keeps the discipline wherever it is issued is
    safe, with nothing said of how it ends. -/
theorem safe_of_issues {S : C → Prop}
    (hS : ∀ c, S c → ∀ env w, D.inv w → D.adm c env w →
      D.inv (D.perform c env w).2 ∧ D.le w (D.perform c env w).2)
    (p : Prog C R E α) (h : Prog.Issues S p) {Q : Except E α → W → Prop} (hQ : ∀ r w, Q r w)
    (w : W) : D.Safe Q p w := by
  induction p generalizing w with
  | done a => exact hQ _ _
  | fail e => exact hQ _ _
  | call c k ih =>
      intro w' _ hinv env hadm
      rcases hS c h.1 env w' hinv hadm with ⟨hinv', hle⟩
      exact ⟨hinv', hle, ih _ (h.2 _) _⟩

variable (A : T → Prop) (code : T → Prog C R E α)

/-- The action may be taken here: the call may be started, or the command about
    to be answered may meet this environment. -/
def Admits (cfg : Config T C R E α W) : Action T Env → Prop
  | .spawn t => A t
  | .advance i env => ∀ t c k tr, cfg.threads[i]? = some ⟨t, .call c k, tr⟩ →
      D.adm c env cfg.world

/-- Every action of the schedule is admissible where it is taken. -/
def Conforms : Config T C R E α W → List (Action T Env) → Prop
  | _, [] => True
  | cfg, a :: sched => D.Admits A cfg a ∧ Conforms (cfg.act D.perform code a) sched

/-- What a discipline maintains of a configuration: the invariant, the safety
    of every thread, and that every past command was answered in a world
    satisfying the invariant that has only grown since. -/
structure Sound (Q : T → Except E α → W → Prop) (cfg : Config T C R E α W) : Prop where
  world : D.inv cfg.world
  threads : ∀ th ∈ cfg.threads, A th.call ∧ D.Safe (Q th.call) th.rest cfg.world
  history : ∀ ev ∈ cfg.history, ∃ env v, D.inv v ∧ D.adm ev.2.cmd env v ∧
    (D.perform ev.2.cmd env v).1 = ev.2.answer ∧ D.le (D.perform ev.2.cmd env v).2 cfg.world

variable {A code} {Q : T → Except E α → W → Prop}

theorem start_sound {w : W} (h : D.inv w) : D.Sound A Q (Config.start w) where
  world := h
  threads := fun _ hth => absurd hth (List.not_mem_nil)
  history := fun _ hev => absurd hev (List.not_mem_nil)

/-- One admissible action keeps a configuration sound and grows its world. -/
theorem act_sound (hQ : ∀ t, D.Stable (Q t))
    (hcode : ∀ t, A t → ∀ w, D.inv w → D.Safe (Q t) (code t) w)
    {cfg : Config T C R E α W} (h : D.Sound A Q cfg) (a : Action T Env)
    (ha : D.Admits A cfg a) :
    D.Sound A Q (cfg.act D.perform code a) ∧
      D.le cfg.world (cfg.act D.perform code a).world := by
  cases a with
  | spawn t =>
      refine ⟨⟨h.world, fun th hth => ?_, h.history⟩, D.refl _⟩
      rcases List.mem_append.mp hth with hold | hnew
      · exact h.threads th hold
      · rw [List.mem_singleton.mp hnew]
        exact ⟨ha, hcode t ha _ h.world⟩
  | advance i env =>
      rcases act_advance_cases D.perform code cfg i env with ⟨t, c, k, tr, hget⟩ | hsame
      · rw [act_advance_call D.perform code env hget]
        have hadm := ha t c k tr hget
        have hth := h.threads _ (List.mem_of_getElem? hget)
        -- A safe thread keeps the invariant wherever it wakes up, so here too.
        rcases hth.2 cfg.world (D.refl _) h.world env hadm with ⟨hinv, hle, hsafe⟩
        refine ⟨⟨hinv, fun th hmem => ?_, fun ev hev => ?_⟩, hle⟩
        · -- The advanced thread took its own step; the others only saw growth.
          rcases List.mem_or_eq_of_mem_set hmem with hold | hnew
          · exact ⟨(h.threads th hold).1,
              D.safe_grow (hQ _) hle _ (h.threads th hold).2⟩
          · rw [hnew]
            exact ⟨hth.1, hsafe⟩
        · -- A past answer was given in a world that has grown since; the new one just now.
          rcases List.mem_append.mp hev with hold | hnew
          · rcases h.history ev hold with ⟨e, v, h1, h2, h3, h4⟩
            exact ⟨e, v, h1, h2, h3, D.trans h4 hle⟩
          · rw [List.mem_singleton.mp hnew]
            exact ⟨env, cfg.world, h.world, hadm, rfl, D.refl _⟩
      · rw [hsame]
        exact ⟨h, D.refl _⟩

/-- Every conforming schedule keeps a configuration sound and grows its
    world. -/
theorem exec_sound (hQ : ∀ t, D.Stable (Q t))
    (hcode : ∀ t, A t → ∀ w, D.inv w → D.Safe (Q t) (code t) w)
    (sched : List (Action T Env)) (cfg : Config T C R E α W) (h : D.Sound A Q cfg)
    (hs : D.Conforms A code cfg sched) :
    D.Sound A Q (cfg.exec D.perform code sched) ∧
      D.le cfg.world (cfg.exec D.perform code sched).world := by
  induction sched generalizing cfg with
  | nil => exact ⟨h, D.refl _⟩
  | cons a sched ih =>
      rcases D.act_sound hQ hcode h a hs.1 with ⟨hact, hle⟩
      rcases ih _ hact hs.2 with ⟨hrest, hle'⟩
      exact ⟨hrest, D.trans hle hle'⟩

/-- A schedule conforms when its calls may be started and its environments are
    admissible for every command everywhere. -/
theorem conforms_of_forall (hadm : Env → Prop) (hD : ∀ c env w, hadm env → D.adm c env w)
    (sched : List (Action T Env)) (hA : ∀ t, .spawn t ∈ sched → A t)
    (hE : ∀ i env, .advance i env ∈ sched → hadm env) (cfg : Config T C R E α W) :
    D.Conforms A code cfg sched := by
  induction sched generalizing cfg with
  | nil => trivial
  | cons a sched ih =>
      refine ⟨?_, ih (fun t ht => hA t (List.mem_cons_of_mem _ ht))
        (fun i env hi => hE i env (List.mem_cons_of_mem _ hi)) _⟩
      cases a with
      | spawn t => exact hA t List.mem_cons_self
      | advance i env => exact fun _ c _ _ _ => hD c env _ (hE i env List.mem_cons_self)

end Discipline

end Core

end Asante
