import Asante.Core.Pool
import Mathlib.Data.List.Chain

/-!
# Conflicts Between Programs

Programs that look before they write, running side by side without a lock
between them. A write relies on what the program has seen; it is lost when
another write comes in between.

An `Isolation` says what each command relies on, which commands conflict, and
that a command that does not conflict with another leaves alone what that other
relies on. A program is `Guarded` when whatever it is answered, its next command
finds what it relies on. A schedule is undisturbed when no command changes the world
while another thread stands before a conflicting one. Then every command of the run
finds what it relies on, and the worlds of the run are a chain of the steps such
commands take.

## Main definitions

* `Isolation`: What commands rely on, and which of them conflict.
* `Guarded`: A program that has looked before it writes.
* `Undisturbed`: A schedule without a conflicting write in between.
* `worlds`: The worlds of a run.

## Theorems

* `act_guarded`: One undisturbed action keeps all threads guarded.
* `worlds_chain`: The worlds of an undisturbed run are a chain of steps.
-/

namespace Asante

namespace Core

/-- What each command relies on, and which commands conflict: a command that finds
    what it relies on keeps the invariant, and what a command relies on that it
    does not conflict with. -/
structure Isolation (C : Type) (R : C → Type) (Env W : Type) where
  perform : (c : C) → Env → W → R c × W
  inv : W → Prop
  needs : C → W → Prop
  conflicts : C → C → Prop
  keeps : ∀ c env w, inv w → needs c w → inv (perform c env w).2
  frame : ∀ c c' env w, inv w → needs c w → needs c' w → ¬ conflicts c c' →
    needs c' (perform c env w).2

namespace Isolation

variable {T C : Type} {R : C → Type} {E α W Env : Type} (I : Isolation C R Env W)

/-- The next command of the program finds what it relies on, and whatever it is
    answered once it does, so will the rest. -/
def Guarded : Prog C R E α → W → Prop
  | .done _, _ => True
  | .fail _, _ => True
  | .call c k, w => I.needs c w ∧ ∀ env w', I.inv w' → I.needs c w' →
      Guarded (k (I.perform c env w').1) (I.perform c env w').2

variable (code : T → Prog C R E α)

/-- Where the answer changes the world, no thread other than the one that is
    answered stands before a conflicting command. -/
def Clear (cfg : Config T C R E α W) : Action T Env → Prop
  | .spawn _ => True
  | .advance i env => ∀ t c k tr, cfg.threads[i]? = some ⟨t, .call c k, tr⟩ →
      (I.perform c env cfg.world).2 ≠ cfg.world →
      ∀ j, j ≠ i → ∀ t' c' k' tr', cfg.threads[j]? = some ⟨t', .call c' k', tr'⟩ →
        ¬ I.conflicts c c'

/-- Every action of the schedule is clear where it is taken. -/
def Undisturbed : Config T C R E α W → List (Action T Env) → Prop
  | _, [] => True
  | cfg, a :: sched => I.Clear cfg a ∧ Undisturbed (cfg.act I.perform code a) sched

/-- The worlds of a run, the first included. -/
def worlds (cfg : Config T C R E α W) (sched : List (Action T Env)) : List W :=
  (sched.scanl (Config.act I.perform code) cfg).map (·.world)

/-- The invariant holds and every thread is guarded. -/
structure Isolated (cfg : Config T C R E α W) : Prop where
  world : I.inv cfg.world
  threads : ∀ th ∈ cfg.threads, I.Guarded th.rest cfg.world

variable {I}

/-- What leaves the world as it is, or does not conflict with the next command of a
    program, leaves it guarded. -/
theorem guarded_frame {c : C} {env : Env} {w : W} (hinv : I.inv w) (hneeds : I.needs c w)
    {p : Prog C R E α} (hp : I.Guarded p w)
    (hclear : (I.perform c env w).2 ≠ w → ∀ c' k, p = .call c' k → ¬ I.conflicts c c') :
    I.Guarded p (I.perform c env w).2 := by
  by_cases hsame : (I.perform c env w).2 = w
  · rw [hsame]
    exact hp
  · cases p with
    | done a => trivial
    | fail e => trivial
    | call c' k => exact ⟨I.frame c c' env w hinv hneeds hp.1 (hclear hsame c' k rfl), hp.2⟩

variable {code}

/-- A clear action keeps the threads guarded, and is one step of the world or
    none. -/
theorem act_guarded {S : W → W → Prop} (hrefl : ∀ w, S w w)
    (hstep : ∀ c env w, I.inv w → I.needs c w → S w (I.perform c env w).2)
    (hcode : ∀ t w, I.inv w → I.Guarded (code t) w) {cfg : Config T C R E α W}
    (h : I.Isolated cfg) {a : Action T Env} (hclear : I.Clear cfg a) :
    I.Isolated (cfg.act I.perform code a) ∧ S cfg.world (cfg.act I.perform code a).world := by
  cases a with
  | spawn t =>
      refine ⟨⟨h.world, fun th hth => ?_⟩, hrefl _⟩
      rcases List.mem_append.mp hth with hold | hnew
      · exact h.threads th hold
      · rw [List.mem_singleton.mp hnew]
        exact hcode t _ h.world
  | advance i env =>
      rcases act_advance_cases I.perform code cfg i env with ⟨t, c, k, tr, hget⟩ | hsame
      · rw [act_advance_call I.perform code env hget]
        have hguarded := h.threads _ (List.mem_of_getElem? hget)
        refine ⟨⟨I.keeps c env _ h.world hguarded.1, fun th hth => ?_⟩,
          hstep c env _ h.world hguarded.1⟩
        rcases List.mem_iff_getElem?.mp hth with ⟨j, hj⟩
        by_cases hij : i = j
        · -- The thread that was answered is guarded by what it saw.
          rw [← hij, List.getElem?_set_self (List.getElem?_eq_some_iff.mp hget).1] at hj
          rw [← Option.some.inj hj]
          exact hguarded.2 env _ h.world hguarded.1
        · rw [List.getElem?_set_ne hij] at hj
          refine guarded_frame h.world hguarded.1 (h.threads th (List.mem_of_getElem? hj))
            fun hchange c' k' hrest => ?_
          have hthread : cfg.threads[j]? = some ⟨th.call, .call c' k', th.trace⟩ := by
            rw [hj, ← hrest]
          exact hclear t c k tr hget hchange j (Ne.symm hij) th.call c' k' th.trace hthread
      · rw [hsame]
        exact ⟨h, hrefl _⟩

/-- The first world of a run is the one it starts in. -/
theorem worlds_start (code : T → Prog C R E α) (cfg : Config T C R E α W)
    (sched : List (Action T Env)) : ∃ rest, I.worlds code cfg sched = cfg.world :: rest := by
  unfold worlds
  cases sched with
  | nil => exact ⟨[], rfl⟩
  | cons a sched =>
      rw [List.scanl_cons, List.map_cons]
      exact ⟨_, rfl⟩

/-- The worlds of an undisturbed run are a chain of the steps that commands take
    where they find what they rely on. -/
theorem worlds_chain {S : W → W → Prop} (hrefl : ∀ w, S w w)
    (hstep : ∀ c env w, I.inv w → I.needs c w → S w (I.perform c env w).2)
    (hcode : ∀ t w, I.inv w → I.Guarded (code t) w) (sched : List (Action T Env))
    {cfg : Config T C R E α W} (h : I.Isolated cfg) (hs : I.Undisturbed code cfg sched) :
    (I.worlds code cfg sched).IsChain S := by
  induction sched generalizing cfg with
  | nil => exact .singleton _
  | cons a sched ih =>
      rcases act_guarded hrefl hstep hcode h hs.1 with ⟨hact, hworld⟩
      have hrest := ih hact hs.2
      unfold worlds at hrest ⊢
      rw [List.scanl_cons, List.map_cons, List.isChain_cons]
      refine ⟨fun next hnext => ?_, hrest⟩
      -- The next world is the one this action left.
      rw [List.head?_map, List.head?_scanl, Option.map_some] at hnext
      rw [← Option.some.inj hnext]
      exact hworld

end Isolation

end Core

end Asante
