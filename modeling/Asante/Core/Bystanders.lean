import Asante.Core.Contract
import Asante.Core.Refinement

/-!
# Bystanders

Calls of a pool that might as well have been left standing where they were
started. A `Division` splits what programs do in two. What is seen of the world
decides the answers of the commands on the one side and what is seen afterwards;
the commands on the other side leave what is seen as it is. Which side a command
is on may depend on what its program was told, so either side has a contract of
its own with the commands: what is asked for, what is answered, and the
environments that are met. The invariant of the world is behind both.

In a run without the bystanders, the calls are started as before and only those
of the one side are answered. They do not notice: what was left of them, what
they had done and what is seen are the same (`bystanders_unnoticed`).

## Main definitions

* `Side`, `Division`: The two sides of a world.
* `silence`: A schedule without the answers to the bystanders.
* `Alongside`: A run and the one without the bystanders at one moment.

## Theorems

* `alongside_spawn`, `alongside_mine`, `alongside_theirs`: The three actions.
* `bystanders_unnoticed`: A run without the bystanders is the same to the others.
-/

namespace Asante

namespace Core

variable {T C : Type} {R : C → Type} {E α W Env V : Type}

/-- What the programs of one side ask for, what they are answered, and the
    environments they meet. -/
structure Side (C : Type) (R : C → Type) (Env : Type) where
  requires : C → Prop
  ensures : (c : C) → R c → Prop
  adm : Env → Prop

/-- A world of which one side sees a part and the other side leaves that part
    alone. -/
structure Division (perform : (c : C) → Env → W → R c × W) (V : Type) where
  inv : W → Prop
  view : W → V
  mine : Side C R Env
  theirs : Side C R Env
  kept_mine : ∀ c env w, mine.requires c → mine.adm env → inv w →
    mine.ensures c (perform c env w).1 ∧ inv (perform c env w).2
  kept_theirs : ∀ c env w, theirs.requires c → theirs.adm env → inv w →
    theirs.ensures c (perform c env w).1 ∧ inv (perform c env w).2
  same : ∀ c env v w, mine.requires c → mine.adm env → inv v → inv w → view v = view w →
    (perform c env v).1 = (perform c env w).1 ∧
      view (perform c env v).2 = view (perform c env w).2
  apart : ∀ c env w, theirs.requires c → theirs.adm env → inv w →
    view (perform c env w).2 = view w

namespace Division

variable {perform : (c : C) → Env → W → R c × W} (D : Division perform V)

/-- The contract of the side that sees. -/
def ofMine : Contract C R Env W :=
  { perform := perform
    requires := D.mine.requires
    ensures := D.mine.ensures
    inv := D.inv
    adm := D.mine.adm
    kept := D.kept_mine }

/-- The contract of the bystanders. -/
def ofTheirs : Contract C R Env W :=
  { perform := perform
    requires := D.theirs.requires
    ensures := D.theirs.ensures
    inv := D.inv
    adm := D.theirs.adm
    kept := D.kept_theirs }

/-- A schedule that answers only the threads with these numbers. -/
def silence (who : Nat → Bool) (sched : List (Action T Env)) : List (Action T Env) :=
  sched.filter fun a =>
    match a with
    | .spawn _ => true
    | .advance i _ => who i

/-- The environments of a schedule are those the two sides may meet. -/
def Admits (who : Nat → Bool) (sched : List (Action T Env)) : Prop :=
  ∀ i env, .advance i env ∈ sched →
    (who i = true → D.mine.adm env) ∧ (who i = false → D.theirs.adm env)

/-- The two runs at one moment: the same is seen, and the threads of the one side
    are the same. -/
structure Alongside (who : Nat → Bool) (cfg alone : Config T C R E α W) : Prop where
  inv : D.inv cfg.world
  invAlone : D.inv alone.world
  view : D.view cfg.world = D.view alone.world
  length : cfg.threads.length = alone.threads.length
  mine : ∀ i th, cfg.threads[i]? = some th → who i = true →
    alone.threads[i]? = some th ∧ D.ofMine.Yields (fun _ => True) th.rest
  theirs : ∀ i th, cfg.threads[i]? = some th → who i = false →
    D.ofTheirs.Yields (fun _ => True) th.rest

variable {D} {code : T → Prog C R E α} {relevant : T → Bool} {who : Nat → Bool}
  {cfg alone : Config T C R E α W}

/-- Starting a call starts it in both runs. -/
theorem alongside_spawn (h : D.Alongside who cfg alone) (t : T)
    (hwho : who cfg.threads.length = relevant t)
    (hmine : relevant t = true → D.ofMine.Yields (fun _ => True) (code t))
    (htheirs : relevant t = false → D.ofTheirs.Yields (fun _ => True) (code t)) :
    D.Alongside who (cfg.act perform code (.spawn t : Action T Env))
      (alone.act perform code (.spawn t : Action T Env)) := by
  have hnew := changes_append cfg.threads ⟨t, code t, []⟩
  have hnew' := changes_append alone.threads ⟨t, code t, []⟩
  rw [← h.length] at hnew'
  refine ⟨h.inv, h.invAlone, h.view, ?_, fun i th hget hi => ?_, fun i th hget hi => ?_⟩
  · exact (List.length_append.trans (congrArg (· + 1) h.length)).trans List.length_append.symm
  · by_cases hlast : i = cfg.threads.length
    · subst hlast
      rw [← Option.some.inj (hnew.here.symm.trans hget)]
      exact ⟨hnew'.here, hmine (hwho.symm.trans hi)⟩
    · rcases h.mine i th ((hnew.others i hlast).symm.trans hget) hi with ⟨hsame, hyields⟩
      exact ⟨(hnew'.others i hlast).trans hsame, hyields⟩
  · by_cases hlast : i = cfg.threads.length
    · subst hlast
      rw [← Option.some.inj (hnew.here.symm.trans hget)]
      exact htheirs (hwho.symm.trans hi)
    · exact h.theirs i th ((hnew.others i hlast).symm.trans hget) hi

/-- Answering a thread of the one side answers it in both runs. -/
theorem alongside_mine (h : D.Alongside who cfg alone) {i : Nat} (hi : who i = true) {env : Env}
    (hadm : D.mine.adm env) :
    D.Alongside who (cfg.act perform code (.advance i env))
      (alone.act perform code (.advance i env)) := by
  rcases hget : cfg.threads[i]? with _ | ⟨t, p, tr⟩
  · -- There is no such thread in either run.
    have hget' : alone.threads[i]? = none := by
      rw [List.getElem?_eq_none_iff, ← h.length]
      exact List.getElem?_eq_none_iff.mp hget
    simp only [Config.act, hget, hget']
    exact h
  · rcases h.mine i _ hget hi with ⟨hget', hyields⟩
    cases p with
    | done a =>
        simp only [Config.act, hget, hget']
        exact h
    | fail e =>
        simp only [Config.act, hget, hget']
        exact h
    | call c k =>
        rcases hyields with ⟨hc, hk⟩
        rcases D.kept_mine c env cfg.world hc hadm h.inv with ⟨hensures, hinv⟩
        have hinv' := (D.kept_mine c env alone.world hc hadm h.invAlone).2
        rcases D.same c env cfg.world alone.world hc hadm h.inv h.invAlone h.view with
          ⟨hanswer, hview⟩
        rw [act_advance_call perform code env hget, act_advance_call perform code env hget',
          ← hanswer]
        have hlt : i < cfg.threads.length := (List.getElem?_eq_some_iff.mp hget).1
        have hset := changes_set hlt
          (⟨t, k (perform c env cfg.world).1, tr ++ [⟨c, (perform c env cfg.world).1⟩]⟩ :
            Thread T C R E α)
        have hset' := changes_set (h.length ▸ hlt)
          (⟨t, k (perform c env cfg.world).1, tr ++ [⟨c, (perform c env cfg.world).1⟩]⟩ :
            Thread T C R E α)
        refine ⟨hinv, hinv', hview, ?_, fun j th hj hwho => ?_, fun j th hj hwho => ?_⟩
        · exact List.length_set.trans (h.length.trans List.length_set.symm)
        · by_cases hij : j = i
          · subst hij
            rw [← Option.some.inj (hset.here.symm.trans hj)]
            exact ⟨hset'.here, hk _ hensures⟩
          · rcases h.mine j th ((hset.others j hij).symm.trans hj) hwho with ⟨hsame, hyields⟩
            exact ⟨(hset'.others j hij).trans hsame, hyields⟩
        · have hij : j ≠ i := by
            rintro rfl
            rw [hi] at hwho
            exact absurd hwho Bool.noConfusion
          exact h.theirs j th ((hset.others j hij).symm.trans hj) hwho

/-- Answering a bystander makes no difference to the others. -/
theorem alongside_theirs (h : D.Alongside who cfg alone) {i : Nat} (hi : who i = false) {env : Env}
    (hadm : D.theirs.adm env) :
    D.Alongside who (cfg.act perform code (.advance i env)) alone := by
  rcases act_advance_cases perform code cfg i env with ⟨t, c, k, tr, hget⟩ | hsame
  · rcases h.theirs i _ hget hi with ⟨hc, hk⟩
    rcases D.kept_theirs c env cfg.world hc hadm h.inv with ⟨hensures, hinv⟩
    have hview := D.apart c env cfg.world hc hadm h.inv
    rw [act_advance_call perform code env hget]
    have hset := changes_set (List.getElem?_eq_some_iff.mp hget).1
      (⟨t, k (perform c env cfg.world).1, tr ++ [⟨c, (perform c env cfg.world).1⟩]⟩ :
        Thread T C R E α)
    refine ⟨hinv, h.invAlone, hview.trans h.view, List.length_set.trans h.length,
      fun j th hj hwho => ?_, fun j th hj hwho => ?_⟩
    · have hij : j ≠ i := by
        rintro rfl
        rw [hi] at hwho
        exact absurd hwho Bool.noConfusion
      exact h.mine j th ((hset.others j hij).symm.trans hj) hwho
    · by_cases hij : j = i
      · subst hij
        rw [← Option.some.inj (hset.here.symm.trans hj)]
        exact hk _ hensures
      · exact h.theirs j th ((hset.others j hij).symm.trans hj) hwho
  · rw [hsame]
    exact h

/-- Every action of a schedule keeps the two runs alongside. The calls are numbered
    as they are started, so the numbers of those to come are known. -/
theorem alongside_exec (hmine : ∀ t, relevant t = true → D.ofMine.Yields (fun _ => True) (code t))
    (htheirs : ∀ t, relevant t = false → D.ofTheirs.Yields (fun _ => True) (code t))
    (sched : List (Action T Env)) {cfg alone : Config T C R E α W} (seen : List T)
    (h : D.Alongside who cfg alone) (hseen : seen.length = cfg.threads.length)
    (hwho : ∀ i t, (seen ++ sched.filterMap Action.started)[i]? = some t → who i = relevant t)
    (hadm : D.Admits who sched) :
    D.Alongside who (cfg.exec perform code sched)
      (alone.exec perform code (silence who sched)) := by
  induction sched generalizing cfg alone seen with
  | nil => exact h
  | cons a sched ih =>
      have hrest : D.Admits who sched := fun i env hmem => hadm i env (List.mem_cons_of_mem _ hmem)
      cases a with
      | spawn t =>
          have hnext : who cfg.threads.length = relevant t := by
            refine hwho _ t ?_
            rw [← hseen, List.getElem?_append_right (Nat.le_refl _), Nat.sub_self]
            rfl
          refine ih (seen ++ [t]) (alongside_spawn h t hnext (hmine t) (htheirs t)) ?_ ?_
            hrest
          · change (seen ++ [t]).length = (cfg.threads ++ [_]).length
            rw [List.length_append, List.length_append, hseen]
            rfl
          · intro i t' hget
            rw [List.append_assoc] at hget
            exact hwho i t' hget
      | advance i env =>
          rcases hadm i env List.mem_cons_self with ⟨hmineAdm, htheirsAdm⟩
          have hlength : ∀ cfg : Config T C R E α W,
              (cfg.act perform code (.advance i env)).threads.length = cfg.threads.length := by
            intro cfg
            rcases act_advance_cases perform code cfg i env with ⟨t, c, k, tr, hget⟩ | hsame
            · rw [act_advance_call perform code env hget]
              exact List.length_set
            · rw [hsame]
          cases hi : who i with
          | true =>
              have hkept : silence who (.advance i env :: sched) =
                  .advance i env :: silence who sched := List.filter_cons_of_pos hi
              rw [hkept]
              exact ih seen (alongside_mine h hi (hmineAdm hi)) (hseen.trans (hlength cfg).symm)
                hwho hrest
          | false =>
              have hdropped : silence who (.advance i env :: sched) = silence who sched :=
                List.filter_cons_of_neg (by
                  simp only [hi, Bool.false_eq_true, not_false_eq_true])
              rw [hdropped]
              exact ih seen (alongside_theirs h hi (htheirsAdm hi)) (hseen.trans (hlength cfg).symm)
                hwho hrest

/-- Whether the call with this number is relevant. -/
def concerned (relevant : T → Bool) (sched : List (Action T Env)) (i : Nat) : Bool :=
  ((sched.filterMap Action.started)[i]?).any relevant

/-- A run in which the bystanders are never answered is the same to the others:
    what is seen of the world is, and so is every one of their threads. -/
theorem bystanders_unnoticed
    (hmine : ∀ t, relevant t = true → D.ofMine.Yields (fun _ => True) (code t))
    (htheirs : ∀ t, relevant t = false → D.ofTheirs.Yields (fun _ => True) (code t)) {w : W}
    (hw : D.inv w) (sched : List (Action T Env))
    (hadm : D.Admits (concerned relevant sched) sched) :
    D.view ((Config.start w).exec perform code sched).world =
        D.view ((Config.start w).exec perform code
          (silence (concerned relevant sched) sched)).world ∧
      ∀ (i : Nat) (th : Thread T C R E α),
        ((Config.start w).exec perform code sched).threads[i]? = some th → relevant th.call = true →
        ((Config.start w).exec perform code
          (silence (concerned relevant sched) sched)).threads[i]? = some th := by
  have hstart : D.Alongside (concerned relevant sched) (Config.start w : Config T C R E α W)
      (Config.start w) := by
    refine ⟨hw, hw, rfl, rfl, fun i th hget => ?_, fun i th hget => ?_⟩
    · exact absurd hget (by simp only [Config.start, List.getElem?_nil, reduceCtorEq,
        not_false_eq_true])
    · exact absurd hget (by simp only [Config.start, List.getElem?_nil, reduceCtorEq,
        not_false_eq_true])
  have hcalls : ∀ i t, (sched.filterMap Action.started)[i]? = some t →
      concerned relevant sched i = relevant t := by
    intro i t hget
    unfold concerned
    rw [hget]
    rfl
  have hend := alongside_exec hmine htheirs sched [] hstart rfl hcalls hadm
  refine ⟨hend.view, fun i th hget hrelevant => (hend.mine i th hget ?_).1⟩
  -- The thread is that of the call with its number.
  have hcall : (((Config.start w).exec perform code sched).threads.map (·.call))[i]? =
      some th.call := by
    rw [List.getElem?_map, hget]
    rfl
  rw [exec_calls] at hcall
  exact (hcalls i _ hcall).trans hrelevant

end Division

end Core

end Asante
