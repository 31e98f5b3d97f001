import Asante.Core.Pool

/-!
# Contracts

What a program may ask of the commands and what it may expect of their answers,
and the runs in which both sides keep to it.

A contract says what a program has to know before it issues a command, what the
answer of a command satisfies, and an invariant of the world under which
every command that is asked for within the contract answers within it. A
program `Yields` a postcondition when it keeps its side and ends in the
postcondition as long as the commands keep theirs. That is a fact about the
tree alone: no world and no schedule is mentioned, so it composes like a
typing, with one rule for each way of putting programs together.

`exec_yields` is what the two sides are worth together: in every run of
programs that keep to a contract the invariant holds, and whatever a thread
returned satisfies its postcondition.

## Main definitions

* `Contract`: What may be asked, what is answered, and the invariant behind it.
* `Yields`: A program keeps to a contract and ends in a postcondition.

## Theorems

* `yields_bind`, `yields_tryCatch`, `yields_mono`: The rules for compound programs.
* `yields_of_issues`: Programs that ask for nothing that needs knowing.
* `exec_yields`: The soundness of a contract.
-/

namespace Asante

namespace Core

/-- What commands require and ensure, with the invariant that makes them do so
    in the environments they may meet. -/
structure Contract (C : Type) (R : C → Type) (Env W : Type) where
  perform : (c : C) → Env → W → R c × W
  requires : C → Prop
  ensures : (c : C) → R c → Prop
  inv : W → Prop
  adm : Env → Prop
  kept : ∀ c env w, requires c → adm env → inv w →
    ensures c (perform c env w).1 ∧ inv (perform c env w).2

namespace Contract

variable {T C : Type} {R : C → Type} {E α β W Env : Type} (K : Contract C R Env W)

/-- The program asks only for what it may, and what it returns satisfies `Q`, as
    long as every answer is as ensured. -/
def Yields (Q : α → Prop) : Prog C R E α → Prop
  | .done a => Q a
  | .fail _ => True
  | .call c k => K.requires c ∧ ∀ r, K.ensures c r → Yields Q (k r)

theorem yields_mono {Q Q' : α → Prop} (hQ : ∀ a, Q a → Q' a) {p : Prog C R E α}
    (h : K.Yields Q p) : K.Yields Q' p := by
  induction p with
  | done a => exact hQ a h
  | fail e => trivial
  | call c k ih => exact ⟨h.1, fun r hr => ih r (h.2 r hr)⟩

/-- A sequence yields what its second half does, for every value the first half
    may return. -/
theorem yields_bind {P : α → Prop} {Q : β → Prop} {p : Prog C R E α} {f : α → Prog C R E β}
    (hp : K.Yields P p) (hf : ∀ a, P a → K.Yields Q (f a)) : K.Yields Q (p >>= f) := by
  induction p with
  | done a => exact hf a hp
  | fail e => trivial
  | call c k ih => exact ⟨hp.1, fun r hr => ih r (hp.2 r hr)⟩

/-- A guarded body yields what both the body and its handler do. -/
theorem yields_tryCatch {Q : α → Prop} {p : Prog C R E α} {g : E → Prog C R E α}
    (hp : K.Yields Q p) (hg : ∀ e, K.Yields Q (g e)) : K.Yields Q (tryCatch p g) := by
  induction p with
  | done a => exact hp
  | fail e => exact hg e
  | call c k ih => exact ⟨hp.1, fun r hr => ih r (hp.2 r hr)⟩

/-- A program that asks for nothing that needs knowing keeps to the contract,
    with nothing said of what it returns. -/
theorem yields_of_issues {p : Prog C R E α} (h : p.Issues K.requires) :
    K.Yields (fun _ => True) p := by
  induction p with
  | done a => trivial
  | fail e => trivial
  | call c k ih => exact ⟨h.1, fun r _ => ih r (h.2 r)⟩

/-- In every run of programs that keep to the contract, in environments they may
    meet, the invariant holds, and what is left of every thread still yields its
    postcondition. -/
theorem exec_yields (code : T → Prog C R E α) (Q : T → α → Prop) {w : W} (hw : K.inv w)
    (sched : List (Action T Env))
    (hcalls : ∀ t, .spawn t ∈ sched → K.Yields (Q t) (code t))
    (henvs : ∀ i env, .advance i env ∈ sched → K.adm env) :
    K.inv ((Config.start w).exec K.perform code sched).world ∧
      ∀ th ∈ ((Config.start w).exec K.perform code sched).threads,
        K.Yields (Q th.call) th.rest := by
  have hrun : ∀ (sched : List (Action T Env)) (cfg : Config T C R E α W),
      (∀ t, .spawn t ∈ sched → K.Yields (Q t) (code t)) →
      (∀ i env, .advance i env ∈ sched → K.adm env) →
      K.inv cfg.world ∧ (∀ th ∈ cfg.threads, K.Yields (Q th.call) th.rest) →
      K.inv (cfg.exec K.perform code sched).world ∧
        ∀ th ∈ (cfg.exec K.perform code sched).threads, K.Yields (Q th.call) th.rest := by
    intro sched
    induction sched with
    | nil => exact fun cfg _ _ h => h
    | cons a sched ih =>
        intro cfg hcalls henvs hcfg
        rw [exec_cons]
        refine ih _ (fun t hmem => hcalls t (List.mem_cons_of_mem _ hmem))
          (fun i env hmem => henvs i env (List.mem_cons_of_mem _ hmem)) ?_
        cases a with
        | spawn t =>
            refine ⟨hcfg.1, fun th hth => ?_⟩
            rcases List.mem_append.mp hth with hold | hnew
            · exact hcfg.2 th hold
            · rw [List.mem_singleton.mp hnew]
              exact hcalls t List.mem_cons_self
        | advance i env =>
            rcases act_advance_cases K.perform code cfg i env with ⟨t, c, k, tr, hget⟩ | hsame
            · rw [act_advance_call K.perform code env hget]
              have hthread := hcfg.2 _ (List.mem_of_getElem? hget)
              -- The command is asked for within the contract, and answers within it.
              rcases K.kept c env cfg.world hthread.1 (henvs i env List.mem_cons_self) hcfg.1 with
                ⟨hensures, hinv⟩
              refine ⟨hinv, fun th hth => ?_⟩
              rcases List.mem_or_eq_of_mem_set hth with hold | rfl
              · exact hcfg.2 th hold
              · exact hthread.2 _ hensures
            · rw [hsame]
              exact hcfg
  exact hrun sched (Config.start w) hcalls henvs ⟨hw, fun th hth => absurd hth List.not_mem_nil⟩

end Contract

end Core

end Asante
