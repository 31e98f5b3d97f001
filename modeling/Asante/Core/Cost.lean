import Asante.Core.Program
import Mathlib.Algebra.Order.Group.Defs
import Mathlib.Algebra.BigOperators.Group.List.Basic

/-!
# Cost of Programs

What the commands of a program may cost together, when every command has a cost
of its own. The bound holds however the commands are answered, and it holds of a
program that is still running as well as of one that has ended: the commands it
has issued so far are a walk, and every walk costs at most the bound.

The costs are taken from any ordered group, so that calls are counted and
durations are added by the same rules.

## Main definitions

* `CostLe`: The commands of a program cost at most an amount.

## Theorems

* `costLe_bind`, `costLe_tryCatch`: The cost of a compound program.
* `costLe_seq`, `costLe_then`: A program after or before one that costs nothing.
* `costLe_of_issues`: A program whose commands are free.
* `costLe_walks`: What a walk has cost.
-/

namespace Asante

namespace Core

namespace Prog

variable {C : Type} {R : C → Type} {E α β : Type} {M : Type} [AddCommGroup M] [PartialOrder M]
  [IsOrderedAddMonoid M] {cost : C → M}

/-- The commands of the program cost at most `n`, however they are answered. -/
def CostLe (cost : C → M) : Prog C R E α → M → Prop
  | done _, n => 0 ≤ n
  | fail _, n => 0 ≤ n
  | call c k, n => 0 ≤ cost c ∧ cost c ≤ n ∧ ∀ r, CostLe cost (k r) (n - cost c)

omit [IsOrderedAddMonoid M] in
theorem costLe_nonneg {p : Prog C R E α} {n : M} (h : CostLe cost p n) : 0 ≤ n := by
  cases p with
  | done a => exact h
  | fail e => exact h
  | call c k => exact h.1.trans h.2.1

theorem costLe_mono {p : Prog C R E α} {m n : M} (hmn : m ≤ n) (h : CostLe cost p m) :
    CostLe cost p n := by
  induction p generalizing m n with
  | done a => exact le_trans h hmn
  | fail e => exact le_trans h hmn
  | call c k ih =>
      exact ⟨h.1, h.2.1.trans hmn, fun r => ih r (sub_le_sub_right hmn _) (h.2.2 r)⟩

/-- The cost of a sequence is at most the sum of the costs of its halves. -/
theorem costLe_bind {p : Prog C R E α} {f : α → Prog C R E β} {n m : M} (hm : 0 ≤ m)
    (hp : CostLe cost p n) (hf : ∀ a, CostLe cost (f a) m) : CostLe cost (p >>= f) (n + m) := by
  induction p generalizing n with
  | done a => exact costLe_mono (le_add_of_nonneg_left hp) (hf a)
  | fail e => exact add_nonneg hp hm
  | call c k ih =>
      refine ⟨hp.1, hp.2.1.trans (le_add_of_nonneg_right hm), fun r => ?_⟩
      -- The command is charged to the first half.
      rw [add_sub_right_comm]
      exact ih r (hp.2.2 r)

theorem costLe_tryCatch {p : Prog C R E α} {g : E → Prog C R E α} {n m : M} (hm : 0 ≤ m)
    (hp : CostLe cost p n) (hg : ∀ e, CostLe cost (g e) m) :
    CostLe cost (tryCatch p g) (n + m) := by
  induction p generalizing n with
  | done a => exact add_nonneg hp hm
  | fail e => exact costLe_mono (le_add_of_nonneg_left hp) (hg e)
  | call c k ih =>
      refine ⟨hp.1, hp.2.1.trans (le_add_of_nonneg_right hm), fun r => ?_⟩
      rw [add_sub_right_comm]
      exact ih r (hp.2.2 r)

/-- What comes before at no cost does not count. -/
theorem costLe_seq {p : Prog C R E α} {f : α → Prog C R E β} {n : M} (hn : 0 ≤ n)
    (hp : CostLe cost p 0) (hf : ∀ a, CostLe cost (f a) n) : CostLe cost (p >>= f) n := by
  rw [← zero_add n]
  exact costLe_bind hn hp hf

/-- What comes after at no cost does not count. -/
theorem costLe_then {p : Prog C R E α} {f : α → Prog C R E β} {n : M}
    (hp : CostLe cost p n) (hf : ∀ a, CostLe cost (f a) 0) : CostLe cost (p >>= f) n := by
  rw [← add_zero n]
  exact costLe_bind le_rfl hp hf

/-- A handler that costs nothing does not count. -/
theorem costLe_handled {p : Prog C R E α} {g : E → Prog C R E α} {n : M}
    (hp : CostLe cost p n) (hg : ∀ e, CostLe cost (g e) 0) : CostLe cost (tryCatch p g) n := by
  rw [← add_zero n]
  exact costLe_tryCatch le_rfl hp hg

omit [IsOrderedAddMonoid M] in
/-- A program whose commands are free costs nothing. -/
theorem costLe_of_issues {p : Prog C R E α} (h : Issues (fun c => cost c = 0) p) :
    CostLe cost p 0 := by
  induction p with
  | done a => exact le_rfl
  | fail e => exact le_rfl
  | call c k ih =>
      refine ⟨h.1.ge, h.1.le, fun r => ?_⟩
      rw [h.1, sub_zero]
      exact ih r (h.2 r)

/-- What a walk has cost is within the bound, and what is left costs at most the
    rest of it. -/
theorem costLe_walks {p q : Prog C R E α} {tr : List (Event C R)} (hw : Walks p tr q) :
    ∀ n, CostLe cost p n → (tr.map fun ev => cost ev.cmd).sum ≤ n ∧
      CostLe cost q (n - (tr.map fun ev => cost ev.cmd).sum) := by
  induction hw with
  | refl p =>
      intro n h
      rw [List.map_nil, List.sum_nil, sub_zero]
      exact ⟨costLe_nonneg h, h⟩
  | call c k r tr q _ ih =>
      intro n h
      rcases ih (n - cost c) (h.2.2 r) with ⟨hsum, hq⟩
      rw [List.map_cons, List.sum_cons, ← sub_sub]
      exact ⟨(add_comm _ _).trans_le (le_sub_iff_add_le.mp hsum), hq⟩

end Prog

end Core

end Asante
