import Mathlib.Data.String.Basic
import Mathlib.Algebra.Order.Ring.Nat

/-!
# Order-Preserving Texts

When the lexicographic order of texts is the order of what they stand for.

`OrderedAs f k` says that `f` orders its arguments as `k` does. Texts are put
together from fields: if the fields in front are rendered in one length, the
whole is ordered by these fields first and by the rest only when they are equal
(`OrderedAs.append`), so nothing is asked of the length of the last field. On
the side of numbers the same holds for an offset into consecutive blocks, which
need not have one width (`offset_lt_iff`); a positional system is the case where
they do (`radix_lt_iff`).

## Main definitions

* `OrderedAs`: One function orders its arguments as another does.
* `fixedDigits`: The decimal digits of a number, padded to a width.

## Theorems

* `append_lt_append_iff`: Texts of one length in front decide first.
* `offset_lt_iff`, `radix_lt_iff`: Blocks decide first, then offsets.
* `OrderedAs.append`: Fields of one length in front of others.
* `orderedAs_digits`: Digits of one width are ordered as the numbers.
-/

namespace Asante

namespace Core

/-- Texts of one length in front decide first. -/
theorem append_lt_append_iff {γ : Type} [LinearOrder γ] {l₁ l₂ m₁ m₂ : List γ}
    (h : l₁.length = l₂.length) : l₁ ++ m₁ < l₂ ++ m₂ ↔ l₁ < l₂ ∨ l₁ = l₂ ∧ m₁ < m₂ := by
  induction l₁ generalizing l₂ with
  | nil =>
      rw [List.eq_nil_of_length_eq_zero h.symm]
      simp only [List.nil_append, lt_irrefl, true_and, false_or]
  | cons a l₁ ih =>
      cases l₂ with
      | nil => exact absurd h (Nat.succ_ne_zero _)
      | cons b l₂ =>
          rw [List.cons_append, List.cons_append, List.cons_lt_cons_iff, List.cons_lt_cons_iff,
            ih (Nat.succ.inj h), List.cons.injEq]
          constructor
          · rintro (hab | ⟨hab, hl | ⟨hl, hm⟩⟩)
            · exact Or.inl (Or.inl hab)
            · exact Or.inl (Or.inr ⟨hab, hl⟩)
            · exact Or.inr ⟨⟨hab, hl⟩, hm⟩
          · rintro ((hab | ⟨hab, hl⟩) | ⟨⟨hab, hl⟩, hm⟩)
            · exact Or.inl hab
            · exact Or.inr ⟨hab, Or.inl hl⟩
            · exact Or.inr ⟨hab, Or.inr ⟨hl, hm⟩⟩

section Offsets

variable {base width : Nat → Nat} {lo : Nat}

/-- Blocks that each end before the next begins end before any later one does. -/
theorem offset_le (h : ∀ a, lo ≤ a → base a + width a ≤ base (a + 1)) {a a' : Nat} (ha : lo ≤ a)
    (hlt : a < a') : base a + width a ≤ base a' := by
  induction a', hlt using Nat.le_induction with
  | base => exact h a ha
  | succ n hn ih =>
      have hnext := h n (by omega)
      omega

/-- Offsets into consecutive blocks are ordered by the blocks first. -/
theorem offset_lt_iff (base width : Nat → Nat)
    (h : ∀ a, lo ≤ a → base a + width a ≤ base (a + 1)) {a a' b b' : Nat} (ha : lo ≤ a)
    (ha' : lo ≤ a') (hb : b < width a) (hb' : b' < width a') :
    base a + b < base a' + b' ↔ a < a' ∨ a = a' ∧ b < b' := by
  rcases Nat.lt_trichotomy a a' with hlt | heq | hgt
  · have hle := offset_le h ha hlt
    exact iff_of_true (by omega) (Or.inl hlt)
  · rw [heq]
    omega
  · have hle := offset_le h ha' hgt
    omega

end Offsets

/-- Numbers of two digits in one base are ordered by the first digit first. -/
theorem radix_lt_iff {B a a' b b' : Nat} (hb : b < B) (hb' : b' < B) :
    a * B + b < a' * B + b' ↔ a < a' ∨ a = a' ∧ b < b' := by
  have hstep : ∀ a, 0 ≤ a → a * B + B ≤ (a + 1) * B := fun a _ => (Nat.succ_mul a B).ge
  exact offset_lt_iff (fun a => a * B) (fun _ => B) hstep (Nat.zero_le a) (Nat.zero_le a') hb hb'

variable {α β γ δ : Type}

/-- One function orders its arguments as another does. -/
def OrderedAs [LT β] [LT δ] (f : α → β) (k : α → δ) : Prop :=
  ∀ x y, f x < f y ↔ k x < k y

namespace OrderedAs

/-- Arguments with the same rendering have the same key. -/
theorem eq_iff [LinearOrder β] [LinearOrder δ] {f : α → β} {k : α → δ} (h : OrderedAs f k)
    (x y : α) : f x = f y ↔ k x = k y := by
  rw [le_antisymm_iff, ← not_lt, ← not_lt, h, h, not_lt, not_lt, ← le_antisymm_iff]

/-- A separator in front makes no difference. -/
theorem cons [LinearOrder γ] [LT δ] {f : α → List γ} {k : α → δ} (h : OrderedAs f k) (c : γ) :
    OrderedAs (fun x => c :: f x) k := by
  intro x y
  rw [← h x y, List.cons_lt_cons_iff]
  simp only [lt_irrefl, true_and, false_or]

/-- Fields rendered in one length, and others behind them: the key of the whole
    is ordered by the key of the fields in front, and by that of the others when
    they are equal. -/
theorem append [LinearOrder γ] {f g : α → List γ} {u v w : α → Nat} (hf : OrderedAs f u)
    (hlen : ∀ x y, (f x).length = (f y).length)
    (hg : ∀ x y, u x = u y → (g x < g y ↔ v x < v y))
    (hw : ∀ x y, w x < w y ↔ u x < u y ∨ u x = u y ∧ v x < v y) :
    OrderedAs (fun x => f x ++ g x) w := by
  intro x y
  rw [append_lt_append_iff (hlen x y), hf x y, hf.eq_iff x y, hw x y]
  exact or_congr Iff.rfl (and_congr_right fun hu => hg x y hu)

end OrderedAs

/-- The decimal digits of a number below `10 ^ w`, padded with zeros to `w`. -/
def fixedDigits : Nat → Nat → List Char
  | 0, _ => []
  | w + 1, n => fixedDigits w (n / 10) ++ [Nat.digitChar (n % 10)]

@[simp] theorem fixedDigits_length (w n : Nat) : (fixedDigits w n).length = w := by
  induction w generalizing n with
  | zero => rfl
  | succ w ih => rw [fixedDigits, List.length_append, ih, List.length_singleton]

theorem digitChar_lt_iff : ∀ m < 10, ∀ n < 10, Nat.digitChar m < Nat.digitChar n ↔ m < n := by
  decide

/-- Digits of one width are ordered as the numbers. -/
theorem orderedAs_digits (w : Nat) (k : α → Nat) (h : ∀ x, k x < 10 ^ w) :
    OrderedAs (fun x => fixedDigits w (k x)) k := by
  induction w generalizing k with
  | zero =>
      intro x y
      have hx := h x
      have hy := h y
      rw [pow_zero] at hx hy
      exact iff_of_false (lt_irrefl _) (by omega)
  | succ w ih =>
      refine (ih (fun x => k x / 10) fun x => ?_).append (fun x y => ?_) (fun x y _ => ?_)
        (v := fun x => k x % 10) (fun x y => ?_)
      · have hx := h x
        rw [pow_succ] at hx
        omega
      · rw [fixedDigits_length, fixedDigits_length]
      · -- The last digits, which are one character each.
        rw [List.cons_lt_cons_iff, digitChar_lt_iff _ (Nat.mod_lt _ (by omega)) _
          (Nat.mod_lt _ (by omega))]
        simp only [lt_irrefl, and_false, or_false]
      · omega

end Core

end Asante
