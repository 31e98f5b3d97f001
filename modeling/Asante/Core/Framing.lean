import Mathlib.Data.List.Basic

/-!
# Separator Framing

Texts built by joining fields with a separator, and when the fields can be
read back. Joining is not injective in general: a field that contains the
separator can hand a piece of itself to its neighbour. What does determine the
fields is that all of them but one are free of the separator, since the outer
ones can then be cut off from either end.

The last section is about what is left when that fails. `Reframes` says two
rows of fields are different cuts of one text, which is the only way a joined
text is ever ambiguous.

## Main definitions

* `joinSep`: Join fields with a separator.
* `Reframes`: Two different rows of fields join to the same text.

## Theorems

* `append_sep_left`: A separator-free head can be cut off.
* `append_sep_right`: A separator-free tail can be cut off.
* `append_sep_mid`: A head and a tail free of the separator fix the middle.
* `joinSep_inj`: Rows of separator-free fields up to the last are determined.
-/

namespace Asante

namespace Core

variable {α : Type}

/-- A head free of the separator is determined by the joined text. -/
theorem append_sep_left {s : α} {a a' b b' : List α} (ha : s ∉ a) (ha' : s ∉ a')
    (h : a ++ s :: b = a' ++ s :: b') : a = a' ∧ b = b' := by
  induction a generalizing a' with
  | nil =>
      cases a' with
      | nil => exact ⟨rfl, (List.cons.inj h).2⟩
      | cons x a' =>
          -- The separator would have to be the first letter of `a'`.
          have hx : s = x := (List.cons.inj h).1
          exact absurd (hx ▸ List.mem_cons_self) ha'
  | cons x a ih =>
      cases a' with
      | nil =>
          have hx : x = s := (List.cons.inj h).1
          -- And the other way round.
          exact absurd (hx ▸ List.mem_cons_self) ha
      | cons y a' =>
          rcases List.cons.inj h with ⟨hxy, hrest⟩
          rcases ih (fun hm => ha (List.mem_cons_of_mem _ hm))
            (fun hm => ha' (List.mem_cons_of_mem _ hm)) hrest with ⟨hab, hbb⟩
          exact ⟨by rw [hxy, hab], hbb⟩

/-- A tail free of the separator is determined by the joined text. -/
theorem append_sep_right {s : α} {a a' b b' : List α} (hb : s ∉ b) (hb' : s ∉ b')
    (h : a ++ s :: b = a' ++ s :: b') : a = a' ∧ b = b' := by
  -- The reverse of a tail is a head.
  have hrev : b.reverse ++ s :: a.reverse = b'.reverse ++ s :: a'.reverse := by
    have := congrArg List.reverse h
    simpa only [List.reverse_append, List.reverse_cons, List.append_assoc,
      List.singleton_append] using this
  rcases append_sep_left (fun hm => hb (List.mem_reverse.mp hm))
    (fun hm => hb' (List.mem_reverse.mp hm)) hrev with ⟨h1, h2⟩
  exact ⟨List.reverse_inj.mp h2, List.reverse_inj.mp h1⟩

/-- Between a head and a tail free of the separator, any middle is determined:
    it may contain the separator itself. -/
theorem append_sep_mid {s : α} {a a' m m' b b' : List α} (ha : s ∉ a) (ha' : s ∉ a')
    (hb : s ∉ b) (hb' : s ∉ b')
    (h : a ++ s :: (m ++ s :: b) = a' ++ s :: (m' ++ s :: b')) :
    a = a' ∧ m = m' ∧ b = b' := by
  rcases append_sep_left ha ha' h with ⟨haa, hrest⟩
  rcases append_sep_right hb hb' hrest with ⟨hmm, hbb⟩
  exact ⟨haa, hmm, hbb⟩

/-- Join fields with a separator. -/
def joinSep (s : α) : List (List α) → List α
  | [] => []
  | [a] => a
  | a :: b :: rest => a ++ s :: joinSep s (b :: rest)

@[simp] theorem joinSep_cons_cons (s : α) (a b : List α) (rest : List (List α)) :
    joinSep s (a :: b :: rest) = a ++ s :: joinSep s (b :: rest) := rfl

@[simp] theorem joinSep_singleton (s : α) (a : List α) : joinSep s [a] = a := rfl

/-- Two different rows of fields that join to one text: the separator between
    two fields of one row is a letter inside a field of the other. -/
def Reframes (s : α) (u v : List (List α)) : Prop :=
  u ≠ v ∧ joinSep s u = joinSep s v

/-- Rows of equally many fields, free of the separator up to the last field,
    are determined by the joined text. -/
theorem joinSep_inj {s : α} {u v : List (List α)} (hlen : u.length = v.length)
    (hu : ∀ a ∈ u.dropLast, s ∉ a) (hv : ∀ a ∈ v.dropLast, s ∉ a)
    (h : joinSep s u = joinSep s v) : u = v := by
  induction u generalizing v with
  | nil => exact (List.length_eq_zero_iff.mp hlen.symm).symm
  | cons a u ih =>
      cases v with
      | nil => exact absurd hlen (by simp only [List.length_cons, List.length_nil,
          Nat.add_one_ne_zero, not_false_eq_true])
      | cons b v =>
          have hlen' : u.length = v.length := Nat.succ.inj hlen
          -- One field: both rows are that field, which may contain the separator.
          cases u with
          | nil =>
              rw [List.length_eq_zero_iff.mp hlen'.symm] at h ⊢
              rw [joinSep_singleton, joinSep_singleton] at h
              rw [h]
          | cons a2 u =>
              cases v with
              | nil => exact absurd hlen' (by simp only [List.length_cons, List.length_nil,
                  Nat.add_one_ne_zero, not_false_eq_true])
              | cons b2 v =>
                  -- The first field is free of the separator, so the first separator ends it.
                  rw [joinSep_cons_cons, joinSep_cons_cons] at h
                  rcases append_sep_left (hu a List.mem_cons_self) (hv b List.mem_cons_self) h
                    with ⟨hab, hrest⟩
                  rw [hab, ih hlen' (fun c hc => hu c (List.mem_cons_of_mem _ hc))
                    (fun c hc => hv c (List.mem_cons_of_mem _ hc)) hrest]

/-- A reframing moves a separator into a field before the last. -/
theorem reframes_sep {s : α} {u v : List (List α)} (hlen : u.length = v.length)
    (h : Reframes s u v) : ∃ a, a ∈ u.dropLast ++ v.dropLast ∧ s ∈ a := by
  by_contra hc
  push Not at hc
  exact h.1 (joinSep_inj hlen (fun a ha => hc a (List.mem_append_left _ ha))
    (fun a ha => hc a (List.mem_append_right _ ha)) h.2)

end Core

end Asante
