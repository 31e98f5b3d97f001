import Mathlib.Data.List.Induction
import Mathlib.Order.Lattice

/-!
# Timed Maps

A map whose entries stand for a limited time, seen as a history of what was
done to it. Writing a key replaces its entry, erasing a key or wiping the map
removes it, and reading changes nothing that can be read later: an entry that
has lapsed stays lapsed.

Reading does leave a trace in a map that evicts lazily, where the first read
after the time is up removes the entry and later reads find none. `slot` keeps
that one bit beside the standing entry, whether a read has found it lapsed. It
is a recursion over the history, and `slot_eq_some_iff` says in terms of the
history alone what it computes: the last operation on the key wrote the entry,
and the bit tells whether a read since then came too late.

## Main definitions

* `Timed`: A value with the instants it was written at and lapses at.
* `TimedOp`: Write, read, erase, wipe.
* `slot`: What a history leaves under a key.
* `held`: The entry that stands under a key, lapsed or not.
* `Affects`: The operation replaces or removes what a key holds.

## Theorems

* `slot_eq_some_iff`: What a history leaves, in terms of the history.
* `slot_lapsed`: What a read found lapsed is lapsed, time not going back.
* `slot_read_other`: A read does not concern another key.
* `held_read`: A read leaves every entry standing.
-/

namespace Asante

namespace Core

/-- A value with the instant it was written at and the instant it lapses at. -/
structure Timed (ν τ : Type) where
  value : ν
  since : τ
  lapsesAt : τ

/-- An operation on a timed map. A read carries the instant it happens at. -/
inductive TimedOp (κ ν τ : Type) where
  | write (k : κ) (e : Timed ν τ)
  | read (k : κ) (now : τ)
  | erase (k : κ)
  | wipe

namespace TimedMap

variable {κ ν τ : Type} [DecidableEq κ] [LinearOrder τ]

/-- The operation replaces or removes what the key holds. -/
def Affects (k : κ) : TimedOp κ ν τ → Prop
  | .write k' _ => k' = k
  | .read _ _ => False
  | .erase k' => k' = k
  | .wipe => True

/-- The operation reads the key after the entry has lapsed. -/
def FindsLapsed (k : κ) (e : Timed ν τ) : TimedOp κ ν τ → Prop
  | .read k' now => k' = k ∧ e.lapsesAt ≤ now
  | _ => False

instance (k : κ) (e : Timed ν τ) : DecidablePred (FindsLapsed k e)
  | .write _ _ => inferInstanceAs (Decidable False)
  | .read _ _ => inferInstanceAs (Decidable (_ ∧ _))
  | .erase _ => inferInstanceAs (Decidable False)
  | .wipe => inferInstanceAs (Decidable False)

/-- What one operation makes of a key: the standing entry, and whether a read
    has found it lapsed. -/
def slotStep (k : κ) (s : Option (Timed ν τ × Bool)) : TimedOp κ ν τ → Option (Timed ν τ × Bool)
  | .write k' e => if k' = k then some (e, false) else s
  | .read k' now =>
    if k' = k then s.map fun u => (u.1, u.2 || decide (u.1.lapsesAt ≤ now)) else s
  | .erase k' => if k' = k then none else s
  | .wipe => none

/-- What a history leaves under a key. -/
def slot (k : κ) (h : List (TimedOp κ ν τ)) : Option (Timed ν τ × Bool) :=
  h.foldl (slotStep k) none

/-- The entry that stands under a key, lapsed or not. -/
def held (k : κ) (h : List (TimedOp κ ν τ)) : Option (Timed ν τ) :=
  (slot k h).map (·.1)

@[simp] theorem slot_nil (k : κ) : slot k ([] : List (TimedOp κ ν τ)) = none := rfl

theorem slot_snoc (k : κ) (h : List (TimedOp κ ν τ)) (o : TimedOp κ ν τ) :
    slot k (h ++ [o]) = slotStep k (slot k h) o := by
  rw [slot, List.foldl_append]
  rfl

/-- An operation that affects the key and leaves an entry wrote it. -/
theorem slotStep_affects {k : κ} {s : Option (Timed ν τ × Bool)} {o : TimedOp κ ν τ}
    (h : Affects k o) {e : Timed ν τ} {b : Bool} :
    slotStep k s o = some (e, b) ↔ o = .write k e ∧ b = false := by
  cases o with
  | write k' e' =>
      have hk : k' = k := h
      subst hk
      simp only [slotStep, if_pos, Option.some.injEq, Prod.mk.injEq, TimedOp.write.injEq, true_and]
      exact and_congr Iff.rfl eq_comm
  | read k' now => exact absurd h id
  | erase k' =>
      have hk : k' = k := h
      simp only [slotStep, if_pos hk, reduceCtorEq, false_and]
  | wipe => simp only [slotStep, reduceCtorEq, false_and]

/-- Any other operation keeps the entry, and notices whether it has lapsed only
    by reading it. -/
theorem slotStep_other {k : κ} {s : Option (Timed ν τ × Bool)} {o : TimedOp κ ν τ}
    (h : ¬ Affects k o) {e : Timed ν τ} {b : Bool} : slotStep k s o = some (e, b) ↔
      ∃ b', s = some (e, b') ∧ (b = true ↔ b' = true ∨ FindsLapsed k e o) := by
  have hsame : (s = some (e, b)) ↔ ∃ b', s = some (e, b') ∧ (b = true ↔ b' = true ∨ False) := by
    constructor
    · exact fun hs => ⟨b, hs, (iff_of_eq (or_false _)).symm⟩
    · rintro ⟨b', hs, hb⟩
      rw [hs, Bool.eq_iff_iff.mpr (hb.trans (iff_of_eq (or_false _)))]
  cases o with
  | write k' e' =>
      have hk : k' ≠ k := h
      rw [slotStep, if_neg hk]
      exact hsame
  | read k' now =>
      by_cases hk : k' = k
      · -- The one operation that may set the bit.
        rw [slotStep, if_pos hk, Option.map_eq_some_iff]
        constructor
        · rintro ⟨⟨e', b'⟩, hs, hstep⟩
          rcases Prod.mk.inj hstep with ⟨he, hb⟩
          dsimp only at he hb
          subst he
          refine ⟨b', hs, ?_⟩
          rw [← hb, Bool.or_eq_true, decide_eq_true_eq]
          exact or_congr Iff.rfl ⟨fun hlate => ⟨hk, hlate⟩, fun hlate => hlate.2⟩
        · rintro ⟨b', hs, hb⟩
          refine ⟨(e, b'), hs, Prod.ext rfl ?_⟩
          rw [Bool.eq_iff_iff, Bool.or_eq_true, decide_eq_true_eq, hb]
          exact or_congr Iff.rfl ⟨fun hlate => ⟨hk, hlate⟩, fun hlate => hlate.2⟩
      · rw [slotStep, if_neg hk]
        refine hsame.trans (exists_congr fun b' => and_congr Iff.rfl (iff_congr Iff.rfl ?_))
        exact or_congr Iff.rfl ⟨False.elim, fun hlate => hk hlate.1⟩
  | erase k' =>
      have hk : k' ≠ k := h
      rw [slotStep, if_neg hk]
      exact hsame
  | wipe => exact absurd trivial h

/-- A history leaves an entry under a key exactly when the last operation that
    affected the key wrote it, and a read has found it lapsed exactly when one
    since then came after its time. -/
theorem slot_eq_some_iff {k : κ} {h : List (TimedOp κ ν τ)} {e : Timed ν τ} {b : Bool} :
    slot k h = some (e, b) ↔ ∃ before since, h = before ++ .write k e :: since ∧
      (∀ o ∈ since, ¬ Affects k o) ∧ (b = true ↔ ∃ o ∈ since, FindsLapsed k e o) := by
  induction h using List.reverseRecOn generalizing b with
  | nil =>
      refine iff_of_false (by simp only [slot_nil, reduceCtorEq, not_false_eq_true]) ?_
      rintro ⟨before, since, hnil, -⟩
      exact List.append_ne_nil_of_right_ne_nil before (List.cons_ne_nil _ _) hnil.symm
  | append_singleton h o ih =>
      rw [slot_snoc]
      by_cases ho : Affects k o
      · rw [slotStep_affects ho]
        constructor
        · rintro ⟨rfl, rfl⟩
          refine ⟨h, [], rfl, fun o' ho' => absurd ho' List.not_mem_nil, ?_⟩
          exact ⟨fun hb => absurd hb Bool.noConfusion, fun ⟨o', ho', _⟩ => absurd ho'
            List.not_mem_nil⟩
        · rintro ⟨before, since, hsplit, hnone, hb⟩
          -- The last operation affects the key, so it is the write itself.
          rcases List.eq_nil_or_concat since with hnil | ⟨since', last, hconcat⟩
          · subst hnil
            refine ⟨(List.cons.inj (List.append_inj' hsplit rfl).2).1, Bool.eq_false_iff.mpr ?_⟩
            exact fun htrue => (hb.mp htrue).elim fun o' ho' => List.not_mem_nil ho'.1
          · rw [hconcat, List.concat_eq_append, ← List.cons_append, ← List.append_assoc] at hsplit
            have hlast := (List.cons.inj (List.append_inj' hsplit rfl).2).1
            rw [hlast] at ho
            refine absurd ho (hnone last ?_)
            rw [hconcat, List.concat_eq_append]
            exact List.mem_concat_self
      · rw [slotStep_other ho]
        constructor
        · rintro ⟨b', hslot, hb⟩
          rcases ih.mp hslot with ⟨before, since, hsplit, hnone, hb'⟩
          refine ⟨before, since ++ [o], ?_, fun o' ho' => ?_, ?_⟩
          · rw [hsplit, List.append_assoc, List.cons_append]
          · rcases List.mem_append.mp ho' with hold | hnew
            · exact hnone o' hold
            · exact (List.mem_singleton.mp hnew).symm ▸ ho
          · rw [hb, hb']
            simp only [List.mem_append, List.mem_singleton, or_and_right, exists_or,
              exists_eq_left]
        · rintro ⟨before, since, hsplit, hnone, hb⟩
          rcases List.eq_nil_or_concat since with hnil | ⟨since', last, hconcat⟩
          · -- The last operation would be the write, which affects the key.
            rw [hnil] at hsplit
            have hlast := (List.cons.inj (List.append_inj' hsplit rfl).2).1
            exact absurd (hlast ▸ (rfl : Affects k (.write k e))) ho
          · rw [hconcat, List.concat_eq_append, ← List.cons_append, ← List.append_assoc] at hsplit
            rcases List.append_inj' hsplit rfl with ⟨hh, hlast⟩
            have hlast := (List.cons.inj hlast).1
            rw [hconcat, List.concat_eq_append] at hnone hb
            have hnone' : ∀ o' ∈ since', ¬ Affects k o' :=
              fun o' ho' => hnone o' (List.mem_append_left _ ho')
            refine ⟨decide (∃ o' ∈ since', FindsLapsed k e o'), ?_, ?_⟩
            · exact ih.mpr ⟨before, since', hh, hnone', decide_eq_true_iff⟩
            · rw [hb, decide_eq_true_iff, hlast]
              simp only [List.mem_append, List.mem_singleton, or_and_right, exists_or,
                exists_eq_left]

/-- A read of another key, and a read of the key itself as far as the standing
    entry goes, makes no difference however the history goes on. -/
theorem slot_read_other {k k' : κ} (hk : k' ≠ k) (now : τ) (before after : List (TimedOp κ ν τ)) :
    slot k (before ++ .read k' now :: after) = slot k (before ++ after) := by
  simp only [slot, List.foldl_append, List.foldl_cons, slotStep, if_neg hk]

/-- What an operation leaves standing depends on what stood. -/
theorem slotStep_held {k : κ} {s s' : Option (Timed ν τ × Bool)}
    (h : s.map (·.1) = s'.map (·.1)) (o : TimedOp κ ν τ) :
    (slotStep k s o).map (·.1) = (slotStep k s' o).map (·.1) := by
  cases o with
  | write k' e =>
      by_cases hk : k' = k
      · rw [slotStep, slotStep, if_pos hk, if_pos hk]
      · rw [slotStep, slotStep, if_neg hk, if_neg hk, h]
  | read k' now =>
      by_cases hk : k' = k
      · -- A read touches the bit only.
        rw [slotStep, slotStep, if_pos hk, if_pos hk, Option.map_map, Option.map_map]
        exact h
      · rw [slotStep, slotStep, if_neg hk, if_neg hk, h]
  | erase k' =>
      by_cases hk : k' = k
      · rw [slotStep, slotStep, if_pos hk, if_pos hk]
      · rw [slotStep, slotStep, if_neg hk, if_neg hk, h]
  | wipe => rfl

theorem foldl_held {k : κ} {s s' : Option (Timed ν τ × Bool)}
    (h : s.map (·.1) = s'.map (·.1)) (ops : List (TimedOp κ ν τ)) :
    (ops.foldl (slotStep k) s).map (·.1) = (ops.foldl (slotStep k) s').map (·.1) := by
  induction ops generalizing s s' with
  | nil => exact h
  | cons o ops ih => exact ih (slotStep_held h o)

/-- A read leaves every entry standing, however the history goes on. -/
theorem held_read (k k' : κ) (now : τ) (before after : List (TimedOp κ ν τ)) :
    held k (before ++ .read k' now :: after) = held k (before ++ after) := by
  simp only [held, slot, List.foldl_append, List.foldl_cons]
  refine foldl_held ?_ after
  by_cases hk : k' = k
  · rw [slotStep, if_pos hk, Option.map_map]
    rfl
  · rw [slotStep, if_neg hk]

/-- What a read has found lapsed has lapsed at every instant none of the reads
    is after. -/
theorem slot_lapsed {k : κ} {h : List (TimedOp κ ν τ)} {e : Timed ν τ} {now : τ}
    (hread : ∀ k' t, TimedOp.read k' t ∈ h → t ≤ now) (hs : slot k h = some (e, true)) :
    e.lapsesAt ≤ now := by
  rcases slot_eq_some_iff.mp hs with ⟨before, since, hsplit, -, hb⟩
  rcases hb.mp rfl with ⟨o, ho, hlapsed⟩
  cases o with
  | read k' t =>
      -- The read that found it lapsed was no later than now.
      refine hlapsed.2.trans (hread k' t ?_)
      rw [hsplit]
      exact List.mem_append_right _ (List.mem_cons_of_mem _ ho)
  | _ => exact absurd hlapsed id

end TimedMap

end Core

end Asante
