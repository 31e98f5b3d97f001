import Mathlib.Data.Finset.Card
import Mathlib.Data.List.Induction
import Asante.Core.KeyedLog

/-!
# First Uses of Keys

Calls of a method that records in a keyed log, one after the other from the
empty log.

Which calls append can be read off the calls alone: those without a key, and
those whose key no earlier call had. `firstUses` selects them, and
`callAll_tracks` says that the log is in step with exactly these calls. That the
entries only grow, that there is one for each key, that the map binds the keys
used, and that a repeated call is answered like the first one are then facts
about the list of calls.

The method may answer in any way that depends on the entry it is given and on
whether that entry is repeated; `Records` is all that is asked of it.

## Main definitions

* `FirstUse`: A call without a key, or with a key that no earlier call had.
* `firstUses`: The first uses among some calls, in order.
* `callAll`: The answers of a sequence of calls, and the log after the last.
* `Records`: A method that answers from what one record of the log gives.

## Theorems

* `firstUses_length`: There are as many as distinct keys and unkeyed calls.
* `callAll_tracks`: The log is in step with the first uses.
* `callAll_entries_extend`: A longer run has the same entries, and then more.
* `callAll_bound`: The keys bound are the keys used.
* `callAll_binding`: A key stays bound to the entry of its first use.
* `callAll_answer`: A call is answered from the log the calls before it left.
* `callAll_repeats`: A call with a used key is answered with the first entry.
-/

namespace Asante

namespace Core

namespace KeyedLog

variable {C κ : Type} (key : C → Option κ)

/-- A call without a key, or with a key that none of the calls before had. -/
def FirstUse (before : List C) (c : C) : Prop :=
  key c = none ∨ key c ∉ before.map key

instance [DecidableEq κ] (before : List C) (c : C) : Decidable (FirstUse key before c) :=
  inferInstanceAs (Decidable (_ ∨ _))

/-- The first uses among the calls that follow the ones before. -/
def firstUsesFrom [DecidableEq κ] (before : List C) : List C → List C
  | [] => []
  | c :: calls => if FirstUse key before c then c :: firstUsesFrom (before ++ [c]) calls
    else firstUsesFrom (before ++ [c]) calls

/-- The calls without a key and the first call with each key, in order. -/
def firstUses [DecidableEq κ] (calls : List C) : List C :=
  firstUsesFrom key [] calls

section FirstUses

variable [DecidableEq κ]

theorem firstUsesFrom_snoc (before calls : List C) (c : C) :
    firstUsesFrom key before (calls ++ [c]) = firstUsesFrom key before calls ++
      (if FirstUse key (before ++ calls) c then [c] else []) := by
  induction calls generalizing before with
  | nil =>
      rw [List.nil_append, List.append_nil]
      rfl
  | cons d calls ih =>
      rw [List.cons_append, firstUsesFrom, firstUsesFrom, ih, List.append_assoc,
        List.singleton_append]
      by_cases h : FirstUse key before d
      · rw [if_pos h, if_pos h, List.cons_append]
      · rw [if_neg h, if_neg h]

/-- One more call is one more first use, or it changes nothing. -/
theorem firstUses_snoc (calls : List C) (c : C) :
    firstUses key (calls ++ [c]) =
      firstUses key calls ++ (if FirstUse key calls c then [c] else []) :=
  firstUsesFrom_snoc key [] calls c

theorem firstUses_snoc_first {calls : List C} {c : C} (h : FirstUse key calls c) :
    firstUses key (calls ++ [c]) = firstUses key calls ++ [c] := by
  rw [firstUses_snoc, if_pos h]

theorem firstUses_snoc_repeat {calls : List C} {c : C} (h : ¬FirstUse key calls c) :
    firstUses key (calls ++ [c]) = firstUses key calls := by
  rw [firstUses_snoc, if_neg h, List.append_nil]

/-- More calls only add first uses. -/
theorem firstUses_extend (before after : List C) :
    firstUses key before <+: firstUses key (before ++ after) := by
  induction after using List.reverseRecOn with
  | nil => rw [List.append_nil]
  | append_singleton after c ih =>
      rw [← List.append_assoc, firstUses_snoc]
      exact ih.trans (List.prefix_append _ _)

/-- The keys of the first uses are the keys of the calls. -/
theorem mem_firstUses_key (calls : List C) (k : κ) :
    some k ∈ (firstUses key calls).map key ↔ some k ∈ calls.map key := by
  induction calls using List.reverseRecOn with
  | nil => exact Iff.rfl
  | append_singleton calls c ih =>
      rw [List.map_append, List.mem_append, ← ih]
      by_cases h : FirstUse key calls c
      · rw [firstUses_snoc_first key h, List.map_append, List.mem_append]
      · rw [firstUses_snoc_repeat key h]
        refine (or_iff_left_of_imp fun hk => ?_).symm
        -- The key of a call that is no first use was used before.
        rw [List.map_singleton, List.mem_singleton] at hk
        rw [ih, hk]
        exact not_not.mp (not_or.mp h).2

/-- There is one first use for each distinct key and one for each call without a
    key. -/
theorem firstUses_length (calls : List C) :
    (firstUses key calls).length =
      (calls.filterMap key).toFinset.card + calls.countP (fun c => (key c).isNone) := by
  induction calls using List.reverseRecOn with
  | nil => rfl
  | append_singleton calls c ih =>
      rw [List.filterMap_append, List.countP_append]
      rcases hk : key c with _ | k
      · rw [firstUses_snoc_first key (Or.inl hk), List.length_append, ih]
        simp only [List.filterMap_cons, hk, List.filterMap_nil, List.append_nil,
          List.length_singleton, List.countP_singleton, Option.isNone_none, if_true, Nat.add_assoc]
      · have hfilter : [c].filterMap key = [k] := by
          simp only [List.filterMap_cons, hk, List.filterMap_nil]
        have hcount : [c].countP (fun c => (key c).isNone) = 0 := by
          simp only [List.countP_singleton, hk, Option.isNone_some, if_false, Bool.false_eq_true]
        have hused : k ∈ (calls.filterMap key).toFinset ↔ key c ∈ calls.map key := by
          rw [hk, List.mem_toFinset, List.mem_filterMap, List.mem_map]
        rw [hfilter, hcount, List.toFinset_append, Nat.add_zero]
        by_cases h : key c ∈ calls.map key
        · -- The key is no new one, and the call no first use.
          rw [firstUses_snoc_repeat key (not_or.mpr ⟨hk ▸ Option.some_ne_none k, not_not.mpr h⟩),
            ih, Finset.union_eq_left.mpr]
          intro k' hk'
          rw [List.mem_toFinset, List.mem_singleton] at hk'
          rw [hk']
          exact hused.mpr h
        · rw [firstUses_snoc_first key (Or.inr h), List.length_append, ih, List.length_singleton,
            List.toFinset_cons, List.toFinset_nil, insert_empty_eq,
            Finset.card_union_of_disjoint (Finset.disjoint_singleton_right.mpr
              (mt hused.mp h)), Finset.card_singleton]
          omega

end FirstUses

variable {β A : Type} (method : C → KeyedLog κ β → A × KeyedLog κ β)

/-- The answers of the calls, made one after the other from the empty log, and
    the log after the last. -/
def callAll (calls : List C) : List A × KeyedLog κ β :=
  calls.foldl (fun run c => (run.1 ++ [(method c run.2).1], (method c run.2).2)) ([], empty)

theorem callAll_snoc (calls : List C) (c : C) :
    callAll method (calls ++ [c]) = ((callAll method calls).1 ++
      [(method c (callAll method calls).2).1], (method c (callAll method calls).2).2) := by
  rw [callAll, List.foldl_append]
  rfl

theorem callAll_answers_length (calls : List C) :
    (callAll method calls).1.length = calls.length := by
  induction calls using List.reverseRecOn with
  | nil => rfl
  | append_singleton calls c ih =>
      rw [callAll_snoc, List.length_append, ih, List.length_append]
      rfl

theorem callAll_answers_extend (before after : List C) :
    (callAll method before).1 <+: (callAll method (before ++ after)).1 := by
  induction after using List.reverseRecOn with
  | nil => rw [List.append_nil]
  | append_singleton after c ih =>
      rw [← List.append_assoc, callAll_snoc]
      exact ih.trans (List.prefix_append _ _)

/-- A call is answered from the log the calls before it left, whatever follows. -/
theorem callAll_answer (before : List C) (c : C) (after : List C) :
    (callAll method (before ++ c :: after)).1[before.length]? =
      some (method c (callAll method before).2).1 := by
  have hprefix := callAll_answers_extend method (before ++ [c]) after
  rw [List.append_assoc, List.singleton_append] at hprefix
  rcases hprefix with ⟨rest, hrest⟩
  have hlength := callAll_answers_length method before
  rw [← hrest, callAll_snoc, List.append_assoc, ← hlength,
    List.getElem?_append_right (le_refl _), Nat.sub_self]
  rfl

variable [DecidableEq κ] (entry : C → β) (respond : β × Bool → A)

/-- The method makes one record under the key of the call, and answers with what
    the record gives. -/
def Records : Prop :=
  ∀ c log, method c log =
    (respond (log.record (key c) (entry c)).1, (log.record (key c) (entry c)).2)

variable {key method entry respond} (hrecords : Records key method entry respond)

include hrecords

/-- The log is in step with the first uses of the calls. -/
theorem callAll_tracks (calls : List C) :
    Tracks (callAll method calls).2 ((firstUses key calls).map fun c => (key c, entry c)) := by
  induction calls using List.reverseRecOn with
  | nil => exact tracks_empty
  | append_singleton calls c ih =>
      rw [callAll_snoc, hrecords]
      have hwrite : ∀ k b, (some k, b) ∈ (firstUses key calls).map (fun c => (key c, entry c)) →
          some k ∈ calls.map key := by
        intro k b hmem
        rcases List.mem_map.mp hmem with ⟨d, hd, heq⟩
        exact (mem_firstUses_key key calls k).mp (List.mem_map.mpr ⟨d, hd, congrArg Prod.fst heq⟩)
      rcases tracks_record ih (key c) (entry c) with ⟨k, b, hk, hmem, hsame⟩ | ⟨hnew, _, htracks⟩
      · rw [hsame, firstUses_snoc_repeat key]
        · exact ih
        · exact not_or.mpr ⟨hk ▸ Option.some_ne_none k, not_not.mpr (hk ▸ hwrite k b hmem)⟩
      · rw [firstUses_snoc_first key, List.map_append]
        · exact htracks
        · rcases hk : key c with _ | k
          · exact Or.inl hk
          · refine Or.inr fun hused => ?_
            rw [hk, ← mem_firstUses_key] at hused
            rcases List.mem_map.mp hused with ⟨d, hd, hkd⟩
            exact hnew k hk (entry d) (List.mem_map.mpr ⟨d, hd, Prod.ext hkd rfl⟩)

/-- The entries are those of the first uses, in order. -/
theorem callAll_entries (calls : List C) :
    (callAll method calls).2.entries = (firstUses key calls).map entry := by
  rw [(callAll_tracks hrecords calls).entries, List.map_map]
  rfl

/-- A longer run has the same entries, and then more. -/
theorem callAll_entries_extend (before after : List C) :
    (callAll method before).2.entries <+: (callAll method (before ++ after)).2.entries := by
  rw [callAll_entries hrecords, callAll_entries hrecords]
  exact (firstUses_extend key before after).map entry

/-- The keys bound are the keys used. -/
theorem callAll_bound (calls : List C) (k : κ) :
    ((callAll method calls).2.find k).isSome = true ↔ some k ∈ calls.map key := by
  have htracks := callAll_tracks hrecords calls
  rw [← mem_firstUses_key, Option.isSome_iff_exists, List.mem_map]
  constructor
  · rintro ⟨b, hb⟩
    rcases List.mem_map.mp ((htracks.bound k b).mp hb) with ⟨c, hc, heq⟩
    exact ⟨c, hc, congrArg Prod.fst heq⟩
  · rintro ⟨c, hc, hk⟩
    exact ⟨entry c, (htracks.bound k _).mpr (List.mem_map.mpr ⟨c, hc, Prod.ext hk rfl⟩)⟩

/-- A first use finds its key unbound. -/
theorem callAll_unbound {before : List C} {c : C} (h : FirstUse key before c) {k : κ}
    (hk : key c = some k) : (callAll method before).2.find k = none := by
  rw [← Option.not_isSome_iff_eq_none, callAll_bound hrecords, ← hk]
  exact h.resolve_left (hk ▸ Option.some_ne_none k)

/-- A first use is answered with its own entry, as one that is no repetition. -/
theorem callAll_first {before : List C} {c : C} (h : FirstUse key before c) (after : List C) :
    (callAll method (before ++ c :: after)).1[before.length]? =
      some (respond (entry c, false)) := by
  rw [callAll_answer, hrecords]
  rcases hk : key c with _ | k
  · rfl
  · rw [record_new (callAll_unbound hrecords h hk)]

/-- A key stays bound to the entry of its first use, and that entry stands where
    the first use put it. -/
theorem callAll_binding {before : List C} {c : C} (h : FirstUse key before c) {k : κ}
    (hk : key c = some k) (after : List C) :
    (callAll method (before ++ c :: after)).2.find k = some (entry c) ∧
      (callAll method (before ++ c :: after)).2.entries[(callAll method before).2.entries.length]? =
        some (entry c) := by
  -- The first uses of the run begin with those up to this call.
  have hprefix := firstUses_extend key (before ++ [c]) after
  rw [firstUses_snoc_first key h, List.append_assoc, List.singleton_append] at hprefix
  refine ⟨?_, ?_⟩
  · refine ((callAll_tracks hrecords _).bound k _).mpr (List.mem_map.mpr ⟨c, ?_, Prod.ext hk rfl⟩)
    exact hprefix.subset (List.mem_append_right _ (List.mem_singleton.mpr rfl))
  · rcases hprefix with ⟨rest, hrest⟩
    rw [callAll_entries hrecords, callAll_entries hrecords, ← hrest, List.append_assoc,
      List.map_append, List.getElem?_append_right (le_refl _), Nat.sub_self]
    rfl

/-- A call with a key that was used is answered with the entry of the first use,
    whatever it would have appended itself. -/
theorem callAll_repeats {before : List C} {c : C} (h : FirstUse key before c) {k : κ}
    (hk : key c = some k) (between : List C) {c' : C} (hk' : key c' = some k) (after : List C) :
    (callAll method (before ++ c :: between ++ c' :: after)).1[
        (before ++ c :: between).length]? = some (respond (entry c, true)) := by
  rw [callAll_answer, hrecords, hk', record_bound (callAll_binding hrecords h hk between).1]

end KeyedLog

end Core

end Asante
