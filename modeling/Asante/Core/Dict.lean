import Mathlib.Data.List.Nodup
import Mathlib.Data.List.Perm.Basic

/-!
# Insertion-Ordered Dictionaries

A dictionary as a list of items with distinct keys. Assigning to a key that is
there keeps its place, and any other key goes to the end.

The distinctness of the keys is part of the value, so that an item and a reading
say the same (`get?_eq_some_iff`) and removing a key removes one item. What the
values of a dictionary are as a collection is what `values_set_new` and
`values_erase` describe: assigning to a new key adds one value, removing a key
takes out the one it held, and nothing else changes.

## Main definitions

* `Dict`: Items with distinct keys, in the order they were inserted.
* `Dict.get?`, `Dict.set`, `Dict.erase`: Reading, assigning and removing.
* `Dict.keys`, `Dict.values`: The two columns.

## Theorems

* `get?_eq_some_iff`: What is read is what is held.
* `get?_set`, `get?_erase`: Reading after an assignment or a removal.
* `keys_set_new`, `keys_erase`: What happens to the keys.
* `values_set_new`, `values_erase`: What happens to the values.
-/

namespace Asante

namespace Core

/-- What a lookup finds is among the items. -/
theorem mem_of_lookup {κ β : Type} [BEq κ] [LawfulBEq κ] {items : List (κ × β)} {k : κ} {v : β}
    (h : items.lookup k = some v) : (k, v) ∈ items := by
  rcases List.lookup_eq_some_iff.mp h with ⟨l, r, rfl, -⟩
  exact List.mem_append_right l List.mem_cons_self

/-- Items with distinct keys, in the order they were inserted. -/
@[ext] structure Dict (κ β : Type) where
  items : List (κ × β)
  distinct : (items.map Prod.fst).Nodup

namespace Dict

variable {κ β : Type}

/-- The dictionary without items. -/
def empty : Dict κ β :=
  { items := [], distinct := List.nodup_nil }

/-- The keys, in insertion order. -/
def keys (d : Dict κ β) : List κ :=
  d.items.map Prod.fst

/-- The values, in insertion order. -/
def values (d : Dict κ β) : List β :=
  d.items.map Prod.snd

variable [DecidableEq κ]

/-- The value held under a key. -/
def get? (d : Dict κ β) (k : κ) : Option β :=
  d.items.lookup k

/-- The items after an assignment: in place for a key already there, at the end
    otherwise. -/
def assign : List (κ × β) → κ → β → List (κ × β)
  | [], k, v => [(k, v)]
  | (k', v') :: items, k, v =>
    if k' = k then (k, v) :: items else (k', v') :: assign items k v

theorem assign_held {items : List (κ × β)} {k : κ} (h : k ∈ items.map Prod.fst) (v : β) :
    (assign items k v).map Prod.fst = items.map Prod.fst := by
  induction items with
  | nil => exact absurd h List.not_mem_nil
  | cons kv items ih =>
      rcases kv with ⟨k', v'⟩
      rw [List.map_cons] at h
      by_cases hk : k' = k
      · rw [assign, if_pos hk, List.map_cons, List.map_cons, hk]
      · rw [assign, if_neg hk, List.map_cons, List.map_cons,
          ih ((List.mem_cons.mp h).resolve_left (Ne.symm hk))]

theorem assign_new {items : List (κ × β)} {k : κ} (h : k ∉ items.map Prod.fst) (v : β) :
    assign items k v = items ++ [(k, v)] := by
  induction items with
  | nil => rfl
  | cons kv items ih =>
      rcases kv with ⟨k', v'⟩
      rw [List.map_cons, List.mem_cons, not_or] at h
      rw [assign, if_neg (Ne.symm h.1), ih h.2, List.cons_append]

theorem assign_distinct {items : List (κ × β)} (h : (items.map Prod.fst).Nodup) (k : κ) (v : β) :
    ((assign items k v).map Prod.fst).Nodup := by
  by_cases hk : k ∈ items.map Prod.fst
  · rwa [assign_held hk]
  · rw [assign_new hk, List.map_append]
    refine List.nodup_append.mpr ⟨h, List.nodup_singleton _, ?_⟩
    intro a ha b hb hab
    rw [hab, List.mem_singleton.mp hb] at ha
    exact hk ha

/-- `d[k] = v`. -/
def set (d : Dict κ β) (k : κ) (v : β) : Dict κ β :=
  { items := assign d.items k v, distinct := assign_distinct d.distinct k v }

/-- The dictionary without a key, whether or not it was there. -/
def erase (d : Dict κ β) (k : κ) : Dict κ β :=
  { items := d.items.filter fun kv => kv.1 ≠ k
    distinct := d.distinct.sublist (List.filter_sublist.map Prod.fst) }

theorem get?_empty (k : κ) : (empty : Dict κ β).get? k = none := rfl

/-- The items left after a removal. -/
theorem items_erase (d : Dict κ β) (k : κ) :
    (d.erase k).items = d.items.filter fun kv => kv.1 ≠ k := rfl

/-- What is read under a key is the value of the item with that key. -/
theorem get?_eq_some_iff (d : Dict κ β) (k : κ) (v : β) :
    d.get? k = some v ↔ (k, v) ∈ d.items := by
  rcases d with ⟨items, hdistinct⟩
  dsimp only [get?]
  induction items with
  | nil => simp only [List.lookup_nil, reduceCtorEq, List.not_mem_nil]
  | cons kv items ih =>
      rcases kv with ⟨k', v'⟩
      rw [List.map_cons, List.nodup_cons] at hdistinct
      rw [List.lookup_cons, List.mem_cons, Prod.mk.injEq]
      by_cases hk : k = k'
      · rw [hk, BEq.rfl]
        refine ⟨fun h => Or.inl ⟨rfl, (Option.some.inj h).symm⟩, fun h => ?_⟩
        rcases h with ⟨_, hv⟩ | hmem
        · rw [hv]
        · -- No other item has the key of the first.
          exact absurd (List.mem_map.mpr ⟨_, hmem, rfl⟩) hdistinct.1
      · rw [beq_eq_false_iff_ne.mpr hk, ih hdistinct.2]
        exact ⟨Or.inr, fun h => h.resolve_left fun heq => hk heq.1⟩

theorem lookup_assign (items : List (κ × β)) (k k' : κ) (v : β) :
    (assign items k v).lookup k' = if k' = k then some v else items.lookup k' := by
  induction items with
  | nil =>
      rw [assign, List.lookup_cons]
      by_cases hk : k' = k
      · rw [if_pos hk, beq_iff_eq.mpr hk]
      · rw [if_neg hk, beq_eq_false_iff_ne.mpr hk]
  | cons kv items ih =>
      rcases kv with ⟨l, u⟩
      by_cases hl : l = k
      · rw [assign, if_pos hl, List.lookup_cons, List.lookup_cons, hl]
        by_cases hk : k' = k
        · rw [if_pos hk, beq_iff_eq.mpr hk]
        · rw [if_neg hk, beq_eq_false_iff_ne.mpr hk]
      · rw [assign, if_neg hl, List.lookup_cons, List.lookup_cons, ih]
        by_cases hk : k' = k
        · have hkl : (k' == l) = false := beq_eq_false_iff_ne.mpr fun heq => hl (heq ▸ hk)
          rw [hkl, if_pos hk]
        · rw [if_neg hk, if_neg hk]

/-- What is read after an assignment. -/
theorem get?_set (d : Dict κ β) (k k' : κ) (v : β) :
    (d.set k v).get? k' = if k' = k then some v else d.get? k' :=
  lookup_assign d.items k k' v

/-- What is read after an assignment was there before, or was assigned. -/
theorem get?_set_cases {d : Dict κ β} {k k' : κ} {v v' : β}
    (h : (d.set k v).get? k' = some v') : d.get? k' = some v' ∨ k' = k ∧ v' = v := by
  rw [get?_set] at h
  by_cases hk : k' = k
  · rw [if_pos hk] at h
    exact Or.inr ⟨hk, (Option.some.inj h).symm⟩
  · rw [if_neg hk] at h
    exact Or.inl h

theorem get?_eq_none_iff (d : Dict κ β) (k : κ) : d.get? k = none ↔ k ∉ d.keys := by
  rw [Option.eq_none_iff_forall_ne_some]
  constructor
  · intro h hk
    rcases List.mem_map.mp hk with ⟨⟨k', v⟩, hmem, rfl⟩
    exact h v ((get?_eq_some_iff d k' v).mpr hmem)
  · intro h v hv
    exact h (List.mem_map.mpr ⟨_, (get?_eq_some_iff d k v).mp hv, rfl⟩)

/-- A new key goes to the end. -/
theorem items_set_new {d : Dict κ β} {k : κ} (h : k ∉ d.keys) (v : β) :
    (d.set k v).items = d.items ++ [(k, v)] :=
  assign_new h v

theorem keys_set_new {d : Dict κ β} {k : κ} (h : k ∉ d.keys) (v : β) :
    (d.set k v).keys = d.keys ++ [k] := by
  rw [keys, items_set_new h, List.map_append]
  rfl

theorem values_set_new {d : Dict κ β} {k : κ} (h : k ∉ d.keys) (v : β) :
    (d.set k v).values = d.values ++ [v] := by
  rw [values, items_set_new h, List.map_append]
  rfl

/-- What is read after a removal. -/
theorem get?_erase (d : Dict κ β) (k k' : κ) (v : β) :
    (d.erase k).get? k' = some v ↔ d.get? k' = some v ∧ k' ≠ k := by
  rw [get?_eq_some_iff, get?_eq_some_iff, items_erase, List.mem_filter, decide_eq_true_eq]

theorem keys_erase (d : Dict κ β) (k : κ) : (d.erase k).keys = d.keys.filter (· ≠ k) := by
  rw [keys, keys, items_erase, List.filter_map]
  rfl

theorem filter_other {items : List (κ × β)} {k : κ} (h : k ∉ items.map Prod.fst) :
    items.filter (fun kv => kv.1 ≠ k) = items := by
  refine List.filter_eq_self.mpr fun kv hkv => decide_eq_true fun hk => h ?_
  rw [← hk]
  exact List.mem_map.mpr ⟨kv, hkv, rfl⟩

/-- Removing a key that is not there changes nothing. -/
theorem erase_of_get?_none {d : Dict κ β} {k : κ} (h : d.get? k = none) : d.erase k = d := by
  rw [get?_eq_none_iff] at h
  exact Dict.ext (filter_other h)

/-- Removing a key takes out the one value it held. -/
theorem values_erase {d : Dict κ β} {k : κ} {v : β} (h : d.get? k = some v) :
    d.values.Perm (v :: (d.erase k).values) := by
  rcases List.append_of_mem ((get?_eq_some_iff d k v).mp h) with ⟨before, after, hitems⟩
  have hdistinct := d.distinct
  rw [hitems, List.map_append, List.map_cons, List.nodup_append, List.nodup_cons] at hdistinct
  rcases hdistinct with ⟨_, ⟨hafter, _⟩, hbefore⟩
  -- No item before or after has the key, so both parts are kept.
  have hkept : (d.erase k).items = before ++ after := by
    have hself : ((k, v) :: after).filter (fun kv => kv.1 ≠ k) =
        after.filter (fun kv => kv.1 ≠ k) :=
      List.filter_cons_of_neg (by
        simp only [ne_eq, not_true_eq_false, decide_false, Bool.false_eq_true, not_false_eq_true])
    rw [items_erase, hitems, List.filter_append, hself, filter_other hafter,
      filter_other fun hk => hbefore k hk k List.mem_cons_self rfl]
  rw [values, values, hitems, hkept, List.map_append, List.map_append, List.map_cons]
  exact List.perm_middle

end Dict

end Core

end Asante
