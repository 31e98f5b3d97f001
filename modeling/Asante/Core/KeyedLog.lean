import Mathlib.Data.List.Basic

/-!
# Keyed Append-Only Logs

An append-only list of entries with a map from idempotency keys to the entry
each key was first used for. A call with a key already bound is answered with
the bound entry and changes nothing; any other call appends.

`Tracks` is what the pair of list and map is for. A log tracks a list of
writes, the calls that did append, in order and with their keys: the entries
are the written values, a key is bound to a value exactly when some write bound
it, and no key was ever written twice. `tracks_record` shows that one call
either repeats a write or is a new one, and keeps the log tracking; a program
that uses the log reasons about the writes alone.

## Main definitions

* `KeyedLog`: The entries and the key map.
* `KeyedLog.record`: One call, answered with an entry and whether it repeats.
* `Tracks`: A log is in step with a list of writes.

## Theorems

* `record_repeats`, `record_binds`, `record_entries`: What one call does.
* `record_same`, `record_apart`: What a call does to what some keys are bound to.
* `tracks_empty`: The empty log tracks no writes.
* `tracks_record`: A call repeats a tracked write or appends a new one.
* `tracks_find`: What a key is bound to was written under it.
-/

namespace Asante

namespace Core

/-- An append-only list of entries, and the entry each key was first used
    for. -/
structure KeyedLog (κ β : Type) where
  entries : List β
  byKey : List (κ × β)
  deriving DecidableEq

namespace KeyedLog

variable {κ β : Type} [DecidableEq κ]

/-- The log before any call. -/
def empty : KeyedLog κ β :=
  { entries := [], byKey := [] }

/-- The entry bound to a key. -/
def find (log : KeyedLog κ β) (k : κ) : Option β :=
  log.byKey.lookup k

/-- One call: the entry it is answered with, and whether that entry was there
    before. -/
def record (log : KeyedLog κ β) (key : Option κ) (b : β) : (β × Bool) × KeyedLog κ β :=
  match key with
  | none => ((b, false), { log with entries := log.entries ++ [b] })
  | some k => match log.find k with
    | some existing => ((existing, true), log)
    | none => ((b, false), { entries := log.entries ++ [b], byKey := (k, b) :: log.byKey })

theorem record_new {log : KeyedLog κ β} {k : κ} (h : log.find k = none) (b : β) :
    log.record (some k) b =
      ((b, false), { entries := log.entries ++ [b], byKey := (k, b) :: log.byKey }) := by
  simp only [record, h]

theorem record_bound {log : KeyedLog κ β} {k : κ} {existing : β} (h : log.find k = some existing)
    (b : β) : log.record (some k) b = ((existing, true), log) := by
  simp only [record, h]

/-- A call under a key says whether the key was bound. -/
theorem record_repeats (log : KeyedLog κ β) (k : κ) (b : β) :
    (log.record (some k) b).1.2 = (log.find k).isSome := by
  rcases h : log.find k with _ | existing
  · rw [record_new h]
    rfl
  · rw [record_bound h]
    rfl

/-- What a key is bound to after a call under a key: what it was bound to, or else
    the entry of the call if the key is that of the call. -/
theorem record_find (log : KeyedLog κ β) (k k' : κ) (b : β) :
    (log.record (some k) b).2.find k' = (log.find k').or (if k = k' then some b else none) := by
  rcases hfind : log.find k with _ | existing
  · rw [record_new hfind, find, List.lookup_cons]
    by_cases hk : k = k'
    · rw [← hk, BEq.rfl, if_pos rfl, hfind, Option.none_or]
    · rw [beq_eq_false_iff_ne.mpr (Ne.symm hk), if_neg hk, Option.or_none]
      rfl
  · rw [record_bound hfind]
    by_cases hk : k = k'
    · rw [← hk, hfind, Option.some_or]
    · rw [if_neg hk, Option.or_none]

/-- A call under a key binds that key and no other. -/
theorem record_binds (log : KeyedLog κ β) (k k' : κ) (b : β) :
    ((log.record (some k) b).2.find k').isSome = true ↔
      (log.find k').isSome = true ∨ k' = k := by
  rw [record_find, Option.isSome_or, Bool.or_eq_true]
  refine or_congr Iff.rfl ?_
  by_cases hk : k = k'
  · rw [if_pos hk]
    exact iff_of_true rfl hk.symm
  · rw [if_neg hk]
    exact iff_of_false Bool.noConfusion (Ne.symm hk)

/-- A call under a key is answered with what the key is bound to from then on. -/
theorem record_answer (log : KeyedLog κ β) (k : κ) (b : β) :
    (log.record (some k) b).2.find k = some (log.record (some k) b).1.1 := by
  rw [record_find, if_pos rfl]
  rcases h : log.find k with _ | existing
  · rw [record_new h, Option.none_or]
  · rw [record_bound h, Option.some_or]

/-- Entries are never lost, and a call under an unbound key adds its own. -/
theorem record_entries (log : KeyedLog κ β) (k : κ) (b : β) :
    (∀ e ∈ log.entries, e ∈ (log.record (some k) b).2.entries) ∧
      ((log.find k).isSome = false → b ∈ (log.record (some k) b).2.entries) := by
  rcases h : log.find k with _ | existing
  · rw [record_new h]
    exact ⟨fun e he => List.mem_append_left _ he,
      fun _ => List.mem_append_right _ (List.mem_singleton.mpr rfl)⟩
  · rw [record_bound h]
    exact ⟨fun e he => he, fun hb => absurd hb Bool.noConfusion⟩

section Families

variable {ι : Type} {keys : ι → κ} {log log' : KeyedLog κ β}

/-- Logs that have the same bound to some keys answer a call under one of them
    alike, and have the same bound to them afterwards. -/
theorem record_same (h : ∀ i, log.find (keys i) = log'.find (keys i)) (i : ι) (b : β) :
    (log.record (some (keys i)) b).1 = (log'.record (some (keys i)) b).1 ∧
      ∀ j, (log.record (some (keys i)) b).2.find (keys j) =
        (log'.record (some (keys i)) b).2.find (keys j) := by
  refine ⟨?_, fun j => ?_⟩
  · rcases hfind : log.find (keys i) with _ | existing
    · rw [record_new hfind, record_new ((h i).symm.trans hfind)]
    · rw [record_bound hfind, record_bound ((h i).symm.trans hfind)]
  · rw [record_find, record_find, h j]

/-- A call under another key, or under none, leaves what is bound to some keys. -/
theorem record_apart {key : Option κ} (hkey : ∀ i, key ≠ some (keys i)) (b : β) (j : ι) :
    (log.record key b).2.find (keys j) = log.find (keys j) := by
  cases key with
  | none => rfl
  | some k =>
      have hne : k ≠ keys j := fun hk => hkey j (congrArg some hk)
      rw [record_find, if_neg hne, Option.or_none]

end Families

/-- The log is in step with the writes: the calls that appended, in order, each
    with its key. -/
structure Tracks (log : KeyedLog κ β) (writes : List (Option κ × β)) : Prop where
  entries : log.entries = writes.map (·.2)
  bound : ∀ k b, log.find k = some b ↔ (some k, b) ∈ writes
  once : writes.Pairwise (fun u v => u.1 = v.1 → u.1 = none)

theorem tracks_empty : Tracks (empty : KeyedLog κ β) [] where
  entries := rfl
  bound := fun k b => by
    simp only [find, empty, List.lookup_nil, reduceCtorEq, List.not_mem_nil]
  once := List.Pairwise.nil

variable {log : KeyedLog κ β} {writes : List (Option κ × β)}

/-- What a key is bound to was written under it. -/
theorem tracks_find (h : Tracks log writes) {k : κ} {b : β} (hb : log.find k = some b) :
    (some k, b) ∈ writes :=
  (h.bound k b).mp hb

theorem tracks_unbound (h : Tracks log writes) {k : κ} (hk : log.find k = none) :
    ∀ b, (some k, b) ∉ writes := by
  intro b hmem
  -- A write under the key would have bound it.
  rw [(h.bound k b).mpr hmem] at hk
  exact absurd hk (by simp only [reduceCtorEq, not_false_eq_true])

/-- A call either repeats a tracked write, answering with it and changing
    nothing, or is a new write: its key was never used, it is answered with its
    own entry, and the log tracks it from then on. -/
theorem tracks_record (h : Tracks log writes) (key : Option κ) (b : β) :
    (∃ k b', key = some k ∧ (some k, b') ∈ writes ∧
        log.record key b = ((b', true), log)) ∨
      ((∀ k, key = some k → ∀ b', (some k, b') ∉ writes) ∧
        (log.record key b).1 = (b, false) ∧
        Tracks (log.record key b).2 (writes ++ [(key, b)])) := by
  cases key with
  | none =>
      refine Or.inr ⟨fun k hk => absurd hk (by simp only [reduceCtorEq, not_false_eq_true]),
        rfl, ?_, fun k b' => ?_, ?_⟩
      · simp only [record, h.entries, List.map_append, List.map_cons, List.map_nil]
      · -- A call without a key binds nothing.
        simp only [List.mem_append, List.mem_singleton, Prod.mk.injEq, reduceCtorEq,
          false_and, or_false]
        exact h.bound k b'
      · refine List.pairwise_append.mpr ⟨h.once, List.pairwise_singleton _ _, ?_⟩
        intro u _ v hv huv
        rw [huv, List.mem_singleton.mp hv]
  | some k =>
      rcases hfind : log.find k with _ | existing
      · have hnew := tracks_unbound h hfind
        rw [record_new hfind b]
        refine Or.inr ⟨fun k' hk' b' => ?_, rfl, ?_, fun k' b' => ?_, ?_⟩
        · rw [← Option.some.inj hk']
          exact hnew b'
        · simp only [h.entries, List.map_append, List.map_cons, List.map_nil]
        · simp only [find, List.lookup_cons, List.mem_append, List.mem_singleton,
            Prod.mk.injEq, Option.some.injEq]
          by_cases hk : k' = k
          · -- The new binding; the old map had none for this key.
            subst hk
            simp only [BEq.rfl, Option.some.injEq, true_and]
            exact ⟨fun hb => Or.inr hb.symm, fun hb => hb.elim
              (fun hm => absurd hm (hnew b')) Eq.symm⟩
          · rw [beq_eq_false_iff_ne.mpr hk]
            simp only [hk, false_and, or_false]
            exact h.bound k' b'
        · refine List.pairwise_append.mpr ⟨h.once, List.pairwise_singleton _ _, ?_⟩
          intro u hu v hv huv
          rw [List.mem_singleton.mp hv] at huv
          have hukey : u = (some k, u.2) := Prod.ext huv rfl
          rw [hukey] at hu
          -- Nothing was written under the new key before.
          exact absurd hu (hnew u.2)
      · exact Or.inl ⟨k, existing, rfl, tracks_find h hfind, record_bound hfind b⟩

end KeyedLog

end Core

end Asante
