import Asante.Core.TimedMap
import Asante.Model.Stores

/-!
# The Cache as a Timed Map

The reservation cache against the timed map it stands for.

A lookup that comes too late removes the entry it finds, so the store does not
hold the standing entries: it holds those no lookup has found expired.
`Agrees` is that relation between a store and the history of a timed map, one
key at a time, and every operation keeps it. What a lookup answers is then a
matter of the history alone, and the clock enters only once: an entry that was
evicted had expired, and it has still expired now.

All this is of numbers that are finite and added exactly. The floats have a
value that is not a number, which `put` accepts as a lifetime since it is not
`<= 0`, and whose entry never expires since nothing compares with its end.

## Main definitions

* `CacheOp`, `runCache`: The operations, and a sequence of them from a store.
* `CacheOp.Affects`, `LastPut`: Which operation of a sequence counts for a key.
* `CacheOp.timed`: The operation on the timed map.
* `Agrees`: A store holds the entries no lookup has found expired.

## Theorems

* `agrees_step`, `agrees_run`: Every operation keeps the agreement.
* `lastPut_iff`: The standing entry of the history is the one of the last put.
* `cacheGet_answer`: What a lookup answers, from the history.
* `cache_refines_timed_map`: What a lookup answers, from the operations, and
  what another lookup before it changes.
* `nan_lifetime_hits`: Not so with a lifetime that is not a number.
-/

namespace Asante

open Asante.Core (Timed TimedOp)
open Asante.Core.TimedMap

section Operations

variable {τ : Type} [LE τ] [DecidableLE τ] [Add τ] [Sub τ] [Max τ] [Zero τ]

/-- The operations of the cache. -/
inductive CacheOp (τ : Type) where
  | put (key : String) (value : PyDict) (ttlSeconds : τ)
  | get (key : String)
  | delete (key : String)
  | clear

/-- The store after an operation at a reading of the clock. -/
def CacheOp.apply (monotonic : τ) (cache : CacheStore τ) : CacheOp τ → CacheStore τ
  | put key value ttlSeconds => (cachePut monotonic key value ttlSeconds cache).2
  | get key => (cacheGet monotonic key cache).2
  | delete key => cacheDelete key cache
  | clear => cacheClear cache

/-- The store after a sequence of operations, each at its reading of the
    clock. -/
def runCache (cache : CacheStore τ) (ops : List (τ × CacheOp τ)) : CacheStore τ :=
  ops.foldl (fun c o => o.2.apply o.1 c) cache

/-- `InMemoryCacheStore()`. -/
def CacheStore.empty {τ : Type} : CacheStore τ :=
  { entries := [], getCalls := 0 }

/-- The operation succeeds and replaces or removes what the key holds. -/
def CacheOp.Affects (key : String) : CacheOp τ → Prop
  | put key' _ ttlSeconds => key' = key ∧ ¬ ttlSeconds ≤ 0
  | get _ => False
  | delete key' => key' = key
  | clear => True

/-- The last operation that affected the key put the value there at `start`,
    for `ttlSeconds`; `since` is what came after. -/
def LastPut (ops : List (τ × CacheOp τ)) (key : String) (start : τ) (value : PyDict)
    (ttlSeconds : τ) (since : List (τ × CacheOp τ)) : Prop :=
  ¬ ttlSeconds ≤ 0 ∧ (∃ before, ops = before ++ (start, .put key value ttlSeconds) :: since) ∧
    ∀ o ∈ since, ¬ o.2.Affects key

/-- What a lookup of a key has to answer after the operations: a hit exactly when
    the last operation that affected the key put a value there that has not
    expired, with that value and its age; and a miss is flagged as expired exactly
    when that operation was a put that has expired and no lookup since then came
    too late for it. -/
structure MapAnswer [LT τ] (ops : List (τ × CacheOp τ)) (t : τ) (key : String)
    (lookup : CacheLookup τ) : Prop where
  hit : lookup.hit = true ↔ ∃ start value ttlSeconds since,
    LastPut ops key start value ttlSeconds since ∧ t < start + ttlSeconds
  value : ∀ start value ttlSeconds since, LastPut ops key start value ttlSeconds since →
    t < start + ttlSeconds → lookup.value = some value ∧ lookup.ageSeconds = t - start
  expired : lookup.expired = true ↔ ∃ start value ttlSeconds since,
    LastPut ops key start value ttlSeconds since ∧ start + ttlSeconds ≤ t ∧
      ∀ t', (t', CacheOp.get key) ∈ since → t' < start + ttlSeconds

/-- The readings of the clock do not go back. -/
def ClockOrdered (ops : List (τ × CacheOp τ)) (t : τ) : Prop :=
  (ops.map (·.1) ++ [t]).Pairwise (· ≤ ·)

end Operations

/-- The operation on the timed map, and nothing for a put that raises. -/
def CacheOp.timed (o : ℚ × CacheOp ℚ) : Option (TimedOp String PyDict ℚ) :=
  match o.2 with
  | put key value ttlSeconds =>
    if ttlSeconds ≤ 0 then none else some (.write key ⟨value, o.1, o.1 + ttlSeconds⟩)
  | get key => some (.read key o.1)
  | delete key => some (.erase key)
  | clear => some .wipe

/-- The history of the timed map. -/
def timedHistory (ops : List (ℚ × CacheOp ℚ)) : List (TimedOp String PyDict ℚ) :=
  ops.filterMap CacheOp.timed

/-- An entry of the cache as an entry of the timed map. -/
def CacheEntry.timed (entry : CacheEntry ℚ) : Timed PyDict ℚ :=
  ⟨entry.value, entry.createdAt, entry.expiresAt⟩

/-- The store holds, under each key, the standing entry unless a lookup has found
    it expired. -/
def Agrees (cache : CacheStore ℚ) (h : List (TimedOp String PyDict ℚ)) : Prop :=
  ∀ key entry, cache.entries.lookup key = some entry ↔ slot key h = some (entry.timed, false)

theorem cacheEntry_timed_inj {a b : CacheEntry ℚ} (h : a.timed = b.timed) : a = b := by
  cases a
  cases b
  simp only [CacheEntry.timed, Timed.mk.injEq] at h
  rw [h.1, h.2.1, h.2.2]

theorem lookup_popEntry (entries : List (String × CacheEntry ℚ)) (key key' : String) :
    (popEntry entries key).lookup key' = if key' = key then none else entries.lookup key' := by
  induction entries with
  | nil => simp only [popEntry, List.filter_nil, List.lookup_nil, ite_self]
  | cons e entries ih =>
      rw [popEntry] at ih ⊢
      by_cases he : e.1 = key
      · -- The popped entry answered for no other key.
        rw [List.filter_cons, if_neg (fun hkeep => (of_decide_eq_true hkeep : e.1 ≠ key) he), ih,
          List.lookup_cons]
        by_cases hk : key' = key
        · rw [if_pos hk, if_pos hk]
        · rw [if_neg hk, if_neg hk, beq_eq_false_iff_ne.mpr (he.symm ▸ hk)]
      · rw [List.filter_cons, if_pos (decide_eq_true he), List.lookup_cons, List.lookup_cons, ih]
        by_cases hk : key' = key
        · rw [if_pos hk, if_pos hk, hk, beq_eq_false_iff_ne.mpr (Ne.symm he)]
        · rw [if_neg hk, if_neg hk]

/-- Popping a key leaves what other keys hold and nothing under this one. -/
theorem agrees_pop {cache : CacheStore ℚ} {h : List (TimedOp String PyDict ℚ)}
    (hagree : Agrees cache h) (key : String) (n : Nat) {h' : List (TimedOp String PyDict ℚ)}
    (hself : ∀ e, slot key h' ≠ some (e, false))
    (hother : ∀ key', key' ≠ key → slot key' h' = slot key' h) :
    Agrees ⟨popEntry cache.entries key, n⟩ h' := by
  intro key' entry
  dsimp only
  rw [lookup_popEntry]
  by_cases hk : key' = key
  · rw [if_pos hk, hk]
    exact iff_of_false (by simp only [reduceCtorEq, not_false_eq_true]) (hself _)
  · rw [if_neg hk, hother key' hk]
    exact hagree key' entry

/-- An operation on another key leaves a key as it was. -/
theorem slot_snoc_other {key key' : String} (hk : key' ≠ key) (e : Timed PyDict ℚ) (t : ℚ)
    (h : List (TimedOp String PyDict ℚ)) : slot key' (h ++ [.write key e]) = slot key' h ∧
      slot key' (h ++ [.read key t]) = slot key' h ∧
      slot key' (h ++ [.erase key]) = slot key' h := by
  simp only [slot_snoc, slotStep, if_neg (Ne.symm hk), and_self]

theorem agrees_get {cache : CacheStore ℚ} {h : List (TimedOp String PyDict ℚ)}
    (hagree : Agrees cache h) (t : ℚ) (key : String) :
    Agrees (cacheGet t key cache).2 (h ++ [.read key t]) := by
  have hother : ∀ key', key' ≠ key → slot key' (h ++ [.read key t]) = slot key' h :=
    fun key' hk => (slot_snoc_other hk ⟨[], 0, 0⟩ t h).2.1
  rcases hlookup : cache.entries.lookup key with _ | entry
  · -- Nothing is held, so the entry that stands, if any, has been found expired.
    rw [cacheGet, hlookup]
    intro key' entry
    by_cases hk : key' = key
    · rw [hk, hlookup, slot_snoc, slotStep, if_pos rfl]
      refine iff_of_false (by simp only [reduceCtorEq, not_false_eq_true]) fun hslot => ?_
      rcases Option.map_eq_some_iff.mp hslot with ⟨⟨e, b⟩, hs, heq⟩
      rcases Prod.mk.inj heq with ⟨he, hb⟩
      have hfresh : b = false := (Bool.or_eq_false_iff.mp hb).1
      have hheld := (hagree key entry).mpr (by rw [hs, hfresh]; exact congrArg _ (Prod.ext he rfl))
      rw [hlookup] at hheld
      exact absurd hheld (by simp only [reduceCtorEq, not_false_eq_true])
    · rw [hother key' hk]
      exact hagree key' entry
  · have hslot := (hagree key entry).mp hlookup
    have hread : slot key (h ++ [.read key t]) =
        some (entry.timed, decide (entry.expiresAt ≤ t)) := by
      rw [slot_snoc, slotStep, if_pos rfl, hslot, Option.map_some, Bool.false_or]
      rfl
    rw [cacheGet, hlookup]
    dsimp only
    by_cases hexpired : entry.expiresAt ≤ t
    · -- The lookup evicts exactly when it finds the entry expired.
      rw [if_pos hexpired]
      refine agrees_pop hagree key _ (fun e he => ?_) hother
      rw [hread, decide_eq_true hexpired] at he
      exact absurd (congrArg Prod.snd (Option.some.inj he)) Bool.noConfusion
    · rw [if_neg hexpired]
      intro key' entry'
      by_cases hk : key' = key
      · rw [hk, hread, decide_eq_false hexpired, ← hslot]
        exact hagree key entry'
      · rw [hother key' hk]
        exact hagree key' entry'

theorem agrees_put {cache : CacheStore ℚ} {h : List (TimedOp String PyDict ℚ)}
    (hagree : Agrees cache h) (t : ℚ) (key : String) (value : PyDict) {ttlSeconds : ℚ}
    (httl : ¬ ttlSeconds ≤ 0) : Agrees (cachePut t key value ttlSeconds cache).2
      (h ++ [.write key ⟨value, t, t + ttlSeconds⟩]) := by
  rw [cachePut, if_neg httl]
  intro key' entry
  dsimp only
  rw [List.lookup_cons, lookup_popEntry]
  by_cases hk : key' = key
  · -- The new entry is found first.
    rw [hk, BEq.rfl, slot_snoc]
    simp only [slotStep, if_true, Option.some.injEq, Prod.mk.injEq, and_true]
    constructor
    · exact fun he => congrArg CacheEntry.timed he
    · exact fun he => cacheEntry_timed_inj he
  · rw [beq_eq_false_iff_ne.mpr hk, if_neg hk, (slot_snoc_other hk _ t h).1]
    exact hagree key' entry

/-- Every operation keeps the agreement. -/
theorem agrees_step {cache : CacheStore ℚ} {ops : List (ℚ × CacheOp ℚ)}
    (hagree : Agrees cache (timedHistory ops)) (o : ℚ × CacheOp ℚ) :
    Agrees (o.2.apply o.1 cache) (timedHistory (ops ++ [o])) := by
  rw [timedHistory, List.filterMap_append]
  rcases o with ⟨t, op⟩
  cases op with
  | put key value ttlSeconds =>
      by_cases httl : ttlSeconds ≤ 0
      · -- A put that raises is no operation of the map.
        simp only [List.filterMap_cons, List.filterMap_nil, CacheOp.timed, if_pos httl,
          List.append_nil, CacheOp.apply, cachePut]
        exact hagree
      · simp only [List.filterMap_cons, List.filterMap_nil, CacheOp.timed, if_neg httl]
        exact agrees_put hagree t key value httl
  | get key => exact agrees_get hagree t key
  | delete key =>
      refine agrees_pop hagree key _ (fun e he => ?_)
        fun key' hk => (slot_snoc_other hk ⟨[], 0, 0⟩ t _).2.2
      rw [List.filterMap_cons, CacheOp.timed, List.filterMap_nil, slot_snoc, slotStep,
        if_pos rfl] at he
      exact absurd he (by simp only [reduceCtorEq, not_false_eq_true])
  | clear =>
      intro key entry
      rw [List.filterMap_cons, CacheOp.timed, List.filterMap_nil, slot_snoc]
      simp only [CacheOp.apply, cacheClear, List.lookup_nil, slotStep, reduceCtorEq]

theorem runCache_snoc (cache : CacheStore ℚ) (ops : List (ℚ × CacheOp ℚ)) (o : ℚ × CacheOp ℚ) :
    runCache cache (ops ++ [o]) = o.2.apply o.1 (runCache cache ops) := by
  rw [runCache, List.foldl_append]
  rfl

/-- The store after any sequence of operations agrees with their history. -/
theorem agrees_run (ops : List (ℚ × CacheOp ℚ)) :
    Agrees (runCache .empty ops) (timedHistory ops) := by
  induction ops using List.reverseRecOn with
  | nil =>
      intro key entry
      simp only [runCache, List.foldl_nil, CacheStore.empty, List.lookup_nil, timedHistory,
        List.filterMap_nil, slot_nil, reduceCtorEq]
  | append_singleton ops o ih =>
      rw [runCache_snoc]
      exact agrees_step ih o

theorem timed_put_raises {t : ℚ} {key : String} {value : PyDict} {ttlSeconds : ℚ}
    (h : ttlSeconds ≤ 0) : CacheOp.timed (t, .put key value ttlSeconds) = none :=
  if_pos h

theorem timed_put {t : ℚ} {key : String} {value : PyDict} {ttlSeconds : ℚ}
    (h : ¬ ttlSeconds ≤ 0) : CacheOp.timed (t, .put key value ttlSeconds) =
      some (.write key ⟨value, t, t + ttlSeconds⟩) :=
  if_neg h

theorem affects_iff (key : String) (o : ℚ × CacheOp ℚ) :
    o.2.Affects key ↔ ∃ o', CacheOp.timed o = some o' ∧ Affects key o' := by
  rcases o with ⟨t, op⟩
  cases op with
  | put key' value ttlSeconds =>
      by_cases httl : ttlSeconds ≤ 0
      · -- A put that raises affects nothing.
        refine iff_of_false (fun h => h.2 httl) ?_
        rintro ⟨o', ho', -⟩
        rw [timed_put_raises httl] at ho'
        exact absurd ho' (by simp only [reduceCtorEq, not_false_eq_true])
      · rw [timed_put httl]
        simp only [Option.some.injEq, exists_eq_left', CacheOp.Affects, Affects, httl,
          not_false_eq_true, and_true]
  | get key' => simp only [CacheOp.timed, Option.some.injEq, exists_eq_left', CacheOp.Affects,
      Affects]
  | delete key' => simp only [CacheOp.timed, Option.some.injEq, exists_eq_left', CacheOp.Affects,
      Affects]
  | clear => simp only [CacheOp.timed, Option.some.injEq, exists_eq_left', CacheOp.Affects,
      Affects]

theorem findsLapsed_iff (key : String) (e : Timed PyDict ℚ) (o : ℚ × CacheOp ℚ) :
    (∃ o', CacheOp.timed o = some o' ∧ FindsLapsed key e o') ↔
      o.2 = .get key ∧ e.lapsesAt ≤ o.1 := by
  rcases o with ⟨t, op⟩
  cases op with
  | put key' value ttlSeconds =>
      refine iff_of_false ?_ fun h => absurd h.1 (by simp only [reduceCtorEq, not_false_eq_true])
      rintro ⟨o', ho', hlapsed⟩
      by_cases httl : ttlSeconds ≤ 0
      · rw [timed_put_raises httl] at ho'
        exact absurd ho' (by simp only [reduceCtorEq, not_false_eq_true])
      · rw [timed_put httl] at ho'
        rw [← Option.some.inj ho'] at hlapsed
        exact hlapsed
  | get key' => simp only [CacheOp.timed, Option.some.injEq, exists_eq_left', FindsLapsed,
      CacheOp.get.injEq]
  | delete key' => simp only [CacheOp.timed, Option.some.injEq, exists_eq_left', FindsLapsed,
      reduceCtorEq, false_and]
  | clear => simp only [CacheOp.timed, Option.some.injEq, exists_eq_left', FindsLapsed,
      reduceCtorEq, false_and]

/-- Only a put that succeeds is a write of the map. -/
theorem timed_write {o : ℚ × CacheOp ℚ} {key : String} {e : Timed PyDict ℚ}
    (h : CacheOp.timed o = some (.write key e)) : ∃ value ttlSeconds, ¬ ttlSeconds ≤ 0 ∧
      o = (o.1, .put key value ttlSeconds) ∧ e = ⟨value, o.1, o.1 + ttlSeconds⟩ := by
  rcases o with ⟨t, op⟩
  cases op with
  | put key' value ttlSeconds =>
      by_cases httl : ttlSeconds ≤ 0
      · rw [timed_put_raises httl] at h
        exact absurd h (by simp only [reduceCtorEq, not_false_eq_true])
      · rw [timed_put httl] at h
        rcases TimedOp.write.inj (Option.some.inj h) with ⟨rfl, rfl⟩
        exact ⟨value, ttlSeconds, httl, rfl, rfl⟩
  | _ => exact absurd h (by simp only [CacheOp.timed, Option.some.injEq, reduceCtorEq,
      not_false_eq_true])

/-- What the history leaves under a key is what the last put left there, with a
    note of whether a lookup since then came too late. -/
theorem lastPut_iff {ops : List (ℚ × CacheOp ℚ)} {key : String} {e : Timed PyDict ℚ} {b : Bool} :
    slot key (timedHistory ops) = some (e, b) ↔ ∃ start value ttlSeconds since,
      LastPut ops key start value ttlSeconds since ∧ e = ⟨value, start, start + ttlSeconds⟩ ∧
        (b = true ↔ ∃ t, (t, CacheOp.get key) ∈ since ∧ start + ttlSeconds ≤ t) := by
  -- What the operations since then do to the key, seen on the map.
  have hsince : ∀ since : List (ℚ × CacheOp ℚ),
      ((∀ o ∈ since.filterMap CacheOp.timed, ¬ Affects key o) ↔
        ∀ o ∈ since, ¬ o.2.Affects key) ∧
      ((∃ o ∈ since.filterMap CacheOp.timed, FindsLapsed key e o) ↔
        ∃ t, (t, CacheOp.get key) ∈ since ∧ e.lapsesAt ≤ t) := by
    intro since
    simp only [List.mem_filterMap, affects_iff]
    constructor
    · exact ⟨fun h o ho ⟨o', ho', haff⟩ => h o' ⟨o, ho, ho'⟩ haff,
        fun h o' ⟨o, ho, ho'⟩ haff => h o ho ⟨o', ho', haff⟩⟩
    · constructor
      · rintro ⟨o', ⟨o, ho, ho'⟩, hlapsed⟩
        rcases (findsLapsed_iff key e o).mp ⟨o', ho', hlapsed⟩ with ⟨hget, hlate⟩
        exact ⟨o.1, hget ▸ ho, hlate⟩
      · rintro ⟨t, ht, hlate⟩
        rcases (findsLapsed_iff key e (t, .get key)).mpr ⟨rfl, hlate⟩ with ⟨o', ho', hlapsed⟩
        exact ⟨o', ⟨_, ht, ho'⟩, hlapsed⟩
  rw [slot_eq_some_iff]
  constructor
  · rintro ⟨before, since, hsplit, hnone, hb⟩
    rcases List.filterMap_eq_append_iff.mp hsplit with ⟨l₁, l₂, hops, -, hrest⟩
    rcases List.filterMap_eq_cons_iff.mp hrest with ⟨l₃, o, l₄, hl₂, -, ho, hl₄⟩
    rcases timed_write ho with ⟨value, ttlSeconds, httl, hput, he⟩
    subst hl₄
    refine ⟨o.1, value, ttlSeconds, l₄, ⟨httl, ⟨l₁ ++ l₃, ?_⟩, (hsince l₄).1.mp hnone⟩, he, ?_⟩
    · rw [hops, hl₂, ← hput, List.append_assoc]
    · rw [hb, (hsince l₄).2, he]
  · rintro ⟨start, value, ttlSeconds, since, ⟨httl, ⟨before, hops⟩, hnone⟩, he, hb⟩
    refine ⟨before.filterMap CacheOp.timed, since.filterMap CacheOp.timed, ?_,
      (hsince since).1.mpr hnone, ?_⟩
    · rw [timedHistory, hops, List.filterMap_append, List.filterMap_cons,
        timed_put httl, he]
    · rw [hb, (hsince since).2, he]

/-- What a lookup answers of a slot. -/
def slotAnswer (t : ℚ) : Option (Timed PyDict ℚ × Bool) → CacheLookup ℚ
  | some (e, false) =>
    if e.lapsesAt ≤ t then { hit := false, ageSeconds := max 0 (t - e.since), expired := true }
    else { hit := true, value := some e.value, ageSeconds := max 0 (t - e.since) }
  | _ => { hit := false }

/-- A lookup answers from the history alone. -/
theorem cacheGet_answer {cache : CacheStore ℚ} {h : List (TimedOp String PyDict ℚ)}
    (hagree : Agrees cache h) (t : ℚ) (key : String) :
    (cacheGet t key cache).1 = slotAnswer t (slot key h) := by
  rcases hlookup : cache.entries.lookup key with _ | entry
  · -- What stands under the key, if anything, is not held by the store.
    have hnone : ∀ e, slot key h ≠ some (e, false) := by
      intro e hslot
      have hheld := (hagree key ⟨e.value, e.since, e.lapsesAt⟩).mpr hslot
      rw [hlookup] at hheld
      exact absurd hheld (by simp only [reduceCtorEq, not_false_eq_true])
    rw [cacheGet, hlookup]
    rcases hslot : slot key h with _ | ⟨e, b⟩
    · rfl
    · cases b with
      | false => exact absurd hslot (hnone e)
      | true => rfl
  · rw [cacheGet, hlookup, (hagree key entry).mp hlookup]
    dsimp only [slotAnswer, CacheEntry.timed]
    by_cases hexpired : entry.expiresAt ≤ t
    · rw [if_pos hexpired, if_pos hexpired]
    · rw [if_neg hexpired, if_neg hexpired]

theorem clockOrdered_le {ops : List (ℚ × CacheOp ℚ)} {t : ℚ} (h : ClockOrdered ops t) :
    ∀ o ∈ ops, o.1 ≤ t :=
  fun _ ho => (List.pairwise_append.mp h).2.2 _ (List.mem_map_of_mem ho) _
    (List.mem_singleton.mpr rfl)

/-- An entry that was found expired has expired, and the standing entry is no
    younger than it looks. -/
theorem slot_past {ops : List (ℚ × CacheOp ℚ)} {t : ℚ} (hclock : ∀ o ∈ ops, o.1 ≤ t) {key : String}
    {e : Timed PyDict ℚ} {b : Bool} (hslot : slot key (timedHistory ops) = some (e, b)) :
    e.since ≤ t ∧ (b = true → e.lapsesAt ≤ t) := by
  rcases lastPut_iff.mp hslot with ⟨start, value, ttlSeconds, since, ⟨-, ⟨before, hops⟩, -⟩, he, -⟩
  constructor
  · rw [he]
    exact hclock _ (hops ▸ List.mem_append_right _ List.mem_cons_self)
  · intro hb
    rw [hb] at hslot
    refine slot_lapsed (fun key' t' hread => ?_) hslot
    rcases List.mem_filterMap.mp hread with ⟨o, ho, htimed⟩
    -- A read of the map is a lookup of the cache, at its time.
    rcases (findsLapsed_iff key' ⟨[], t', t'⟩ o).mp ⟨_, htimed, rfl, le_rfl⟩ with ⟨hget, -⟩
    have htime : o.1 = t' := by
      rw [CacheOp.timed, hget] at htimed
      exact (TimedOp.read.inj (Option.some.inj htimed)).2
    exact htime ▸ hclock o ho

/-- The last put of a sequence, and whether a lookup since then came too late,
    are determined by the sequence. -/
theorem lastPut_slot {ops : List (ℚ × CacheOp ℚ)} {key : String} {start ttlSeconds : ℚ}
    {value : PyDict} {since : List (ℚ × CacheOp ℚ)}
    (h : LastPut ops key start value ttlSeconds since) : ∃ b,
      slot key (timedHistory ops) = some (⟨value, start, start + ttlSeconds⟩, b) ∧
        (b = true ↔ ∃ t, (t, CacheOp.get key) ∈ since ∧ start + ttlSeconds ≤ t) := by
  classical
  refine ⟨decide (∃ t, (t, CacheOp.get key) ∈ since ∧ start + ttlSeconds ≤ t), ?_,
    decide_eq_true_iff⟩
  exact lastPut_iff.mpr ⟨start, value, ttlSeconds, since, h, rfl, decide_eq_true_iff⟩

/-- An entry that stands and has not expired is a hit. -/
theorem slotAnswer_hit {s : Option (Timed PyDict ℚ × Bool)} {e : Timed PyDict ℚ} {t : ℚ}
    (hheld : s.map (·.1) = some e) (hpast : s = some (e, true) → e.lapsesAt ≤ t)
    (hlive : t < e.lapsesAt) :
    slotAnswer t s = { hit := true, value := some e.value, ageSeconds := max 0 (t - e.since) } := by
  rcases Option.map_eq_some_iff.mp hheld with ⟨⟨e', b⟩, hs, he⟩
  dsimp only at he
  subst he
  cases b with
  | true => exact absurd (hpast hs) (not_le.mpr hlive)
  | false => rw [hs, slotAnswer, if_neg (not_le.mpr hlive)]

/-- A hit is of an entry that stands and has not expired. -/
theorem slotAnswer_live {s : Option (Timed PyDict ℚ × Bool)} {t : ℚ}
    (h : (slotAnswer t s).hit = true) : ∃ e, s.map (·.1) = some e ∧ t < e.lapsesAt := by
  rcases s with _ | ⟨e, b⟩
  · exact absurd h Bool.noConfusion
  · cases b with
    | true => exact absurd h Bool.noConfusion
    | false =>
        refine ⟨e, rfl, not_le.mp fun hexpired => ?_⟩
        rw [slotAnswer, if_pos hexpired] at h
        exact absurd h Bool.noConfusion

/-- Every lookup answers as the timed map does. -/
theorem cacheGet_mapAnswer {ops : List (ℚ × CacheOp ℚ)} {t : ℚ} (hclock : ∀ o ∈ ops, o.1 ≤ t)
    (key : String) : MapAnswer ops t key (cacheGet t key (runCache .empty ops)).1 := by
  rw [cacheGet_answer (agrees_run ops) t key]
  refine ⟨⟨fun hhit => ?_, ?_⟩, ?_, fun hexpired => ?_, ?_⟩
  · rcases slotAnswer_live hhit with ⟨e, hheld, hlive⟩
    rcases Option.map_eq_some_iff.mp hheld with ⟨⟨e', b⟩, hs, he⟩
    dsimp only at he
    subst he
    rcases lastPut_iff.mp hs with ⟨start, value, ttlSeconds, since, hlast, he, -⟩
    rw [he] at hlive
    exact ⟨start, value, ttlSeconds, since, hlast, hlive⟩
  · rintro ⟨start, value, ttlSeconds, since, hlast, hlive⟩
    rcases lastPut_slot hlast with ⟨b, hs, -⟩
    rw [slotAnswer_hit (by rw [hs]; rfl) (fun h => (slot_past hclock h).2 rfl) hlive]
  · intro start value ttlSeconds since hlast hlive
    rcases lastPut_slot hlast with ⟨b, hs, -⟩
    rw [slotAnswer_hit (by rw [hs]; rfl) (fun h => (slot_past hclock h).2 rfl) hlive]
    -- The clock has not gone back since the put, so the age is the difference.
    exact ⟨rfl, max_eq_right (sub_nonneg.mpr (slot_past hclock hs).1)⟩
  · rcases hs : slot key (timedHistory ops) with _ | ⟨e, b⟩
    · rw [hs] at hexpired
      exact absurd hexpired Bool.noConfusion
    · rcases lastPut_iff.mp hs with ⟨start, value, ttlSeconds, since, hlast, he, hb⟩
      rw [hs] at hexpired
      cases b with
      | true => exact absurd hexpired Bool.noConfusion
      | false =>
          have hlate : e.lapsesAt ≤ t := not_lt.mp fun hlive => by
            rw [slotAnswer, if_neg (not_le.mpr hlive)] at hexpired
            exact Bool.noConfusion hexpired
          refine ⟨start, value, ttlSeconds, since, hlast, by rwa [he] at hlate, fun t' ht' => ?_⟩
          -- A lookup that came too late would have evicted the entry.
          exact not_le.mp fun hle => Bool.noConfusion (hb.mpr ⟨t', ht', hle⟩)
  · rintro ⟨start, value, ttlSeconds, since, hlast, hlate, hearly⟩
    rcases lastPut_slot hlast with ⟨b, hs, hb⟩
    have hfresh : b = false := Bool.eq_false_iff.mpr fun htrue =>
      (hb.mp htrue).elim fun t' ht' => absurd ht'.2 (not_le.mpr (hearly t' ht'.1))
    rw [hs, hfresh, slotAnswer, if_pos hlate]

/-- A lookup in between changes no lookup of another key, and no hit. -/
theorem cacheGet_after_get {before after : List (ℚ × CacheOp ℚ)} {t t' : ℚ} (key' : String)
    (hclock : ∀ o ∈ before ++ (t', .get key') :: after, o.1 ≤ t) (key : String) :
    (key' ≠ key → (cacheGet t key (runCache .empty (before ++ (t', .get key') :: after))).1 =
      (cacheGet t key (runCache .empty (before ++ after))).1) ∧
    ((cacheGet t key (runCache .empty (before ++ after))).1.hit = true →
      (cacheGet t key (runCache .empty (before ++ (t', .get key') :: after))).1 =
        (cacheGet t key (runCache .empty (before ++ after))).1) := by
  have hwith : timedHistory (before ++ (t', .get key') :: after) =
      timedHistory before ++ .read key' t' :: timedHistory after := by
    simp only [timedHistory, List.filterMap_append, List.filterMap_cons, CacheOp.timed]
  have hwithout : timedHistory (before ++ after) = timedHistory before ++ timedHistory after := by
    rw [timedHistory, List.filterMap_append]
    rfl
  have hclock' : ∀ o ∈ before ++ after, o.1 ≤ t := by
    intro o ho
    refine hclock o ?_
    rcases List.mem_append.mp ho with hold | hnew
    · exact List.mem_append_left _ hold
    · exact List.mem_append_right _ (List.mem_cons_of_mem _ hnew)
  rw [cacheGet_answer (agrees_run _) t key, cacheGet_answer (agrees_run _) t key]
  constructor
  · intro hk
    rw [hwith, hwithout, slot_read_other hk]
  · intro hhit
    -- The same entry stands with and without the lookup, and it has not expired.
    rcases slotAnswer_live hhit with ⟨e, hheld, hlive⟩
    have hheld' : held key (timedHistory (before ++ (t', .get key') :: after)) = some e := by
      rw [hwith, held_read, ← hwithout]
      exact hheld
    rw [slotAnswer_hit hheld (fun h => (slot_past hclock' h).2 rfl) hlive,
      slotAnswer_hit hheld' (fun h => (slot_past hclock h).2 rfl) hlive]

/-- After any operations on an empty cache, with finite lifetimes and readings
    that are added exactly and a clock that does not go back, every lookup
    answers as the timed map does; a put for no time raises and changes nothing;
    and a lookup in between, though it may evict, changes no lookup of another
    key and no hit. -/
theorem cache_refines_timed_map (ops : List (ℚ × CacheOp ℚ)) (t : ℚ) (hclock : ClockOrdered ops t) :
    (∀ key, MapAnswer ops t key (cacheGet t key (runCache .empty ops)).1) ∧
    (∀ key value ttlSeconds, ttlSeconds ≤ 0 →
      cachePut t key value ttlSeconds (runCache .empty ops) =
        (.error (.valueError "ttl_seconds must be greater than zero"), runCache .empty ops)) ∧
    ∀ before t' key' after, ops = before ++ (t', .get key') :: after → ∀ key,
      (key' ≠ key → (cacheGet t key (runCache .empty ops)).1 =
        (cacheGet t key (runCache .empty (before ++ after))).1) ∧
      ((cacheGet t key (runCache .empty (before ++ after))).1.hit = true →
        (cacheGet t key (runCache .empty ops)).1 =
          (cacheGet t key (runCache .empty (before ++ after))).1) := by
  refine ⟨cacheGet_mapAnswer (clockOrdered_le hclock), fun key value ttlSeconds httl => ?_, ?_⟩
  · exact if_pos httl
  · rintro before t' key' after rfl key
    exact cacheGet_after_get key' (clockOrdered_le hclock) key

/-- Two entries, the first of them evicted by the lookup that comes too late. -/
def evictedOps : List (ℚ × CacheOp ℚ) :=
  [(0, .put "reservation:a" [] 5), (1, .put "reservation:b" [] 9), (5, .get "reservation:a")]

theorem cache_refines_evicted : ClockOrdered evictedOps 6 ∧
    MapAnswer evictedOps 6 "reservation:b"
      (cacheGet 6 "reservation:b" (runCache .empty evictedOps)).1 ∧
    (cacheGet 6 "reservation:b" (runCache .empty evictedOps)).1.hit = true := by
  have hclock : ClockOrdered evictedOps 6 := by
    unfold ClockOrdered
    decide +kernel
  exact ⟨hclock, (cache_refines_timed_map evictedOps 6 hclock).1 "reservation:b",
    by decide +kernel⟩

/-- A put for a time that is not a number. -/
def nanLifetime : List (PyFloat × CacheOp PyFloat) :=
  [(.finite 0, .put "reservation:a" [] .nan)]

/-- Among the floats the map is not the one that is meant: a lifetime that is not
    a number is accepted, and its entry is a hit at any time. -/
theorem nan_lifetime_hits :
    ¬ ∀ (ops : List (PyFloat × CacheOp PyFloat)) (t : PyFloat), ClockOrdered ops t →
      ∀ key, MapAnswer ops t key (cacheGet t key (runCache .empty ops)).1 := by
  intro h
  have hclock : ClockOrdered nanLifetime (.finite 1) := by
    unfold ClockOrdered
    decide +kernel
  have hhit : (cacheGet (.finite 1) "reservation:a" (runCache .empty nanLifetime)).1.hit = true :=
    rfl
  rcases (h nanLifetime _ hclock "reservation:a").hit.mp hhit with
    ⟨start, value, ttlSeconds, since, ⟨-, ⟨before, hops⟩, -⟩, hlive⟩
  -- The one operation is the put, and no instant is before the end of its lifetime.
  have hput : (start, CacheOp.put "reservation:a" value ttlSeconds) ∈ nanLifetime := by
    rw [hops]
    exact List.mem_append_right before List.mem_cons_self
  cases List.mem_singleton.mp hput
  exact absurd hlive (by decide +kernel)

end Asante
