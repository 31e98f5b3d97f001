import Asante.Theory.Cache
import Asante.Theory.Ledger
import Asante.Theory.Approving

/-!
# Cached Reads

What a reservation read answers, over any sequence of reads by a provider whose
records change between them.

A cache entry was put there by an earlier read of one reservation, and holds
what the provider answered that read: `Dated` says so of every entry, with the
time it was put, and a read keeps it whether it is admitted or not and whatever
fails in it. A hit is then the record of an earlier read that is younger than
the lifetime, and of the same reservation, since the keys of two reservations
differ.

A read without a cache is a program of its own, `readWithoutCache`. It is what
a read is compared with when the records do not change.

## Main definitions

* `ReadCall`, `readSession`: One read with its surroundings, and a sequence.
* `readWithoutCache`: The read that always asks the provider.
* `ReadStep`: What the body of a read answers and leaves in the cache.
* `Dated`: Every entry was put by an earlier read.

## Theorems

* `readBody_step`: The body of a read is such a step.
* `dated_read`, `dated_session`: Reads keep the cache dated.
* `cached_reads_current`: What reads answer over a sequence.
-/

namespace Asante

open Core.Prog

/-- One read: its arguments, the environments its commands meet, and what the
    provider holds while it runs. -/
structure ReadCall where
  reservationId : String
  task : TaskContext
  chain : List DelegationGrant
  envs : Nat → Env
  records : List (String × PyDict)

/-- The reading of the clock at the cache lookup. -/
def ReadCall.lookupAt (c : ReadCall) : ℚ :=
  (c.envs 3).monotonic

/-- The reading of the clock when the answer of the provider is put into the
    cache. -/
def ReadCall.storeAt (c : ReadCall) : ℚ :=
  (c.envs 5).monotonic

/-- The provider holds other records. -/
def World.withRecords (w : World) (records : List (String × PyDict)) : World :=
  { w with reservations := { w.reservations with reservations := records } }

/-- The read, run from a world. -/
def ReadCall.run (d : Deployment) (c : ReadCall) (w : World) :
    Core.Finish Cmd Cmd.Answer Exc PyDict World :=
  Core.Prog.run perform (getReservation d c.reservationId c.task c.chain) c.envs
    (w.withRecords c.records)

/-- A sequence of reads. -/
def readSession (d : Deployment) (calls : List ReadCall) (w : World) : World :=
  calls.foldl (fun v c => (c.run d v).world) w

/-- The readings of the clock do not go back, within a read or from one read to
    a later one. -/
def ReadsOrdered (calls : List ReadCall) : Prop :=
  (∀ c ∈ calls, c.lookupAt ≤ c.storeAt) ∧ calls.Pairwise fun p c => p.storeAt ≤ c.lookupAt

/-- The dictionary of a reservation that does not exist. -/
def missingReservation (live : Revalidation) : PyDict :=
  [("status", .str "not_found"), ("effect", .str "allow"),
    ("policy_id", optStr live.authorization.policyId), ("cache", .str "miss")]

/-- The dictionary without a key. -/
def PyDict.without (dict : PyDict) (key : String) : PyDict :=
  dict.filter fun kv => kv.1 ≠ key

/-- The reservation read as it would be without a cache: the same opening, and
    the provider asked every time. -/
def readWithoutCache (d : Deployment) (reservationId : String) (task : TaskContext)
    (chain : List DelegationGrant) : App PyDict :=
  secured (reservationRequest d reservationId task chain) fun permit live => do
    let reservation ← orRaise (ask (.providerGetReservation reservationId))
    match reservation with
    | none => do
      completeOrRaise permit "reservation read lifecycle could not complete"
      return [("status", .str "not_found"), ("effect", .str "allow"),
        ("policy_id", optStr live.authorization.policyId)]
    | some reservation => do
      completeOrRaise permit "reservation disclosed but execution lifecycle did not complete"
      return [("status", .str "found"), ("effect", .str "allow"),
        ("policy_id", optStr live.authorization.policyId), ("reservation", .dict reservation)]

/-- The body of a read after a miss. -/
def readMiss (d : Deployment) (reservationId cacheKey : String) (permit : Permit)
    (live : Revalidation) : App PyDict := do
  let reservation ← orRaise (ask (.providerGetReservation reservationId))
  match reservation with
  | none => do
    completeOrRaise permit "reservation read lifecycle could not complete"
    return missingReservation live
  | some reservation => do
    orRaise (ask (.cachePut cacheKey reservation d.cacheTtlSeconds))
    completeOrRaise permit "reservation disclosed but execution lifecycle did not complete"
    return foundReservation live "miss" reservation

/-- The body of a read under a key. -/
def readKeyed (d : Deployment) (reservationId cacheKey : String) (permit : Permit)
    (live : Revalidation) : App PyDict := do
  let lookup ← orRaise (ask (.cacheGet cacheKey))
  match lookup.hit, lookup.value with
  | true, some value => do
    completeOrRaise permit "reservation disclosed but execution lifecycle did not complete"
    return foundReservation live "hit" value
  | _, _ => readMiss d reservationId cacheKey permit live

/-- The body of a read. -/
def readBody (d : Deployment) (reservationId : String) (permit : Permit) (live : Revalidation) :
    App PyDict := do
  let cacheKey ← Core.Prog.ofExcept
    (buildReservationCacheKey d.sha256 d.digestError reservationId)
  readKeyed d reservationId cacheKey permit live

theorem getReservation_eq (d : Deployment) (reservationId : String) (task : TaskContext)
    (chain : List DelegationGrant) : getReservation d reservationId task chain =
      secured (reservationRequest d reservationId task chain) (readBody d reservationId) :=
  rfl

/-- What a read may leave of the cache: nothing changed, the lookup with what it
    may evict, or after a miss the answer of the provider as well. -/
def ReadLeaves (d : Deployment) (reservationId : String) (t t' : ℚ) (w : World)
    (cache : CacheStore ℚ) : Prop :=
  cache = w.cache ∨
    cache = (cacheGet t (reservationDigest d.sha256 reservationId) w.cache).2 ∨
    ∃ value, w.reservations.reservations.lookup reservationId = some value ∧
      cache = (cachePut t' (reservationDigest d.sha256 reservationId) value
        d.cacheTtlSeconds
        (cacheGet t (reservationDigest d.sha256 reservationId) w.cache).2).2

/-- What a read may answer: what the lookup hit, or what the provider holds. -/
def ReadReports (d : Deployment) (reservationId : String) (t : ℚ) (live : Revalidation) (w : World)
    (resp : PyDict) : Prop :=
  (∃ value, (cacheGet t (reservationDigest d.sha256 reservationId) w.cache).1.hit = true ∧
    (cacheGet t (reservationDigest d.sha256 reservationId) w.cache).1.value = some value ∧
    resp = foundReservation live "hit" value) ∨
  (∃ value, w.reservations.reservations.lookup reservationId = some value ∧
    resp = foundReservation live "miss" value) ∨
  (w.reservations.reservations.lookup reservationId = none ∧ resp = missingReservation live)

/-- The body of a read reports and leaves the cache as it may, and raises only
    in trouble. -/
structure ReadStep (d : Deployment) (reservationId : String) (t t' : ℚ) (live : Revalidation)
    (w : World) (trouble : Prop) (outcome : Except Exc PyDict) (w' : World) : Prop where
  cache : ReadLeaves d reservationId t t' w w'.cache
  answer : ∀ resp, outcome = .ok resp → ReadReports d reservationId t live w resp
  raises : ∀ e, outcome = .error e → trouble

section Body

variable (d : Deployment) (reservationId : String) (permit : Permit) (live : Revalidation)

/-- A fallible command is answered and happens, or it raises, and happened or
    did not. -/
theorem apply_split {X : Type} (env : Env) (w : World) (x : X) (w' : World) :
    env.fault.apply w (.ok x, w') = (.ok x, w') ∨
      ∃ e v, env.fault.apply w (.ok x, w') = (.error e, v) ∧ (v = w ∨ v = w') ∧
        ¬ env.Succeeds := by
  rcases hfault : env.fault with _ | e | e
  · exact Or.inl rfl
  · refine Or.inr ⟨e, w, rfl, Or.inl rfl, fun h => ?_⟩
    exact absurd (h.fault.symm.trans hfault) (by simp only [reduceCtorEq, not_false_eq_true])
  · refine Or.inr ⟨e, w', rfl, Or.inr rfl, fun h => ?_⟩
    exact absurd (h.fault.symm.trans hfault) (by simp only [reduceCtorEq, not_false_eq_true])

variable {d reservationId live} {t t' : ℚ} {w w' : World} {trouble : Prop}

theorem readStep_raised (e : Exc) (hcache : ReadLeaves d reservationId t t' w w'.cache)
    (htrouble : trouble) : ReadStep d reservationId t t' live w trouble (.error e) w' where
  cache := hcache
  answer := fun _ hresp => absurd hresp (by simp only [reduceCtorEq, not_false_eq_true])
  raises := fun _ _ => htrouble

/-- A read that has its answer returns it, or raises when the lifecycle does not
    complete. -/
theorem readStep_complete {resp : PyDict} (hcache : ReadLeaves d reservationId t t' w w'.cache)
    (hresp : ReadReports d reservationId t live w resp) (message : String) (envs : Nat → Env)
    (htrouble : ¬ (envs 0).Succeeds → trouble) : ReadStep d reservationId t t' live w trouble
      (run perform (completeOrRaise permit message >>= fun _ => (pure resp : App PyDict)) envs
        w').outcome
      (run perform (completeOrRaise permit message >>= fun _ => (pure resp : App PyDict)) envs
        w').world := by
  unfold completeOrRaise
  rw [ask_bind, call_bind]
  dsimp only [run, perform]
  by_cases hcomplete : (envs 0).complete permit = true
  · rw [if_pos hcomplete]
    exact ⟨hcache, fun resp' h => Except.ok.inj h ▸ hresp,
      fun e h => absurd h (by simp only [pure_eq, done_bind, run, reduceCtorEq,
        not_false_eq_true])⟩
  · rw [if_neg hcomplete]
    exact readStep_raised _ hcache (htrouble fun h => hcomplete (h.complete permit))

/-- After a miss, the body is a step from the world before the lookup. -/
theorem readMiss_step (envs : Nat → Env) (hcache : w'.cache =
      (cacheGet t (reservationDigest d.sha256 reservationId) w.cache).2)
    (hrecords : w'.reservations = w.reservations)
    (htrouble : ∀ n, ¬ (envs n).Succeeds → trouble) :
    let miss := readMiss d reservationId (reservationDigest d.sha256 reservationId) permit live
    ReadStep d reservationId t (envs 1).monotonic live w trouble
      (run perform miss envs w').outcome (run perform miss envs w').world := by
  intro miss
  have hlooked : ReadLeaves d reservationId t (envs 1).monotonic w w'.cache :=
    Or.inr (Or.inl hcache)
  unfold miss readMiss orRaise
  rw [ask_bind, call_bind]
  dsimp only [run, perform]
  have hprovider : (providerGetReservation reservationId w'.reservations).1 =
      w.reservations.reservations.lookup reservationId := by
    rw [hrecords]
    rfl
  generalize providerGetReservation reservationId w'.reservations = got at hprovider
  rcases apply_split (envs 0) w' got.1 { w' with reservations := got.2 } with
    happly | ⟨e, v, happly, hv, hfault⟩
  · rw [happly]
    dsimp only [Core.Prog.ofExcept]
    rw [done_bind, hprovider]
    rcases hlookup : w.reservations.reservations.lookup reservationId with _ | value
    · -- There is no such reservation, and nothing is put into the cache.
      refine readStep_complete permit ?_ (Or.inr (Or.inr ⟨hlookup, rfl⟩)) _ _ (htrouble 1)
      exact hlooked
    · dsimp only
      rw [ask_bind, call_bind]
      dsimp only [run, perform]
      have hput : ∀ cache, (cachePut (envs 1).monotonic
          (reservationDigest d.sha256 reservationId) value d.cacheTtlSeconds cache).1 =
            .ok () := by
        intro cache
        rw [cachePut, if_neg (not_le.mpr d.ttl_pos)]
      have hstored : ReadLeaves d reservationId t (envs 1).monotonic w (cachePut (envs 1).monotonic
          (reservationDigest d.sha256 reservationId) value d.cacheTtlSeconds
          w'.cache).2 := by
        rw [hcache]
        exact Or.inr (Or.inr ⟨value, hlookup, rfl⟩)
      rw [hput]
      rcases apply_split (envs 1) { w' with reservations := got.2 } ()
        { w' with
          cache := (cachePut (envs 1).monotonic (reservationDigest d.sha256 reservationId)
            value d.cacheTtlSeconds w'.cache).2
          reservations := got.2 } with happly | ⟨e, v, happly, hv, hfault⟩
      · rw [happly]
        dsimp only [Core.Prog.ofExcept]
        rw [done_bind]
        refine readStep_complete permit ?_ (Or.inr (Or.inl ⟨value, hlookup, rfl⟩)) _ _
          (htrouble 2)
        exact hstored
      · rw [happly]
        dsimp only [Core.Prog.ofExcept]
        rw [fail_bind]
        refine readStep_raised e ?_ (htrouble _ hfault)
        rcases hv with rfl | rfl
        · exact hlooked
        · exact hstored
  · -- The provider raised; the lookup stays.
    rw [happly]
    dsimp only [Core.Prog.ofExcept]
    rw [fail_bind]
    refine readStep_raised e ?_ (htrouble _ hfault)
    rcases hv with rfl | rfl
    · exact hlooked
    · exact hlooked

/-- The body of a read is a step, whatever its commands meet. -/
theorem readBody_step (envs : Nat → Env) (w : World)
    (htrouble : ∀ n, ¬ (envs n).Succeeds → trouble)
    (hkeyed : d.digestError (reservationCanonical reservationId) ≠ none → trouble) :
    ReadStep d reservationId (envs 0).monotonic (envs 2).monotonic live w trouble
      (run perform (readBody d reservationId permit live) envs w).outcome
      (run perform (readBody d reservationId permit live) envs w).world := by
  unfold readBody
  rcases buildReservationCacheKey_cases d.sha256 d.digestError reservationId with
    ⟨e, herror, hkey⟩ | ⟨-, hkey⟩
  · -- Without a key the cache is not asked.
    rw [hkey]
    refine readStep_raised e (Or.inl rfl) (hkeyed ?_)
    rw [herror]
    exact Option.some_ne_none e
  rw [hkey, ofExcept_ok, done_bind]
  unfold readKeyed orRaise
  rw [ask_bind, call_bind]
  dsimp only [run, perform]
  generalize hget : cacheGet (envs 0).monotonic
    (reservationDigest d.sha256 reservationId) w.cache = got
  rcases apply_split (envs 0) w got.1 { w with cache := got.2 } with
    happly | ⟨e, v, happly, hv, hfault⟩
  · rw [happly]
    dsimp only [Core.Prog.ofExcept]
    rw [done_bind]
    -- A lookup that hits without a value is treated as a miss.
    rcases got with ⟨⟨hit, value, age, expired⟩, cache⟩
    have hmiss : ReadStep d reservationId (envs 0).monotonic (envs 2).monotonic live w trouble
        (run perform (readMiss d reservationId (reservationDigest d.sha256 reservationId) permit
          live) (fun n => envs (n + 1)) { w with cache := cache }).outcome
        (run perform (readMiss d reservationId (reservationDigest d.sha256 reservationId) permit
          live) (fun n => envs (n + 1)) { w with cache := cache }).world := by
      refine readMiss_step permit (fun n => envs (n + 1)) ?_ ?_ fun n => htrouble (n + 1)
      · rw [hget]
      · rfl
    cases hit with
    | false => exact hmiss
    | true =>
        cases value with
        | none => exact hmiss
        | some value =>
            refine readStep_complete permit (Or.inr (Or.inl ?_)) (Or.inl ⟨value, ?_, ?_, rfl⟩) _ _
              (htrouble 1)
            · rw [hget]
            · rw [hget]
            · rw [hget]
  · -- The lookup raised, after evicting or before it looked.
    rw [happly]
    dsimp only [Core.Prog.ofExcept]
    rw [fail_bind]
    refine readStep_raised e ?_ (htrouble _ hfault)
    rcases hv with rfl | rfl
    · exact Or.inl rfl
    · exact Or.inr (Or.inl (congrArg Prod.snd hget).symm)

end Body

/-- A read ends in its opening and changes nothing, or is a step with what Ruhusa
    answered at the revalidation. -/
theorem readCall_step (d : Deployment) (c : ReadCall) (w : World) :
    (∃ out, refusal (reservationRequest d c.reservationId c.task c.chain) c.envs = some out ∧
      (c.run d w).outcome = out ∧ (c.run d w).world = w.withRecords c.records) ∨
    ∃ permit, ((c.envs 1).begin (reservationRequest d c.reservationId c.task c.chain
        (c.envs 0).now)).permit = some permit ∧
      ReadStep d c.reservationId c.lookupAt c.storeAt
        ((c.envs 2).revalidate (reservationRequest d c.reservationId c.task c.chain
          (c.envs 0).now) permit)
        (w.withRecords c.records)
        ((∃ n, ¬ (c.envs n).Succeeds) ∨
          d.digestError (reservationCanonical c.reservationId) ≠ none)
        (c.run d w).outcome (c.run d w).world := by
  unfold ReadCall.run
  rw [getReservation_eq]
  rcases hrefusal : refusal (reservationRequest d c.reservationId c.task c.chain) c.envs with
    _ | out
  · rcases run_opened _ (readBody d c.reservationId) (w.withRecords c.records) hrefusal with
      ⟨permit, hpermit, hout, hworld⟩
    refine Or.inr ⟨permit, hpermit, ?_⟩
    rw [hout, hworld]
    -- The body meets the environments from the fourth on.
    exact readBody_step permit (fun n => c.envs (n + 3)) _ (fun n hn => Or.inl ⟨n + 3, hn⟩) Or.inr
  · rcases run_refused _ (readBody d c.reservationId) hrefusal with ⟨hout, hworld⟩
    exact Or.inl ⟨out, rfl, hout, hworld⟩

/-- Every entry of the cache was put there by one of the reads, under the key of
    its reservation, and holds what the provider held for it then. -/
def Dated (d : Deployment) (calls : List ReadCall) (cache : CacheStore ℚ) : Prop :=
  ∀ key entry, cache.entries.lookup key = some entry → ∃ p ∈ calls,
    key = reservationDigest d.sha256 p.reservationId ∧
      p.records.lookup p.reservationId = some entry.value ∧ entry.createdAt = p.storeAt ∧
      entry.expiresAt = p.storeAt + d.cacheTtlSeconds

/-- A lookup adds no entry. -/
theorem cacheGet_lookup {t : ℚ} {key key' : String} {cache : CacheStore ℚ} {entry : CacheEntry ℚ}
    (h : (cacheGet t key cache).2.entries.lookup key' = some entry) :
    cache.entries.lookup key' = some entry := by
  rcases hlookup : cache.entries.lookup key with _ | e
  · rwa [cacheGet, hlookup] at h
  · rw [cacheGet, hlookup] at h
    dsimp only at h
    by_cases hexpired : e.expiresAt ≤ t
    · rw [if_pos hexpired, lookup_popEntry] at h
      by_cases hk : key' = key
      · rw [if_pos hk] at h
        exact absurd h (by simp only [reduceCtorEq, not_false_eq_true])
      · rwa [if_neg hk] at h
    · rwa [if_neg hexpired] at h

theorem dated_append {d : Deployment} {calls : List ReadCall} {cache : CacheStore ℚ}
    (h : Dated d calls cache) (c : ReadCall) : Dated d (calls ++ [c]) cache := by
  intro key entry hlookup
  rcases h key entry hlookup with ⟨p, hp, hrest⟩
  exact ⟨p, List.mem_append_left _ hp, hrest⟩

/-- What a read leaves of a dated cache is dated, by the read as well. -/
theorem dated_leaves {d : Deployment} {calls : List ReadCall} {c : ReadCall} {w : World}
    {cache : CacheStore ℚ} (h : Dated d calls w.cache)
    (hleaves : ReadLeaves d c.reservationId c.lookupAt c.storeAt (w.withRecords c.records) cache) :
    Dated d (calls ++ [c]) cache := by
  have hgot : Dated d (calls ++ [c]) (cacheGet c.lookupAt
      (reservationDigest d.sha256 c.reservationId) w.cache).2 :=
    dated_append (fun key entry hlookup => h key entry (cacheGet_lookup hlookup)) c
  rcases hleaves with hsame | hlooked | ⟨value, hvalue, hput⟩
  · rw [hsame]
    exact dated_append h c
  · rw [hlooked]
    exact hgot
  · rw [hput, cachePut, if_neg (not_le.mpr d.ttl_pos)]
    intro key entry hlookup
    dsimp only at hlookup
    rw [List.lookup_cons, lookup_popEntry] at hlookup
    by_cases hk : key = reservationDigest d.sha256 c.reservationId
    · -- The entry just put, with what the provider answered this read.
      rw [hk, BEq.rfl] at hlookup
      rw [← Option.some.inj hlookup]
      exact ⟨c, List.mem_append_right _ (List.mem_singleton.mpr rfl), hk, hvalue, rfl, rfl⟩
    · rw [beq_eq_false_iff_ne.mpr hk, if_neg hk] at hlookup
      exact hgot key entry hlookup

/-- A read keeps the cache dated. -/
theorem dated_read {d : Deployment} {calls : List ReadCall} {w : World}
    (h : Dated d calls w.cache) (c : ReadCall) :
    Dated d (calls ++ [c]) (c.run d w).world.cache := by
  rcases readCall_step d c w with ⟨resp, -, -, hworld⟩ | ⟨permit, -, hstep⟩
  · rw [hworld]
    exact dated_append h c
  · exact dated_leaves h hstep.cache

theorem readSession_snoc (d : Deployment) (calls : List ReadCall) (c : ReadCall) (w : World) :
    readSession d (calls ++ [c]) w = (c.run d (readSession d calls w)).world := by
  rw [readSession, List.foldl_append]
  rfl

/-- Every sequence of reads from an empty cache leaves it dated. -/
theorem dated_session (d : Deployment) (w : World) (calls : List ReadCall) :
    Dated d calls (readSession d calls { w with cache := .empty }).cache := by
  induction calls using List.reverseRecOn with
  | nil =>
      intro key entry hlookup
      exact absurd hlookup (by simp only [readSession, List.foldl_nil, CacheStore.empty,
        List.lookup_nil, reduceCtorEq, not_false_eq_true])
  | append_singleton calls c ih =>
      rw [readSession_snoc]
      exact dated_read ih c

/-- A hit is of an entry that has not expired. -/
theorem cacheGet_hit {t : ℚ} {key : String} {cache : CacheStore ℚ}
    (h : (cacheGet t key cache).1.hit = true) : ∃ entry, cache.entries.lookup key = some entry ∧
      (cacheGet t key cache).1.value = some entry.value ∧ t < entry.expiresAt := by
  rcases hlookup : cache.entries.lookup key with _ | entry
  · rw [cacheGet, hlookup] at h
    exact absurd h Bool.noConfusion
  · rw [cacheGet, hlookup] at h ⊢
    dsimp only at h ⊢
    by_cases hexpired : entry.expiresAt ≤ t
    · rw [if_pos hexpired] at h
      exact absurd h Bool.noConfusion
    · rw [if_neg hexpired]
      exact ⟨entry, rfl, rfl, not_le.mp hexpired⟩

/-- Two reservations have two keys. -/
theorem cacheKey_inj {d : Deployment} (hsha : Function.Injective d.sha256) {r r' : String}
    (h : reservationDigest d.sha256 r = reservationDigest d.sha256 r') : r = r' := by
  have htext := hsha ((String.append_right_inj _).mp h)
  exact (String.append_right_inj _).mp htext

/-- A hit of a dated cache is the record of an earlier read of the same
    reservation, not older than the lifetime. -/
theorem dated_hit {d : Deployment} (hsha : Function.Injective d.sha256) {calls : List ReadCall}
    {c : ReadCall} (hclock : ReadsOrdered (calls ++ [c])) {cache : CacheStore ℚ}
    (h : Dated d calls cache) (hhit : (cacheGet c.lookupAt
      (reservationDigest d.sha256 c.reservationId) cache).1.hit = true) :
    ∃ p ∈ calls, ∃ value, p.reservationId = c.reservationId ∧
      (cacheGet c.lookupAt (reservationDigest d.sha256 c.reservationId) cache).1.value =
        some value ∧
      p.records.lookup c.reservationId = some value ∧
      c.lookupAt - d.cacheTtlSeconds < p.storeAt ∧ p.storeAt ≤ c.lookupAt := by
  rcases cacheGet_hit hhit with ⟨entry, hlookup, hvalue, hlive⟩
  rcases h _ entry hlookup with ⟨p, hp, hkey, hrecord, -, hexpires⟩
  have hsame : c.reservationId = p.reservationId := cacheKey_inj hsha hkey
  have hearlier : p.storeAt ≤ c.lookupAt :=
    (List.pairwise_append.mp hclock.2).2.2 p hp c (List.mem_singleton.mpr rfl)
  rw [hexpires] at hlive
  exact ⟨p, hp, entry.value, hsame.symm, hvalue, hsame ▸ hrecord, by linarith, hearlier⟩

/-- What the read without a cache answers when everything succeeds. -/
theorem run_readWithoutCache (d : Deployment) (c : ReadCall) (w : World)
    (henvs : ∀ n, (c.envs n).Succeeds) {permit : Permit}
    (hpermit : ((c.envs 1).begin (reservationRequest d c.reservationId c.task c.chain
      (c.envs 0).now)).permit = some permit) {live : Revalidation}
    (hlive : live = (c.envs 2).revalidate (reservationRequest d c.reservationId c.task c.chain
      (c.envs 0).now) permit) :
    (run perform (readWithoutCache d c.reservationId c.task c.chain) c.envs
      (w.withRecords c.records)).outcome = .ok (match c.records.lookup c.reservationId with
        | some value => (foundReservation live "miss" value).without "cache"
        | none => (missingReservation live).without "cache") := by
  unfold readWithoutCache
  rcases run_opened _ (fun permit live => do
    let reservation ← orRaise (ask (.providerGetReservation c.reservationId))
    match reservation with
    | none => do
      completeOrRaise permit "reservation read lifecycle could not complete"
      return [("status", .str "not_found"), ("effect", .str "allow"),
        ("policy_id", optStr live.authorization.policyId)]
    | some reservation => do
      completeOrRaise permit "reservation disclosed but execution lifecycle did not complete"
      return [("status", .str "found"), ("effect", .str "allow"),
        ("policy_id", optStr live.authorization.policyId), ("reservation", .dict reservation)])
    (w.withRecords c.records)
    (refusal_succeeds (reservationRequest d c.reservationId c.task c.chain) henvs) with
    ⟨permit', hpermit', hout, -⟩
  have hsame : permit' = permit := Option.some.inj (hpermit'.symm.trans hpermit)
  rw [hout, hsame, ← hlive]
  unfold orRaise completeOrRaise
  rw [ask_bind, call_bind]
  dsimp only [run, perform]
  rw [(henvs _).fault]
  dsimp only [Fault.apply, Core.Prog.ofExcept]
  rw [done_bind]
  have hrecord : (providerGetReservation c.reservationId
      (w.withRecords c.records).reservations).1 = c.records.lookup c.reservationId := rfl
  rw [hrecord]
  -- The provider holds the reservation or not; the lifecycle completes either way.
  rcases c.records.lookup c.reservationId with _ | value
  · dsimp only
    rw [ask_bind, call_bind]
    dsimp only [run, perform]
    rw [if_pos ((henvs _).complete permit)]
    rfl
  · dsimp only
    rw [ask_bind, call_bind]
    dsimp only [run, perform]
    rw [if_pos ((henvs _).complete permit)]
    rfl

/-- After any sequence of reads from an empty cache, the clock not going back: a
    reservation that is found is what the provider holds for it now, or on a hit
    what it held for the same reservation at an earlier read no older than the
    lifetime; one that is not found the provider does not hold; and a read in
    which everything succeeds answers unless its key cannot be derived, with a
    reservation or that there is none, and if the records have not changed it
    answers as the read without a cache does, but for the cache field. -/
theorem cached_reads_current (d : Deployment) (hsha : Function.Injective d.sha256) (w : World)
    (calls : List ReadCall) (c : ReadCall) (hclock : ReadsOrdered (calls ++ [c])) :
    (∀ resp, (c.run d (readSession d calls { w with cache := .empty })).outcome = .ok resp →
      (resp.get? "status" = some (.str "found") →
        ∃ value, resp.get? "reservation" = some (.dict value) ∧
          ((resp.get? "cache" = some (.str "miss") ∧
              c.records.lookup c.reservationId = some value) ∨
            (resp.get? "cache" = some (.str "hit") ∧ ∃ p ∈ calls,
              p.reservationId = c.reservationId ∧
              p.records.lookup c.reservationId = some value ∧
              c.lookupAt - d.cacheTtlSeconds < p.storeAt ∧ p.storeAt ≤ c.lookupAt))) ∧
      (resp.get? "status" = some (.str "not_found") →
        c.records.lookup c.reservationId = none)) ∧
    ((∀ n, (c.envs n).Succeeds) →
      (d.digestError (reservationCanonical c.reservationId) = none → ∃ resp,
        (c.run d (readSession d calls { w with cache := .empty })).outcome = .ok resp) ∧
      ∀ resp, (c.run d (readSession d calls { w with cache := .empty })).outcome = .ok resp →
      (resp.get? "status" = some (.str "found") ∨ resp.get? "status" = some (.str "not_found")) ∧
      ((∀ p ∈ calls, p.records = c.records) →
        (run perform (readWithoutCache d c.reservationId c.task c.chain) c.envs
          ((readSession d calls { w with cache := .empty }).withRecords c.records)).outcome =
            .ok (resp.without "cache"))) := by
  have hdated := dated_session d w calls
  generalize readSession d calls { w with cache := .empty } = v at hdated ⊢
  have hsound : ∀ live resp, ReadReports d c.reservationId c.lookupAt live
      (v.withRecords c.records) resp → resp.get? "status" = some (.str "found") ∨
        resp.get? "status" = some (.str "not_found") := by
    rintro live resp (⟨value, -, -, rfl⟩ | ⟨value, -, rfl⟩ | ⟨-, rfl⟩)
    · exact Or.inl rfl
    · exact Or.inl rfl
    · exact Or.inr rfl
  constructor
  · intro resp hout
    rcases readCall_step d c v with ⟨out, hrefusal, hrun, -⟩ | ⟨permit, -, hstep⟩
    · -- A refused read is answered as blocked, and discloses nothing.
      rw [← hrun, hout] at hrefusal
      rcases refusal_blocked _ hrefusal with ⟨effect, reason, hresp⟩
      have hstatus : resp.get? "status" = some (.str "blocked") := by
        rw [hresp]
        rfl
      rw [hstatus]
      exact ⟨fun h => absurd (PyVal.str.inj (Option.some.inj h)) (by decide),
        fun h => absurd (PyVal.str.inj (Option.some.inj h)) (by decide)⟩
    · rcases hstep.answer resp hout with ⟨value, hhit, hvalue, rfl⟩ | ⟨value, hvalue, rfl⟩ |
        ⟨hnone, rfl⟩
      · -- A hit: the value of an earlier read.
        refine ⟨fun _ => ⟨value, rfl, Or.inr ⟨rfl, ?_⟩⟩,
          fun h => absurd (PyVal.str.inj (Option.some.inj h)) (by decide)⟩
        rcases dated_hit hsha hclock hdated hhit with ⟨p, hp, value', hid, hgot, hrest⟩
        have hsame : value' = value := Option.some.inj (hgot.symm.trans hvalue)
        exact ⟨p, hp, hid, hsame ▸ hrest⟩
      · exact ⟨fun _ => ⟨value, rfl, Or.inl ⟨rfl, hvalue⟩⟩,
          fun h => absurd (PyVal.str.inj (Option.some.inj h)) (by decide)⟩
      · exact ⟨fun h => absurd (PyVal.str.inj (Option.some.inj h)) (by decide), fun _ => hnone⟩
  · intro henvs
    rcases readCall_step d c v with ⟨out, hrefusal, -, -⟩ | ⟨permit, hpermit, hstep⟩
    · rw [refusal_succeeds _ henvs] at hrefusal
      exact absurd hrefusal (by simp only [reduceCtorEq, not_false_eq_true])
    · refine ⟨fun hkeyed => ?_, fun resp hout => ?_⟩
      · rcases hout : (c.run d v).outcome with e | resp
        · -- Nothing is in the way, so the read does not raise.
          rcases hstep.raises e hout with ⟨n, hn⟩ | hno
          · exact absurd (henvs n) hn
          · exact absurd hkeyed hno
        · exact ⟨resp, rfl⟩
      · have hreports := hstep.answer resp hout
        refine ⟨hsound _ _ hreports, fun hsteady => ?_⟩
        rw [run_readWithoutCache d c v henvs hpermit rfl]
        rcases hreports with ⟨value, hhit, hvalue, rfl⟩ | ⟨value, hvalue, rfl⟩ | ⟨hnone, rfl⟩
        · -- The earlier read found the same records as this one.
          rcases dated_hit hsha hclock hdated hhit with ⟨p, hp, value', -, hgot, hrecord, -⟩
          have hsame : value' = value := Option.some.inj (hgot.symm.trans hvalue)
          rw [← hsteady p hp, hrecord, hsame]
          rfl
        · have hrecord : c.records.lookup c.reservationId = some value := hvalue
          rw [hrecord]
        · have hrecord : c.records.lookup c.reservationId = none := hnone
          rw [hrecord]

/-- A read of a seeded reservation. -/
def repeatedRead : ReadCall :=
  { reservationId := "R-3001"
    task := sampleTask
    chain := []
    envs := fun _ => .granting
    records := seededReservations }

theorem cached_reads_repeated : ReadsOrdered ([repeatedRead] ++ [repeatedRead]) ∧ ∃ resp,
    (repeatedRead.run .sample (readSession .sample [repeatedRead]
      { World.empty with cache := .empty })).outcome = .ok resp ∧
    (run perform (readWithoutCache .sample "R-3001" sampleTask []) (fun _ => .granting)
      ((readSession .sample [repeatedRead] { World.empty with cache := .empty }).withRecords
        seededReservations)).outcome = .ok (resp.without "cache") := by
  have hclock : ReadsOrdered ([repeatedRead] ++ [repeatedRead]) := by
    refine ⟨fun c hc => ?_, List.pairwise_pair.mpr le_rfl⟩
    rcases List.mem_pair.mp hc with rfl | rfl
    · exact le_rfl
    · exact le_rfl
  rcases cached_reads_current .sample sampleSha256_injective World.empty [repeatedRead]
    repeatedRead hclock with ⟨-, hlive⟩
  rcases hlive fun _ => granting_succeeds with ⟨hanswers, hresponse⟩
  rcases hanswers rfl with ⟨resp, hout⟩
  exact ⟨hclock, resp, hout,
    (hresponse resp hout).2 fun p hp => by rw [List.mem_singleton.mp hp]⟩

end Asante
