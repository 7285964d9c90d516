/-
  The statistics of the cache (`CacheStats` in `cache/lru_cache.rs`) over whole runs.

  `Counted` keeps a ledger next to the cache: the lookups, the insertions of keys that were
  not there, the entries that a clear takes out, and the keys that are gone from the map
  after an insertion. The calls do not look at it (`foldl_counted`). `Conserved` is what the
  statistics should say by the ledger.

  `insert` counts an eviction when the map is full, before it puts the entry, and `put` makes
  no room for a key that is there. `conserved_iff`: the statistics are right throughout a run
  exactly if no insertion finds its key in a full map. `hits_add_misses` holds in any case.
-/
import VantaDns.Cache.History

namespace VantaDns.Cache

open Lib Protocol

structure Counted where
  cache : DnsCache
  gets : Nat
  fresh : Nat
  cleared : Nat
  displaced : Nat

namespace Counted

def start (capacity minTtlSecs maxTtlSecs : Nat) : Counted :=
  ⟨.new capacity minTtlSecs maxTtlSecs, 0, 0, 0, 0⟩

/-- The ledger after a call; an insertion that panics counts for nothing. -/
def step (s : Counted) (op : Op) : Counted :=
  match op with
  | .insert domain qtype packet now =>
    match s.cache.insert domain qtype packet now with
    | none => s
    | some cache =>
        { s with
          cache := cache
          fresh := s.fresh + if s.cache.entry domain qtype = none then 1 else 0
          displaced := s.displaced + Lru.missing s.cache.cache cache.cache }
  | .get _ _ _ _ => { s with cache := s.cache.step op, gets := s.gets + 1 }
  | .clear => { s with cache := s.cache.clear, cleared := s.cleared + s.cache.len }

/-- What the statistics should say. -/
structure Conserved (s : Counted) : Prop where
  gets : s.cache.stats.hits + s.cache.stats.misses = s.gets
  len : s.cache.len + s.cache.stats.evictions + s.cache.stats.expirations + s.cleared = s.fresh
  evictions : s.cache.stats.evictions = s.displaced

/-- What holds in any case: the lookups are counted, and the ledger balances. -/
structure Balanced (s : Counted) : Prop where
  gets : s.cache.stats.hits + s.cache.stats.misses = s.gets
  len : s.cache.len + s.displaced + s.cache.stats.expirations + s.cleared = s.fresh

/-- The call is not an insertion under a key that is there into a full map. -/
def NoRefill (s : Counted) : Op → Prop
  | .insert domain qtype _ _ => s.cache.len = s.cache.cache.cap → s.cache.entry domain qtype = none
  | .get _ _ _ _ => True
  | .clear => True

theorem cache_step (s : Counted) (op : Op) : (s.step op).cache = s.cache.step op := by
  cases op with
  | insert domain qtype packet now =>
    unfold step DnsCache.step
    dsimp only
    cases s.cache.insert domain qtype packet now with
    | none => rfl
    | some cache => rfl
  | get domain qtype now₁ now₂ => rfl
  | clear => rfl

theorem foldl_counted (s : Counted) (ops : List Op) :
    (ops.foldl step s).cache = ops.foldl DnsCache.step s.cache :=
  (List.foldl_hom Counted.cache fun s op => (cache_step s op).symm).symm

/-! ## The calls -/

/-- What a lookup adds to the counters, and what it takes out. -/
theorem stats_get (c : DnsCache) (domain : Str) (qtype : QueryType) (now₁ now₂ : Nat) :
    let c' := (c.get domain qtype now₁ now₂).2
    c'.stats.hits + c'.stats.misses = c.stats.hits + c.stats.misses + 1 ∧
      c'.len + c'.stats.expirations = c.len + c.stats.expirations ∧
      c'.stats.evictions = c.stats.evictions := by
  have hfst := c.cache.get_fst (DnsCache.key domain qtype)
  have hlen := c.cache.len_get (DnsCache.key domain qtype)
  have hlookup := c.cache.lookup_get (DnsCache.key domain qtype) (DnsCache.key domain qtype)
  unfold DnsCache.get DnsCache.len
  split
  · next e cache h =>
    rw [h] at hfst hlen hlookup
    split
    · have hpop := Lru.len_pop (hlookup.trans hfst.symm)
      dsimp only at hlen hpop ⊢
      omega
    · dsimp only at hlen ⊢
      omega
  · next cache h =>
    rw [h] at hlen
    dsimp only at hlen ⊢
    omega

/-- What an insertion adds to the counters, and to the entries. -/
theorem stats_insert {c c' : DnsCache} {domain : Str} {qtype : QueryType} {packet : DnsPacket}
    {now : Nat} (h : c.insert domain qtype packet now = some c') :
    c'.stats.hits = c.stats.hits ∧ c'.stats.misses = c.stats.misses ∧
      c'.stats.expirations = c.stats.expirations ∧
      c'.stats.evictions = c.stats.evictions + (if c.len = c.cache.cap then 1 else 0) ∧
      c'.len + Lru.missing c.cache c'.cache =
        c.len + (if c.entry domain qtype = none then 1 else 0) ∧
      Lru.missing c.cache c'.cache =
        if c.entry domain qtype = none ∧ c.len = c.cache.cap then 1 else 0 := by
  unfold DnsCache.insert at h
  split at h
  · cases h
  · next ttl _ =>
    have hadd := c.cache.len_put_add_missing (DnsCache.key domain qtype) ⟨packet, qtype, now, ttl⟩
    have hmissing := c.cache.missing_put (DnsCache.key domain qtype) ⟨packet, qtype, now, ttl⟩
    obtain rfl := Option.some.inj h
    unfold DnsCache.len DnsCache.entry
    dsimp only
    refine ⟨?_, ?_, ?_, ?_, ?_, hmissing⟩
    · split <;> rfl
    · split <;> rfl
    · split <;> rfl
    · split <;> rfl
    · rw [hadd]
      split <;> rfl

theorem balanced_step (s : Counted) (op : Op) (h : s.Balanced) : (s.step op).Balanced := by
  have hgets := h.gets
  have hlen := h.len
  cases op with
  | insert domain qtype packet now =>
    unfold step
    dsimp only
    cases hinsert : s.cache.insert domain qtype packet now with
    | none => exact h
    | some cache =>
      obtain ⟨hhits, hmisses, hexp, -, hadd, -⟩ := stats_insert hinsert
      constructor
      · dsimp only
        omega
      · dsimp only
        omega
  | get domain qtype now₁ now₂ =>
    obtain ⟨hcount, hentries, -⟩ := stats_get s.cache domain qtype now₁ now₂
    constructor
    · show (s.cache.get domain qtype now₁ now₂).2.stats.hits +
        (s.cache.get domain qtype now₁ now₂).2.stats.misses = s.gets + 1
      omega
    · show (s.cache.get domain qtype now₁ now₂).2.len + s.displaced +
        (s.cache.get domain qtype now₁ now₂).2.stats.expirations + s.cleared = s.fresh
      omega
  | clear =>
    refine ⟨hgets, ?_⟩
    show 0 + s.displaced + s.cache.stats.expirations + (s.cleared + s.cache.len) = s.fresh
    omega

/-- By the ledger, the statistics are right if the evictions are. -/
theorem conserved_iff_evictions {s : Counted} (h : s.Balanced) :
    s.Conserved ↔ s.cache.stats.evictions = s.displaced := by
  constructor
  · exact Conserved.evictions
  · intro hev
    exact ⟨h.gets, by rw [hev]; exact h.len, hev⟩

/-- The ledger balances, and with bounds out of order, where insertions panic, nothing is stored. -/
structure Kept (s : Counted) : Prop where
  balanced : s.Balanced
  empty : s.cache.maxTtl < s.cache.minTtl → ∀ k, s.cache.cache.lookup k = none

theorem kept_start (capacity minTtlSecs maxTtlSecs : Nat) :
    (start capacity minTtlSecs maxTtlSecs).Kept :=
  ⟨⟨rfl, rfl⟩, fun _ _ => rfl⟩

theorem kept_step (s : Counted) (op : Op) (h : s.Kept) : (s.step op).Kept := by
  refine ⟨balanced_step s op h.balanced, ?_⟩
  have hempty := h.empty
  cases op with
  | insert domain qtype packet now =>
    unfold step
    dsimp only
    cases hinsert : s.cache.insert domain qtype packet now with
    | none => exact hempty
    | some cache =>
      obtain ⟨_, -, -, -, hmin, hmax⟩ := DnsCache.insert_cases hinsert
      intro hlt
      dsimp only at hlt
      rw [hmin, hmax] at hlt
      rw [DnsCache.insert_eq_none.2 hlt] at hinsert
      cases hinsert
  | get domain qtype now₁ now₂ =>
    obtain ⟨hmin, hmax⟩ := s.cache.bounds_get domain qtype now₁ now₂
    intro hlt k
    refine Lru.lookup_eq_none_of (fun _ hv => DnsCache.lookup_get hv) (hempty ?_ k)
    rw [← hmin, ← hmax]
    exact hlt
  | clear => exact fun _ _ => rfl

/-- The statistics stay right exactly if the call is no insertion that finds its key in a full
    map. -/
theorem conserved_step_iff (s : Counted) (op : Op) (hs : s.Kept) (hc : s.Conserved) :
    (s.step op).Conserved ↔ s.NoRefill op := by
  rw [conserved_iff_evictions (kept_step s op hs).balanced]
  have hev := hc.evictions
  cases op with
  | insert domain qtype packet now =>
    unfold step NoRefill
    dsimp only
    cases hinsert : s.cache.insert domain qtype packet now with
    | none =>
      refine iff_of_true hev ?_
      intro _
      exact hs.empty (DnsCache.insert_eq_none.1 hinsert) _
    | some cache =>
      obtain ⟨-, -, -, hadded, -, hmissing⟩ := stats_insert hinsert
      dsimp only
      rw [hadded, hmissing, hev]
      by_cases hfull : s.cache.len = s.cache.cache.cap
      · by_cases hnew : s.cache.entry domain qtype = none
        · simp [hfull, hnew]
        · simp [hfull, hnew]
      · simp [hfull]
  | get domain qtype now₁ now₂ =>
    refine iff_of_true ?_ trivial
    exact (stats_get s.cache domain qtype now₁ now₂).2.2.trans hev
  | clear => exact iff_of_true hev trivial

/-! ## Runs -/

/-- In every state of every run the hits and the misses count the lookups. -/
theorem hits_add_misses (capacity minTtlSecs maxTtlSecs : Nat) (ops : List Op) :
    let s := ops.foldl step (start capacity minTtlSecs maxTtlSecs)
    s.cache.stats.hits + s.cache.stats.misses = s.gets :=
  ((along_of_forall (P := fun _ _ => True) fun _ _ => trivial).invariant
    (kept_start capacity minTtlSecs maxTtlSecs) fun s op h _ => kept_step s op h).balanced.gets

/-- The statistics are conserved throughout a run exactly if none of its insertions finds its key
    in a full map. -/
theorem conserved_iff (capacity minTtlSecs maxTtlSecs : Nat) (ops : List Op) :
    (∀ pre, pre <+: ops → (pre.foldl step (start capacity minTtlSecs maxTtlSecs)).Conserved) ↔
      Along step NoRefill (start capacity minTtlSecs maxTtlSecs) ops :=
  forall_prefix_iff_along (kept_start capacity minTtlSecs maxTtlSecs) ⟨rfl, rfl, rfl⟩ kept_step
    conserved_step_iff

/-- A second insertion under the only key of a cache of capacity 1 counts an eviction. -/
theorem not_conserved_refill :
    ¬ ([.insert ['a'] .A emptyPacket 0, .insert ['a'] .A emptyPacket 1].foldl step
      (start 1 60 86400)).Conserved := by
  intro h
  have hev := h.evictions
  revert hev
  decide +kernel

end Counted

end VantaDns.Cache
