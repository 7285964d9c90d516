/-
  What the cache promises over whole runs (`cache/lru_cache.rs`).

  A run is a sequence of calls of `insert`, `get` and `clear`, whose clock readings do not go
  back. `Watched` keeps a log of what happened next to the cache: what was inserted, which
  keys were hit, and when everything was cleared. `latestInsert` and `usedSince` read off the
  log which packet a key should have, and which other keys were used after it. The calls do
  not look at the log (`foldl_cache`).

  `Kept` is the invariant: a key has its latest packet, with at most the keys used since in
  front of it, or it was dropped, for want of room or because it had expired. `kept_step` is
  one call, `cache_promises` a run: a lookup answers only from the latest packet and within its
  lifetime, it does answer while fewer other keys were used than the map has room for, and the
  map never holds more entries than that. A capacity of 0 stands for 1024.
-/
import VantaDns.Lib.Run
import VantaDns.Cache.DnsCache

namespace VantaDns.Cache

open Lib Lib.Unicode Protocol

abbrev Key : Type := Str × QueryType

/-- A call of the cache. -/
inductive Op where
  | insert (domain : Str) (qtype : QueryType) (packet : DnsPacket) (now : Nat)
  | get (domain : Str) (qtype : QueryType) (now₁ now₂ : Nat)
  | clear

/-- The cache after a call; an insertion that panics leaves it alone. -/
def DnsCache.step (c : DnsCache) : Op → DnsCache
  | .insert domain qtype packet now => (c.insert domain qtype packet now).getD c
  | .get domain qtype now₁ now₂ => (c.get domain qtype now₁ now₂).2
  | .clear => c.clear

inductive Event where
  | inserted (k : Key) (packet : DnsPacket) (now : Nat)
  | hit (k : Key)
  | cleared

/-- The packet inserted last under the key, and when, unless everything was cleared since. The
    newest event comes first. -/
def latestInsert : List Event → Key → Option (DnsPacket × Nat)
  | [], _ => none
  | .inserted k' packet now :: log, k => if k' = k then some (packet, now) else latestInsert log k
  | .hit _ :: log, k => latestInsert log k
  | .cleared :: _, _ => none

/-- The other keys that were inserted or hit since the key was. -/
def usedSince : List Event → Key → Finset Key
  | [], _ => ∅
  | .inserted k' _ _ :: log, k => if k' = k then ∅ else insert k' (usedSince log k)
  | .hit k' :: log, k => if k' = k then ∅ else insert k' (usedSince log k)
  | .cleared :: log, k => usedSince log k

structure Watched where
  cache : DnsCache
  log : List Event
  /-- The last reading of the clock. -/
  clock : Nat

def Watched.start (capacity minTtlSecs maxTtlSecs : Nat) : Watched :=
  ⟨.new capacity minTtlSecs maxTtlSecs, [], 0⟩

/-- The log and the clock after a call. -/
def Watched.note (s : Watched) : Op → List Event × Nat
  | .insert domain qtype packet now =>
      (.inserted (DnsCache.key domain qtype) packet now :: s.log, now)
  | .get domain qtype now₁ now₂ =>
      (if (s.cache.get domain qtype now₁ now₂).1.isSome
        then .hit (DnsCache.key domain qtype) :: s.log else s.log, now₁)
  | .clear => (.cleared :: s.log, s.clock)

def Watched.step (s : Watched) (op : Op) : Watched :=
  ⟨s.cache.step op, (s.note op).1, (s.note op).2⟩

theorem foldl_cache (s : Watched) (ops : List Op) :
    (ops.foldl Watched.step s).cache = ops.foldl DnsCache.step s.cache :=
  (List.foldl_hom Watched.cache fun _ _ => rfl).symm

/-- The call does not read the clock behind the last reading. -/
def InOrder (s : Watched) : Op → Prop
  | .insert _ _ _ now => s.clock ≤ now
  | .get _ _ now₁ _ => s.clock ≤ now₁
  | .clear => True

instance (s : Watched) : (op : Op) → Decidable (InOrder s op)
  | .insert _ _ _ now => inferInstanceAs (Decidable (s.clock ≤ now))
  | .get _ _ now₁ _ => inferInstanceAs (Decidable (s.clock ≤ now₁))
  | .clear => isTrue trivial

/-- The smallest TTL of the answers, or 300 seconds without answers, kept within the bounds. -/
def lifetime (minTtlSecs maxTtlSecs : Nat) (packet : DnsPacket) : Nat :=
  fromSecs (max minTtlSecs (min (DnsCache.rawTtl packet) maxTtlSecs))

/-- The packet inserted last under the key, if its lifetime has not passed. -/
def Fresh (minTtlSecs maxTtlSecs : Nat) (log : List Event) (k : Key) (now : Nat)
    (packet : DnsPacket) : Prop :=
  ∃ t, latestInsert log k = some (packet, t) ∧ now - t < lifetime minTtlSecs maxTtlSecs packet

/-- What a call does, if the map has room for that many keys. -/
def Promised (room minTtlSecs maxTtlSecs : Nat) (s : Watched) : Op → Prop
  | .insert domain qtype packet now => (s.cache.insert domain qtype packet now).isSome
  | .get domain qtype now₁ now₂ =>
      (∀ reply, (s.cache.get domain qtype now₁ now₂).1 = some reply → ∃ packet ttl,
        Fresh minTtlSecs maxTtlSecs s.log (DnsCache.key domain qtype) now₁ packet ∧
          reply = withAnswerTtl packet ttl) ∧
      (∀ packet, Fresh minTtlSecs maxTtlSecs s.log (DnsCache.key domain qtype) now₁ packet →
        (usedSince s.log (DnsCache.key domain qtype)).card < room →
          ∃ ttl, (s.cache.get domain qtype now₁ now₂).1 = some (withAnswerTtl packet ttl))
  | .clear => True

/-! ## The calls -/

theorem clamp_fromSecs {d lo hi : Nat} (h : lo ≤ hi) :
    DnsCache.clamp (fromSecs d) (fromSecs lo) (fromSecs hi) = some (fromSecs (max lo (min d hi))) := by
  unfold DnsCache.clamp fromSecs
  rw [if_neg (by omega)]
  split
  · rw [Option.some.injEq]
    omega
  · split
    · rw [Option.some.injEq]
      omega
    · rw [Option.some.injEq]
      omega

/-- How a lookup goes: no entry, an expired one, or a hit. -/
inductive Lookup (c : DnsCache) (domain : Str) (qtype : QueryType) (now₁ now₂ : Nat) : Prop where
  | missing (hlookup : c.cache.lookup (DnsCache.key domain qtype) = none)
      (hreply : (c.get domain qtype now₁ now₂).1 = none)
      (hcache : (c.get domain qtype now₁ now₂).2.cache = c.cache)
  | expired {e : CachedResponse} (hlookup : c.cache.lookup (DnsCache.key domain qtype) = some e)
      (hexpired : e.isExpired now₁ = true)
      (hreply : (c.get domain qtype now₁ now₂).1 = none)
      (hcache : (c.get domain qtype now₁ now₂).2.cache =
        (c.cache.get (DnsCache.key domain qtype)).2.pop (DnsCache.key domain qtype))
  | hit {e : CachedResponse} (hlookup : c.cache.lookup (DnsCache.key domain qtype) = some e)
      (hlive : e.isExpired now₁ = false)
      (hreply : (c.get domain qtype now₁ now₂).1 =
        some (withAnswerTtl e.packet (e.remainingTtlSecs now₂)))
      (hcache : (c.get domain qtype now₁ now₂).2.cache =
        (c.cache.get (DnsCache.key domain qtype)).2)

theorem lookup_cases (c : DnsCache) (domain : Str) (qtype : QueryType) (now₁ now₂ : Nat) :
    Lookup c domain qtype now₁ now₂ := by
  have hfst := c.cache.get_fst (DnsCache.key domain qtype)
  cases hlookup : c.cache.lookup (DnsCache.key domain qtype) with
  | none =>
    have hget := Lru.get_of_lookup_none hlookup
    refine .missing hlookup ?_ ?_
    · unfold DnsCache.get
      rw [hget]
    · unfold DnsCache.get
      rw [hget]
  | some e =>
    have hget : c.cache.get (DnsCache.key domain qtype) =
        (some e, (c.cache.get (DnsCache.key domain qtype)).2) := by
      rw [← hlookup, ← hfst]
    cases hexpired : e.isExpired now₁ with
    | true =>
      refine .expired hlookup hexpired ?_ ?_
      · unfold DnsCache.get
        rw [hget]
        dsimp only
        rw [if_pos hexpired]
      · unfold DnsCache.get
        rw [hget]
        dsimp only
        rw [if_pos hexpired]
    | false =>
      have hlive : ¬ e.isExpired now₁ = true := by simp [hexpired]
      refine .hit hlookup hexpired ?_ ?_
      · unfold DnsCache.get
        rw [hget]
        dsimp only
        rw [if_neg hlive]
      · unfold DnsCache.get
        rw [hget]
        dsimp only
        rw [if_neg hlive]

theorem insert_eq {c : DnsCache} {minTtlSecs maxTtlSecs : Nat} (hle : minTtlSecs ≤ maxTtlSecs)
    (hmin : c.minTtl = fromSecs minTtlSecs) (hmax : c.maxTtl = fromSecs maxTtlSecs) (domain : Str)
    (qtype : QueryType) (packet : DnsPacket) (now : Nat) :
    ∃ c', c.insert domain qtype packet now = some c' ∧
      c'.cache = c.cache.put (DnsCache.key domain qtype)
        ⟨packet, qtype, now, lifetime minTtlSecs maxTtlSecs packet⟩ ∧
      c'.minTtl = c.minTtl ∧ c'.maxTtl = c.maxTtl := by
  unfold DnsCache.insert
  rw [hmin, hmax, clamp_fromSecs hle]
  exact ⟨_, rfl, rfl, rfl, rfl⟩

/-! ## The invariant -/

section Run

variable {capacity minTtlSecs maxTtlSecs : Nat}

/-- The key has its packet, and at most the keys used since are newer. -/
def Held (minTtlSecs maxTtlSecs : Nat) (s : Watched) (k : Key) (packet : DnsPacket) (now : Nat) :
    Prop :=
  ∃ e, s.cache.cache.lookup k = some e ∧ e.packet = packet ∧ e.createdAt = now ∧
    e.ttl = lifetime minTtlSecs maxTtlSecs packet ∧ s.cache.cache.newer k ⊆ usedSince s.log k

/-- The key was dropped: for want of room, or because its packet had expired. -/
def Dropped (capacity minTtlSecs maxTtlSecs : Nat) (s : Watched) (k : Key) (packet : DnsPacket)
    (now : Nat) : Prop :=
  s.cache.cache.lookup k = none ∧ (DnsCache.effectiveCap capacity ≤ (usedSince s.log k).card ∨
    lifetime minTtlSecs maxTtlSecs packet ≤ s.clock - now)

/-- Where a key is whose packet was inserted: in the map, or dropped. -/
def Placed (capacity minTtlSecs maxTtlSecs : Nat) (s : Watched) (k : Key) (packet : DnsPacket)
    (now : Nat) : Prop :=
  Held minTtlSecs maxTtlSecs s k packet now ∨ Dropped capacity minTtlSecs maxTtlSecs s k packet now

/-- The cache is what the log says. -/
structure Kept (capacity minTtlSecs maxTtlSecs : Nat) (s : Watched) : Prop where
  cap : s.cache.cache.cap = DnsCache.effectiveCap capacity
  minTtl : s.cache.minTtl = fromSecs minTtlSecs
  maxTtl : s.cache.maxTtl = fromSecs maxTtlSecs
  absent : ∀ k, latestInsert s.log k = none → s.cache.cache.lookup k = none
  entry : ∀ k packet now, latestInsert s.log k = some (packet, now) →
    Placed capacity minTtlSecs maxTtlSecs s k packet now

theorem kept_start (capacity minTtlSecs maxTtlSecs : Nat) :
    Kept capacity minTtlSecs maxTtlSecs (.start capacity minTtlSecs maxTtlSecs) :=
  ⟨rfl, rfl, rfl, fun _ _ => rfl, fun _ _ _ h => by cases h⟩

/-- A key that is not used keeps its place, or is dropped from a full map. -/
theorem placed_other {s s' : Watched} {used k : Key} {packet : DnsPacket} {now : Nat}
    (hlog : usedSince s'.log k = insert used (usedSince s.log k)) (hclock : s.clock ≤ s'.clock)
    (hlookup : ∀ e, s'.cache.cache.lookup k = some e → s.cache.cache.lookup k = some e)
    (hnewer : s'.cache.cache.newer k ⊆ insert used (s.cache.cache.newer k))
    (hdropped : s.cache.cache.lookup k ≠ none → s'.cache.cache.lookup k = none →
      DnsCache.effectiveCap capacity ≤ (insert used (s.cache.cache.newer k)).card)
    (h : Placed capacity minTtlSecs maxTtlSecs s k packet now) :
    Placed capacity minTtlSecs maxTtlSecs s' k packet now := by
  obtain ⟨e, he, hpacket, hnow, httl, hsub⟩ | ⟨hnone, hwhy⟩ := h
  · have hgrow := Finset.insert_subset_insert used hsub
    rcases hnext : s'.cache.cache.lookup k with _ | e'
    · refine Or.inr ⟨hnext, Or.inl ?_⟩
      rw [hlog]
      exact (hdropped (by simp [he]) hnext).trans (Finset.card_le_card hgrow)
    · have heq := hlookup e' hnext
      rw [he] at heq
      cases heq
      refine Or.inl ⟨e, hnext, hpacket, hnow, httl, ?_⟩
      rw [hlog]
      exact hnewer.trans hgrow
  · refine Or.inr ⟨Lru.lookup_eq_none_of hlookup hnone, ?_⟩
    obtain hcard | hold := hwhy
    · refine Or.inl (hcard.trans (Finset.card_le_card ?_))
      rw [hlog]
      exact Finset.subset_insert _ _
    · exact Or.inr (hold.trans (Nat.sub_le_sub_right hclock now))

variable {s : Watched}

theorem kept_insert (hle : minTtlSecs ≤ maxTtlSecs) (h : Kept capacity minTtlSecs maxTtlSecs s)
    {domain : Str} {qtype : QueryType} {packet : DnsPacket} {now : Nat} (hclock : s.clock ≤ now) :
    Kept capacity minTtlSecs maxTtlSecs (s.step (.insert domain qtype packet now)) := by
  obtain ⟨c', hinsert, hput, hmin, hmax⟩ :=
    insert_eq hle h.minTtl h.maxTtl domain qtype packet now
  have hcache : (s.step (.insert domain qtype packet now)).cache = c' := by
    show (s.cache.insert domain qtype packet now).getD s.cache = c'
    rw [hinsert]
    rfl
  have hlru : (s.step (.insert domain qtype packet now)).cache.cache = _ :=
    (congrArg DnsCache.cache hcache).trans hput
  have hother : ∀ k e, k ≠ DnsCache.key domain qtype →
      (s.step (.insert domain qtype packet now)).cache.cache.lookup k = some e →
        s.cache.cache.lookup k = some e := by
    intro k e hk he
    rw [hlru] at he
    obtain ⟨heq, -⟩ | ⟨-, hold⟩ := Lru.lookup_put he
    · exact absurd heq hk
    · exact hold
  have hlatest : ∀ k, k ≠ DnsCache.key domain qtype →
      latestInsert (s.step (.insert domain qtype packet now)).log k = latestInsert s.log k :=
    fun k hk => if_neg hk.symm
  refine ⟨?_, ?_, ?_, ?_, ?_⟩
  · rw [hlru, Lru.cap_put]
    exact h.cap
  · rw [hcache, hmin]
    exact h.minTtl
  · rw [hcache, hmax]
    exact h.maxTtl
  · intro k hnone
    by_cases hk : k = DnsCache.key domain qtype
    · rw [hk] at hnone
      exact absurd ((if_pos rfl).symm.trans hnone) (by simp)
    · rw [hlatest k hk] at hnone
      exact Lru.lookup_eq_none_of (fun e => hother k e hk) (h.absent k hnone)
  · intro k packet' now' hsome
    have hnewer := s.cache.cache.newer_put (DnsCache.key domain qtype)
      (⟨packet, qtype, now, lifetime minTtlSecs maxTtlSecs packet⟩ : CachedResponse)
    rw [← hlru] at hnewer
    by_cases hk : k = DnsCache.key domain qtype
    · subst hk
      have hself : some (packet, now) = some (packet', now') := (if_pos rfl).symm.trans hsome
      cases hself
      refine Or.inl ⟨⟨packet, qtype, now, lifetime minTtlSecs maxTtlSecs packet⟩, ?_, rfl, rfl,
        rfl, ?_⟩
      · rw [hlru]
        exact Lru.lookup_put_self _ _ _
      · rw [hnewer.1]
        exact Finset.empty_subset _
    · refine placed_other (if_neg (Ne.symm hk)) hclock (fun e => hother k e hk) (hnewer.2 k hk) ?_
        (h.entry k packet' now' ((hlatest k hk).symm.trans hsome))
      intro hin hout
      rw [hlru] at hout
      rw [← h.cap]
      exact Lru.cap_le_of_dropped hk hin hout

theorem kept_clear (h : Kept capacity minTtlSecs maxTtlSecs s) :
    Kept capacity minTtlSecs maxTtlSecs (s.step .clear) :=
  ⟨h.cap, h.minTtl, h.maxTtl, fun _ _ => rfl, fun _ _ _ hsome => by cases hsome⟩

/-- A key whose place the call leaves, with no event in the log. -/
theorem placed_quiet {s' : Watched} {k : Key} {packet : DnsPacket} {now : Nat}
    (hlog : s'.log = s.log) (hclock : s.clock ≤ s'.clock)
    (hlookup : s'.cache.cache.lookup k = s.cache.cache.lookup k)
    (hnewer : s'.cache.cache.newer k ⊆ s.cache.cache.newer k)
    (h : Placed capacity minTtlSecs maxTtlSecs s k packet now) :
    Placed capacity minTtlSecs maxTtlSecs s' k packet now := by
  obtain ⟨e, he, hpacket, hnow, httl, hsub⟩ | ⟨hnone, hwhy⟩ := h
  · refine Or.inl ⟨e, hlookup.trans he, hpacket, hnow, httl, ?_⟩
    rw [hlog]
    exact hnewer.trans hsub
  · refine Or.inr ⟨hlookup.trans hnone, ?_⟩
    rw [hlog]
    exact hwhy.imp_right fun hold => hold.trans (Nat.sub_le_sub_right hclock now)

/-- An expired entry was held until the lookup that takes it out. -/
theorem dropped_of_expired {s' : Watched} {k : Key} {packet : DnsPacket} {now : Nat}
    {e : CachedResponse} (hlookup : s.cache.cache.lookup k = some e)
    (hexpired : e.isExpired s'.clock = true) (hgone : s'.cache.cache.lookup k = none)
    (h : Placed capacity minTtlSecs maxTtlSecs s k packet now) :
    Dropped capacity minTtlSecs maxTtlSecs s' k packet now := by
  obtain ⟨e', he', -, hnow, httl, -⟩ | ⟨hnone, -⟩ := h
  · rw [hlookup] at he'
    cases he'
    refine ⟨hgone, Or.inr ?_⟩
    rw [← httl, ← hnow]
    exact of_decide_eq_true hexpired
  · exact absurd (hlookup.symm.trans hnone) (by simp)

section Get

variable {domain : Str} {qtype : QueryType} {now₁ now₂ : Nat}

/-- Only a hit leaves an event in the log. -/
theorem log_missed (h : (s.cache.get domain qtype now₁ now₂).1 = none) :
    (s.step (.get domain qtype now₁ now₂)).log = s.log := by
  show (if _ then _ else _) = _
  rw [h]
  rfl

theorem log_hit {reply : DnsPacket} (h : (s.cache.get domain qtype now₁ now₂).1 = some reply) :
    (s.step (.get domain qtype now₁ now₂)).log = .hit (DnsCache.key domain qtype) :: s.log := by
  show (if _ then _ else _) = _
  rw [h]
  rfl

theorem latestInsert_get (k : Key) :
    latestInsert (s.step (.get domain qtype now₁ now₂)).log k = latestInsert s.log k := by
  show latestInsert (if _ then _ else _) k = _
  split <;> rfl

theorem placed_get (hclock : s.clock ≤ now₁) {k : Key} {packet : DnsPacket} {now : Nat}
    (h : Placed capacity minTtlSecs maxTtlSecs s k packet now) :
    Placed capacity minTtlSecs maxTtlSecs (s.step (.get domain qtype now₁ now₂)) k packet now := by
  cases lookup_cases s.cache domain qtype now₁ now₂ with
  | missing _ hreply hcache =>
    exact placed_quiet (log_missed hreply) hclock (congrArg (Lru.lookup · k) hcache)
      (congrArg (Lru.newer · k) hcache).subset h
  | expired hin hexpired hreply hcache =>
    have hpop := (congrArg (Lru.lookup · k) hcache).trans (Lru.lookup_pop _ _ _)
    have hnewer := congrArg (Lru.newer · k) hcache
    by_cases hk : k = DnsCache.key domain qtype
    · subst hk
      exact Or.inr (dropped_of_expired hin hexpired (hpop.trans (if_pos rfl)) h)
    · exact placed_quiet (log_missed hreply) hclock
        ((hpop.trans (if_neg hk)).trans (Lru.lookup_get _ _ _))
        (hnewer.subset.trans (Lru.newer_pop_get hin hk)) h
  | hit hin _ hreply hcache =>
    have hkeep := (congrArg (Lru.lookup · k) hcache).trans (Lru.lookup_get _ _ _)
    have hnewer := congrArg (Lru.newer · k) hcache
    by_cases hk : k = DnsCache.key domain qtype
    · subst hk
      obtain ⟨e, he, hpacket, hnow, httl, -⟩ | ⟨hnone, -⟩ := h
      · refine Or.inl ⟨e, hkeep.trans he, hpacket, hnow, httl, ?_⟩
        exact (hnewer.trans (Lru.newer_get hin).1).subset.trans (Finset.empty_subset _)
      · exact absurd (hin.symm.trans hnone) (by simp)
    · refine placed_other ?_ hclock (fun e => (hkeep.symm.trans ·))
        (hnewer.subset.trans ((Lru.newer_get hin).2 k hk)) ?_ h
      · rw [log_hit hreply]
        exact if_neg (Ne.symm hk)
      · intro hthere hnone
        exact absurd (hkeep.symm.trans hnone) hthere

theorem kept_get (h : Kept capacity minTtlSecs maxTtlSecs s) (hclock : s.clock ≤ now₁) :
    Kept capacity minTtlSecs maxTtlSecs (s.step (.get domain qtype now₁ now₂)) := by
  have hbounds := s.cache.bounds_get domain qtype now₁ now₂
  have hcap := (s.cache.cap_get domain qtype now₁ now₂).trans h.cap
  refine ⟨hcap, hbounds.1.trans h.minTtl, hbounds.2.trans h.maxTtl, ?_, ?_⟩
  · intro k hnone
    rw [latestInsert_get] at hnone
    exact Lru.lookup_eq_none_of (fun _ => DnsCache.lookup_get) (h.absent k hnone)
  · intro k packet now hsome
    rw [latestInsert_get] at hsome
    exact placed_get hclock (h.entry k packet now hsome)

end Get

theorem kept_step (hle : minTtlSecs ≤ maxTtlSecs) (s : Watched) (op : Op)
    (h : Kept capacity minTtlSecs maxTtlSecs s) (horder : InOrder s op) :
    Kept capacity minTtlSecs maxTtlSecs (s.step op) := by
  cases op with
  | insert domain qtype packet now => exact kept_insert hle h horder
  | get domain qtype now₁ now₂ => exact kept_get h horder
  | clear => exact kept_clear h

/-! ## Runs -/

theorem fresh_of_reply (h : Kept capacity minTtlSecs maxTtlSecs s) {domain : Str}
    {qtype : QueryType} {now₁ now₂ : Nat} {reply : DnsPacket}
    (hreply : (s.cache.get domain qtype now₁ now₂).1 = some reply) :
    ∃ packet ttl, Fresh minTtlSecs maxTtlSecs s.log (DnsCache.key domain qtype) now₁ packet ∧
      reply = withAnswerTtl packet ttl := by
  cases lookup_cases s.cache domain qtype now₁ now₂ with
  | missing _ hnone => exact absurd (hreply.symm.trans hnone) (by simp)
  | expired _ _ hnone => exact absurd (hreply.symm.trans hnone) (by simp)
  | @hit e hin hlive hsome =>
    rw [hreply, Option.some.injEq] at hsome
    cases hlatest : latestInsert s.log (DnsCache.key domain qtype) with
    | none => exact absurd (hin.symm.trans (h.absent _ hlatest)) (by simp)
    | some latest =>
      obtain ⟨e', he', hpacket, hnow, httl, -⟩ | ⟨hnone, -⟩ := h.entry _ latest.1 latest.2 hlatest
      · rw [hin] at he'
        cases he'
        refine ⟨e.packet, _, ⟨latest.2, ?_, ?_⟩, hsome⟩
        · rw [hpacket]
          exact hlatest
        · have hage := of_decide_eq_false hlive
          rw [hpacket, ← httl, ← hnow]
          omega
      · exact absurd (hin.symm.trans hnone) (by simp)

theorem reply_of_fresh (h : Kept capacity minTtlSecs maxTtlSecs s) {domain : Str}
    {qtype : QueryType} {now₁ now₂ : Nat} (hclock : s.clock ≤ now₁) {packet : DnsPacket}
    (hfresh : Fresh minTtlSecs maxTtlSecs s.log (DnsCache.key domain qtype) now₁ packet)
    (hused : (usedSince s.log (DnsCache.key domain qtype)).card <
      DnsCache.effectiveCap capacity) :
    ∃ ttl, (s.cache.get domain qtype now₁ now₂).1 = some (withAnswerTtl packet ttl) := by
  obtain ⟨t, hlatest, hage⟩ := hfresh
  obtain ⟨e, he, hpacket, hnow, httl, -⟩ | ⟨-, hcard | hold⟩ := h.entry _ packet t hlatest
  · have hlive : ¬ e.isExpired now₁ = true := by
      intro hexpired
      have := of_decide_eq_true hexpired
      omega
    cases lookup_cases s.cache domain qtype now₁ now₂ with
    | missing hin => exact absurd (he.symm.trans hin) (by simp)
    | expired hin hexpired =>
      rw [he] at hin
      cases hin
      exact absurd hexpired hlive
    | hit hin _ hreply =>
      rw [he] at hin
      cases hin
      rw [← hpacket]
      exact ⟨_, hreply⟩
  · omega
  · omega

theorem promised_of_kept (hle : minTtlSecs ≤ maxTtlSecs) (s : Watched) (op : Op)
    (h : Kept capacity minTtlSecs maxTtlSecs s) (horder : InOrder s op) :
    Promised (DnsCache.effectiveCap capacity) minTtlSecs maxTtlSecs s op := by
  cases op with
  | insert domain qtype packet now =>
    obtain ⟨c', hinsert, -⟩ := insert_eq hle h.minTtl h.maxTtl domain qtype packet now
    exact Option.isSome_iff_exists.2 ⟨c', hinsert⟩
  | get domain qtype now₁ now₂ =>
    exact ⟨fun _ => fresh_of_reply h, fun _ => reply_of_fresh h horder⟩
  | clear => trivial

/-- In every run whose clock does not go back, every call does what is promised, and the map
    never holds more entries than it has room for; 0 stands for 1024. -/
theorem cache_promises (hle : minTtlSecs ≤ maxTtlSecs) {ops : List Op}
    (horder : Along Watched.step InOrder (.start capacity minTtlSecs maxTtlSecs) ops) :
    Along Watched.step (Promised (DnsCache.effectiveCap capacity) minTtlSecs maxTtlSecs)
      (.start capacity minTtlSecs maxTtlSecs) ops ∧
    ∀ pre, pre <+: ops →
      (pre.foldl Watched.step (.start capacity minTtlSecs maxTtlSecs)).cache.len ≤
        DnsCache.effectiveCap capacity := by
  have hstart := kept_start capacity minTtlSecs maxTtlSecs
  constructor
  · exact horder.of_invariant hstart (kept_step hle) (promised_of_kept hle)
  · intro pre h
    obtain ⟨post, rfl⟩ := h
    have hkept := (along_append.1 horder).1.invariant hstart (kept_step hle)
    rw [← hkept.cap]
    exact (pre.foldl Watched.step _).cache.cache.len_le

end Run

/-- A message without records. -/
def emptyPacket : DnsPacket :=
  ⟨⟨0, true, .Query, false, false, true, true, .NoError, 0, 0, 0, 0⟩, [], [], [], []⟩

/-- An insertion, a lookup under another spelling while the packet is fresh, one that finds it
    expired, a second key that takes the only place, and a clear. -/
def sampleOps : List Op :=
  [.insert ['a'] .A emptyPacket 0, .get ['A'] .A 5 5, .get ['a'] .A (fromSecs 300) (fromSecs 300),
    .insert ['b'] .A emptyPacket (fromSecs 300), .clear]

theorem cache_promises_sampleOps :
    Along Watched.step (Promised 1 60 3600) (.start 1 60 3600) sampleOps ∧
      ∀ pre, pre <+: sampleOps →
        (pre.foldl Watched.step (.start 1 60 3600)).cache.len ≤ 1 := by
  have hle : 60 ≤ 3600 := by decide
  have horder : Along Watched.step InOrder (.start 1 60 3600) sampleOps :=
    ⟨by decide, by decide, by decide, by decide, by decide, trivial⟩
  exact cache_promises hle horder

/-- A cache made with capacity 0 has room. -/
theorem not_promised_capacityZero :
    ¬ ∀ (capacity minTtlSecs maxTtlSecs : Nat) (ops : List Op), minTtlSecs ≤ maxTtlSecs →
      Along Watched.step InOrder (.start capacity minTtlSecs maxTtlSecs) ops →
        Along Watched.step (Promised capacity minTtlSecs maxTtlSecs)
          (.start capacity minTtlSecs maxTtlSecs) ops ∧
        ∀ pre, pre <+: ops →
          (pre.foldl Watched.step (.start capacity minTtlSecs maxTtlSecs)).cache.len ≤
            capacity := by
  intro h
  have hone := (h 0 0 0 [.insert ['a'] .A emptyPacket 0] le_rfl ⟨le_rfl, trivial⟩).2 _
    (List.prefix_refl _)
  have hlen : ([Op.insert ['a'] .A emptyPacket 0].foldl Watched.step (.start 0 0 0)).cache.len =
      1 := by
    decide
  omega

end VantaDns.Cache
