/-
  The response cache (`cache/lru_cache.rs`). Times are instants and durations in nanoseconds;
  every reading of the clock is an argument, two for `get`, which reads it once for
  `is_expired` and once for `remaining_ttl_secs`.

  `get_fst` says what a lookup returns, `lookup_get` and `insert_cases` what lookups and
  insertions do to the entries, `insert_eq_none` when an insertion panics.
-/
import VantaDns.Lib.Lru
import VantaDns.Protocol.Packet

namespace VantaDns.Cache

open Lib Lib.Unicode Protocol

/-- `Duration::from_secs`. -/
def fromSecs (secs : Nat) : Nat := secs * 1000000000

structure CachedResponse where
  packet : DnsPacket
  queryType : QueryType
  createdAt : Nat
  ttl : Nat

namespace CachedResponse

/-- `is_expired` at the instant `now`; `elapsed` saturates at zero. -/
def isExpired (r : CachedResponse) (now : Nat) : Bool := decide (r.ttl ≤ now - r.createdAt)

/-- `remaining_ttl_secs` at the instant `now`, with the seconds `as u32`. -/
def remainingTtlSecs (r : CachedResponse) (now : Nat) : UInt32 :=
  if r.ttl ≤ now - r.createdAt then 0
  else UInt32.ofNat ((r.ttl - (now - r.createdAt)) / 1000000000)

end CachedResponse

structure CacheStats where
  hits : Nat
  misses : Nat
  evictions : Nat
  expirations : Nat
  deriving DecidableEq

structure DnsCache where
  cache : Lru (Str × QueryType) CachedResponse
  minTtl : Nat
  maxTtl : Nat
  stats : CacheStats

/-- The packet with the TTL of every answer replaced. -/
def withAnswerTtl (p : DnsPacket) (ttl : UInt32) : DnsPacket :=
  { p with answers := p.answers.map fun answer => { answer with ttl := ttl } }

namespace DnsCache

/-- `NonZeroUsize::new(capacity).unwrap_or(1024)`. -/
def effectiveCap (capacity : Nat) : Nat := if capacity = 0 then 1024 else capacity

theorem effectiveCap_pos (capacity : Nat) : 0 < effectiveCap capacity := by
  unfold effectiveCap
  split <;> omega

def new (capacity minTtlSecs maxTtlSecs : Nat) : DnsCache where
  cache := .new (effectiveCap capacity) (effectiveCap_pos capacity)
  minTtl := fromSecs minTtlSecs
  maxTtl := fromSecs maxTtlSecs
  stats := ⟨0, 0, 0, 0⟩

def key (domain : Str) (qtype : QueryType) : Str × QueryType := (toLowercase domain, qtype)

/-- `get`, with the two clock readings. -/
def get (c : DnsCache) (domain : Str) (qtype : QueryType) (now₁ now₂ : Nat) :
    Option DnsPacket × DnsCache :=
  match c.cache.get (key domain qtype) with
  | (some entry, cache) =>
      if entry.isExpired now₁ then
        (none, { c with
          cache := cache.pop (key domain qtype)
          stats := { c.stats with
            expirations := c.stats.expirations + 1, misses := c.stats.misses + 1 } })
      else
        (some (withAnswerTtl entry.packet (entry.remainingTtlSecs now₂)),
          { c with cache := cache, stats := { c.stats with hits := c.stats.hits + 1 } })
  | (none, cache) =>
      (none, { c with cache := cache, stats := { c.stats with misses := c.stats.misses + 1 } })

/-- The smallest TTL of the answers, or 300 without answers. -/
def rawTtl (p : DnsPacket) : Nat :=
  match (p.answers.map fun ans => ans.ttl.toNat).min? with
  | some ttl => ttl
  | none => 300

/-- `Duration::clamp`, which panics on `min > max`. -/
def clamp (d min max : Nat) : Option Nat :=
  if max < min then none else if d < min then some min else if max < d then some max else some d

/-- `insert`, at the instant `now`; `none` is a panic. -/
def insert (c : DnsCache) (domain : Str) (qtype : QueryType) (packet : DnsPacket) (now : Nat) :
    Option DnsCache :=
  match clamp (fromSecs (rawTtl packet)) c.minTtl c.maxTtl with
  | none => none
  | some effectiveTtl =>
      let cached : CachedResponse := ⟨packet, qtype, now, effectiveTtl⟩
      let stats := if c.cache.len = c.cache.cap
        then { c.stats with evictions := c.stats.evictions + 1 } else c.stats
      some { c with cache := c.cache.put (key domain qtype) cached, stats := stats }

def len (c : DnsCache) : Nat := c.cache.len

def clear (c : DnsCache) : DnsCache := { c with cache := c.cache.clear }

/-! ## Entries -/

/-- The entry stored under a name and type, which a lookup lower-cases. -/
def entry (c : DnsCache) (domain : Str) (qtype : QueryType) : Option CachedResponse :=
  c.cache.lookup (key domain qtype)

/-- The entry a lookup at the instant `now` answers with. -/
def live (c : DnsCache) (domain : Str) (qtype : QueryType) (now : Nat) : Option CachedResponse :=
  (c.entry domain qtype).filter fun r => !r.isExpired now

theorem get_fst (c : DnsCache) (domain : Str) (qtype : QueryType) (now₁ now₂ : Nat) :
    (c.get domain qtype now₁ now₂).1 = (c.live domain qtype now₁).map fun r =>
      withAnswerTtl r.packet (r.remainingTtlSecs now₂) := by
  unfold get live entry
  have hget := c.cache.get_fst (key domain qtype)
  split
  · next r cache h =>
    rw [h] at hget
    rw [← hget]
    by_cases hx : r.isExpired now₁ = true
    · simp [hx, Option.filter]
    · simp [hx, Option.filter]
  · next cache h =>
    rw [h] at hget
    rw [← hget]
    rfl

theorem lookup_of_live {c : DnsCache} {domain : Str} {qtype : QueryType} {now : Nat}
    {r : CachedResponse} (h : c.live domain qtype now = some r) :
    c.cache.lookup (key domain qtype) = some r :=
  (Option.filter_eq_some_iff.1 h).1

/-- A lookup leaves the entries as they are, but for an expired one that it takes out. -/
theorem lookup_get {c : DnsCache} {domain : Str} {qtype : QueryType} {now₁ now₂ : Nat}
    {k : Str × QueryType} {r : CachedResponse}
    (h : (c.get domain qtype now₁ now₂).2.cache.lookup k = some r) : c.cache.lookup k = some r := by
  have hget := c.cache.lookup_get (key domain qtype) k
  unfold get at h
  split at h
  · next e cache heq =>
    rw [heq] at hget
    split at h
    · dsimp only at h
      rw [Lru.lookup_pop] at h
      split at h
      · cases h
      · rw [← hget]
        exact h
    · rw [← hget]
      exact h
  · next cache heq =>
    rw [heq] at hget
    rw [← hget]
    exact h

@[simp] theorem cap_get (c : DnsCache) (domain : Str) (qtype : QueryType) (now₁ now₂ : Nat) :
    (c.get domain qtype now₁ now₂).2.cache.cap = c.cache.cap := by
  have hget := c.cache.cap_get (key domain qtype)
  unfold get
  split
  · next e cache heq =>
    rw [heq] at hget
    split
    · exact hget
    · exact hget
  · next cache heq =>
    rw [heq] at hget
    exact hget

theorem bounds_get (c : DnsCache) (domain : Str) (qtype : QueryType) (now₁ now₂ : Nat) :
    (c.get domain qtype now₁ now₂).2.minTtl = c.minTtl ∧
      (c.get domain qtype now₁ now₂).2.maxTtl = c.maxTtl := by
  unfold get
  split
  · split <;> exact ⟨rfl, rfl⟩
  · exact ⟨rfl, rfl⟩

/-- An insertion panics exactly if the bounds are out of order. -/
theorem insert_eq_none {c : DnsCache} {domain : Str} {qtype : QueryType} {packet : DnsPacket}
    {now : Nat} : c.insert domain qtype packet now = none ↔ c.maxTtl < c.minTtl := by
  unfold insert clamp
  split
  · next h =>
    split at h
    · next hlt => simpa using hlt
    · split at h
      · cases h
      · split at h <;> cases h
  · next h =>
    split at h
    · cases h
    · next hge => simpa using hge

/-- An insertion puts one entry with the packet under the key and keeps the bounds. -/
theorem insert_cases {c c' : DnsCache} {domain : Str} {qtype : QueryType} {packet : DnsPacket}
    {now : Nat} (h : c.insert domain qtype packet now = some c') :
    ∃ r : CachedResponse, r.packet = packet ∧ r.createdAt = now ∧
      c'.cache = c.cache.put (key domain qtype) r ∧ c'.minTtl = c.minTtl ∧ c'.maxTtl = c.maxTtl := by
  unfold insert at h
  split at h
  · cases h
  · cases h
    exact ⟨_, rfl, rfl, rfl, rfl, rfl⟩

end DnsCache

end VantaDns.Cache
