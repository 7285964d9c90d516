/-
  What the cache is for: a memory of answers that runs out of time and not of room.

  `Memory` has what was inserted last under each key, and when. `Memory.find` answers with it
  while its lifetime has not passed. `find_eq`: as long as fewer other keys were used than the
  cache has room for, a lookup answers as the memory does, down to the TTLs.
  `answers_eq_memory`: on calls with no more keys than there is room for, and with a clock that
  does not go back, the cache gives the answers of the memory, one after the other.
-/
import VantaDns.Cache.History

namespace VantaDns.Cache

open Lib Protocol

/-- What was inserted last under each key, and when. -/
abbrev Memory : Type := Key → Option (DnsPacket × Nat)

namespace Memory

/-- The packet of the key with the seconds that are left of its lifetime. -/
def find (minTtlSecs maxTtlSecs : Nat) (memory : Memory) (domain : Str) (qtype : QueryType)
    (now₁ now₂ : Nat) : Option DnsPacket :=
  match memory (DnsCache.key domain qtype) with
  | none => none
  | some (packet, t) =>
      let life := lifetime minTtlSecs maxTtlSecs packet
      if now₁ - t < life then
        some (withAnswerTtl packet (UInt32.ofNat ((life - (now₂ - t)) / 1000000000)))
      else none

def step (memory : Memory) : Op → Memory
  | .insert domain qtype packet now =>
      Function.update memory (DnsCache.key domain qtype) (some (packet, now))
  | .get _ _ _ _ => memory
  | .clear => fun _ => none

/-- What the memory answers a call with. -/
def answers (minTtlSecs maxTtlSecs : Nat) (memory : Memory) : Op → List (Option DnsPacket)
  | .get domain qtype now₁ now₂ => [memory.find minTtlSecs maxTtlSecs domain qtype now₁ now₂]
  | _ => []

end Memory

/-- What the cache answers a call with. -/
def DnsCache.answers (c : DnsCache) : Op → List (Option DnsPacket)
  | .get domain qtype now₁ now₂ => [(c.get domain qtype now₁ now₂).1]
  | _ => []

/-- The key a call is about. -/
def Op.key : Op → Option Key
  | .insert domain qtype _ _ => some (DnsCache.key domain qtype)
  | .get domain qtype _ _ => some (DnsCache.key domain qtype)
  | .clear => none

def keysOf (ops : List Op) : Finset Key := (ops.filterMap Op.key).toFinset

/-! ## The log and the memory -/

/-- The log of a run says what the memory has. -/
theorem latestInsert_step (s : Watched) (op : Op) :
    latestInsert (s.step op).log = Memory.step (latestInsert s.log) op := by
  funext k
  match op with
  | .insert domain qtype packet now =>
    show (if DnsCache.key domain qtype = k then some (packet, now) else latestInsert s.log k) = _
    rw [Memory.step, Function.update_apply]
    exact if_congr eq_comm rfl rfl
  | .get domain qtype now₁ now₂ => exact latestInsert_get k
  | .clear => rfl

theorem usedSince_cons_hit {log : List Event} {k k' : Key} {keys : Finset Key} (hk : k' ∈ keys)
    (h : usedSince log k ⊆ keys.erase k) :
    (if k' = k then ∅ else insert k' (usedSince log k)) ⊆ keys.erase k := by
  split
  · exact Finset.empty_subset _
  · next hne => exact Finset.insert_subset (Finset.mem_erase.2 ⟨hne, hk⟩) h

/-- The keys used since are keys that were called, and others. -/
theorem usedSince_step {keys : Finset Key} (s : Watched) (op : Op)
    (hop : ∀ k, op.key = some k → k ∈ keys) (h : ∀ k, usedSince s.log k ⊆ keys.erase k) (k : Key) :
    usedSince (s.step op).log k ⊆ keys.erase k := by
  match op with
  | .insert domain qtype packet now => exact usedSince_cons_hit (hop _ rfl) (h k)
  | .get domain qtype now₁ now₂ =>
    show usedSince (if _ then _ else _) k ⊆ _
    split
    · exact usedSince_cons_hit (hop _ rfl) (h k)
    · exact h k
  | .clear => exact h k

section Run

variable {capacity minTtlSecs maxTtlSecs : Nat} {s : Watched}

/-- The seconds that an entry shows are those that the memory shows. -/
theorem remainingTtlSecs_eq (e : CachedResponse) (now : Nat) :
    e.remainingTtlSecs now = UInt32.ofNat ((e.ttl - (now - e.createdAt)) / 1000000000) := by
  unfold CachedResponse.remainingTtlSecs
  split
  · next hle =>
    rw [Nat.sub_eq_zero_of_le hle]
    rfl
  · rfl

/-- With few other keys used since, a lookup in the cache is one in the memory. -/
theorem find_eq (h : Kept capacity minTtlSecs maxTtlSecs s) {domain : Str} {qtype : QueryType}
    {now₁ : Nat} (now₂ : Nat) (hclock : s.clock ≤ now₁)
    (hused : (usedSince s.log (DnsCache.key domain qtype)).card < DnsCache.effectiveCap capacity) :
    (s.cache.get domain qtype now₁ now₂).1 =
      Memory.find minTtlSecs maxTtlSecs (latestInsert s.log) domain qtype now₁ now₂ := by
  rw [DnsCache.get_fst, DnsCache.live, DnsCache.entry]
  unfold Memory.find
  cases hlatest : latestInsert s.log (DnsCache.key domain qtype) with
  | none =>
    rw [h.absent _ hlatest]
    rfl
  | some latest =>
    obtain ⟨packet, t⟩ := latest
    dsimp only
    obtain ⟨e, he, rfl, rfl, httl, -⟩ | ⟨hnone, hwhy⟩ := h.entry _ packet t hlatest
    · have hlive : (!e.isExpired now₁) = true ↔ now₁ - e.createdAt < e.ttl := by
        rw [CachedResponse.isExpired, Bool.not_eq_true', decide_eq_false_iff_not, Nat.not_le]
      rw [he, Option.filter_some, ← httl, if_congr hlive rfl rfl]
      split
      · rw [Option.map_some, remainingTtlSecs_eq]
      · rfl
    · have hold : ¬ now₁ - t < lifetime minTtlSecs maxTtlSecs packet := by
        obtain hcard | hold := hwhy
        · omega
        · omega
      rw [hnone, if_neg hold]
      rfl

/-- An entry that is there while the packet of the log is fresh has that packet. -/
theorem entry_of_fresh (h : Kept capacity minTtlSecs maxTtlSecs s) {k : Key} {now : Nat}
    {packet : DnsPacket} {e : CachedResponse} (hfresh : Fresh minTtlSecs maxTtlSecs s.log k now packet)
    (he : s.cache.cache.lookup k = some e) : e.packet = packet := by
  obtain ⟨t, hlatest, -⟩ := hfresh
  obtain ⟨e', he', hpacket, -⟩ | ⟨hnone, -⟩ := h.entry k packet t hlatest
  · obtain rfl := Option.some.inj (he.symm.trans he')
    exact hpacket
  · exact absurd (he.symm.trans hnone) (by simp)

/-- The cache with its log, on calls with the keys `keys`. -/
structure Roomy (capacity minTtlSecs maxTtlSecs : Nat) (keys : Finset Key) (s : Watched)
    (memory : Memory) : Prop where
  kept : Kept capacity minTtlSecs maxTtlSecs s
  used : ∀ k, usedSince s.log k ⊆ keys.erase k
  memory : memory = latestInsert s.log

theorem roomy_start (keys : Finset Key) :
    Roomy capacity minTtlSecs maxTtlSecs keys (.start capacity minTtlSecs maxTtlSecs)
      fun _ => none :=
  ⟨kept_start capacity minTtlSecs maxTtlSecs, fun _ => Finset.empty_subset _, rfl⟩

variable {keys : Finset Key} {memory : Memory}

theorem roomy_step (hle : minTtlSecs ≤ maxTtlSecs) (op : Op)
    (h : Roomy capacity minTtlSecs maxTtlSecs keys s memory) (horder : InOrder s op)
    (hop : ∀ k, op.key = some k → k ∈ keys) :
    Roomy capacity minTtlSecs maxTtlSecs keys (s.step op) (memory.step op) := by
  refine ⟨kept_step hle s op h.kept horder, usedSince_step s op hop h.used, ?_⟩
  rw [latestInsert_step, h.memory]

/-- A lookup in a cache with room for all keys is one in the memory. -/
theorem Roomy.find_eq (h : Roomy capacity minTtlSecs maxTtlSecs keys s memory)
    (hroom : keys.card ≤ DnsCache.effectiveCap capacity) {domain : Str} {qtype : QueryType}
    {now₁ : Nat} (now₂ : Nat) (hclock : s.clock ≤ now₁) (hkey : DnsCache.key domain qtype ∈ keys) :
    (s.cache.get domain qtype now₁ now₂).1 =
      memory.find minTtlSecs maxTtlSecs domain qtype now₁ now₂ := by
  rw [h.memory]
  refine Cache.find_eq h.kept now₂ hclock ?_
  calc (usedSince s.log (DnsCache.key domain qtype)).card
      ≤ (keys.erase (DnsCache.key domain qtype)).card := Finset.card_le_card (h.used _)
    _ < keys.card := Finset.card_erase_lt_of_mem hkey
    _ ≤ DnsCache.effectiveCap capacity := hroom

/-- On calls with no more keys than the cache has room for, and a clock that does not go back,
    the cache gives the answers of the memory. -/
theorem answers_eq_memory (hle : minTtlSecs ≤ maxTtlSecs) {ops : List Op}
    (horder : Along Watched.step InOrder (.start capacity minTtlSecs maxTtlSecs) ops)
    (hroom : (keysOf ops).card ≤ DnsCache.effectiveCap capacity) :
    outputs DnsCache.step DnsCache.answers (.new capacity minTtlSecs maxTtlSecs) ops =
      outputs Memory.step (Memory.answers minTtlSecs maxTtlSecs) (fun _ => none) ops := by
  have hkeys : Along Watched.step (fun _ op => ∀ k, op.key = some k → k ∈ keysOf ops)
      (.start capacity minTtlSecs maxTtlSecs) ops := by
    refine along_of_mem fun _ op hop k hk => ?_
    exact List.mem_toFinset.2 (List.mem_filterMap.2 ⟨op, hop, hk⟩)
  have hwatched : outputs Watched.step (fun s op => s.cache.answers op)
      (.start capacity minTtlSecs maxTtlSecs) ops =
      outputs DnsCache.step DnsCache.answers (.new capacity minTtlSecs maxTtlSecs) ops := by
    refine outputs_eq (R := fun s c => s.cache = c) rfl ?_ ?_ horder
    · intro s c op h _
      rw [← h]
      rfl
    · intro s c op h _
      rw [← h]
  rw [← hwatched]
  refine outputs_eq (R := Roomy capacity minTtlSecs maxTtlSecs (keysOf ops)) (roomy_start _) ?_ ?_
    (along_and.2 ⟨horder, hkeys⟩)
  · intro s memory op h hop
    exact roomy_step hle op h hop.1 hop.2
  · intro s memory op h hop
    match op with
    | .get domain qtype now₁ now₂ =>
      exact congrArg (fun reply => [reply]) (h.find_eq hroom now₂ hop.1 (hop.2 _ rfl))
    | .insert domain qtype packet now => rfl
    | .clear => rfl

/-- Two keys, of which one expires, in a cache with room for two. -/
theorem answers_eq_memory_sampleOps :
    outputs DnsCache.step DnsCache.answers (.new 2 60 3600) sampleOps =
      outputs Memory.step (Memory.answers 60 3600) (fun _ => none) sampleOps := by
  have horder : Along Watched.step InOrder (.start 2 60 3600) sampleOps :=
    ⟨by decide, by decide, by decide, by decide, by decide, trivial⟩
  exact answers_eq_memory (by decide) horder (by decide)

end Run

end VantaDns.Cache
