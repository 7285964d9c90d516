/-
  The TTLs of cached answers (`insert`, `get` and `remaining_ttl_secs` of
  `cache/lru_cache.rs`), under the bounds that `ServerConfig::validate` accepts.

  An entry lives for the smallest TTL of its answers, or 300 seconds, kept within the bounds
  (`Timed`, an invariant of all calls). A hit shows what is left of that in whole seconds,
  cast to 32 bits. `exactTtls_iff`: the cast keeps every such number exactly if the lower
  bound is below 2^32 seconds; the upper one does not matter, since no record lives longer.

  The other sections keep the TTLs they came with. `answers_age` says which replies age
  as a whole.
-/
import VantaDns.Cache.History
import VantaDns.Config.ServerConfig

namespace VantaDns.Cache

open Lib Protocol Config

section Ttls

variable {capacity minTtlSecs maxTtlSecs : Nat}

/-- The cache after a sequence of calls. -/
def cacheAfter (capacity minTtlSecs maxTtlSecs : Nat) (ops : List Op) : DnsCache :=
  ops.foldl DnsCache.step (.new capacity minTtlSecs maxTtlSecs)

/-- A lookup that answers with `reply` from the entry `e`. -/
structure Hit (c : DnsCache) (domain : Str) (qtype : QueryType) (now₁ now₂ : Nat)
    (e : CachedResponse) (reply : DnsPacket) : Prop where
  entry : c.entry domain qtype = some e
  reply : (c.get domain qtype now₁ now₂).1 = some reply

/-- Whole seconds that are left of an entry at the instant `now`. -/
def secondsLeft (e : CachedResponse) (now : Nat) : Nat :=
  (e.ttl - (now - e.createdAt)) / 1000000000

/-- What the TTLs of a cache should be, after any calls. -/
structure ExactTtls (capacity minTtlSecs maxTtlSecs : Nat) : Prop where
  /-- An insertion does not panic, and its packet lives as long as it should. -/
  inserted : ∀ ops domain qtype packet now, ∃ c,
    (cacheAfter capacity minTtlSecs maxTtlSecs ops).insert domain qtype packet now = some c ∧
      c.entry domain qtype = some ⟨packet, qtype, now, lifetime minTtlSecs maxTtlSecs packet⟩
  /-- A hit shows the seconds that are left. -/
  shown : ∀ ops domain qtype now₁ now₂ e reply,
    Hit (cacheAfter capacity minTtlSecs maxTtlSecs ops) domain qtype now₁ now₂ e reply →
      e.ttl = lifetime minTtlSecs maxTtlSecs e.packet ∧
        ∀ answer ∈ reply.answers, answer.ttl.toNat = secondsLeft e now₂
  /-- Of two hits on one entry, the later one shows no larger TTL. -/
  falling : ∀ ops ops' domain domain' qtype qtype' now₁ now₁' now₂ now₂' e reply reply',
    Hit (cacheAfter capacity minTtlSecs maxTtlSecs ops) domain qtype now₁ now₂ e reply →
    Hit (cacheAfter capacity minTtlSecs maxTtlSecs ops') domain' qtype' now₁' now₂' e reply' →
    now₂ ≤ now₂' → List.Forall₂ (fun answer answer' => answer'.ttl ≤ answer.ttl)
      reply.answers reply'.answers

/-- Every record of the packet but the OPT records, which have no TTL, may be kept for no longer
    than the entry `e` is at the instant `now`. -/
def AgesAsWhole (packet : DnsPacket) (e : CachedResponse) (now : Nat) : Prop :=
  ∀ r ∈ packet.answers ++ packet.authorities ++ packet.additionals, r.rtype.toU16 ≠ 41 →
    fromSecs r.ttl.toNat ≤ e.ttl - (now - e.createdAt)

/-! ## Lifetimes -/

/-- The bounds are set, and every entry lives as long as its packet should. -/
structure Timed (minTtlSecs maxTtlSecs : Nat) (c : DnsCache) : Prop where
  minTtl : c.minTtl = fromSecs minTtlSecs
  maxTtl : c.maxTtl = fromSecs maxTtlSecs
  entry : ∀ k e, c.cache.lookup k = some e → e.ttl = lifetime minTtlSecs maxTtlSecs e.packet

theorem timed_new (capacity minTtlSecs maxTtlSecs : Nat) :
    Timed minTtlSecs maxTtlSecs (.new capacity minTtlSecs maxTtlSecs) :=
  ⟨rfl, rfl, fun _ _ h => by cases h⟩

theorem timed_step (hle : minTtlSecs ≤ maxTtlSecs) {c : DnsCache} (h : Timed minTtlSecs maxTtlSecs c)
    (op : Op) : Timed minTtlSecs maxTtlSecs (c.step op) := by
  cases op with
  | insert domain qtype packet now =>
    obtain ⟨c', hinsert, hcache, hmin, hmax⟩ :=
      insert_eq hle h.minTtl h.maxTtl domain qtype packet now
    have hstep : c.step (.insert domain qtype packet now) = c' := by
      rw [DnsCache.step, hinsert, Option.getD_some]
    rw [hstep]
    refine ⟨hmin.trans h.minTtl, hmax.trans h.maxTtl, ?_⟩
    intro k e hlookup
    rw [hcache] at hlookup
    rcases Lru.lookup_put hlookup with ⟨-, rfl⟩ | ⟨-, hold⟩
    · rfl
    · exact h.entry k e hold
  | get domain qtype now₁ now₂ =>
    obtain ⟨hmin, hmax⟩ := c.bounds_get domain qtype now₁ now₂
    refine ⟨hmin.trans h.minTtl, hmax.trans h.maxTtl, ?_⟩
    intro k e hlookup
    exact h.entry k e (DnsCache.lookup_get hlookup)
  | clear =>
    refine ⟨h.minTtl, h.maxTtl, ?_⟩
    intro k e hlookup
    cases hlookup

theorem timed_cacheAfter (capacity : Nat) (hle : minTtlSecs ≤ maxTtlSecs) (ops : List Op) :
    Timed minTtlSecs maxTtlSecs (cacheAfter capacity minTtlSecs maxTtlSecs ops) :=
  (along_of_forall (P := fun _ _ => True) fun _ _ => trivial).invariant
    (timed_new capacity minTtlSecs maxTtlSecs) fun _ op h _ => timed_step hle h op

theorem rawTtl_lt (packet : DnsPacket) : DnsCache.rawTtl packet < 2 ^ 32 := by
  unfold DnsCache.rawTtl
  split
  · next ttl hmin =>
    obtain ⟨answer, -, rfl⟩ := List.mem_map.1 (List.min?_mem hmin)
    exact answer.ttl.toNat_lt
  · decide

/-- No lifetime is longer than the lower bound or 2^32 seconds. -/
theorem lifetime_lt (hmin : minTtlSecs < 2 ^ 32) (packet : DnsPacket) :
    lifetime minTtlSecs maxTtlSecs packet < fromSecs (2 ^ 32) := by
  have hraw := rawTtl_lt packet
  unfold lifetime fromSecs
  omega

/-! ## Hits -/

/-- A hit returns the stored packet with what is left as the TTL of every answer. -/
theorem Hit.eq {c : DnsCache} {domain : Str} {qtype : QueryType} {now₁ now₂ : Nat}
    {e : CachedResponse} {reply : DnsPacket} (h : Hit c domain qtype now₁ now₂ e reply) :
    reply = withAnswerTtl e.packet (e.remainingTtlSecs now₂) := by
  have hreply := h.reply
  rw [DnsCache.get_fst] at hreply
  obtain ⟨e', hlive, rfl⟩ := Option.map_eq_some_iff.1 hreply
  have hentry := h.entry
  rw [DnsCache.entry, DnsCache.lookup_of_live hlive, Option.some.injEq] at hentry
  rw [hentry]

/-- The cast to 32 bits keeps what is left of an entry that lives less than 2^32 seconds. -/
theorem remainingTtlSecs_toNat {e : CachedResponse} (h : e.ttl < fromSecs (2 ^ 32)) (now : Nat) :
    (e.remainingTtlSecs now).toNat = secondsLeft e now := by
  unfold CachedResponse.remainingTtlSecs secondsLeft
  split
  · next hle => rw [Nat.sub_eq_zero_of_le hle, Nat.zero_div, UInt32.toNat_zero]
  · have hlt : (e.ttl - (now - e.createdAt)) / 1000000000 < 2 ^ 32 := by
      unfold fromSecs at h
      omega
    exact UInt32.toNat_ofNat_of_lt' hlt

theorem secondsLeft_antitone (e : CachedResponse) {now now' : Nat} (h : now ≤ now') :
    secondsLeft e now' ≤ secondsLeft e now := by
  unfold secondsLeft
  exact Nat.div_le_div_right (by omega)

theorem ttl_of_mem_withAnswerTtl {packet : DnsPacket} {ttl : UInt32} {answer : ResourceRecord}
    (h : answer ∈ (withAnswerTtl packet ttl).answers) : answer.ttl = ttl := by
  obtain ⟨_, _, rfl⟩ := List.mem_map.1 h
  rfl

/-- A lookup behind an insertion is a hit for as long as the packet lives. -/
theorem hit_inserted (capacity : Nat) (hle : minTtlSecs ≤ maxTtlSecs) (domain : Str)
    (qtype : QueryType) (packet : DnsPacket) {now : Nat}
    (hnow : now < lifetime minTtlSecs maxTtlSecs packet) :
    Hit (cacheAfter capacity minTtlSecs maxTtlSecs [.insert domain qtype packet 0]) domain qtype
      now now ⟨packet, qtype, 0, lifetime minTtlSecs maxTtlSecs packet⟩
      (withAnswerTtl packet (CachedResponse.remainingTtlSecs
        ⟨packet, qtype, 0, lifetime minTtlSecs maxTtlSecs packet⟩ now)) := by
  obtain ⟨c', hinsert, hcache, -⟩ := insert_eq hle
    (timed_new capacity minTtlSecs maxTtlSecs).minTtl
    (timed_new capacity minTtlSecs maxTtlSecs).maxTtl domain qtype packet 0
  have hafter : cacheAfter capacity minTtlSecs maxTtlSecs [.insert domain qtype packet 0] = c' := by
    rw [cacheAfter, List.foldl_cons, List.foldl_nil, DnsCache.step, hinsert, Option.getD_some]
  have hentry : c'.entry domain qtype =
      some ⟨packet, qtype, 0, lifetime minTtlSecs maxTtlSecs packet⟩ := by
    rw [DnsCache.entry, hcache, Lru.lookup_put_self]
  have hlive : CachedResponse.isExpired
      ⟨packet, qtype, 0, lifetime minTtlSecs maxTtlSecs packet⟩ now = false := by
    rw [CachedResponse.isExpired, decide_eq_false_iff_not]
    dsimp only
    omega
  rw [hafter]
  refine ⟨hentry, ?_⟩
  rw [DnsCache.get_fst, DnsCache.live, hentry, Option.filter_some, hlive]
  rfl

theorem lifetime_pos (hpos : 0 < minTtlSecs) (packet : DnsPacket) :
    0 < lifetime minTtlSecs maxTtlSecs packet := by
  unfold lifetime fromSecs
  omega

/-- A message with one answer. -/
def oneAnswer : DnsPacket :=
  { emptyPacket with answers := [⟨['a'], .A, .IN, 60, .A (.replicate 4 1)⟩] }

theorem exactTtls_of_lt (hle : minTtlSecs ≤ maxTtlSecs) (hmin : minTtlSecs < 2 ^ 32) :
    ExactTtls capacity minTtlSecs maxTtlSecs := by
  have hshown : ∀ ops domain qtype now₁ now₂ e reply,
      Hit (cacheAfter capacity minTtlSecs maxTtlSecs ops) domain qtype now₁ now₂ e reply →
        e.ttl = lifetime minTtlSecs maxTtlSecs e.packet ∧
          ∀ answer ∈ reply.answers, answer.ttl.toNat = secondsLeft e now₂ := by
    intro ops domain qtype now₁ now₂ e reply h
    have httl := (timed_cacheAfter capacity hle ops).entry _ e h.entry
    refine ⟨httl, ?_⟩
    intro answer hanswer
    rw [h.eq] at hanswer
    rw [ttl_of_mem_withAnswerTtl hanswer, remainingTtlSecs_toNat]
    rw [httl]
    exact lifetime_lt hmin e.packet
  refine ⟨?_, hshown, ?_⟩
  · intro ops domain qtype packet now
    have htimed := timed_cacheAfter capacity hle ops
    obtain ⟨c, hinsert, hcache, -⟩ :=
      insert_eq hle htimed.minTtl htimed.maxTtl domain qtype packet now
    exact ⟨c, hinsert, by rw [DnsCache.entry, hcache, Lru.lookup_put_self]⟩
  · intro ops ops' domain domain' qtype qtype' now₁ now₁' now₂ now₂' e reply reply' h h' hnow
    have hlen : reply.answers.length = reply'.answers.length := by
      rw [h.eq, h'.eq, withAnswerTtl, withAnswerTtl, List.length_map, List.length_map]
    refine List.forall₂_iff_get.2 ⟨hlen, ?_⟩
    intro i hi hi'
    rw [UInt32.le_iff_toNat_le, (hshown _ _ _ _ _ _ _ h).2 _ (List.get_mem _ _),
      (hshown _ _ _ _ _ _ _ h').2 _ (List.get_mem _ _)]
    exact secondsLeft_antitone e hnow

/-- From 2^32 seconds on, the lower bound itself does not fit. -/
theorem not_exactTtls (hle : minTtlSecs ≤ maxTtlSecs) (hmin : 2 ^ 32 ≤ minTtlSecs) :
    ¬ ExactTtls capacity minTtlSecs maxTtlSecs := by
  intro h
  have hhit := hit_inserted capacity hle ['a'] .A oneAnswer (lifetime_pos (by omega) oneAnswer)
  have hshown := (h.shown _ _ _ _ _ _ _ hhit).2 _ List.mem_cons_self
  have hlt := (CachedResponse.remainingTtlSecs
    ⟨oneAnswer, .A, 0, lifetime minTtlSecs maxTtlSecs oneAnswer⟩ 0).toNat_lt
  have hleft : minTtlSecs ≤
      secondsLeft ⟨oneAnswer, .A, 0, lifetime minTtlSecs maxTtlSecs oneAnswer⟩ 0 := by
    unfold secondsLeft lifetime fromSecs
    dsimp only
    omega
  rw [← hshown] at hleft
  exact absurd (hleft.trans_lt hlt) (by omega)

/-- The answers of a hit may be kept no longer than the entry. The other records come with the
    TTLs they were inserted with, so that the reply ages as a whole exactly if they do. -/
theorem answers_age (hle : minTtlSecs ≤ maxTtlSecs) (hmin : minTtlSecs < 2 ^ 32)
    {ops : List Op} {domain : Str} {qtype : QueryType} {now₁ now₂ : Nat} {e : CachedResponse}
    {reply : DnsPacket}
    (h : Hit (cacheAfter capacity minTtlSecs maxTtlSecs ops) domain qtype now₁ now₂ e reply) :
    e.ttl = lifetime minTtlSecs maxTtlSecs e.packet ∧
    (∀ r ∈ reply.answers, fromSecs r.ttl.toNat ≤ e.ttl - (now₂ - e.createdAt)) ∧
    reply.authorities = e.packet.authorities ∧ reply.additionals = e.packet.additionals ∧
    (AgesAsWhole reply e now₂ ↔ ∀ r ∈ e.packet.authorities ++ e.packet.additionals,
      r.rtype.toU16 ≠ 41 → fromSecs r.ttl.toNat ≤ e.ttl - (now₂ - e.createdAt)) := by
  obtain ⟨httl, hanswers⟩ := (exactTtls_of_lt hle hmin).shown _ _ _ _ _ _ _ h
  have hanswers' : ∀ r ∈ reply.answers, fromSecs r.ttl.toNat ≤ e.ttl - (now₂ - e.createdAt) := by
    intro r hr
    rw [hanswers r hr]
    exact Nat.div_mul_le_self _ _
  have hauthorities : reply.authorities = e.packet.authorities := by
    rw [h.eq]
    rfl
  have hadditionals : reply.additionals = e.packet.additionals := by
    rw [h.eq]
    rfl
  refine ⟨httl, hanswers', hauthorities, hadditionals, ?_⟩
  unfold AgesAsWhole
  rw [hauthorities, hadditionals, List.append_assoc]
  constructor
  · intro hall r hr
    exact hall r (List.mem_append_right _ hr)
  · intro hothers r hr hopt
    rcases List.mem_append.1 hr with hr | hr
    · exact hanswers' r hr
    · exact hothers r hr hopt

end Ttls

/-- A denial: no answers, and a SOA record for an hour. -/
def denial : DnsPacket :=
  { emptyPacket with authorities := [⟨['a'], .SOA, .IN, 3600, .Raw []⟩] }

/-- A hit on the denial. -/
theorem hit_denial : Hit (cacheAfter 16 60 86400 [.insert ['b', '.', 'a'] .A denial 0])
    ['b', '.', 'a'] .A 0 0 ⟨denial, .A, 0, lifetime 60 86400 denial⟩ denial := by
  have hhit := hit_inserted 16 (by decide : 60 ≤ 86400) ['b', '.', 'a'] .A denial
    (lifetime_pos (by decide) denial)
  exact hhit

theorem answers_age_denial :
    (∀ r ∈ denial.answers, fromSecs r.ttl.toNat ≤ lifetime 60 86400 denial - (0 - 0)) ∧
    (AgesAsWhole denial ⟨denial, .A, 0, lifetime 60 86400 denial⟩ 0 ↔
      ∀ r ∈ denial.authorities ++ denial.additionals, r.rtype.toU16 ≠ 41 →
        fromSecs r.ttl.toNat ≤ lifetime 60 86400 denial - (0 - 0)) := by
  have hages := answers_age (by decide) (by decide) hit_denial
  exact ⟨hages.2.1, hages.2.2.2.2⟩

/-- The denial lives for 300 seconds, and the reply from the cache keeps its SOA for an hour. -/
theorem not_agesAsWhole_denial :
    Hit (cacheAfter 16 60 86400 [.insert ['b', '.', 'a'] .A denial 0]) ['b', '.', 'a'] .A 0 0
      ⟨denial, .A, 0, lifetime 60 86400 denial⟩ denial ∧
    lifetime 60 86400 denial = fromSecs 300 ∧
    ¬ AgesAsWhole denial ⟨denial, .A, 0, lifetime 60 86400 denial⟩ 0 := by
  refine ⟨hit_denial, by decide, ?_⟩
  intro h
  have hsoa := h ⟨['a'], .SOA, .IN, 3600, .Raw []⟩ (by decide) (by decide)
  exact absurd hsoa (by decide)

/-- Under an accepted configuration the TTLs are what they should be exactly if the lower bound
    is below 2^32 seconds. -/
theorem exactTtls_iff {vars : EnvVars} {config : ServerConfig}
    (hconfig : config.validate vars = .ok ()) :
    ExactTtls config.cacheCapacity config.minTtlSecs config.maxTtlSecs ↔
      config.minTtlSecs < 2 ^ 32 := by
  have hle := (ServerConfig.validate_ok_iff.1 hconfig).bounds
  constructor
  · intro h
    by_contra hmin
    exact not_exactTtls hle (by omega) h
  · exact exactTtls_of_lt hle

theorem exactTtls_iff_default : ExactTtls 10000 60 86400 := by
  have hconfig : ServerConfig.default.validate (fun _ => none) = .ok () :=
    ServerConfig.validate_ok_iff.2 (ServerConfig.default_valid _)
  exact (exactTtls_iff hconfig).2 (by decide)

/-- The default configuration with both bounds 100 seconds above 2^32 seconds. -/
def longConfig : ServerConfig :=
  { ServerConfig.default with minTtlSecs := 2 ^ 32 + 100, maxTtlSecs := 2 ^ 32 + 100 }

/-- Bounds of more than 2^32 seconds are accepted, and a packet that was inserted half a second ago
    is returned with a TTL of 99 seconds. -/
theorem not_exactTtls_longConfig :
    longConfig.validate (fun _ => none) = .ok () ∧
    ((cacheAfter 10000 (2 ^ 32 + 100) (2 ^ 32 + 100) [.insert ['a'] .A oneAnswer 0]).get ['a'] .A
      500000000 500000000).1 = some (withAnswerTtl oneAnswer 99) ∧
    ¬ ExactTtls longConfig.cacheCapacity longConfig.minTtlSecs longConfig.maxTtlSecs := by
  have hdefault := ServerConfig.default_valid fun _ => none
  refine ⟨ServerConfig.validate_ok_iff.2 ⟨by decide, by decide, hdefault.mode, nofun, nofun⟩, ?_,
    not_exactTtls (by decide) (by decide)⟩
  have hcast : CachedResponse.remainingTtlSecs
      ⟨oneAnswer, .A, 0, lifetime (2 ^ 32 + 100) (2 ^ 32 + 100) oneAnswer⟩ 500000000 = 99 := by
    decide +kernel
  have hnow : 500000000 < lifetime (2 ^ 32 + 100) (2 ^ 32 + 100) oneAnswer := by decide
  have hreply := (hit_inserted 10000 (le_refl (2 ^ 32 + 100)) ['a'] .A oneAnswer hnow).reply
  rw [hcast] at hreply
  exact hreply

end VantaDns.Cache
