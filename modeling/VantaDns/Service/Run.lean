/-
  Runs of the service, one query after another over either transport.

  `Settings` are the settings that `ServerConfig::validate` lets through; `initial` is the
  state `run_server` starts from. `Recorded` adds to the state a record that the program does
  not keep: under each key of the cache, the message that was stored there last, and the
  query that it answered. The steps do not look at it.

  `Traced F`: every entry of the cache is the parsed message of the record, and every query
  and message of the record satisfy `F`. `traced_step`: this is kept if the upstreams answer
  within `F`.
-/
import VantaDns.Lib.Run
import VantaDns.Service.Forwarding

namespace VantaDns.Service

open Lib Protocol Cache VantaDns.Filter Resolver

/-- The settings a service starts with: capacity not zero and TTL bounds in order. -/
structure Settings where
  capacity : Nat
  minTtlSecs : Nat
  maxTtlSecs : Nat
  upstreams : List UpstreamEntry
  filter : FilterEngine
  blockMode : Str
  capacity_pos : 0 < capacity
  ttl_le : minTtlSecs ≤ maxTtlSecs

def Settings.initial (s : Settings) : DnsServiceState where
  cache := .new s.capacity s.minTtlSecs s.maxTtlSecs
  forwarder := ⟨s.upstreams⟩
  filter := s.filter
  blockMode := s.blockMode

/-- The upstreams, the clock and the client's connection while a query is served. -/
structure Moment where
  net : Nat → Upstream
  now₁ : Nat
  now₂ : Nat
  insertTime : Nat
  prefixFault : Option Nat
  payloadFault : Option Nat

/-- What a query meets when no other task touches the cache. -/
def Moment.env (m : Moment) : Env where
  net := m.net
  now₁ := m.now₁
  now₂ := m.now₂
  insertTime := m.insertTime
  beforeGet := id
  beforeInsert := id
  prefixFault := m.prefixFault
  payloadFault := m.payloadFault

structure Request where
  transport : Transport
  query : List UInt8
  moment : Moment

def Request.served (r : Request) (state : DnsServiceState) : Served :=
  serve r.transport r.query state r.moment.env

/-- The service after a query. -/
def DnsServiceState.step (state : DnsServiceState) (r : Request) : DnsServiceState :=
  { state with cache := (r.served state).cache }

/-! ## What is stored -/

/-- A message that was stored, and the query it answered. -/
structure Fill where
  query : List UInt8
  resp : List UInt8
  deriving DecidableEq

/-- What serving the query stores, and under which key. -/
def Request.fill (r : Request) (state : DnsServiceState) :
    Option ((Str × QueryType) × Fill) :=
  match routeOf r.query state r.moment.env with
  | .answered _ question resp _ =>
    match DnsPacket.parse resp with
    | .ok _ =>
        if (r.served state).ending = .returned then
          some (DnsCache.key question.name question.qtype, ⟨r.query, resp⟩)
        else none
    | _ => none
  | _ => none

structure Recorded where
  state : DnsServiceState
  fills : Str × QueryType → Option Fill

def Settings.start (s : Settings) : Recorded := ⟨s.initial, fun _ => none⟩

def Recorded.step (s : Recorded) (r : Request) : Recorded where
  state := s.state.step r
  fills :=
    match r.fill s.state with
    | some (k, f) => Function.update s.fills k (some f)
    | none => s.fills

/-- What a step does to the entries of the cache. -/
inductive CacheStep (state : DnsServiceState) (r : Request) : Prop where
  | kept : r.fill state = none →
      (∀ k e, (r.served state).cache.cache.lookup k = some e → state.cache.cache.lookup k = some e) →
      CacheStep state r
  | filled {packet p : DnsPacket} {question : DnsQuestion} {resp : List UInt8} :
      Admitted state r.query packet question → Missed state r.moment.env question →
      state.forwarder.forwardRaw r.moment.net r.query = .ok resp → DnsPacket.parse resp = .ok p →
      r.fill state = some (DnsCache.key question.name question.qtype, ⟨r.query, resp⟩) →
      (∀ k e, (r.served state).cache.cache.lookup k = some e →
        k = DnsCache.key question.name question.qtype ∧ e.packet = p ∨
          k ≠ DnsCache.key question.name question.qtype ∧ state.cache.cache.lookup k = some e) →
      CacheStep state r

/-- An answer is stored, or the writing to the client failed before. -/
theorem serve_answered (state : DnsServiceState) (env : Env) (t : Transport) (packet : DnsPacket)
    (question : DnsQuestion) (resp : List UInt8) (cache : DnsCache) :
    (((Route.answered packet question resp cache).serve state env t).cache =
        (store env question resp cache).1 ∧
      ((Route.answered packet question resp cache).serve state env t).ending =
        (store env question resp cache).2) ∨
      (((Route.answered packet question resp cache).serve state env t).cache = cache ∧
        ((Route.answered packet question resp cache).serve state env t).ending = .failed) := by
  cases t with
  | udp =>
    left
    unfold Route.serve Route.udp
    dsimp only
    split
    · next h => rw [h]; exact ⟨rfl, rfl⟩
    · next h => rw [h]; exact ⟨rfl, rfl⟩
  | tcp =>
    unfold Route.serve Route.tcp
    dsimp only
    split
    · exact Or.inr ⟨rfl, rfl⟩
    · exact Or.inl ⟨rfl, rfl⟩

/-- What a stored answer does to the entries, when no other task comes before. -/
theorem store_cases (moment : Moment) (question : DnsQuestion) (resp : List UInt8)
    (cache : DnsCache) :
    (∃ p e c, DnsPacket.parse resp = .ok p ∧ e.packet = p ∧
      store moment.env question resp cache = (c, .returned) ∧
      c.cache = cache.cache.put (DnsCache.key question.name question.qtype) e ∧
      c.minTtl = cache.minTtl ∧ c.maxTtl = cache.maxTtl) ∨
    (store moment.env question resp cache).1 = cache ∧
      ((∀ p, DnsPacket.parse resp ≠ .ok p) ∨
        (store moment.env question resp cache).2 ≠ .returned) := by
  unfold store
  rcases hp : DnsPacket.parse resp with p | e | _
  · dsimp only [Moment.env, id]
    rcases hi : cache.insert question.name question.qtype p moment.insertTime with _ | c
    · exact Or.inr ⟨rfl, Or.inr (by simp)⟩
    · obtain ⟨e, he, -, hc⟩ := DnsCache.insert_cases hi
      exact Or.inl ⟨p, e, c, rfl, he, rfl, hc⟩
  · exact Or.inr ⟨rfl, Or.inl (by simp)⟩
  · exact Or.inr ⟨rfl, Or.inl (by simp)⟩

theorem Request.fill_eq_none {r : Request} {state : DnsServiceState} {packet : DnsPacket}
    {question : DnsQuestion} {resp : List UInt8} {cache : DnsCache}
    (hq : routeOf r.query state r.moment.env = .answered packet question resp cache)
    (h : (∀ p, DnsPacket.parse resp ≠ .ok p) ∨ (r.served state).ending ≠ .returned) :
    r.fill state = none := by
  rw [Request.fill, hq]
  dsimp only
  split
  · next p hp =>
    rcases h with h | h
    · exact absurd hp (h p)
    · exact if_neg h
  · rfl

/-- A step stores one answer, or stores nothing. -/
theorem cacheStep (state : DnsServiceState) (r : Request) : CacheStep state r := by
  obtain ⟨t, query, moment⟩ := r
  have hr := routed query state moment.env
  generalize hq : routeOf query state moment.env = route at hr
  have hserved : Request.served ⟨t, query, moment⟩ state = route.serve state moment.env t := by
    rw [← hq]
    exact serve_eq t query state moment.env
  cases hr with
  | dropped hno hpanic =>
    refine .kept (by rw [Request.fill, hq]) ?_
    intro k e he
    rw [hserved] at he
    cases t <;> exact he
  | blocked hp hhead hb =>
    refine .kept (by rw [Request.fill, hq]) ?_
    intro k e he
    rw [hserved] at he
    cases t <;> exact he
  | hit ha hl =>
    refine .kept (by rw [Request.fill, hq]) ?_
    intro k e he
    rw [hserved] at he
    cases t <;> exact DnsCache.lookup_get he
  | unanswered ha hm hf =>
    refine .kept (by rw [Request.fill, hq]) ?_
    intro k e he
    rw [hserved] at he
    cases t <;> exact DnsCache.lookup_get he
  | @answered packet question resp ha hm hf =>
    have hkeep : ∀ k e, ((moment.env.beforeGet state.cache).get question.name question.qtype
        moment.env.now₁ moment.env.now₂).2.cache.lookup k = some e →
        state.cache.cache.lookup k = some e := fun k e he => DnsCache.lookup_get he
    have hcases := serve_answered state moment.env t packet question resp
      ((moment.env.beforeGet state.cache).get question.name question.qtype
        moment.env.now₁ moment.env.now₂).2
    rw [← hserved] at hcases
    rcases hcases with ⟨hcache, hend⟩ | ⟨hcache, hend⟩
    · rcases store_cases moment question resp ((moment.env.beforeGet state.cache).get question.name
        question.qtype moment.env.now₁ moment.env.now₂).2 with
        ⟨p, e, c, hp, he, hstore, hc, -⟩ | ⟨hsame, hno⟩
      · rw [hstore] at hcache hend
        refine .filled ha hm hf hp ?_ ?_
        · rw [Request.fill, hq]
          dsimp only
          rw [hp]
          exact if_pos hend
        · intro k e' he'
          rw [hcache, hc] at he'
          rcases Lru.lookup_put he' with ⟨rfl, rfl⟩ | ⟨hne, hold⟩
          · exact Or.inl ⟨rfl, he⟩
          · exact Or.inr ⟨hne, hkeep k e' hold⟩
      · rw [← hend] at hno
        refine .kept (Request.fill_eq_none hq hno) ?_
        intro k e he
        rw [hcache, hsame] at he
        exact hkeep k e he
    · refine .kept (Request.fill_eq_none hq (Or.inr (by rw [hend]; simp))) ?_
      intro k e he
      rw [hcache] at he
      exact hkeep k e he

/-! ## Entries and what was stored -/

/-- Every entry is what was stored last under its key, and what was stored satisfies `F`. -/
structure Traced (F : List UInt8 → List UInt8 → Prop) (s : Recorded) : Prop where
  entry : ∀ k e, s.state.cache.cache.lookup k = some e →
    ∃ f, s.fills k = some f ∧ DnsPacket.parse f.resp = .ok e.packet
  fill : ∀ k f, s.fills k = some f → F f.query f.resp

theorem traced_start (F : List UInt8 → List UInt8 → Prop) (settings : Settings) :
    Traced F settings.start := by
  refine ⟨?_, fun _ _ h => by cases h⟩
  intro k e h
  cases (Lru.lookup_new _ _ k).symm.trans h

/-- If the query is forwarded, the upstreams answer it within `F`. -/
def AnswersWithin (F : List UInt8 → List UInt8 → Prop) (s : Recorded) (r : Request) : Prop :=
  ∀ packet question resp, Admitted s.state r.query packet question →
    Missed s.state r.moment.env question →
    s.state.forwarder.forwardRaw r.moment.net r.query = .ok resp → F r.query resp

theorem traced_step {F : List UInt8 → List UInt8 → Prop} (s : Recorded) (r : Request)
    (h : Traced F s) (hF : AnswersWithin F s r) : Traced F (s.step r) := by
  have hs := cacheStep s.state r
  cases hs with
  | kept hnone hcache =>
    have hfills : (s.step r).fills = s.fills := by
      rw [Recorded.step, hnone]
    refine ⟨?_, by rw [hfills]; exact h.fill⟩
    intro k e he
    rw [hfills]
    exact h.entry k e (hcache k e he)
  | @filled packet p question resp ha hm hf hp hfill hcache =>
    have hfills : (s.step r).fills = Function.update s.fills
        (DnsCache.key question.name question.qtype) (some ⟨r.query, resp⟩) := by
      rw [Recorded.step, hfill]
    constructor
    · intro k e he
      rw [hfills]
      rcases hcache k e he with ⟨rfl, rfl⟩ | ⟨hk, hold⟩
      · exact ⟨_, Function.update_self _ _ _, hp⟩
      · rw [Function.update_of_ne hk]
        exact h.entry k e hold
    · intro k f hf'
      rw [hfills, Function.update_apply] at hf'
      split at hf'
      · cases hf'
        exact hF packet question resp ha hm hf
      · exact h.fill k f hf'

/-! ## A service to ask -/

/-- One upstream over UDP, and nothing is blocked. -/
def openSettings : Settings where
  capacity := 16
  minTtlSecs := 60
  maxTtlSecs := 86400
  upstreams := [localUpstream]
  filter := loaded []
  blockMode := "nxdomain".toList
  capacity_pos := by decide
  ttl_le := by decide

/-- A message with the ID `id`, two bytes of flags and the question for the address of `a`. -/
def ask (id hi lo : UInt8) : List UInt8 :=
  [0, id, hi, lo, 0, 1, 0, 0, 0, 0, 0, 0] ++ [1, 97, 0, 0, 1, 0, 1]

end VantaDns.Service
