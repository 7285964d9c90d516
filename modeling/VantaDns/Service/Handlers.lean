/-
  The query handlers (`main.rs`): `resolve_dns_query` for UDP and `serve_tcp_dns` for TCP and
  TLS connections, with one round of its loop as `serveTcpQuery`.

  `Env` is what one query meets: the upstreams, the clock, what other tasks do to the cache
  before each of the two times it is locked, and where writes to a TCP client fail. `Served`
  is what the handler did: the message it sent, whether it called `forward_raw`, the bytes
  written, the cache it left and how it ended. A panic ends the task, not the service.

  Both handlers take the same routes, written out twice: `routeOf` says which one a query
  takes, `Route.udp` and `Route.tcp` what the handlers do on it (`resolveDnsQuery_eq`,
  `serveTcpQuery_eq`). `routed` says what is known on each route, and lemmas such as
  `routeOf_hit` which route it is from what is known.
-/
import VantaDns.Cache.DnsCache
import VantaDns.Filter.Engine
import VantaDns.Resolver.Forwarder

namespace VantaDns.Service

open Lib Protocol Cache VantaDns.Filter Resolver

/-- `DnsServiceState`. -/
structure DnsServiceState where
  cache : DnsCache
  forwarder : UpstreamForwarder
  filter : FilterEngine
  blockMode : Str

/-- What a query meets. -/
structure Env where
  net : Nat → Upstream
  /-- The two clock readings of a lookup and the one of an insertion. -/
  now₁ : Nat
  now₂ : Nat
  insertTime : Nat
  /-- What other tasks do to the cache before the lookup and before the insertion. -/
  beforeGet : DnsCache → DnsCache
  beforeInsert : DnsCache → DnsCache
  /-- How many bytes of the length prefix and of the payload a failing write still writes. -/
  prefixFault : Option Nat
  payloadFault : Option Nat

inductive Ending where
  | returned
  | failed
  | panicked
  deriving DecidableEq

structure Served where
  reply : Option (List UInt8)
  forwarded : Bool
  written : List UInt8
  cache : DnsCache
  ending : Ending

/-- A task that ends without a reply and without touching the cache. -/
def Served.nothing (cache : DnsCache) (ending : Ending) : Served :=
  ⟨none, false, [], cache, ending⟩

/-- `resolve_dns_query`; what it returns is sent as one datagram. -/
def resolveDnsQuery (queryBytes : List UInt8) (state : DnsServiceState) (env : Env) : Served :=
  match DnsPacket.parse queryBytes with
  | .panic => .nothing state.cache .panicked
  | .err _ => .nothing state.cache .returned
  | .ok packet =>
    match packet.questions.head? with
    | none => .nothing state.cache .returned
    | some question =>
      match state.filter.evaluate question.name with
      | .Blocked _ =>
          let resp := (packet.buildBlockedResponse (state.blockMode = "nxdomain".toList)).toBytes
          ⟨some resp, false, resp, state.cache, .returned⟩
      | .AllowListMatched _ | .Allowed =>
        match (env.beforeGet state.cache).get question.name question.qtype env.now₁ env.now₂ with
        | (some cachedResp, cache) =>
            ⟨some cachedResp.toBytes, false, cachedResp.toBytes, cache, .returned⟩
        | (none, cache) =>
          match state.forwarder.forwardRaw env.net queryBytes with
          | .ok respBytes =>
            match DnsPacket.parse respBytes with
            | .panic => ⟨none, true, [], cache, .panicked⟩
            | .err _ => ⟨some respBytes, true, respBytes, cache, .returned⟩
            | .ok respPacket =>
              match (env.beforeInsert cache).insert question.name question.qtype respPacket
                env.insertTime with
              | none => ⟨none, true, [], env.beforeInsert cache, .panicked⟩
              | some cache' => ⟨some respBytes, true, respBytes, cache', .returned⟩
          | .error _ => ⟨none, true, [], cache, .returned⟩

/-- `write_all`: the bytes written, and whether that were all. -/
def writeAll (fault : Option Nat) (bytes : List UInt8) : List UInt8 × Bool :=
  match fault with
  | none => (bytes, true)
  | some n => (bytes.take n, false)

/-- Two writes with `?` behind each. -/
def writeFrame (env : Env) (resp : List UInt8) : List UInt8 × Bool :=
  match writeAll env.prefixFault (lengthPrefix resp) with
  | (written, false) => (written, false)
  | (written, true) =>
    match writeAll env.payloadFault resp with
    | (written', ok) => (written ++ written', ok)

/-- The end of a round whose frame was written or not. -/
def afterWrite : Bool → Ending
  | true => .returned
  | false => .failed

/-- One round of the loop of `serve_tcp_dns`, once the query has been read. `returned` means
    that the loop goes on. -/
def serveTcpQuery (query : List UInt8) (state : DnsServiceState) (env : Env) : Served :=
  match DnsPacket.parse query with
  | .panic => .nothing state.cache .panicked
  | .err _ => .nothing state.cache .returned
  | .ok packet =>
    match packet.questions.head? with
    | none => .nothing state.cache .returned
    | some question =>
      match state.filter.evaluate question.name with
      | .Blocked _ =>
          let resp := (packet.buildBlockedResponse (state.blockMode = "nxdomain".toList)).toBytes
          let (written, ok) := writeFrame env resp
          ⟨some resp, false, written, state.cache, afterWrite ok⟩
      | .AllowListMatched _ | .Allowed =>
        match (env.beforeGet state.cache).get question.name question.qtype env.now₁ env.now₂ with
        | (some cachedResp, cache) =>
            let (written, ok) := writeFrame env cachedResp.toBytes
            ⟨some cachedResp.toBytes, false, written, cache, afterWrite ok⟩
        | (none, cache) =>
          match state.forwarder.forwardRaw env.net query with
          | .ok respBytes =>
            match writeFrame env respBytes with
            | (written, false) => ⟨some respBytes, true, written, cache, .failed⟩
            | (written, true) =>
              match DnsPacket.parse respBytes with
              | .panic => ⟨some respBytes, true, written, cache, .panicked⟩
              | .err _ => ⟨some respBytes, true, written, cache, .returned⟩
              | .ok respPacket =>
                match (env.beforeInsert cache).insert question.name question.qtype respPacket
                  env.insertTime with
                | none => ⟨some respBytes, true, written, env.beforeInsert cache, .panicked⟩
                | some cache' => ⟨some respBytes, true, written, cache', .returned⟩
          | .error _ =>
              -- SERVFAIL keeps the connection alive
              let fail := { packet with
                header := { packet.header with isResponse := true, rcode := .ServFail } }
              let resp := fail.toBytes
              ⟨some resp, true, (writeAll env.prefixFault (lengthPrefix resp)).1 ++
                (writeAll env.payloadFault resp).1, cache, .returned⟩

/-- What a connection did: one `Served` for each query it read, with the query. -/
structure Connection where
  rounds : List (List UInt8 × Served)
  cache : DnsCache
  ending : Ending

/-- `serve_tcp_dns` on the bytes that arrive until the stream ends, from round `i` on;
    `broken` says that it ends by an error and not by the end of the file. -/
def serveTcpDns (state : DnsServiceState) (envs : Nat → Env) (broken : Bool) (i : Nat)
    (inbound : List UInt8) : Connection :=
  match inbound with
  | x :: y :: rest =>
      let msgLen := x.toNat * 256 + y.toNat
      if msgLen = 0 then ⟨[], state.cache, .returned⟩
      else if rest.length < msgLen then ⟨[], state.cache, .failed⟩
      else
        let query := rest.take msgLen
        let served := serveTcpQuery query state (envs i)
        match served.ending with
        | .returned =>
            let connection := serveTcpDns { state with cache := served.cache } envs broken (i + 1)
              (rest.drop msgLen)
            { connection with rounds := (query, served) :: connection.rounds }
        | ending => ⟨[(query, served)], served.cache, ending⟩
  | _ => ⟨[], state.cache, if broken then .failed else .returned⟩
termination_by inbound.length
decreasing_by
  simp only [List.length_cons, List.length_drop]
  omega

/-- The bytes the connection wrote to its client. -/
def Connection.written (c : Connection) : List UInt8 := c.rounds.flatMap fun round => round.2.written

/-! ## Routes -/

/-- How far a query gets: it is dropped, blocked, answered from the cache, answered by an
    upstream, or no upstream answers. The caches are those after the lookup. -/
inductive Route where
  | dropped (ending : Ending)
  | blocked (packet : DnsPacket)
  | hit (packet : DnsPacket) (question : DnsQuestion) (cachedResp : DnsPacket) (cache : DnsCache)
  | answered (packet : DnsPacket) (question : DnsQuestion) (resp : List UInt8) (cache : DnsCache)
  | unanswered (packet : DnsPacket) (question : DnsQuestion) (cache : DnsCache)

/-- The route of an allowed question. -/
def routeAllowed (query : List UInt8) (state : DnsServiceState) (env : Env) (packet : DnsPacket)
    (question : DnsQuestion) : Route :=
  match (env.beforeGet state.cache).get question.name question.qtype env.now₁ env.now₂ with
  | (some cachedResp, cache) => .hit packet question cachedResp cache
  | (none, cache) =>
    match state.forwarder.forwardRaw env.net query with
    | .ok resp => .answered packet question resp cache
    | .error _ => .unanswered packet question cache

def routeOf (query : List UInt8) (state : DnsServiceState) (env : Env) : Route :=
  match DnsPacket.parse query with
  | .panic => .dropped .panicked
  | .err _ => .dropped .returned
  | .ok packet =>
    match packet.questions.head? with
    | none => .dropped .returned
    | some question =>
      match state.filter.evaluate question.name with
      | .Blocked _ => .blocked packet
      | .AllowListMatched _ | .Allowed => routeAllowed query state env packet question

/-- The answer to a blocked query. -/
def blockedReply (state : DnsServiceState) (packet : DnsPacket) : DnsPacket :=
  packet.buildBlockedResponse (state.blockMode = "nxdomain".toList)

/-- The answer over TCP when no upstream answers. -/
def servFailReply (packet : DnsPacket) : DnsPacket :=
  { packet with header := { packet.header with isResponse := true, rcode := .ServFail } }

/-- What becomes of an upstream's answer: it is parsed and put into the cache. -/
def store (env : Env) (question : DnsQuestion) (resp : List UInt8) (cache : DnsCache) :
    DnsCache × Ending :=
  match DnsPacket.parse resp with
  | .panic => (cache, .panicked)
  | .err _ => (cache, .returned)
  | .ok respPacket =>
    match (env.beforeInsert cache).insert question.name question.qtype respPacket env.insertTime with
    | none => (env.beforeInsert cache, .panicked)
    | some cache' => (cache', .returned)

def Route.udp (state : DnsServiceState) (env : Env) : Route → Served
  | .dropped ending => .nothing state.cache ending
  | .blocked packet =>
      let resp := (blockedReply state packet).toBytes
      ⟨some resp, false, resp, state.cache, .returned⟩
  | .hit _ _ cachedResp cache =>
      ⟨some cachedResp.toBytes, false, cachedResp.toBytes, cache, .returned⟩
  | .answered _ question resp cache =>
      match store env question resp cache with
      | (cache', .returned) => ⟨some resp, true, resp, cache', .returned⟩
      | (cache', ending) => ⟨none, true, [], cache', ending⟩
  | .unanswered _ _ cache => ⟨none, true, [], cache, .returned⟩

def Route.tcp (state : DnsServiceState) (env : Env) : Route → Served
  | .dropped ending => .nothing state.cache ending
  | .blocked packet =>
      let resp := (blockedReply state packet).toBytes
      ⟨some resp, false, (writeFrame env resp).1, state.cache, afterWrite (writeFrame env resp).2⟩
  | .hit _ _ cachedResp cache =>
      let resp := cachedResp.toBytes
      ⟨some resp, false, (writeFrame env resp).1, cache, afterWrite (writeFrame env resp).2⟩
  | .answered _ question resp cache =>
      match (writeFrame env resp).2 with
      | false => ⟨some resp, true, (writeFrame env resp).1, cache, .failed⟩
      | true =>
          ⟨some resp, true, (writeFrame env resp).1, (store env question resp cache).1,
            (store env question resp cache).2⟩
  | .unanswered packet _ cache =>
      let resp := (servFailReply packet).toBytes
      ⟨some resp, true, (writeAll env.prefixFault (lengthPrefix resp)).1 ++
        (writeAll env.payloadFault resp).1, cache, .returned⟩

theorem resolveDnsQuery_eq (query : List UInt8) (state : DnsServiceState) (env : Env) :
    resolveDnsQuery query state env = (routeOf query state env).udp state env := by
  unfold resolveDnsQuery routeOf routeAllowed
  rcases DnsPacket.parse query with packet | e | _
  · dsimp only
    rcases packet.questions.head? with _ | question
    · rfl
    · dsimp only
      -- both allowed results are followed by the same code
      rcases state.filter.evaluate question.name with _ | rule | rule
      case Blocked => rfl
      all_goals
        rcases (env.beforeGet state.cache).get question.name question.qtype env.now₁ env.now₂ with
          ⟨_ | cachedResp, cache⟩
        · dsimp only
          rcases state.forwarder.forwardRaw env.net query with e | resp
          · rfl
          · dsimp only [Route.udp, store]
            rcases DnsPacket.parse resp with respPacket | e | _
            · dsimp only
              rcases (env.beforeInsert cache).insert question.name question.qtype respPacket
                env.insertTime with _ | cache'
              · rfl
              · rfl
            · rfl
            · rfl
        · rfl
  · rfl
  · rfl

theorem serveTcpQuery_eq (query : List UInt8) (state : DnsServiceState) (env : Env) :
    serveTcpQuery query state env = (routeOf query state env).tcp state env := by
  unfold serveTcpQuery routeOf routeAllowed
  rcases DnsPacket.parse query with packet | e | _
  · dsimp only
    rcases packet.questions.head? with _ | question
    · rfl
    · dsimp only
      rcases state.filter.evaluate question.name with _ | rule | rule
      case Blocked => rfl
      all_goals
        rcases (env.beforeGet state.cache).get question.name question.qtype env.now₁ env.now₂ with
          ⟨_ | cachedResp, cache⟩
        · dsimp only
          rcases state.forwarder.forwardRaw env.net query with e | resp
          · rfl
          · dsimp only [Route.tcp, store]
            rcases writeFrame env resp with ⟨written, _ | _⟩
            · rfl
            · rcases DnsPacket.parse resp with respPacket | e | _
              · dsimp only
                rcases (env.beforeInsert cache).insert question.name question.qtype respPacket
                  env.insertTime with _ | cache'
                · rfl
                · rfl
              · rfl
              · rfl
        · rfl
  · rfl
  · rfl

/-- The query parses, `question` is its first question, and the filter lets it pass. -/
structure Admitted (state : DnsServiceState) (query : List UInt8) (packet : DnsPacket)
    (question : DnsQuestion) : Prop where
  parse : DnsPacket.parse query = .ok packet
  head : packet.questions.head? = some question
  allowed : ∀ rule, state.filter.evaluate question.name ≠ .Blocked rule

/-- What is known about a query on each route. -/
inductive Routed (query : List UInt8) (state : DnsServiceState) (env : Env) : Route → Prop where
  | dropped {ending : Ending} :
      (∀ packet, DnsPacket.parse query = .ok packet → packet.questions = []) →
      (ending ≠ .returned ↔ DnsPacket.parse query = .panic) →
      Routed query state env (.dropped ending)
  | blocked {packet : DnsPacket} {question : DnsQuestion} {rule : Str} :
      DnsPacket.parse query = .ok packet → packet.questions.head? = some question →
      state.filter.evaluate question.name = .Blocked rule →
      Routed query state env (.blocked packet)
  | hit {packet : DnsPacket} {question : DnsQuestion} {r : CachedResponse} :
      Admitted state query packet question →
      (env.beforeGet state.cache).live question.name question.qtype env.now₁ = some r →
      Routed query state env (.hit packet question
        (withAnswerTtl r.packet (r.remainingTtlSecs env.now₂))
        ((env.beforeGet state.cache).get question.name question.qtype env.now₁ env.now₂).2)
  | answered {packet : DnsPacket} {question : DnsQuestion} {resp : List UInt8} :
      Admitted state query packet question →
      (env.beforeGet state.cache).live question.name question.qtype env.now₁ = none →
      state.forwarder.forwardRaw env.net query = .ok resp →
      Routed query state env (.answered packet question resp
        ((env.beforeGet state.cache).get question.name question.qtype env.now₁ env.now₂).2)
  | unanswered {packet : DnsPacket} {question : DnsQuestion} {e : DnsError} :
      Admitted state query packet question →
      (env.beforeGet state.cache).live question.name question.qtype env.now₁ = none →
      state.forwarder.forwardRaw env.net query = .error e →
      Routed query state env (.unanswered packet question
        ((env.beforeGet state.cache).get question.name question.qtype env.now₁ env.now₂).2)

section Routes

variable {query : List UInt8} {state : DnsServiceState} {env : Env} {packet : DnsPacket}
  {question : DnsQuestion}

theorem routeOf_panic (h : DnsPacket.parse query = .panic) :
    routeOf query state env = .dropped .panicked := by
  unfold routeOf
  rw [h]

theorem routeOf_blocked {rule : Str} (hp : DnsPacket.parse query = .ok packet)
    (hq : packet.questions.head? = some question)
    (hb : state.filter.evaluate question.name = .Blocked rule) :
    routeOf query state env = .blocked packet := by
  unfold routeOf
  rw [hp]
  dsimp only
  rw [hq]
  dsimp only
  rw [hb]

theorem routeOf_admitted (h : Admitted state query packet question) :
    routeOf query state env = routeAllowed query state env packet question := by
  unfold routeOf
  rw [h.parse]
  dsimp only
  rw [h.head]
  dsimp only
  rcases he : state.filter.evaluate question.name with _ | rule | rule
  · rfl
  · rfl
  · exact absurd he (h.allowed rule)

theorem routeAllowed_hit {r : CachedResponse}
    (hl : (env.beforeGet state.cache).live question.name question.qtype env.now₁ = some r) :
    routeAllowed query state env packet question =
      .hit packet question (withAnswerTtl r.packet (r.remainingTtlSecs env.now₂))
        ((env.beforeGet state.cache).get question.name question.qtype env.now₁ env.now₂).2 := by
  have hget := (env.beforeGet state.cache).get_fst question.name question.qtype env.now₁ env.now₂
  rw [hl] at hget
  unfold routeAllowed
  generalize (env.beforeGet state.cache).get question.name question.qtype env.now₁ env.now₂ = found
    at hget ⊢
  obtain ⟨cachedResp, cache⟩ := found
  obtain rfl := hget
  rfl

theorem routeAllowed_missed
    (hm : (env.beforeGet state.cache).live question.name question.qtype env.now₁ = none) :
    routeAllowed query state env packet question =
      match state.forwarder.forwardRaw env.net query with
      | .ok resp => .answered packet question resp
          ((env.beforeGet state.cache).get question.name question.qtype env.now₁ env.now₂).2
      | .error _ => .unanswered packet question
          ((env.beforeGet state.cache).get question.name question.qtype env.now₁ env.now₂).2 := by
  have hget := (env.beforeGet state.cache).get_fst question.name question.qtype env.now₁ env.now₂
  rw [hm] at hget
  unfold routeAllowed
  generalize (env.beforeGet state.cache).get question.name question.qtype env.now₁ env.now₂ = found
    at hget ⊢
  obtain ⟨cachedResp, cache⟩ := found
  obtain rfl := hget
  rfl

theorem routeOf_hit {r : CachedResponse} (h : Admitted state query packet question)
    (hl : (env.beforeGet state.cache).live question.name question.qtype env.now₁ = some r) :
    routeOf query state env =
      .hit packet question (withAnswerTtl r.packet (r.remainingTtlSecs env.now₂))
        ((env.beforeGet state.cache).get question.name question.qtype env.now₁ env.now₂).2 := by
  rw [routeOf_admitted h, routeAllowed_hit hl]

theorem routeOf_answered {resp : List UInt8} (h : Admitted state query packet question)
    (hm : (env.beforeGet state.cache).live question.name question.qtype env.now₁ = none)
    (hf : state.forwarder.forwardRaw env.net query = .ok resp) :
    routeOf query state env = .answered packet question resp
      ((env.beforeGet state.cache).get question.name question.qtype env.now₁ env.now₂).2 := by
  rw [routeOf_admitted h, routeAllowed_missed hm, hf]

theorem routeOf_unanswered {e : DnsError} (h : Admitted state query packet question)
    (hm : (env.beforeGet state.cache).live question.name question.qtype env.now₁ = none)
    (hf : state.forwarder.forwardRaw env.net query = .error e) :
    routeOf query state env = .unanswered packet question
      ((env.beforeGet state.cache).get question.name question.qtype env.now₁ env.now₂).2 := by
  rw [routeOf_admitted h, routeAllowed_missed hm, hf]

theorem routed_allowed (h : Admitted state query packet question) :
    Routed query state env (routeAllowed query state env packet question) := by
  rcases hl : (env.beforeGet state.cache).live question.name question.qtype env.now₁ with _ | r
  · rw [routeAllowed_missed hl]
    rcases hf : state.forwarder.forwardRaw env.net query with e | resp
    · exact .unanswered h hl hf
    · exact .answered h hl hf
  · rw [routeAllowed_hit hl]
    exact .hit h hl

end Routes

/-- Every query is on the route that its parts say. -/
theorem routed (query : List UInt8) (state : DnsServiceState) (env : Env) :
    Routed query state env (routeOf query state env) := by
  unfold routeOf
  rcases hp : DnsPacket.parse query with packet | e | _
  · dsimp only
    rcases hq : packet.questions.head? with _ | question
    · have hnone : packet.questions = [] := List.head?_eq_none_iff.1 hq
      refine .dropped ?_ (by simp [hp])
      intro packet' h
      rw [hp] at h
      cases h
      exact hnone
    · dsimp only
      rcases he : state.filter.evaluate question.name with _ | rule | rule
      · exact routed_allowed ⟨hp, hq, by simp [he]⟩
      · exact routed_allowed ⟨hp, hq, by simp [he]⟩
      · exact .blocked hp hq he
  · exact .dropped (by simp [hp]) (by simp [hp])
  · exact .dropped (by simp [hp]) (by simp [hp])

/-! ## Both handlers -/

inductive Transport where
  | udp | tcp
  deriving DecidableEq

/-- What is done with one query over either transport. -/
def serve : Transport → List UInt8 → DnsServiceState → Env → Served
  | .udp => resolveDnsQuery
  | .tcp => serveTcpQuery

/-- What is done on a route. -/
def Route.serve (state : DnsServiceState) (env : Env) : Transport → Route → Served
  | .udp, route => route.udp state env
  | .tcp, route => route.tcp state env

theorem serve_eq (t : Transport) (query : List UInt8) (state : DnsServiceState) (env : Env) :
    serve t query state env = (routeOf query state env).serve state env t := by
  cases t with
  | udp => exact resolveDnsQuery_eq query state env
  | tcp => exact serveTcpQuery_eq query state env

end VantaDns.Service
