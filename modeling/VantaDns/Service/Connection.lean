/-
  Whole TCP and TLS connections.

  `serveTcpDns_rounds`: a connection serves the frames that come in, up to an empty one, until
  a round does not return. `SoundlyFramed`: it answers exactly the frames that parse with a
  question, in their order, and every answer has its true length in front.

  Two things can go wrong. A reply that is built here and not forwarded may be too long for
  its two length bytes (`Fits` excludes it), since names are written in full that came in
  compressed; and a panic in the parser or the cache ends the connection (`Dies`).
  `soundlyFramed_iff`: a connection without failing writes is sound exactly if all its rounds
  fit and none that dies has an answerable frame behind it.
-/
import VantaDns.Protocol.Size
import VantaDns.Service.Forwarding

namespace VantaDns.Service

open Lib Lib.Decoder Lib.Utf8 Protocol Cache VantaDns.Filter Resolver

/-! ## Rounds -/

/-- The frames that come in, up to an empty one or the end of the stream. -/
def inboundFrames (inbound : List UInt8) : List (List UInt8) :=
  (deframe inbound).takeWhile fun query => !query.isEmpty

/-- The rounds on a list of queries. -/
def roundsOn (envs : Nat → Env) : Nat → DnsServiceState → List (List UInt8) →
    List (List UInt8 × Served)
  | _, _, [] => []
  | i, state, query :: queries =>
      let served := serveTcpQuery query state (envs i)
      (query, served) ::
        if served.ending = .returned then
          roundsOn envs (i + 1) { state with cache := served.cache } queries
        else []

theorem inboundFrames_cons {x y : UInt8} {rest : List UInt8}
    (h0 : x.toNat * 256 + y.toNat ≠ 0) (hlen : ¬ rest.length < x.toNat * 256 + y.toNat) :
    inboundFrames (x :: y :: rest) = rest.take (x.toNat * 256 + y.toNat) ::
      inboundFrames (rest.drop (x.toNat * 256 + y.toNat)) := by
  unfold inboundFrames
  rw [deframe, if_neg hlen, List.takeWhile_cons_of_pos]
  have hne : rest.take (x.toNat * 256 + y.toNat) ≠ [] := by
    intro h
    have hl := congrArg List.length h
    rw [List.length_take, List.length_nil] at hl
    omega
  simpa using hne

theorem inboundFrames_nil {x y : UInt8} {rest : List UInt8}
    (h : x.toNat * 256 + y.toNat = 0 ∨ rest.length < x.toNat * 256 + y.toNat) :
    inboundFrames (x :: y :: rest) = [] := by
  unfold inboundFrames
  rw [deframe]
  split
  · rfl
  · next hlen =>
    rcases h with h | h
    · rw [h]
      rfl
    · exact absurd h hlen

/-- A connection plays the rounds on the frames that come in. -/
theorem serveTcpDns_rounds (state : DnsServiceState) (envs : Nat → Env) (broken : Bool) (i : Nat)
    (inbound : List UInt8) : (serveTcpDns state envs broken i inbound).rounds =
      roundsOn envs i state (inboundFrames inbound) := by
  induction hn : inbound.length using Nat.strong_induction_on generalizing state i inbound with
  | _ n ih =>
    rcases inbound with _ | ⟨x, _ | ⟨y, rest⟩⟩
    · simp [serveTcpDns, inboundFrames, deframe, roundsOn]
    · simp [serveTcpDns, inboundFrames, deframe, roundsOn]
    · rw [serveTcpDns]
      dsimp only
      split
      · next h0 =>
        rw [inboundFrames_nil (Or.inl h0)]
        rfl
      · next h0 =>
        split
        · next hshort =>
          rw [inboundFrames_nil (Or.inr hshort)]
          rfl
        · next hlen =>
          rw [inboundFrames_cons h0 hlen, roundsOn]
          have hdrop : (rest.drop (x.toNat * 256 + y.toNat)).length < n := by
            rw [← hn, List.length_cons, List.length_cons, List.length_drop]
            omega
          split
          · next hret => rw [if_pos hret, ← ih _ hdrop _ _ _ rfl]
          · next hne => rw [if_neg hne]

/-! ## One round -/

/-- Both writes to the client go through. -/
def Unfailing (env : Env) : Prop := env.prefixFault = none ∧ env.payloadFault = none

theorem writeFrame_unfailing {env : Env} (h : Unfailing env) (resp : List UInt8) :
    writeFrame env resp = (frame resp, true) := by
  unfold writeFrame
  rw [h.1, h.2]
  rfl

/-- The query parses and has a question. -/
def answerable (query : List UInt8) : Bool :=
  match DnsPacket.parse query with
  | .ok packet => !packet.questions.isEmpty
  | _ => false

theorem answerable_iff {query : List UInt8} : answerable query = true ↔
    ∃ packet question, DnsPacket.parse query = .ok packet ∧
      packet.questions.head? = some question := by
  unfold answerable
  rcases DnsPacket.parse query with packet | e | _
  · rcases hq : packet.questions with _ | ⟨question, questions⟩
    · simp [hq]
    · simp [hq]
  · simp
  · simp

/-- The cache that an answer to the question is inserted into. -/
def cacheBeforeInsert (state : DnsServiceState) (env : Env) (question : DnsQuestion) : DnsCache :=
  env.beforeInsert
    ((env.beforeGet state.cache).get question.name question.qtype env.now₁ env.now₂).2

/-- A reply that is built here fits the two bytes of its length. -/
structure Fits (state : DnsServiceState) (env : Env) (query : List UInt8) : Prop where
  blocked : ∀ packet question rule, DnsPacket.parse query = .ok packet →
    packet.questions.head? = some question → state.filter.evaluate question.name = .Blocked rule →
    (blockedReply state packet).encodedLen ≤ 65535
  hit : ∀ packet question r, Admitted state query packet question →
    (env.beforeGet state.cache).live question.name question.qtype env.now₁ = some r →
    r.packet.encodedLen ≤ 65535
  unanswered : ∀ packet question e, Admitted state query packet question →
    Missed state env question → state.forwarder.forwardRaw env.net query = .error e →
    packet.encodedLen ≤ 65535

/-- The query or the upstream's answer makes the parser panic, or the insertion panics. -/
inductive Dies (state : DnsServiceState) (env : Env) (query : List UInt8) : Prop where
  | query : TxtOverrun query → Dies state env query
  | answer {packet : DnsPacket} {question : DnsQuestion} {resp : List UInt8} :
      Admitted state query packet question → Missed state env question →
      state.forwarder.forwardRaw env.net query = .ok resp → TxtOverrun resp → Dies state env query
  | bounds {packet respPacket : DnsPacket} {question : DnsQuestion} {resp : List UInt8} :
      Admitted state query packet question → Missed state env question →
      state.forwarder.forwardRaw env.net query = .ok resp → DnsPacket.parse resp = .ok respPacket →
      (cacheBeforeInsert state env question).maxTtl < (cacheBeforeInsert state env question).minTtl →
      Dies state env query

section Round

variable {state : DnsServiceState} {env : Env} {query : List UInt8}

theorem encodedLen_withAnswerTtl (p : DnsPacket) (ttl : UInt32) :
    (withAnswerTtl p ttl).encodedLen = p.encodedLen := by
  unfold DnsPacket.encodedLen DnsPacket.records withAnswerTtl
  simp only [List.map_append, List.map_map]
  rfl

/-- Without failing writes a round writes the frame of its reply. -/
theorem serveTcpQuery_written (h : Unfailing env) :
    (serveTcpQuery query state env).written =
      ((serveTcpQuery query state env).reply.map frame).getD [] := by
  rw [serveTcpQuery_eq]
  generalize routeOf query state env = route
  cases route with
  | dropped ending => rfl
  | blocked packet =>
    simp only [Route.tcp, writeFrame_unfailing h]
    rfl
  | hit packet question cachedResp cache =>
    simp only [Route.tcp, writeFrame_unfailing h]
    rfl
  | answered packet question resp cache =>
    simp only [Route.tcp, writeFrame_unfailing h]
    rfl
  | unanswered packet question cache =>
    simp only [Route.tcp, h.1, h.2]
    rfl

/-- A round replies exactly to the answerable queries. -/
theorem serveTcpQuery_isSome (h : Unfailing env) :
    (serveTcpQuery query state env).reply.isSome = answerable query := by
  rw [serveTcpQuery_eq, Bool.eq_iff_iff, answerable_iff]
  have hr := routed query state env
  generalize routeOf query state env = route at hr
  cases hr with
  | dropped hno _ =>
    refine iff_of_false Bool.false_ne_true ?_
    rintro ⟨packet, question, hp, hq⟩
    rw [hno packet hp] at hq
    cases hq
  | blocked hp hq _ => exact iff_of_true rfl ⟨_, _, hp, hq⟩
  | hit ha _ => exact iff_of_true rfl ⟨_, _, ha.parse, ha.head⟩
  | answered ha _ _ =>
    refine iff_of_true ?_ ⟨_, _, ha.parse, ha.head⟩
    simp only [Route.tcp, writeFrame_unfailing h]
    rfl
  | unanswered ha _ _ => exact iff_of_true rfl ⟨_, _, ha.parse, ha.head⟩

/-- A round fits exactly if its reply is not too long. -/
theorem fits_iff (h : Unfailing env) :
    Fits state env query ↔
      ∀ resp, (serveTcpQuery query state env).reply = some resp → resp.length < 65536 := by
  rw [serveTcpQuery_eq]
  constructor
  · intro hfits resp hresp
    have hr := routed query state env
    generalize routeOf query state env = route at hr hresp
    cases hr with
    | dropped _ _ => cases hresp
    | @blocked packet question rule hp hq hb =>
      cases hresp
      rw [DnsPacket.length_toBytes]
      exact Nat.lt_succ_of_le (hfits.blocked packet question rule hp hq hb)
    | @hit packet question r ha hl =>
      cases hresp
      rw [DnsPacket.length_toBytes, encodedLen_withAnswerTtl]
      exact Nat.lt_succ_of_le (hfits.hit packet question r ha hl)
    | @answered packet question resp' ha hm hf =>
      -- what an upstream sends is within two length bytes already
      simp only [Route.tcp, writeFrame_unfailing h, Option.some.injEq] at hresp
      rw [← hresp]
      exact Nat.lt_succ_of_le (forwardRaw_length hf)
    | @unanswered packet question e ha hm hf =>
      cases hresp
      rw [DnsPacket.length_toBytes]
      exact Nat.lt_succ_of_le (hfits.unanswered packet question e ha hm hf)
  · intro hlen
    refine ⟨?_, ?_, ?_⟩
    · intro packet question rule hp hq hb
      rw [routeOf_blocked hp hq hb] at hlen
      have hlt := hlen _ rfl
      rw [DnsPacket.length_toBytes] at hlt
      exact Nat.le_of_lt_succ hlt
    · intro packet question r ha hl
      rw [routeOf_hit ha hl] at hlen
      have hlt := hlen _ rfl
      rw [DnsPacket.length_toBytes, encodedLen_withAnswerTtl] at hlt
      exact Nat.le_of_lt_succ hlt
    · intro packet question e ha hm hf
      rw [routeOf_unanswered ha hm hf] at hlen
      have hlt := hlen _ rfl
      rw [DnsPacket.length_toBytes] at hlt
      exact Nat.le_of_lt_succ hlt

/-- What is stored ends in a panic exactly if the answer's parse or the insertion does. -/
theorem store_ending {question : DnsQuestion} {resp : List UInt8} {cache : DnsCache} :
    (store env question resp cache).2 ≠ .returned ↔ TxtOverrun resp ∨
      ∃ p, DnsPacket.parse resp = .ok p ∧
        (env.beforeInsert cache).maxTtl < (env.beforeInsert cache).minTtl := by
  rw [← parse_panic]
  unfold store
  rcases hp : DnsPacket.parse resp with p | e | _
  · have hnone := @DnsCache.insert_eq_none (env.beforeInsert cache) question.name question.qtype p
      env.insertTime
    dsimp only
    rcases hi : (env.beforeInsert cache).insert question.name question.qtype p env.insertTime with
      _ | cache'
    · exact iff_of_true (by simp) (Or.inr ⟨p, rfl, hnone.1 hi⟩)
    · refine iff_of_false (by simp) ?_
      rintro (h | ⟨_, -, h⟩)
      · cases h
      · rw [hnone.2 h] at hi
        cases hi
  · simp
  · simp

theorem writeFrame_returned (h : Unfailing env) (resp : List UInt8) :
    afterWrite (writeFrame env resp).2 = .returned := by
  rw [writeFrame_unfailing h]
  rfl

/-- A round with an upstream's answer ends as its insertion does. -/
theorem answered_ending (h : Unfailing env) (packet : DnsPacket) (question : DnsQuestion)
    (resp : List UInt8) (cache : DnsCache) :
    (Route.tcp state env (.answered packet question resp cache)).ending =
      (store env question resp cache).2 := by
  simp only [Route.tcp, writeFrame_unfailing h]

/-- A round dies exactly if it does not return. -/
theorem dies_iff (h : Unfailing env) :
    Dies state env query ↔ (serveTcpQuery query state env).ending ≠ .returned := by
  rw [serveTcpQuery_eq]
  constructor
  · intro hd
    cases hd with
    | query ho =>
      rw [routeOf_panic (parse_panic.2 ho)]
      exact fun hend => by cases hend
    | answer ha hm hf ho =>
      rw [routeOf_answered ha hm hf, answered_ending h, store_ending]
      exact Or.inl ho
    | bounds ha hm hf hp hb =>
      rw [routeOf_answered ha hm hf, answered_ending h, store_ending]
      exact Or.inr ⟨_, hp, hb⟩
  · intro hne
    have hr := routed query state env
    generalize routeOf query state env = route at hr hne
    cases hr with
    | dropped _ hpanic => exact .query (parse_panic.1 (hpanic.1 hne))
    | blocked _ _ _ => exact absurd (writeFrame_returned h _) hne
    | hit _ _ => exact absurd (writeFrame_returned h _) hne
    | answered ha hm hf =>
      rw [answered_ending h, store_ending] at hne
      rcases hne with ho | ⟨p, hp, hb⟩
      · exact .answer ha hm hf ho
      · exact .bounds ha hm hf hp hb
    | unanswered _ _ _ => exact absurd rfl hne

end Round

/-! ## Connections -/

/-- The queries that were answered, each with its reply, in order. -/
def answered (rounds : List (List UInt8 × Served)) : List (List UInt8 × List UInt8) :=
  rounds.filterMap fun round => round.2.reply.map fun resp => (round.1, resp)

/-- The connection answered exactly the frames that parse with a question, in order, and wrote
    the replies with their true lengths in front. -/
structure SoundlyFramed (inbound : List UInt8) (c : Connection) : Prop where
  queries : (answered c.rounds).map Prod.fst = (inboundFrames inbound).filter answerable
  frames : Framed ((answered c.rounds).map Prod.snd) c.written

/-- Every round fits, and none dies before an answerable query. -/
def Undisturbed (envs : Nat → Env) : Nat → DnsServiceState → List (List UInt8) → Prop
  | _, _, [] => True
  | i, state, query :: queries =>
      Fits state (envs i) query ∧
      (Dies state (envs i) query → ∀ q ∈ queries, ¬ answerable q = true) ∧
      (¬ Dies state (envs i) query → Undisturbed envs (i + 1)
        { state with cache := (serveTcpQuery query state (envs i)).cache } queries)

section Connections

variable {envs : Nat → Env}

theorem answered_cons (query : List UInt8) (served : Served) (rounds : List (List UInt8 × Served)) :
    answered ((query, served) :: rounds) =
      ((served.reply.map fun resp => (query, resp)).toList ++ answered rounds) := by
  unfold answered
  rw [List.filterMap_cons]
  cases served.reply <;> rfl

theorem roundsOn_written (henvs : ∀ i, Unfailing (envs i)) (i : Nat) (state : DnsServiceState)
    (queries : List (List UInt8)) :
    ((roundsOn envs i state queries).flatMap fun round => round.2.written) =
      ((answered (roundsOn envs i state queries)).map Prod.snd).flatMap frame := by
  induction queries generalizing i state with
  | nil => rfl
  | cons query queries ih =>
    have hw := @serveTcpQuery_written state (envs i) query (henvs i)
    rw [roundsOn, List.flatMap_cons, answered_cons, List.map_append, List.flatMap_append, hw]
    congr 1
    · cases (serveTcpQuery query state (envs i)).reply <;> simp
    · split
      · exact ih _ _
      · rfl

theorem rounds_sound_iff (henvs : ∀ i, Unfailing (envs i)) (i : Nat) (state : DnsServiceState)
    (queries : List (List UInt8)) :
    ((answered (roundsOn envs i state queries)).map Prod.fst = queries.filter answerable ∧
        ∀ resp ∈ (answered (roundsOn envs i state queries)).map Prod.snd, resp.length < 65536) ↔
      Undisturbed envs i state queries := by
  induction queries generalizing i state with
  | nil => simp [answered, roundsOn, Undisturbed]
  | cons query queries ih =>
    have hsome := @serveTcpQuery_isSome state (envs i) query (henvs i)
    have hfits := @fits_iff state (envs i) query (henvs i)
    have hdies := @dies_iff state (envs i) query (henvs i)
    rw [roundsOn, answered_cons, Undisturbed, hfits, hdies]
    generalize serveTcpQuery query state (envs i) = served at hsome ⊢
    -- the head of the list is answered exactly if it is answerable
    have hhead : ∀ rest : List (List UInt8 × List UInt8),
        (((served.reply.map fun resp => (query, resp)).toList ++ rest).map Prod.fst =
            (query :: queries).filter answerable ∧
          ∀ resp ∈ ((served.reply.map fun resp => (query, resp)).toList ++ rest).map Prod.snd,
            resp.length < 65536) ↔
        (∀ resp, served.reply = some resp → resp.length < 65536) ∧
          rest.map Prod.fst = queries.filter answerable ∧
            ∀ resp ∈ rest.map Prod.snd, resp.length < 65536 := by
      intro rest
      cases hreply : served.reply with
      | none =>
        rw [hreply] at hsome
        rw [List.filter_cons_of_neg (by simp [← hsome])]
        simp
      | some resp =>
        rw [hreply] at hsome
        rw [List.filter_cons_of_pos (by simp [← hsome])]
        simp only [Option.map_some, Option.toList_some, List.cons_append, List.nil_append,
          List.map_cons, List.cons.injEq, true_and, List.forall_mem_cons, Option.some.injEq,
          forall_eq']
        exact and_left_comm
    rw [hhead]
    refine and_congr_right fun _ => ?_
    by_cases hret : served.ending = .returned
    · rw [if_pos hret, ih]
      simp [hret]
    · rw [if_neg hret]
      simp [hret, answered]

theorem connection_written (henvs : ∀ i, Unfailing (envs i)) (state : DnsServiceState)
    (broken : Bool) (inbound : List UInt8) :
    (serveTcpDns state envs broken 0 inbound).written =
      ((answered (serveTcpDns state envs broken 0 inbound).rounds).map Prod.snd).flatMap frame := by
  unfold Connection.written
  rw [serveTcpDns_rounds]
  exact roundsOn_written henvs 0 state _

/-- A connection is sound exactly if it is undisturbed. -/
theorem soundlyFramed_iff_undisturbed (henvs : ∀ i, Unfailing (envs i)) (state : DnsServiceState)
    (broken : Bool) (inbound : List UInt8) :
    SoundlyFramed inbound (serveTcpDns state envs broken 0 inbound) ↔
      Undisturbed envs 0 state (inboundFrames inbound) := by
  rw [← rounds_sound_iff henvs, ← framed_flatMap_frame, ← serveTcpDns_rounds state envs broken,
    ← connection_written henvs]
  exact ⟨fun h => ⟨h.queries, h.frames⟩, fun h => ⟨h.1, h.2⟩⟩

end Connections

/-- For every inbound stream, service state and upstreams, when no write to the client fails:
    the connection is soundly framed exactly if it is undisturbed, and then a client that takes
    the output apart gets the replies. -/
theorem soundlyFramed_iff (state : DnsServiceState) (envs : Nat → Env)
    (henvs : ∀ i, Unfailing (envs i)) (broken : Bool) (inbound : List UInt8) :
    (SoundlyFramed inbound (serveTcpDns state envs broken 0 inbound) ↔
      Undisturbed envs 0 state (inboundFrames inbound)) ∧
    (SoundlyFramed inbound (serveTcpDns state envs broken 0 inbound) →
      deframe (serveTcpDns state envs broken 0 inbound).written =
        (answered (serveTcpDns state envs broken 0 inbound).rounds).map Prod.snd) :=
  ⟨soundlyFramed_iff_undisturbed henvs state broken inbound, fun h => h.frames.deframe⟩

/-- A connection with one query, which no upstream answers. -/
theorem soundlyFramed_iff_twoQuestions :
    SoundlyFramed (frame twoQuestions)
      (serveTcpDns blockingState (fun _ => silentEnv) false 0 (frame twoQuestions)) := by
  have hun : ∀ _ : Nat, Unfailing silentEnv := fun _ => ⟨rfl, rfl⟩
  refine (soundlyFramed_iff blockingState (fun _ => silentEnv) hun false _).1.2 ?_
  have hframes : inboundFrames (frame twoQuestions) = [twoQuestions] := by decide +kernel
  rw [hframes]
  refine ⟨(fits_iff (hun 0)).2 ?_, fun _ q hq => absurd hq List.not_mem_nil, fun _ => trivial⟩
  intro resp hresp
  have hall : (serveTcpQuery twoQuestions blockingState silentEnv).reply.all
      (fun resp => decide (resp.length < 65536)) = true := by decide +kernel
  rw [hresp] at hall
  simpa using hall

/-! ## A reply that is too long -/

/-- A query of 25 bytes that announces 10000 questions. The second one is a pointer to the
    first: after the name the position is behind the first name again, so that the second
    question ends where it starts and is read over and over. -/
def loopingQuery : List UInt8 :=
  [0, 1, 1, 0, 0x27, 0x10, 0, 0, 0, 0, 0, 0] ++
    [1, 98, 3, 99, 111, 109, 0, 0, 1, 0, 1] ++ [0xC0, 12]

def loopingPacket : DnsPacket where
  header := ⟨1, false, .Query, false, false, true, false, .NoError, 10000, 0, 0, 0⟩
  questions := ⟨"b.com".toList, .A, .IN⟩ :: List.replicate 9999 ⟨"b.com".toList, .A, .IN⟩
  answers := []
  authorities := []
  additionals := []

theorem parse_loopingQuery : DnsPacket.parse loopingQuery = .ok loopingPacket := by
  have hname : NameAt loopingQuery 12 (["b".toList, "com".toList].map encode) 0 19 19 :=
    .label (by decide) (by decide) (by decide)
      (.label (by decide) (by decide) (by decide) (.root (by decide)))
  have hpointer : NameAt loopingQuery 23 (["b".toList, "com".toList].map encode) 1 25 19 :=
    .pointer (show 12 < 16384 by decide) (by decide) hname
  have htext : "b.com".toList = nameText ["b".toList, "com".toList] := by decide
  have hfirst : QuestionAt afterZero loopingQuery 12 ⟨"b.com".toList, .A, .IN⟩ 23 :=
    ⟨19, ⟨_, 0, 19, hname, by decide, htext⟩, by decide, by decide, by decide, rfl⟩
  have hagain : QuestionAt afterZero loopingQuery 23 ⟨"b.com".toList, .A, .IN⟩ 23 :=
    ⟨19, ⟨_, 1, 25, hpointer, by decide, htext⟩, by decide, by decide, by decide, rfl⟩
  refine parse_ok.2 ⟨23, ⟨0x0100, by decide, by decide⟩, ?_, rfl, rfl, rfl, 23, 23, 23,
    .cons hfirst (Chain.replicate hagain 9999), .nil, .nil, .nil⟩
  rw [loopingPacket, List.length_cons, List.length_replicate]
  rfl

/-- A reply of the NXDOMAIN kind is as long as the query in full. -/
theorem encodedLen_buildBlockedResponse (p : DnsPacket) :
    (p.buildBlockedResponse true).encodedLen = p.encodedLen := rfl

/-- A message with nothing but one question over and over. -/
theorem encodedLen_replicate {p : DnsPacket} {q : DnsQuestion} {n : Nat}
    (h : p.questions = q :: List.replicate n q) (hno : p.records = []) :
    p.encodedLen = 12 + (n + 1) * q.encodedLen := by
  unfold DnsPacket.encodedLen
  rw [h, hno, ← List.replicate_succ, List.map_replicate, List.sum_replicate, smul_eq_mul]
  rfl

theorem encodedLen_loopingPacket : loopingPacket.encodedLen = 110012 := by
  have hlen : DnsQuestion.encodedLen ⟨"b.com".toList, .A, .IN⟩ = 11 := by decide
  rw [@encodedLen_replicate loopingPacket ⟨"b.com".toList, .A, .IN⟩ 9999 rfl rfl, hlen]

/-- The blocked reply to it takes 110012 bytes. -/
theorem not_soundlyFramed_loopingQuery :
    ¬ SoundlyFramed (frame loopingQuery)
      (serveTcpDns blockingState (fun _ => silentEnv) false 0 (frame loopingQuery)) := by
  intro h
  rw [soundlyFramed_iff_undisturbed (fun _ => ⟨rfl, rfl⟩)] at h
  have hframes : inboundFrames (frame loopingQuery) = [loopingQuery] := by decide +kernel
  rw [hframes] at h
  have hblocked : blockingState.filter.evaluate "b.com".toList = .Blocked "b.com".toList := by
    decide +kernel
  have hle := h.1.blocked loopingPacket _ _ parse_loopingQuery rfl hblocked
  have hsame : (blockedReply blockingState loopingPacket).encodedLen = loopingPacket.encodedLen := by
    have hmode : decide (blockingState.blockMode = "nxdomain".toList) = true := by decide
    unfold blockedReply
    rw [hmode, encodedLen_buildBlockedResponse]
  rw [hsame, encodedLen_loopingPacket] at hle
  omega

end VantaDns.Service
