/-
  Where the handlers agree: `resolve_dns_query` and one round of `serve_tcp_dns`.

  `Quiet` leaves out what ends a handler early: a write that fails, and a panic of the parser.
  Then both handlers leave the same cache, with its order of use and its statistics, and the
  TCP handler writes the bytes of the reply that the UDP handler returns behind two others. One
  case is the exception: when no upstream answers, the UDP handler returns nothing, and the TCP
  handler writes a failure (`alike`).

  `Agree` says it of the bytes that are sent: the two bytes in front are the length of the
  reply, and the failure has the query's ID and questions. A reply may be too long for its
  length, and the questions of a failure are decoded and encoded again. `handlers_agree`: in a
  sequence of queries the handlers agree if all replies fit and all failures are for plain
  questions, and need it where the questions have their names in full; the state behind the
  queries does not depend on the transports.

  `serveTcpDns_frames`: the rounds of one connection are such a sequence.
-/
import VantaDns.Protocol.Wire
import VantaDns.Service.Connection
import VantaDns.Service.Run

namespace VantaDns.Service

open Lib Protocol Cache VantaDns.Filter Resolver

/-- Writing to the client goes through, and neither the query nor an upstream's answer makes the
    parser panic. -/
structure Quiet (state : DnsServiceState) (env : Env) (query : List UInt8) : Prop where
  writes : Unfailing env
  parse : DnsPacket.parse query ≠ .panic
  answer : ∀ resp, state.forwarder.forwardRaw env.net query = .ok resp →
    DnsPacket.parse resp ≠ .panic

/-- The query is forwarded, and no upstream answers it. -/
def Unanswered (state : DnsServiceState) (env : Env) (query : List UInt8) : Prop :=
  ∃ packet question e, Admitted state query packet question ∧ Missed state env question ∧
    state.forwarder.forwardRaw env.net query = .error e

/-- The message is a failure for the query, with its ID and its questions, up to case. -/
structure IsServFail (query resp : List UInt8) : Prop where
  response : IsResponse resp
  code : HasCode resp .ServFail
  questions : ∃ h h', HeadingAt inPlaceName query h ∧ HeadingAt inPlaceName resp h' ∧
    h'.id = h.id ∧ h'.questions.map WireQuestion.fold = h.questions.map WireQuestion.fold

/-- What the UDP handler returns and leaves, the TCP handler writes in a frame and leaves. -/
structure Agree (state : DnsServiceState) (env : Env) (query : List UInt8) : Prop where
  cache : (resolveDnsQuery query state env).cache = (serveTcpQuery query state env).cache
  returned : (resolveDnsQuery query state env).ending = .returned ∧
    (serveTcpQuery query state env).ending = .returned
  reply : ¬ Unanswered state env query → ∀ resp,
    (resolveDnsQuery query state env).reply = some resp ↔
      Framed [resp] (serveTcpQuery query state env).written
  silent : ((resolveDnsQuery query state env).reply = none ↔
      answerable query = false ∨ Unanswered state env query) ∧
    ((serveTcpQuery query state env).written = [] ↔ answerable query = false)
  unanswered : Unanswered state env query → (resolveDnsQuery query state env).reply = none ∧
    ∃ resp, Framed [resp] (serveTcpQuery query state env).written ∧ IsServFail query resp

/-- A reply that is built here fits its length, and a failure is for plain questions. -/
structure Carried (state : DnsServiceState) (env : Env) (query : List UInt8) : Prop where
  fits : Fits state env query
  plain : Unanswered state env query → ∃ h, HeadingAt plainName query h

/-- The same, as far as questions have their names in full and no length byte is that of a
    pointer. -/
structure CarriedInFull (state : DnsServiceState) (env : Env) (query : List UInt8) : Prop where
  fits : Fits state env query
  plain : Unanswered state env query → ∀ packet h, DnsPacket.parse query = .ok packet →
    HeadingAt fullName query h → (∀ q ∈ packet.questions, ¬ PointerLengthName q.name) →
    HeadingAt plainName query h

/-! ## One query -/

/-- What the handlers do alike whatever the bytes mean. -/
structure Alike (state : DnsServiceState) (env : Env) (query : List UInt8) : Prop where
  cache : (resolveDnsQuery query state env).cache = (serveTcpQuery query state env).cache
  returned : (resolveDnsQuery query state env).ending = .returned ∧
    (serveTcpQuery query state env).ending = .returned
  reply : ¬ Unanswered state env query → ∀ resp,
    (resolveDnsQuery query state env).reply = some resp ↔
      (serveTcpQuery query state env).written = frame resp
  silent : ((resolveDnsQuery query state env).reply = none ↔
      answerable query = false ∨ Unanswered state env query) ∧
    ((serveTcpQuery query state env).written = [] ↔ answerable query = false)
  unanswered : Unanswered state env query → (resolveDnsQuery query state env).reply = none ∧
    ∃ packet, DnsPacket.parse query = .ok packet ∧
      (serveTcpQuery query state env).written = frame (servFailReply packet).toBytes

theorem frame_injective {r r' : List UInt8} (h : frame r = frame r') : r = r' :=
  (List.append_inj h rfl).2

theorem frame_ne_nil (r : List UInt8) : frame r ≠ [] := by
  unfold frame lengthPrefix beU16
  exact List.cons_ne_nil _ _

variable {state : DnsServiceState} {env : Env} {query : List UInt8}

/-- An answer that parses without a panic is stored without one. -/
theorem store_returned (question : DnsQuestion) {resp : List UInt8} {cache : DnsCache}
    (hp : DnsPacket.parse resp ≠ .panic)
    (hb : (env.beforeInsert cache).minTtl ≤ (env.beforeInsert cache).maxTtl) :
    (store env question resp cache).2 = .returned := by
  by_contra hne
  obtain ho | ⟨p, -, hlt⟩ := store_ending.1 hne
  · exact hp (parse_panic.2 ho)
  · omega

/-- On an answered query the UDP handler does as the TCP handler. -/
theorem answered_udp {packet : DnsPacket} {question : DnsQuestion} {resp : List UInt8}
    {cache : DnsCache} (hs : (store env question resp cache).2 = .returned) :
    Route.udp state env (.answered packet question resp cache) =
      ⟨some resp, true, resp, (store env question resp cache).1, .returned⟩ := by
  unfold Route.udp
  dsimp only
  generalize store env question resp cache = stored at hs ⊢
  obtain ⟨cache', ending⟩ := stored
  obtain rfl := hs
  rfl

theorem not_unanswered_of_route {route : Route} (h : routeOf query state env = route)
    (hne : ∀ packet question cache, route ≠ .unanswered packet question cache) :
    ¬ Unanswered state env query := by
  intro h
  obtain ⟨packet, question, e, ha, hm, hf⟩ := h
  exact hne _ _ _ (h.symm.trans (routeOf_unanswered ha hm hf))

/-- Handlers that both reply with `r` and leave the same cache act alike. -/
theorem Alike.of_reply {r : List UInt8} {forwarded : Bool} {cache : DnsCache}
    (hudp : resolveDnsQuery query state env = ⟨some r, forwarded, r, cache, .returned⟩)
    (htcp : serveTcpQuery query state env = ⟨some r, forwarded, frame r, cache, .returned⟩)
    (hanswerable : answerable query = true) (hnot : ¬ Unanswered state env query) :
    Alike state env query where
  cache := by rw [hudp, htcp]
  returned := by rw [hudp, htcp]; exact ⟨rfl, rfl⟩
  reply := by
    intro _ resp
    rw [hudp, htcp, Option.some.injEq]
    exact ⟨congrArg frame, frame_injective⟩
  silent := by
    rw [hudp, htcp, hanswerable]
    exact ⟨iff_of_false (by simp) (by simp [hnot]), iff_of_false (frame_ne_nil r) (by simp)⟩
  unanswered := fun h => absurd h hnot

/-- One query, served by either handler from the same state. -/
theorem alike (hquiet : Quiet state env query)
    (hb : ∀ question, (cacheBeforeInsert state env question).minTtl ≤
      (cacheBeforeInsert state env question).maxTtl) : Alike state env query := by
  have hwrite := writeFrame_unfailing hquiet.writes
  have hudp := resolveDnsQuery_eq query state env
  have htcp := serveTcpQuery_eq query state env
  have hr := routed query state env
  generalize hroute : routeOf query state env = route at hr hudp htcp
  cases hr with
  | @dropped ending hno hpanic =>
    have hend : ending = .returned := by
      by_contra hne
      exact hquiet.parse (hpanic.1 hne)
    have hnot := not_unanswered_of_route hroute (by simp)
    constructor
    · rw [hudp, htcp]
      rfl
    · rw [hudp, htcp]
      exact ⟨hend, hend⟩
    · intro _ resp
      rw [hudp, htcp]
      exact iff_of_false (by simp [Route.udp, Served.nothing]) (frame_ne_nil resp).symm
    · have hno' : answerable query = false := by
        rw [Bool.eq_false_iff, Ne, answerable_iff]
        intro h
        obtain ⟨packet, question, hp, hq⟩ := h
        rw [hno packet hp] at hq
        cases hq
      rw [hudp, htcp, hno']
      exact ⟨iff_of_true rfl (Or.inl rfl), iff_of_true rfl rfl⟩
    · exact fun h => absurd h hnot
  | @blocked packet question rule hp hq hblock =>
    refine .of_reply hudp (htcp.trans ?_) (answerable_iff.2 ⟨packet, question, hp, hq⟩)
      (not_unanswered_of_route hroute (by simp))
    simp only [Route.tcp, hwrite]
    rfl
  | @hit packet question r ha hl =>
    refine .of_reply hudp (htcp.trans ?_) (answerable_iff.2 ⟨packet, question, ha.parse, ha.head⟩)
      (not_unanswered_of_route hroute (by simp))
    simp only [Route.tcp, hwrite]
    rfl
  | @answered packet question resp ha hm hf =>
    have hs := store_returned question (hquiet.answer resp hf) (hb question)
    refine .of_reply (hudp.trans (answered_udp hs)) (htcp.trans ?_)
      (answerable_iff.2 ⟨packet, question, ha.parse, ha.head⟩)
      (not_unanswered_of_route hroute (by simp))
    simp only [Route.tcp, hwrite, hs]
  | @unanswered packet question e ha hm hf =>
    have hex : Unanswered state env query := ⟨packet, question, e, ha, hm, hf⟩
    have hanswerable := answerable_iff.2 ⟨packet, question, ha.parse, ha.head⟩
    have hwritten : (serveTcpQuery query state env).written =
        frame (servFailReply packet).toBytes := by
      rw [htcp]
      simp only [Route.tcp, hquiet.writes.1, hquiet.writes.2]
      rfl
    constructor
    · rw [hudp, htcp]
      rfl
    · rw [hudp, htcp]
      exact ⟨rfl, rfl⟩
    · exact fun h => absurd hex h
    · rw [hwritten, hudp, hanswerable]
      exact ⟨iff_of_true rfl (Or.inr hex), iff_of_false (frame_ne_nil _) (by simp)⟩
    · intro _
      rw [hudp]
      exact ⟨rfl, packet, ha.parse, hwritten⟩

/-- A failure for plain questions carries them. -/
theorem isServFail_toBytes {packet : DnsPacket} (hp : DnsPacket.parse query = .ok packet)
    {h : Heading} (hh : HeadingAt plainName query h) :
    IsServFail query (servFailReply packet).toBytes := by
  refine ⟨isResponse_toBytes rfl, hasCode_toBytes _, h, _, hh.inPlace,
    questions_toBytes hp hh rfl rfl, rfl, ?_⟩
  exact congrArg Heading.questions h.fold_idem

/-- Handlers that act alike agree if what is built here is carried. -/
theorem Alike.agree (halike : Alike state env query) (hw : Unfailing env)
    (h : Carried state env query) : Agree state env query where
  cache := halike.cache
  returned := halike.returned
  silent := halike.silent
  reply := by
    intro hnot resp
    rw [halike.reply hnot resp]
    have hwritten := @serveTcpQuery_written state env query hw
    constructor
    · intro hresp
      rw [hresp, framed_frame_iff]
      refine ⟨rfl, (fits_iff hw).1 h.fits resp ?_⟩
      cases hr : (serveTcpQuery query state env).reply with
      | none =>
        rw [hr, hresp] at hwritten
        exact absurd hwritten (frame_ne_nil resp)
      | some r =>
        rw [hr, hresp] at hwritten
        rw [frame_injective hwritten]
    · intro hframed
      cases hr : (serveTcpQuery query state env).reply with
      | none =>
        rw [hwritten, hr] at hframed
        obtain ⟨x, y, rest, hnil, -⟩ := hframed
        cases hnil
      | some r =>
        rw [hwritten, hr] at hframed ⊢
        rw [(framed_frame_iff.1 hframed).1]
        rfl
  unanswered := by
    intro hun
    obtain ⟨hnone, packet, hp, hwritten⟩ := halike.unanswered hun
    obtain ⟨g, hg⟩ := h.plain hun
    refine ⟨hnone, _, ?_, isServFail_toBytes hp hg⟩
    rw [hwritten, framed_frame_iff]
    obtain ⟨packet', question, e, ha, hm, hf⟩ := hun
    have hfits := h.fits.unanswered packet' question e ha hm hf
    cases hp.symm.trans ha.parse
    refine ⟨rfl, ?_⟩
    rw [DnsPacket.length_toBytes]
    exact Nat.lt_succ_of_le hfits

/-- Handlers that agree carry what is built here. -/
theorem Alike.carried (halike : Alike state env query) (hw : Unfailing env)
    (h : Agree state env query) : CarriedInFull state env query := by
  constructor
  · rw [fits_iff hw]
    intro resp hresp
    have hwritten : (serveTcpQuery query state env).written = frame resp := by
      rw [serveTcpQuery_written hw, hresp]
      rfl
    by_cases hun : Unanswered state env query
    · obtain ⟨-, resp', hframed, -⟩ := h.unanswered hun
      rw [hwritten, framed_frame_iff] at hframed
      exact hframed.2
    · have hframed := (h.reply hun resp).1 ((halike.reply hun resp).2 hwritten)
      rw [hwritten, framed_frame_iff] at hframed
      exact hframed.2
  · intro hun packet g hp hg hptr
    obtain ⟨-, packet', hp', hwritten⟩ := halike.unanswered hun
    cases hp.symm.trans hp'
    obtain ⟨-, resp, hframed, hfail⟩ := h.unanswered hun
    rw [hwritten, framed_frame_iff] at hframed
    obtain ⟨rfl, -⟩ := hframed
    obtain ⟨g', g'', hg', hg'', -, hsame⟩ := hfail.questions
    obtain rfl := hg'.unique (hg.mono fun _ _ _ e hn => ⟨0, e, hn⟩)
    have hquestions : (servFailReply packet).questions = packet.questions := rfl
    exact plain_of_toBytes hp hg hquestions hg'' hsame hptr

/-! ## Sequences of queries -/

/-- The query over the transport `t`. -/
def Request.over (t : Transport) (r : Request) : Request := { r with transport := t }

theorem bounds_step (state : DnsServiceState) (r : Request) :
    (state.step r).cache.minTtl = state.cache.minTtl ∧
      (state.step r).cache.maxTtl = state.cache.maxTtl := by
  obtain ⟨t, query, moment⟩ := r
  have hserved : (state.step ⟨t, query, moment⟩).cache =
      ((routeOf query state moment.env).serve state moment.env t).cache :=
    congrArg Served.cache (serve_eq t query state moment.env)
  have hr := routed query state moment.env
  generalize routeOf query state moment.env = route at hr hserved
  rw [hserved]
  cases hr with
  | dropped _ _ => cases t <;> exact ⟨rfl, rfl⟩
  | blocked _ _ _ => cases t <;> exact ⟨rfl, rfl⟩
  | hit _ _ => cases t <;> exact DnsCache.bounds_get _ _ _ _ _
  | unanswered _ _ _ => cases t <;> exact DnsCache.bounds_get _ _ _ _ _
  | @answered packet question resp ha hm hf =>
    have hget := DnsCache.bounds_get state.cache question.name question.qtype moment.env.now₁
      moment.env.now₂
    rcases serve_answered state moment.env t packet question resp
      (state.cache.get question.name question.qtype moment.env.now₁ moment.env.now₂).2 with
      ⟨hcache, -⟩ | ⟨hcache, -⟩
    · refine (congrArg (fun c : DnsCache => c.minTtl = _ ∧ c.maxTtl = _) hcache).mpr ?_
      rcases store_cases moment question resp
        (state.cache.get question.name question.qtype moment.env.now₁ moment.env.now₂).2 with
        ⟨p, e, c, -, -, hstore, -, hmin, hmax⟩ | ⟨hsame, -⟩
      · rw [hstore]
        exact ⟨hmin.trans hget.1, hmax.trans hget.2⟩
      · rw [hsame]
        exact hget
    · exact (congrArg (fun c : DnsCache => c.minTtl = _ ∧ c.maxTtl = _) hcache).mpr hget

/-- A query on which the handlers act alike leads to one state over either transport. -/
theorem step_over {state : DnsServiceState} {r r' : Request}
    (h : Alike state r.moment.env r.query) (hsame : r.over .udp = r'.over .udp) :
    state.step r = state.step r' := by
  obtain ⟨t, query, moment⟩ := r
  obtain ⟨t', query', moment'⟩ := r'
  obtain ⟨-, rfl, rfl⟩ : True ∧ query = query' ∧ moment = moment' := by
    simpa [Request.over] using hsame
  have hcache : ∀ t, (serve t query state moment.env).cache =
      (resolveDnsQuery query state moment.env).cache := by
    intro t
    cases t with
    | udp => rfl
    | tcp => exact h.cache.symm
  unfold DnsServiceState.step Request.served
  rw [hcache t, hcache t']

theorem alike_step {state : DnsServiceState} (hb : state.cache.minTtl ≤ state.cache.maxTtl)
    {r : Request} (hquiet : Quiet state r.moment.env r.query) :
    Alike state r.moment.env r.query := by
  refine alike hquiet fun question => ?_
  have hget := DnsCache.bounds_get state.cache question.name question.qtype r.moment.env.now₁
    r.moment.env.now₂
  exact le_of_eq_of_le hget.1 (le_of_le_of_eq hb hget.2.symm)

/-- The state behind queries does not depend on the transports. -/
theorem foldl_over {state : DnsServiceState} (hb : state.cache.minTtl ≤ state.cache.maxTtl)
    {rs : List Request}
    (hquiet : Along DnsServiceState.step (fun s r => Quiet s r.moment.env r.query) state rs)
    {rs' : List Request} (h : rs'.map (Request.over .udp) = rs.map (Request.over .udp)) :
    rs'.foldl DnsServiceState.step state = rs.foldl DnsServiceState.step state := by
  induction rs generalizing state rs' with
  | nil => rw [List.map_eq_nil_iff.1 h]
  | cons r rs ih =>
    cases rs' with
    | nil => cases h
    | cons r' rs' =>
      rw [List.map_cons, List.map_cons, List.cons.injEq] at h
      have hstep := bounds_step state r
      rw [List.foldl_cons, List.foldl_cons, ← step_over (alike_step hb hquiet.1) h.1.symm]
      exact ih (by rw [hstep.1, hstep.2]; exact hb) hquiet.2 h.2

/-- A sequence of queries, each over either transport: the handlers agree on every one of them
    in the state it meets, if what is built here for it is carried, and need that much where the
    questions have their names in full. The state behind the queries does not depend on the
    transports. -/
theorem handlers_agree {state : DnsServiceState}
    (hb : state.cache.minTtl ≤ state.cache.maxTtl) {rs : List Request}
    (hquiet : Along DnsServiceState.step (fun s r => Quiet s r.moment.env r.query) state rs) :
    (Along DnsServiceState.step (fun s r => Carried s r.moment.env r.query) state rs →
      Along DnsServiceState.step (fun s r => Agree s r.moment.env r.query) state rs) ∧
    (Along DnsServiceState.step (fun s r => Agree s r.moment.env r.query) state rs →
      Along DnsServiceState.step (fun s r => CarriedInFull s r.moment.env r.query) state rs) ∧
    ∀ rs' : List Request, rs'.map (Request.over .udp) = rs.map (Request.over .udp) →
      rs'.foldl DnsServiceState.step state = rs.foldl DnsServiceState.step state := by
  have hbounds : ∀ (s : DnsServiceState) (r : Request), s.cache.minTtl ≤ s.cache.maxTtl →
      (s.step r).cache.minTtl ≤ (s.step r).cache.maxTtl := by
    intro s r h
    rw [(bounds_step s r).1, (bounds_step s r).2]
    exact h
  refine ⟨?_, ?_, fun rs' h => foldl_over hb hquiet h⟩
  · intro h
    exact Along.of_invariant hb (fun s r hs _ => hbounds s r hs)
      (fun s r hs hboth => (alike_step hs hboth.1).agree hboth.1.writes hboth.2)
      (along_and.2 ⟨hquiet, h⟩)
  · intro h
    exact Along.of_invariant hb (fun s r hs _ => hbounds s r hs)
      (fun s r hs hboth => (alike_step hs hboth.1).carried hboth.1.writes hboth.2)
      (along_and.2 ⟨hquiet, h⟩)

/-- The query for two names, while the upstream is silent. -/
def silentRequest (t : Transport) : Request :=
  ⟨t, twoQuestions, ⟨silentEnv.net, 0, 0, 0, none, none⟩⟩

theorem quiet_silentRequest {s : DnsServiceState} (h : s.forwarder = blockingState.forwarder)
    (t : Transport) : Quiet s (silentRequest t).moment.env (silentRequest t).query := by
  have hp : DnsPacket.parse twoQuestions ≠ .panic := by decide +kernel
  refine ⟨⟨rfl, rfl⟩, hp, ?_⟩
  intro resp hf
  rw [h] at hf
  cases hf

theorem headingAt_twoQuestions : ∃ h, HeadingAt plainName twoQuestions h := by
  have ha : NameAt twoQuestions 12 [[97], [99, 111, 109]] 0 19 19 :=
    .label (by decide) (by decide) (by decide)
      (.label (by decide) (by decide) (by decide) (.root (by decide)))
  have hb : NameAt twoQuestions 23 [[98], [99, 111, 109]] 0 30 30 :=
    .label (by decide) (by decide) (by decide)
      (.label (by decide) (by decide) (by decide) (.root (by decide)))
  have hplain : ∀ l ∈ [[(97 : UInt8)], [98], [99, 111, 109]], PlainLabel l := by
    intro l hl
    simp only [List.mem_cons, List.not_mem_nil, or_false] at hl
    obtain rfl | rfl | rfl := hl
    · exact ⟨['a'], by decide, by decide, by decide⟩
    · exact ⟨['b'], by decide, by decide, by decide⟩
    · exact ⟨"com".toList, by decide, by decide, by decide⟩
  have hfirst : WireQuestionAt plainName twoQuestions 12 ⟨[[97], [99, 111, 109]], 1, 1⟩ 23 :=
    ⟨19, ⟨ha, fun l hl => hplain l (by revert hl; simp; tauto)⟩, by decide, rfl⟩
  have hsecond : WireQuestionAt plainName twoQuestions 23 ⟨[[98], [99, 111, 109]], 1, 1⟩ 34 :=
    ⟨30, ⟨hb, fun l hl => hplain l (by revert hl; simp; tauto)⟩, by decide, rfl⟩
  exact ⟨⟨1, 0, [⟨[[97], [99, 111, 109]], 1, 1⟩, ⟨[[98], [99, 111, 109]], 1, 1⟩]⟩, 0x0100, 2, 34,
    by decide, by decide, by decide, .cons hfirst (.cons hsecond .nil)⟩

theorem carried_silentRequest {s : DnsServiceState} (t : Transport)
    (h : (serveTcpQuery twoQuestions s (silentRequest t).moment.env).reply.all
      (fun resp => decide (resp.length < 65536)) = true) :
    Carried s (silentRequest t).moment.env (silentRequest t).query := by
  refine ⟨(fits_iff ⟨rfl, rfl⟩).2 ?_, fun _ => headingAt_twoQuestions⟩
  intro resp hresp
  change (serveTcpQuery (silentRequest t).query s
    (silentRequest t).moment.env).reply.all _ = true at h
  rw [hresp] at h
  exact of_decide_eq_true h

/-- Asked over UDP and then over TCP the handlers agree, and the other way round the service is
    left the same. -/
theorem handlers_agree_silentRequest :
    Along DnsServiceState.step (fun s r => Agree s r.moment.env r.query) blockingState
        [silentRequest .udp, silentRequest .tcp] ∧
      [silentRequest .tcp, silentRequest .udp].foldl DnsServiceState.step blockingState =
        [silentRequest .udp, silentRequest .tcp].foldl DnsServiceState.step blockingState := by
  have hquiet : Along DnsServiceState.step (fun s r => Quiet s r.moment.env r.query) blockingState
      [silentRequest .udp, silentRequest .tcp] :=
    ⟨quiet_silentRequest rfl .udp,
      quiet_silentRequest (s := blockingState.step (silentRequest .udp)) rfl .tcp, trivial⟩
  have hagree := handlers_agree (by decide) hquiet
  refine ⟨hagree.1 ⟨carried_silentRequest .udp ?_, carried_silentRequest .tcp ?_, trivial⟩,
    hagree.2.2 [silentRequest .tcp, silentRequest .udp] rfl⟩
  · decide +kernel
  · decide +kernel

/-! ## A dot in a label -/

/-- A query for the name that is the one label `a.b`. -/
def dottedQuery : List UInt8 :=
  [0, 1, 1, 0, 0, 1, 0, 0, 0, 0, 0, 0] ++ [3, 0x61, 0x2E, 0x62, 0, 0, 1, 0, 1]

/-- The failure that is written for it: its name has the labels `a` and `b`. -/
def dottedFailure : List UInt8 :=
  [0, 1, 0x81, 2, 0, 1, 0, 0, 0, 0, 0, 0] ++ [1, 0x61, 1, 0x62, 0, 0, 1, 0, 1]

/-- While the upstream is silent, the failure over TCP is for another name. -/
theorem not_agree_dottedQuery :
    Quiet blockingState silentEnv dottedQuery ∧
      (serveTcpQuery dottedQuery blockingState silentEnv).written = frame dottedFailure ∧
      ¬ Agree blockingState silentEnv dottedQuery := by
  have hp : DnsPacket.parse dottedQuery = .ok ⟨⟨1, false, .Query, false, false, true, false,
      .NoError, 1, 0, 0, 0⟩, [⟨"a.b".toList, .A, .IN⟩], [], [], []⟩ := by decide +kernel
  have hopen : blockingState.filter.evaluate "a.b".toList = .Allowed := by decide +kernel
  have hwritten : (serveTcpQuery dottedQuery blockingState silentEnv).written =
      frame dottedFailure := by
    decide +kernel
  have hun : Unanswered blockingState silentEnv dottedQuery :=
    ⟨_, ⟨"a.b".toList, .A, .IN⟩, _, ⟨hp, rfl, (fun rule hb => nomatch hopen.symm.trans hb)⟩,
      rfl, rfl⟩
  refine ⟨⟨⟨rfl, rfl⟩, hp ▸ (fun h => nomatch h), (fun resp hf => nomatch hf)⟩, hwritten, ?_⟩
  intro h
  obtain ⟨-, resp, hframed, hfail⟩ := h.unanswered hun
  rw [hwritten, framed_frame_iff] at hframed
  obtain ⟨rfl, -⟩ := hframed
  have hasked : HeadingAt inPlaceName dottedQuery ⟨1, 0, [⟨[[0x61, 0x2E, 0x62]], 1, 1⟩]⟩ :=
    ⟨0x0100, 1, 21, by decide, by decide, rfl, .cons ⟨17, ⟨0, 17, .label (by decide) (by decide)
      (by decide) (.root (by decide))⟩, by decide, rfl⟩ .nil⟩
  have hsent : HeadingAt inPlaceName dottedFailure ⟨1, 0, [⟨[[0x61], [0x62]], 1, 1⟩]⟩ :=
    ⟨0x8102, 1, 21, by decide, by decide, rfl, .cons ⟨17, ⟨0, 17, .label (by decide) (by decide)
      (by decide) (.label (by decide) (by decide) (by decide) (.root (by decide)))⟩, by decide,
      rfl⟩ .nil⟩
  obtain ⟨g, g', hg, hg', -, hsame⟩ := hfail.questions
  obtain rfl := hg.unique hasked
  obtain rfl := hg'.unique hsent
  exact absurd hsame (by decide)

/-! ## The rounds of a connection -/

/-- The queries of a connection as requests, from round `i` on. -/
def roundRequests (moments : Nat → Moment) : Nat → List (List UInt8) → List Request
  | _, [] => []
  | i, query :: queries => ⟨.tcp, query, moments i⟩ :: roundRequests moments (i + 1) queries

/-- Agreeing queries that come in frames are served in turn on one connection, and it ends with
    the bytes that come in. -/
theorem serveTcpDns_frames (moments : Nat → Moment) (broken : Bool) {queries : List (List UInt8)}
    (hframes : ∀ q ∈ queries, q ≠ [] ∧ q.length < 65536) {state : DnsServiceState} {i : Nat}
    (hagree : Along DnsServiceState.step (fun s r => Agree s r.moment.env r.query) state
      (roundRequests moments i queries)) :
    (serveTcpDns state (fun j => (moments j).env) broken i (queries.flatMap frame)).cache =
        ((roundRequests moments i queries).foldl DnsServiceState.step state).cache ∧
      (serveTcpDns state (fun j => (moments j).env) broken i (queries.flatMap frame)).ending =
        if broken then .failed else .returned := by
  induction queries generalizing state i with
  | nil => simp [serveTcpDns, roundRequests]
  | cons q queries ih =>
    have hq := hframes q List.mem_cons_self
    have hpos := List.length_pos_iff.2 hq.1
    obtain ⟨x, y, hframe, hlen⟩ := frame_append_eq hq.2 (queries.flatMap frame)
    have hrest := ih (fun q' hq' => hframes q' (List.mem_cons_of_mem q hq')) hagree.2
    have hreturned : (serveTcpQuery q state (moments i).env).ending = .returned :=
      hagree.1.returned.2
    rw [List.flatMap_cons, hframe, serveTcpDns]
    dsimp only
    rw [hlen, if_neg (by omega), if_neg (by rw [List.length_append]; omega), List.take_left,
      List.drop_left, hreturned]
    exact hrest

end VantaDns.Service
