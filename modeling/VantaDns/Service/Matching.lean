/-
  Whether a reply is a reply to the query.

  A client knows a reply by its ID, its opcode and its question section. The replies that are
  forwarded have those that the upstream gave them. The replies that are built here have been
  decoded and encoded again, and one from the cache was built for the query that was stored:
  `HeadingKept` says when its heading is that of the query that it is sent for.

  `replies_match`: with upstreams that echo what they are asked, in a run all of whose steps
  keep headings every reply matches its query. `not_replies_match`: two clients ask for the
  same name, and the second gets the ID of the first.
-/
import VantaDns.Protocol.Blocked
import VantaDns.Protocol.Wire
import VantaDns.Service.Run

namespace VantaDns.Service

open Lib Protocol Cache VantaDns.Filter Resolver

/-- The reply carries the ID, the opcode and the questions of the query, up to case. -/
def Echoes (query resp : List UInt8) : Prop :=
  ∀ h, HeadingAt inPlaceName query h → ∃ h', HeadingAt inPlaceName resp h' ∧ h'.fold = h.fold

/-- The reply is a response with the heading of the query. -/
def Matches (query resp : List UInt8) : Prop :=
  IsResponse resp ∧ ∃ h h', HeadingAt inPlaceName query h ∧ HeadingAt inPlaceName resp h' ∧
    h'.fold = h.fold

/-- The heading of the message survives being decoded and encoded. -/
def PlainHeading (b : List UInt8) : Prop := ∃ h, HeadingAt plainName b h ∧ h.opcode ≤ 3

/-- The step keeps the heading of the query. -/
structure HeadingKept (s : Recorded) (r : Request) : Prop where
  /-- A query that is answered here has a plain heading. -/
  blocked : ∀ packet question rule, DnsPacket.parse r.query = .ok packet →
    packet.questions.head? = some question →
    s.state.filter.evaluate question.name = .Blocked rule → PlainHeading r.query
  unanswered : ∀ packet question e, Admitted s.state r.query packet question →
    Missed s.state r.moment.env question → r.transport = .tcp →
    s.state.forwarder.forwardRaw r.moment.net r.query = .error e → PlainHeading r.query
  /-- What answers from the cache has a plain heading and was stored for a query with the same
      ID, opcode and questions. -/
  hit : ∀ packet question entry f, Admitted s.state r.query packet question →
    s.state.cache.live question.name question.qtype r.moment.now₁ = some entry →
    s.fills (DnsCache.key question.name question.qtype) = some f →
    PlainHeading f.resp ∧ ∃ h h', HeadingAt inPlaceName r.query h ∧
      HeadingAt inPlaceName f.query h' ∧ h'.fold = h.fold
  /-- A query that is forwarded has a heading, and what comes back is a response. -/
  answered : ∀ packet question resp, Admitted s.state r.query packet question →
    Missed s.state r.moment.env question →
    s.state.forwarder.forwardRaw r.moment.net r.query = .ok resp →
    IsResponse resp ∧ ∃ h, HeadingAt inPlaceName r.query h

/-- What is rebuilt from a decoded message with a plain heading matches it. -/
theorem matches_toBytes {query b : List UInt8} {p p' : DnsPacket}
    (hp : DnsPacket.parse b = .ok p) (hb : PlainHeading b)
    (hsame : ∃ h h', HeadingAt inPlaceName query h ∧ HeadingAt inPlaceName b h' ∧ h'.fold = h.fold)
    (hresp : p'.header.isResponse = true) (hid : p'.header.id = p.header.id)
    (hop : p'.header.opcode = p.header.opcode) (hq : p'.questions = p.questions) :
    Matches query p'.toBytes := by
  obtain ⟨g, hg, hle⟩ := hb
  obtain ⟨h, h', hh, hh', hfold⟩ := hsame
  obtain rfl := hg.inPlace.unique hh'
  refine ⟨isResponse_toBytes hresp, h, g.fold, hh, headingAt_toBytes hp hg hle hid hop hq, ?_⟩
  rw [Heading.fold_idem, hfold]

theorem same_heading {b : List UInt8} (h : PlainHeading b) :
    ∃ g g', HeadingAt inPlaceName b g ∧ HeadingAt inPlaceName b g' ∧ g'.fold = g.fold := by
  obtain ⟨g, hg, -⟩ := h
  exact ⟨g, g, hg.inPlace, hg.inPlace, rfl⟩

/-- A blocked reply has the heading of the query that it is built from. -/
theorem buildBlockedResponse_heading (p : DnsPacket) (useNxdomain : Bool) :
    (p.buildBlockedResponse useNxdomain).header.isResponse = true ∧
      (p.buildBlockedResponse useNxdomain).header.id = p.header.id ∧
      (p.buildBlockedResponse useNxdomain).header.opcode = p.header.opcode ∧
      (p.buildBlockedResponse useNxdomain).questions = p.questions := by
  rw [buildBlockedResponse_eq]
  exact ⟨rfl, rfl, rfl, rfl⟩

/-- An answered query gets the upstream's answer, if any. -/
theorem reply_answered {state : DnsServiceState} {env : Env} {t : Transport} {packet : DnsPacket}
    {question : DnsQuestion} {resp resp' : List UInt8} {cache : DnsCache}
    (h : ((Route.answered packet question resp' cache).serve state env t).reply = some resp) :
    resp = resp' := by
  cases t with
  | udp =>
    unfold Route.serve Route.udp at h
    dsimp only at h
    split at h
    · cases h
      rfl
    · cases h
  | tcp =>
    unfold Route.serve Route.tcp at h
    dsimp only at h
    split at h <;> · cases h; rfl

/-- What is stored is an answer that echoes its query and is a response. -/
def Stored (query resp : List UInt8) : Prop := Echoes query resp ∧ IsResponse resp

theorem answersWithin_stored {s : Recorded} {r : Request} (hecho : AnswersWithin Echoes s r)
    (hkept : HeadingKept s r) : AnswersWithin Stored s r := by
  intro packet question resp ha hm hf
  exact ⟨hecho packet question resp ha hm hf, (hkept.answered packet question resp ha hm hf).1⟩

/-- A step that keeps headings sends a reply that matches. -/
theorem matches_step {s : Recorded} {r : Request} (ht : Traced Stored s)
    (hecho : AnswersWithin Echoes s r) (hkept : HeadingKept s r) :
    ∀ resp, (r.served s.state).reply = some resp → Matches r.query resp := by
  obtain ⟨t, query, moment⟩ := r
  intro resp hresp
  have hserve := serve_eq t query s.state moment.env
  have hr := routed query s.state moment.env
  generalize routeOf query s.state moment.env = route at hr hserve
  rw [Request.served, hserve] at hresp
  cases hr with
  | dropped hno hpanic => cases t <;> cases hresp
  | @blocked packet question rule hp hq hb =>
    have hplain := hkept.blocked packet question rule hp hq hb
    obtain ⟨h1, h2, h3, h4⟩ := buildBlockedResponse_heading packet
      (s.state.blockMode = "nxdomain".toList)
    have hmatch := matches_toBytes hp hplain (same_heading hplain) h1 h2 h3 h4
    cases t <;> cases hresp <;> exact hmatch
  | @hit packet question entry ha hl =>
    obtain ⟨f, hf, hparse⟩ := ht.entry _ _ (DnsCache.lookup_of_live hl)
    obtain ⟨hplain, h, h', hh, hh', hfold⟩ := hkept.hit packet question entry f ha hl hf
    obtain ⟨hecho', hisresp⟩ := ht.fill _ _ hf
    obtain ⟨g, hg, hgfold⟩ := hecho' h' hh'
    have hmatch : Matches query
        (withAnswerTtl entry.packet (entry.remainingTtlSecs moment.env.now₂)).toBytes :=
      matches_toBytes hparse hplain ⟨h, g, hh, hg, hgfold.trans hfold⟩
        (show entry.packet.header.isResponse = true from isResponse_of_parse hparse hisresp)
        rfl rfl rfl
    cases t <;> cases hresp <;> exact hmatch
  | @answered packet question resp' ha hm hf =>
    obtain ⟨hisresp, h, hh⟩ := hkept.answered packet question resp' ha hm hf
    obtain ⟨h', hh', hfold⟩ := hecho packet question resp' ha hm hf h hh
    obtain rfl := reply_answered hresp
    exact ⟨hisresp, h, h', hh, hh', hfold⟩
  | @unanswered packet question e ha hm hf =>
    cases t with
    | udp => cases hresp
    | tcp =>
      cases hresp
      have hplain := hkept.unanswered packet question e ha hm rfl hf
      show Matches query (servFailReply packet).toBytes
      exact matches_toBytes ha.parse hplain (same_heading hplain) rfl rfl rfl rfl

/-- In every run of the service on UDP and TCP queries, with any clock and any upstreams that
    echo the queries they get: if every step keeps the heading of its query, every reply that
    is sent matches its query. -/
theorem replies_match (settings : Settings) (rs : List Request)
    (hecho : Along Recorded.step (AnswersWithin Echoes) settings.start rs)
    (hkept : Along Recorded.step HeadingKept settings.start rs) :
    Along Recorded.step (fun s r => ∀ resp, (r.served s.state).reply = some resp →
      Matches r.query resp) settings.start rs := by
  have hboth : Along Recorded.step (fun s r => AnswersWithin Echoes s r ∧ HeadingKept s r)
      settings.start rs := along_and.2 ⟨hecho, hkept⟩
  refine Along.of_invariant (traced_start Stored settings) ?_ ?_ hboth
  · rintro s r ht ⟨he, hk⟩
    exact traced_step s r ht (answersWithin_stored he hk)
  · rintro s r ht ⟨he, hk⟩
    exact matches_step ht he hk

/-! ## Two clients -/

/-- An upstream that sends the query back as a response. -/
def mirror : Upstream where
  udp query := .received (query.take 2 ++ [0x81, 0x80] ++ query.drop 4)
  tcp _ := .timedOut

/-- The query for `a` with the ID `id` over UDP. -/
def asking (id : UInt8) : Request := ⟨.udp, ask id 1 0, ⟨fun _ => mirror, 0, 0, 0, none, none⟩⟩

def askHeading (id hi lo : UInt8) : Heading where
  id := UInt16.ofNat ((0 : UInt8).toNat * 256 + id.toNat)
  opcode := opcodeBits (UInt16.ofNat (hi.toNat * 256 + lo.toNat))
  questions := [⟨[[97]], 1, 1⟩]

theorem headingAt_ask (id hi lo : UInt8) :
    HeadingAt plainName (ask id hi lo) (askHeading id hi lo) := by
  have hid : beU16 (askHeading id hi lo).id = [0, id] := (beU16_eq_iff _ _ _).2 rfl
  have hflags : beU16 (UInt16.ofNat (hi.toNat * 256 + lo.toNat)) = [hi, lo] :=
    (beU16_eq_iff _ _ _).2 rfl
  have hname : NameAt (ask id hi lo) 12 [[97]] 0 15 15 :=
    .label (by decide) (by decide) ⟨[0, 0, 1, 0, 1], rfl⟩ (.root ⟨[0, 1, 0, 1], rfl⟩)
  have hplain : ∀ l ∈ [[(97 : UInt8)]], PlainLabel l := by
    intro l hl
    obtain rfl := List.mem_singleton.1 hl
    exact ⟨['a'], by decide, by decide, by decide⟩
  refine ⟨_, 1, 19, ?_, rfl, rfl, .cons ⟨15, ⟨hname, hplain⟩, ⟨[], rfl⟩, rfl⟩ .nil⟩
  rw [hid, hflags]
  exact ⟨[0, 0, 0, 0, 0, 0, 1, 97, 0, 0, 1, 0, 1], rfl⟩

theorem echoes_ask (id : UInt8) : Echoes (ask id 1 0) (ask id 0x81 0x80) := by
  intro h hh
  obtain rfl := hh.unique (headingAt_ask id 1 0).inPlace
  exact ⟨_, (headingAt_ask id 0x81 0x80).inPlace, rfl⟩

theorem isResponse_ask (id : UInt8) : IsResponse (ask id 0x81 0x80) := by
  have hid : beU16 (UInt16.ofNat ((0 : UInt8).toNat * 256 + id.toNat)) = [0, id] :=
    (beU16_eq_iff _ _ _).2 rfl
  refine ⟨UInt16.ofNat ((0 : UInt8).toNat * 256 + id.toNat), 0x8180, ?_, by decide⟩
  rw [hid]
  exact ⟨_, rfl⟩

/-- Whatever is in the cache, the mirror answers. -/
theorem forwardRaw_asking {s : Recorded} {id : UInt8} {resp : List UInt8}
    (hs : s.state.forwarder = ⟨openSettings.upstreams⟩)
    (h : s.state.forwarder.forwardRaw (asking id).moment.net (asking id).query = .ok resp) :
    resp = ask id 0x81 0x80 := by
  rw [hs] at h
  cases h
  rfl

theorem answersWithin_asking (id : UInt8) {s : Recorded}
    (hs : s.state.forwarder = ⟨openSettings.upstreams⟩) : AnswersWithin Echoes s (asking id) := by
  intro packet question resp _ _ hf
  rw [forwardRaw_asking hs hf]
  exact echoes_ask id

theorem parse_ask :
    DnsPacket.parse (ask 1 1 0) = .ok ⟨⟨1, false, .Query, false, false, true, false, .NoError,
      1, 0, 0, 0⟩, [⟨['a'], .A, .IN⟩], [], [], []⟩ := by
  decide +kernel

theorem openSettings_allows : openSettings.filter.evaluate ['a'] = .Allowed := by decide +kernel

/-- Asking with the ID 1 keeps its heading as long as nothing else was asked. -/
theorem headingKept_asking {s : Recorded} (hfilter : s.state.filter = openSettings.filter)
    (hforwarder : s.state.forwarder = ⟨openSettings.upstreams⟩)
    (hfills : ∀ k f, s.fills k = some f → f = ⟨ask 1 1 0, ask 1 0x81 0x80⟩) :
    HeadingKept s (asking 1) := by
  refine ⟨?_, ?_, ?_, ?_⟩
  · intro packet question rule hp hq hb
    cases parse_ask.symm.trans hp
    cases hq
    rw [hfilter] at hb
    cases openSettings_allows.symm.trans hb
  · intro packet question e _ _ ht
    cases ht
  · intro packet question entry f _ _ hf
    obtain rfl := hfills _ f hf
    exact ⟨⟨_, headingAt_ask 1 0x81 0x80, by decide⟩, _, _, (headingAt_ask 1 1 0).inPlace,
      (headingAt_ask 1 1 0).inPlace, rfl⟩
  · intro packet question resp _ _ hf
    rw [forwardRaw_asking hforwarder hf]
    exact ⟨isResponse_ask 1, _, (headingAt_ask 1 1 0).inPlace⟩

/-- A client that asks twice gets two replies that match. -/
theorem replies_match_asking :
    Along Recorded.step (fun s r => ∀ resp, (r.served s.state).reply = some resp →
      Matches r.query resp) openSettings.start [asking 1, asking 1] := by
  have hfill : (asking 1).fill openSettings.start.state =
      some ((['a'], .A), ⟨ask 1 1 0, ask 1 0x81 0x80⟩) := by
    decide +kernel
  have hfills : (openSettings.start.step (asking 1)).fills =
      Function.update openSettings.start.fills (['a'], .A) (some ⟨ask 1 1 0, ask 1 0x81 0x80⟩) := by
    rw [Recorded.step, hfill]
  refine replies_match openSettings [asking 1, asking 1]
    ⟨answersWithin_asking 1 rfl, answersWithin_asking 1 rfl, trivial⟩
    ⟨headingKept_asking rfl rfl ?_, headingKept_asking rfl rfl ?_, trivial⟩
  · intro k f hf
    cases hf
  intro k f hf
  rw [hfills, Function.update_apply] at hf
  split at hf
  · cases hf
    rfl
  · cases hf

/-- The first client's ID is sent to the second. -/
theorem not_replies_match :
    Along Recorded.step (AnswersWithin Echoes) openSettings.start [asking 1, asking 2] ∧
      ¬ Along Recorded.step (fun s r => ∀ resp, (r.served s.state).reply = some resp →
        Matches r.query resp) openSettings.start [asking 1, asking 2] := by
  refine ⟨⟨answersWithin_asking 1 rfl, answersWithin_asking 2 rfl, trivial⟩, ?_⟩
  rintro ⟨-, h, -⟩
  have hreply : ((asking 2).served (openSettings.start.step (asking 1)).state).reply =
      some (ask 1 0x81 0x80) := by
    decide +kernel
  obtain ⟨-, g, g', hg, hg', hfold⟩ := h _ hreply
  obtain rfl := hg.unique (headingAt_ask 2 1 0).inPlace
  obtain rfl := hg'.unique (headingAt_ask 1 0x81 0x80).inPlace
  have hid := congrArg Heading.id hfold
  revert hid
  decide

end VantaDns.Service
