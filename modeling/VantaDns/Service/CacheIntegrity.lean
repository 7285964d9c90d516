/-
  What the upstreams can put into the cache (`resolve_dns_query`, `serve_tcp_dns`,
  `DnsCache::insert`).

  An answer that parses is stored under the name and type of the query's first question. Its
  response and truncation bits and its question section are not looked at. `Intact`: they are
  as they should be for the key.

  `cacheIntegrity`: in every run the entries are what the upstreams answered last to queries for
  their keys, and they stay intact exactly as long as every answer that is stored is intact;
  then every hit sends a response that is not truncated and has one question, which is the
  client's own if the program hands its name on unchanged (`HitsIntact`).
  `not_intact_truncated`: a truncated answer over UDP is stored, and sent to the client that
  asks again over TCP.
-/
import VantaDns.Service.CachedReplies

namespace VantaDns.Service

open Lib Lib.Decoder Lib.Text Lib.Unicode Protocol Cache VantaDns.Filter Resolver

/-- A response that is not truncated, to the one question of the key. -/
structure Intact (k : Str × QueryType) (p : DnsPacket) : Prop where
  response : p.header.isResponse = true
  whole : p.header.truncated = false
  question : ∃ c, p.questions = [⟨k.1, k.2, c⟩]

def IntactCache (state : DnsServiceState) : Prop :=
  ∀ k e, state.cache.cache.lookup k = some e → Intact k e.packet

/-- What serving the query stores is intact. -/
def StoresIntact (s : Recorded) (r : Request) : Prop :=
  ∀ k f, r.fill s.state = some (k, f) → ∀ p, DnsPacket.parse f.resp = .ok p → Intact k p

/-- The message is a response that is not truncated and has one question. If the first question
    of the query has its name in full with plain labels, it is that question, up to case and
    class. -/
def RepliesIntact (query resp : List UInt8) : Prop :=
  ∃ header, HeaderAt resp 0 header ∧ header.isResponse = true ∧ header.truncated = false ∧
    header.qdcount = 1 ∧
    ∀ q e, WireQuestionAt plainName query 12 q e →
      ∃ q' e', WireQuestionAt inPlaceName resp 12 q' e' ∧
        q'.labels = foldLabels q.labels ∧ q'.qtype = q.qtype

/-- If the query is answered from the cache, then with an intact message about its question. -/
def HitsIntact (s : Recorded) (r : Request) : Prop :=
  ∀ question entry, HitsWith s r question entry →
    ∃ resp, (r.served s.state).reply = some resp ∧ RepliesIntact r.query resp

/-- Every message of the record was stored for a query whose first question has the key. -/
def Keyed (s : Recorded) : Prop :=
  ∀ k f, s.fills k = some f → ∃ packet question, DnsPacket.parse f.query = .ok packet ∧
    packet.questions.head? = some question ∧ DnsCache.key question.name question.qtype = k

theorem keyed_step {s : Recorded} (r : Request) (h : Keyed s) : Keyed (s.step r) := by
  intro k f hf
  cases cacheStep s.state r with
  | kept hnone hcache =>
    rw [Recorded.step, hnone] at hf
    exact h k f hf
  | @filled packet p question resp ha hm hforward hp hfill hcache =>
    rw [Recorded.step, hfill] at hf
    dsimp only at hf
    rw [Function.update_apply] at hf
    split at hf
    · next heq =>
      cases hf
      exact ⟨packet, question, ha.parse, ha.head, heq.symm⟩
    · exact h k f hf

/-- What is stored is in the cache behind the step. -/
theorem lookup_of_fill {state : DnsServiceState} {r : Request} {k : Str × QueryType} {f : Fill}
    (h : r.fill state = some (k, f)) :
    ∃ e, (state.step r).cache.cache.lookup k = some e ∧ DnsPacket.parse f.resp = .ok e.packet := by
  obtain ⟨t, query, moment⟩ := r
  unfold Request.fill at h
  split at h
  · next packet question resp cache hroute =>
    split at h
    · next p hp =>
      split at h
      · next hend =>
        cases h
        have hserved : Request.served ⟨t, query, moment⟩ state =
            (Route.answered packet question resp cache).serve state moment.env t :=
          (serve_eq t query state moment.env).trans (by rw [hroute])
        rcases serve_answered state moment.env t packet question resp cache with
          ⟨hcache, hstore⟩ | ⟨-, hfailed⟩
        · rw [← hserved] at hcache hstore
          rcases store_cases moment question resp cache with
            ⟨p', e, c, hp', he, heq, hc, -⟩ | ⟨-, hno⟩
          · refine ⟨e, ?_, he ▸ hp'⟩
            rw [heq] at hcache
            have hlookup : (Request.served ⟨t, query, moment⟩ state).cache.cache.lookup
                (DnsCache.key question.name question.qtype) = some e := by
              rw [hcache, hc, Lru.lookup_put_self]
            exact hlookup
          · obtain hno | hno := hno
            · exact absurd hp (hno p)
            · exact absurd (hstore.symm.trans hend) hno
        · rw [← hserved, hend] at hfailed
          cases hfailed
      · cases h
    · cases h
  · cases h

/-- From an intact cache a step leads to an intact one exactly if it stores nothing else. -/
theorem intactCache_step_iff {s : Recorded} {r : Request} (h : IntactCache s.state) :
    IntactCache (s.step r).state ↔ StoresIntact s r := by
  constructor
  · intro hnext k f hf p hp
    obtain ⟨e, he, hparse⟩ := lookup_of_fill hf
    rw [hparse] at hp
    cases hp
    exact hnext k e he
  · intro hstores k e he
    cases cacheStep s.state r with
    | kept hnone hcache => exact h k e (hcache k e he)
    | @filled packet p question resp ha hm hf hp hfill hcache =>
      obtain ⟨rfl, rfl⟩ | ⟨-, hold⟩ := hcache k e he
      · exact hstores _ _ hfill _ hp
      · exact h k e hold

theorem Intact.withAnswerTtl {k : Str × QueryType} {p : DnsPacket} (h : Intact k p) (ttl : UInt32) :
    Intact k (withAnswerTtl p ttl) := ⟨h.response, h.whole, h.question⟩

/-- What is encoded for an intact packet is an intact reply to a query for its key. -/
theorem repliesIntact_toBytes {query : List UInt8} {packet p : DnsPacket} {question : DnsQuestion}
    (hp : DnsPacket.parse query = .ok packet) (hq : packet.questions.head? = some question)
    (h : Intact (DnsCache.key question.name question.qtype) p) : RepliesIntact query p.toBytes := by
  obtain ⟨c, hquestions⟩ := h.question
  obtain ⟨hheader, hbytes⟩ := heading_toBytes hquestions
  refine ⟨p.countedHeader, hheader, h.response, h.whole, ?_, ?_⟩
  · show UInt16.ofNat p.questions.length = 1
    rw [hquestions]
    rfl
  · intro q e hplain
    obtain ⟨qs, hqs⟩ := List.head?_eq_some_iff.1 hq
    obtain ⟨e', -, -, -, -, -, _, _, _, hchain, -⟩ := parse_ok.1 hp
    rw [hqs] at hchain
    obtain ⟨z, hread, -⟩ := Chain.cons_iff.1 hchain
    -- the name is in lower case, so the key does not change it
    have hname : toLowercase question.name = question.name := by
      obtain ⟨t, hn, -⟩ := hread
      exact toLowercase_of_settled (settled_of_read hn)
    unfold DnsCache.key at hbytes
    rw [hname] at hbytes
    obtain ⟨e', he'⟩ := hplain.rewritten hread hbytes
    exact ⟨_, e', he', rfl, rfl⟩

theorem hitsIntact_of_intactCache {s : Recorded} {r : Request} (h : IntactCache s.state) :
    HitsIntact s r := by
  intro question entry hhit
  have hentry := h _ entry (DnsCache.lookup_of_live hhit.2)
  have hreply := reply_hit hhit
  obtain ⟨⟨packet, ha⟩, -⟩ := hhit
  exact ⟨_, hreply, repliesIntact_toBytes ha.parse ha.head (hentry.withAnswerTtl _)⟩

/-- In every run of the service, with any upstreams and any clock: the entries are the answers
    of upstreams that were stored last, to queries for their keys; they are intact throughout
    exactly if all answers that are stored are; and then hits are answered with intact messages
    about their questions. -/
theorem cacheIntegrity (settings : Settings) (rs : List Request) :
    (∀ pre, pre <+: rs → FromUpstreams settings (pre.foldl Recorded.step settings.start) ∧
      Keyed (pre.foldl Recorded.step settings.start)) ∧
    ((∀ pre, pre <+: rs → IntactCache (pre.foldl Recorded.step settings.start).state) ↔
      Along Recorded.step StoresIntact settings.start rs) ∧
    (Along Recorded.step StoresIntact settings.start rs →
      Along Recorded.step HitsIntact settings.start rs) := by
  have hempty : IntactCache settings.start.state := by
    intro k e he
    cases (Lru.lookup_new _ _ k).symm.trans he
  have hkeyed : Keyed settings.start := fun _ _ hf => nomatch hf
  refine ⟨?_, ?_, ?_⟩
  · intro pre _
    have hany : Along Recorded.step (fun _ _ => True) settings.start pre :=
      along_of_forall fun _ _ => trivial
    exact ⟨Along.invariant ⟨traced_start _ settings, rfl⟩
        (fun s r h _ => fromUpstreams_step s r h) hany,
      Along.invariant hkeyed (fun s r h _ => keyed_step r h) hany⟩
  · have hiff : ∀ (s : Recorded) (r : Request), True → IntactCache s.state →
        (IntactCache (s.step r).state ↔ StoresIntact s r) := fun _ _ _ h => intactCache_step_iff h
    exact forall_prefix_iff_along (G := fun s : Recorded => IntactCache s.state) trivial hempty
      (fun _ _ _ => trivial) hiff
  · exact Along.of_invariant hempty (fun s r h hs => (intactCache_step_iff h).2 hs)
      fun s r h _ => hitsIntact_of_intactCache h

/-! ## A truncated answer -/

/-- The query for `a`, which the upstream answers with a truncated message. -/
def askingTruncated (t : Transport) : Request :=
  ⟨t, ask 1 1 0, ⟨fun _ => ⟨fun _ => .received (ask 1 0x83 0x80), fun _ => .timedOut⟩, 0, 0, 0,
    none, none⟩⟩

/-- The truncated message is in the cache, and the client that asks over TCP gets it. -/
theorem not_intact_truncated :
    (¬ IntactCache (openSettings.start.step (askingTruncated .udp)).state) ∧
      ((askingTruncated .tcp).served (openSettings.start.step (askingTruncated .udp)).state).reply =
        some (ask 1 0x83 0x80) ∧
      ((askingTruncated .tcp).served
        (openSettings.start.step (askingTruncated .udp)).state).forwarded = false := by
  refine ⟨?_, by decide +kernel, by decide +kernel⟩
  intro h
  have htruncated : ((openSettings.start.step (askingTruncated .udp)).state.cache.cache.lookup
      (['a'], .A)).map (fun e => e.packet.header.truncated) = some true := by
    decide +kernel
  obtain ⟨e, he, htc⟩ := Option.map_eq_some_iff.1 htruncated
  exact Bool.false_ne_true ((h _ e he).whole.symm.trans htc)

end VantaDns.Service
