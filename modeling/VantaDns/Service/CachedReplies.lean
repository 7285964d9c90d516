/-
  Replies from the cache in a run of the service.

  `cachedReplies_transparent`: whenever a query is answered from the cache, the message that
  was stored last under its name and type came from an upstream, and if it is unaltered by
  decoding and encoding, a conforming decoder reads the same content in the reply. The answer in
  `transparent_plainReply`, with its names in full, is. Most answers are not:
  `not_cachedReplies_transparent` is one with a compressed owner.
-/
import VantaDns.Cache.Transparency
import VantaDns.Service.Matching

namespace VantaDns.Service

open Lib Lib.Decoder Protocol Cache VantaDns.Filter Resolver

/-- The message was an upstream's answer to the query. -/
def Received (settings : Settings) (query resp : List UInt8) : Prop :=
  ∃ net, (UpstreamForwarder.mk settings.upstreams).forwardRaw net query = .ok resp

/-- The cache holds what the upstreams of the settings answered. -/
structure FromUpstreams (settings : Settings) (s : Recorded) : Prop where
  traced : Traced (Received settings) s
  forwarder : s.state.forwarder = ⟨settings.upstreams⟩

theorem fromUpstreams_step {settings : Settings} (s : Recorded) (r : Request)
    (h : FromUpstreams settings s) : FromUpstreams settings (s.step r) := by
  refine ⟨traced_step s r h.traced ?_, h.forwarder⟩
  intro packet question resp _ _ hf
  exact ⟨r.moment.net, h.forwarder ▸ hf⟩

/-- The query finds a live entry. -/
def HitsWith (s : Recorded) (r : Request) (question : DnsQuestion) (entry : CachedResponse) : Prop :=
  (∃ packet, Admitted s.state r.query packet question) ∧
    s.state.cache.live question.name question.qtype r.moment.now₁ = some entry

/-- A hit is answered with the stored packet, with the remaining time in its answers. -/
theorem reply_hit {s : Recorded} {r : Request} {question : DnsQuestion} {entry : CachedResponse}
    (h : HitsWith s r question entry) : (r.served s.state).reply =
      some (withAnswerTtl entry.packet (entry.remainingTtlSecs r.moment.now₂)).toBytes := by
  obtain ⟨t, query, moment⟩ := r
  obtain ⟨⟨packet, ha⟩, hl⟩ := h
  have hroute := @routeOf_hit query s.state moment.env packet question entry ha hl
  rw [Request.served, serve_eq, hroute]
  cases t <;> rfl

/-- In every run of the service, with any upstreams and any clock: a reply from the cache says
    what the message says that was stored last under its name and type, if that one is
    unaltered. -/
theorem cachedReplies_transparent (settings : Settings) (rs : List Request) :
    Along Recorded.step (fun s r => ∀ question entry, HitsWith s r question entry →
      ∃ f hit, s.fills (DnsCache.key question.name question.qtype) = some f ∧
        Received settings f.query f.resp ∧ (r.served s.state).reply = some hit ∧
        (Unaltered f.resp → Transparent f.resp hit)) settings.start rs := by
  have hstart : FromUpstreams settings settings.start := ⟨traced_start _ settings, rfl⟩
  refine Along.of_invariant hstart (fun s r h _ => fromUpstreams_step s r h) ?_
    (along_of_forall fun _ _ => trivial)
  intro s r h _ question entry hhit
  obtain ⟨f, hf, hparse⟩ := h.traced.entry _ _ (DnsCache.lookup_of_live hhit.2)
  exact ⟨f, _, hf, h.traced.fill _ f hf, reply_hit hhit,
    fun hu => transparent_of_unaltered hparse hu _⟩

/-! ## An owner in full and a compressed owner -/

/-- The query for `a` over UDP, which the upstream answers with `reply`. -/
def askingFor (reply : List UInt8) : Request :=
  ⟨.udp, ask 1 1 0, ⟨fun _ => ⟨fun _ => .received reply, fun _ => .timedOut⟩, 0, 0, 0, none, none⟩⟩

def askingCompressed : Request := askingFor compressedReply

theorem key_a : DnsCache.key ['a'] .A = (['a'], .A) := by decide

/-- The second client finds the entry that the first one made. -/
theorem hitsWith_askingFor {reply : List UInt8} {entry : CachedResponse}
    (h : (openSettings.start.step (askingFor reply)).state.cache.live ['a'] .A 0 = some entry) :
    HitsWith (openSettings.start.step (askingFor reply)) (askingFor reply) ⟨['a'], .A, .IN⟩ entry :=
  ⟨⟨_, parse_ask, rfl, fun rule hb => by cases openSettings_allows.symm.trans hb⟩, h⟩

def compressedMessage : WireMessage where
  id := 1
  flags := 0x8180
  questions := [⟨[[97]], 1, 1⟩]
  answers := [⟨[[97]], 1, 1, 60, [.bytes [10, 0, 0, 1]]⟩]
  authorities := []
  additionals := []

theorem wireMessageAt_compressedReply : WireMessageAt rfcName compressedReply compressedMessage := by
  have hname : RfcNameAt compressedReply 12 [[97]] 0 15 :=
    .label (by decide) (by decide) (by decide) (.root (by decide))
  have hpointer : RfcNameAt compressedReply 19 [[97]] 1 21 :=
    .pointer (show 12 < 16384 by decide) (by decide) hname (by decide)
  refine ⟨1, 1, 0, 0, 19, 35, 35, 35, by decide, ⟨rfl, rfl, rfl, rfl⟩, ?_, ?_, .nil, .nil⟩
  · exact .cons ⟨15, ⟨⟨0, hname⟩, by decide⟩, by decide, rfl⟩ .nil
  · exact .cons ⟨21, 4, ⟨⟨1, hpointer⟩, by decide⟩, by decide, rfl, by decide,
      .cons (.rest (by decide) rfl) .nil⟩ .nil

/-- What the second client gets: an address of one byte. -/
def compressedHit : List UInt8 :=
  [0, 1, 0x81, 0x80, 0, 1, 0, 1, 0, 0, 0, 0] ++ [1, 97, 0, 0, 1, 0, 1] ++
    [1, 97, 0, 0, 1, 0, 1, 0, 1, 0x51, 0x80, 0, 1, 0]

def compressedHitMessage : WireMessage where
  id := 1
  flags := 0x8180
  questions := [⟨[[97]], 1, 1⟩]
  answers := [⟨[[97]], 1, 1, 86400, [.bytes [0]]⟩]
  authorities := []
  additionals := []

theorem wireMessageAt_compressedHit : WireMessageAt rfcName compressedHit compressedHitMessage := by
  have hname : RfcNameAt compressedHit 12 [[97]] 0 15 :=
    .label (by decide) (by decide) (by decide) (.root (by decide))
  have hname' : RfcNameAt compressedHit 19 [[97]] 0 22 :=
    .label (by decide) (by decide) (by decide) (.root (by decide))
  refine ⟨1, 1, 0, 0, 19, 33, 33, 33, by decide, ⟨rfl, rfl, rfl, rfl⟩, ?_, ?_, .nil, .nil⟩
  · exact .cons ⟨15, ⟨⟨0, hname⟩, by decide⟩, by decide, rfl⟩ .nil
  · exact .cons ⟨22, 1, ⟨⟨0, hname'⟩, by decide⟩, by decide, rfl, by decide,
      .cons (.rest (by decide) rfl) .nil⟩ .nil

/-- The same content with the owner in full. -/
def plainReply : List UInt8 :=
  [0, 1, 0x81, 0x80, 0, 1, 0, 1, 0, 0, 0, 0] ++ [1, 97, 0, 0, 1, 0, 1] ++
    [1, 97, 0, 0, 1, 0, 1, 0, 0, 0, 60, 0, 4, 10, 0, 0, 1]

theorem unaltered_plainReply : Unaltered plainReply := by
  have hplain : ∀ l ∈ [([97] : Label)], PlainLabel l := by
    intro l hl
    obtain rfl := List.mem_singleton.1 hl
    exact ⟨['a'], by decide, by decide, by decide⟩
  have hname : RfcNameAt plainReply 12 [[97]] 0 15 :=
    .label (by decide) (by decide) (by decide) (.root (by decide))
  have hname' : RfcNameAt plainReply 19 [[97]] 0 22 :=
    .label (by decide) (by decide) (by decide) (.root (by decide))
  refine ⟨compressedMessage, ?_, ?_, ?_, fun _ h => absurd h List.not_mem_nil,
    fun _ h => absurd h List.not_mem_nil⟩
  · refine ⟨1, 1, 0, 0, 19, 36, 36, 36, by decide, ⟨rfl, rfl, rfl, rfl⟩, ?_, ?_, .nil, .nil⟩
    · exact .cons ⟨15, ⟨hname, by decide⟩, by decide, rfl⟩ .nil
    · exact .cons ⟨22, 4, ⟨hname', by decide⟩, by decide, rfl, by decide,
        .cons (.rest (by decide) rfl) .nil⟩ .nil
  · intro q hq
    obtain rfl := List.mem_singleton.1 hq
    exact hplain
  · intro r hr
    obtain rfl := List.mem_singleton.1 hr
    exact ⟨hplain, fun h => absurd h (by decide)⟩

/-- Both clients get the address of `a`, the second one from the cache. -/
theorem transparent_plainReply : ∃ entry hit,
    HitsWith (openSettings.start.step (askingFor plainReply)) (askingFor plainReply)
      ⟨['a'], .A, .IN⟩ entry ∧
    ((askingFor plainReply).served (openSettings.start.step (askingFor plainReply)).state).reply =
      some hit ∧ Transparent plainReply hit := by
  obtain ⟨entry, hentry⟩ : ∃ entry,
      (openSettings.start.step (askingFor plainReply)).state.cache.live ['a'] .A 0 = some entry :=
    Option.isSome_iff_exists.1 (by decide +kernel)
  have hhit := hitsWith_askingFor hentry
  refine ⟨entry, _, hhit, reply_hit hhit, transparent_of_unaltered ?_ unaltered_plainReply _⟩
  have htraced := fromUpstreams_step openSettings.start (askingFor plainReply)
    ⟨traced_start _ openSettings, rfl⟩
  obtain ⟨f, hf, hparse⟩ := htraced.traced.entry _ _ (DnsCache.lookup_of_live hentry)
  have hfill : (openSettings.start.step (askingFor plainReply)).fills (['a'], .A) =
      some ⟨ask 1 1 0, plainReply⟩ := by
    decide +kernel
  rw [key_a, hfill] at hf
  cases hf
  exact hparse

/-- The first client gets the address of `a`, the second does not. -/
theorem not_cachedReplies_transparent :
    ¬ Along Recorded.step (fun s r => ∀ question entry, HitsWith s r question entry →
      ∃ f hit, s.fills (DnsCache.key question.name question.qtype) = some f ∧
        (r.served s.state).reply = some hit ∧ Transparent f.resp hit)
      openSettings.start [askingCompressed, askingCompressed] := by
  rintro ⟨-, h, -⟩
  have hlive : ((openSettings.start.step askingCompressed).state.cache.live ['a'] .A 0).isSome := by
    decide +kernel
  obtain ⟨entry, hentry⟩ := Option.isSome_iff_exists.1 hlive
  obtain ⟨f, hit, hf, hhit, ht⟩ := h ⟨['a'], .A, .IN⟩ entry (hitsWith_askingFor hentry)
  have hfill : (openSettings.start.step askingCompressed).fills (['a'], .A) =
      some ⟨ask 1 1 0, compressedReply⟩ := by
    decide +kernel
  have hreply : (askingCompressed.served (openSettings.start.step askingCompressed).state).reply =
      some compressedHit := by
    decide +kernel
  cases hhit.symm.trans hreply
  rw [key_a, hfill] at hf
  cases hf
  obtain ⟨w', hw', hcontent⟩ := ht compressedMessage wireMessageAt_compressedReply (by decide)
    ⟨by decide, by decide, by decide⟩
  obtain rfl := hw'.unique rfcName_functional wireMessageAt_compressedHit
  revert hcontent
  decide

end VantaDns.Service
