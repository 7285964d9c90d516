/-
  Messages are self-delimiting: the decoder looks at no byte behind the last item.

  `parse_extend`: bytes behind a message that is decoded change nothing, so a message that was
  cut short (the UDP loop reads 4096 bytes at most) is taken for another one in no case.
  `parse_threshold`: a message has a length from which on it is decoded, and always to the same
  packet, while nothing shorter is decoded at all.
-/
import VantaDns.Protocol.MessageWire

namespace VantaDns.Protocol

open Lib Lib.Decoder

section Extend

variable {b b' : List UInt8} {s e : Nat}

theorem bytesAt_extend (hb : b <+: b') {bs : List UInt8} (h : BytesAt b s bs) :
    BytesAt b' s bs := by
  obtain ⟨tail, rfl⟩ := hb
  unfold BytesAt at *
  rw [List.drop_append]
  exact h.trans (List.prefix_append _ _)

theorem NameAt.extend (hb : b <+: b') {ls : List Label} {k z : Nat} (h : NameAt b s ls k e z) :
    NameAt b' s ls k e z := by
  induction h with
  | root h => exact .root (bytesAt_extend hb h)
  | label h0 hl h _ ih => exact .label h0 hl (bytesAt_extend hb h) ih
  | pointer ho h _ ih => exact .pointer ho (bytesAt_extend hb h) ih

theorem afterZero_name_extend (hb : b <+: b') {n : Str} (h : afterZero.name b s n e) :
    afterZero.name b' s n e := by
  obtain ⟨ts, k, t, hn, hk, rfl⟩ := h
  exact ⟨ts, k, t, hn.extend hb, hk, rfl⟩

theorem QuestionAt.extend (hb : b <+: b') {q : DnsQuestion} (h : QuestionAt afterZero b s q e) :
    QuestionAt afterZero b' s q e := by
  obtain ⟨t, hn, hbytes, h⟩ := h
  exact ⟨t, afterZero_name_extend hb hn, bytesAt_extend hb hbytes, h⟩

theorem TxtsAt.extend (hb : b <+: b') {n : Nat} {ts : List Str} (h : TxtsAt afterZero b n s ts e) :
    TxtsAt afterZero b' n s ts e := by
  induction h with
  | done => exact .done
  | string h0 hl h ht _ ih => exact .string h0 hl (bytesAt_extend hb h) ht ih

theorem RdataAt.extend (hb : b <+: b') {t : QueryType} {n : Nat} {d : ResourceData}
    (h : RdataAt afterZero b t n s d e) : RdataAt afterZero b' t n s d e := by
  match h with
  | .A h => exact .A (bytesAt_extend hb h)
  | .AAAA h => exact .AAAA (bytesAt_extend hb h)
  | .CNAME h => exact .CNAME (afterZero_name_extend hb h)
  | .MX h0 h h' => exact .MX h0 (bytesAt_extend hb h) (afterZero_name_extend hb h')
  | .TXT h => exact .TXT (h.extend hb)
  | .Raw h0 hl h => exact .Raw h0 hl (bytesAt_extend hb h)

theorem RecordAt.extend (hb : b <+: b') {r : ResourceRecord} (h : RecordAt afterZero b s r e) :
    RecordAt afterZero b' s r e := by
  obtain ⟨t, rdlength, hn, hh, ht, hc, hl, hd, he⟩ := h
  exact ⟨t, rdlength, afterZero_name_extend hb hn, bytesAt_extend hb hh, ht, hc,
    hl.trans hb.length_le, hd.extend hb, he⟩

theorem PacketAt.extend (hb : b <+: b') {p : DnsPacket} (h : PacketAt afterZero b p) :
    PacketAt afterZero b' p := by
  obtain ⟨e, ⟨flags, hflags, hp⟩, h1, h2, h3, h4, e₁, e₂, e₃, c1, c2, c3, c4⟩ := h
  exact ⟨e, ⟨flags, bytesAt_extend hb hflags, hp⟩, h1, h2, h3, h4, e₁, e₂, e₃,
    c1.mono fun _ _ _ => QuestionAt.extend hb, c2.mono fun _ _ _ => RecordAt.extend hb,
    c3.mono fun _ _ _ => RecordAt.extend hb, c4.mono fun _ _ _ => RecordAt.extend hb⟩

end Extend

/-- Bytes behind a message change nothing. -/
theorem parse_extend {b b' : List UInt8} (hb : b <+: b') {p : DnsPacket}
    (h : DnsPacket.parse b = .ok p) : DnsPacket.parse b' = .ok p :=
  parse_ok.2 ((parse_ok.1 h).extend hb)

/-- Every message that is decoded has a length: whatever begins with that many of its bytes is
    decoded to the same packet, and nothing shorter of it is decoded. -/
theorem parse_threshold {b : List UInt8} {p : DnsPacket} (h : DnsPacket.parse b = .ok p) :
    ∃ n ≤ b.length, (∀ b', b.take n <+: b' → DnsPacket.parse b' = .ok p) ∧
      ∀ k < n, ∀ p', DnsPacket.parse (b.take k) ≠ .ok p' := by
  classical
  have hfull : DnsPacket.parse (b.take b.length) = .ok p := by
    rw [List.take_length]
    exact h
  have hex : ∃ n, ∃ p', DnsPacket.parse (b.take n) = .ok p' := ⟨b.length, p, hfull⟩
  obtain ⟨p', hp'⟩ := Nat.find_spec hex
  have hsame : p' = p := Outcome.ok.inj ((parse_extend (List.take_prefix _ b) hp').symm.trans h)
  refine ⟨Nat.find hex, ?_, ?_, ?_⟩
  · exact Nat.find_min' hex ⟨p, hfull⟩
  · intro b' hb'
    rw [← hsame]
    exact parse_extend hb' hp'
  · intro k hk p'' hp''
    exact Nat.find_min hex hk ⟨p'', hp''⟩

/-- A header that counts no items, with three bytes behind it. -/
def headerAndMore : List UInt8 := [0, 1, 1, 0, 0, 0, 0, 0, 0, 0, 0, 0, 7, 7, 7]

theorem parse_threshold_headerAndMore :
    ∃ n ≤ headerAndMore.length,
      (∀ b', headerAndMore.take n <+: b' → DnsPacket.parse b' =
        .ok ⟨⟨1, false, .Query, false, false, true, false, .NoError, 0, 0, 0, 0⟩, [], [], [], []⟩) ∧
      ∀ k < n, ∀ p', DnsPacket.parse (headerAndMore.take k) ≠ .ok p' :=
  parse_threshold (by decide +kernel)

end VantaDns.Protocol
