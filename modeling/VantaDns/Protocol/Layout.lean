/-
  Where in a message the decoder reads its items.

  `Consecutive b p`: the decoder reads each question and record of `p` where the one before
  ends, a name takes its bytes in place and no others, and a record ends RDLENGTH bytes
  behind its header. Such a message is at least as long as its items (`Consecutive.length_le`).

  The decoder looks for none of it: it goes on where the walk over a name ended, and reads
  `CNAME`, `MX` and `TXT` data without regard to RDLENGTH. `consecutive_iff`: what it reads
  is consecutive exactly if the message is `tidy`, that is, if the walk over each name ends
  with the name in place and RDLENGTH is right for each record.
-/
import VantaDns.Protocol.MessageWire

namespace VantaDns.Protocol

open Lib Lib.Decoder Lib.Utf8

/-! ## Spans -/

/-- The decoder reads the name `n` at `s` and resumes at `e`, where its bytes in place end. -/
def NameSpan (b : List UInt8) (s : Nat) (n : Str) (e : Nat) : Prop :=
  readDomainName b s = .ok (n, e) ∧ ∃ ls k z, NameAt b s ls k e z

/-- The question takes its name in place and four bytes. -/
def QuestionSpan (b : List UInt8) (s : Nat) (q : DnsQuestion) (e : Nat) : Prop :=
  DnsQuestion.parse b s = .ok (q, e) ∧ ∃ t, NameSpan b s q.name t ∧ e = t + 4

/-- The names inside RDATA, from `s` to `e`. -/
def RdataSpan (b : List UInt8) (s : Nat) : ResourceData → Nat → Prop
  | .CNAME cname, e => NameSpan b s cname e
  | .MX _ exchange, e => NameSpan b (s + 2) exchange e
  | _, _ => True

/-- The record takes its name in place, ten bytes, and as many as RDLENGTH says. -/
def RecordSpan (b : List UInt8) (s : Nat) (r : ResourceRecord) (e : Nat) : Prop :=
  ResourceRecord.parse b s = .ok (r, e) ∧ ∃ (t : Nat) (rdlength : UInt16),
    NameSpan b s r.name t ∧ BytesAt b (t + 8) (beU16 rdlength) ∧
    RdataSpan b (t + 10) r.rdata e ∧ e = t + 10 + rdlength.toNat

/-- Every item of `p` is read where the one before it ends, the first at position 12. -/
def Consecutive (b : List UInt8) (p : DnsPacket) : Prop :=
  ∃ e₁ e₂ e₃ e₄, Chain (QuestionSpan b) 12 p.questions e₁ ∧
    Chain (RecordSpan b) e₁ p.answers e₂ ∧ Chain (RecordSpan b) e₂ p.authorities e₃ ∧
    Chain (RecordSpan b) e₃ p.additionals e₄

/-- The room that the items of `p` take at least. -/
def DnsPacket.minLen (p : DnsPacket) : Nat :=
  12 + 5 * p.questions.length +
    11 * (p.answers.length + p.authorities.length + p.additionals.length)

/-! ## Tidy messages -/

/-- The walk over a name ends with the name in place, and RDATA ends where RDLENGTH says. -/
def tidy : Convention where
  name b s n e := ∃ (ts : List Str) (k : Nat), NameAt b s (ts.map encode) k e e ∧ k ≤ 50 ∧
    n = nameText ts
  text := afterZero.text
  rdataEnd d e := e = d

theorem tidy_le_afterZero : tidy.Le afterZero := by
  refine ⟨?_, fun _ _ => id, fun _ _ _ => trivial⟩
  intro b s n e h
  obtain ⟨ts, k, hn, hk, rfl⟩ := h
  exact ⟨ts, k, e, hn, hk, rfl⟩

variable {b : List UInt8} {s e : Nat}

theorem nameSpan_iff {n : Str} : NameSpan b s n e ↔ tidy.name b s n e := by
  constructor
  · intro h
    obtain ⟨hread, ls, k, z, hn⟩ := h
    obtain ⟨ts, k', e', hn', hk, rfl⟩ := readDomainName_ok.1 hread
    obtain ⟨rfl, rfl, rfl, rfl⟩ := hn.unique hn'
    exact ⟨ts, k, hn, hk, rfl⟩
  · intro h
    obtain ⟨ts, k, hn, hk, rfl⟩ := h
    exact ⟨readDomainName_ok.2 ⟨ts, k, e, hn, hk, rfl⟩, _, k, e, hn⟩

theorem questionSpan_iff {q : DnsQuestion} : QuestionSpan b s q e ↔ QuestionAt tidy b s q e := by
  constructor
  · intro h
    obtain ⟨hparse, t, hname, rfl⟩ := h
    obtain ⟨t', -, hbytes, hty, hcl, heq⟩ := questionParse_ok.1 hparse
    obtain rfl : t = t' := by omega
    exact ⟨t, nameSpan_iff.1 hname, hbytes, hty, hcl, rfl⟩
  · intro h
    refine ⟨questionParse_ok.2 (h.mono tidy_le_afterZero), ?_⟩
    obtain ⟨t, hname, -, -, -, rfl⟩ := h
    exact ⟨t, nameSpan_iff.2 hname, rfl⟩

/-- The strings of a `TXT` record are read alike. -/
theorem TxtsAt.tidy {n : Nat} {ts : List Str} (h : TxtsAt afterZero b n s ts e) :
    TxtsAt tidy b n s ts e := by
  induction h with
  | done => exact .done
  | string h0 hl hb ht _ ih => exact .string h0 hl hb ht ih

theorem RdataAt.tidy {t : QueryType} {n : Nat} {d : ResourceData}
    (h : RdataAt afterZero b t n s d e) (hspan : RdataSpan b s d e) :
    RdataAt tidy b t n s d e := by
  cases h with
  | A hb => exact .A hb
  | AAAA hb => exact .AAAA hb
  | CNAME _ => exact .CNAME (nameSpan_iff.1 hspan)
  | MX h0 hb _ => exact .MX h0 hb (nameSpan_iff.1 hspan)
  | TXT ht => exact .TXT ht.tidy
  | Raw h0 hl hb => exact .Raw h0 hl hb

theorem RdataAt.span {t : QueryType} {n : Nat} {d : ResourceData}
    (h : RdataAt Protocol.tidy b t n s d e) : RdataSpan b s d e := by
  cases h with
  | CNAME hn => exact nameSpan_iff.2 hn
  | MX _ _ hn => exact nameSpan_iff.2 hn
  | _ => trivial

/-- RDLENGTH are the last two of the ten bytes behind the owner name. -/
theorem bytesAt_rdlength {t : Nat} {rtype rclass : UInt16} {ttl : UInt32} {rdlength : UInt16}
    (h : BytesAt b t (recordHeader rtype rclass ttl rdlength)) :
    BytesAt b (t + 8) (beU16 rdlength) := by
  unfold recordHeader at h
  exact ((bytesAt_append _ _ _ _).1 h).2

theorem recordSpan_iff {r : ResourceRecord} : RecordSpan b s r e ↔ RecordAt tidy b s r e := by
  constructor
  · intro h
    obtain ⟨hparse, t, rdlength, hname, hlen, hspan, rfl⟩ := h
    obtain ⟨t', rdlength', hname', hheader, hty, hcl, hle, hdata, -⟩ := recordParse_ok.1 hparse
    obtain rfl : t = t' := by
      have heq := hname.1.symm.trans (readDomainName_iff.2 hname')
      cases heq
      rfl
    obtain rfl : rdlength = rdlength' :=
      beU16_inj (hlen.unique (bytesAt_rdlength hheader) rfl)
    exact ⟨t, rdlength, nameSpan_iff.1 hname, hheader, hty, hcl, hle, hdata.tidy hspan, rfl⟩
  · intro h
    refine ⟨recordParse_ok.2 (h.mono tidy_le_afterZero), ?_⟩
    obtain ⟨t, rdlength, hname, hheader, -, -, -, hdata, rfl⟩ := h
    exact ⟨t, rdlength, nameSpan_iff.2 hname, bytesAt_rdlength hheader, hdata.span, rfl⟩

/-! ## Room -/

theorem QuestionSpan.room {q : DnsQuestion} (h : QuestionSpan b s q e) :
    s + 5 ≤ e ∧ e ≤ b.length := by
  obtain ⟨t, ⟨ts, k, hn, -⟩, hbytes, -, -, rfl⟩ := questionSpan_iff.1 h
  have hlt := hn.lt_end
  have hle := hbytes.length_le
  rw [List.length_append, length_beU16, length_beU16] at hle
  omega

theorem RecordSpan.room {r : ResourceRecord} (h : RecordSpan b s r e) :
    s + 11 ≤ e ∧ e ≤ b.length := by
  obtain ⟨t, rdlength, ⟨ts, k, hn, -⟩, -, -, -, hle, -, rfl⟩ := recordSpan_iff.1 h
  have hlt := hn.lt_end
  omega

/-- Items that lie one behind another need the room of all of them. -/
theorem Consecutive.length_le {p : DnsPacket} (h : Consecutive b p) (h12 : 12 ≤ b.length) :
    p.minLen ≤ b.length := by
  obtain ⟨e₁, e₂, e₃, e₄, hq, ha, hns, har⟩ := h
  have r₁ := hq.room (fun _ _ _ h => h.room) h12
  have r₂ := ha.room (fun _ _ _ h => h.room) r₁.2
  have r₃ := hns.room (fun _ _ _ h => h.room) r₂.2
  have r₄ := har.room (fun _ _ _ h => h.room) r₃.2
  unfold DnsPacket.minLen
  omega

/-! ## Which messages are read consecutively -/

theorem consecutive_of_tidy {p : DnsPacket} (h : PacketAt tidy b p) : Consecutive b p := by
  obtain ⟨e, -, -, -, -, -, e₁, e₂, e₃, hq, ha, hns, har⟩ := h
  exact ⟨e₁, e₂, e₃, e, hq.mono fun _ _ _ => questionSpan_iff.2,
    ha.mono fun _ _ _ => recordSpan_iff.2, hns.mono fun _ _ _ => recordSpan_iff.2,
    har.mono fun _ _ _ => recordSpan_iff.2⟩

/-- What the decoder reads from a message is consecutive, and the message has room for it,
    exactly if the message is tidy. -/
theorem consecutive_iff {b : List UInt8} {p : DnsPacket} (h : DnsPacket.parse b = .ok p) :
    (Consecutive b p ∧ p.minLen ≤ b.length) ↔ PacketAt tidy b p := by
  obtain ⟨_, hheader, h1, h2, h3, h4, -⟩ := parse_ok.1 h
  constructor
  · intro h
    obtain ⟨⟨e₁, e₂, e₃, e₄, hq, ha, hns, har⟩, -⟩ := h
    exact ⟨e₄, hheader, h1, h2, h3, h4, e₁, e₂, e₃, hq.mono fun _ _ _ => questionSpan_iff.1,
      ha.mono fun _ _ _ => recordSpan_iff.1, hns.mono fun _ _ _ => recordSpan_iff.1,
      har.mono fun _ _ _ => recordSpan_iff.1⟩
  · intro htidy
    have hcons := consecutive_of_tidy htidy
    exact ⟨hcons, hcons.length_le hheader.length_le⟩

/-- A query for the address of `a`. -/
def plainQuery : List UInt8 := [0, 1, 1, 0, 0, 1, 0, 0, 0, 0, 0, 0] ++ [1, 97, 0, 0, 1, 0, 1]

theorem consecutive_plainQuery :
    ∃ p, DnsPacket.parse plainQuery = .ok p ∧ Consecutive plainQuery p ∧ p.minLen ≤ 19 := by
  have hname : NameAt plainQuery 12 (["a".toList].map encode) 0 15 15 :=
    .label (by decide) (by decide) (by decide) (.root (by decide))
  have hparse : DnsPacket.parse plainQuery = .ok ⟨⟨1, false, .Query, false, false, true, false,
      .NoError, 1, 0, 0, 0⟩, [⟨"a".toList, .A, .IN⟩], [], [], []⟩ := by
    decide +kernel
  have hspan := (consecutive_iff hparse).2 ⟨19, ⟨0x0100, by decide, by decide⟩, rfl, rfl, rfl, rfl,
    19, 19, 19, .cons ⟨15, ⟨["a".toList], 0, hname, by decide, by decide⟩, by decide,
      by decide, by decide, rfl⟩ .nil, .nil, .nil, .nil⟩
  exact ⟨_, hparse, hspan⟩

/-- Three questions are announced. The second is a pointer to the first, and the third stands
    where the second does, since reading resumes behind the first name. -/
def overlappingQuery : List UInt8 :=
  [0, 1, 1, 0, 0, 3, 0, 0, 0, 0, 0, 0] ++ [1, 97, 0, 0, 1, 0, 1] ++ [0xC0, 12]

/-- Three questions have no room in 21 bytes. -/
theorem not_consecutive_overlappingQuery :
    ∃ p, DnsPacket.parse overlappingQuery = .ok p ∧
      ¬ (Consecutive overlappingQuery p ∧ p.minLen ≤ overlappingQuery.length) := by
  refine ⟨⟨⟨1, false, .Query, false, false, true, false, .NoError, 3, 0, 0, 0⟩,
    [⟨"a".toList, .A, .IN⟩, ⟨"a".toList, .A, .IN⟩, ⟨"a".toList, .A, .IN⟩], [], [], []⟩,
    by decide +kernel, ?_⟩
  intro h
  obtain ⟨-, hlen⟩ := h
  revert hlen
  decide

end VantaDns.Protocol
