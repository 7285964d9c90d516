/-
  The grammar of DNS messages, and what `DnsPacket::parse` makes of it.

  One grammar serves several ways of reading a message. A `Convention` says what counts as
  a name and where reading resumes after it, which bytes a `TXT` string stands for, and
  how the end of RDATA relates to RDLENGTH. `PacketAt C b p`: the bytes `b` are read as the
  packet `p` under `C`.

  * `afterZero` is what the decoder does: after a name it goes on behind the zero byte it
    reached last, wherever that lies, and RDATA may end anywhere.
  * `inPlace` is RFC 1035: after a name comes what follows its bytes in place, and RDATA
    ends RDLENGTH bytes after it began.

  `parse_ok`: parsing succeeds with `p` exactly when the bytes are `p` under `afterZero`.
  `parse_panic`: it panics exactly when a `TXT` string that is reached runs past the end of
  the message.
-/
import VantaDns.Protocol.NameWire
import VantaDns.Protocol.Packet

namespace VantaDns.Protocol

open Lib Lib.Decoder Lib.Utf8 Lib.Text Lib.Unicode

/-- A way of reading names, strings and RDATA. -/
structure Convention where
  /-- The name `n` stands at `s` of `b`, and reading resumes at `e`. -/
  name : (b : List UInt8) → (s : Nat) → (n : Str) → (e : Nat) → Prop
  /-- The bytes of a `TXT` string stand for the text. -/
  text : List UInt8 → Str → Prop
  /-- RDATA that RDLENGTH says ends at the first position is read up to the second. -/
  rdataEnd : Nat → Nat → Prop

/-- The decoder's way. -/
def afterZero : Convention where
  name b s n z := ∃ (ts : List Str) (k e : Nat), NameAt b s (ts.map encode) k e z ∧ k ≤ 50 ∧
    n = nameText ts
  text raw t := t = fromUtf8Lossy raw
  rdataEnd _ _ := True

section Grammar

variable (C : Convention) (b : List UInt8)

def QuestionAt (s : Nat) (q : DnsQuestion) (e : Nat) : Prop :=
  ∃ t, C.name b s q.name t ∧ BytesAt b t (beU16 q.qtype.toU16 ++ beU16 q.qclass.toU16) ∧
    q.qtype.Canonical ∧ q.qclass.Canonical ∧ e = t + 4

/-- The strings of a `TXT` record from `s` on, while `n` bytes of RDATA are left. The last
    string may use up more than that. -/
inductive TxtsAt : Nat → Nat → List Str → Nat → Prop where
  | done {s : Nat} : TxtsAt 0 s [] s
  | string {n s e : Nat} {raw : List UInt8} {t : Str} {ts : List Str} : 0 < n →
      raw.length < 256 → BytesAt b s (counted raw) → C.text raw t →
      TxtsAt (n - (1 + raw.length)) (s + 1 + raw.length) ts e → TxtsAt n s (t :: ts) e

/-- The type and length pairs whose RDATA the parser keeps raw. -/
def KeepsRaw : QueryType → Nat → Prop
  | .A, n => n ≠ 4
  | .AAAA, n => n ≠ 16
  | .CNAME, _ => False
  | .MX, n => n < 3
  | .TXT, _ => False
  | _, _ => True

instance (t : QueryType) (n : Nat) : Decidable (KeepsRaw t n) := by
  cases t <;> simp only [KeepsRaw] <;> infer_instance

/-- RDATA of type `t` and RDLENGTH `n` at `s`. -/
inductive RdataAt : QueryType → Nat → Nat → ResourceData → Nat → Prop where
  | A {s : Nat} {ip : Ipv4Addr} : BytesAt b s ip.toList → RdataAt .A 4 s (.A ip) (s + 4)
  | AAAA {s : Nat} {ip : Ipv6Addr} : BytesAt b s ip.toList →
      RdataAt .AAAA 16 s (.AAAA ip) (s + 16)
  | CNAME {n s e : Nat} {cname : Str} : C.name b s cname e → RdataAt .CNAME n s (.CNAME cname) e
  | MX {n s e : Nat} {preference : UInt16} {exchange : Str} : 3 ≤ n →
      BytesAt b s (beU16 preference) → C.name b (s + 2) exchange e →
      RdataAt .MX n s (.MX preference exchange) e
  | TXT {n s e : Nat} {txts : List Str} : TxtsAt C b n s txts e → RdataAt .TXT n s (.TXT txts) e
  | Raw {t : QueryType} {n s : Nat} {raw : List UInt8} : KeepsRaw t n → raw.length = n →
      BytesAt b s raw → RdataAt t n s (.Raw raw) (s + n)

/-- The ten bytes between the owner name and RDATA. -/
def recordHeader (rtype rclass : UInt16) (ttl : UInt32) (rdlength : UInt16) : List UInt8 :=
  beU16 rtype ++ beU16 rclass ++ beU32 ttl ++ beU16 rdlength

@[simp] theorem length_recordHeader (rtype rclass : UInt16) (ttl : UInt32) (rdlength : UInt16) :
    (recordHeader rtype rclass ttl rdlength).length = 10 := rfl

def RecordAt (s : Nat) (r : ResourceRecord) (e : Nat) : Prop :=
  ∃ (t : Nat) (rdlength : UInt16), C.name b s r.name t ∧
    BytesAt b t (recordHeader r.rtype.toU16 r.rclass.toU16 r.ttl rdlength) ∧
    r.rtype.Canonical ∧ r.rclass.Canonical ∧ t + 10 + rdlength.toNat ≤ b.length ∧
    RdataAt C b r.rtype rdlength.toNat (t + 10) r.rdata e ∧
    C.rdataEnd (t + 10 + rdlength.toNat) e

/-- The items of the four sections, the first at position 12. -/
def SectionsAt (p : DnsPacket) (e : Nat) : Prop :=
  ∃ e₁ e₂ e₃, Chain (QuestionAt C b) 12 p.questions e₁ ∧ Chain (RecordAt C b) e₁ p.answers e₂ ∧
    Chain (RecordAt C b) e₂ p.authorities e₃ ∧ Chain (RecordAt C b) e₃ p.additionals e

/-- `b` is read as `p`, up to position `e`. Bytes after that are not looked at. -/
def PacketEndsAt (p : DnsPacket) (e : Nat) : Prop :=
  HeaderAt b 0 p.header ∧ p.questions.length = p.header.qdcount.toNat ∧
    p.answers.length = p.header.ancount.toNat ∧ p.authorities.length = p.header.nscount.toNat ∧
    p.additionals.length = p.header.arcount.toNat ∧ SectionsAt C b p e

def PacketAt (p : DnsPacket) : Prop := ∃ e, PacketEndsAt C b p e

end Grammar

/-! ## Conventions that read more -/

/-- Everything `C` reads, `C'` reads the same way. -/
structure Convention.Le (C C' : Convention) : Prop where
  name : ∀ b s n e, C.name b s n e → C'.name b s n e
  text : ∀ raw t, C.text raw t → C'.text raw t
  rdataEnd : ∀ d e, C.rdataEnd d e → C'.rdataEnd d e

section Mono

variable {C C' : Convention} {b : List UInt8} {s e : Nat}

theorem QuestionAt.mono (hC : C.Le C') {q : DnsQuestion} (h : QuestionAt C b s q e) :
    QuestionAt C' b s q e := by
  obtain ⟨t, hn, h⟩ := h
  exact ⟨t, hC.name _ _ _ _ hn, h⟩

theorem TxtsAt.mono (hC : C.Le C') {n : Nat} {ts : List Str} (h : TxtsAt C b n s ts e) :
    TxtsAt C' b n s ts e := by
  induction h with
  | done => exact .done
  | string h0 hl hb ht _ ih => exact .string h0 hl hb (hC.text _ _ ht) ih

theorem RdataAt.mono (hC : C.Le C') {t : QueryType} {n : Nat} {d : ResourceData}
    (h : RdataAt C b t n s d e) : RdataAt C' b t n s d e := by
  cases h with
  | A h => exact .A h
  | AAAA h => exact .AAAA h
  | CNAME h => exact .CNAME (hC.name _ _ _ _ h)
  | MX h0 h1 h2 => exact .MX h0 h1 (hC.name _ _ _ _ h2)
  | TXT h => exact .TXT (h.mono hC)
  | Raw h0 h1 h2 => exact .Raw h0 h1 h2

theorem RecordAt.mono (hC : C.Le C') {r : ResourceRecord} (h : RecordAt C b s r e) :
    RecordAt C' b s r e := by
  obtain ⟨t, rdlength, hn, hh, ht, hc, hl, hd, he⟩ := h
  exact ⟨t, rdlength, hC.name _ _ _ _ hn, hh, ht, hc, hl, hd.mono hC, hC.rdataEnd _ _ he⟩

theorem PacketAt.mono (hC : C.Le C') {p : DnsPacket} (h : PacketAt C b p) : PacketAt C' b p := by
  obtain ⟨e, hh, h1, h2, h3, h4, e₁, e₂, e₃, c1, c2, c3, c4⟩ := h
  exact ⟨e, hh, h1, h2, h3, h4, e₁, e₂, e₃, c1.mono fun _ _ _ => QuestionAt.mono hC,
    c2.mono fun _ _ _ => RecordAt.mono hC, c3.mono fun _ _ _ => RecordAt.mono hC,
    c4.mono fun _ _ _ => RecordAt.mono hC⟩

end Mono

/-! ## The decoder reads the grammar -/

variable {b : List UInt8} {s e : Nat}

theorem readDomainName_iff {n : Str} :
    readDomainName b s = .ok (n, e) ↔ afterZero.name b s n e := readDomainName_ok

theorem questionParse_ok {q : DnsQuestion} :
    DnsQuestion.parse b s = .ok (q, e) ↔ QuestionAt afterZero b s q e := by
  unfold DnsQuestion.parse QuestionAt
  constructor
  · intro h
    rw [bind_ok] at h
    obtain ⟨name, t, hname, h⟩ := h
    rw [readDomainName_iff] at hname
    rw [remaining_bind] at h
    split at h
    · cases h
    · simp only [bind_ok, getU16_ok] at h
      obtain ⟨ty, _, ⟨hty, rfl⟩, cl, _, ⟨hcl, rfl⟩, h⟩ := h
      cases h
      refine ⟨t, hname, ?_, ?_, ?_, rfl⟩
      · simp only [QueryType.toU16_fromU16, QueryClass.toU16_fromU16, bytesAt_append, length_beU16]
        exact ⟨hty, hcl⟩
      · exact (QueryType.fromU16_eq.1 rfl).2
      · exact (QueryClass.fromU16_eq.1 rfl).2
  · rintro ⟨t, hname, hb, hty, hcl, rfl⟩
    have hle := hb.length_le
    rw [bind_of_ok (readDomainName_iff.2 hname), remaining_bind]
    simp only [List.length_append, length_beU16] at hle
    rw [if_neg (by omega)]
    rw [bytesAt_append, length_beU16] at hb
    rw [bind_of_ok (getU16_ok.2 ⟨hb.1, rfl⟩), bind_of_ok (getU16_ok.2 ⟨hb.2, rfl⟩), hty, hcl]
    rfl

theorem questionParse_ne_panic : DnsQuestion.parse b s ≠ .panic := by
  unfold DnsQuestion.parse
  intro h
  rw [bind_panic] at h
  rcases h with h | ⟨name, t, -, h⟩
  · exact readDomainName_ne_panic h
  · rw [remaining_bind] at h
    split at h
    · cases h
    · simp only [bind_panic, getU16_panic, getU16_ok] at h
      rcases h with h | ⟨ty, _, ⟨-, rfl⟩, h | ⟨cl, _, ⟨-, rfl⟩, h⟩⟩
      · omega
      · omega
      · cases h

theorem readTxts_eq (rdlength read : Nat) :
    readTxts rdlength read =
      (if read < rdlength then do
        let len ← getU8
        let txtBuf ← copyToSlice len.toNat
        let txts ← readTxts rdlength (read + (1 + len.toNat))
        return fromUtf8Lossy txtBuf :: txts
      else pure []) := by
  rw [readTxts]

/-- A string is read by its length byte and its bytes. -/
theorem getCounted_bind {α : Type} {raw : List UInt8} (hl : raw.length < 256)
    (hb : BytesAt b s (counted raw)) (f : UInt8 → List UInt8 → Decoder DnsError α) :
    (getU8 >>= fun len => copyToSlice len.toNat >>= f len) b s =
      f (UInt8.ofNat raw.length) raw b (s + 1 + raw.length) := by
  have hnat : (UInt8.ofNat raw.length).toNat = raw.length := toNat_ofNat_length hl
  rw [bytesAt_counted hnat.symm] at hb
  rw [bind_of_ok (getU8_ok.2 ⟨hb.1, rfl⟩),
    bind_of_ok (copyToSlice_ok.2 ⟨hb.2, hnat.symm, rfl⟩), hnat]

theorem readTxts_ok {rdlength : Nat} {txts : List Str} (read : Nat) :
    readTxts rdlength read b s = .ok (txts, e) ↔
      TxtsAt afterZero b (rdlength - read) s txts e := by
  induction hm : rdlength - read using Nat.strong_induction_on generalizing read s txts with
  | _ m ih =>
    rw [readTxts_eq]
    split
    · next hlt =>
      constructor
      · intro h
        rw [bind_ok] at h
        obtain ⟨len, _, hget, h⟩ := h
        obtain ⟨hlen, rfl⟩ := getU8_ok.1 hget
        rw [bind_ok] at h
        obtain ⟨raw, _, hcopy, h⟩ := h
        obtain ⟨hraw, hl, rfl⟩ := copyToSlice_ok.1 hcopy
        rw [bind_ok] at h
        obtain ⟨ts, _, hts, h⟩ := h
        cases h
        have hlt256 := len.toNat_lt
        rw [ih (rdlength - (read + (1 + len.toNat))) (by omega) (read + (1 + len.toNat)) rfl] at hts
        refine @TxtsAt.string _ _ _ _ _ raw _ _ (by omega) (by omega) ?_ rfl ?_
        · exact (bytesAt_counted hl).2 ⟨hlen, hraw⟩
        · rw [hl, ← hm, Nat.sub_sub]
          exact hts
      · intro h
        cases h with
        | done => omega
        | @string _ _ _ raw t ts h0 hl hb ht h =>
          rw [getCounted_bind hl hb, toNat_ofNat_length hl]
          rw [← hm, Nat.sub_sub] at h
          have hrec := (ih (rdlength - (read + (1 + raw.length))) (by omega)
            (read + (1 + raw.length)) rfl).2 h
          rw [bind_of_ok hrec, ht]
          rfl
    · next hge =>
      have h0 : m = 0 := by omega
      subst h0
      constructor
      · intro h
        cases h
        exact .done
      · intro h
        cases h with
        | done => rfl
        | string h0 => omega

/-- A `TXT` string that is reached while `n` bytes of RDATA are left, the first of them at
    `s`, runs past the end of the buffer. -/
inductive TxtsOverrun (b : List UInt8) : Nat → Nat → Prop where
  | here {n s : Nat} {len : UInt8} : 0 < n → BytesAt b s [len] →
      b.length < s + 1 + len.toNat → TxtsOverrun b n s
  | later {n s : Nat} {raw : List UInt8} : 0 < n → raw.length < 256 → BytesAt b s (counted raw) →
      TxtsOverrun b (n - (1 + raw.length)) (s + 1 + raw.length) → TxtsOverrun b n s

theorem readTxts_panic {rdlength : Nat} (read : Nat) (hle : rdlength - read ≤ b.length - s) :
    readTxts rdlength read b s = .panic ↔ TxtsOverrun b (rdlength - read) s := by
  induction hm : rdlength - read using Nat.strong_induction_on generalizing read s with
  | _ m ih =>
    rw [readTxts_eq]
    split
    · next hlt =>
      constructor
      · intro h
        rw [bind_panic, getU8_panic] at h
        rcases h with h | ⟨len, _, hget, h⟩
        · omega
        · obtain ⟨hlen, rfl⟩ := getU8_ok.1 hget
          rw [bind_panic, copyToSlice_panic] at h
          have hlt256 := len.toNat_lt
          rcases h with h | ⟨raw, _, hcopy, h⟩
          · exact .here (by omega) hlen (by omega)
          · obtain ⟨hraw, hl, rfl⟩ := copyToSlice_ok.1 hcopy
            rw [bind_panic] at h
            rcases h with h | ⟨ts, _, -, h⟩
            · rw [ih (rdlength - (read + (1 + len.toNat))) (by omega) (read + (1 + len.toNat))
                (by omega) rfl] at h
              refine @TxtsOverrun.later _ _ _ raw (by omega) (by omega) ?_ ?_
              · exact (bytesAt_counted hl).2 ⟨hlen, hraw⟩
              · rw [hl, ← hm, Nat.sub_sub]
                exact h
            · cases h
      · intro h
        cases h with
        | here h0 hlen hover =>
          rw [bind_of_ok (getU8_ok.2 ⟨hlen, rfl⟩), bind_of_panic]
          exact copyToSlice_panic.2 (by omega)
        | @later _ _ raw h0 hl hb h =>
          have hlen := hb.lt_length
          rw [getCounted_bind hl hb, toNat_ofNat_length hl]
          apply bind_of_panic
          rw [ih (rdlength - (read + (1 + raw.length))) (by omega) (read + (1 + raw.length))
            (by omega) rfl, ← Nat.sub_sub, hm]
          exact h
    · next hge =>
      constructor
      · intro h
        cases h
      · intro h
        cases h with
        | here h0 => omega
        | later h0 => omega

/-- RDATA that is kept raw is read by one copy. -/
theorem readRaw_ok {n : Nat} {d : ResourceData} :
    ((copyToSlice n >>= fun raw => pure (.Raw raw) : Decoder DnsError ResourceData) b s =
      .ok (d, e)) ↔ ∃ raw, raw.length = n ∧ BytesAt b s raw ∧ d = .Raw raw ∧ e = s + n := by
  simp only [bind_ok, copyToSlice_ok, pure_apply, Outcome.ok.injEq, Prod.mk.injEq]
  constructor
  · rintro ⟨raw, _, ⟨hb, hl, rfl⟩, rfl, rfl⟩
    exact ⟨raw, hl, hb, rfl, rfl⟩
  · rintro ⟨raw, hl, hb, rfl, rfl⟩
    exact ⟨raw, _, ⟨hb, hl, rfl⟩, rfl, rfl⟩

theorem readRdata_eq_raw {t : QueryType} {n : Nat} (h : KeepsRaw t n) :
    readRdata t n = (do let raw ← copyToSlice n; return .Raw raw) := by
  cases t <;> simp only [KeepsRaw] at h <;> simp [readRdata, h]

theorem rdataAt_raw {C : Convention} {t : QueryType} {n : Nat} {d : ResourceData}
    (ht : KeepsRaw t n) :
    RdataAt C b t n s d e ↔
      ∃ raw, raw.length = n ∧ BytesAt b s raw ∧ d = .Raw raw ∧ e = s + n := by
  constructor
  · intro h
    cases h with
    | A => exact absurd rfl ht
    | AAAA => exact absurd rfl ht
    | CNAME => exact ht.elim
    | MX h0 => exact absurd ht (by simp only [KeepsRaw]; omega)
    | TXT => exact ht.elim
    | Raw _ hl hb => exact ⟨_, hl, hb, rfl, rfl⟩
  · rintro ⟨raw, hl, hb, rfl, rfl⟩
    exact .Raw ht hl hb

/-- The readers of RDATA that is taken apart. -/
inductive TakenApart : QueryType → Nat → Decoder DnsError ResourceData → Prop where
  | A : TakenApart .A 4 (copyToArray 4 >>= fun octets => pure (.A octets))
  | AAAA : TakenApart .AAAA 16 (copyToArray 16 >>= fun octets => pure (.AAAA octets))
  | CNAME {n : Nat} : TakenApart .CNAME n (readDomainName >>= fun cname => pure (.CNAME cname))
  | MX {n : Nat} : 3 ≤ n → TakenApart .MX n
      (getU16 >>= fun preference => readDomainName >>= fun exchange =>
        pure (.MX preference exchange))
  | TXT {n : Nat} : TakenApart .TXT n (readTxts n 0 >>= fun txts => pure (.TXT txts))

/-- RDATA that is not kept raw is taken apart. -/
theorem takenApart {t : QueryType} {n : Nat} (h : ¬ KeepsRaw t n) :
    TakenApart t n (readRdata t n) := by
  cases t with
  | A =>
    obtain rfl : n = 4 := by simpa [KeepsRaw] using h
    exact .A
  | AAAA =>
    obtain rfl : n = 16 := by simpa [KeepsRaw] using h
    exact .AAAA
  | CNAME => exact .CNAME
  | MX =>
    have hn : 3 ≤ n := by simpa [KeepsRaw] using h
    unfold readRdata
    dsimp only
    rw [if_pos hn]
    exact .MX hn
  | TXT => exact .TXT
  | _ => exact absurd trivial h

theorem readRdata_ok {t : QueryType} {n : Nat} {d : ResourceData} :
    readRdata t n b s = .ok (d, e) ↔ RdataAt afterZero b t n s d e := by
  by_cases hraw : KeepsRaw t n
  · rw [readRdata_eq_raw hraw, rdataAt_raw hraw]
    exact readRaw_ok
  · have htaken := takenApart hraw
    generalize readRdata t n = reader at htaken
    cases htaken with
    | A =>
      simp only [bind_ok, copyToArray_ok, pure_apply, Outcome.ok.injEq, Prod.mk.injEq]
      constructor
      · rintro ⟨ip, _, ⟨hb, rfl⟩, rfl, rfl⟩
        exact .A hb
      · intro h
        cases h with
        | A hb => exact ⟨_, _, ⟨hb, rfl⟩, rfl, rfl⟩
        | Raw h => exact absurd h hraw
    | AAAA =>
      simp only [bind_ok, copyToArray_ok, pure_apply, Outcome.ok.injEq, Prod.mk.injEq]
      constructor
      · rintro ⟨ip, _, ⟨hb, rfl⟩, rfl, rfl⟩
        exact .AAAA hb
      · intro h
        cases h with
        | AAAA hb => exact ⟨_, _, ⟨hb, rfl⟩, rfl, rfl⟩
        | Raw h => exact absurd h hraw
    | CNAME =>
      simp only [bind_ok, readDomainName_iff, pure_apply, Outcome.ok.injEq, Prod.mk.injEq]
      constructor
      · rintro ⟨cname, _, hn, rfl, rfl⟩
        exact .CNAME hn
      · intro h
        cases h with
        | CNAME hn => exact ⟨_, _, hn, rfl, rfl⟩
        | Raw h => exact absurd h hraw
    | MX hn =>
      simp only [bind_ok, getU16_ok, readDomainName_iff, pure_apply, Outcome.ok.injEq,
        Prod.mk.injEq]
      constructor
      · rintro ⟨pref, _, ⟨hb, rfl⟩, ex, _, hx, rfl, rfl⟩
        exact .MX hn hb hx
      · intro h
        cases h with
        | MX _ hb hx => exact ⟨_, _, ⟨hb, rfl⟩, _, _, hx, rfl, rfl⟩
        | Raw h => exact absurd h hraw
    | TXT =>
      simp only [bind_ok, readTxts_ok, pure_apply, Outcome.ok.injEq, Prod.mk.injEq, Nat.sub_zero]
      constructor
      · rintro ⟨txts, _, ht, rfl, rfl⟩
        exact .TXT ht
      · intro h
        cases h with
        | TXT ht => exact ⟨_, _, ht, rfl, rfl⟩
        | Raw h => exact absurd h hraw

theorem readRdata_panic {t : QueryType} {n : Nat} (hle : n ≤ b.length - s) :
    readRdata t n b s = .panic ↔ t = .TXT ∧ TxtsOverrun b n s := by
  by_cases hraw : KeepsRaw t n
  · rw [readRdata_eq_raw hraw, bind_panic, copyToSlice_panic]
    constructor
    · rintro (h | ⟨raw, _, -, h⟩)
      · omega
      · cases h
    · rintro ⟨rfl, -⟩
      exact hraw.elim
  · have htaken := takenApart hraw
    generalize readRdata t n = reader at htaken
    cases htaken with
    | A =>
      simp only [bind_panic, copyToArray_panic, pure_apply]
      simp
      omega
    | AAAA =>
      simp only [bind_panic, copyToArray_panic, pure_apply]
      simp
      omega
    | CNAME => simp [bind_panic, readDomainName_ne_panic]
    | MX hn =>
      simp only [bind_panic, getU16_panic, readDomainName_ne_panic, pure_apply]
      simp
      omega
    | TXT =>
      rw [bind_panic, readTxts_panic 0 (by simpa using hle)]
      simp

theorem recordParse_ok {r : ResourceRecord} :
    ResourceRecord.parse b s = .ok (r, e) ↔ RecordAt afterZero b s r e := by
  unfold ResourceRecord.parse RecordAt
  constructor
  · intro h
    rw [bind_ok] at h
    obtain ⟨name, t, hname, h⟩ := h
    rw [readDomainName_iff] at hname
    rw [remaining_bind] at h
    split at h
    · cases h
    · simp only [bind_ok, getU16_ok, getU32_ok] at h
      obtain ⟨ty, _, ⟨hty, rfl⟩, cl, _, ⟨hcl, rfl⟩, ttl, _, ⟨httl, rfl⟩, len, _, ⟨hlen, rfl⟩,
        _, _, hrem, h⟩ := h
      cases hrem
      split at h
      · cases h
      · simp only [bind_ok, readRdata_ok] at h
        obtain ⟨d, _, hd, h⟩ := h
        cases h
        refine ⟨t, len, hname, ?_, ?_, ?_, by omega, hd, trivial⟩
        · simp only [recordHeader, QueryType.toU16_fromU16, QueryClass.toU16_fromU16,
            bytesAt_append, List.length_append, length_beU16, length_beU32]
          exact ⟨⟨⟨hty, hcl⟩, httl⟩, hlen⟩
        · exact (QueryType.fromU16_eq.1 rfl).2
        · exact (QueryClass.fromU16_eq.1 rfl).2
  · rintro ⟨t, len, hname, hb, hty, hcl, hle, hd, -⟩
    rw [bind_of_ok (readDomainName_iff.2 hname), remaining_bind, if_neg (by omega)]
    simp only [recordHeader, bytesAt_append, List.length_append, length_beU16, length_beU32] at hb
    obtain ⟨⟨⟨h1, h2⟩, h3⟩, h4⟩ := hb
    rw [bind_of_ok (getU16_ok.2 ⟨h1, rfl⟩), bind_of_ok (getU16_ok.2 ⟨h2, rfl⟩),
      bind_of_ok (getU32_ok.2 ⟨h3, rfl⟩), bind_of_ok (getU16_ok.2 ⟨h4, rfl⟩), remaining_bind,
      if_neg (by omega), hty, hcl, bind_of_ok (readRdata_ok.2 hd)]
    rfl

/-- A `TXT` record stands at `s` whose RDATA fits the buffer, and one of its strings does
    not. -/
def RecordOverrun (b : List UInt8) (s : Nat) : Prop :=
  ∃ (name : Str) (t : Nat) (rclass : UInt16) (ttl : UInt32) (rdlength : UInt16),
    afterZero.name b s name t ∧
    BytesAt b t (recordHeader QueryType.TXT.toU16 rclass ttl rdlength) ∧
    t + 10 + rdlength.toNat ≤ b.length ∧ TxtsOverrun b rdlength.toNat (t + 10)

theorem recordParse_panic : ResourceRecord.parse b s = .panic ↔ RecordOverrun b s := by
  unfold ResourceRecord.parse RecordOverrun
  constructor
  · intro h
    rw [bind_panic] at h
    rcases h with h | ⟨name, t, hname, h⟩
    · exact absurd h readDomainName_ne_panic
    rw [readDomainName_iff] at hname
    rw [remaining_bind] at h
    split at h
    · cases h
    · simp only [bind_panic, getU16_panic, getU16_ok, getU32_panic, getU32_ok] at h
      rcases h with h | ⟨ty, _, ⟨hty, rfl⟩, h | ⟨cl, _, ⟨hcl, rfl⟩, h | ⟨ttl, _, ⟨httl, rfl⟩,
        h | ⟨len, _, ⟨hlen, rfl⟩, h | ⟨_, _, hrem, h⟩⟩⟩⟩⟩
      · omega
      · omega
      · omega
      · omega
      · cases h
      cases hrem
      split at h
      · cases h
      · rw [bind_panic, readRdata_panic (by omega)] at h
        rcases h with ⟨hT, h⟩ | ⟨d, _, -, h⟩
        · refine ⟨name, t, cl, ttl, len, hname, ?_, by omega, h⟩
          rw [← hT]
          simp only [recordHeader, QueryType.toU16_fromU16, bytesAt_append, List.length_append,
            length_beU16, length_beU32]
          exact ⟨⟨⟨hty, hcl⟩, httl⟩, hlen⟩
        · cases h
  · rintro ⟨name, t, cl, ttl, len, hname, hb, hle, h⟩
    rw [bind_of_ok (readDomainName_iff.2 hname), remaining_bind, if_neg (by omega)]
    simp only [recordHeader, bytesAt_append, List.length_append, length_beU16, length_beU32] at hb
    obtain ⟨⟨⟨h1, h2⟩, h3⟩, h4⟩ := hb
    rw [bind_of_ok (getU16_ok.2 ⟨h1, rfl⟩), bind_of_ok (getU16_ok.2 ⟨h2, rfl⟩),
      bind_of_ok (getU32_ok.2 ⟨h3, rfl⟩), bind_of_ok (getU16_ok.2 ⟨h4, rfl⟩), remaining_bind,
      if_neg (by omega)]
    apply bind_of_panic
    exact (readRdata_panic (by omega)).2 ⟨rfl, h⟩

theorem decode_ok {p : DnsPacket} :
    DnsPacket.decode b 0 = .ok (p, e) ↔ PacketEndsAt afterZero b p e := by
  unfold DnsPacket.decode PacketEndsAt SectionsAt
  constructor
  · intro h
    simp only [bind_ok, DnsHeader.parse_ok, many_ok (R := QuestionAt afterZero b)
      (fun _ _ _ => questionParse_ok), many_ok (R := RecordAt afterZero b)
      (fun _ _ _ => recordParse_ok)] at h
    obtain ⟨hd, _, ⟨hh, rfl⟩, qs, e₁, ⟨hq, lq⟩, an, e₂, ⟨ha, la⟩, ns, e₃, ⟨hn, ln⟩, ar, e₄,
      ⟨hr, lr⟩, h⟩ := h
    cases h
    exact ⟨hh, lq, la, ln, lr, e₁, e₂, e₃, hq, ha, hn, hr⟩
  · rintro ⟨hh, lq, la, ln, lr, e₁, e₂, e₃, hq, ha, hn, hr⟩
    rw [bind_of_ok (DnsHeader.parse_ok.2 ⟨hh, rfl⟩),
      bind_of_ok ((many_ok (fun _ _ _ => questionParse_ok) _ _).2 ⟨hq, lq⟩),
      bind_of_ok ((many_ok (fun _ _ _ => recordParse_ok) _ _).2 ⟨ha, la⟩),
      bind_of_ok ((many_ok (fun _ _ _ => recordParse_ok) _ _).2 ⟨hn, ln⟩),
      bind_of_ok ((many_ok (fun _ _ _ => recordParse_ok) _ _).2 ⟨hr, lr⟩)]
    rfl

/-- Parsing reads exactly the packet that the bytes are under the decoder's convention. -/
theorem parse_ok {p : DnsPacket} : DnsPacket.parse b = .ok p ↔ PacketAt afterZero b p := by
  unfold DnsPacket.parse PacketAt
  constructor
  · intro h
    cases hd : DnsPacket.decode b 0 with
    | ok r =>
      obtain ⟨p', e⟩ := r
      rw [hd] at h
      cases h
      exact ⟨e, decode_ok.1 hd⟩
    | err x => rw [hd] at h; cases h
    | panic => rw [hd] at h; cases h
  · rintro ⟨e, h⟩
    rw [decode_ok.2 h]

/-- The message holds, among the records its header announces, a reached `TXT` record one
    of whose strings runs past the end of the message. -/
def TxtOverrun (b : List UInt8) : Prop :=
  ∃ (h : DnsHeader) (qs : List DnsQuestion) (t : Nat) (rs : List ResourceRecord) (u : Nat),
    HeaderAt b 0 h ∧ Chain (QuestionAt afterZero b) 12 qs t ∧ qs.length = h.qdcount.toNat ∧
    Chain (RecordAt afterZero b) t rs u ∧
    rs.length < h.ancount.toNat + h.nscount.toNat + h.arcount.toNat ∧ RecordOverrun b u

/-- The record loops of the three sections read one chain of records, and panic on it. -/
theorem many_records_panic (an ns ar : Nat) {α : Type}
    (f : List ResourceRecord → List ResourceRecord → List ResourceRecord → α) :
    (do
      let answers ← many ResourceRecord.parse an
      let authorities ← many ResourceRecord.parse ns
      let additionals ← many ResourceRecord.parse ar
      return f answers authorities additionals : Decoder DnsError α) b s = .panic ↔
      ∃ rs u, Chain (RecordAt afterZero b) s rs u ∧ rs.length < an + ns + ar ∧
        RecordOverrun b u := by
  simp only [bind_panic, many_ok (R := RecordAt afterZero b) (fun _ _ _ => recordParse_ok),
    many_panic (R := RecordAt afterZero b) (P := RecordOverrun b) (fun _ _ _ => recordParse_ok)
      (fun _ => recordParse_panic)]
  constructor
  · rintro (⟨rs, u, hc, hl, ho⟩ | ⟨as, t, ⟨ha, la⟩, ⟨rs, u, hc, hl, ho⟩ | ⟨bs, t', ⟨hb, lb⟩,
      ⟨rs, u, hc, hl, ho⟩ | ⟨cs, _, -, h⟩⟩⟩)
    · exact ⟨rs, u, hc, by omega, ho⟩
    · exact ⟨as ++ rs, u, Chain.append_iff.2 ⟨t, ha, hc⟩,
        by rw [List.length_append]; omega, ho⟩
    · exact ⟨as ++ (bs ++ rs), u, Chain.append_iff.2 ⟨t, ha, Chain.append_iff.2 ⟨t', hb, hc⟩⟩,
        by simp only [List.length_append]; omega, ho⟩
    · cases h
  · rintro ⟨rs, u, hc, hl, ho⟩
    by_cases h1 : rs.length < an
    · exact Or.inl ⟨rs, u, hc, h1, ho⟩
    · rw [← List.take_append_drop an rs] at hc
      obtain ⟨t, hc1, hc2⟩ := Chain.append_iff.1 hc
      refine Or.inr ⟨_, t, ⟨hc1, by rw [List.length_take]; omega⟩, ?_⟩
      by_cases h2 : (rs.drop an).length < ns
      · exact Or.inl ⟨_, u, hc2, h2, ho⟩
      · rw [← List.take_append_drop ns (rs.drop an)] at hc2
        obtain ⟨t', hc3, hc4⟩ := Chain.append_iff.1 hc2
        refine Or.inr ⟨_, t', ⟨hc3, by rw [List.length_take]; omega⟩, Or.inl ⟨_, u, hc4, ?_, ho⟩⟩
        rw [List.length_drop, List.length_drop]
        rw [List.length_drop] at h2
        omega

/-- Parsing panics exactly on a reached `TXT` string that runs past the message. -/
theorem parse_panic : DnsPacket.parse b = .panic ↔ TxtOverrun b := by
  have hdec : DnsPacket.parse b = .panic ↔ DnsPacket.decode b 0 = .panic := by
    unfold DnsPacket.parse
    cases DnsPacket.decode b 0 <;> simp
  rw [hdec]
  unfold DnsPacket.decode TxtOverrun
  constructor
  · intro h
    rcases bind_panic.1 h with h | ⟨hd, _, hh, h⟩
    · exact absurd h DnsHeader.parse_ne_panic
    obtain ⟨hhd, rfl⟩ := DnsHeader.parse_ok.1 hh
    rcases bind_panic.1 h with h | ⟨qs, t, hq, h⟩
    · obtain ⟨_, _, -, -, h⟩ := (many_panic (R := QuestionAt afterZero b) (P := fun _ => False)
        (fun _ _ _ => questionParse_ok) (fun _ => iff_false_intro questionParse_ne_panic) _).1 h
      exact h.elim
    obtain ⟨hq, lq⟩ := (many_ok (fun _ _ _ => questionParse_ok) _ _).1 hq
    obtain ⟨rs, u, hc, hl, ho⟩ := (many_records_panic _ _ _ (DnsPacket.mk hd qs)).1 h
    exact ⟨hd, qs, t, rs, u, hhd, hq, lq, hc, hl, ho⟩
  · rintro ⟨hd, qs, t, rs, u, hh, hq, lq, hc, hl, ho⟩
    rw [bind_of_ok (DnsHeader.parse_ok.2 ⟨hh, rfl⟩),
      bind_of_ok ((many_ok (fun _ _ _ => questionParse_ok) _ _).2 ⟨hq, lq⟩)]
    exact (many_records_panic _ _ _ (DnsPacket.mk hd qs)).2 ⟨rs, u, hc, hl, ho⟩

/-- Parsing returns, with a packet or an error, exactly when no `TXT` string overruns. -/
theorem parse_returns_iff (b : List UInt8) :
    ((∃ p, DnsPacket.parse b = .ok p) ∨ ∃ x, DnsPacket.parse b = .err x) ↔ ¬ TxtOverrun b := by
  rw [← parse_panic]
  cases DnsPacket.parse b <;> simp

/-- A message with one answer: a `TXT` record of the root whose RDATA is a single length byte
    that promises five bytes more. -/
def overrunningReply : List UInt8 :=
  [0, 0, 0x80, 0, 0, 0, 0, 1, 0, 0, 0, 0] ++ [0, 0, 16, 0, 1, 0, 0, 0, 60, 0, 1, 5]

theorem parse_overrunningReply :
    ¬ ((∃ p, DnsPacket.parse overrunningReply = .ok p) ∨
      ∃ x, DnsPacket.parse overrunningReply = .err x) := by
  have h : DnsPacket.parse overrunningReply = .panic := by decide +kernel
  rw [h]
  simp

end VantaDns.Protocol
