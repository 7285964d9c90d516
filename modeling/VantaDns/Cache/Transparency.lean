/-
  What is served from the cache, next to the message that was stored.

  `WireMessage.Stable`: nothing in the message is changed by decoding it and encoding it
  again, but for the case of questions and owners. `toBytes_served`: if such a message has
  no compressed name, what the cache serves for it is the same message with the answers' TTL
  replaced.
-/
import VantaDns.Cache.DnsCache
import VantaDns.Protocol.WireMessage

namespace VantaDns.Cache

open Lib Lib.Decoder Lib.Utf8 Lib.Text Lib.Unicode Protocol

variable {b : List UInt8} {s e z : Nat}

/-! ## What decoding leaves alone -/

/-- Names in lower case with plain labels, strings that are text. -/
def Stable : RdataField → Prop
  | .bytes _ => True
  | .name labels => ∀ l ∈ labels, PlainLabel l ∧ l.map asciiLower = l
  | .strings raws => ∀ raw ∈ raws, ∃ t, raw = encode t

/-- The owner's labels are plain, and RDATA that is decoded is left alone: that of `CNAME`,
    `MX` and `TXT` records. -/
structure StableRecord (r : WireRecord) : Prop where
  owner : ∀ l ∈ r.owner, PlainLabel l
  rdata : r.rtype = 5 ∨ r.rtype = 15 ∨ r.rtype = 16 → ∀ f ∈ r.fields, Stable f

structure StableMessage (w : WireMessage) : Prop where
  questions : ∀ q ∈ w.questions, ∀ l ∈ q.labels, PlainLabel l
  answers : ∀ r ∈ w.answers, StableRecord r
  authorities : ∀ r ∈ w.authorities, StableRecord r
  additionals : ∀ r ∈ w.additionals, StableRecord r

/-- A flags word of RFC 1035 §4.1.1: an opcode up to 2, reserved bits zero, a response code
    up to 5. -/
structure DefinedFlags (flags : UInt16) : Prop where
  opcode : opcodeBits flags ≤ 2
  reserved : flags.toNat / 16 % 8 = 0
  rcode : flags.toNat % 16 ≤ 5

/-- Such a word survives being decoded and encoded. -/
theorem DefinedFlags.kept {flags : UInt16} (h : DefinedFlags flags)
    (id qdcount ancount nscount arcount : UInt16) :
    (DnsHeader.ofWords id flags qdcount ancount nscount arcount).flags = flags := by
  have hall : ∀ i : Fin 256, ∀ j : Fin 2, ∀ k : Fin 6,
      opcodeBits (UInt16.ofNat (i.val * 256 + j.val * 128 + k.val)) ≤ 2 →
      (DnsHeader.ofWords 0 (UInt16.ofNat (i.val * 256 + j.val * 128 + k.val)) 0 0 0 0).flags =
        UInt16.ofNat (i.val * 256 + j.val * 128 + k.val) := by
    decide +kernel
  have hlt := flags.toNat_lt
  have hz := h.reserved
  have hr := h.rcode
  have hsum : flags.toNat / 256 * 256 + flags.toNat / 128 % 2 * 128 + flags.toNat % 16 =
      flags.toNat := by
    omega
  have hk := hall ⟨flags.toNat / 256, by omega⟩ ⟨flags.toNat / 128 % 2, by omega⟩
    ⟨flags.toNat % 16, by omega⟩
  dsimp only at hk
  rw [hsum, UInt16.ofNat_toNat] at hk
  exact hk h.opcode

/-! ## RDATA -/

/-- Labels that are read in full and plain are a plain name. -/
theorem plainName_of_full {ls : List Label} (h : rfcFullName b s ls e)
    (hp : ∀ l ∈ ls, PlainLabel l) : plainName b s ls e := by
  obtain ⟨z, hn, h0, -⟩ := h.1.walk
  obtain rfl := h0 rfl
  exact ⟨hn, hp⟩

/-- A stable name is read up to its end and written again as it was. -/
theorem stable_name {ls : List Label} {n : Str} (h : rfcFullName b s ls e)
    (hs : Stable (.name ls)) (hn : afterZero.name b s n z) :
    z = e ∧ writeDomainName n = spell ls := by
  obtain ⟨hz, hw⟩ := (plainName_of_full h fun l hl => (hs l hl).1).decode hn
  have hfold : foldLabels ls = ls.map id := List.map_congr_left fun l hl => (hs l hl).2
  rw [hfold, List.map_id] at hw
  exact ⟨hz, hw⟩

/-- Strings that are text are read up to their end and written again as they were. -/
theorem stable_strings {raws : List (List UInt8)} {txts : List Str} {n : Nat}
    (hl : ∀ raw ∈ raws, raw.length < 256) (hs : Stable (.strings raws))
    (hb : BytesAt b s (raws.flatMap counted)) (hn : n = (raws.flatMap counted).length)
    (h : TxtsAt afterZero b n s txts z) :
    z = s + n ∧ (ResourceData.TXT txts).writeTo = raws.flatMap counted := by
  induction raws generalizing s n txts with
  | nil =>
    subst hn
    cases h with
    | done => exact ⟨rfl, rfl⟩
    | string h0 => exact absurd h0 (Nat.lt_irrefl 0)
  | cons raw raws ih =>
    rw [List.flatMap_cons, List.length_append, length_counted] at hn
    rw [List.flatMap_cons, bytesAt_append, length_counted] at hb
    cases h with
    | done => omega
    | @string _ _ _ raw' t ts h0 hl' hb' ht h =>
      have hraw := hl raw List.mem_cons_self
      obtain ⟨t', rfl⟩ := hs raw List.mem_cons_self
      have hsame : raw' = encode t' := by
        have hbyte := congrArg UInt8.toNat (bytesAt_head ((bytesAt_cons _ _ _ _).1 hb').1
          ((bytesAt_cons _ _ _ _).1 hb.1).1)
        rw [toNat_ofNat_length hl', toNat_ofNat_length hraw] at hbyte
        have hlen : (counted raw').length = (counted (encode t')).length := by
          rw [length_counted, length_counted, hbyte]
        exact (List.cons.inj (hb'.unique hb.1 hlen)).2
      subst hsame
      have htext : t = t' := ht.trans (fromUtf8Lossy_encode t')
      subst htext
      have hs1 : s + 1 + (encode t).length = s + ((encode t).length + 1) := by omega
      obtain ⟨hz, hw⟩ := ih (fun r hr => hl r (List.mem_cons_of_mem _ hr))
        (fun r hr => hs r (List.mem_cons_of_mem _ hr)) (hs1 ▸ hb.2) (by omega) h
      refine ⟨by omega, ?_⟩
      rw [List.flatMap_cons, ← hw]
      rfl

/-- RDATA in full that is stable if it is decoded is read up to its end, and written again as
    it was. -/
theorem stable_rdata {t : QueryType} {n : Nat} {fields : List RdataField} {d : ResourceData}
    (h : FieldsAt rfcFullName b (s + n) (rdataLayout t.toU16) s fields)
    (hs : t.toU16 = 5 ∨ t.toU16 = 15 ∨ t.toU16 = 16 → ∀ f ∈ fields, Stable f)
    (hd : RdataAt afterZero b t n s d z) :
    z = s + n ∧ d.writeTo = fields.flatMap RdataField.encode := by
  obtain ⟨hbytes, hend⟩ := h.bytes
  have hlen : (fields.flatMap RdataField.encode).length = n := by omega
  cases hd with
  | @A _ ip hip => exact ⟨rfl, hip.unique hbytes (ip.toList_length.trans hlen.symm)⟩
  | @AAAA _ ip hip => exact ⟨rfl, hip.unique hbytes (ip.toList_length.trans hlen.symm)⟩
  | Raw _ hl hraw => exact ⟨rfl, hraw.unique hbytes (hl.trans hlen.symm)⟩
  | CNAME hn =>
    change FieldsAt rfcFullName b (s + n) [.name] s fields at h
    cases h with
    | cons h1 h2 =>
      cases h1 with
      | name hname =>
        cases h2
        obtain ⟨hz, hw⟩ := stable_name hname (hs (Or.inl rfl) _ List.mem_cons_self) hn
        refine ⟨hz, ?_⟩
        rw [ResourceData.writeTo, hw]
        exact (List.append_nil _).symm
  | MX h3 hp hn =>
    change FieldsAt rfcFullName b (s + n) [.bytes 2, .name] s fields at h
    cases h with
    | cons h1 h2 =>
      generalize hg : Segment.bytes 2 = g at h1
      cases h1 with
      | @bytes _ raw hb =>
        have hraw : raw.length = 2 := (Segment.bytes.inj hg).symm
        cases h2 with
        | cons h2 h3 =>
          cases h2 with
          | name hname =>
            cases h3
            rw [hraw] at hname
            have hstable := hs (Or.inr (Or.inl rfl)) _ (List.mem_cons_of_mem _ List.mem_cons_self)
            obtain ⟨hz, hw⟩ := stable_name hname hstable hn
            refine ⟨hz, ?_⟩
            rw [ResourceData.writeTo, hw, hp.unique hb (by rw [hraw]; rfl)]
            exact (congrArg (raw ++ ·) (List.append_nil _)).symm
      | _ => cases hg
  | TXT htxts =>
    change FieldsAt rfcFullName b (s + n) [.strings] s fields at h
    cases h with
    | cons h1 h2 =>
      generalize hlimit : s + n = limit at h1 h2
      cases h1 with
      | @strings _ raws hl hb he =>
        cases h2
        have hstable := hs (Or.inr (Or.inr rfl)) _ List.mem_cons_self
        obtain ⟨hz, hw⟩ := stable_strings hl hstable hb (by omega) htxts
        refine ⟨hz.trans hlimit, hw.trans ?_⟩
        exact (List.append_nil _).symm

/-! ## Records and messages -/

/-- How a record is written with its owner in lower case and any TTL, next to its own TTL. -/
def writtenWith (r : WireRecord) : UInt32 × (UInt32 → List UInt8) :=
  (r.ttl, fun ttl => (r.fold.withTtl ttl).bytes)

/-- How a decoded record is written with any TTL, next to its own TTL. -/
def encodedWith (r : ResourceRecord) : UInt32 × (UInt32 → List UInt8) :=
  (r.ttl, fun ttl => { r with ttl := ttl }.writeTo)

/-- A stable record in full is decoded up to its end and written again as it was. -/
theorem stable_record {w : WireRecord} {r : ResourceRecord} (h : WireRecordAt rfcFullName b s w e)
    (hs : StableRecord w) (hr : RecordAt afterZero b s r z) :
    e = z ∧ writtenWith w = encodedWith r := by
  obtain ⟨t, rdlength, hn, hb, rfl, -, hf⟩ := h
  obtain ⟨t', rdlength', hn', hb', -, -, -, hd, -⟩ := hr
  obtain ⟨rfl, hown⟩ := (plainName_of_full hn hs.owner).decode hn'
  obtain ⟨ht, hc, httl, rfl⟩ := recordHeader_inj (hb.unique hb' rfl)
  rw [ht] at hf
  obtain ⟨hz, hw⟩ := stable_rdata hf (ht ▸ hs.rdata) hd
  refine ⟨hz.symm, ?_⟩
  unfold writtenWith encodedWith
  rw [httl, Prod.mk.injEq]
  refine ⟨rfl, ?_⟩
  funext ttl
  rw [ResourceRecord.writeTo_eq]
  show spell (foldLabels w.owner) ++ (recordHeader w.rtype w.rclass ttl
      (UInt16.ofNat (w.fields.flatMap RdataField.encode).length) ++
        w.fields.flatMap RdataField.encode) =
    writeDomainName r.name ++ (recordHeader r.rtype.toU16 r.rclass.toU16 ttl
      (UInt16.ofNat r.rdata.writeTo.length) ++ r.rdata.writeTo)
  rw [hown, hw, ht, hc]

/-- Sections that are decoded as they were are written as they were. -/
theorem section_written {ws : List WireRecord} {rs : List ResourceRecord}
    (h : ws.map writtenWith = rs.map encodedWith) :
    (ws.map WireRecord.fold).flatMap WireRecord.bytes = rs.flatMap ResourceRecord.writeTo ∧
      ∀ ttl : UInt32, (ws.map fun w => w.fold.withTtl ttl).flatMap WireRecord.bytes =
        (rs.map fun r => { r with ttl := ttl }).flatMap ResourceRecord.writeTo := by
  constructor
  · have hown := congrArg (List.flatMap fun p => p.2 p.1) h
    rw [List.flatMap_map, List.flatMap_map] at hown
    rw [List.flatMap_map]
    exact hown
  · intro ttl
    have hany := congrArg (List.flatMap fun p => p.2 ttl) h
    rw [List.flatMap_map, List.flatMap_map] at hany
    rw [List.flatMap_map, List.flatMap_map]
    exact hany

/-- What the cache serves for a stable message without compressed names is the message, with
    questions and owners in lower case and the TTL of the answers replaced. -/
theorem toBytes_served {p : DnsPacket} {w : WireMessage} (hp : DnsPacket.parse b = .ok p)
    (hw : WireMessageAt rfcFullName b w) (hs : StableMessage w) (hf : DefinedFlags w.flags)
    (ttl : UInt32) : (withAnswerTtl p ttl).toBytes = (w.served ttl).bytes := by
  obtain ⟨qd, an, ns, ar, e₁, e₂, e₃, e₄, hb, hcount, h1, h2, h3, h4⟩ := hw
  obtain ⟨e', ⟨flags', hb', hheader⟩, hql, hal, hnl, hrl, e₁', e₂', e₃', hq, han, hns, har⟩ :=
    parse_ok.1 hp
  obtain ⟨hid, hflags, rfl, rfl, rfl, rfl⟩ := sixWords_inj (hb.unique hb' rfl)
  have hquestion : ∀ q ∈ w.questions, ∀ s q' e z, WireQuestionAt rfcFullName b s q e →
      QuestionAt afterZero b s q' z → e = z ∧ q.fold.bytes = q'.writeTo := by
    intro q hqm s q' e z hread hread'
    obtain ⟨t, hn, hrest⟩ := hread
    have hplain : WireQuestionAt plainName b s q e :=
      ⟨t, plainName_of_full hn (hs.questions q hqm), hrest⟩
    exact ⟨(hplain.decode hread').1, (hplain.decode hread').2.symm⟩
  have hrecord : ∀ ws : List WireRecord, (∀ w ∈ ws, StableRecord w) → ∀ w ∈ ws, ∀ s r e z,
      WireRecordAt rfcFullName b s w e → RecordAt afterZero b s r z →
      e = z ∧ writtenWith w = encodedWith r :=
    fun ws hws w hwm s r e z hread hread' => stable_record hread (hws w hwm) hread'
  obtain ⟨rfl, hqs⟩ := h1.map_eq (f := fun q => q.fold.bytes) (g := DnsQuestion.writeTo)
    hquestion hq (hcount.questions.trans hql.symm)
  obtain ⟨rfl, hans⟩ := h2.map_eq (hrecord _ hs.answers) han (hcount.answers.trans hal.symm)
  obtain ⟨rfl, hnss⟩ := h3.map_eq (hrecord _ hs.authorities) hns
    (hcount.authorities.trans hnl.symm)
  obtain ⟨-, hars⟩ := h4.map_eq (hrecord _ hs.additionals) har (hcount.additionals.trans hrl.symm)
  have hsix : (withAnswerTtl p ttl).countedHeader.writeTo =
      sixWords w.id w.flags (UInt16.ofNat w.questions.length) (UInt16.ofNat w.answers.length)
        (UInt16.ofNat w.authorities.length) (UInt16.ofNat w.additionals.length) := by
    have hkept : p.header.flags = w.flags := by
      rw [hheader, hflags]
      exact (hflags ▸ hf).kept _ _ _ _ _
    have hlen : (withAnswerTtl p ttl).answers.length = p.answers.length := List.length_map _
    rw [hid, ← hkept, hcount.questions, hcount.answers, hcount.authorities, hcount.additionals,
      ← hql, ← hal, ← hnl, ← hrl, ← hlen]
    rfl
  have hqs' : (w.questions.map WireQuestion.fold).flatMap WireQuestion.bytes =
      p.questions.flatMap DnsQuestion.writeTo := by
    rw [List.flatMap_map, List.flatMap_def, List.flatMap_def, hqs]
  unfold DnsPacket.toBytes WireMessage.bytes WireMessage.served
  rw [hsix]
  simp only [List.length_map, hqs', (section_written hans).2 ttl, (section_written hnss).1,
    (section_written hars).1]
  rfl

/-! ## Transparency -/

/-- What has to be left as it was: all but the ID, TTLs and the case of questions and owners. -/
def content (w : WireMessage) : WireMessage where
  id := 0
  flags := w.flags
  questions := w.questions.map WireQuestion.fold
  answers := w.answers.map fun r => r.fold.withTtl 0
  authorities := w.authorities.map fun r => r.fold.withTtl 0
  additionals := w.additionals.map fun r => r.fold.withTtl 0

theorem content_served (w : WireMessage) (ttl : UInt32) : content (w.served ttl) = content w := by
  have hq : ∀ q : WireQuestion, q.fold.fold = q.fold := fun q => by
    rw [WireQuestion.fold, WireQuestion.fold, foldLabels_idem]
  have hr : ∀ (r : WireRecord) (ttl : UInt32), (r.fold.withTtl ttl).fold.withTtl 0 =
      r.fold.withTtl 0 := fun r ttl => by
    unfold WireRecord.withTtl WireRecord.fold
    rw [foldLabels_idem]
  unfold content WireMessage.served
  simp only [List.map_map]
  congr 1
  · exact List.map_congr_left fun q _ => hq q
  · exact List.map_congr_left fun r _ => hr r ttl
  · exact List.map_congr_left fun r _ => hr r r.ttl
  · exact List.map_congr_left fun r _ => hr r r.ttl

/-- Whatever a conforming decoder reads in the message, if it is a response with defined flags,
    it reads the same content in what is served for it. -/
def Transparent (m hit : List UInt8) : Prop :=
  ∀ w, WireMessageAt rfcName m w → responseBit w.flags = true → DefinedFlags w.flags →
    ∃ w', WireMessageAt rfcName hit w' ∧ content w' = content w

/-- No name is compressed, and nothing is changed by decoding and encoding. -/
def Unaltered (m : List UInt8) : Prop := ∃ w, WireMessageAt rfcFullName m w ∧ StableMessage w

theorem transparent_of_unaltered {m : List UInt8} {p : DnsPacket} (hp : DnsPacket.parse m = .ok p)
    (h : Unaltered m) (ttl : UInt32) : Transparent m (withAnswerTtl p ttl).toBytes := by
  obtain ⟨w, hw, hs⟩ := h
  intro w' hw' hr hf
  have hlegal : ∀ {b}, ∀ {w}, WireMessageAt rfcFullName b w → WireMessageAt rfcName b w :=
    fun h => h.mono fun _ _ _ _ => rfcFullName.legal
  obtain rfl := hw'.unique rfcName_functional (hlegal hw)
  refine ⟨w'.served ttl, hlegal ?_, content_served w' ttl⟩
  rw [toBytes_served hp hw hs hf ttl]
  exact hw.served ttl

end VantaDns.Cache
