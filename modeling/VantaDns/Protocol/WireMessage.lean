/-
  RFC 1035 messages as a conforming decoder reads them, down to the labels of the names and
  the fields of RDATA.

  `WireMessageAt N b w` reads the message `w` in the bytes `b`; with `rfcName` for `N` names
  may be compressed wherever the format allows it, also inside RDATA, with `rfcFullName` no
  name is. A message has at most one reading (`WireMessageAt.unique`). What is read in full
  at one place is read where its bytes are written again (`WireMessage.read`).
-/
import VantaDns.Protocol.Compression
import VantaDns.Protocol.Wire

namespace VantaDns.Protocol

open Lib Lib.Decoder Lib.Utf8 Lib.Text Lib.Unicode

variable {b c : List UInt8} {s s' e e' limit limit' : Nat}

/-! ## Names -/

/-- Legal names: labels of at most 63 bytes, pointers backwards, at most 255 bytes in full. -/
def rfcName : LabelReader := fun b s ls e => (∃ k, RfcNameAt b s ls k e) ∧ (spell ls).length ≤ 255

/-- Legal names without a pointer. -/
def rfcFullName : LabelReader := fun b s ls e =>
  RfcNameAt b s ls 0 e ∧ (spell ls).length ≤ 255

theorem rfcFullName.legal {ls : List Label} (h : rfcFullName b s ls e) : rfcName b s ls e :=
  ⟨⟨0, h.1⟩, h.2⟩

theorem RfcNameAt.labels {ls : List Label} {k : Nat} (h : RfcNameAt b s ls k e) :
    ∀ l ∈ ls, 1 ≤ l.length ∧ l.length ≤ 63 := by
  induction h with
  | root => simp
  | label h1 h63 _ _ ih => exact List.forall_mem_cons.2 ⟨⟨h1, h63⟩, ih⟩
  | pointer _ _ _ _ ih => exact ih

theorem rfcName_functional : Functional rfcName := by
  intro b s ls ls' e e' h h'
  obtain ⟨⟨k, hn⟩, -⟩ := h
  obtain ⟨⟨k', hn'⟩, -⟩ := h'
  obtain ⟨z, hw, -, -⟩ := hn.walk
  obtain ⟨z', hw', -, -⟩ := hn'.walk
  obtain ⟨hls, -, he, -⟩ := hw.unique hw'
  exact ⟨hls, he⟩

/-- A name in full is its bytes. -/
theorem rfcFullName.bytes {ls : List Label} (h : rfcFullName b s ls e) :
    BytesAt b s (spell ls) ∧ e = s + (spell ls).length := h.1.bytes

/-- Labels that were read in full, in lower case or not, are read where they are written. -/
theorem rfcFullName.moved {ls : List Label} (h : rfcFullName b s ls e)
    (hc : BytesAt c s' (spell ls)) : rfcFullName c s' ls (s' + (spell ls).length) :=
  ⟨rfcNameAt_spell h.1.labels hc, h.2⟩

theorem rfcFullName.folded {ls : List Label} (h : rfcFullName b s ls e)
    (hc : BytesAt c s' (spell (foldLabels ls))) :
    rfcFullName c s' (foldLabels ls) (s' + (spell (foldLabels ls)).length) := by
  refine ⟨rfcNameAt_spell ?_ hc, by rw [length_spell_foldLabels]; exact h.2⟩
  intro l hl
  obtain ⟨l', hl', rfl⟩ := List.mem_map.1 hl
  rw [List.length_map]
  exact h.1.labels l' hl'

/-! ## RDATA -/

/-- A part of decompressed RDATA. -/
inductive RdataField where
  | bytes (raw : List UInt8)
  | name (labels : List Label)
  | strings (raws : List (List UInt8))
  deriving DecidableEq

/-- What stands in RDATA: so many bytes, a name, strings up to the end, or the rest. -/
inductive Segment where
  | bytes (n : Nat) | name | strings | rest
  deriving DecidableEq

/-- RFC 1035 §3.3: the types whose RDATA has names that may be compressed, and `TXT`. -/
def rdataLayout (rtype : UInt16) : List Segment :=
  match rtype with
  | 2 | 3 | 4 | 5 | 7 | 8 | 9 | 12 => [.name]
  | 6 => [.name, .name, .bytes 20]
  | 14 => [.name, .name]
  | 15 => [.bytes 2, .name]
  | 16 => [.strings]
  | _ => [.rest]

/-- The field with its names in full. -/
def RdataField.encode : RdataField → List UInt8
  | .bytes raw => raw
  | .name labels => spell labels
  | .strings raws => raws.flatMap counted

/-- The field of a segment at `s`, in RDATA that ends at `limit`. -/
inductive FieldAt (N : LabelReader) (b : List UInt8) (limit : Nat) :
    Segment → Nat → RdataField → Nat → Prop where
  | bytes {s : Nat} {raw : List UInt8} : BytesAt b s raw →
      FieldAt N b limit (.bytes raw.length) s (.bytes raw) (s + raw.length)
  | name {s e : Nat} {ls : List Label} : N b s ls e → FieldAt N b limit .name s (.name ls) e
  | strings {s : Nat} {raws : List (List UInt8)} : (∀ raw ∈ raws, raw.length < 256) →
      BytesAt b s (raws.flatMap counted) → s + (raws.flatMap counted).length = limit →
      FieldAt N b limit .strings s (.strings raws) limit
  | rest {s : Nat} {raw : List UInt8} : BytesAt b s raw → s + raw.length = limit →
      FieldAt N b limit .rest s (.bytes raw) limit

/-- The fields of RDATA from `s` to its end. -/
inductive FieldsAt (N : LabelReader) (b : List UInt8) (limit : Nat) :
    List Segment → Nat → List RdataField → Prop where
  | nil : FieldsAt N b limit [] limit []
  | cons {s t : Nat} {g : Segment} {gs : List Segment} {f : RdataField} {fs : List RdataField} :
      FieldAt N b limit g s f t → FieldsAt N b limit gs t fs →
      FieldsAt N b limit (g :: gs) s (f :: fs)

theorem FieldAt.mono {N N' : LabelReader} (hN : ∀ b s ls e, N b s ls e → N' b s ls e) {g : Segment}
    {f : RdataField} (h : FieldAt N b limit g s f e) : FieldAt N' b limit g s f e := by
  cases h with
  | bytes hb => exact .bytes hb
  | name hn => exact .name (hN _ _ _ _ hn)
  | strings hl hb he => exact .strings hl hb he
  | rest hb he => exact .rest hb he

theorem FieldsAt.mono {N N' : LabelReader} (hN : ∀ b s ls e, N b s ls e → N' b s ls e)
    {gs : List Segment} {fs : List RdataField} (h : FieldsAt N b limit gs s fs) :
    FieldsAt N' b limit gs s fs := by
  induction h with
  | nil => exact .nil
  | cons h1 _ ih => exact .cons (h1.mono hN) ih

theorem counted_inj {raws raws' : List (List UInt8)} (hl : ∀ raw ∈ raws, raw.length < 256)
    (hl' : ∀ raw ∈ raws', raw.length < 256) (h : raws.flatMap counted = raws'.flatMap counted) :
    raws = raws' := by
  induction raws generalizing raws' with
  | nil =>
    cases raws' with
    | nil => rfl
    | cons raw raws' => simp [counted] at h
  | cons raw raws ih =>
    cases raws' with
    | nil => simp [counted] at h
    | cons raw' raws' =>
      simp only [List.flatMap_cons, counted, List.cons_append, List.cons.injEq] at h
      obtain ⟨hbyte, htail⟩ := h
      have hlen := congrArg UInt8.toNat hbyte
      rw [toNat_ofNat_length (hl raw List.mem_cons_self),
        toNat_ofNat_length (hl' raw' List.mem_cons_self)] at hlen
      obtain ⟨rfl, hrest⟩ := List.append_inj htail hlen
      rw [ih (fun r hr => hl r (List.mem_cons_of_mem raw hr))
        (fun r hr => hl' r (List.mem_cons_of_mem raw hr)) hrest]

theorem FieldAt.unique {N : LabelReader} (hN : Functional N) {g : Segment} {f f' : RdataField}
    (h : FieldAt N b limit g s f e) (h' : FieldAt N b limit g s f' e') : f = f' ∧ e = e' := by
  cases h with
  | bytes hb =>
    generalize hn : Segment.bytes _ = g at h'
    cases h' with
    | bytes hb' =>
      have hlen := Segment.bytes.inj hn
      obtain rfl := hb.unique hb' hlen
      exact ⟨rfl, rfl⟩
    | _ => cases hn
  | name hn =>
    cases h' with
    | name hn' =>
      obtain ⟨rfl, rfl⟩ := hN _ _ _ _ _ _ hn hn'
      exact ⟨rfl, rfl⟩
  | strings hl hb he =>
    cases h' with
    | strings hl' hb' he' =>
      obtain rfl := counted_inj hl hl' (hb.unique hb' (by omega))
      exact ⟨rfl, rfl⟩
  | rest hb he =>
    cases h' with
    | rest hb' he' =>
      obtain rfl := hb.unique hb' (by omega)
      exact ⟨rfl, rfl⟩

theorem FieldsAt.unique {N : LabelReader} (hN : Functional N) {gs : List Segment}
    {fs fs' : List RdataField} (h : FieldsAt N b limit gs s fs) (h' : FieldsAt N b limit gs s fs') :
    fs = fs' := by
  induction h generalizing fs' with
  | nil => cases h'; rfl
  | cons h1 _ ih =>
    cases h' with
    | cons h1' h2' =>
      obtain ⟨rfl, rfl⟩ := h1.unique hN h1'
      rw [ih h2']

/-- Fields in full are their bytes. -/
theorem FieldsAt.bytes {gs : List Segment} {fs : List RdataField}
    (h : FieldsAt rfcFullName b limit gs s fs) :
    BytesAt b s (fs.flatMap RdataField.encode) ∧ s + (fs.flatMap RdataField.encode).length = limit := by
  induction h with
  | nil => exact ⟨bytesAt_nil b _, rfl⟩
  | @cons s t g gs f fs h1 _ ih =>
    have hf : BytesAt b s f.encode ∧ s + f.encode.length = t := by
      cases h1 with
      | bytes hb => exact ⟨hb, rfl⟩
      | name hn => exact ⟨hn.bytes.1, hn.bytes.2.symm⟩
      | strings _ hb he => exact ⟨hb, he⟩
      | rest hb he => exact ⟨hb, he⟩
    obtain ⟨hb, rfl⟩ := hf
    rw [List.flatMap_cons, bytesAt_append, List.length_append, ← Nat.add_assoc]
    exact ⟨⟨hb, ih.1⟩, ih.2⟩

/-- Fields that were read in full are read wherever their bytes stand. -/
theorem FieldsAt.moved {gs : List Segment} {fs : List RdataField}
    (h : FieldsAt rfcFullName b limit gs s fs) (hc : BytesAt c s' (fs.flatMap RdataField.encode))
    (hlimit : s' + (fs.flatMap RdataField.encode).length = limit') :
    FieldsAt rfcFullName c limit' gs s' fs := by
  induction h generalizing s' with
  | nil =>
    obtain rfl : s' = limit' := hlimit
    exact .nil
  | @cons s t g gs f fs h1 h2 ih =>
    rw [List.flatMap_cons, bytesAt_append] at hc
    rw [List.flatMap_cons, List.length_append, ← Nat.add_assoc] at hlimit
    refine .cons ?_ (ih hc.2 hlimit)
    -- a segment up to the end of RDATA leaves nothing to the segments behind it
    have hlast : t = limit → s' + f.encode.length = limit' := by
      rintro rfl
      have := h2.bytes.2
      omega
    cases h1 with
    | bytes hb => exact .bytes hc.1
    | name hn => exact .name (hn.moved hc.1)
    | strings hl hb he =>
      have hend := hlast rfl
      rw [hend]
      exact .strings hl hc.1 hend
    | rest hb he =>
      have hend := hlast rfl
      rw [hend]
      exact .rest hc.1 hend

/-! ## Records -/

structure WireRecord where
  owner : List Label
  rtype : UInt16
  rclass : UInt16
  ttl : UInt32
  fields : List RdataField
  deriving DecidableEq

/-- The record with its owner in lower case. -/
def WireRecord.fold (r : WireRecord) : WireRecord := { r with owner := foldLabels r.owner }

def WireRecord.withTtl (r : WireRecord) (ttl : UInt32) : WireRecord := { r with ttl := ttl }

/-- The record with its names in full. -/
def WireRecord.bytes (r : WireRecord) : List UInt8 :=
  spell r.owner ++ (recordHeader r.rtype r.rclass r.ttl
    (UInt16.ofNat (r.fields.flatMap RdataField.encode).length) ++ r.fields.flatMap RdataField.encode)

def WireRecordAt (N : LabelReader) (b : List UInt8) (s : Nat) (r : WireRecord) (e : Nat) : Prop :=
  ∃ t rdlength, N b s r.owner t ∧
    BytesAt b t (recordHeader r.rtype r.rclass r.ttl rdlength) ∧ e = t + 10 + rdlength.toNat ∧
    e ≤ b.length ∧ FieldsAt N b e (rdataLayout r.rtype) (t + 10) r.fields

theorem WireRecordAt.mono {N N' : LabelReader} (hN : ∀ b s ls e, N b s ls e → N' b s ls e)
    {r : WireRecord} (h : WireRecordAt N b s r e) : WireRecordAt N' b s r e := by
  obtain ⟨t, rdlength, hn, hb, he, hle, hf⟩ := h
  exact ⟨t, rdlength, hN _ _ _ _ hn, hb, he, hle, hf.mono hN⟩

theorem recordHeader_inj {rtype rtype' rclass rclass' : UInt16} {ttl ttl' : UInt32}
    {rdlength rdlength' : UInt16}
    (h : recordHeader rtype rclass ttl rdlength = recordHeader rtype' rclass' ttl' rdlength') :
    rtype = rtype' ∧ rclass = rclass' ∧ ttl = ttl' ∧ rdlength = rdlength' := by
  unfold recordHeader at h
  obtain ⟨h, h4⟩ := List.append_inj h rfl
  obtain ⟨h, h3⟩ := List.append_inj h rfl
  obtain ⟨h1, h2⟩ := List.append_inj h rfl
  exact ⟨beU16_inj h1, beU16_inj h2, beU32_inj h3, beU16_inj h4⟩

theorem WireRecordAt.unique {N : LabelReader} (hN : Functional N) {r r' : WireRecord}
    (h : WireRecordAt N b s r e) (h' : WireRecordAt N b s r' e') : r = r' ∧ e = e' := by
  obtain ⟨t, rdlength, hn, hb, rfl, -, hf⟩ := h
  obtain ⟨t', rdlength', hn', hb', rfl, -, hf'⟩ := h'
  obtain ⟨hown, rfl⟩ := hN _ _ _ _ _ _ hn hn'
  obtain ⟨ht, hc, httl, rfl⟩ := recordHeader_inj (hb.unique hb' rfl)
  rw [ht] at hf
  have hfields := hf.unique hN hf'
  obtain ⟨owner, rtype, rclass, ttl, fields⟩ := r
  obtain ⟨owner', rtype', rclass', ttl', fields'⟩ := r'
  refine ⟨?_, rfl⟩
  rw [WireRecord.mk.injEq]
  exact ⟨hown, ht, hc, httl, hfields⟩

/-- A record that was read in full is read where it is written, in lower case and with any
    TTL. -/
theorem WireRecordAt.moved {r : WireRecord} (h : WireRecordAt rfcFullName b s r e) (ttl : UInt32)
    (hc : BytesAt c s' (r.fold.withTtl ttl).bytes) :
    WireRecordAt rfcFullName c s' (r.fold.withTtl ttl)
      (s' + (r.fold.withTtl ttl).bytes.length) := by
  obtain ⟨t, rdlength, hn, -, rfl, -, hf⟩ := h
  have hlen : (r.fields.flatMap RdataField.encode).length = rdlength.toNat := by
    have := hf.bytes.2
    omega
  have hrd : UInt16.ofNat (r.fields.flatMap RdataField.encode).length = rdlength := by
    rw [hlen, UInt16.ofNat_toNat]
  unfold WireRecord.bytes at hc ⊢
  have hfields : (r.fold.withTtl ttl).fields = r.fields := rfl
  rw [hfields, hrd] at hc ⊢
  rw [bytesAt_append, bytesAt_append, length_recordHeader] at hc
  obtain ⟨hown, hhead, hdata⟩ := hc
  have hend : s' + (spell (foldLabels r.owner)).length + 10 + (r.fields.flatMap RdataField.encode).length =
      s' + (spell (r.fold.withTtl ttl).owner ++ (recordHeader (r.fold.withTtl ttl).rtype
        (r.fold.withTtl ttl).rclass (r.fold.withTtl ttl).ttl rdlength ++
          r.fields.flatMap RdataField.encode)).length := by
    rw [List.length_append, List.length_append, length_recordHeader]
    show _ = s' + ((spell (foldLabels r.owner)).length + _)
    omega
  rw [← hend]
  have hle := hhead.length_le
  have hle' := hdata.length_le
  rw [length_recordHeader] at hle
  refine ⟨_, rdlength, hn.folded hown, hhead, by rw [hlen], ?_, hf.moved hdata rfl⟩
  show s' + (spell (foldLabels r.owner)).length + 10 + _ ≤ _
  have hown' : (r.fold.withTtl ttl).owner = foldLabels r.owner := rfl
  rw [hown'] at hle hle'
  omega

theorem WireQuestionAt.moved {q : WireQuestion} (h : WireQuestionAt rfcFullName b s q e)
    (hc : BytesAt c s' q.fold.bytes) :
    WireQuestionAt rfcFullName c s' q.fold (s' + q.fold.bytes.length) := by
  obtain ⟨t, hn, -, -⟩ := h
  rw [WireQuestion.bytes, bytesAt_append] at hc
  refine ⟨_, hn.folded hc.1, hc.2, ?_⟩
  rw [WireQuestion.bytes, List.length_append, ← Nat.add_assoc]
  rfl

/-! ## Messages -/

structure WireMessage where
  id : UInt16
  flags : UInt16
  questions : List WireQuestion
  answers : List WireRecord
  authorities : List WireRecord
  additionals : List WireRecord
  deriving DecidableEq

/-- The twelve bytes in front. -/
def sixWords (id flags qdcount ancount nscount arcount : UInt16) : List UInt8 :=
  beU16 id ++ beU16 flags ++ beU16 qdcount ++ beU16 ancount ++ beU16 nscount ++ beU16 arcount

@[simp] theorem length_sixWords (id flags qdcount ancount nscount arcount : UInt16) :
    (sixWords id flags qdcount ancount nscount arcount).length = 12 := rfl

/-- The four counts are the lengths of the sections. -/
structure WireMessage.Counted (w : WireMessage) (qdcount ancount nscount arcount : UInt16) :
    Prop where
  questions : w.questions.length = qdcount.toNat
  answers : w.answers.length = ancount.toNat
  authorities : w.authorities.length = nscount.toNat
  additionals : w.additionals.length = arcount.toNat

def WireMessageAt (N : LabelReader) (b : List UInt8) (w : WireMessage) : Prop :=
  ∃ qdcount ancount nscount arcount e₁ e₂ e₃ e₄,
    BytesAt b 0 (sixWords w.id w.flags qdcount ancount nscount arcount) ∧
    w.Counted qdcount ancount nscount arcount ∧
    Chain (WireQuestionAt N b) 12 w.questions e₁ ∧ Chain (WireRecordAt N b) e₁ w.answers e₂ ∧
    Chain (WireRecordAt N b) e₂ w.authorities e₃ ∧ Chain (WireRecordAt N b) e₃ w.additionals e₄

theorem WireMessageAt.mono {N N' : LabelReader} (hN : ∀ b s ls e, N b s ls e → N' b s ls e)
    {w : WireMessage} (h : WireMessageAt N b w) : WireMessageAt N' b w := by
  obtain ⟨qd, an, ns, ar, e₁, e₂, e₃, e₄, hb, hc, h1, h2, h3, h4⟩ := h
  exact ⟨qd, an, ns, ar, e₁, e₂, e₃, e₄, hb, hc, h1.mono fun _ _ _ => WireQuestionAt.mono hN,
    h2.mono fun _ _ _ => WireRecordAt.mono hN, h3.mono fun _ _ _ => WireRecordAt.mono hN,
    h4.mono fun _ _ _ => WireRecordAt.mono hN⟩

theorem sixWords_inj {id id' flags flags' qd qd' an an' ns ns' ar ar' : UInt16}
    (h : sixWords id flags qd an ns ar = sixWords id' flags' qd' an' ns' ar') :
    id = id' ∧ flags = flags' ∧ qd = qd' ∧ an = an' ∧ ns = ns' ∧ ar = ar' := by
  unfold sixWords at h
  obtain ⟨h, h6⟩ := List.append_inj h rfl
  obtain ⟨h, h5⟩ := List.append_inj h rfl
  obtain ⟨h, h4⟩ := List.append_inj h rfl
  obtain ⟨h, h3⟩ := List.append_inj h rfl
  obtain ⟨h1, h2⟩ := List.append_inj h rfl
  exact ⟨beU16_inj h1, beU16_inj h2, beU16_inj h3, beU16_inj h4, beU16_inj h5, beU16_inj h6⟩

/-- A message has at most one reading. -/
theorem WireMessageAt.unique {N : LabelReader} (hN : Functional N) {w w' : WireMessage}
    (h : WireMessageAt N b w) (h' : WireMessageAt N b w') : w = w' := by
  obtain ⟨qd, an, ns, ar, e₁, e₂, e₃, e₄, hb, hc, h1, h2, h3, h4⟩ := h
  obtain ⟨qd', an', ns', ar', e₁', e₂', e₃', e₄', hb', hc', h1', h2', h3', h4'⟩ := h'
  obtain ⟨hid, hflags, rfl, rfl, rfl, rfl⟩ := sixWords_inj (hb.unique hb' rfl)
  have hrec : ∀ s r r' e e', WireRecordAt N b s r e → WireRecordAt N b s r' e' → r = r' ∧ e = e' :=
    fun _ _ _ _ _ hr hr' => hr.unique hN hr'
  obtain ⟨hq, rfl⟩ := h1.unique (fun _ _ _ _ _ hr hr' => hr.unique hN hr') h1'
    (hc.questions.trans hc'.questions.symm)
  obtain ⟨han, rfl⟩ := h2.unique hrec h2' (hc.answers.trans hc'.answers.symm)
  obtain ⟨hns, rfl⟩ := h3.unique hrec h3' (hc.authorities.trans hc'.authorities.symm)
  obtain ⟨har, -⟩ := h4.unique hrec h4' (hc.additionals.trans hc'.additionals.symm)
  obtain ⟨id, flags, qs, ans, nss, ars⟩ := w
  obtain ⟨id', flags', qs', ans', nss', ars'⟩ := w'
  rw [WireMessage.mk.injEq]
  exact ⟨hid, hflags, hq, han, hns, har⟩

/-- The message with its names in full. -/
def WireMessage.bytes (w : WireMessage) : List UInt8 :=
  sixWords w.id w.flags (UInt16.ofNat w.questions.length) (UInt16.ofNat w.answers.length)
      (UInt16.ofNat w.authorities.length) (UInt16.ofNat w.additionals.length) ++
    w.questions.flatMap WireQuestion.bytes ++ w.answers.flatMap WireRecord.bytes ++
    w.authorities.flatMap WireRecord.bytes ++ w.additionals.flatMap WireRecord.bytes

/-- The message with questions and owners in lower case and the TTL of its answers replaced. -/
def WireMessage.served (w : WireMessage) (ttl : UInt32) : WireMessage where
  id := w.id
  flags := w.flags
  questions := w.questions.map WireQuestion.fold
  answers := w.answers.map fun r => r.fold.withTtl ttl
  authorities := w.authorities.map WireRecord.fold
  additionals := w.additionals.map WireRecord.fold

theorem questions_moved {qs : List WireQuestion} (h : Chain (WireQuestionAt rfcFullName b) s qs e)
    (hc : BytesAt c s' ((qs.map WireQuestion.fold).flatMap WireQuestion.bytes)) :
    Chain (WireQuestionAt rfcFullName c) s' (qs.map WireQuestion.fold)
      (s' + ((qs.map WireQuestion.fold).flatMap WireQuestion.bytes).length) := by
  refine Chain.of_written ?_ hc
  intro q hq t hb
  obtain ⟨q', hq', rfl⟩ := List.mem_map.1 hq
  obtain ⟨_, _, hread⟩ := h.exists_of_mem hq'
  exact hread.moved hb

theorem records_moved {rs : List WireRecord} {g : WireRecord → UInt32}
    (h : Chain (WireRecordAt rfcFullName b) s rs e)
    (hc : BytesAt c s' ((rs.map fun r => r.fold.withTtl (g r)).flatMap WireRecord.bytes)) :
    Chain (WireRecordAt rfcFullName c) s' (rs.map fun r => r.fold.withTtl (g r))
      (s' + ((rs.map fun r => r.fold.withTtl (g r)).flatMap WireRecord.bytes).length) := by
  refine Chain.of_written ?_ hc
  intro r hr t hb
  obtain ⟨r', hr', rfl⟩ := List.mem_map.1 hr
  obtain ⟨_, _, hrec⟩ := h.exists_of_mem hr'
  exact hrec.moved (g r') hb

/-- A message that was read in full is read where it is served. -/
theorem WireMessageAt.served {w : WireMessage} (h : WireMessageAt rfcFullName b w) (ttl : UInt32) :
    WireMessageAt rfcFullName (w.served ttl).bytes (w.served ttl) := by
  obtain ⟨qd, an, ns, ar, e₁, e₂, e₃, e₄, -, hcount, h1, h2, h3, h4⟩ := h
  have hb : BytesAt (w.served ttl).bytes 0 (w.served ttl).bytes := List.prefix_rfl
  conv at hb => rhs; rw [WireMessage.bytes]
  rw [bytesAt_append, bytesAt_append, bytesAt_append, bytesAt_append] at hb
  simp only [List.length_append, Nat.zero_add, length_sixWords] at hb
  obtain ⟨⟨⟨⟨hh, hq⟩, han⟩, hns⟩, har⟩ := hb
  have hlen : ∀ {n : Nat} {v : UInt16}, n = v.toNat → n = (UInt16.ofNat n).toNat := by
    rintro n v rfl
    rw [UInt16.ofNat_toNat]
  refine ⟨_, _, _, _, _, _, _, _, hh, ⟨?_, ?_, ?_, ?_⟩, questions_moved h1 hq,
    records_moved (g := fun _ => ttl) h2 han, records_moved (g := WireRecord.ttl) h3 hns,
    records_moved (g := WireRecord.ttl) h4 har⟩
  · exact hlen ((List.length_map _).trans hcount.questions)
  · exact hlen ((List.length_map _).trans hcount.answers)
  · exact hlen ((List.length_map _).trans hcount.authorities)
  · exact hlen ((List.length_map _).trans hcount.additionals)

end VantaDns.Protocol
