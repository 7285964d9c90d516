/-
  `to_bytes` and back.

  `EncodablePacket` are the packets whose names are dot-joined labels the format can hold
  and whose rdata is what the parser makes of its type. `packetAt_toBytes`: the encoding of
  such a packet is read as the packet itself.

  What the decoder accepts is wider. A label may hold dots, lower-casing may stretch it past
  191 bytes, replacement characters may stretch a `TXT` string past 255. `RestorablePacket`
  says what has to hold of a decoded packet for its encoding to be read as the same packet
  (`packetAt_toBytes_of_restorable`). Where it fails the encoding is read as something else
  (`restorable_of_packetAt_toBytes`), except that a component of a name whose length ends up
  as a pointer byte (`PointerLength`) sends the reader to another place of the message, where
  it may come across the missing text by chance.
-/
import VantaDns.Protocol.MessageWire

namespace VantaDns.Protocol

open Lib Lib.Decoder Lib.Utf8 Lib.Text Lib.Unicode

variable {b : List UInt8} {s e z : Nat}

/-! ## Names -/

/-- Dot-joined labels of 1 to 191 bytes without dots or upper-case letters, or nothing. -/
def EncodableName (n : Str) : Prop :=
  ∃ labels : List Str, n = joinDots labels ∧
    ∀ l ∈ labels, 1 ≤ byteLen l ∧ byteLen l ≤ 191 ∧ '.' ∉ l ∧ toLowercase l = l

/-- The parts between the dots are neither empty nor longer than 191 bytes. -/
def RestorableName (n : Str) : Prop :=
  n = [] ∨ ∀ l ∈ n.splitOn '.', 1 ≤ byteLen l ∧ byteLen l ≤ 191

/-- Some part between the dots has a length whose low byte is that of a pointer. -/
def PointerLengthName (n : Str) : Prop := ∃ l ∈ n.splitOn '.', 192 ≤ byteLen l % 256

instance (n : Str) : Decidable (RestorableName n) := inferInstanceAs (Decidable (_ ∨ _))

instance (n : Str) : Decidable (PointerLengthName n) :=
  inferInstanceAs (Decidable (∃ l ∈ _, _))

theorem settled_dot : Settled '.' := by decide

theorem settled_of_mem_nameText {ts : List Str} {c : Char} (hc : c ∈ nameText ts) : Settled c := by
  rcases mem_joinDots hc with rfl | ⟨l, hl, hcl⟩
  · exact settled_dot
  · obtain ⟨t, -, rfl⟩ := List.mem_map.1 hl
    exact toLowercase_settled t c hcl

theorem encodableName_of_restorable {n : Str} (hs : ∀ c ∈ n, Settled c) (h : RestorableName n) :
    EncodableName n := by
  rcases h with rfl | h
  · exact ⟨[], rfl, by simp⟩
  · refine ⟨n.splitOn '.', (joinDots_splitOn n).symm, ?_⟩
    intro l hl
    have hmem := mem_of_mem_splitOn hl
    have hlow := toLowercase_of_settled fun c hc => hs c (hmem.2 c hc)
    exact ⟨(h l hl).1, (h l hl).2, hmem.1, hlow⟩

/-- What `write_domain_name` writes for a name that is not only dots. -/
theorem writeDomainName_eq {n : Str} (h : trimEndMatches '.' n ≠ []) :
    writeDomainName n = spell (((trimEndMatches '.' n).splitOn '.').map encode) := by
  unfold writeDomainName spell
  rw [if_neg (by simpa using h), List.flatMap_map]
  rfl

theorem writeDomainName_dots {n : Str} (h : trimEndMatches '.' n = []) :
    writeDomainName n = [0] := by
  unfold writeDomainName
  rw [h]
  rfl

theorem writeDomainName_joinDots {labels : List Str} (h : ∀ l ∈ labels, l ≠ [] ∧ '.' ∉ l) :
    writeDomainName (joinDots labels) = spell (labels.map encode) := by
  have htrim := trimEndMatches_joinDots h
  cases labels with
  | nil => exact writeDomainName_dots htrim
  | cons l ls =>
    have hsplit := splitOn_joinDots (fun x hx => (h x hx).2) (List.cons_ne_nil l ls)
    have hne : joinDots (l :: ls) ≠ [] := by
      intro h0
      rw [h0, List.splitOn_nil, List.cons.injEq] at hsplit
      exact (h l List.mem_cons_self).1 hsplit.1.symm
    rw [writeDomainName_eq (htrim.symm ▸ hne), htrim, hsplit]

/-- An encodable name is read back, and reading resumes behind what was written. -/
theorem EncodableName.read {n : Str} (h : EncodableName n) (hb : BytesAt b s (writeDomainName n)) :
    afterZero.name b s n (s + (writeDomainName n).length) := by
  obtain ⟨labels, rfl, hl⟩ := h
  have hw := writeDomainName_joinDots fun l h => ⟨one_le_byteLen.1 (hl l h).1, (hl l h).2.2.1⟩
  have hlow : labels.map toLowercase = labels := by
    conv => rhs; rw [← List.map_id labels]
    exact List.map_congr_left fun l h => (hl l h).2.2.2
  rw [hw] at hb ⊢
  refine ⟨labels, 0, _, nameAt_spell ?_ hb, Nat.zero_le _, by rw [nameText, hlow]⟩
  intro l hmem
  obtain ⟨t, ht, rfl⟩ := List.mem_map.1 hmem
  have := hl t ht
  rw [length_encode]
  omega

/-- Reading what was written for the parts `comps` gives back these parts and no others, and
    they have the lengths of labels: a part that is longer or empty stops the reader short. -/
theorem comps_of_read {us comps : List Str} {rest : List Str} {k : Nat}
    (hn : NameAt b s (us.map encode) k e z) (hb : BytesAt b s (spell (comps.map encode)))
    (hc : ∀ l ∈ comps, '.' ∉ l ∧ (∀ c ∈ l, Settled c) ∧ byteLen l % 256 < 192)
    (hus : us.flatMap (fun u => (toLowercase u).splitOn '.') = comps ++ rest) :
    rest = [] ∧ ∀ l ∈ comps, 1 ≤ byteLen l ∧ byteLen l ≤ 191 := by
  induction comps generalizing us s k e with
  | nil =>
    have hnil : us = [] := by simpa using (hn.unique (.root hb)).1
    subst hnil
    simpa using hus.symm
  | cons l comps ih =>
    obtain ⟨hdot, hset, hlen⟩ := hc l List.mem_cons_self
    rw [List.map_cons, spell_cons, counted, List.cons_append, bytesAt_cons, bytesAt_append] at hb
    obtain ⟨hfirst, hbl, hrest⟩ := hb
    have hnat : (UInt8.ofNat (encode l).length).toNat = byteLen l % 256 := UInt8.toNat_ofNat'
    cases us with
    | nil => simp at hus
    | cons u us =>
      rw [List.map_cons] at hn
      cases hn with
      | label h0 hlt hbu hn =>
        rw [counted, bytesAt_cons] at hbu
        have hbyte := congrArg UInt8.toNat (bytesAt_head hbu.1 hfirst)
        rw [hnat, toNat_ofNat_length (by omega)] at hbyte
        have hle : (encode u).length ≤ (encode l).length := by
          rw [length_encode l]
          omega
        have hul := isPrefix_of_encode (List.prefix_of_prefix_length_le hbu.2 hbl hle)
        have hlow : toLowercase u = u := toLowercase_of_settled fun c hcu => hset c (hul.subset hcu)
        have hsplit : u.splitOn '.' = [u] := splitOn_of_not_mem fun h => hdot (hul.subset h)
        rw [List.flatMap_cons, hlow, hsplit, List.singleton_append, List.cons_append,
          List.cons.injEq] at hus
        obtain ⟨rfl, hus⟩ := hus
        rw [length_encode] at hbyte h0 hlt
        obtain ⟨hnil, hall⟩ := ih hn hrest (fun x hx => hc x (List.mem_cons_of_mem u hx)) hus
        refine ⟨hnil, ?_⟩
        intro x hx
        rcases List.mem_cons.1 hx with rfl | hx
        · omega
        · exact hall x hx
      | pointer hoff hp hn =>
        have hbyte := congrArg UInt8.toNat (bytesAt_head ((bytesAt_cons _ _ _ _).1 hp).1 hfirst)
        have hp192 := (pointerOffset_pointerBytes hoff).1
        rw [hnat] at hbyte
        omega

/-- A name that is read where it was written has its written form, unless one of its parts
    was written with the length byte of a pointer. -/
theorem restorableName_of_read {n : Str} (hn : afterZero.name b s n z)
    (hb : BytesAt b s (writeDomainName n)) (hp : ¬ PointerLengthName n) : RestorableName n := by
  obtain ⟨us, k, e, hn, -, rfl⟩ := hn
  by_cases htrim : trimEndMatches '.' (nameText us) = []
  · rw [writeDomainName_dots htrim] at hb
    have hnil : us = [] := by simpa using (hn.unique (.root hb)).1
    exact Or.inl (by rw [hnil]; rfl)
  · rcases eq_or_ne us [] with rfl | hne
    · exact Or.inl rfl
    obtain ⟨j, hj⟩ := exists_trimEndMatches '.' (nameText us)
    have hsplit : (nameText us).splitOn '.' =
        (trimEndMatches '.' (nameText us)).splitOn '.' ++ List.replicate j [] := by
      conv => lhs; rw [hj]
      exact splitOn_append_replicate _ '.' j
    have hparts : us.flatMap (fun u => (toLowercase u).splitOn '.') = (nameText us).splitOn '.' := by
      rw [nameText, splitOn_joinDots_flatMap (by simpa using hne), List.flatMap_map]
    rw [writeDomainName_eq htrim] at hb
    have hread := comps_of_read hn hb ?_ (hparts.trans hsplit)
    · rw [RestorableName, hsplit, hread.1, List.append_nil]
      exact Or.inr hread.2
    · intro l hl
      have hmem : l ∈ (nameText us).splitOn '.' := hsplit ▸ List.mem_append_left _ hl
      have hof := mem_of_mem_splitOn hmem
      refine ⟨hof.1, fun c hc => settled_of_mem_nameText (hof.2 c hc), ?_⟩
      by_contra hlen
      exact hp ⟨l, hmem, by omega⟩

theorem afterZero_name_unique {n n' : Str} {z' : Nat} (h : afterZero.name b s n z)
    (h' : afterZero.name b s n' z') : n = n' ∧ z = z' := by
  rw [← readDomainName_iff] at h h'
  rw [h] at h'
  cases h'
  exact ⟨rfl, rfl⟩

theorem settled_of_read {n : Str} (h : afterZero.name b s n z) : ∀ c ∈ n, Settled c := by
  obtain ⟨ts, _, _, -, -, rfl⟩ := h
  intro c hc
  exact settled_of_mem_nameText hc

/-- A restorable name that is read where it was written ends where the writing ended. -/
theorem RestorableName.read_end {n : Str} (h : RestorableName n) (hn : afterZero.name b s n z)
    (hb : BytesAt b s (writeDomainName n)) : z = s + (writeDomainName n).length :=
  (afterZero_name_unique hn ((encodableName_of_restorable (settled_of_read hn) h).read hb)).2

theorem length_spell_joinDots {labels : List Str} (hne : labels ≠ []) :
    (spell (labels.map encode)).length = byteLen (joinDots labels) + 2 := by
  induction labels with
  | nil => exact absurd rfl hne
  | cons l ls ih =>
    rw [List.map_cons, spell_cons, List.length_append, length_counted, length_encode]
    rcases eq_or_ne ls [] with rfl | hls
    · simp
    · have hdot : byteLen (l ++ '.' :: joinDots ls) = byteLen l + (1 + byteLen (joinDots ls)) := by
        rw [byteLen, encode_append, encode_cons, List.length_append, List.length_append]
        rfl
      rw [joinDots_cons hls, hdot, ih hls]
      omega

/-- A name takes a byte for each dot and label byte, one in front and the zero byte. -/
theorem EncodableName.length_write {n : Str} (h : EncodableName n) (hne : n ≠ []) :
    (writeDomainName n).length = byteLen n + 2 := by
  obtain ⟨labels, rfl, hl⟩ := h
  rw [writeDomainName_joinDots fun l h => ⟨one_le_byteLen.1 (hl l h).1, (hl l h).2.2.1⟩]
  apply length_spell_joinDots
  rintro rfl
  exact hne rfl

/-- Whether RDLENGTH of an `MX` record comes out as 3 or more. -/
theorem EncodableName.measured_mx {n : Str} (h : EncodableName n) :
    3 ≤ (2 + (writeDomainName n).length) % 65536 ↔ 3 ≤ (byteLen n + 4) % 65536 := by
  by_cases hne : n = []
  · subst hne
    exact iff_of_true (by decide) (by decide)
  · rw [h.length_write hne]
    omega

/-! ## Rdata -/

/-- The rdata is of the kind that the parser reads for the type. -/
def ResourceData.Fits (rtype : QueryType) : ResourceData → Prop
  | .A _ => rtype = .A
  | .AAAA _ => rtype = .AAAA
  | .CNAME _ => rtype = .CNAME
  | .MX _ _ => rtype = .MX
  | .TXT _ => rtype = .TXT
  | .Raw raw => KeepsRaw rtype raw.length

def ResourceData.names : ResourceData → List Str
  | .CNAME cname => [cname]
  | .MX _ exchange => [exchange]
  | _ => []

def ResourceData.strings : ResourceData → List Str
  | .TXT txts => txts
  | _ => []

/-- The number of bytes of strings with their length bytes. -/
def stringsLen (txts : List Str) : Nat := (txts.map fun txt => byteLen txt + 1).sum

/-- The lengths survive being written as a `u8` or a `u16`. An `MX` record has four bytes
    besides its name, and its RDLENGTH only has to come out as 3 or more. -/
def ResourceData.Measured : ResourceData → Prop
  | .MX _ exchange => 3 ≤ (byteLen exchange + 4) % 65536
  | .TXT txts => (∀ txt ∈ txts, byteLen txt ≤ 255) ∧ stringsLen txts ≤ 65535
  | .Raw raw => raw.length ≤ 65535
  | _ => True

theorem length_writeTo_txt (txts : List Str) :
    (ResourceData.writeTo (.TXT txts)).length = stringsLen txts := by
  rw [ResourceData.writeTo, List.length_flatMap]
  rfl

theorem txtsAt_written {txts : List Str} (hl : ∀ txt ∈ txts, byteLen txt ≤ 255)
    (hb : BytesAt b s (ResourceData.writeTo (.TXT txts))) :
    TxtsAt afterZero b (stringsLen txts) s txts (s + stringsLen txts) := by
  induction txts generalizing s with
  | nil => exact .done
  | cons t ts ih =>
    rw [ResourceData.writeTo, List.flatMap_cons, bytesAt_append] at hb
    have hbs : BytesAt b (s + 1 + (encode t).length) (ResourceData.writeTo (.TXT ts)) := by
      have hpos : s + 1 + (encode t).length = s + (UInt8.ofNat (byteLen t) :: encode t).length := by
        rw [List.length_cons]
        omega
      rw [hpos]
      exact hb.2
    have htail := ih (fun x hx => hl x (List.mem_cons_of_mem t hx)) hbs
    have hlt := hl t List.mem_cons_self
    have hlen : stringsLen (t :: ts) = byteLen t + 1 + stringsLen ts := by simp [stringsLen]
    have hn : stringsLen (t :: ts) - (1 + (encode t).length) = stringsLen ts := by
      rw [hlen, length_encode]
      omega
    have he : s + stringsLen (t :: ts) = s + 1 + (encode t).length + stringsLen ts := by
      rw [hlen, length_encode]
      omega
    rw [he]
    refine .string (by omega) (by rw [length_encode]; omega) hb.1 (fromUtf8Lossy_encode t).symm ?_
    rw [hn]
    exact htail

/-- `TXT` strings that are read where they were written kept their length bytes, and RDLENGTH
    is less than one string short of them. -/
theorem strings_of_read {n : Nat} {txts : List Str} (h : TxtsAt afterZero b n s txts e)
    (hb : BytesAt b s (ResourceData.writeTo (.TXT txts))) :
    (∀ txt ∈ txts, byteLen txt ≤ 255) ∧ e = s + stringsLen txts ∧ stringsLen txts < n + 256 ∧
      (n = 0 → stringsLen txts = 0) := by
  induction h with
  | done => simp [stringsLen]
  | @string n s e raw t ts h0 hl hraw ht _ ih =>
    rw [ResourceData.writeTo, List.flatMap_cons, bytesAt_append, bytesAt_cons] at hb
    obtain ⟨⟨hfirst, ht'⟩, hrest⟩ := hb
    rw [counted, bytesAt_cons] at hraw
    have hbyte := congrArg UInt8.toNat (bytesAt_head hraw.1 hfirst)
    rw [toNat_ofNat_length hl, UInt8.toNat_ofNat'] at hbyte
    have hpre : raw = (encode t).take raw.length := by
      apply List.prefix_iff_eq_take.1
      apply List.prefix_of_prefix_length_le hraw.2 ht'
      rw [length_encode]
      omega
    have hshort : byteLen t ≤ 255 := by
      by_contra hlong
      have hcut := fromUtf8Lossy_truncated (s := t) (n := raw.length) (by omega)
        (by rw [← hpre]; exact ht.symm)
      omega
    have hlen : raw.length = byteLen t := by omega
    rw [List.length_cons, length_encode] at hrest
    have hpos : s + 1 + raw.length = s + (byteLen t + 1) := by omega
    obtain ⟨hall, he, hlt, hzero⟩ := ih (hpos ▸ hrest)
    have hsum : stringsLen (t :: ts) = byteLen t + 1 + stringsLen ts := by simp [stringsLen]
    refine ⟨?_, by omega, by omega, by omega⟩
    intro x hx
    rcases List.mem_cons.1 hx with rfl | hx
    · exact hshort
    · exact hall x hx

/-! ## Records -/

def ResourceRecord.names (r : ResourceRecord) : List Str := r.name :: r.rdata.names

/-- The records whose encoding is read as the record itself. -/
structure ReadableRecord (r : ResourceRecord) : Prop where
  names : ∀ n ∈ r.names, EncodableName n
  rtype : r.rtype.Canonical
  rclass : r.rclass.Canonical
  fits : r.rdata.Fits r.rtype
  measured : r.rdata.Measured

theorem rdataAt_written {t : QueryType} {d : ResourceData} (hn : ∀ n ∈ d.names, EncodableName n)
    (hf : d.Fits t) (hm : d.Measured) (hb : BytesAt b s d.writeTo) :
    RdataAt afterZero b t (d.writeTo.length % 65536) s d (s + d.writeTo.length) := by
  cases d with
  | A ip =>
    obtain rfl := hf
    have hlen : (ResourceData.writeTo (.A ip)).length = 4 := ip.toList_length
    rw [hlen]
    exact .A hb
  | AAAA ip =>
    obtain rfl := hf
    have hlen : (ResourceData.writeTo (.AAAA ip)).length = 16 := ip.toList_length
    rw [hlen]
    exact .AAAA hb
  | CNAME cname =>
    obtain rfl := hf
    exact .CNAME ((hn cname (by simp [ResourceData.names])).read hb)
  | MX preference exchange =>
    obtain rfl := hf
    have hx := hn exchange (by simp [ResourceData.names])
    rw [ResourceData.writeTo, bytesAt_append, length_beU16] at hb
    rw [ResourceData.writeTo, List.length_append, length_beU16, ← Nat.add_assoc]
    exact .MX (hx.measured_mx.2 hm) hb.1 (hx.read hb.2)
  | TXT txts =>
    obtain rfl := hf
    rw [length_writeTo_txt, Nat.mod_eq_of_lt (Nat.lt_succ_of_le hm.2)]
    exact .TXT (txtsAt_written hm.1 hb)
  | Raw raw =>
    have hlen : (ResourceData.writeTo (.Raw raw)).length = raw.length := rfl
    rw [hlen, Nat.mod_eq_of_lt (Nat.lt_succ_of_le hm)]
    exact .Raw hf rfl hb

theorem rdata_of_read {t : QueryType} {d : ResourceData}
    (h : RdataAt afterZero b t (d.writeTo.length % 65536) s d e) (hb : BytesAt b s d.writeTo)
    (hp : ∀ n ∈ d.names, ¬ PointerLengthName n) :
    (∀ n ∈ d.names, RestorableName n) ∧ d.Measured ∧ e = s + d.writeTo.length := by
  generalize hlen : d.writeTo.length % 65536 = n at h
  cases h with
  | A h => exact ⟨by simp [ResourceData.names], trivial, by simp [ResourceData.writeTo]⟩
  | AAAA h => exact ⟨by simp [ResourceData.names], trivial, by simp [ResourceData.writeTo]⟩
  | @CNAME _ _ _ cname h =>
    have hr := restorableName_of_read h hb (hp cname (by simp [ResourceData.names]))
    exact ⟨by simpa [ResourceData.names] using hr, trivial, hr.read_end h hb⟩
  | @MX _ _ _ preference exchange h3 hpref h =>
    rw [ResourceData.writeTo, bytesAt_append, length_beU16] at hb
    have hr := restorableName_of_read h hb.2 (hp exchange (by simp [ResourceData.names]))
    rw [ResourceData.writeTo, List.length_append, length_beU16] at hlen ⊢
    refine ⟨by simpa [ResourceData.names] using hr, ?_, ?_⟩
    · have henc := encodableName_of_restorable (settled_of_read h) hr
      exact henc.measured_mx.1 (by omega)
    · rw [← Nat.add_assoc]
      exact hr.read_end h hb.2
  | TXT h =>
    rw [length_writeTo_txt] at hlen ⊢
    obtain ⟨hall, he, hlt, -⟩ := strings_of_read h hb
    exact ⟨by simp [ResourceData.names], ⟨hall, by omega⟩, he⟩
  | @Raw _ _ _ raw hk hl h =>
    have hraw : (ResourceData.writeTo (.Raw raw)).length = raw.length := rfl
    rw [hraw] at hlen ⊢
    have hle : raw.length ≤ 65535 := by omega
    exact ⟨by simp [ResourceData.names], hle, by rw [hl]⟩

theorem RdataAt.fits {C : Convention} {t : QueryType} {n : Nat} {d : ResourceData}
    (h : RdataAt C b t n s d e) : d.Fits t := by
  cases h with
  | Raw hk hl _ =>
    subst hl
    exact hk
  | _ => rfl

theorem ResourceRecord.writeTo_eq (r : ResourceRecord) :
    r.writeTo = writeDomainName r.name ++ (recordHeader r.rtype.toU16 r.rclass.toU16 r.ttl
      (UInt16.ofNat r.rdata.writeTo.length) ++ r.rdata.writeTo) := by
  simp [ResourceRecord.writeTo, recordHeader]

theorem ResourceRecord.length_writeTo (r : ResourceRecord) : r.writeTo.length =
    (writeDomainName r.name).length + 10 + r.rdata.writeTo.length := by
  rw [writeTo_eq, List.length_append, List.length_append, length_recordHeader, Nat.add_assoc]

/-- A readable record is read where it is written. -/
theorem ReadableRecord.read {r : ResourceRecord} (h : ReadableRecord r)
    (hb : BytesAt b s r.writeTo) : RecordAt afterZero b s r (s + r.writeTo.length) := by
  rw [r.length_writeTo, ← Nat.add_assoc, ← Nat.add_assoc]
  rw [r.writeTo_eq, bytesAt_append, bytesAt_append, length_recordHeader] at hb
  obtain ⟨hname, hheader, hdata⟩ := hb
  have hdl : (UInt16.ofNat r.rdata.writeTo.length).toNat = r.rdata.writeTo.length % 65536 :=
    UInt16.toNat_ofNat'
  have hle := hdata.length_le
  have hheader_le := hheader.length_le
  rw [length_recordHeader] at hheader_le
  have hmod := Nat.mod_le r.rdata.writeTo.length 65536
  have hread := rdataAt_written (fun n hn => h.names n (List.mem_cons_of_mem _ hn)) h.fits
    h.measured hdata
  refine ⟨_, _, (h.names r.name List.mem_cons_self).read hname, hheader, h.rtype, h.rclass, ?_,
    ?_, trivial⟩
  · rw [hdl]
    omega
  · rw [hdl]
    exact hread

/-- The names and lengths of a record that is read where it was written. -/
theorem record_of_read {r : ResourceRecord} (h : RecordAt afterZero b s r e)
    (hb : BytesAt b s r.writeTo) (hp : ∀ n ∈ r.names, ¬ PointerLengthName n) :
    ((∀ n ∈ r.names, RestorableName n) ∧ r.rdata.Measured) ∧ e = s + r.writeTo.length := by
  rw [r.length_writeTo]
  rw [r.writeTo_eq, bytesAt_append, bytesAt_append, length_recordHeader] at hb
  obtain ⟨hname, hheader, hdata⟩ := hb
  obtain ⟨t, rdlength, hn, hh, -, -, -, hd, -⟩ := h
  have hr := restorableName_of_read hn hname (hp r.name List.mem_cons_self)
  obtain rfl := hr.read_end hn hname
  have hdl : rdlength = UInt16.ofNat r.rdata.writeTo.length :=
    beU16_inj (List.append_inj_right' (hh.unique hheader rfl) rfl)
  rw [hdl, UInt16.toNat_ofNat'] at hd
  obtain ⟨hnames, hm, he⟩ := rdata_of_read hd hdata
    fun n hn => hp n (List.mem_cons_of_mem _ hn)
  refine ⟨⟨?_, hm⟩, by omega⟩
  intro n hmem
  rcases List.mem_cons.1 hmem with rfl | hmem
  · exact hr
  · exact hnames n hmem

/-! ## Packets -/

def DnsPacket.records (p : DnsPacket) : List ResourceRecord :=
  p.answers ++ p.authorities ++ p.additionals

theorem DnsPacket.sections_subset (p : DnsPacket) :
    p.answers ⊆ p.records ∧ p.authorities ⊆ p.records ∧ p.additionals ⊆ p.records := by
  unfold DnsPacket.records
  refine ⟨?_, ?_, ?_⟩ <;> intro r hr <;> simp [hr]

/-- All names of a packet: of questions, owners, aliases and exchanges. -/
def DnsPacket.names (p : DnsPacket) : List Str :=
  p.questions.map DnsQuestion.name ++ p.records.flatMap ResourceRecord.names

/-- The header counts are the lengths of the sections. -/
structure DnsPacket.Counted (p : DnsPacket) : Prop where
  questions : p.questions.length = p.header.qdcount.toNat
  answers : p.answers.length = p.header.ancount.toNat
  authorities : p.authorities.length = p.header.nscount.toNat
  additionals : p.additionals.length = p.header.arcount.toNat

theorem DnsPacket.Counted.countedHeader {p : DnsPacket} (h : p.Counted) :
    p.countedHeader = p.header := by
  unfold DnsPacket.countedHeader
  rw [h.questions, h.answers, h.authorities, h.additionals]
  simp

structure ReadableQuestion (q : DnsQuestion) : Prop where
  name : EncodableName q.name
  qtype : q.qtype.Canonical
  qclass : q.qclass.Canonical

theorem ReadableQuestion.read {q : DnsQuestion} (h : ReadableQuestion q)
    (hb : BytesAt b s q.writeTo) : QuestionAt afterZero b s q (s + q.writeTo.length) := by
  rw [DnsQuestion.writeTo, List.append_assoc] at hb ⊢
  rw [bytesAt_append] at hb
  refine ⟨_, h.name.read hb.1, hb.2, h.qtype, h.qclass, ?_⟩
  rw [List.length_append]
  rfl

theorem question_of_read {q : DnsQuestion} (h : QuestionAt afterZero b s q e)
    (hb : BytesAt b s q.writeTo) (hp : ¬ PointerLengthName q.name) :
    RestorableName q.name ∧ e = s + q.writeTo.length := by
  obtain ⟨t, hn, -, -, -, rfl⟩ := h
  rw [DnsQuestion.writeTo, List.append_assoc] at hb ⊢
  rw [bytesAt_append] at hb
  have hr := restorableName_of_read hn hb.1 hp
  obtain rfl := hr.read_end hn hb.1
  refine ⟨hr, ?_⟩
  rw [List.length_append]
  rfl

/-- The packets whose encoding is read as the packet itself. -/
structure ReadablePacket (p : DnsPacket) : Prop where
  counted : p.Counted
  questions : ∀ q ∈ p.questions, ReadableQuestion q
  records : ∀ r ∈ p.records, ReadableRecord r

theorem packetAt_toBytes {p : DnsPacket} (h : ReadablePacket p) :
    PacketAt afterZero p.toBytes p := by
  have hb : BytesAt p.toBytes 0 p.toBytes := List.prefix_rfl
  conv at hb => rhs; rw [DnsPacket.toBytes]
  rw [bytesAt_append, bytesAt_append, bytesAt_append, bytesAt_append] at hb
  simp only [List.length_append, Nat.zero_add, DnsHeader.length_writeTo] at hb
  obtain ⟨⟨⟨⟨hh, hq⟩, han⟩, hns⟩, har⟩ := hb
  rw [h.counted.countedHeader] at hh
  have hrec : ∀ rs, rs ⊆ p.records → ∀ r ∈ rs, ∀ s, BytesAt p.toBytes s r.writeTo →
      RecordAt afterZero p.toBytes s r (s + r.writeTo.length) :=
    fun rs hrs r hr s => (h.records r (hrs hr)).read
  obtain ⟨h1, h2, h3⟩ := p.sections_subset
  exact ⟨_, headerAt_writeTo hh, h.counted.questions, h.counted.answers, h.counted.authorities,
    h.counted.additionals, _, _, _,
    Chain.of_written (fun q hq s => (h.questions q hq).read) hq,
    Chain.of_written (hrec _ h1) han, Chain.of_written (hrec _ h2) hns,
    Chain.of_written (hrec _ h3) har⟩

/-- What a decoded packet needs for its encoding to be read as the same packet. -/
structure RestorablePacket (p : DnsPacket) : Prop where
  names : ∀ n ∈ p.names, RestorableName n
  measured : ∀ r ∈ p.records, r.rdata.Measured

/-- Some part of a name is written with the length byte of a pointer. -/
def PointerLength (p : DnsPacket) : Prop := ∃ n ∈ p.names, PointerLengthName n

theorem DnsPacket.question_name_mem {p : DnsPacket} {q : DnsQuestion} (hq : q ∈ p.questions) :
    q.name ∈ p.names := List.mem_append_left _ (List.mem_map_of_mem hq)

theorem DnsPacket.record_name_mem {p : DnsPacket} {r : ResourceRecord} (hr : r ∈ p.records)
    {n : Str} (hn : n ∈ r.names) : n ∈ p.names :=
  List.mem_append_right _ (List.mem_flatMap.2 ⟨r, hr, hn⟩)

theorem RdataAt.names_settled {t : QueryType} {m : Nat} {d : ResourceData}
    (h : RdataAt afterZero b t m s d e) : ∀ n ∈ d.names, ∀ c ∈ n, Settled c := by
  intro n hn
  cases h with
  | CNAME h =>
    obtain rfl := List.mem_singleton.1 hn
    exact settled_of_read h
  | MX _ _ h =>
    obtain rfl := List.mem_singleton.1 hn
    exact settled_of_read h
  | _ => simp [ResourceData.names] at hn

theorem RecordAt.names_settled {r : ResourceRecord} (h : RecordAt afterZero b s r e) :
    ∀ n ∈ r.names, ∀ c ∈ n, Settled c := by
  obtain ⟨_, _, hname, -, -, -, -, hd, -⟩ := h
  intro n hn
  rcases List.mem_cons.1 hn with rfl | hn
  · exact settled_of_read hname
  · exact hd.names_settled n hn

theorem PacketAt.exists_record {C : Convention} {p : DnsPacket} (h : PacketAt C b p)
    {r : ResourceRecord} (hr : r ∈ p.records) : ∃ s e, RecordAt C b s r e := by
  obtain ⟨_, -, -, -, -, -, _, _, _, -, h1, h2, h3⟩ := h
  rcases List.mem_append.1 hr with hr | hr
  · rcases List.mem_append.1 hr with hr | hr
    · exact h1.exists_of_mem hr
    · exact h2.exists_of_mem hr
  · exact h3.exists_of_mem hr

theorem readable_of_restorable {p : DnsPacket} (h : PacketAt afterZero b p)
    (hr : RestorablePacket p) : ReadablePacket p := by
  refine ⟨?_, ?_, ?_⟩
  · obtain ⟨_, -, h1, h2, h3, h4, -⟩ := h
    exact ⟨h1, h2, h3, h4⟩
  · intro q hq
    obtain ⟨_, -, -, -, -, -, _, _, _, hqs, -⟩ := h
    obtain ⟨_, _, _, hn, -, ht, hc, -⟩ := hqs.exists_of_mem hq
    have hname := hr.names q.name (DnsPacket.question_name_mem hq)
    exact ⟨encodableName_of_restorable (settled_of_read hn) hname, ht, hc⟩
  · intro r hmem
    obtain ⟨s, e, hrec⟩ := h.exists_record hmem
    have hset := hrec.names_settled
    obtain ⟨_, _, -, -, ht, hc, -, hd, -⟩ := hrec
    refine ⟨?_, ht, hc, hd.fits, hr.measured r hmem⟩
    intro n hn
    exact encodableName_of_restorable (hset n hn) (hr.names n (DnsPacket.record_name_mem hmem hn))

/-- The encoding of a restorable packet is read as that packet. -/
theorem packetAt_toBytes_of_restorable {p : DnsPacket} (h : PacketAt afterZero b p)
    (hr : RestorablePacket p) : PacketAt afterZero p.toBytes p :=
  packetAt_toBytes (readable_of_restorable h hr)

/-- Only the encodings of restorable packets are read as the packets themselves, where no
    length byte is that of a pointer. -/
theorem restorable_of_packetAt_toBytes {p : DnsPacket} (h : PacketAt afterZero p.toBytes p)
    (hp : ¬ PointerLength p) : RestorablePacket p := by
  obtain ⟨e, -, -, -, -, -, e₁, e₂, e₃, hq, han, hns, har⟩ := h
  have hb : BytesAt p.toBytes 0 p.toBytes := List.prefix_rfl
  conv at hb => rhs; rw [DnsPacket.toBytes]
  rw [bytesAt_append, bytesAt_append, bytesAt_append, bytesAt_append] at hb
  simp only [List.length_append, Nat.zero_add, DnsHeader.length_writeTo, ← Nat.add_assoc] at hb
  obtain ⟨⟨⟨⟨-, bq⟩, ban⟩, bns⟩, bar⟩ := hb
  have hrec : ∀ rs, rs ⊆ p.records → ∀ r ∈ rs, ∀ s e, RecordAt afterZero p.toBytes s r e →
      BytesAt p.toBytes s r.writeTo →
      ((∀ n ∈ r.names, RestorableName n) ∧ r.rdata.Measured) ∧ e = s + r.writeTo.length := by
    intro rs hrs r hr s e h hb
    exact record_of_read h hb fun n hn hl => hp ⟨n, DnsPacket.record_name_mem (hrs hr) hn, hl⟩
  obtain ⟨s1, s2, s3⟩ := p.sections_subset
  obtain ⟨gq, rfl⟩ := hq.written (fun q hq s e h hb => question_of_read h hb
    fun hl => hp ⟨q.name, DnsPacket.question_name_mem hq, hl⟩) bq
  obtain ⟨gan, rfl⟩ := han.written (hrec _ s1) ban
  obtain ⟨gns, rfl⟩ := hns.written (hrec _ s2) bns
  obtain ⟨gar, -⟩ := har.written (hrec _ s3) bar
  have grec : ∀ r ∈ p.records, (∀ n ∈ r.names, RestorableName n) ∧ r.rdata.Measured := by
    intro r hr
    rcases List.mem_append.1 hr with hr | hr
    · exact (List.mem_append.1 hr).elim (gan r) (gns r)
    · exact gar r hr
  refine ⟨?_, fun r hr => (grec r hr).2⟩
  intro n hn
  rcases List.mem_append.1 hn with hn | hn
  · obtain ⟨q, hq, rfl⟩ := List.mem_map.1 hn
    exact gq q hq
  · obtain ⟨r, hr, hn⟩ := List.mem_flatMap.1 hn
    exact (grec r hr).1 n hn

/-! ## Decoding what was encoded -/

/-- Records with names in written form, rdata of the parser's kind for the type, strings of at
    most 255 bytes and RDATA of at most 65535. -/
structure EncodableRecord (r : ResourceRecord) : Prop where
  names : ∀ n ∈ r.names, EncodableName n
  rtype : r.rtype.Canonical
  rclass : r.rclass.Canonical
  fits : r.rdata.Fits r.rtype
  strings : ∀ txt ∈ r.rdata.strings, byteLen txt ≤ 255
  rdlength : r.rdata.writeTo.length ≤ 65535

structure EncodablePacket (p : DnsPacket) : Prop where
  counted : p.Counted
  questions : ∀ q ∈ p.questions, ReadableQuestion q
  records : ∀ r ∈ p.records, EncodableRecord r

theorem EncodableRecord.readable {r : ResourceRecord} (h : EncodableRecord r) :
    ReadableRecord r := by
  refine ⟨h.names, h.rtype, h.rclass, h.fits, ?_⟩
  have hlen := h.rdlength
  have hstrings := h.strings
  have hnames := h.names
  unfold ResourceRecord.names at hnames
  cases hd : r.rdata with
  | MX preference exchange =>
    rw [hd] at hlen hnames
    rw [ResourceData.writeTo, List.length_append, length_beU16] at hlen
    have hx : EncodableName exchange := hnames exchange (by simp [ResourceData.names])
    by_cases hne : exchange = []
    · subst hne
      show 3 ≤ 4 % 65536
      decide
    · rw [hx.length_write hne] at hlen
      show 3 ≤ (byteLen exchange + 4) % 65536
      omega
  | TXT txts =>
    rw [hd] at hlen hstrings
    rw [length_writeTo_txt] at hlen
    exact ⟨hstrings, hlen⟩
  | Raw raw =>
    rw [hd] at hlen
    exact hlen
  | _ => trivial

/-- Decoding undoes encoding. -/
theorem parse_toBytes {p : DnsPacket} (h : EncodablePacket p) :
    DnsPacket.parse p.toBytes = .ok p :=
  parse_ok.2 (packetAt_toBytes ⟨h.counted, h.questions, fun r hr => (h.records r hr).readable⟩)

/-- A reply about google.com with an exchange, a text and a name server. -/
def sampleReply : DnsPacket where
  header := ⟨0xABCD, true, .Query, false, false, true, true, .NoError, 1, 2, 1, 0⟩
  questions := [⟨"google.com".toList, .MX, .IN⟩]
  answers :=
    [⟨"google.com".toList, .MX, .IN, 300, .MX 10 "smtp.google.com".toList⟩,
      ⟨"google.com".toList, .TXT, .IN, 300, .TXT ["v=spf1".toList, "~all".toList]⟩]
  authorities := [⟨"google.com".toList, .NS, .IN, 600, .Raw [2, 110, 115, 0]⟩]
  additionals := []

theorem parse_toBytes_sampleReply : DnsPacket.parse sampleReply.toBytes = .ok sampleReply := by
  have hgoogle : EncodableName "google.com".toList :=
    encodableName_of_restorable (toLowercase_eq_self.1 (by decide)) (by decide)
  have hsmtp : EncodableName "smtp.google.com".toList :=
    encodableName_of_restorable (toLowercase_eq_self.1 (by decide)) (by decide)
  have hmx : EncodableRecord
      ⟨"google.com".toList, .MX, .IN, 300, .MX 10 "smtp.google.com".toList⟩ := by
    refine ⟨?_, by decide, by decide, rfl, by simp [ResourceData.strings], by decide⟩
    simp only [ResourceRecord.names, ResourceData.names, List.mem_cons, List.not_mem_nil, or_false]
    rintro n (rfl | rfl)
    · exact hgoogle
    · exact hsmtp
  have htxt : EncodableRecord
      ⟨"google.com".toList, .TXT, .IN, 300, .TXT ["v=spf1".toList, "~all".toList]⟩ := by
    refine ⟨?_, by decide, by decide, rfl, by decide, by decide⟩
    simp only [ResourceRecord.names, ResourceData.names, List.mem_singleton]
    rintro n rfl
    exact hgoogle
  have hns : EncodableRecord ⟨"google.com".toList, .NS, .IN, 600, .Raw [2, 110, 115, 0]⟩ := by
    refine ⟨?_, by decide, by decide, trivial, by simp [ResourceData.strings], by decide⟩
    simp only [ResourceRecord.names, ResourceData.names, List.mem_singleton]
    rintro n rfl
    exact hgoogle
  refine parse_toBytes ⟨⟨rfl, rfl, rfl, rfl⟩, ?_, ?_⟩
  · intro q hq
    obtain rfl := List.mem_singleton.1 hq
    exact ⟨hgoogle, by decide, by decide⟩
  · intro r hr
    simp only [DnsPacket.records, sampleReply, List.cons_append, List.nil_append,
      List.append_nil, List.mem_cons, List.not_mem_nil, or_false] at hr
    rcases hr with rfl | rfl | rfl
    · exact hmx
    · exact htxt
    · exact hns

/-! ## Encoding what was decoded -/

/-- A decoded packet survives being encoded and decoded again if it is restorable, and, but
    for the length bytes of pointers, only then. -/
theorem parse_toBytes_of_parse {b : List UInt8} {p : DnsPacket} (h : DnsPacket.parse b = .ok p) :
    (RestorablePacket p → DnsPacket.parse p.toBytes = .ok p) ∧
      (DnsPacket.parse p.toBytes = .ok p → RestorablePacket p ∨ PointerLength p) := by
  refine ⟨fun hr => parse_ok.2 (packetAt_toBytes_of_restorable (parse_ok.1 h) hr), ?_⟩
  intro hagain
  by_cases hp : PointerLength p
  · exact Or.inr hp
  · exact Or.inl (restorable_of_packetAt_toBytes (parse_ok.1 hagain) hp)

/-- A query for the root. -/
def rootQuery : List UInt8 := [0, 7, 1, 0, 0, 1, 0, 0, 0, 0, 0, 0] ++ [0, 0, 2, 0, 1]

def rootPacket : DnsPacket where
  header := ⟨7, false, .Query, false, false, true, false, .NoError, 1, 0, 0, 0⟩
  questions := [⟨[], .NS, .IN⟩]
  answers := []
  authorities := []
  additionals := []

theorem parse_toBytes_of_parse_rootQuery :
    DnsPacket.parse rootQuery = .ok rootPacket ∧
      DnsPacket.parse rootPacket.toBytes = .ok rootPacket := by
  have h : DnsPacket.parse rootQuery = .ok rootPacket := by decide +kernel
  refine ⟨h, (parse_toBytes_of_parse h).1 ⟨?_, ?_⟩⟩
  · intro n hn
    obtain rfl := List.mem_singleton.1 hn
    exact Or.inl rfl
  · simp [DnsPacket.records, rootPacket]

/-- A query for the name that is one label holding one dot. -/
def dotQuery : List UInt8 := [0, 7, 1, 0, 0, 1, 0, 0, 0, 0, 0, 0] ++ [1, 0x2E, 0, 0, 2, 0, 1]

/-- Written out again, the name that is a dot is the root. -/
theorem parse_toBytes_dotQuery :
    ∃ p, DnsPacket.parse dotQuery = .ok p ∧ DnsPacket.parse p.toBytes = .ok rootPacket ∧
      rootPacket ≠ p :=
  ⟨{ rootPacket with questions := [⟨['.'], .NS, .IN⟩] }, by decide +kernel, by decide +kernel,
    by decide⟩

end VantaDns.Protocol
