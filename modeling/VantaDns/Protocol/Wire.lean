/-
  Messages as they stand on the wire: names as labels of bytes, which keep their case.

  `WireQuestionAt N` is the grammar of questions, for a way `N` of reading names:
  `inPlaceName` reads every name the decoder can follow and goes on where the name ends in
  place, `plainName` reads the names in full whose labels the program hands on unchanged but
  for ASCII case. `HeadingAt N b h`: the message `b` has the ID, the opcode and the question
  section `h`.

  `headingAt_toBytes`: what is encoded again for a decoded message with a plain heading
  carries that heading, up to case. `plain_of_toBytes`: of questions with their names in full it
  carries no others, except where the length byte of a part is that of a pointer.
  `WireQuestionAt.rewritten` is about a question of which only the name and the type are kept.
-/
import VantaDns.Protocol.RoundTrip

namespace VantaDns.Protocol

open Lib Lib.Decoder Lib.Utf8 Lib.Text Lib.Unicode

/-! ## ASCII case -/

def asciiLower (x : UInt8) : UInt8 := if 65 ≤ x.toNat ∧ x.toNat ≤ 90 then x + 32 else x

/-- The labels of a name in lower case. -/
def foldLabels (ls : List Label) : List Label := ls.map fun l => l.map asciiLower

theorem toNat_asciiLower (x : UInt8) :
    (asciiLower x).toNat =
      if 65 ≤ x.toNat ∧ x.toNat ≤ 90 then x.toNat + 32 else x.toNat := by
  unfold asciiLower
  split
  · rw [UInt8.toNat_add]
    have h32 : (32 : UInt8).toNat = 32 := rfl
    omega
  · rfl

theorem asciiLower_idem (x : UInt8) : asciiLower (asciiLower x) = asciiLower x := by
  apply UInt8.toNat_inj.1
  have honce := toNat_asciiLower x
  rw [toNat_asciiLower (asciiLower x)]
  refine if_neg fun hcap => ?_
  split at honce <;> omega

theorem asciiLower_eq_dot {x : UInt8} : asciiLower x = 0x2E ↔ x = 0x2E := by
  have hdot : (0x2E : UInt8).toNat = 46 := rfl
  rw [← UInt8.toNat_inj, ← UInt8.toNat_inj, toNat_asciiLower, hdot]
  split <;> omega

theorem asciiLower_eq_self {x : UInt8} (h : 128 ≤ x.toNat) : asciiLower x = x :=
  if_neg fun hcap => absurd hcap.2 (by omega)

theorem toNat_toLower (c : Char) :
    c.toLower.toNat = if 65 ≤ c.toNat ∧ c.toNat ≤ 90 then c.toNat + 32 else c.toNat := by
  unfold Char.toLower
  have hA : 'A'.val.toNat = 65 := rfl
  have hZ : 'Z'.val.toNat = 90 := rfl
  have hval : c.val.toNat = c.toNat := rfl
  split
  · next hcap =>
    have hlo := UInt32.le_iff_toNat_le.1 hcap.1
    have hhi := UInt32.le_iff_toNat_le.1 hcap.2
    have hsum : (c.val + ('a'.val - 'A'.val)).toNat = c.toNat + 32 := by
      have h32 : ('a'.val - 'A'.val).toNat = 32 := rfl
      rw [UInt32.toNat_add]
      omega
    rw [if_pos ⟨by omega, by omega⟩]
    exact hsum
  · next hcap =>
    rw [if_neg]
    intro hbounds
    exact hcap ⟨UInt32.le_iff_toNat_le.2 (by omega), UInt32.le_iff_toNat_le.2 (by omega)⟩

theorem toLower_of_high {c : Char} (h : 128 ≤ c.toNat) : c.toLower = c := by
  apply Char.toNat_inj.1
  rw [toNat_toLower]
  exact if_neg fun hcap => absurd hcap.2 (by omega)

/-- A character in lower case is none of the ASCII capitals. -/
theorem toLower_eq_self {c : Char} (h : Settled c) : c.toLower = c := by
  apply Char.toNat_inj.1
  rw [toNat_toLower]
  refine if_neg fun hcap => ?_
  have hlower := h.1
  unfold toLower at hlower
  rw [if_pos (by omega), if_pos hcap, List.cons.injEq] at hlower
  have hnat := congrArg Char.toNat hlower.1
  rw [toNat_ofNat_valid (by omega)] at hnat
  omega

/-- The byte of an ASCII character. -/
theorem utf8EncodeChar_ascii {c : Char} (h : c.toNat < 128) :
    String.utf8EncodeChar c = [UInt8.ofNat c.toNat] := by
  rw [utf8EncodeChar_eq, if_pos (by omega)]

/-- Lower-casing the bytes of a text lower-cases its ASCII letters. -/
theorem map_asciiLower_utf8EncodeChar (c : Char) :
    (String.utf8EncodeChar c).map asciiLower = String.utf8EncodeChar c.toLower := by
  by_cases hc : c.toNat < 128
  · have hlower := toNat_toLower c
    have hbyte : (UInt8.ofNat c.toNat).toNat = c.toNat := UInt8.toNat_ofNat'.trans (by omega)
    have hlow : c.toLower.toNat < 128 := by split at hlower <;> omega
    rw [utf8EncodeChar_ascii hc, utf8EncodeChar_ascii hlow, List.map_cons, List.map_nil,
      List.cons.injEq, ← UInt8.toNat_inj, toNat_asciiLower, hbyte, ← hlower]
    exact ⟨(UInt8.toNat_ofNat'.trans (by omega)).symm, rfl⟩
  · have hself : ∀ x ∈ String.utf8EncodeChar c, asciiLower x = x := fun x hx =>
      asciiLower_eq_self (high_of_mem_utf8EncodeChar (by omega) hx)
    rw [toLower_of_high (not_lt.1 hc)]
    exact (List.map_congr_left hself).trans (List.map_id _)

theorem map_asciiLower_encode (t : Str) : (encode t).map asciiLower = encode (t.map Char.toLower) := by
  induction t with
  | nil => rfl
  | cons c t ih =>
    rw [List.map_cons, encode_cons, encode_cons, List.map_append, ih, map_asciiLower_utf8EncodeChar]

@[simp] theorem foldLabels_idem (ls : List Label) : foldLabels (foldLabels ls) = foldLabels ls := by
  unfold foldLabels
  rw [List.map_map]
  refine List.map_congr_left fun l _ => ?_
  show (l.map asciiLower).map asciiLower = l.map asciiLower
  rw [List.map_map]
  exact List.map_congr_left fun x _ => asciiLower_idem x

@[simp] theorem foldLabels_nil : foldLabels [] = [] := rfl

@[simp] theorem foldLabels_cons (l : Label) (ls : List Label) :
    foldLabels (l :: ls) = l.map asciiLower :: foldLabels ls := rfl

theorem length_spell_foldLabels (ls : List Label) :
    (spell (foldLabels ls)).length = (spell ls).length := by
  induction ls with
  | nil => rfl
  | cons l ls ih =>
    rw [foldLabels_cons, spell_cons, spell_cons, List.length_append, List.length_append, ih,
      length_counted, length_counted, List.length_map]

/-! ## Names -/

/-- A way of reading names: the labels at a position, and where reading goes on. -/
abbrev LabelReader : Type := List UInt8 → Nat → List Label → Nat → Prop

/-- The reader finds at most one name, with one end, at a position. -/
def Functional (N : LabelReader) : Prop :=
  ∀ b s ls ls' e e', N b s ls e → N b s ls' e' → ls = ls' ∧ e = e'

/-- Names as the decoder follows them, up to their ends in place. -/
def inPlaceName : LabelReader := fun b s ls e => ∃ k z, NameAt b s ls k e z

/-- A label that is text without a dot, of which lower-casing changes only ASCII letters. -/
def PlainLabel (l : Label) : Prop :=
  ∃ t : Str, l = encode t ∧ 0x2E ∉ l ∧ encode (toLowercase t) = l.map asciiLower

/-- Names in full with plain labels. -/
def plainName : LabelReader := fun b s ls e => NameAt b s ls 0 e e ∧ ∀ l ∈ ls, PlainLabel l

variable {b : List UInt8} {s e z : Nat}

theorem plainName.inPlace {ls : List Label} (h : plainName b s ls e) : inPlaceName b s ls e :=
  ⟨0, e, h.1⟩

theorem inPlaceName_functional : Functional inPlaceName := by
  intro b s ls ls' e e' h h'
  obtain ⟨k, z, hn⟩ := h
  obtain ⟨k', z', hn'⟩ := h'
  obtain ⟨hls, -, he, -⟩ := hn.unique hn'
  exact ⟨hls, he⟩

/-- The dot is a byte of its own. -/
theorem dot_mem_encode {t : Str} (h : '.' ∈ t) : 0x2E ∈ encode t :=
  List.mem_flatMap.2 ⟨'.', h, by decide⟩

theorem dot_mem_of_encode {t : Str} (h : 0x2E ∈ encode t) : '.' ∈ t := by
  obtain ⟨c, hc, hbyte⟩ := List.mem_flatMap.1 h
  by_cases hhigh : 128 ≤ c.toNat
  · exact absurd (high_of_mem_utf8EncodeChar hhigh hbyte) (by decide)
  · rw [utf8EncodeChar_ascii (not_le.1 hhigh), List.mem_singleton, ← UInt8.toNat_inj,
      UInt8.toNat_ofNat'] at hbyte
    have hdot : (0x2E : UInt8).toNat = '.'.toNat := rfl
    have heq : c = '.' := Char.toNat_inj.1 (by omega)
    exact heq ▸ hc

/-- A lower-case form that begins with the text, its ASCII letters lower-cased, is just that. -/
theorem lowerFrom_eq_map_of_prefix {before t : Str}
    (h : t.map Char.toLower <+: lowerFrom before t) : lowerFrom before t = t.map Char.toLower := by
  induction t generalizing before with
  | nil => rfl
  | cons c t ih =>
    -- the first character of what `c` becomes decides
    have hone : ∀ d ds, (if c = capitalSigma then [mapUppercaseSigma before t] else toLower c) =
        d :: ds → d = c.toLower → ds = [] := by
      intro d ds hd heq
      split at hd
      · exact (List.cons.inj hd).2.symm
      · unfold toLower at hd
        split at hd
        · split at hd <;> exact (List.cons.inj hd).2.symm
        · split at hd
          · next hascii hdotted =>
            obtain rfl := ofNat_toNat_eq c hdotted.symm
            obtain ⟨rfl, -⟩ := List.cons.inj hd
            exact absurd heq (by decide)
          · split at hd <;> exact (List.cons.inj hd).2.symm
    rw [lowerFrom] at h ⊢
    have hne : (if c = capitalSigma then [mapUppercaseSigma before t] else toLower c) ≠ [] := by
      split
      · exact List.cons_ne_nil _ _
      · exact toLower_ne_nil c
    obtain ⟨d, ds, hd⟩ := List.exists_cons_of_ne_nil hne
    rw [hd, List.map_cons, List.cons_append, List.cons_prefix_cons] at h
    obtain ⟨rfl, hrest⟩ := h
    obtain rfl := hone _ ds hd rfl
    rw [hd, ih hrest]
    rfl

theorem plainLabel_dot {t : Str} (h : PlainLabel (encode t)) : '.' ∉ toLowercase t := by
  obtain ⟨t', heq, hdot, hlow⟩ := h
  obtain rfl := encode_injective heq
  intro hmem
  have := dot_mem_encode hmem
  rw [hlow, List.mem_map] at this
  obtain ⟨x, hx, hx'⟩ := this
  rw [asciiLower_eq_dot.1 hx'] at hx
  exact hdot hx

theorem plainLabel_lower {t : Str} (h : PlainLabel (encode t)) :
    encode (toLowercase t) = (encode t).map asciiLower := by
  obtain ⟨t', heq, -, hlow⟩ := h
  obtain rfl := encode_injective heq
  exact hlow

/-- A plain name is read up to its end and written again as it was, in lower case. -/
theorem plainName.decode {ls : List Label} {n : Str} (h : plainName b s ls e)
    (hn : afterZero.name b s n z) :
    z = e ∧ writeDomainName n = spell (foldLabels ls) := by
  obtain ⟨ts, k, e', hname, -, rfl⟩ := hn
  obtain ⟨rfl, -, -, rfl⟩ := h.1.unique hname
  have hplain : ∀ t ∈ ts, PlainLabel (encode t) := fun t ht => h.2 _ (List.mem_map_of_mem ht)
  have hbounds := hname.label_bounds
  refine ⟨rfl, ?_⟩
  rw [nameText, writeDomainName_joinDots]
  · congr 1
    rw [foldLabels, List.map_map, List.map_map]
    exact List.map_congr_left fun t ht => plainLabel_lower (hplain t ht)
  · intro l hl
    obtain ⟨t, ht, rfl⟩ := List.mem_map.1 hl
    refine ⟨?_, plainLabel_dot (hplain t ht)⟩
    intro hnil
    rw [toLowercase_eq_nil] at hnil
    have := (hbounds _ (List.mem_map_of_mem ht)).1
    rw [hnil] at this
    simp at this

/-- Names in full. -/
def fullName : LabelReader := fun b s ls e => NameAt b s ls 0 e e

theorem isPrefix_of_splitOn {t c : Str} {cs : List Str} (h : t.splitOn '.' = c :: cs) :
    c <+: t := by
  have hjoin := joinDots_splitOn t
  rw [h] at hjoin
  rw [← hjoin]
  cases cs with
  | nil => rw [joinDots_singleton]
  | cons c' cs =>
    rw [joinDots_cons (List.cons_ne_nil c' cs)]
    exact List.prefix_append _ _

/-- If the beginning of the first part is a label, up to case, then the label is the whole part and
    is plain. -/
theorem plain_of_prefix {t c : Str} {l : Label} (hdot : '.' ∉ c) (hset : ∀ d ∈ c, Settled d)
    (hc : c <+: toLowercase t) (hl : l.map asciiLower = (encode t).map asciiLower)
    (hlc : l <+: encode c) :
    c = toLowercase t ∧ l.length = (encode c).length ∧ PlainLabel (encode t) := by
  -- what is read is in lower case already
  have hself : l.map asciiLower = l := by
    obtain ⟨x, hx⟩ := hlc
    have hfixed : (encode c).map asciiLower = encode c := by
      rw [map_asciiLower_encode, List.map_congr_left fun d hd => toLower_eq_self (hset d hd),
        List.map_id']
    rw [← hx, List.map_append] at hfixed
    exact (List.append_inj hfixed (List.length_map _)).1
  have hlow : t.map Char.toLower <+: c := by
    refine isPrefix_of_encode ?_
    rw [← map_asciiLower_encode, ← hl, hself]
    exact hlc
  have heq : toLowercase t = t.map Char.toLower := lowerFrom_eq_map_of_prefix (hlow.trans hc)
  obtain rfl : c = toLowercase t := hc.eq_of_length_le (heq ▸ hlow.length_le)
  refine ⟨rfl, ?_, t, rfl, fun hmem => hdot (dot_mem_of_encode ?_), ?_⟩
  · rw [heq, ← map_asciiLower_encode, ← hl, List.length_map]
  · rw [heq, ← map_asciiLower_encode]
    exact List.mem_map.2 ⟨0x2E, hmem, by decide⟩
  · rw [heq, map_asciiLower_encode]

/-- If the parts that were written for a name are read as its labels, up to case, then these are
    plain, unless the length byte of a part is that of a pointer. -/
theorem plain_of_parts {ts us : List Str} {rest : List Str} {ls : List Label} {k : Nat}
    (hn : NameAt b s ls k e z) (hb : BytesAt b s (spell (us.map encode)))
    (hfold : foldLabels ls = foldLabels (ts.map encode))
    (hus : ts.flatMap (fun t => (toLowercase t).splitOn '.') = us ++ rest)
    (hu : ∀ u ∈ us, '.' ∉ u ∧ (∀ c ∈ u, Settled c) ∧ byteLen u % 256 < 192) :
    ∀ t ∈ ts, PlainLabel (encode t) := by
  induction ts generalizing us s ls k e with
  | nil => exact fun _ ht => absurd ht List.not_mem_nil
  | cons t ts ih =>
    obtain ⟨l, ls, rfl⟩ : ∃ l ls', ls = l :: ls' := by
      cases ls with
      | nil => exact absurd (congrArg List.length hfold) (by simp [foldLabels])
      | cons l ls => exact ⟨l, ls, rfl⟩
    rw [List.map_cons, foldLabels_cons, foldLabels_cons, List.cons.injEq] at hfold
    obtain ⟨hl, hfold⟩ := hfold
    obtain ⟨c, cs, hcs⟩ := List.exists_cons_of_ne_nil (List.splitOn_ne_nil '.' (toLowercase t))
    rw [List.flatMap_cons, hcs, List.cons_append] at hus
    cases us with
    | nil => exact absurd (hn.unique (.root hb)).1 (List.cons_ne_nil _ _)
    | cons u us =>
      rw [List.cons_append, List.cons.injEq] at hus
      obtain ⟨rfl, hus⟩ := hus
      obtain ⟨hdot, hset, hlen⟩ := hu c List.mem_cons_self
      rw [List.map_cons, spell_cons, counted, List.cons_append, bytesAt_cons, bytesAt_append] at hb
      obtain ⟨hfirst, hbc, hrest⟩ := hb
      have hnat : (UInt8.ofNat (encode c).length).toNat = byteLen c % 256 := UInt8.toNat_ofNat'
      cases hn with
      | label h0 hlt hbl hn =>
        rw [counted, bytesAt_cons] at hbl
        have hbyte := congrArg UInt8.toNat (bytesAt_head hbl.1 hfirst)
        rw [hnat, toNat_ofNat_length (by omega)] at hbyte
        have hle : l.length ≤ (encode c).length := by
          rw [length_encode c]
          omega
        obtain ⟨rfl, hlength, hplain⟩ := plain_of_prefix hdot hset (isPrefix_of_splitOn hcs) hl
          (List.prefix_of_prefix_length_le hbl.2 hbc hle)
        rw [splitOn_of_not_mem hdot, List.cons.injEq] at hcs
        rw [← hcs.2, List.nil_append] at hus
        rw [← hlength] at hrest
        intro t' ht'
        obtain rfl | ht' := List.mem_cons.1 ht'
        · exact hplain
        · exact ih hn hrest hfold hus (fun u hmem => hu u (List.mem_cons_of_mem _ hmem)) t' ht'
      | pointer hoff hp hn =>
        have hbyte := congrArg UInt8.toNat (bytesAt_head ((bytesAt_cons _ _ _ _).1 hp).1 hfirst)
        have hp192 := (pointerOffset_pointerBytes hoff).1
        rw [hnat] at hbyte
        omega

/-- If what is written for a name is read as its labels, up to case, then these are plain, unless
    the length byte of a part is that of a pointer. -/
theorem plain_of_reread {ts : List Str} {ls : List Label} {k : Nat} (hn : NameAt b s ls k e z)
    (hb : BytesAt b s (writeDomainName (nameText ts)))
    (hfold : foldLabels ls = foldLabels (ts.map encode)) (hp : ¬ PointerLengthName (nameText ts)) :
    ∀ t ∈ ts, PlainLabel (encode t) := by
  by_cases hne : ts = []
  · rw [hne]
    exact fun _ ht => absurd ht List.not_mem_nil
  by_cases htrim : trimEndMatches '.' (nameText ts) = []
  · rw [writeDomainName_dots htrim] at hb
    rw [(hn.unique (.root hb)).1] at hfold
    have hlen := congrArg List.length hfold
    simp only [foldLabels, List.length_map, List.length_nil] at hlen
    exact absurd (List.length_eq_zero_iff.1 hlen.symm) hne
  · obtain ⟨j, hj⟩ := exists_trimEndMatches '.' (nameText ts)
    have hsplit : (nameText ts).splitOn '.' =
        (trimEndMatches '.' (nameText ts)).splitOn '.' ++ List.replicate j [] := by
      conv => lhs; rw [hj]
      exact splitOn_append_replicate _ '.' j
    have hparts : ts.flatMap (fun t => (toLowercase t).splitOn '.') = (nameText ts).splitOn '.' := by
      rw [nameText, splitOn_joinDots_flatMap (by simpa using hne), List.flatMap_map]
    rw [writeDomainName_eq htrim] at hb
    refine plain_of_parts hn hb hfold (hparts.trans hsplit) fun u hu => ?_
    have hmem : u ∈ (nameText ts).splitOn '.' := hsplit ▸ List.mem_append_left _ hu
    have hof := mem_of_mem_splitOn hmem
    refine ⟨hof.1, fun c hc => settled_of_mem_nameText (hof.2 c hc), ?_⟩
    by_contra hlen
    exact hp ⟨u, hmem, by omega⟩

/-! ## Questions -/

structure WireQuestion where
  labels : List Label
  qtype : UInt16
  qclass : UInt16
  deriving DecidableEq

/-- The question with its name in lower case. -/
def WireQuestion.fold (q : WireQuestion) : WireQuestion := { q with labels := foldLabels q.labels }

/-- The question with its name in full. -/
def WireQuestion.bytes (q : WireQuestion) : List UInt8 :=
  spell q.labels ++ (beU16 q.qtype ++ beU16 q.qclass)

def WireQuestionAt (N : LabelReader) (b : List UInt8) (s : Nat) (q : WireQuestion) (e : Nat) :
    Prop :=
  ∃ t, N b s q.labels t ∧ BytesAt b t (beU16 q.qtype ++ beU16 q.qclass) ∧ e = t + 4

theorem WireQuestionAt.mono {N N' : LabelReader} (hN : ∀ b s ls e, N b s ls e → N' b s ls e)
    {q : WireQuestion} (h : WireQuestionAt N b s q e) : WireQuestionAt N' b s q e := by
  obtain ⟨t, hn, hb, he⟩ := h
  exact ⟨t, hN _ _ _ _ hn, hb, he⟩

theorem WireQuestionAt.unique {N : LabelReader} (hN : Functional N) {q q' : WireQuestion}
    {e' : Nat} (h : WireQuestionAt N b s q e) (h' : WireQuestionAt N b s q' e') :
    q = q' ∧ e = e' := by
  obtain ⟨t, hn, hb, rfl⟩ := h
  obtain ⟨t', hn', hb', rfl⟩ := h'
  obtain ⟨hls, rfl⟩ := hN _ _ _ _ _ _ hn hn'
  have heq := List.append_inj (hb.unique hb' rfl) rfl
  refine ⟨?_, rfl⟩
  obtain ⟨ls, qt, qc⟩ := q
  obtain ⟨ls', qt', qc'⟩ := q'
  rw [WireQuestion.mk.injEq]
  exact ⟨hls, beU16_inj heq.1, beU16_inj heq.2⟩

/-- A plain question is decoded up to its end and written again as it was, in lower case. -/
theorem WireQuestionAt.decode {q : WireQuestion} {q' : DnsQuestion}
    (h : WireQuestionAt plainName b s q e) (h' : QuestionAt afterZero b s q' z) :
    e = z ∧ q'.writeTo = q.fold.bytes := by
  obtain ⟨t, hn, hb, rfl⟩ := h
  obtain ⟨t', hn', hb', -, -, rfl⟩ := h'
  obtain ⟨rfl, hw⟩ := hn.decode hn'
  refine ⟨rfl, ?_⟩
  rw [DnsQuestion.writeTo, List.append_assoc, hw, ← hb.unique hb' rfl]
  rfl

theorem WireQuestion.read {q : WireQuestion}
    (hl : ∀ l ∈ q.labels, 0 < l.length ∧ l.length < 192) (hb : BytesAt b s q.bytes) :
    WireQuestionAt inPlaceName b s q (s + q.bytes.length) := by
  rw [WireQuestion.bytes, bytesAt_append] at hb
  refine ⟨_, ⟨0, _, nameAt_spell hl hb.1⟩, hb.2, ?_⟩
  rw [WireQuestion.bytes, List.length_append, ← Nat.add_assoc]
  rfl

theorem foldLabels_bounds {ls : List Label} (h : ∀ l ∈ ls, 0 < l.length ∧ l.length < 192) :
    ∀ l ∈ foldLabels ls, 0 < l.length ∧ l.length < 192 := by
  intro l hl
  obtain ⟨l', hl', rfl⟩ := List.mem_map.1 hl
  rw [List.length_map]
  exact h l' hl'

/-- If the questions that were written for decoded ones are read as those of the message, up to
    case, and the message has their names in full, then the names are plain. -/
theorem plain_of_questions {b' : List UInt8} {ws ws' : List WireQuestion} {qs : List DnsQuestion}
    {s' e' : Nat} (hw : Chain (WireQuestionAt fullName b) s ws e)
    (hq : Chain (QuestionAt afterZero b) s qs z) (hlen : ws.length = qs.length)
    (hw' : Chain (WireQuestionAt inPlaceName b') s' ws' e')
    (hb : BytesAt b' s' (qs.flatMap DnsQuestion.writeTo))
    (hfold : ws'.map WireQuestion.fold = ws.map WireQuestion.fold)
    (hp : ∀ q ∈ qs, ¬ PointerLengthName q.name) : Chain (WireQuestionAt plainName b) s ws e := by
  induction hw generalizing qs ws' s' with
  | nil => exact .nil
  | @cons s t e w ws h hw ih =>
    obtain ⟨q, qs, rfl⟩ := List.exists_cons_of_length_eq_add_one hlen.symm
    obtain ⟨w', ws', rfl⟩ := List.exists_cons_of_ne_nil (l := ws') fun hnil => by
      rw [hnil] at hfold
      cases hfold
    rw [List.map_cons, List.map_cons, List.cons.injEq] at hfold
    obtain ⟨u, hread, hrest⟩ := Chain.cons_iff.1 hq
    obtain ⟨u', hread', hrest'⟩ := Chain.cons_iff.1 hw'
    rw [List.flatMap_cons, bytesAt_append] at hb
    obtain ⟨x, hfull, hbytes, rfl⟩ := h
    obtain ⟨y, ⟨ts, k, i, hname, hk, heq⟩, -, -, -, rfl⟩ := hread
    obtain ⟨y', ⟨k', i', hname'⟩, -, rfl⟩ := hread'
    obtain ⟨hls, -, -, rfl⟩ := hfull.unique hname
    have hwritten := hb.1
    rw [DnsQuestion.writeTo, List.append_assoc, bytesAt_append] at hwritten
    have hplain : ∀ l ∈ w.labels, PlainLabel l := by
      have hall := plain_of_reread hname' (heq ▸ hwritten.1)
        ((congrArg WireQuestion.labels hfold.1).trans (congrArg foldLabels hls))
        (heq ▸ hp q List.mem_cons_self)
      intro l hl
      obtain ⟨t, ht, rfl⟩ := List.mem_map.1 (hls ▸ hl)
      exact hall t ht
    have hhere : plainName b s w.labels x := ⟨hfull, hplain⟩
    -- what was written for the name is read up to its end
    have hspell := (hhere.decode ⟨ts, k, i, hname, hk, heq⟩).2
    have hend : y' = s' + (writeDomainName q.name).length := by
      have hback := nameAt_spell (foldLabels_bounds hfull.label_bounds) (hspell ▸ hwritten.1)
      rw [hspell]
      exact (hname'.unique hback).2.2.1
    have hnext : s' + q.writeTo.length = y' + 4 := by
      rw [hend, DnsQuestion.writeTo, List.append_assoc, List.length_append, ← Nat.add_assoc]
      rfl
    refine .cons ⟨x, hhere, hbytes, rfl⟩ (ih hrest (Nat.succ.inj hlen) hrest' ?_ hfold.2
      fun q' hq' => hp q' (List.mem_cons_of_mem q hq'))
    rw [← hnext]
    exact hb.2

/-! ## Headings -/

/-- The response bit of a flags word. -/
def responseBit (flags : UInt16) : Bool := (flags &&& 0x8000) != 0

/-- The four bits of the opcode. -/
def opcodeBits (flags : UInt16) : UInt16 := (flags >>> 11) &&& 0x0F

theorem responseBit_flags (h : DnsHeader) : responseBit h.flags = h.isResponse :=
  congrArg DnsHeader.isResponse h.ofWords_flags

theorem opcodeBits_flags (h : DnsHeader) : opcodeBits h.flags = h.opcode.toU16 := by
  have hall : ∀ (op : Opcode) (rc : ResponseCode) (qr aa tc rd ra : Bool),
      opcodeBits (DnsHeader.flags ⟨0, qr, op, aa, tc, rd, ra, rc, 0, 0, 0, 0⟩) = op.toU16 := by
    intro op rc
    cases op <;> cases rc <;> decide +kernel
  exact hall h.opcode h.rcode h.isResponse h.authoritativeAnswer h.truncated h.recursionDesired
    h.recursionAvailable

/-- The four bits of the response code. -/
def rcodeBits (flags : UInt16) : UInt16 := flags &&& 0x000F

theorem rcodeBits_flags (h : DnsHeader) : rcodeBits h.flags = h.rcode.toU8.toUInt16 := by
  have hall : ∀ (op : Opcode) (rc : ResponseCode) (qr aa tc rd ra : Bool),
      rcodeBits (DnsHeader.flags ⟨0, qr, op, aa, tc, rd, ra, rc, 0, 0, 0, 0⟩) =
        rc.toU8.toUInt16 := by
    intro op rc
    cases op <;> cases rc <;> decide +kernel
  exact hall h.opcode h.rcode h.isResponse h.authoritativeAnswer h.truncated h.recursionDesired
    h.recursionAvailable

/-- The opcodes up to 3 survive being decoded and encoded. -/
theorem toU16_fromU8 {v : UInt16} (h : v ≤ 3) : (Opcode.fromU8 v.toUInt8).toU16 = v := by
  have hall : ∀ i : Fin 4, (Opcode.fromU8 (UInt16.ofNat i.val).toUInt8).toU16 = UInt16.ofNat i.val := by
    decide
  have hv : v.toNat < 4 := Nat.lt_succ_of_le (UInt16.le_iff_toNat_le.1 h)
  have := hall ⟨v.toNat, hv⟩
  rwa [UInt16.ofNat_toNat] at this

/-- What a client knows a reply by. -/
structure Heading where
  id : UInt16
  opcode : UInt16
  questions : List WireQuestion
  deriving DecidableEq

/-- The heading with the names in lower case. -/
def Heading.fold (h : Heading) : Heading :=
  { h with questions := h.questions.map WireQuestion.fold }

@[simp] theorem Heading.fold_idem (h : Heading) : h.fold.fold = h.fold := by
  have hq : (fun q : WireQuestion => q.fold.fold) = WireQuestion.fold := by
    funext q
    rw [WireQuestion.fold, WireQuestion.fold, foldLabels_idem]
  unfold Heading.fold
  rw [List.map_map]
  exact congrArg (fun f => { h with questions := h.questions.map f }) hq

def HeadingAt (N : LabelReader) (b : List UInt8) (h : Heading) : Prop :=
  ∃ flags qdcount e, BytesAt b 0 (beU16 h.id ++ (beU16 flags ++ beU16 qdcount)) ∧
    h.opcode = opcodeBits flags ∧ h.questions.length = qdcount.toNat ∧
    Chain (WireQuestionAt N b) 12 h.questions e

/-- The response bit of the message is set. -/
def IsResponse (b : List UInt8) : Prop :=
  ∃ id flags, BytesAt b 0 (beU16 id ++ beU16 flags) ∧ responseBit flags = true

/-- The message has the response code. -/
def HasCode (b : List UInt8) (rcode : ResponseCode) : Prop :=
  ∃ id flags, BytesAt b 0 (beU16 id ++ beU16 flags) ∧ rcodeBits flags = rcode.toU8.toUInt16

theorem HeadingAt.mono {N N' : LabelReader} (hN : ∀ b s ls e, N b s ls e → N' b s ls e)
    {h : Heading} (hh : HeadingAt N b h) : HeadingAt N' b h := by
  obtain ⟨flags, qd, e, hb, hop, hl, hc⟩ := hh
  exact ⟨flags, qd, e, hb, hop, hl, hc.mono fun _ _ _ hq => hq.mono hN⟩

theorem HeadingAt.inPlace {h : Heading} (hh : HeadingAt plainName b h) :
    HeadingAt inPlaceName b h := hh.mono fun _ _ _ _ => plainName.inPlace

theorem HeadingAt.unique {h h' : Heading} (hh : HeadingAt inPlaceName b h)
    (hh' : HeadingAt inPlaceName b h') : h = h' := by
  obtain ⟨flags, qd, e, hb, hop, hl, hc⟩ := hh
  obtain ⟨flags', qd', e', hb', hop', hl', hc'⟩ := hh'
  have heq := List.append_inj (hb.unique hb' rfl) rfl
  have heq' := List.append_inj heq.2 rfl
  have hid := beU16_inj heq.1
  have hflags := beU16_inj heq'.1
  have hqd := beU16_inj heq'.2
  subst hflags hqd
  have hqs := (hc.unique (fun _ _ _ _ _ hq hq' => hq.unique inPlaceName_functional hq') hc'
    (hl.trans hl'.symm)).1
  obtain ⟨id, op, qs⟩ := h
  obtain ⟨id', op', qs'⟩ := h'
  rw [Heading.mk.injEq]
  exact ⟨hid, hop.trans hop'.symm, hqs⟩

/-- The questions of a message with a plain heading are written again as they were, in lower
    case. -/
theorem questions_of_plain {p : DnsPacket} {h : Heading} (hp : DnsPacket.parse b = .ok p)
    (hh : HeadingAt plainName b h) :
    p.header.id = h.id ∧ (h.opcode ≤ 3 → p.header.opcode.toU16 = h.opcode) ∧
      p.questions.map DnsQuestion.writeTo = h.fold.questions.map WireQuestion.bytes := by
  obtain ⟨flags, qd, e, hb, hop, hl, hc⟩ := hh
  obtain ⟨e', ⟨flags', hb', hheader⟩, hql, -, -, -, e₁, -, -, hqs, -⟩ := parse_ok.1 hp
  simp only [List.append_assoc] at hb'
  rw [bytesAt_append, bytesAt_append] at hb hb'
  obtain ⟨h1, h2, h3⟩ := hb
  obtain ⟨h1', h2', h3', -⟩ : _ ∧ _ ∧ _ ∧ _ := by
    rw [bytesAt_append] at hb'
    exact hb'
  have hid := beU16_inj (h1'.unique h1 rfl)
  have hflags := beU16_inj (h2'.unique h2 rfl)
  have hqd := beU16_inj (h3'.unique h3 rfl)
  have hlen : h.questions.length = p.questions.length := by rw [hl, hql, hqd]
  refine ⟨hid, ?_, ?_⟩
  · intro hle
    rw [hop, ← hflags] at hle ⊢
    rw [hheader]
    exact toU16_fromU8 hle
  · have hmap := (hc.map_eq (f := fun q => q.fold.bytes) (g := DnsQuestion.writeTo)
      (fun _ _ _ _ _ _ hq hq' => ⟨(hq.decode hq').1, (hq.decode hq').2.symm⟩) hqs hlen).2
    rw [← hmap, Heading.fold, List.map_map]
    rfl

/-- The six words of an encoding, of which the first three belong to its heading. -/
theorem bytesAt_toBytes (p : DnsPacket) :
    BytesAt p.toBytes 0 (beU16 p.header.id ++
        (beU16 p.countedHeader.flags ++ beU16 (UInt16.ofNat p.questions.length))) ∧
      BytesAt p.toBytes 12 (p.questions.flatMap DnsQuestion.writeTo) := by
  have hb : BytesAt p.toBytes 0 p.toBytes := List.prefix_rfl
  conv at hb => rhs; rw [DnsPacket.toBytes]
  rw [bytesAt_append, bytesAt_append, bytesAt_append, bytesAt_append, DnsHeader.length_writeTo] at hb
  have hsix : p.countedHeader.writeTo = beU16 p.header.id ++
      (beU16 p.countedHeader.flags ++ beU16 (UInt16.ofNat p.questions.length)) ++
      (beU16 p.countedHeader.ancount ++ beU16 p.countedHeader.nscount ++
        beU16 p.countedHeader.arcount) := by
    rw [DnsHeader.writeTo]
    simp only [List.append_assoc]
    rfl
  have hhead := hb.1.1.1.1
  rw [hsix, bytesAt_append] at hhead
  exact ⟨hhead.1, hb.1.1.1.2⟩

/-- What is encoded for a packet with the ID and questions of a decoded message with a plain
    heading carries these, in lower case. -/
theorem questions_toBytes {p p' : DnsPacket} {h : Heading} (hp : DnsPacket.parse b = .ok p)
    (hh : HeadingAt plainName b h) (hid' : p'.header.id = p.header.id)
    (hq' : p'.questions = p.questions) :
    HeadingAt inPlaceName p'.toBytes ⟨h.id, p'.header.opcode.toU16, h.fold.questions⟩ := by
  obtain ⟨hid, -, hquestions⟩ := questions_of_plain hp hh
  obtain ⟨flags, qd, e, -, -, hl, hc⟩ := hh
  have hwritten : p'.questions.flatMap DnsQuestion.writeTo =
      h.fold.questions.flatMap WireQuestion.bytes := by
    rw [List.flatMap_def, List.flatMap_def, hq', hquestions]
  have hlen : p'.questions.length = h.questions.length := by
    have := congrArg List.length hquestions
    simpa [Heading.fold, hq'] using this
  have hcount : p'.questions.length = (UInt16.ofNat p'.questions.length).toNat := by
    have hqd := qd.toNat_lt
    rw [UInt16.toNat_ofNat']
    omega
  obtain ⟨hhead, hqs⟩ := bytesAt_toBytes p'
  rw [hid', hid] at hhead
  rw [hwritten] at hqs
  refine ⟨p'.countedHeader.flags, UInt16.ofNat p'.questions.length, _, hhead, ?_, ?_,
    Chain.of_written ?_ hqs⟩
  · rw [opcodeBits_flags]
    rfl
  · rw [← hcount, hlen, Heading.fold, List.length_map]
  · intro q hq s hbq
    obtain ⟨q', hq', rfl⟩ := List.mem_map.1 hq
    obtain ⟨_, _, _, hname, -⟩ := hc.exists_of_mem hq'
    exact WireQuestion.read (foldLabels_bounds hname.1.label_bounds) hbq

/-- With an opcode that survives, it carries the whole heading. -/
theorem headingAt_toBytes {p p' : DnsPacket} {h : Heading} (hp : DnsPacket.parse b = .ok p)
    (hh : HeadingAt plainName b h) (hop : h.opcode ≤ 3) (hid' : p'.header.id = p.header.id)
    (hop' : p'.header.opcode = p.header.opcode) (hq' : p'.questions = p.questions) :
    HeadingAt inPlaceName p'.toBytes h.fold := by
  have hquestions := questions_toBytes hp hh hid' hq'
  rw [hop', (questions_of_plain hp hh).2.1 hop] at hquestions
  exact hquestions

/-- If what is encoded for a packet with the questions of a decoded message carries the questions
    of that message, and there they are in full, then they are plain. -/
theorem plain_of_toBytes {p p' : DnsPacket} {h h' : Heading} (hp : DnsPacket.parse b = .ok p)
    (hh : HeadingAt fullName b h) (hq' : p'.questions = p.questions)
    (hh' : HeadingAt inPlaceName p'.toBytes h')
    (hsame : h'.questions.map WireQuestion.fold = h.questions.map WireQuestion.fold)
    (hptr : ∀ q ∈ p.questions, ¬ PointerLengthName q.name) : HeadingAt plainName b h := by
  obtain ⟨flags, qd, e, hb, hop, hl, hc⟩ := hh
  obtain ⟨-, -, e', -, -, -, hc'⟩ := hh'
  obtain ⟨_, ⟨flags', hb', -⟩, hql, -, -, -, e₁, -, -, hqs, -⟩ := parse_ok.1 hp
  simp only [List.append_assoc] at hb'
  rw [← List.append_assoc, ← List.append_assoc, bytesAt_append, List.append_assoc] at hb'
  have hwords := List.append_inj (hb'.1.unique hb rfl) rfl
  have hqd := beU16_inj (List.append_inj hwords.2 rfl).2
  have hwritten := (bytesAt_toBytes p').2
  rw [hq'] at hwritten
  exact ⟨flags, qd, e, hb, hop, hl,
    plain_of_questions hc hqs (by rw [hl, hql, hqd]) hc' hwritten hsame hptr⟩

/-- What is encoded for a packet that is marked as a response is a response. -/
theorem isResponse_toBytes {p : DnsPacket} (h : p.header.isResponse = true) :
    IsResponse p.toBytes := by
  have hb := (bytesAt_toBytes p).1
  rw [← List.append_assoc, bytesAt_append] at hb
  refine ⟨_, _, hb.1, ?_⟩
  rw [responseBit_flags]
  exact h

/-- The encoding of a packet has the packet's response code. -/
theorem hasCode_toBytes (p : DnsPacket) : HasCode p.toBytes p.header.rcode := by
  have hb := (bytesAt_toBytes p).1
  rw [← List.append_assoc, bytesAt_append] at hb
  exact ⟨_, _, hb.1, rcodeBits_flags p.countedHeader⟩

/-- The encoding of a packet begins with its header, and its first question stands behind that. -/
theorem heading_toBytes {p : DnsPacket} {q : DnsQuestion} {qs : List DnsQuestion}
    (h : p.questions = q :: qs) :
    HeaderAt p.toBytes 0 p.countedHeader ∧ BytesAt p.toBytes 12 q.writeTo := by
  have hb : BytesAt p.toBytes 0 p.toBytes := List.prefix_rfl
  conv at hb => rhs; rw [DnsPacket.toBytes]
  rw [bytesAt_append, bytesAt_append, bytesAt_append, bytesAt_append, h, List.flatMap_cons,
    bytesAt_append, DnsHeader.length_writeTo] at hb
  exact ⟨headerAt_writeTo hb.1.1.1.1, hb.1.1.1.2.1⟩

/-- A question that is written for the name and the type of a plain question has its labels, in
    lower case, and its type. -/
theorem WireQuestionAt.rewritten {q : WireQuestion} {q' : DnsQuestion} {b' : List UInt8} {s' : Nat}
    {c : QueryClass} (h : WireQuestionAt plainName b s q e) (h' : QuestionAt afterZero b s q' z)
    (hb : BytesAt b' s' (DnsQuestion.writeTo ⟨q'.name, q'.qtype, c⟩)) :
    ∃ e', WireQuestionAt inPlaceName b' s' ⟨foldLabels q.labels, q.qtype, c.toU16⟩ e' := by
  have hbounds := foldLabels_bounds h.choose_spec.1.1.label_bounds
  obtain ⟨t, hn, hbytes, -⟩ := h
  obtain ⟨t', hn', hbytes', -⟩ := h'
  obtain ⟨rfl, hw⟩ := hn.decode hn'
  have htype := (List.append_inj (hbytes.unique hbytes' rfl) rfl).1
  refine ⟨_, WireQuestion.read hbounds ?_⟩
  rw [WireQuestion.bytes, ← hw, htype, ← List.append_assoc]
  exact hb

theorem isResponse_of_parse {p : DnsPacket} (hp : DnsPacket.parse b = .ok p) (h : IsResponse b) :
    p.header.isResponse = true := by
  obtain ⟨id, flags, hb, hbit⟩ := h
  obtain ⟨_, ⟨flags', hb', hheader⟩, -⟩ := parse_ok.1 hp
  simp only [List.append_assoc] at hb'
  rw [bytesAt_append] at hb hb'
  have hflags := beU16_inj (hb.2.unique ((bytesAt_append _ _ _ _).1 hb'.2).1 rfl)
  rw [hheader, ← hflags]
  exact hbit

end VantaDns.Protocol
