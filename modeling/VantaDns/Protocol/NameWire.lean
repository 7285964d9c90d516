/-
  Domain names on the wire, and what `read_domain_name` makes of them.

  `NameAt b s ls k e z`: the labels `ls` are spelled from position `s` of `b`, through `k`
  compression pointers. A name written in place ends at `e` (behind its zero byte or its
  first pointer); the walk ends at `z`, behind the zero byte it reached last.

  `readDomainName_ok` is the whole specification of the reader: it succeeds exactly on the
  names of at most 50 pointers whose labels are UTF-8, returns the lower-cased labels joined
  by dots, and leaves the position at `z`. It never panics (`readDomainName_ne_panic`).
-/
import VantaDns.Protocol.Question

namespace VantaDns.Protocol

open Lib Lib.Decoder Lib.Utf8 Lib.Text Lib.Unicode

/-- A label by its bytes. -/
abbrev Label : Type := List UInt8

/-- The two bytes of a compression pointer to `off`. -/
def pointerBytes (off : Nat) : List UInt8 :=
  [UInt8.ofNat (192 + off / 256), UInt8.ofNat (off % 256)]

/-- Bytes with their length in front, as labels and `TXT` strings are written. -/
def counted (l : Label) : List UInt8 := UInt8.ofNat l.length :: l

@[simp] theorem length_counted (l : Label) : (counted l).length = l.length + 1 := rfl

/-- Names as the decoder understands them: a length byte below 192 is followed by a label,
    one from 192 on by the low byte of a pointer. -/
inductive NameAt (b : List UInt8) : Nat → List Label → Nat → Nat → Nat → Prop where
  | root {s : Nat} : BytesAt b s [0] → NameAt b s [] 0 (s + 1) (s + 1)
  | label {s k e z : Nat} {l : Label} {ls : List Label} : 0 < l.length → l.length < 192 →
      BytesAt b s (counted l) → NameAt b (s + 1 + l.length) ls k e z →
      NameAt b s (l :: ls) k e z
  | pointer {s off k e z : Nat} {ls : List Label} : off < 16384 →
      BytesAt b s (pointerBytes off) → NameAt b off ls k e z → NameAt b s ls (k + 1) (s + 2) z

/-! ## Length bytes and pointer bytes -/

theorem and_C0_eq_iff (len : UInt8) : len &&& 0xC0 = 0xC0 ↔ 192 ≤ len.toNat := by
  have hall : ∀ i : Fin 256, (UInt8.ofNat i.val &&& 0xC0 = 0xC0) ↔ 192 ≤ i.val := by
    decide +kernel
  have := hall ⟨len.toNat, len.toNat_lt⟩
  rwa [UInt8.ofNat_toNat] at this

theorem pointerOffset_eq {len b2 : UInt8} (h : 192 ≤ len.toNat) :
    pointerOffset len b2 = (len.toNat - 192) * 256 + b2.toNat := by
  have hall : ∀ i : Fin 256, 192 ≤ i.val → (UInt8.ofNat i.val &&& 0x3F).toNat = i.val - 192 := by
    decide +kernel
  have hlow := hall ⟨len.toNat, len.toNat_lt⟩ h
  rw [UInt8.ofNat_toNat] at hlow
  have hb : b2.toNat < 2 ^ 8 := b2.toNat_lt
  unfold pointerOffset
  rw [hlow, ← Nat.shiftLeft_add_eq_or_of_lt hb, Nat.shiftLeft_eq]

theorem pointerOffset_lt {len b2 : UInt8} (h : 192 ≤ len.toNat) :
    pointerOffset len b2 < 16384 := by
  have h1 := len.toNat_lt
  have h2 := b2.toNat_lt
  rw [pointerOffset_eq h]
  omega

/-- The bytes of a pointer are the ones its offset is computed from. -/
theorem pointerBytes_pointerOffset {len b2 : UInt8} (h : 192 ≤ len.toNat) :
    pointerBytes (pointerOffset len b2) = [len, b2] := by
  have h1 := len.toNat_lt
  have h2 := b2.toNat_lt
  rw [pointerOffset_eq h]
  simp only [pointerBytes, List.cons.injEq, and_true]
  constructor <;> apply UInt8.toNat_inj.mp <;> rw [UInt8.toNat_ofNat'] <;> omega

theorem pointerOffset_pointerBytes {off : Nat} (h : off < 16384) :
    192 ≤ (UInt8.ofNat (192 + off / 256)).toNat ∧
      pointerOffset (UInt8.ofNat (192 + off / 256)) (UInt8.ofNat (off % 256)) = off := by
  have h1 : (UInt8.ofNat (192 + off / 256)).toNat = 192 + off / 256 := by
    rw [UInt8.toNat_ofNat']; omega
  have h2 : (UInt8.ofNat (off % 256)).toNat = off % 256 := by
    rw [UInt8.toNat_ofNat']; omega
  refine ⟨by omega, ?_⟩
  rw [pointerOffset_eq (by omega), h1, h2]
  omega

theorem toNat_ofNat_length {l : Label} (h : l.length < 256) :
    (UInt8.ofNat l.length).toNat = l.length := by
  rw [UInt8.toNat_ofNat']; omega

theorem bytesAt_counted {b : List UInt8} {s : Nat} {len : UInt8} {l : Label}
    (h : l.length = len.toNat) :
    BytesAt b s (counted l) ↔ BytesAt b s [len] ∧ BytesAt b (s + 1) l := by
  rw [counted, h, UInt8.ofNat_toNat, bytesAt_cons]

/-! ## The reader -/

/-- The body of the loop, read by read as in the source. -/
theorem readDomainNameLoop_eq (jumps : Nat) (domain : Str) :
    readDomainNameLoop jumps domain =
      (if jumps > 50 then
        fail (.InvalidDomainName "Infinite DNS compression pointer loop detected")
      else do
        let hasRemaining ← remaining
        if hasRemaining = 0 then
          fail (.BufferTooShort "Unexpected EOF while reading domain name")
        else do
          let len ← getU8
          if len = 0 then pure domain
          else if (len &&& 0xC0) = 0xC0 then do
            let hasRemaining ← remaining
            if hasRemaining = 0 then fail (.BufferTooShort "Incomplete compression pointer")
            else do
              let b2 ← getU8
              setPosition (pointerOffset len b2)
              readDomainNameLoop (jumps + 1) domain
          else do
            let left ← remaining
            if left < len.toNat then fail (.BufferTooShort "Label length exceeds buffer")
            else do
              let bytes ← copyToSlice len.toNat
              match fromUtf8 bytes with
              | none => fail (.InvalidDomainName "Non-UTF8 domain label")
              | some label => (readDomainNameLoop jumps (pushLabel domain label))) := by
  funext b s
  rw [readDomainNameLoop]
  split
  · rfl
  · rw [remaining_bind]
    split
    · rfl
    · split
      · next h => rw [bind_of_err h]
      · next h => rw [bind_of_panic h]
      · next h =>
        rw [bind_of_ok h]
        split
        · rfl
        · split
          · rw [remaining_bind]
            split
            · rfl
            · split
              · next h => rw [bind_of_err h]
              · next h => rw [bind_of_panic h]
              · next h =>
                rw [bind_of_ok h]
                rfl
          · rw [remaining_bind]
            split
            · rfl
            · split
              · next h => rw [bind_of_err h]
              · next h => rw [bind_of_panic h]
              · next bytes pos₂ h =>
                rw [bind_of_ok h]
                cases fromUtf8 bytes <;> rfl

variable {b : List UInt8} {s z : Nat}

section Turn

variable {jumps : Nat} {domain : Str} {len b2 : UInt8}

theorem readDomainNameLoop_root (hj : jumps ≤ 50) (h0 : BytesAt b s [0]) :
    readDomainNameLoop jumps domain b s = .ok (domain, s + 1) := by
  have hlt : s < b.length := h0.lt_length
  rw [readDomainNameLoop_eq, if_neg (by omega), remaining_bind, if_neg (by omega),
    bind_of_ok (getU8_ok.2 ⟨h0, rfl⟩), if_pos rfl]
  rfl

/-- From the third branch on: what follows a length byte that is not zero. -/
theorem readDomainNameLoop_byte (hj : jumps ≤ 50) (hlen : BytesAt b s [len]) (h0 : len ≠ 0) :
    readDomainNameLoop jumps domain b s =
      if 192 ≤ len.toNat then
        if b.length - (s + 1) = 0 then .err (.BufferTooShort "Incomplete compression pointer")
        else ((getU8 : Decoder DnsError UInt8) >>= fun b2 => do
          setPosition (pointerOffset len b2)
          readDomainNameLoop (jumps + 1) domain) b (s + 1)
      else if b.length - (s + 1) < len.toNat then
        .err (.BufferTooShort "Label length exceeds buffer")
      else ((copyToSlice len.toNat : Decoder DnsError (List UInt8)) >>= fun bytes =>
        match fromUtf8 bytes with
        | none => fail (.InvalidDomainName "Non-UTF8 domain label")
        | some label => readDomainNameLoop jumps (pushLabel domain label)) b (s + 1) := by
  have hlt : s < b.length := hlen.lt_length
  rw [readDomainNameLoop_eq, if_neg (by omega), remaining_bind, if_neg (by omega),
    bind_of_ok (getU8_ok.2 ⟨hlen, rfl⟩), if_neg h0]
  by_cases hptr : 192 ≤ len.toNat
  · rw [if_pos hptr, if_pos ((and_C0_eq_iff len).2 hptr), remaining_bind]
    split <;> rfl
  · rw [if_neg hptr, if_neg (mt (and_C0_eq_iff len).1 hptr), remaining_bind]
    split <;> rfl

theorem readDomainNameLoop_jump (hj : jumps ≤ 50) (hptr : 192 ≤ len.toNat)
    (hlen : BytesAt b s [len]) (hb2 : BytesAt b (s + 1) [b2]) :
    readDomainNameLoop jumps domain b s =
      readDomainNameLoop (jumps + 1) domain b (pointerOffset len b2) := by
  have hlt : s + 1 < b.length := hb2.lt_length
  have h0 : len ≠ 0 := by
    rintro rfl
    exact absurd hptr (by decide)
  rw [readDomainNameLoop_byte hj hlen h0, if_pos hptr, if_neg (by omega),
    bind_of_ok (getU8_ok.2 ⟨hb2, rfl⟩)]
  rfl

theorem readDomainNameLoop_push {bytes : List UInt8} {t : Str} (hj : jumps ≤ 50)
    (hlen : BytesAt b s [len]) (h0 : len ≠ 0) (hptr : ¬ 192 ≤ len.toNat)
    (hbytes : BytesAt b (s + 1) bytes) (hl : bytes.length = len.toNat)
    (ht : fromUtf8 bytes = some t) :
    readDomainNameLoop jumps domain b s =
      readDomainNameLoop jumps (pushLabel domain t) b (s + 1 + len.toNat) := by
  have hle := hbytes.length_le
  rw [readDomainNameLoop_byte hj hlen h0, if_neg hptr, if_neg (by omega),
    bind_of_ok (copyToSlice_ok.2 ⟨hbytes, hl, rfl⟩), ht]

theorem readDomainNameLoop_pointer {off : Nat} (hj : jumps ≤ 50) (hoff : off < 16384)
    (hp : BytesAt b s (pointerBytes off)) :
    readDomainNameLoop jumps domain b s = readDomainNameLoop (jumps + 1) domain b off := by
  obtain ⟨h192, hoffset⟩ := pointerOffset_pointerBytes hoff
  rw [pointerBytes, bytesAt_cons] at hp
  rw [readDomainNameLoop_jump hj h192 hp.1 hp.2, hoffset]

theorem readDomainNameLoop_label {t : Str} (hj : jumps ≤ 50) (h0 : 0 < (encode t).length)
    (ht : (encode t).length < 192) (hl : BytesAt b s (counted (encode t))) :
    readDomainNameLoop jumps domain b s =
      readDomainNameLoop jumps (pushLabel domain t) b (s + 1 + (encode t).length) := by
  have hnat : (UInt8.ofNat (encode t).length).toNat = (encode t).length :=
    toNat_ofNat_length (by omega)
  rw [counted, bytesAt_cons] at hl
  have hne : UInt8.ofNat (encode t).length ≠ 0 := by
    intro h
    rw [h] at hnat
    exact absurd hnat (Nat.ne_of_lt h0)
  rw [readDomainNameLoop_push hj hl.1 hne (by omega) hl.2 hnat.symm (fromUtf8_encode t), hnat]

/-- What one turn of the loop does: it fails, ends at a zero byte, follows a pointer, or
    appends a label. -/
inductive Turn (b : List UInt8) (s jumps : Nat) (domain : Str) : Prop where
  | failed {e : DnsError} : readDomainNameLoop jumps domain b s = .err e → Turn b s jumps domain
  | root : jumps ≤ 50 → BytesAt b s [0] →
      readDomainNameLoop jumps domain b s = .ok (domain, s + 1) → Turn b s jumps domain
  | pointer {off : Nat} : jumps ≤ 50 → off < 16384 → BytesAt b s (pointerBytes off) →
      readDomainNameLoop jumps domain b s = readDomainNameLoop (jumps + 1) domain b off →
      Turn b s jumps domain
  | label {t : Str} : jumps ≤ 50 → 0 < (encode t).length → (encode t).length < 192 →
      BytesAt b s (counted (encode t)) →
      readDomainNameLoop jumps domain b s =
        readDomainNameLoop jumps (pushLabel domain t) b (s + 1 + (encode t).length) →
      Turn b s jumps domain

theorem turn (b : List UInt8) (s jumps : Nat) (domain : Str) : Turn b s jumps domain := by
  by_cases hj : jumps ≤ 50
  case neg =>
    apply Turn.failed
    rw [readDomainNameLoop_eq, if_pos (by omega)]
    rfl
  by_cases hs : s < b.length
  case neg =>
    apply Turn.failed
    rw [readDomainNameLoop_eq, if_neg (by omega), remaining_bind, if_pos (by omega)]
    rfl
  obtain ⟨len, hlen, -⟩ := getU8_of_lt (ε := DnsError) hs
  by_cases h0 : len = 0
  · subst h0
    exact .root hj hlen (readDomainNameLoop_root hj hlen)
  by_cases hptr : 192 ≤ len.toNat
  · by_cases hs1 : s + 1 < b.length
    case neg =>
      apply Turn.failed
      rw [readDomainNameLoop_byte hj hlen h0, if_pos hptr, if_pos (by omega)]
    obtain ⟨b2, hb2, -⟩ := getU8_of_lt (ε := DnsError) hs1
    refine .pointer hj (pointerOffset_lt hptr) ?_ (readDomainNameLoop_jump hj hptr hlen hb2)
    rw [pointerBytes_pointerOffset hptr, bytesAt_cons]
    exact ⟨hlen, hb2⟩
  · by_cases hle : len.toNat ≤ b.length - (s + 1)
    case neg =>
      apply Turn.failed
      rw [readDomainNameLoop_byte hj hlen h0, if_neg hptr, if_pos (by omega)]
    obtain ⟨bytes, hbytes, hl, hcopy⟩ := copyToSlice_of_le (ε := DnsError) hle
    cases hlabel : fromUtf8 bytes with
    | none =>
      apply Turn.failed
      rw [readDomainNameLoop_byte hj hlen h0, if_neg hptr, if_neg (by omega), bind_of_ok hcopy,
        hlabel]
      rfl
    | some t =>
      have hpush := @readDomainNameLoop_push b s jumps domain len bytes t hj hlen h0 hptr hbytes hl
        hlabel
      rw [fromUtf8_eq_some] at hlabel
      subst hlabel
      have hpos : len.toNat ≠ 0 := fun h => h0 (UInt8.toNat_inj.mp h)
      rw [← hl] at hpush hptr hpos
      exact .label hj (by omega) (by omega) ((bytesAt_counted hl).2 ⟨hlen, hbytes⟩) hpush

end Turn

/-- Induction along the loop: a turn either uses up one of the 51 jumps or moves the
    position forward inside the buffer. -/
theorem readDomainNameLoop_induction {P : Nat → Nat → Prop} (L : Nat)
    (step : ∀ jumps s, (jumps ≤ 50 → ∀ off, P (jumps + 1) off) →
      (∀ s', s < s' → s' ≤ L → P jumps s') → P jumps s) (jumps s : Nat) : P jumps s := by
  induction hj : 51 - jumps generalizing jumps s with
  | zero =>
    induction hs : L - s using Nat.strong_induction_on generalizing s with
    | _ m ih =>
      apply step
      · intro hle
        omega
      · intro s' h1 h2
        exact ih (L - s') (by omega) s' rfl
  | succ m ihj =>
    induction hs : L - s using Nat.strong_induction_on generalizing s with
    | _ m' ih =>
      apply step
      · intro _ off
        exact ihj (jumps + 1) off (by omega)
      · intro s' h1 h2
        exact ih (L - s') (by omega) s' rfl

/-- Success of the loop, from any state. -/
theorem readDomainNameLoop_ok {jumps : Nat} {domain n : Str} :
    readDomainNameLoop jumps domain b s = .ok (n, z) ↔
      ∃ (ts : List Str) (k e : Nat), NameAt b s (ts.map encode) k e z ∧ jumps + k ≤ 50 ∧
        n = ts.foldl pushLabel domain := by
  constructor
  · revert domain
    apply readDomainNameLoop_induction (P := fun jumps s => ∀ {domain : Str},
      readDomainNameLoop jumps domain b s = .ok (n, z) →
        ∃ (ts : List Str) (k e : Nat), NameAt b s (ts.map encode) k e z ∧ jumps + k ≤ 50 ∧
          n = ts.foldl pushLabel domain) b.length
    intro jumps s ihjump ihlabel domain h
    cases turn b s jumps domain with
    | failed heq => cases heq.symm.trans h
    | root hj h0 heq =>
      cases heq.symm.trans h
      exact ⟨[], 0, s + 1, .root h0, by omega, rfl⟩
    | @pointer off hj hoff hp heq =>
      obtain ⟨ts, k, e, hn, hk, rfl⟩ := ihjump hj off (heq.symm.trans h)
      exact ⟨ts, k + 1, s + 2, .pointer hoff hp hn, by omega, rfl⟩
    | @label t hj ht0 ht hl heq =>
      have hlen := hl.lt_length
      obtain ⟨ts, k, e, hn, hk, rfl⟩ :=
        ihlabel (s + 1 + (encode t).length) (by omega) (by omega) (heq.symm.trans h)
      exact ⟨t :: ts, k, e, .label ht0 ht hl hn, hk, rfl⟩
  · rintro ⟨ts, k, e, hn, hk, rfl⟩
    generalize hls : ts.map encode = ls at hn
    induction hn generalizing jumps domain ts with
    | root h0 =>
      rw [List.map_eq_nil_iff] at hls
      subst hls
      exact readDomainNameLoop_root (by omega) h0
    | label h0 hl hb _ ih =>
      obtain ⟨t, ts, rfl, rfl, hts⟩ := List.map_eq_cons_iff.1 hls
      rw [readDomainNameLoop_label (by omega) h0 hl hb]
      exact ih ts hk hts
    | pointer hoff hp _ ih =>
      rw [readDomainNameLoop_pointer (by omega) hoff hp]
      exact ih ts (by omega) hls

theorem readDomainNameLoop_ne_panic (jumps : Nat) (domain : Str) :
    readDomainNameLoop jumps domain b s ≠ .panic := by
  revert domain
  apply readDomainNameLoop_induction (P := fun jumps s => ∀ domain : Str,
    readDomainNameLoop jumps domain b s ≠ .panic) b.length
  intro jumps s ihjump ihlabel domain
  cases turn b s jumps domain with
  | failed heq =>
    rw [heq]
    exact fun h => by cases h
  | root hj h0 heq =>
    rw [heq]
    exact fun h => by cases h
  | pointer hj hoff hp heq =>
    rw [heq]
    exact ihjump hj _ domain
  | label hj ht0 ht hl heq =>
    have hlen := hl.lt_length
    rw [heq]
    exact ihlabel _ (by omega) (by omega) _

/-- The name reader never reads past the buffer. -/
theorem readDomainName_ne_panic : readDomainName b s ≠ .panic := readDomainNameLoop_ne_panic 0 []

theorem foldl_pushLabel {domain : Str} (hd : domain ≠ []) (ts : List Str) :
    ts.foldl pushLabel domain = joinDots (domain :: ts.map toLowercase) := by
  induction ts generalizing domain with
  | nil => simp
  | cons t ts ih =>
    have hpush : pushLabel domain t = domain ++ '.' :: toLowercase t := by
      simp [pushLabel, hd]
    have hglue : ∀ rest : List Str, joinDots ((domain ++ '.' :: toLowercase t) :: rest) =
        joinDots (domain :: toLowercase t :: rest) := by
      intro rest
      cases rest with
      | nil => rw [joinDots_singleton, joinDots_cons (List.cons_ne_nil _ _), joinDots_singleton]
      | cons t' rest =>
        rw [joinDots_cons (List.cons_ne_nil t' rest), joinDots_cons (List.cons_ne_nil _ (t' :: rest)),
          joinDots_cons (List.cons_ne_nil t' rest), List.append_assoc, List.cons_append]
    rw [List.foldl_cons, hpush, ih (by simp), hglue, List.map_cons]

/-- Starting from nothing, the loop joins the lower-cased labels with dots. -/
theorem foldl_pushLabel_nil {ts : List Str} (h : ∀ t ∈ ts, t ≠ []) :
    ts.foldl pushLabel [] = joinDots (ts.map toLowercase) := by
  cases ts with
  | nil => rfl
  | cons t ts =>
    have hne : toLowercase t ≠ [] := fun h' => h t List.mem_cons_self (toLowercase_eq_nil.1 h')
    have hpush : pushLabel [] t = toLowercase t := rfl
    rw [List.foldl_cons, hpush, foldl_pushLabel hne, List.map_cons]

namespace NameAt

variable {ls ls' : List Label} {k k' e e' z' : Nat}

theorem label_bounds (h : NameAt b s ls k e z) : ∀ l ∈ ls, 0 < l.length ∧ l.length < 192 := by
  induction h with
  | root => simp
  | label h0 hl _ _ ih =>
    intro l hmem
    rcases List.mem_cons.1 hmem with rfl | hmem
    · exact ⟨h0, hl⟩
    · exact ih l hmem
  | pointer _ _ _ ih => exact ih

/-- The first byte of a name tells which rule read it. -/
theorem not_root_label {l : Label} (h0 : BytesAt b s [0]) (hl0 : 0 < l.length)
    (hl : l.length < 192) (h : BytesAt b s (counted l)) : False := by
  have := bytesAt_head h0 ((bytesAt_cons _ _ _ _).1 h).1
  have := congrArg UInt8.toNat this
  rw [toNat_ofNat_length (by omega)] at this
  simp at this
  simp [← this] at hl0

theorem not_root_pointer {off : Nat} (h0 : BytesAt b s [0]) (hoff : off < 16384)
    (h : BytesAt b s (pointerBytes off)) : False := by
  have := bytesAt_head h0 ((bytesAt_cons _ _ _ _).1 h).1
  have h192 := (pointerOffset_pointerBytes hoff).1
  rw [← this] at h192
  simp at h192

theorem not_label_pointer {l : Label} {off : Nat} (hl : l.length < 192)
    (h : BytesAt b s (counted l)) (hoff : off < 16384) (h' : BytesAt b s (pointerBytes off)) :
    False := by
  have := bytesAt_head ((bytesAt_cons _ _ _ _).1 h).1 ((bytesAt_cons _ _ _ _).1 h').1
  have h192 := (pointerOffset_pointerBytes hoff).1
  rw [← this, toNat_ofNat_length (by omega)] at h192
  omega

theorem pointer_unique {off off' : Nat} (hoff : off < 16384) (h : BytesAt b s (pointerBytes off))
    (hoff' : off' < 16384) (h' : BytesAt b s (pointerBytes off')) : off = off' := by
  have he := h.unique h' rfl
  simp only [pointerBytes, List.cons.injEq, and_true] at he
  rw [← (pointerOffset_pointerBytes hoff).2, he.1, he.2, (pointerOffset_pointerBytes hoff').2]

theorem label_unique {l l' : Label} (hl : l.length < 192) (h : BytesAt b s (counted l))
    (hl' : l'.length < 192) (h' : BytesAt b s (counted l')) : l = l' := by
  have he := bytesAt_head ((bytesAt_cons _ _ _ _).1 h).1 ((bytesAt_cons _ _ _ _).1 h').1
  have hlen := congrArg UInt8.toNat he
  rw [toNat_ofNat_length (by omega), toNat_ofNat_length (by omega)] at hlen
  have := h.unique h' (by simp [hlen])
  exact (List.cons.inj this).2

/-- A position spells at most one name. -/
theorem unique (h : NameAt b s ls k e z) (h' : NameAt b s ls' k' e' z') :
    ls = ls' ∧ k = k' ∧ e = e' ∧ z = z' := by
  induction h generalizing ls' k' e' z' with
  | root h0 =>
    cases h' with
    | root => exact ⟨rfl, rfl, rfl, rfl⟩
    | label hl0 hl hb _ => exact (not_root_label h0 hl0 hl hb).elim
    | pointer hoff hp _ => exact (not_root_pointer h0 hoff hp).elim
  | label hl0 hl hb _ ih =>
    cases h' with
    | root h0 => exact (not_root_label h0 hl0 hl hb).elim
    | label _ hl' hb' hn' =>
      obtain rfl := label_unique hl hb hl' hb'
      obtain ⟨rfl, rfl, rfl, rfl⟩ := ih hn'
      exact ⟨rfl, rfl, rfl, rfl⟩
    | pointer hoff hp _ => exact (not_label_pointer hl hb hoff hp).elim
  | pointer hoff hp _ ih =>
    cases h' with
    | root h0 => exact (not_root_pointer h0 hoff hp).elim
    | label _ hl hb _ => exact (not_label_pointer hl hb hoff hp).elim
    | pointer hoff' hp' hn' =>
      obtain rfl := pointer_unique hoff hp hoff' hp'
      obtain ⟨rfl, rfl, -, rfl⟩ := ih hn'
      exact ⟨rfl, rfl, rfl, rfl⟩

theorem lt_end (h : NameAt b s ls k e z) : s < e ∧ e ≤ b.length := by
  induction h with
  | root h0 =>
    have := h0.lt_length
    simp at this
    omega
  | label _ _ _ _ ih => omega
  | pointer _ hp _ _ =>
    have := hp.lt_length
    simp at this
    omega

end NameAt

/-! ## Names written in full -/

/-- The labels with their length bytes and a closing zero byte. -/
def spell (ls : List Label) : List UInt8 := ls.flatMap counted ++ [0]

@[simp] theorem spell_nil : spell [] = [0] := rfl

theorem spell_cons (l : Label) (ls : List Label) : spell (l :: ls) = counted l ++ spell ls := by
  simp [spell]

theorem nameAt_spell {ls : List Label} (hl : ∀ l ∈ ls, 0 < l.length ∧ l.length < 192)
    (h : BytesAt b s (spell ls)) :
    NameAt b s ls 0 (s + (spell ls).length) (s + (spell ls).length) := by
  induction ls generalizing s with
  | nil => exact .root h
  | cons l ls ih =>
    rw [spell_cons, bytesAt_append] at h
    have hb := hl l List.mem_cons_self
    have hn := ih (fun l' hl' => hl l' (List.mem_cons_of_mem l hl')) h.2
    have hs : s + (counted l).length = s + 1 + l.length := by simp; omega
    have he : s + (spell (l :: ls)).length = s + (counted l).length + (spell ls).length := by
      rw [spell_cons, List.length_append]; omega
    rw [he]
    rw [hs] at hn ⊢
    exact .label hb.1 hb.2 h.1 hn

theorem bytesAt_spell {ls : List Label} {e : Nat} (h : NameAt b s ls 0 e z) :
    BytesAt b s (spell ls) ∧ e = s + (spell ls).length := by
  generalize hk : 0 = k at h
  induction h with
  | root h0 => exact ⟨h0, rfl⟩
  | @label s k e z l ls h0 hl hb _ ih =>
    obtain ⟨h1, h2⟩ := ih hk
    rw [spell_cons, bytesAt_append, List.length_append, length_counted]
    refine ⟨⟨hb, ?_⟩, by omega⟩
    have hs : s + (l.length + 1) = s + 1 + l.length := by omega
    rw [hs]
    exact h1
  | pointer => cases hk

/-! ## The specification of the reader -/

/-- The text `read_domain_name` makes of labels: lower-cased and joined by dots. -/
def nameText (ts : List Str) : Str := joinDots (ts.map toLowercase)

theorem readDomainName_ok {n : Str} : readDomainName b s = .ok (n, z) ↔
    ∃ (ts : List Str) (k e : Nat), NameAt b s (ts.map encode) k e z ∧ k ≤ 50 ∧ n = nameText ts := by
  unfold readDomainName
  rw [readDomainNameLoop_ok]
  have hjoin : ∀ {ts : List Str} {k e : Nat}, NameAt b s (ts.map encode) k e z →
      ts.foldl pushLabel [] = nameText ts := by
    intro ts k e h
    apply foldl_pushLabel_nil
    rintro t ht rfl
    have := (h.label_bounds (encode []) (List.mem_map_of_mem ht)).1
    simp at this
  constructor
  · rintro ⟨ts, k, e, h, hk, rfl⟩
    exact ⟨ts, k, e, h, by omega, hjoin h⟩
  · rintro ⟨ts, k, e, h, hk, rfl⟩
    exact ⟨ts, k, e, h, by omega, (hjoin h).symm⟩

end VantaDns.Protocol
