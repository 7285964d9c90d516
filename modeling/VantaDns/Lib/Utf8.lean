/-
  UTF-8 decoding as Rust's standard library does it: `Utf8Chunks` walks a byte string
  and yields, at each place, either the next encoded `char` or the longest run of bytes
  that no encoded `char` starts with (a "maximal subpart", one to three bytes).

  `std::str::from_utf8` succeeds exactly when no invalid run occurs (`fromUtf8`), and
  `String::from_utf8_lossy` puts U+FFFD for each invalid run (`fromUtf8Lossy`).

  A Rust `String` is modelled by its sequence of `char`s (`Str`); `encode` is its
  `as_bytes`. The two directions of the round trip are `fromUtf8_eq_some` and
  `fromUtf8Lossy_encode`. `fromUtf8Lossy_truncated` says what is read when a string is cut
  in the middle: the whole characters before the cut and at most one U+FFFD.
-/
import Mathlib

namespace VantaDns.Lib

/-- A Rust `String` or `&str` as its sequence of `char`s. -/
abbrev Str : Type := List Char

namespace Utf8

/-- `s.as_bytes()`. -/
def encode (s : Str) : List UInt8 := s.flatMap String.utf8EncodeChar

/-- `s.len()`: a Rust string is as long as its encoding. -/
def byteLen (s : Str) : Nat := (encode s).length

/-- `utf8_char_width`: the length of a sequence with first byte `x`, 0 if none has it. -/
def charWidth (x : UInt8) : Nat :=
  if x.toNat < 0x80 then 1
  else if 0xC2 ≤ x.toNat ∧ x.toNat ≤ 0xDF then 2
  else if 0xE0 ≤ x.toNat ∧ x.toNat ≤ 0xEF then 3
  else if 0xF0 ≤ x.toNat ∧ x.toNat ≤ 0xF4 then 4
  else 0

/-- A continuation byte. -/
def isCont (y : UInt8) : Bool := 0x80 ≤ y.toNat && y.toNat ≤ 0xBF

/-- May `y` follow the first byte `x` of a three or four byte sequence? The narrower
    ranges rule out overlong forms, surrogates and values above U+10FFFF. -/
def secondOk (x y : UInt8) : Bool :=
  if x.toNat = 0xE0 then 0xA0 ≤ y.toNat && y.toNat ≤ 0xBF
  else if x.toNat = 0xED then 0x80 ≤ y.toNat && y.toNat ≤ 0x9F
  else if x.toNat = 0xF0 then 0x90 ≤ y.toNat && y.toNat ≤ 0xBF
  else if x.toNat = 0xF4 then 0x80 ≤ y.toNat && y.toNat ≤ 0x8F
  else isCont y

/-- The scalar value of a sequence from the payload bits of its bytes. -/
def scalar2 (x y : UInt8) : Nat := x.toNat % 32 * 64 + y.toNat % 64

def scalar3 (x y z : UInt8) : Nat := (x.toNat % 16 * 64 + y.toNat % 64) * 64 + z.toNat % 64

def scalar4 (x y z w : UInt8) : Nat :=
  ((x.toNat % 8 * 64 + y.toNat % 64) * 64 + z.toNat % 64) * 64 + w.toNat % 64

/-- One step of `Utf8Chunks` on `x :: rest`: the character found, or `none` for an invalid
    run, and the bytes after it. -/
def chunk (x : UInt8) (rest : List UInt8) : Option Char × List UInt8 :=
  match charWidth x, rest with
  | 1, _ => (some (Char.ofNat x.toNat), rest)
  | 2, y :: r => if isCont y then (some (Char.ofNat (scalar2 x y)), r) else (none, rest)
  | 3, y :: r =>
      if secondOk x y then
        match r with
        | z :: r' => if isCont z then (some (Char.ofNat (scalar3 x y z)), r') else (none, r)
        | [] => (none, [])
      else (none, rest)
  | 4, y :: r =>
      if secondOk x y then
        match r with
        | z :: r' =>
            if isCont z then
              match r' with
              | w :: r'' =>
                  if isCont w then (some (Char.ofNat (scalar4 x y z w)), r'') else (none, r')
              | [] => (none, [])
            else (none, r)
        | [] => (none, [])
      else (none, rest)
  | _, _ => (none, rest)

theorem chunk_length_le (x : UInt8) (rest : List UInt8) :
    (chunk x rest).2.length ≤ rest.length := by
  unfold chunk
  repeat' split
  all_goals simp only [List.length_cons, List.length_nil]; omega

/-- All chunks of a byte string. -/
def chunks : List UInt8 → List (Option Char)
  | [] => []
  | x :: rest => (chunk x rest).1 :: chunks (chunk x rest).2
termination_by bs => bs.length
decreasing_by
  have := chunk_length_le x rest
  simp only [List.length_cons]
  omega

/-- `std::str::from_utf8`. -/
def fromUtf8 (bs : List UInt8) : Option Str := (chunks bs).mapM id

/-- `String::from_utf8_lossy`. -/
def fromUtf8Lossy (bs : List UInt8) : Str := (chunks bs).map fun o => o.getD (Char.ofNat 0xFFFD)

/-! ## Encoding -/

@[simp] theorem encode_nil : encode [] = [] := rfl

@[simp] theorem encode_cons (c : Char) (s : Str) :
    encode (c :: s) = String.utf8EncodeChar c ++ encode s := rfl

@[simp] theorem encode_append (s t : Str) : encode (s ++ t) = encode s ++ encode t :=
  List.flatMap_append

theorem encode_eq_nil {s : Str} : encode s = [] ↔ s = [] := by
  cases s with
  | nil => simp
  | cons c s => simp [String.utf8EncodeChar_ne_nil]

theorem toNat_ofNat_valid {n : Nat} (h : n < 0xD800 ∨ 0xDFFF < n ∧ n < 0x110000) :
    (Char.ofNat n).toNat = n := by
  have hv : n.isValidChar := h
  simp [Char.ofNat, hv, Char.ofNatAux, Char.toNat, UInt32.toNat]

/-- The four forms of an encoded character, by its scalar value. -/
theorem utf8EncodeChar_eq (c : Char) : String.utf8EncodeChar c =
    if c.toNat ≤ 0x7F then [UInt8.ofNat c.toNat]
    else if c.toNat ≤ 0x7FF then
      [UInt8.ofNat (c.toNat / 64 % 0x20 + 0xC0), UInt8.ofNat (c.toNat % 0x40 + 0x80)]
    else if c.toNat ≤ 0xFFFF then
      [UInt8.ofNat (c.toNat / 4096 % 0x10 + 0xE0), UInt8.ofNat (c.toNat / 64 % 0x40 + 0x80),
        UInt8.ofNat (c.toNat % 0x40 + 0x80)]
    else
      [UInt8.ofNat (c.toNat / 262144 % 0x08 + 0xF0), UInt8.ofNat (c.toNat / 4096 % 0x40 + 0x80),
        UInt8.ofNat (c.toNat / 64 % 0x40 + 0x80), UInt8.ofNat (c.toNat % 0x40 + 0x80)] := rfl

theorem toNat_valid (c : Char) : c.toNat < 0xD800 ∨ 0xDFFF < c.toNat ∧ c.toNat < 0x110000 :=
  c.valid

/-- The bytes of a character that is not ASCII are none of ASCII. -/
theorem high_of_mem_utf8EncodeChar {c : Char} (hc : 128 ≤ c.toNat) {x : UInt8}
    (hx : x ∈ String.utf8EncodeChar c) : 128 ≤ x.toNat := by
  have hvalid := toNat_valid c
  rw [utf8EncodeChar_eq, if_neg (by omega)] at hx
  revert x
  split
  · simp only [List.mem_cons, List.not_mem_nil, or_false, forall_eq_or_imp, forall_eq,
      UInt8.toNat_ofNat']
    omega
  · split
    · simp only [List.mem_cons, List.not_mem_nil, or_false, forall_eq_or_imp, forall_eq,
        UInt8.toNat_ofNat']
      omega
    · simp only [List.mem_cons, List.not_mem_nil, or_false, forall_eq_or_imp, forall_eq,
        UInt8.toNat_ofNat']
      omega

theorem ofNat_toNat_eq (c : Char) {n : Nat} (h : n = c.toNat) : Char.ofNat n = c := by
  rw [h]; exact Char.ofNat_toNat c

/-- Decoding one encoded character gives it back and leaves what follows it. -/
theorem chunk_encode (c : Char) (x : UInt8) (r rest : List UInt8)
    (h : String.utf8EncodeChar c ++ r = x :: rest) : chunk x rest = (some c, r) := by
  have hc := toNat_valid c
  rw [utf8EncodeChar_eq] at h
  split at h
  · simp only [List.cons_append, List.nil_append, List.cons.injEq] at h
    obtain ⟨rfl, rfl⟩ := h
    have hw : charWidth (UInt8.ofNat c.toNat) = 1 := by
      unfold charWidth; rw [UInt8.toNat_ofNat']; split <;> omega
    simp only [chunk, hw]
    rw [ofNat_toNat_eq c (by rw [UInt8.toNat_ofNat']; omega)]
  · split at h
    · simp only [List.cons_append, List.nil_append, List.cons.injEq] at h
      obtain ⟨rfl, rfl⟩ := h
      have hw : charWidth (UInt8.ofNat (c.toNat / 64 % 0x20 + 0xC0)) = 2 := by
        unfold charWidth; rw [UInt8.toNat_ofNat']; repeat' split
        all_goals omega
      have hy : isCont (UInt8.ofNat (c.toNat % 0x40 + 0x80)) = true := by
        simp only [isCont, UInt8.toNat_ofNat', Bool.and_eq_true, decide_eq_true_eq]; omega
      simp only [chunk, hw, hy, if_true]
      rw [ofNat_toNat_eq c (by simp only [scalar2, UInt8.toNat_ofNat']; omega)]
    · split at h
      · simp only [List.cons_append, List.nil_append, List.cons.injEq] at h
        obtain ⟨rfl, rfl⟩ := h
        have hw : charWidth (UInt8.ofNat (c.toNat / 4096 % 0x10 + 0xE0)) = 3 := by
          unfold charWidth; rw [UInt8.toNat_ofNat']; repeat' split
          all_goals omega
        have hy : secondOk (UInt8.ofNat (c.toNat / 4096 % 0x10 + 0xE0))
            (UInt8.ofNat (c.toNat / 64 % 0x40 + 0x80)) = true := by
          simp only [secondOk, isCont, UInt8.toNat_ofNat']
          repeat' split
          all_goals simp only [Bool.and_eq_true, decide_eq_true_eq]; omega
        have hz : isCont (UInt8.ofNat (c.toNat % 0x40 + 0x80)) = true := by
          simp only [isCont, UInt8.toNat_ofNat', Bool.and_eq_true, decide_eq_true_eq]; omega
        simp only [chunk, hw, hy, hz, if_true]
        rw [ofNat_toNat_eq c (by simp only [scalar3, UInt8.toNat_ofNat']; omega)]
      · simp only [List.cons_append, List.nil_append, List.cons.injEq] at h
        obtain ⟨rfl, rfl⟩ := h
        have hw : charWidth (UInt8.ofNat (c.toNat / 262144 % 0x08 + 0xF0)) = 4 := by
          unfold charWidth; rw [UInt8.toNat_ofNat']; repeat' split
          all_goals omega
        have hy : secondOk (UInt8.ofNat (c.toNat / 262144 % 0x08 + 0xF0))
            (UInt8.ofNat (c.toNat / 4096 % 0x40 + 0x80)) = true := by
          simp only [secondOk, isCont, UInt8.toNat_ofNat']
          repeat' split
          all_goals simp only [Bool.and_eq_true, decide_eq_true_eq]; omega
        have hz : isCont (UInt8.ofNat (c.toNat / 64 % 0x40 + 0x80)) = true := by
          simp only [isCont, UInt8.toNat_ofNat', Bool.and_eq_true, decide_eq_true_eq]; omega
        have hv : isCont (UInt8.ofNat (c.toNat % 0x40 + 0x80)) = true := by
          simp only [isCont, UInt8.toNat_ofNat', Bool.and_eq_true, decide_eq_true_eq]; omega
        simp only [chunk, hw, hy, hz, hv, if_true]
        rw [ofNat_toNat_eq c (by simp only [scalar4, UInt8.toNat_ofNat']; omega)]

theorem isCont_iff {y : UInt8} : isCont y = true ↔ 0x80 ≤ y.toNat ∧ y.toNat ≤ 0xBF := by
  simp [isCont]

/-- The second byte of a three byte sequence, as a range. -/
theorem secondOk_three {x y : UInt8} (hw : charWidth x = 3) (hy : secondOk x y = true) :
    0xE0 ≤ x.toNat ∧ x.toNat ≤ 0xEF ∧ 0x80 ≤ y.toNat ∧ y.toNat ≤ 0xBF ∧
      (x.toNat = 0xE0 → 0xA0 ≤ y.toNat) ∧ (x.toNat = 0xED → y.toNat ≤ 0x9F) := by
  have hx' : 0xE0 ≤ x.toNat ∧ x.toNat ≤ 0xEF := by
    unfold charWidth at hw; repeat' split at hw
    all_goals omega
  unfold secondOk at hy
  repeat' split at hy
  all_goals simp only [isCont, Bool.and_eq_true, decide_eq_true_eq] at hy; omega

/-- The second byte of a four byte sequence, as a range. -/
theorem secondOk_four {x y : UInt8} (hw : charWidth x = 4) (hy : secondOk x y = true) :
    0xF0 ≤ x.toNat ∧ x.toNat ≤ 0xF4 ∧ 0x80 ≤ y.toNat ∧ y.toNat ≤ 0xBF ∧
      (x.toNat = 0xF0 → 0x90 ≤ y.toNat) ∧ (x.toNat = 0xF4 → y.toNat ≤ 0x8F) := by
  have hx' : 0xF0 ≤ x.toNat ∧ x.toNat ≤ 0xF4 := by
    unfold charWidth at hw; repeat' split at hw
    all_goals omega
  unfold secondOk at hy
  repeat' split at hy
  all_goals simp only [isCont, Bool.and_eq_true, decide_eq_true_eq] at hy; omega

/-! What a valid sequence of each width stands for is encoded by its bytes. -/

theorem encode_scalar1 {x : UInt8} (hw : charWidth x = 1) :
    String.utf8EncodeChar (Char.ofNat x.toNat) = [x] := by
  have hx : x.toNat < 0x80 := by
    unfold charWidth at hw; repeat' split at hw
    all_goals omega
  rw [utf8EncodeChar_eq, toNat_ofNat_valid (by omega), if_pos (by omega), UInt8.ofNat_toNat]

theorem encode_scalar2 {x y : UInt8} (hw : charWidth x = 2) (hy : isCont y = true) :
    String.utf8EncodeChar (Char.ofNat (scalar2 x y)) = [x, y] := by
  have hx : 0xC2 ≤ x.toNat ∧ x.toNat ≤ 0xDF := by
    unfold charWidth at hw; repeat' split at hw
    all_goals omega
  rw [isCont_iff] at hy
  rw [utf8EncodeChar_eq, toNat_ofNat_valid (by unfold scalar2; omega)]
  unfold scalar2
  rw [if_neg (by omega), if_pos (by omega)]
  simp only [List.cons.injEq, and_true]
  constructor <;> apply UInt8.toNat_inj.mp <;> rw [UInt8.toNat_ofNat'] <;> omega

theorem encode_scalar3 {x y z : UInt8} (hw : charWidth x = 3) (hy : secondOk x y = true)
    (hz : isCont z = true) : String.utf8EncodeChar (Char.ofNat (scalar3 x y z)) = [x, y, z] := by
  have hxy := secondOk_three hw hy
  rw [isCont_iff] at hz
  rw [utf8EncodeChar_eq, toNat_ofNat_valid (by unfold scalar3; omega)]
  unfold scalar3
  rw [if_neg (by omega), if_neg (by omega), if_pos (by omega)]
  simp only [List.cons.injEq, and_true]
  refine ⟨?_, ?_, ?_⟩ <;> apply UInt8.toNat_inj.mp <;> rw [UInt8.toNat_ofNat'] <;> omega

theorem encode_scalar4 {x y z w : UInt8} (hw : charWidth x = 4) (hy : secondOk x y = true)
    (hz : isCont z = true) (hv : isCont w = true) :
    String.utf8EncodeChar (Char.ofNat (scalar4 x y z w)) = [x, y, z, w] := by
  have hxy := secondOk_four hw hy
  rw [isCont_iff] at hz hv
  rw [utf8EncodeChar_eq, toNat_ofNat_valid (by unfold scalar4; omega)]
  unfold scalar4
  rw [if_neg (by omega), if_neg (by omega), if_neg (by omega)]
  simp only [List.cons.injEq, and_true]
  refine ⟨?_, ?_, ?_, ?_⟩ <;> apply UInt8.toNat_inj.mp <;> rw [UInt8.toNat_ofNat'] <;> omega

/-- A character found by `chunk` is encoded by exactly the bytes consumed. -/
theorem encode_of_chunk {c : Char} {x : UInt8} {r rest : List UInt8}
    (h : chunk x rest = (some c, r)) : x :: rest = String.utf8EncodeChar c ++ r := by
  unfold chunk at h
  split at h
  · next hw =>
    cases h
    rw [encode_scalar1 hw]
    rfl
  · next y t hw =>
    split at h
    · next hy =>
      cases h
      rw [encode_scalar2 hw hy]
      rfl
    · cases h
  · next y t hw =>
    split at h
    · next hy =>
      split at h
      · next z t' =>
        split at h
        · next hz =>
          cases h
          rw [encode_scalar3 hw hy hz]
          rfl
        · cases h
      · cases h
    · cases h
  · next y t hw =>
    split at h
    · next hy =>
      split at h
      · next z t' =>
        split at h
        · next hz =>
          split at h
          · next w t'' =>
            split at h
            · next hv =>
              cases h
              rw [encode_scalar4 hw hy hz hv]
              rfl
            · cases h
          · cases h
        · cases h
      · cases h
    · cases h
  · cases h

/-! ## Whole strings -/

@[simp] theorem chunks_nil : chunks [] = [] := by rw [chunks]

theorem chunks_cons (x : UInt8) (rest : List UInt8) :
    chunks (x :: rest) = (chunk x rest).1 :: chunks (chunk x rest).2 := by rw [chunks]

theorem chunks_encode_append (s : Str) (r : List UInt8) :
    chunks (encode s ++ r) = s.map some ++ chunks r := by
  induction s with
  | nil => rfl
  | cons c s ih =>
    rw [encode_cons, List.append_assoc]
    cases h : String.utf8EncodeChar c ++ (encode s ++ r) with
    | nil => simp [String.utf8EncodeChar_ne_nil] at h
    | cons x rest =>
      rw [chunks_cons, chunk_encode c x _ rest h, ih]
      rfl

theorem chunks_encode (s : Str) : chunks (encode s) = s.map some := by
  have := chunks_encode_append s []
  simpa using this

theorem encode_of_chunks {s : Str} {bs : List UInt8} (h : chunks bs = s.map some) :
    bs = encode s := by
  induction s generalizing bs with
  | nil =>
    cases bs with
    | nil => rfl
    | cons x rest => rw [chunks_cons] at h; simp at h
  | cons c s ih =>
    cases bs with
    | nil => simp at h
    | cons x rest =>
      rw [chunks_cons, List.map_cons, List.cons.injEq] at h
      have hc : chunk x rest = (some c, (chunk x rest).2) := Prod.ext h.1 rfl
      rw [encode_of_chunk hc, encode_cons, ← ih h.2]

theorem mapM_id_eq_some {α : Type} {l : List (Option α)} {s : List α} :
    l.mapM id = some s ↔ l = s.map some := by
  induction l generalizing s with
  | nil => cases s <;> simp
  | cons o l ih =>
    cases o with
    | none => cases s <;> simp
    | some a =>
      cases s with
      | nil => cases h : l.mapM id <;> simp [h]
      | cons b s =>
        simp only [List.mapM_cons, id, Option.pure_def, Option.bind_eq_bind, Option.bind_some,
          Option.bind_eq_some_iff, Option.some.injEq, List.cons.injEq, List.map_cons, ih]
        constructor
        · rintro ⟨t, rfl, rfl, rfl⟩; exact ⟨rfl, rfl⟩
        · rintro ⟨rfl, rfl⟩; exact ⟨s, rfl, rfl, rfl⟩

/-- `from_utf8` accepts exactly the encodings, and returns what they encode. -/
theorem fromUtf8_eq_some {bs : List UInt8} {s : Str} : fromUtf8 bs = some s ↔ bs = encode s := by
  unfold fromUtf8
  rw [mapM_id_eq_some]
  exact ⟨encode_of_chunks, fun h => h ▸ chunks_encode s⟩

@[simp] theorem fromUtf8_encode (s : Str) : fromUtf8 (encode s) = some s := fromUtf8_eq_some.2 rfl

theorem encode_injective {s t : Str} (h : encode s = encode t) : s = t := by
  have := fromUtf8_encode s
  rw [h, fromUtf8_encode] at this
  exact (Option.some.inj this).symm

/-- A string whose bytes begin another's begins it. -/
theorem isPrefix_of_encode {s t : Str} (h : encode s <+: encode t) : s <+: t := by
  obtain ⟨r, hr⟩ := h
  have hc := chunks_encode_append s r
  rw [hr, chunks_encode, List.map_eq_append_iff] at hc
  obtain ⟨s', t', rfl, hs, -⟩ := hc
  obtain rfl := (Option.some_injective Char).list_map hs
  exact List.prefix_append s' t'

theorem length_encode (s : Str) : (encode s).length = byteLen s := rfl

theorem one_le_byteLen {s : Str} : 1 ≤ byteLen s ↔ s ≠ [] := by
  rw [← length_encode, Nat.one_le_iff_ne_zero, ne_eq, List.length_eq_zero_iff, encode_eq_nil]

/-- The lossy conversion changes nothing in valid UTF-8. -/
@[simp] theorem fromUtf8Lossy_encode (s : Str) : fromUtf8Lossy (encode s) = s := by
  unfold fromUtf8Lossy
  rw [chunks_encode, List.map_map]
  exact (List.map_congr_left (fun _ _ => rfl)).trans (List.map_id s)

/-! ## A string cut in the middle -/

/-- The first bytes of an encoded character, without the last, are one invalid run. -/
theorem chunks_take_utf8EncodeChar (c : Char) {n : Nat} (h0 : 0 < n)
    (hn : n < (String.utf8EncodeChar c).length) :
    chunks ((String.utf8EncodeChar c).take n) = [none] := by
  have hc := toNat_valid c
  rw [utf8EncodeChar_eq] at hn ⊢
  split at hn
  · simp at hn; omega
  · split at hn
    · next h1 h2 =>
      have hn' : n = 1 := by simp at hn; omega
      subst hn'
      have hw : charWidth (UInt8.ofNat (c.toNat / 64 % 0x20 + 0xC0)) = 2 := by
        unfold charWidth; rw [UInt8.toNat_ofNat']; repeat' split
        all_goals omega
      rw [if_neg h1, if_pos h2]
      simp only [List.take_succ_cons, List.take_zero, chunks_cons, chunks_nil, chunk, hw]
    · split at hn
      · next h1 h2 h3 =>
        have hw : charWidth (UInt8.ofNat (c.toNat / 4096 % 0x10 + 0xE0)) = 3 := by
          unfold charWidth; rw [UInt8.toNat_ofNat']; repeat' split
          all_goals omega
        have hy : secondOk (UInt8.ofNat (c.toNat / 4096 % 0x10 + 0xE0))
            (UInt8.ofNat (c.toNat / 64 % 0x40 + 0x80)) = true := by
          simp only [secondOk, isCont, UInt8.toNat_ofNat']
          repeat' split
          all_goals simp only [Bool.and_eq_true, decide_eq_true_eq]; omega
        rw [if_neg h1, if_neg h2, if_pos h3]
        obtain rfl | rfl : n = 1 ∨ n = 2 := by simp at hn; omega
        · simp only [List.take_succ_cons, List.take_zero, chunks_cons, chunks_nil, chunk, hw]
        · simp only [List.take_succ_cons, List.take_zero, chunks_cons, chunks_nil, chunk, hw, hy,
            if_true]
      · next h1 h2 h3 =>
        have hw : charWidth (UInt8.ofNat (c.toNat / 262144 % 0x08 + 0xF0)) = 4 := by
          unfold charWidth; rw [UInt8.toNat_ofNat']; repeat' split
          all_goals omega
        have hy : secondOk (UInt8.ofNat (c.toNat / 262144 % 0x08 + 0xF0))
            (UInt8.ofNat (c.toNat / 4096 % 0x40 + 0x80)) = true := by
          simp only [secondOk, isCont, UInt8.toNat_ofNat']
          repeat' split
          all_goals simp only [Bool.and_eq_true, decide_eq_true_eq]; omega
        have hz : isCont (UInt8.ofNat (c.toNat / 64 % 0x40 + 0x80)) = true := by
          simp only [isCont, UInt8.toNat_ofNat', Bool.and_eq_true, decide_eq_true_eq]; omega
        rw [if_neg h1, if_neg h2, if_neg h3]
        obtain rfl | rfl | rfl : n = 1 ∨ n = 2 ∨ n = 3 := by simp at hn; omega
        · simp only [List.take_succ_cons, List.take_zero, chunks_cons, chunks_nil, chunk, hw]
        · simp only [List.take_succ_cons, List.take_zero, chunks_cons, chunks_nil, chunk, hw, hy,
            if_true]
        · simp only [List.take_succ_cons, List.take_zero, chunks_cons, chunks_nil, chunk, hw, hy, hz,
            if_true]

/-- What `n` bytes of an encoded string hold: the characters `t` that lie before the cut,
    and one invalid run if the cut goes through the character `c`. -/
theorem chunks_take_encode (s : Str) (n : Nat) (hn : n ≤ byteLen s) :
    (∃ t u, s = t ++ u ∧ byteLen t = n ∧ chunks ((encode s).take n) = t.map some) ∨
      ∃ t c u, s = t ++ c :: u ∧ byteLen t < n ∧ n < byteLen t + (String.utf8EncodeChar c).length ∧
        chunks ((encode s).take n) = t.map some ++ [none] := by
  induction s generalizing n with
  | nil => exact Or.inl ⟨[], [], rfl, by simp [byteLen] at hn ⊢; omega, by simp⟩
  | cons c s ih =>
    rcases Nat.lt_or_ge n (String.utf8EncodeChar c).length with hlt | hge
    · rcases Nat.eq_zero_or_pos n with rfl | h0
      · exact Or.inl ⟨[], c :: s, rfl, rfl, by simp⟩
      · refine Or.inr ⟨[], c, s, rfl, by simpa [byteLen] using h0, by simpa [byteLen] using hlt, ?_⟩
        rw [encode_cons, List.take_append_of_le_length (Nat.le_of_lt hlt)]
        simpa using chunks_take_utf8EncodeChar c h0 hlt
    · have hsplit : (encode (c :: s)).take n =
          encode [c] ++ (encode s).take (n - (String.utf8EncodeChar c).length) := by
        rw [encode_cons, List.take_append, List.take_of_length_le hge]
        simp
      have hlen : byteLen (c :: s) = (String.utf8EncodeChar c).length + byteLen s := by
        simp [byteLen]
      rw [hsplit, chunks_encode_append]
      rcases ih (n - (String.utf8EncodeChar c).length) (by omega) with
        ⟨t, u, rfl, ht, h⟩ | ⟨t, d, u, rfl, h1, h2, h⟩
      · exact Or.inl ⟨c :: t, u, rfl, by simp only [byteLen, encode_cons, List.length_append] at ht ⊢; omega,
          by rw [h]; rfl⟩
      · refine Or.inr ⟨c :: t, d, u, rfl, ?_, ?_, by rw [h]; rfl⟩ <;>
          simp only [byteLen, encode_cons, List.length_append] at h1 h2 ⊢ <;> omega

theorem utf8EncodeChar_replacement : (String.utf8EncodeChar (Char.ofNat 0xFFFD)).length = 3 := by
  decide

/-- A cut string that reads as itself lost at most two bytes. -/
theorem fromUtf8Lossy_truncated {s : Str} {n : Nat} (hn : n ≤ byteLen s)
    (h : fromUtf8Lossy ((encode s).take n) = s) : byteLen s ≤ n + 2 := by
  unfold fromUtf8Lossy at h
  rcases chunks_take_encode s n hn with ⟨t, u, rfl, rfl, hc⟩ | ⟨t, c, u, rfl, h1, h2, hc⟩
  · rw [hc, List.map_map] at h
    have ht : t = t ++ u := by simpa [Function.comp_def] using h
    have hu : u = [] := by simpa using ht
    subst hu
    simp
  · rw [hc, List.map_append, List.map_map] at h
    have ht : t ++ [Char.ofNat 0xFFFD] = t ++ c :: u := by simpa [Function.comp_def] using h
    have hcu := List.append_cancel_left ht
    rw [List.cons.injEq] at hcu
    obtain ⟨rfl, rfl⟩ := hcu
    rw [utf8EncodeChar_replacement] at h2
    simp only [byteLen, encode_append, encode_cons, encode_nil, List.length_append,
      utf8EncodeChar_replacement, List.length_nil] at h1 h2 ⊢
    omega

end Utf8

end VantaDns.Lib
