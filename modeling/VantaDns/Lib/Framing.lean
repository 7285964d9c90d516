/-
  Messages on a byte stream, each with its length in two bytes in front, most significant
  byte first.

  `frame` writes the length `as u16`, so it is the right one up to 65535 bytes only.
  `Framed rs w`: the bytes `w` are the messages `rs` with their true lengths in front.
  `framed_flatMap_frame`: frames written one after another are such exactly if no message is
  too long. `Framed.deframe`: reading them back gives the messages.
-/
import VantaDns.Lib.Decoder

namespace VantaDns.Lib

/-- The length of a message `as u16`. -/
def lengthPrefix (bytes : List UInt8) : List UInt8 := beU16 (UInt16.ofNat bytes.length)

/-- A message with its length `as u16` in front. -/
def frame (bytes : List UInt8) : List UInt8 := lengthPrefix bytes ++ bytes

/-- The messages of a stream that are complete. -/
def deframe (stream : List UInt8) : List (List UInt8) :=
  match stream with
  | x :: y :: rest =>
      if rest.length < x.toNat * 256 + y.toNat then []
      else rest.take (x.toNat * 256 + y.toNat) :: deframe (rest.drop (x.toNat * 256 + y.toNat))
  | _ => []
termination_by stream.length
decreasing_by
  simp only [List.length_cons, List.length_drop]
  omega

/-- The bytes `w` are the messages `rs`, each with its true length in front. -/
def Framed : List (List UInt8) → List UInt8 → Prop
  | [], w => w = []
  | r :: rs, w => ∃ (x y : UInt8) (rest : List UInt8), w = x :: y :: (r ++ rest) ∧
      x.toNat * 256 + y.toNat = r.length ∧ Framed rs rest

theorem Framed.deframe {rs : List (List UInt8)} {w : List UInt8} (h : Framed rs w) :
    deframe w = rs := by
  induction rs generalizing w with
  | nil =>
    have hw : w = [] := h
    rw [hw, Lib.deframe]
    intro x y rest h'
    cases h'
  | cons r rs ih =>
    obtain ⟨x, y, rest, rfl, hlen, hrest⟩ := h
    rw [Lib.deframe, hlen]
    rw [if_neg (by rw [List.length_append]; omega), List.take_left, List.drop_left, ih hrest]

theorem framed_frame_append {r w : List UInt8} {rs : List (List UInt8)} :
    Framed (r :: rs) (frame r ++ w) ↔ r.length < 65536 ∧ Framed rs w := by
  have hmod : (UInt16.ofNat r.length).toNat = r.length % 65536 := UInt16.toNat_ofNat'
  have hx : (UInt8.ofNat (r.length % 65536 / 256)).toNat = r.length % 65536 / 256 := by
    rw [UInt8.toNat_ofNat']
    omega
  have hy : (UInt8.ofNat (r.length % 65536 % 256)).toNat = r.length % 65536 % 256 := by
    rw [UInt8.toNat_ofNat']
    omega
  have hframe : frame r ++ w = UInt8.ofNat (r.length % 65536 / 256) ::
      UInt8.ofNat (r.length % 65536 % 256) :: (r ++ w) := by
    rw [frame, lengthPrefix, beU16, hmod]
    rfl
  rw [hframe, Framed]
  constructor
  · rintro ⟨x, y, rest, heq, hlen, hrest⟩
    rw [List.cons.injEq, List.cons.injEq] at heq
    obtain ⟨rfl, rfl, heq⟩ := heq
    rw [hx, hy] at hlen
    have hw := List.append_cancel_left heq
    exact ⟨by omega, hw ▸ hrest⟩
  · intro h
    refine ⟨_, _, w, rfl, ?_, h.2⟩
    rw [hx, hy]
    omega

/-- A frame is one message with its true length in front exactly if that message fits. -/
theorem framed_frame_iff {r r' : List UInt8} : Framed [r'] (frame r) ↔ r' = r ∧ r.length < 65536 := by
  have hself : Framed [r] (frame r ++ []) ↔ r.length < 65536 ∧ Framed [] [] := framed_frame_append
  rw [List.append_nil] at hself
  constructor
  · intro h
    have hsame : r' = r := by
      obtain ⟨x, y, rest, heq, -, hrest⟩ := h
      have hnil : rest = [] := hrest
      unfold frame lengthPrefix beU16 at heq
      simp only [hnil, List.append_nil, List.cons_append, List.nil_append, List.cons.injEq] at heq
      exact heq.2.2.symm
    exact ⟨hsame, (hself.1 (hsame ▸ h)).1⟩
  · intro ⟨hsame, hlen⟩
    rw [hsame]
    exact hself.2 ⟨hlen, rfl⟩

/-- A message that fits stands behind its length. -/
theorem frame_append_eq {r : List UInt8} (h : r.length < 65536) (w : List UInt8) :
    ∃ x y : UInt8, frame r ++ w = x :: y :: (r ++ w) ∧ x.toNat * 256 + y.toNat = r.length := by
  have hframed : Framed [r] (frame r ++ []) := framed_frame_append.2 ⟨h, rfl⟩
  obtain ⟨x, y, rest, heq, hlen, -⟩ := hframed
  refine ⟨x, y, ?_, hlen⟩
  have hxy : frame r = x :: y :: r := by
    unfold frame lengthPrefix beU16 at heq ⊢
    simp only [List.append_nil, List.cons_append, List.nil_append, List.cons.injEq] at heq ⊢
    exact ⟨heq.1, heq.2.1, trivial⟩
  rw [hxy]
  rfl

/-- The first frame of a stream and what stands behind it. -/
theorem frame_take_append {x y : UInt8} {rest : List UInt8}
    (h : x.toNat * 256 + y.toNat ≤ rest.length) :
    frame (rest.take (x.toNat * 256 + y.toNat)) ++ rest.drop (x.toNat * 256 + y.toNat) =
      x :: y :: rest := by
  have hlen : lengthPrefix (rest.take (x.toNat * 256 + y.toNat)) = [x, y] := by
    unfold lengthPrefix
    rw [List.length_take, min_eq_left h]
    exact (beU16_eq_iff _ x y).2 rfl
  rw [frame, hlen, List.append_assoc, List.take_append_drop]
  rfl

/-- Frames one after another have the right lengths exactly if all messages fit. -/
theorem framed_flatMap_frame (rs : List (List UInt8)) :
    Framed rs (rs.flatMap frame) ↔ ∀ r ∈ rs, r.length < 65536 := by
  induction rs with
  | nil => simp [Framed]
  | cons r rs ih =>
    rw [List.flatMap_cons, framed_frame_append, ih]
    simp

end VantaDns.Lib
