/-
  RFC 1035 §4.1.4 encodings, and which of them the decoder reads rightly.

  `RfcNameAt b s ls k e`: a conforming decoder reads the labels `ls` at `s`, through `k`
  pointers to earlier names, and goes on at `e`, behind the zero byte or the first pointer
  of the name in place. `inPlace` is the convention of encodings with such names, `TXT`
  strings that are their UTF-8 bytes, and RDATA as long as RDLENGTH says.

  The decoder follows pointers to the right labels but goes on behind the name that it
  jumped to, which lies before the pointer (`RfcNameAt.walk`). So it reads an encoding and
  resumes behind every name exactly when no name is compressed
  (`parse_and_resumes_iff_inFull`).
-/
import VantaDns.Protocol.MessageWire

namespace VantaDns.Protocol

open Lib Lib.Decoder Lib.Utf8 Lib.Text Lib.Unicode

variable {b : List UInt8} {s e : Nat}

/-! ## Names -/

/-- A name in full, or labels and a pointer to a name whose bytes end before the pointer. -/
inductive RfcNameAt (b : List UInt8) : Nat → List Label → Nat → Nat → Prop where
  | root {s : Nat} : BytesAt b s [0] → RfcNameAt b s [] 0 (s + 1)
  | label {s k e : Nat} {l : Label} {ls : List Label} : 1 ≤ l.length → l.length ≤ 63 →
      BytesAt b s (counted l) → RfcNameAt b (s + 1 + l.length) ls k e →
      RfcNameAt b s (l :: ls) k e
  | pointer {s off k e : Nat} {ls : List Label} : off < 16384 → BytesAt b s (pointerBytes off) →
      RfcNameAt b off ls k e → e ≤ s → RfcNameAt b s ls (k + 1) (s + 2)

/-- The decoder's walk finds the same labels. It ends where the name does if there is no
    pointer, and before that if there is one. -/
theorem RfcNameAt.walk {ls : List Label} {k : Nat} (h : RfcNameAt b s ls k e) :
    ∃ z, NameAt b s ls k e z ∧ (k = 0 → z = e) ∧ (0 < k → z < e) := by
  induction h with
  | root h0 => exact ⟨_, .root h0, fun _ => rfl, fun h => absurd h (by omega)⟩
  | label h1 h63 hb _ ih =>
    obtain ⟨z, hn, h0, hk⟩ := ih
    exact ⟨z, .label (by omega) (by omega) hb hn, h0, hk⟩
  | @pointer s off k e ls hoff hp _ hle ih =>
    obtain ⟨z, hn, h0, hk⟩ := ih
    refine ⟨z, .pointer hoff hp hn, fun h => absurd h (by omega), ?_⟩
    intro _
    rcases Nat.eq_zero_or_pos k with hz | hpos
    · have := h0 hz
      omega
    · have := hk hpos
      omega

theorem rfcNameAt_spell {ls : List Label} (hl : ∀ l ∈ ls, 1 ≤ l.length ∧ l.length ≤ 63)
    (h : BytesAt b s (spell ls)) : RfcNameAt b s ls 0 (s + (spell ls).length) := by
  induction ls generalizing s with
  | nil => exact .root h
  | cons l ls ih =>
    rw [spell_cons, bytesAt_append] at h
    have hb := hl l List.mem_cons_self
    have hn := ih (fun l' hl' => hl l' (List.mem_cons_of_mem l hl')) h.2
    have hs : s + (counted l).length = s + 1 + l.length := by
      rw [length_counted]
      omega
    rw [spell_cons, List.length_append, ← Nat.add_assoc]
    rw [hs] at hn ⊢
    exact .label hb.1 hb.2 h.1 hn

theorem RfcNameAt.bytes {ls : List Label} (h : RfcNameAt b s ls 0 e) :
    BytesAt b s (spell ls) ∧ e = s + (spell ls).length := by
  obtain ⟨z, hn, -, -⟩ := h.walk
  exact bytesAt_spell hn

/-! ## Encodings -/

/-- Labels as the encoder may be given them: of 1 to 63 bytes, lower-case and without dots. -/
def PlainLabels (labels : List Str) : Prop :=
  ∀ l ∈ labels, 1 ≤ byteLen l ∧ byteLen l ≤ 63 ∧ '.' ∉ l ∧ toLowercase l = l

/-- RFC 1035 encodings, with at most 50 pointers a name. -/
def inPlace : Convention where
  name b s n e := ∃ (labels : List Str) (k : Nat), PlainLabels labels ∧ n = joinDots labels ∧
    RfcNameAt b s (labels.map encode) k e ∧ k ≤ 50
  text raw t := raw = encode t
  rdataEnd d e := e = d

/-- The encodings all of whose names, wherever they stand in the message, satisfy `Q`. -/
def Convention.withNames (C : Convention) (Q : List UInt8 → Nat → Str → Nat → Prop) :
    Convention where
  name b s n e := C.name b s n e ∧ Q b s n e
  text := C.text
  rdataEnd := C.rdataEnd

/-- The name at `s` is written in full. -/
def InFull (b : List UInt8) (s : Nat) (_ : Str) (e : Nat) : Prop :=
  ∃ ls : List Label, RfcNameAt b s ls 0 e

/-- The decoder reads the name and goes on behind its bytes in place. -/
def Resumes (b : List UInt8) (s : Nat) (n : Str) (e : Nat) : Prop :=
  readDomainName b s = .ok (n, e)

theorem nameText_plain {labels : List Str} (h : PlainLabels labels) :
    nameText labels = joinDots labels := by
  have hlow : labels.map toLowercase = labels.map id :=
    List.map_congr_left fun l hl => (h l hl).2.2.2
  rw [nameText, hlow, List.map_id]

/-- The decoder resumes behind a name exactly when the name is in full. -/
theorem resumes_iff_inFull {n : Str} (h : inPlace.name b s n e) :
    Resumes b s n e ↔ InFull b s n e := by
  obtain ⟨labels, k, hplain, rfl, hn, hk⟩ := h
  obtain ⟨z, hwalk, h0, hpos⟩ := hn.walk
  have hread : readDomainName b s = .ok (joinDots labels, z) :=
    readDomainName_ok.2 ⟨labels, k, e, hwalk, hk, (nameText_plain hplain).symm⟩
  unfold Resumes InFull
  rw [hread]
  constructor
  · intro heq
    have hze : z = e := by
      cases heq
      rfl
    have hk0 : k = 0 := by
      rcases Nat.eq_zero_or_pos k with hz | hp
      · exact hz
      · have := hpos hp
        omega
    subst hk0
    exact ⟨_, hn⟩
  · rintro ⟨ls, hfull⟩
    obtain ⟨z', hwalk', -, -⟩ := hfull.walk
    have hk0 := (hwalk.unique hwalk').2.1
    rw [h0 hk0]

theorem inFull_le_resumes : (inPlace.withNames InFull).Le (inPlace.withNames Resumes) :=
  ⟨fun _ _ _ _ h => ⟨h.1, (resumes_iff_inFull h.1).2 h.2⟩, fun _ _ => id, fun _ _ => id⟩

theorem resumes_le_inFull : (inPlace.withNames Resumes).Le (inPlace.withNames InFull) :=
  ⟨fun _ _ _ _ h => ⟨h.1, (resumes_iff_inFull h.1).1 h.2⟩, fun _ _ => id, fun _ _ => id⟩

/-- Where the decoder resumes behind the names, it reads what the encoding says. -/
theorem resumes_le_afterZero : (inPlace.withNames Resumes).Le afterZero := by
  refine ⟨fun b s n e h => readDomainName_iff.1 h.2, ?_, fun _ _ _ => trivial⟩
  intro raw t h
  have hraw : raw = encode t := h
  rw [hraw]
  exact (fromUtf8Lossy_encode t).symm

/-- A message is an encoding of `p` that the decoder reads as `p`, resuming behind every name,
    exactly when it is an encoding of `p` without compressed names. -/
theorem parse_and_resumes_iff_inFull (b : List UInt8) (p : DnsPacket) :
    (DnsPacket.parse b = .ok p ∧ PacketAt (inPlace.withNames Resumes) b p) ↔
      PacketAt (inPlace.withNames InFull) b p := by
  constructor
  · intro h
    exact h.2.mono resumes_le_inFull
  · intro h
    have hr := h.mono inFull_le_resumes
    exact ⟨parse_ok.2 (hr.mono resumes_le_afterZero), hr⟩

/-- A reply with one question and one answer, whose owner is a pointer to the question. -/
def compressedReply : List UInt8 :=
  [0, 1, 0x81, 0x80, 0, 1, 0, 1, 0, 0, 0, 0] ++ [1, 97, 0, 0, 1, 0, 1] ++
    [0xC0, 12, 0, 1, 0, 1, 0, 0, 0, 60, 0, 4, 10, 0, 0, 1]

def compressedPacket : DnsPacket where
  header := ⟨1, true, .Query, false, false, true, true, .NoError, 1, 1, 0, 0⟩
  questions := [⟨['a'], .A, .IN⟩]
  answers := [⟨['a'], .A, .IN, 60, .A ⟨[10, 0, 0, 1], rfl⟩⟩]
  authorities := []
  additionals := []

theorem parse_compressedReply :
    PacketAt inPlace compressedReply compressedPacket ∧
      DnsPacket.parse compressedReply ≠ .ok compressedPacket := by
  refine ⟨?_, by decide +kernel⟩
  have hplain : PlainLabels [['a']] := by
    intro l hl
    obtain rfl := List.mem_singleton.1 hl
    decide +kernel
  have hname : RfcNameAt compressedReply 12 [[97]] 0 15 :=
    .label (by decide) (by decide) (by decide) (.root (by decide))
  have hpointer : RfcNameAt compressedReply 19 [[97]] 1 21 :=
    .pointer (show 12 < 16384 by decide) (by decide) hname (by decide)
  refine ⟨35, ⟨0x8180, by decide, by decide⟩, rfl, rfl, rfl, rfl, 19, 35, 35, ?_, ?_, .nil, .nil⟩
  · refine .cons ⟨15, ⟨[['a']], 0, hplain, rfl, hname, by decide⟩, by decide, by decide, by decide,
      rfl⟩ .nil
  · refine .cons ⟨21, 4, ⟨[['a']], 1, hplain, rfl, hpointer, by decide⟩, by decide, by decide,
      by decide, by decide, .A (by decide), rfl⟩ .nil

end VantaDns.Protocol
