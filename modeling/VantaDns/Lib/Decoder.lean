/-
  Decoders over a byte buffer with a movable position, in the manner of the `bytes`
  crate's `Buf` on `std::io::Cursor<&[u8]>`. The buffer never changes, the position
  may be set anywhere (also past the end), and a `get_*` or `copy_to_slice` panics
  when fewer bytes remain than it reads.

  `BytesAt b s bs` says that the bytes `bs` stand in `b` at position `s`. Every
  primitive has one rule in these terms for its success (`getU8_ok`, `getU16_ok`,
  `getU32_ok`, `copyToSlice_ok`) and one for its panic. `bind_ok` and `bind_panic`
  take a sequence of reads apart; `many_ok` and `many_panic` do so for a counted loop,
  whose items then form a `Chain`.
-/
import Mathlib

namespace VantaDns.Lib

/-- How a call that returns a `Result` ends: with a value, with an error, or by a panic. -/
inductive Outcome (ε α : Type) where
  | ok (a : α)
  | err (e : ε)
  | panic
  deriving DecidableEq, Repr

/-- A decoder reads a buffer from a position and leaves a new position. -/
def Decoder (ε α : Type) : Type := List UInt8 → Nat → Outcome ε (α × Nat)

namespace Decoder

variable {ε α β : Type}

instance : Monad (Decoder ε) where
  pure a := fun _ s => .ok (a, s)
  bind d f := fun b s =>
    match d b s with
    | .ok (a, t) => f a b t
    | .err e => .err e
    | .panic => .panic

/-- `return Err(e)`. -/
def fail (e : ε) : Decoder ε α := fun _ _ => .err e

/-- `buf.remaining()`. -/
def remaining : Decoder ε Nat := fun b s => .ok (b.length - s, s)

/-- `buf.set_position(p)`. -/
def setPosition (p : Nat) : Decoder ε Unit := fun _ _ => .ok ((), p)

/-- `buf.get_u8()`. -/
def getU8 : Decoder ε UInt8 := fun b s =>
  match b.drop s with
  | x :: _ => .ok (x, s + 1)
  | _ => .panic

/-- `buf.get_u16()`, big-endian. -/
def getU16 : Decoder ε UInt16 := fun b s =>
  match b.drop s with
  | x :: y :: _ => .ok (UInt16.ofNat (x.toNat * 256 + y.toNat), s + 2)
  | _ => .panic

/-- `buf.get_u32()`, big-endian. -/
def getU32 : Decoder ε UInt32 := fun b s =>
  match b.drop s with
  | x :: y :: z :: w :: _ =>
      .ok (UInt32.ofNat (((x.toNat * 256 + y.toNat) * 256 + z.toNat) * 256 + w.toNat), s + 4)
  | _ => .panic

/-- `buf.copy_to_slice(&mut dst)` for a `dst` of `n` bytes. -/
def copyToSlice (n : Nat) : Decoder ε (List UInt8) := fun b s =>
  if b.length - s < n then .panic else .ok ((b.drop s).take n, s + n)

/-- `buf.copy_to_slice` into an array `[u8; n]`. -/
def copyToArray (n : Nat) : Decoder ε (List.Vector UInt8 n) := fun b s =>
  if h : b.length - s < n then .panic
  else .ok (⟨(b.drop s).take n, by rw [List.length_take, List.length_drop]; omega⟩, s + n)

/-- `for _ in 0..n { v.push(d(buf)?) }`. -/
def many (d : Decoder ε α) : Nat → Decoder ε (List α)
  | 0 => pure []
  | n + 1 => do
      let a ← d
      let as ← many d n
      return a :: as

end Decoder

/-! ## Bytes at a position -/

/-- The bytes `bs` stand in `b` at position `s`. -/
def BytesAt (b : List UInt8) (s : Nat) (bs : List UInt8) : Prop := bs <+: b.drop s

instance (b : List UInt8) (s : Nat) (bs : List UInt8) : Decidable (BytesAt b s bs) :=
  inferInstanceAs (Decidable (bs <+: b.drop s))

/-- `put_u16`, big-endian. -/
def beU16 (v : UInt16) : List UInt8 := [UInt8.ofNat (v.toNat / 256), UInt8.ofNat (v.toNat % 256)]

/-- `put_u32`, big-endian. -/
def beU32 (v : UInt32) : List UInt8 :=
  [UInt8.ofNat (v.toNat / 16777216), UInt8.ofNat (v.toNat / 65536 % 256),
    UInt8.ofNat (v.toNat / 256 % 256), UInt8.ofNat (v.toNat % 256)]

@[simp] theorem length_beU16 (v : UInt16) : (beU16 v).length = 2 := rfl

@[simp] theorem length_beU32 (v : UInt32) : (beU32 v).length = 4 := rfl

theorem beU16_eq_iff (v : UInt16) (x y : UInt8) :
    beU16 v = [x, y] ↔ v = UInt16.ofNat (x.toNat * 256 + y.toNat) := by
  have hx := x.toNat_lt
  have hy := y.toNat_lt
  have hv := v.toNat_lt
  constructor
  · intro h
    simp only [beU16, List.cons.injEq, and_true] at h
    apply UInt16.toNat_inj.mp
    have h1 := congrArg UInt8.toNat h.1
    have h2 := congrArg UInt8.toNat h.2
    simp only [UInt8.toNat_ofNat', UInt16.toNat_ofNat'] at *
    omega
  · rintro rfl
    simp only [beU16, List.cons.injEq, and_true]
    constructor <;> apply UInt8.toNat_inj.mp <;>
      simp only [UInt8.toNat_ofNat', UInt16.toNat_ofNat'] <;> omega

theorem beU32_eq_iff (v : UInt32) (x y z w : UInt8) :
    beU32 v = [x, y, z, w] ↔
      v = UInt32.ofNat (((x.toNat * 256 + y.toNat) * 256 + z.toNat) * 256 + w.toNat) := by
  have hx := x.toNat_lt
  have hy := y.toNat_lt
  have hz := z.toNat_lt
  have hw := w.toNat_lt
  have hv := v.toNat_lt
  constructor
  · intro h
    simp only [beU32, List.cons.injEq, and_true] at h
    apply UInt32.toNat_inj.mp
    have h1 := congrArg UInt8.toNat h.1
    have h2 := congrArg UInt8.toNat h.2.1
    have h3 := congrArg UInt8.toNat h.2.2.1
    have h4 := congrArg UInt8.toNat h.2.2.2
    simp only [UInt8.toNat_ofNat', UInt32.toNat_ofNat'] at *
    omega
  · rintro rfl
    simp only [beU32, List.cons.injEq, and_true]
    refine ⟨?_, ?_, ?_, ?_⟩ <;> apply UInt8.toNat_inj.mp <;>
      simp only [UInt8.toNat_ofNat', UInt32.toNat_ofNat'] <;> omega

theorem beU16_inj {v w : UInt16} (h : beU16 v = beU16 w) : v = w :=
  ((beU16_eq_iff v _ _).1 h).trans ((beU16_eq_iff w _ _).1 rfl).symm

theorem beU32_inj {v w : UInt32} (h : beU32 v = beU32 w) : v = w :=
  ((beU32_eq_iff v _ _ _ _).1 h).trans ((beU32_eq_iff w _ _ _ _).1 rfl).symm

variable {b : List UInt8} {s e : Nat}

@[simp] theorem bytesAt_nil (b : List UInt8) (s : Nat) : BytesAt b s [] := List.nil_prefix

theorem bytesAt_append (b : List UInt8) (s : Nat) (xs ys : List UInt8) :
    BytesAt b s (xs ++ ys) ↔ BytesAt b s xs ∧ BytesAt b (s + xs.length) ys := by
  unfold BytesAt
  constructor
  · rintro ⟨t, ht⟩
    refine ⟨⟨ys ++ t, by rw [← ht, List.append_assoc]⟩, ⟨t, ?_⟩⟩
    rw [← List.drop_drop, ← ht, List.append_assoc, List.drop_left]
  · rintro ⟨⟨t, ht⟩, u, hu⟩
    rw [← List.drop_drop, ← ht, List.drop_left] at hu
    exact ⟨u, by rw [← ht, ← hu, List.append_assoc]⟩

theorem bytesAt_cons (b : List UInt8) (s : Nat) (x : UInt8) (xs : List UInt8) :
    BytesAt b s (x :: xs) ↔ BytesAt b s [x] ∧ BytesAt b (s + 1) xs :=
  bytesAt_append b s [x] xs

theorem BytesAt.length_le {bs : List UInt8} (h : BytesAt b s bs) : bs.length ≤ b.length - s := by
  have := List.IsPrefix.length_le h
  rwa [List.length_drop] at this

theorem BytesAt.lt_length {x : UInt8} {bs : List UInt8} (h : BytesAt b s (x :: bs)) :
    s + bs.length < b.length := by
  have := h.length_le
  rw [List.length_cons] at this
  omega

/-- Two byte strings of one length at one position are equal. -/
theorem BytesAt.unique {xs ys : List UInt8} (hx : BytesAt b s xs) (hy : BytesAt b s ys)
    (hl : xs.length = ys.length) : xs = ys :=
  (List.prefix_of_prefix_length_le hx hy (Nat.le_of_eq hl)).eq_of_length hl

theorem bytesAt_take (b : List UInt8) (s n : Nat) : BytesAt b s ((b.drop s).take n) :=
  List.take_prefix n _

theorem bytesAt_head {x y : UInt8} (hx : BytesAt b s [x]) (hy : BytesAt b s [y]) : x = y := by
  simpa using hx.unique hy rfl

/-! ## Rules of the primitives -/

namespace Decoder

variable {ε α β : Type} {d : Decoder ε α} {f : α → Decoder ε β}

theorem bind_ok {r : β} :
    (d >>= f) b s = .ok (r, e) ↔ ∃ a t, d b s = .ok (a, t) ∧ f a b t = .ok (r, e) := by
  show (match d b s with | .ok (a, t) => f a b t | .err e => .err e | .panic => .panic) = _ ↔ _
  cases h : d b s with
  | ok p => obtain ⟨a, t⟩ := p; simp
  | err e => simp
  | panic => simp

theorem bind_panic :
    (d >>= f) b s = .panic ↔ d b s = .panic ∨ ∃ a t, d b s = .ok (a, t) ∧ f a b t = .panic := by
  show (match d b s with | .ok (a, t) => f a b t | .err e => .err e | .panic => .panic) = _ ↔ _
  cases h : d b s with
  | ok p => obtain ⟨a, t⟩ := p; simp
  | err e => simp
  | panic => simp

theorem bind_of_ok {a : α} {t : Nat} (h : d b s = .ok (a, t)) : (d >>= f) b s = f a b t := by
  show (match d b s with | .ok (a, t) => f a b t | .err e => .err e | .panic => .panic) = _
  rw [h]

theorem bind_of_err {x : ε} (h : d b s = .err x) : (d >>= f) b s = .err x := by
  show (match d b s with | .ok (a, t) => f a b t | .err e => .err e | .panic => .panic) = _
  rw [h]

theorem bind_of_panic (h : d b s = .panic) : (d >>= f) b s = .panic := by
  show (match d b s with | .ok (a, t) => f a b t | .err e => .err e | .panic => .panic) = _
  rw [h]

@[simp] theorem pure_apply (a : α) : (pure a : Decoder ε α) b s = .ok (a, s) := rfl

@[simp] theorem fail_apply (x : ε) : (fail x : Decoder ε α) b s = .err x := rfl

@[simp] theorem remaining_apply : (remaining : Decoder ε Nat) b s = .ok (b.length - s, s) := rfl

@[simp] theorem setPosition_apply (p : Nat) :
    (setPosition p : Decoder ε Unit) b s = .ok ((), p) := rfl

/-- `let rem ← buf.remaining()` reads no byte. -/
@[simp] theorem remaining_bind (g : Nat → Decoder ε β) :
    (remaining >>= g) b s = g (b.length - s) b s := rfl

@[simp] theorem setPosition_bind (p : Nat) (g : Unit → Decoder ε β) :
    (setPosition p >>= g) b s = g () b p := rfl

theorem getU8_ok {x : UInt8} :
    (getU8 : Decoder ε UInt8) b s = .ok (x, e) ↔ BytesAt b s [x] ∧ e = s + 1 := by
  unfold getU8 BytesAt
  cases b.drop s with
  | nil => simp
  | cons y t => simp [eq_comm]

theorem getU8_panic : (getU8 : Decoder ε UInt8) b s = .panic ↔ b.length ≤ s := by
  unfold getU8
  have hl := List.length_drop (i := s) (l := b)
  cases h : b.drop s with
  | nil => rw [h] at hl; simp at hl ⊢; omega
  | cons y t => rw [h] at hl; simp at hl ⊢; omega

/-- Where a byte is left, it is read. -/
theorem getU8_of_lt (h : s < b.length) :
    ∃ x, BytesAt b s [x] ∧ (getU8 : Decoder ε UInt8) b s = .ok (x, s + 1) := by
  have hhead : BytesAt b s [b[s]] := by
    unfold BytesAt
    rw [List.drop_eq_getElem_cons h]
    exact ⟨_, rfl⟩
  exact ⟨b[s], hhead, getU8_ok.2 ⟨hhead, rfl⟩⟩

theorem getU16_ok {v : UInt16} :
    (getU16 : Decoder ε UInt16) b s = .ok (v, e) ↔ BytesAt b s (beU16 v) ∧ e = s + 2 := by
  unfold getU16 BytesAt
  cases b.drop s with
  | nil => simp [beU16]
  | cons x t =>
    cases t with
    | nil => simp [beU16]
    | cons y t =>
      have hp : beU16 v <+: x :: y :: t ↔ beU16 v = [x, y] := by
        simp [beU16, List.cons_prefix_cons]
      simp only [hp, beU16_eq_iff, Outcome.ok.injEq, Prod.mk.injEq]
      exact and_congr eq_comm eq_comm

theorem getU16_panic : (getU16 : Decoder ε UInt16) b s = .panic ↔ b.length - s < 2 := by
  unfold getU16
  rw [← List.length_drop]
  rcases b.drop s with _ | ⟨x, _ | ⟨y, t⟩⟩ <;> simp

theorem getU32_ok {v : UInt32} :
    (getU32 : Decoder ε UInt32) b s = .ok (v, e) ↔ BytesAt b s (beU32 v) ∧ e = s + 4 := by
  unfold getU32 BytesAt
  rcases b.drop s with _ | ⟨x, _ | ⟨y, _ | ⟨z, _ | ⟨w, t⟩⟩⟩⟩
  · simp [beU32]
  · simp [beU32]
  · simp [beU32]
  · simp [beU32]
  · have hp : beU32 v <+: x :: y :: z :: w :: t ↔ beU32 v = [x, y, z, w] := by
      simp [beU32, List.cons_prefix_cons]
    simp only [hp, beU32_eq_iff, Outcome.ok.injEq, Prod.mk.injEq]
    exact and_congr eq_comm eq_comm

theorem getU32_panic : (getU32 : Decoder ε UInt32) b s = .panic ↔ b.length - s < 4 := by
  unfold getU32
  rw [← List.length_drop]
  rcases b.drop s with _ | ⟨x, _ | ⟨y, _ | ⟨z, _ | ⟨w, t⟩⟩⟩⟩ <;> simp

theorem copyToSlice_ok {n : Nat} {l : List UInt8} :
    (copyToSlice n : Decoder ε (List UInt8)) b s = .ok (l, e) ↔
      BytesAt b s l ∧ l.length = n ∧ e = s + n := by
  unfold copyToSlice
  split
  · next h =>
    constructor
    · intro h'; cases h'
    · rintro ⟨hb, hl, -⟩
      have := hb.length_le
      omega
  · next h =>
    have htake : ((b.drop s).take n).length = n := by
      rw [List.length_take, List.length_drop]; omega
    simp only [Outcome.ok.injEq, Prod.mk.injEq]
    constructor
    · rintro ⟨rfl, rfl⟩
      exact ⟨bytesAt_take b s n, htake, rfl⟩
    · rintro ⟨hb, hl, rfl⟩
      exact ⟨(bytesAt_take b s n).unique hb (htake.trans hl.symm), rfl⟩

theorem copyToSlice_panic {n : Nat} :
    (copyToSlice n : Decoder ε (List UInt8)) b s = .panic ↔ b.length - s < n := by
  unfold copyToSlice
  split <;> simp_all

/-- Where `n` bytes are left, they are copied. -/
theorem copyToSlice_of_le {n : Nat} (h : n ≤ b.length - s) :
    ∃ l, BytesAt b s l ∧ l.length = n ∧
      (copyToSlice n : Decoder ε (List UInt8)) b s = .ok (l, s + n) := by
  have htake : ((b.drop s).take n).length = n := by
    rw [List.length_take, List.length_drop]
    omega
  have hbytes := bytesAt_take b s n
  exact ⟨_, hbytes, htake, copyToSlice_ok.2 ⟨hbytes, htake, rfl⟩⟩

theorem copyToArray_ok {n : Nat} {v : List.Vector UInt8 n} :
    (copyToArray n : Decoder ε (List.Vector UInt8 n)) b s = .ok (v, e) ↔
      BytesAt b s v.toList ∧ e = s + n := by
  obtain ⟨l, hl⟩ := v
  have h := @copyToSlice_ok b s e ε n l
  simp only [hl, true_and] at h
  show _ ↔ BytesAt b s l ∧ e = s + n
  rw [← h]
  unfold copyToArray copyToSlice
  by_cases hn : b.length - s < n
  · simp [hn]
  · rw [dif_neg hn, if_neg hn]
    constructor
    · intro h'
      cases h'
      rfl
    · intro h'
      cases h'
      rfl

theorem copyToArray_panic {n : Nat} :
    (copyToArray n : Decoder ε (List.Vector UInt8 n)) b s = .panic ↔ b.length - s < n := by
  unfold copyToArray
  split <;> simp_all

end Decoder

/-! ## Chains of items -/

/-- The items `as` stand one after another from `s` on, the last one ending at `e`, where
    `R s a e` says that item `a` is read at `s` and reading resumes at `e`. -/
inductive Chain {α : Type} (R : Nat → α → Nat → Prop) : Nat → List α → Nat → Prop where
  | nil {s : Nat} : Chain R s [] s
  | cons {s t e : Nat} {a : α} {as : List α} : R s a t → Chain R t as e → Chain R s (a :: as) e

namespace Chain

variable {α : Type} {R R' : Nat → α → Nat → Prop} {s t e : Nat} {a : α} {as bs : List α}

theorem nil_iff : Chain R s [] e ↔ e = s :=
  ⟨fun h => by cases h; rfl, fun h => h ▸ .nil⟩

theorem cons_iff : Chain R s (a :: as) e ↔ ∃ t, R s a t ∧ Chain R t as e :=
  ⟨fun h => by cases h with | cons h1 h2 => exact ⟨_, h1, h2⟩, fun ⟨_, h1, h2⟩ => .cons h1 h2⟩

theorem append_iff : Chain R s (as ++ bs) e ↔ ∃ t, Chain R s as t ∧ Chain R t bs e := by
  induction as generalizing s with
  | nil => exact ⟨fun h => ⟨s, .nil, h⟩, fun ⟨_, h1, h2⟩ => nil_iff.1 h1 ▸ h2⟩
  | cons a as ih =>
    rw [List.cons_append, cons_iff]
    constructor
    · rintro ⟨t, h1, h2⟩
      obtain ⟨u, h3, h4⟩ := ih.1 h2
      exact ⟨u, .cons h1 h3, h4⟩
    · rintro ⟨u, h1, h2⟩
      obtain ⟨t, h3, h4⟩ := cons_iff.1 h1
      exact ⟨t, h3, ih.2 ⟨u, h4, h2⟩⟩

theorem mono (h : ∀ s a e, R s a e → R' s a e) (hc : Chain R s as e) : Chain R' s as e := by
  induction hc with
  | nil => exact .nil
  | cons h1 _ ih => exact .cons (h _ _ _ h1) ih

theorem exists_of_mem (hc : Chain R s as e) (ha : a ∈ as) : ∃ t u, R t a u := by
  induction hc with
  | nil => simp at ha
  | cons h1 _ ih =>
    rcases List.mem_cons.1 ha with rfl | ha
    · exact ⟨_, _, h1⟩
    · exact ih ha

/-- Two readings of one place that go on at the same positions and agree on each item, up to
    `f` and `g`, agree on chains of one length. -/
theorem map_eq {β γ : Type} {S : Nat → β → Nat → Prop} {f : α → γ} {g : β → γ} {bs : List β}
    (hRS : ∀ a ∈ as, ∀ s b e e', R s a e → S s b e' → e = e' ∧ f a = g b) {e' : Nat}
    (h : Chain R s as e) (h' : Chain S s bs e') (hl : as.length = bs.length) :
    e = e' ∧ as.map f = bs.map g := by
  induction h generalizing bs with
  | nil =>
    cases bs with
    | nil => exact ⟨(nil_iff.1 h').symm, rfl⟩
    | cons b bs => simp at hl
  | @cons s t e a as h1 _ ih =>
    cases h' with
    | nil => simp at hl
    | cons h2 h3 =>
      obtain ⟨rfl, hfg⟩ := hRS a List.mem_cons_self _ _ _ _ h1 h2
      obtain ⟨rfl, hmap⟩ := ih (fun a' ha' => hRS a' (List.mem_cons_of_mem a ha')) h3
        (by simpa using hl)
      exact ⟨rfl, by rw [List.map_cons, List.map_cons, hfg, hmap]⟩

/-- If an item and its end are determined by its start, so are a chain of given length
    and its end. -/
theorem unique (hR : ∀ s a a' e e', R s a e → R s a' e' → a = a' ∧ e = e') {e' : Nat}
    (h : Chain R s as e) (h' : Chain R s bs e') (hl : as.length = bs.length) :
    as = bs ∧ e = e' := by
  have hmap := map_eq (f := id) (g := id)
    (fun a _ s b e e' h1 h2 => (hR s a b e e' h1 h2).symm) h h' hl
  rw [List.map_id, List.map_id] at hmap
  exact hmap.symm

/-- Items that each take `w` positions, and end before `l`. -/
theorem room {w l : Nat} (hR : ∀ s a e, R s a e → s + w ≤ e ∧ e ≤ l) (h : Chain R s as e)
    (hs : s ≤ l) : s + w * as.length ≤ e ∧ e ≤ l := by
  induction h with
  | nil => exact ⟨Nat.le_refl _, hs⟩
  | @cons s t e a as h1 _ ih =>
    have ha := hR s a t h1
    have hrest := ih ha.2
    rw [List.length_cons, Nat.mul_succ]
    omega

/-- An item that ends where it starts may be repeated at will. -/
theorem replicate (h : R s a s) (n : Nat) : Chain R s (List.replicate n a) s := by
  induction n with
  | zero => exact .nil
  | succ n ih => exact .cons h ih

/-- Items written one after another are read as a chain if each is read back on its own. -/
theorem of_written {w : α → List UInt8} {b : List UInt8}
    (hw : ∀ a ∈ as, ∀ s, BytesAt b s (w a) → R s a (s + (w a).length))
    (hb : BytesAt b s (as.flatMap w)) : Chain R s as (s + (as.flatMap w).length) := by
  induction as generalizing s with
  | nil => exact .nil
  | cons a as ih =>
    rw [List.flatMap_cons, bytesAt_append] at hb
    rw [List.flatMap_cons, List.length_append, ← Nat.add_assoc]
    exact .cons (hw a List.mem_cons_self s hb.1)
      (ih (fun a' ha' => hw a' (List.mem_cons_of_mem a ha')) hb.2)

/-- What follows for each item from being read where it is written follows for all items of
    a chain that is read where it is written. -/
theorem written {w : α → List UInt8} {b : List UInt8} {G : α → Prop}
    (hw : ∀ a ∈ as, ∀ s e, R s a e → BytesAt b s (w a) → G a ∧ e = s + (w a).length)
    (hc : Chain R s as e) (hb : BytesAt b s (as.flatMap w)) :
    (∀ a ∈ as, G a) ∧ e = s + (as.flatMap w).length := by
  induction hc with
  | nil => simp
  | @cons s t e a as h1 _ ih =>
    rw [List.flatMap_cons, bytesAt_append] at hb
    obtain ⟨hg, rfl⟩ := hw a List.mem_cons_self s t h1 hb.1
    obtain ⟨hgs, rfl⟩ := ih (fun a' ha' => hw a' (List.mem_cons_of_mem a ha')) hb.2
    rw [List.flatMap_cons, List.length_append, ← Nat.add_assoc]
    refine ⟨?_, rfl⟩
    intro a' ha'
    rcases List.mem_cons.1 ha' with rfl | ha'
    · exact hg
    · exact hgs a' ha'

end Chain

namespace Decoder

variable {ε α : Type} {d : Decoder ε α} {R : Nat → α → Nat → Prop}

theorem many_ok (hd : ∀ s a e, d b s = .ok (a, e) ↔ R s a e) (n : Nat) (as : List α) :
    many d n b s = .ok (as, e) ↔ Chain R s as e ∧ as.length = n := by
  induction n generalizing s e as with
  | zero =>
    show Outcome.ok ([], s) = .ok (as, e) ↔ _
    cases as with
    | nil => simp [Chain.nil_iff, eq_comm]
    | cons a as => simp
  | succ n ih =>
    simp only [many, bind_ok, hd, ih, pure_apply, Outcome.ok.injEq, Prod.mk.injEq]
    constructor
    · rintro ⟨a, t, h1, as', t', ⟨h2, rfl⟩, rfl, rfl⟩
      exact ⟨.cons h1 h2, rfl⟩
    · rintro ⟨h, hl⟩
      cases h with
      | nil => simp at hl
      | cons h1 h2 => exact ⟨_, _, h1, _, _, ⟨h2, by simpa using hl⟩, rfl, rfl⟩

/-- A counted loop panics exactly when some item does after fewer than `n` good ones. -/
theorem many_panic {P : Nat → Prop} (hd : ∀ s a e, d b s = .ok (a, e) ↔ R s a e)
    (hp : ∀ s, d b s = .panic ↔ P s) (n : Nat) :
    many d n b s = .panic ↔ ∃ as t, Chain R s as t ∧ as.length < n ∧ P t := by
  induction n generalizing s with
  | zero => simp [many]
  | succ n ih =>
    simp only [many, bind_panic, hd, hp, ih, pure_apply]
    constructor
    · rintro (h | ⟨a, t, h1, ⟨as, t', h2, hl, h3⟩ | ⟨_, _, _, h⟩⟩)
      · exact ⟨[], s, .nil, by simp, h⟩
      · exact ⟨a :: as, t', .cons h1 h2, by simpa using hl, h3⟩
      · cases h
    · rintro ⟨as, t, h1, hl, h2⟩
      cases h1 with
      | nil => exact Or.inl h2
      | cons h3 h4 => exact Or.inr ⟨_, _, h3, Or.inl ⟨_, _, h4, by simpa using hl, h2⟩⟩

end Decoder

end VantaDns.Lib
