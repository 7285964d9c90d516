/-
  `char::is_whitespace` and `str::to_lowercase` of Rust's standard library.

  Lower-casing maps each `char` by the Unicode table, except that a capital sigma becomes a
  final sigma at the end of a word (Unicode's `Final_Sigma` condition), so the result
  depends on the neighbours of a sigma.

  A `char` is `Settled` when lower-casing leaves it alone in every context. Every `char`
  that lower-casing produces is settled (`toLowercase_settled`), and a string of settled
  `char`s is its own lower-case form (`toLowercase_of_settled`), so lower-casing twice is
  lower-casing once (`toLowercase_idem`).
-/
import VantaDns.Lib.UnicodeData

namespace VantaDns.Lib.Unicode

def inRanges (n : Nat) (rs : List (Nat × Nat)) : Bool := rs.any fun r => r.1 ≤ n && n ≤ r.2

/-- `char::is_whitespace`. -/
def isWhitespace (c : Char) : Bool := inRanges c.toNat whiteSpaceRanges

def isCased (c : Char) : Bool := inRanges c.toNat casedRanges

def isCaseIgnorable (c : Char) : Bool := inRanges c.toNat caseIgnorableRanges

def CaseRange.covers (n : Nat) (r : CaseRange) : Bool :=
  r.lo ≤ n && n ≤ r.hi && (n - r.lo) % r.step == 0

/-- The lower-case form of one `char` (`conversions::to_lower`). -/
def toLower (c : Char) : Str :=
  if c.toNat < 128 then
    if 65 ≤ c.toNat ∧ c.toNat ≤ 90 then [Char.ofNat (c.toNat + 32)] else [c]
  else if c.toNat = 0x130 then [Char.ofNat 0x69, Char.ofNat 0x307]
  else
    match caseRanges.find? (CaseRange.covers c.toNat) with
    | some r => [Char.ofNat (r.target + (c.toNat - r.lo))]
    | none => [c]

/-- The capital sigma, the one `char` whose lower-case form depends on its context. -/
def capitalSigma : Char := Char.ofNat 0x3A3

/-- `case_ignorable_then_cased`: the first `char` that is not case-ignorable is cased. -/
def caseIgnorableThenCased (s : Str) : Bool :=
  match s.dropWhile isCaseIgnorable with
  | c :: _ => isCased c
  | [] => false

/-- `map_uppercase_sigma`, with the `char`s before the sigma from the nearest backwards. -/
def mapUppercaseSigma (before after : Str) : Char :=
  if caseIgnorableThenCased before && !caseIgnorableThenCased after then Char.ofNat 0x3C2
  else Char.ofNat 0x3C3

/-- Lower-casing of `s`, the `char`s already passed being `before`, nearest first. -/
def lowerFrom (before : Str) : Str → Str
  | [] => []
  | c :: rest =>
      (if c = capitalSigma then [mapUppercaseSigma before rest] else toLower c) ++
        lowerFrom (c :: before) rest

/-- `str::to_lowercase`. -/
def toLowercase (s : Str) : Str := lowerFrom [] s

/-! ## Settled characters -/

/-- Lower-casing leaves `c` alone, whatever stands around it. -/
def Settled (c : Char) : Prop := toLower c = [c] ∧ c ≠ capitalSigma

instance (c : Char) : Decidable (Settled c) := inferInstanceAs (Decidable (_ ∧ _))

/-- No character of the run `r`, after mapping, is one that `q` maps. -/
def CaseRange.Apart (r q : CaseRange) : Prop :=
  r.target + (r.hi - r.lo) < q.lo ∨ q.hi < r.target ∨
    (r.step = 2 ∧ q.step = 2 ∧ (r.target + q.lo) % 2 = 1)

instance (r q : CaseRange) : Decidable (r.Apart q) := inferInstanceAs (Decidable (_ ∨ _))

/-- The targets of the table lie outside its sources, are scalar values, and are neither
    capital sigma, nor U+0130, nor ASCII capitals, nor white space, nor dots. -/
def CaseRange.targetOk (r : CaseRange) : Bool :=
  caseRanges.all (fun q => r.Apart q) && decide (90 < r.target) &&
    decide (r.target + (r.hi - r.lo) < 128 ∨ 128 ≤ r.target) &&
    decide (r.target + (r.hi - r.lo) < 0xD800 ∨
      0xDFFF < r.target ∧ r.target + (r.hi - r.lo) < 0x110000) &&
    decide (r.target + (r.hi - r.lo) < 0x130 ∨ 0x130 < r.target) &&
    decide (r.target + (r.hi - r.lo) < 0x3A3 ∨ 0x3A3 < r.target) &&
    whiteSpaceRanges.all fun w => r.target + (r.hi - r.lo) < w.1 || w.2 < r.target

theorem caseRanges_all_targetOk : caseRanges.all CaseRange.targetOk = true := by decide +kernel

theorem caseRanges_targetOk {r : CaseRange} (hr : r ∈ caseRanges) :
    (∀ q ∈ caseRanges, r.Apart q) ∧ 90 < r.target ∧
      (r.target + (r.hi - r.lo) < 128 ∨ 128 ≤ r.target) ∧
      (r.target + (r.hi - r.lo) < 0xD800 ∨
        0xDFFF < r.target ∧ r.target + (r.hi - r.lo) < 0x110000) ∧
      (r.target + (r.hi - r.lo) < 0x130 ∨ 0x130 < r.target) ∧
      (r.target + (r.hi - r.lo) < 0x3A3 ∨ 0x3A3 < r.target) ∧
      ∀ w ∈ whiteSpaceRanges, r.target + (r.hi - r.lo) < w.1 ∨ w.2 < r.target := by
  have h := List.all_eq_true.1 caseRanges_all_targetOk r hr
  simp only [CaseRange.targetOk, Bool.and_eq_true, List.all_eq_true, decide_eq_true_eq,
    Bool.or_eq_true] at h
  obtain ⟨⟨⟨⟨⟨⟨h1, h2⟩, h3⟩, h4⟩, h5⟩, h6⟩, h7⟩ := h
  exact ⟨h1, h2, h3, h4, h5, h6, h7⟩

theorem CaseRange.Apart.not_covers {r q : CaseRange} (h : r.Apart q) {n : Nat}
    (hn : r.covers n = true) : q.covers (r.target + (n - r.lo)) = false := by
  simp only [covers, Bool.and_eq_true, decide_eq_true_eq, beq_iff_eq] at hn
  obtain ⟨⟨h1, h2⟩, h3⟩ := hn
  by_contra hq
  simp only [covers, Bool.not_eq_false, Bool.and_eq_true, decide_eq_true_eq, beq_iff_eq] at hq
  obtain ⟨⟨h4, h5⟩, h6⟩ := hq
  rcases h with h | h | ⟨hr, hq, hp⟩
  · omega
  · omega
  · rw [hr] at h3
    rw [hq] at h6
    omega

theorem toLower_of_covers {c : Char} {r : CaseRange} (hc : 128 ≤ c.toNat) (hi : c.toNat ≠ 0x130)
    (hr : caseRanges.find? (CaseRange.covers c.toNat) = some r) :
    toLower c = [Char.ofNat (r.target + (c.toNat - r.lo))] := by
  unfold toLower
  rw [if_neg (by omega), if_neg hi, hr]

theorem settled_of_find_none {c : Char} (hc : 128 ≤ c.toNat) (hi : c.toNat ≠ 0x130)
    (hs : c.toNat ≠ 0x3A3) (hr : caseRanges.find? (CaseRange.covers c.toNat) = none) :
    Settled c := by
  constructor
  · unfold toLower
    rw [if_neg (by omega), if_neg hi, hr]
  · rintro rfl
    exact hs (by decide)

/-- The target of a table entry is settled, and is neither white space nor a dot. -/
theorem settled_target {r : CaseRange} (hr : r ∈ caseRanges) {n : Nat} (hn : r.covers n = true) :
    Settled (Char.ofNat (r.target + (n - r.lo))) ∧
      isWhitespace (Char.ofNat (r.target + (n - r.lo))) = false ∧
      Char.ofNat (r.target + (n - r.lo)) ≠ '.' := by
  obtain ⟨hapart, hcap, hascii, hvalid, hdot, hsigma, hws⟩ := caseRanges_targetOk hr
  have hle : n - r.lo ≤ r.hi - r.lo := by
    simp only [CaseRange.covers, Bool.and_eq_true, decide_eq_true_eq] at hn
    omega
  have hval := Utf8.toNat_ofNat_valid (n := r.target + (n - r.lo)) (by omega)
  refine ⟨?_, ?_, ?_⟩
  · rcases hascii with h | h
    · constructor
      · unfold toLower
        rw [hval, if_pos (by omega), if_neg (by omega)]
      · intro he
        have hcs : capitalSigma.toNat = 0x3A3 := by decide
        have := congrArg Char.toNat he
        rw [hval, hcs] at this
        omega
    · apply settled_of_find_none
      · rw [hval]; omega
      · rw [hval]; omega
      · rw [hval]; omega
      · rw [hval, List.find?_eq_none]
        intro q hq
        rw [(hapart q hq).not_covers hn]
        decide
  · unfold isWhitespace inRanges
    rw [hval, List.any_eq_false]
    intro w hw
    have := hws w hw
    simp only [Bool.and_eq_true, decide_eq_true_eq, not_and]
    omega
  · intro he
    have := congrArg Char.toNat he
    rw [hval] at this
    have hd : '.'.toNat = 46 := by decide
    omega

/-- What one `char` becomes: settled characters, no white space and no dot unless the
    `char` was one and stays. -/
theorem toLower_spec (c : Char) : toLower c = [c] ∨
    ∀ d ∈ toLower c, Settled d ∧ isWhitespace d = false ∧ d ≠ '.' := by
  by_cases ha : c.toNat < 128
  · by_cases hu : 65 ≤ c.toNat ∧ c.toNat ≤ 90
    · right
      have hall : ∀ i : Fin 26, Settled (Char.ofNat (97 + i.val)) ∧
          isWhitespace (Char.ofNat (97 + i.val)) = false ∧ Char.ofNat (97 + i.val) ≠ '.' := by
        decide +kernel
      intro d hd
      unfold toLower at hd
      rw [if_pos ha, if_pos hu, List.mem_singleton] at hd
      have := hall ⟨c.toNat - 65, by omega⟩
      have hi : 97 + (c.toNat - 65) = c.toNat + 32 := by omega
      rw [hd, ← hi]
      exact this
    · left
      unfold toLower
      rw [if_pos ha, if_neg hu]
  · by_cases hi : c.toNat = 0x130
    · right
      intro d hd
      unfold toLower at hd
      rw [if_neg ha, if_pos hi] at hd
      have h1 : Settled (Char.ofNat 0x69) ∧ isWhitespace (Char.ofNat 0x69) = false ∧
          Char.ofNat 0x69 ≠ '.' := by decide +kernel
      have h2 : Settled (Char.ofNat 0x307) ∧ isWhitespace (Char.ofNat 0x307) = false ∧
          Char.ofNat 0x307 ≠ '.' := by decide +kernel
      rcases List.mem_cons.1 hd with rfl | hd
      · exact h1
      · rw [List.mem_singleton.1 hd]
        exact h2
    · cases hr : caseRanges.find? (CaseRange.covers c.toNat) with
      | none =>
        left
        unfold toLower
        rw [if_neg ha, if_neg hi, hr]
      | some r =>
        right
        rw [toLower_of_covers (by omega) hi hr]
        intro d hd
        rw [List.mem_singleton.1 hd]
        exact settled_target (List.mem_of_find?_eq_some hr) (List.find?_some hr)

theorem toLower_ne_nil (c : Char) : toLower c ≠ [] := by
  unfold toLower
  repeat' split
  all_goals simp

theorem mapUppercaseSigma_spec (before after : Str) :
    Settled (mapUppercaseSigma before after) ∧
      isWhitespace (mapUppercaseSigma before after) = false ∧
      mapUppercaseSigma before after ≠ '.' := by
  have h1 : Settled (Char.ofNat 0x3C2) ∧ isWhitespace (Char.ofNat 0x3C2) = false ∧
      Char.ofNat 0x3C2 ≠ '.' := by decide +kernel
  have h2 : Settled (Char.ofNat 0x3C3) ∧ isWhitespace (Char.ofNat 0x3C3) = false ∧
      Char.ofNat 0x3C3 ≠ '.' := by decide +kernel
  unfold mapUppercaseSigma
  split
  · exact h1
  · exact h2

/-! ## Lower-casing a string -/

@[simp] theorem toLowercase_nil : toLowercase [] = [] := rfl

theorem lowerFrom_settled (before s : Str) : ∀ d ∈ lowerFrom before s, Settled d := by
  induction s generalizing before with
  | nil => simp [lowerFrom]
  | cons c s ih =>
    intro d hd
    simp only [lowerFrom, List.mem_append] at hd
    rcases hd with hd | hd
    · split at hd
      · rw [List.mem_singleton.1 hd]
        exact (mapUppercaseSigma_spec before s).1
      · next hs =>
        rcases toLower_spec c with h | h
        · rw [h, List.mem_singleton] at hd
          rw [hd]
          exact ⟨h, hs⟩
        · exact (h d hd).1
    · exact ih (c :: before) d hd

theorem toLowercase_settled (s : Str) : ∀ d ∈ toLowercase s, Settled d := lowerFrom_settled [] s

theorem lowerFrom_of_settled (before s : Str) (h : ∀ c ∈ s, Settled c) :
    lowerFrom before s = s := by
  induction s generalizing before with
  | nil => rfl
  | cons c s ih =>
    have hc := h c List.mem_cons_self
    rw [lowerFrom, if_neg hc.2, hc.1, ih _ fun d hd => h d (List.mem_cons_of_mem c hd)]
    rfl

theorem toLowercase_of_settled {s : Str} (h : ∀ c ∈ s, Settled c) : toLowercase s = s :=
  lowerFrom_of_settled [] s h

/-- A string is its own lower-case form exactly when all its characters are settled. -/
theorem toLowercase_eq_self {s : Str} : toLowercase s = s ↔ ∀ c ∈ s, Settled c :=
  ⟨fun h c hc => toLowercase_settled s c (h.symm ▸ hc), toLowercase_of_settled⟩

@[simp] theorem toLowercase_idem (s : Str) : toLowercase (toLowercase s) = toLowercase s :=
  toLowercase_of_settled (toLowercase_settled s)

theorem toLowercase_eq_nil {s : Str} : toLowercase s = [] ↔ s = [] := by
  constructor
  · intro h
    cases s with
    | nil => rfl
    | cons c s =>
      simp only [toLowercase, lowerFrom, List.append_eq_nil_iff] at h
      split at h
      · simp at h
      · exact absurd h.1 (toLower_ne_nil c)
  · rintro rfl
    rfl

/-- What becomes of the first `char`: something, and no white space and no dot unless the `char` was
    one and stays. -/
theorem lowerFrom_cons_spec (before : Str) (c : Char) (rest : Str) :
    ∃ x, lowerFrom before (c :: rest) = x ++ lowerFrom (c :: before) rest ∧ x ≠ [] ∧
      (x = [c] ∨ ∀ d ∈ x, isWhitespace d = false ∧ d ≠ '.') := by
  refine ⟨_, rfl, ?_, ?_⟩
  · split
    · exact List.cons_ne_nil _ _
    · exact toLower_ne_nil c
  · split
    · right
      intro d hd
      rw [List.mem_singleton.1 hd]
      exact (mapUppercaseSigma_spec before rest).2
    · exact (toLower_spec c).imp_right fun h d hd => (h d hd).2

/-- The end of a string is lower-cased with what stands before it as its context. -/
theorem lowerFrom_append (before s t : Str) :
    ∃ x, lowerFrom before (s ++ t) = x ++ lowerFrom (s.reverse ++ before) t := by
  induction s generalizing before with
  | nil => exact ⟨[], rfl⟩
  | cons c s ih =>
    obtain ⟨x, hx⟩ := ih (c :: before)
    rw [List.cons_append, lowerFrom, hx, List.reverse_cons, List.append_assoc]
    exact ⟨_, (List.append_assoc _ _ _).symm⟩

/-- Settled characters stay where they are at the end. -/
theorem toLowercase_append_settled (s : Str) {t : Str} (h : ∀ c ∈ t, Settled c) :
    ∃ x, toLowercase (s ++ t) = x ++ t := by
  obtain ⟨x, hx⟩ := lowerFrom_append [] s t
  refine ⟨x, ?_⟩
  rw [toLowercase, hx, lowerFrom_of_settled _ t h]

theorem settled_of_isWhitespace {c : Char} (h : isWhitespace c = true) : Settled c := by
  have hall : ∀ r ∈ whiteSpaceRanges, ∀ i ∈ List.range (r.2 - r.1 + 1),
      Settled (Char.ofNat (r.1 + i)) := by
    decide +kernel
  obtain ⟨r, hr, hc⟩ := List.any_eq_true.1 h
  simp only [Bool.and_eq_true, decide_eq_true_eq] at hc
  have hmem : c.toNat - r.1 ∈ List.range (r.2 - r.1 + 1) := by
    rw [List.mem_range]
    omega
  have hsettled := hall r hr _ hmem
  rwa [Nat.add_sub_cancel' hc.1, Char.ofNat_toNat] at hsettled

end VantaDns.Lib.Unicode
