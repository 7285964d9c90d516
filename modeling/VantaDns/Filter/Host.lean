/-
  Host names in the filter: labels of ASCII letters, digits, `-` or `_`, joined by dots.

  `HostName` carries that its labels are such labels. The filter's normal form of a host name,
  with any number of dots behind it, is its lower-case form (`normalize_text`), and a set of
  keys covers a name exactly if the name ends, label by label, with a key
  (`covers_iff_labels`).
-/
import VantaDns.Filter.Trie

namespace VantaDns.Filter

open Lib Lib.Text Lib.Unicode

/-- An ASCII letter or digit, `-` or `_`. -/
def isHostChar (c : Char) : Bool := c.isAlphanum || c == '-' || c == '_'

structure HostName where
  labels : List Str
  ne : labels ≠ []
  ok : ∀ l ∈ labels, l ≠ [] ∧ ∀ c ∈ l, isHostChar c = true

def HostName.text (h : HostName) : Str := joinDots h.labels

/-- The host name with the given labels, which are checked by evaluation. -/
def HostName.ofLabels (labels : List Str)
    (h : (!labels.isEmpty && labels.all fun l => !l.isEmpty && l.all isHostChar) = true) :
    HostName where
  labels := labels
  ne := by
    rintro rfl
    simp at h
  ok := by
    intro l hl
    rw [Bool.and_eq_true, List.all_eq_true] at h
    have hok := h.2 l hl
    rw [Bool.and_eq_true, List.all_eq_true] at hok
    exact ⟨by simpa using hok.1, hok.2⟩

/-- A set of keys covers the names that end, label by label, with a key. -/
theorem covers_iff_labels (keys : Set Str) (s : Str) :
    Covers keys s ↔ ∃ ls, ls ≠ [] ∧ ls <:+ s.splitOn '.' ∧ joinDots ls ∈ keys := by
  constructor
  · intro hc
    obtain hc | ⟨x, r, hr, heq⟩ := hc
    · refine ⟨s.splitOn '.', List.splitOn_ne_nil '.' s, List.suffix_rfl, ?_⟩
      rw [joinDots_splitOn]
      exact hc
    · refine ⟨r.splitOn '.', List.splitOn_ne_nil '.' r, ?_, ?_⟩
      · rw [heq, splitOn_append_sep]
        exact List.suffix_append _ _
      · rw [joinDots_splitOn]
        exact hr
  · intro ⟨ls, hne, ⟨pre, hpre⟩, hk⟩
    have hs := joinDots_splitOn s
    rw [← hpre] at hs
    by_cases hp : pre = []
    · rw [hp, List.nil_append] at hs
      rw [hs] at hk
      exact Or.inl hk
    · rw [joinDots_append hp hne] at hs
      exact Or.inr ⟨joinDots pre, joinDots ls, hk, hs.symm⟩

/-! ## The characters of a host name -/

/-- Lower-casing takes the character for itself, whatever stands around it. -/
structure Plain (c : Char) : Prop where
  lower : toLower c = [c.toLower]
  notSigma : c ≠ capitalSigma
  settled : c.toLower.toLower = c.toLower

instance (c : Char) : Decidable (Plain c) :=
  decidable_of_iff (toLower c = [c.toLower] ∧ c ≠ capitalSigma ∧ c.toLower.toLower = c.toLower)
    ⟨fun ⟨h1, h2, h3⟩ => ⟨h1, h2, h3⟩, fun ⟨h1, h2, h3⟩ => ⟨h1, h2, h3⟩⟩

theorem toNat_lt_of_isHostChar {c : Char} (h : isHostChar c = true) : c.toNat < 128 := by
  simp only [isHostChar, Char.isAlphanum, Char.isAlpha, Char.isUpper, Char.isLower, Char.isDigit,
    Bool.or_eq_true, Bool.and_eq_true, decide_eq_true_eq, beq_iff_eq] at h
  obtain (((⟨h1, h2⟩ | ⟨h1, h2⟩) | ⟨h1, h2⟩) | rfl) | rfl := h
  · exact lt_of_le_of_lt (UInt32.le_iff_toNat_le.1 h2) (by decide)
  · exact lt_of_le_of_lt (UInt32.le_iff_toNat_le.1 h2) (by decide)
  · exact lt_of_le_of_lt (UInt32.le_iff_toNat_le.1 h2) (by decide)
  · decide
  · decide

theorem plain_of_isHostChar {c : Char} (h : isHostChar c = true) :
    Plain c ∧ isWhitespace c = false ∧ isHostChar c.toLower = true := by
  have hall : ∀ i : Fin 128, isHostChar (Char.ofNat i.val) = true →
      Plain (Char.ofNat i.val) ∧ isWhitespace (Char.ofNat i.val) = false ∧
        isHostChar (Char.ofNat i.val).toLower = true := by
    decide +kernel
  have hc := hall ⟨c.toNat, toNat_lt_of_isHostChar h⟩
  rw [Char.ofNat_toNat] at hc
  exact hc h

theorem plain_dot : Plain '.' := by decide +kernel

theorem lowerFrom_plain (before s : Str) (h : ∀ c ∈ s, Plain c) :
    lowerFrom before s = s.map Char.toLower := by
  induction s generalizing before with
  | nil => rfl
  | cons c s ih =>
    have hc := h c List.mem_cons_self
    rw [lowerFrom, if_neg hc.notSigma, hc.lower, ih _ fun d hd => h d (List.mem_cons_of_mem c hd)]
    rfl

theorem toLowercase_plain {s : Str} (h : ∀ c ∈ s, Plain c) : toLowercase s = s.map Char.toLower :=
  lowerFrom_plain [] s h

namespace HostName

theorem not_dot (h : HostName) : ∀ l ∈ h.labels, '.' ∉ l := by
  intro l hl hd
  exact absurd ((h.ok l hl).2 '.' hd) (by decide)

theorem mem_text (h : HostName) {c : Char} (hc : c ∈ h.text) : c = '.' ∨ isHostChar c = true :=
  (mem_joinDots hc).imp_right fun ⟨l, hl, hc⟩ => (h.ok l hl).2 c hc

theorem plain (h : HostName) : ∀ c ∈ h.text, Plain c := by
  intro c hc
  obtain rfl | hc := h.mem_text hc
  · exact plain_dot
  · exact (plain_of_isHostChar hc).1

theorem notSpace (h : HostName) : ∀ c ∈ h.text, isWhitespace c = false := by
  intro c hc
  obtain rfl | hc := h.mem_text hc
  · decide
  · exact (plain_of_isHostChar hc).2.1

/-- A host name is not empty and begins with one of its characters. -/
theorem text_eq_cons (h : HostName) : ∃ c t, h.text = c :: t ∧ isHostChar c = true := by
  obtain ⟨l, ls, hls⟩ := List.exists_cons_of_ne_nil h.ne
  have hl := h.ok l (hls ▸ List.mem_cons_self)
  obtain ⟨c, t, rfl⟩ := List.exists_cons_of_ne_nil hl.1
  refine ⟨c, ?_⟩
  unfold text
  rw [hls]
  cases ls with
  | nil => exact ⟨t, joinDots_singleton _, hl.2 c List.mem_cons_self⟩
  | cons l' ls =>
    exact ⟨_, joinDots_cons (List.cons_ne_nil l' ls), hl.2 c List.mem_cons_self⟩

theorem text_ne_nil (h : HostName) : h.text ≠ [] := by
  obtain ⟨c, t, hct, -⟩ := h.text_eq_cons
  exact hct ▸ List.cons_ne_nil c t

/-- No pattern with a foreign first character stands at the start of a host name. -/
theorem startsWith_text {p : Char} (hp : isHostChar p = false) (pat : Str) (h : HostName)
    (s : Str) : startsWith (p :: pat) (h.text ++ s) = false := by
  obtain ⟨c, t, hct, hc⟩ := h.text_eq_cons
  have hpc : (p == c) = false := by
    rw [beq_eq_false_iff_ne]
    rintro rfl
    exact Bool.false_ne_true (hp.symm.trans hc)
  rw [hct, List.cons_append, startsWith_cons_cons, hpc, Bool.false_and]

theorem not_mem_text {c : Char} (hc : isHostChar c = false ∧ c ≠ '.') (h : HostName) :
    c ∉ h.text := by
  intro hm
  obtain hd | hh := h.mem_text hm
  · exact hc.2 hd
  · exact Bool.false_ne_true (hc.1.symm.trans hh)

/-- No pattern with a foreign character stands at the start of a host name and nothing else. -/
theorem startsWith_foreign {c : Char} (hc : isHostChar c = false ∧ c ≠ '.') {pat : Str}
    (hp : c ∈ pat) (h : HostName) : startsWith pat h.text = false := by
  rw [startsWith, Bool.eq_false_iff, Ne, List.isPrefixOf_iff_prefix]
  intro hpre
  exact h.not_mem_text hc (hpre.subset hp)

theorem solid (h : HostName) : Solid h.text := solid_of_forall h.text_ne_nil h.notSpace

theorem trimEndMatches_text (h : HostName) : trimEndMatches '.' h.text = h.text :=
  trimEndMatches_joinDots fun l hl => ⟨(h.ok l hl).1, h.not_dot l hl⟩

theorem splitOn_text (h : HostName) : h.text.splitOn '.' = h.labels :=
  splitOn_joinDots h.not_dot h.ne

/-! ## Lower case -/

def lower (h : HostName) : HostName where
  labels := h.labels.map (List.map Char.toLower)
  ne := by simpa using h.ne
  ok := by
    intro l hl
    obtain ⟨l', hl', rfl⟩ := List.mem_map.1 hl
    refine ⟨by simpa using (h.ok l' hl').1, ?_⟩
    intro c hc
    obtain ⟨d, hd, rfl⟩ := List.mem_map.1 hc
    exact (plain_of_isHostChar ((h.ok l' hl').2 d hd)).2.2

theorem text_lower (h : HostName) : h.lower.text = h.text.map Char.toLower :=
  (map_joinDots (by decide) h.labels).symm

theorem toLowercase_text (h : HostName) : toLowercase h.text = h.lower.text := by
  rw [text_lower, toLowercase_plain h.plain]

theorem text_lower_lower (h : HostName) : h.lower.lower.text = h.lower.text := by
  rw [text_lower, text_lower, List.map_map]
  apply List.map_congr_left
  intro c hc
  exact (h.plain c hc).settled

/-- The filter's normal form of a host name: in lower case, without the dots behind it. -/
theorem normalize_text (h : HostName) (j : Nat) :
    normalize (h.text ++ List.replicate j '.') = h.lower.text := by
  have hsolid : Solid (h.text ++ List.replicate j '.') := by
    refine solid_of_forall (by simp [h.text_ne_nil]) ?_
    intro d hd
    obtain hd | hd := List.mem_append.1 hd
    · exact h.notSpace d hd
    · rw [List.eq_of_mem_replicate hd]
      decide
  unfold normalize
  rw [hsolid.trim_eq_self, trimEndMatches_append_replicate, trimEndMatches_text, toLowercase_text]

theorem normalize_self (h : HostName) : normalize h.text = h.lower.text := by
  have hn := h.normalize_text 0
  rw [List.replicate_zero, List.append_nil] at hn
  exact hn

theorem normalize_lower (h : HostName) : normalize h.lower.text = h.lower.text := by
  rw [normalize_self, text_lower_lower]

/-! ## Subdomains -/

/-- The name equals `g` or is a subdomain of it, whatever the case of the letters. -/
def Under (h g : HostName) : Prop := g.lower.labels <:+ h.lower.labels

instance (h g : HostName) : Decidable (h.Under g) := inferInstanceAs (Decidable (_ <:+ _))

/-- The keys being host names in lower case, they cover a name exactly if it is under one. -/
theorem covers_lower_iff (h : HostName) (hosts : Set HostName) :
    Covers {k | ∃ g ∈ hosts, k = g.lower.text} h.lower.text ↔ ∃ g ∈ hosts, h.Under g := by
  rw [covers_iff_labels, splitOn_text]
  constructor
  · intro ⟨ls, hne, hsuf, g, hg, hk⟩
    refine ⟨g, hg, ?_⟩
    have hdots : ∀ l ∈ ls, '.' ∉ l := fun l hl => h.lower.not_dot l (hsuf.subset hl)
    have hls := splitOn_joinDots hdots hne
    rw [hk, splitOn_text] at hls
    unfold Under
    rw [hls]
    exact hsuf
  · intro ⟨g, hg, hsuf⟩
    exact ⟨g.lower.labels, g.lower.ne, hsuf, g, hg, rfl⟩

end HostName

end VantaDns.Filter
