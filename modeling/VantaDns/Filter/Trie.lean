/-
  The rule set (`filter/trie.rs`): `DomainTrie::normalize`, `insert_rule` and `matches`.

  A name is covered by a set of keys if it is a key or a key follows one of its dots
  (`Covers`). `parentMatches_iff`: the walk over the dots finds exactly the keys that follow
  one. With both sets of the trie equal, as every sequence of insertions leaves them
  (`DomainTrie.Agree`), `matches` decides whether the normalized name is covered
  (`DomainTrie.matches_iff`).
-/
import VantaDns.Lib.Text

namespace VantaDns.Filter

open Lib Lib.Text Lib.Unicode

structure DomainTrie where
  exactMatches : Finset Str
  wildcardMatches : Finset Str

def DomainTrie.new : DomainTrie := ⟨∅, ∅⟩

/-- `DomainTrie::normalize`. -/
def normalize (domain : Str) : Str := toLowercase (trimEndMatches '.' (trim domain))

/-- The domain of a rule line that has been trimmed, before it is normalized. -/
def ruleDomain (trimmed : Str) : Str :=
  if startsWith "||".toList trimmed then
    -- AdGuard: what follows the first `$` are options
    trimEndMatches '^' (((trimStartMatches "||".toList trimmed).splitOn '$').headD [])
  else if startsWith "0.0.0.0 ".toList trimmed || startsWith "127.0.0.1 ".toList trimmed then
    (splitWhitespace trimmed).getD 1 []
  else if startsWith "*.".toList trimmed then trimStartMatches "*.".toList trimmed
  else trimmed

/-- `trimmed.is_empty() || trimmed.starts_with('#') || trimmed.starts_with('!')`. -/
def isSkipped (trimmed : Str) : Bool :=
  trimmed.isEmpty || startsWith ['#'] trimmed || startsWith ['!'] trimmed

def DomainTrie.insertRule (t : DomainTrie) (rawRule : Str) : DomainTrie :=
  let trimmed := trim rawRule
  if isSkipped trimmed then t
  else
    let normalized := normalize (ruleDomain trimmed)
    if normalized.isEmpty then t
    -- Reject anything that isn't a valid hostname-shaped rule
    else if startsWith ['/'] normalized || normalized.contains ' ' || normalized.contains '=' then t
    else
      { wildcardMatches := insert normalized t.wildcardMatches
        exactMatches := insert normalized t.exactMatches }

/-- The `while let` of `matches`: cut the name behind its first dot and look the rest up. -/
def parentMatches (wildcards : Finset Str) (current : Str) : Bool :=
  match _h : current.findIdx? (· == '.') with
  | none => false
  | some dotIdx =>
      let current := current.drop (dotIdx + 1)
      decide (current ∈ wildcards) || parentMatches wildcards current
termination_by current.length
decreasing_by
  have hlt := (List.findIdx?_eq_some_iff_findIdx_eq.1 _h).1
  rw [List.length_drop]
  omega

def DomainTrie.matches (t : DomainTrie) (domain : Str) : Bool :=
  let normalized := normalize domain
  decide (normalized ∈ t.exactMatches) || parentMatches t.wildcardMatches normalized

def DomainTrie.len (t : DomainTrie) : Nat := t.exactMatches.card

/-! ## Names covered by keys -/

/-- `n` is a key, or a key follows one of its dots. -/
def Covers (keys : Set Str) (n : Str) : Prop :=
  n ∈ keys ∨ ∃ x r : Str, r ∈ keys ∧ n = x ++ '.' :: r

theorem Covers.mono {keys keys' : Set Str} (h : keys ⊆ keys') {n : Str} (hn : Covers keys n) :
    Covers keys' n := by
  rcases hn with hn | ⟨x, r, hr, hn⟩
  · exact Or.inl (h hn)
  · exact Or.inr ⟨x, r, h hr, hn⟩

theorem covers_union {keys keys' : Set Str} {n : Str} :
    Covers (keys ∪ keys') n ↔ Covers keys n ∨ Covers keys' n := by
  constructor
  · intro h
    rcases h with (h | h) | ⟨x, r, hr | hr, heq⟩
    · exact Or.inl (Or.inl h)
    · exact Or.inr (Or.inl h)
    · exact Or.inl (Or.inr ⟨x, r, hr, heq⟩)
    · exact Or.inr (Or.inr ⟨x, r, hr, heq⟩)
  · intro h
    rcases h with h | h
    · exact h.mono Set.subset_union_left
    · exact h.mono Set.subset_union_right

/-- What covers the keys that cover a name covers the name. -/
theorem Covers.trans {keys keys' : Set Str} {n : Str} (h : Covers keys' n)
    (hkeys : ∀ k ∈ keys', Covers keys k) : Covers keys n := by
  rcases h with h | ⟨x, r, hr, rfl⟩
  · exact hkeys n h
  · rcases hkeys r hr with hr | ⟨y, r', hr', rfl⟩
    · exact Or.inr ⟨x, r, hr, rfl⟩
    · exact Or.inr ⟨x ++ '.' :: y, r', hr', by simp⟩

theorem covers_iff_exists {keys : Set Str} {n : Str} : Covers keys n ↔ ∃ k ∈ keys, Covers {k} n := by
  constructor
  · intro h
    rcases h with h | ⟨x, r, hr, heq⟩
    · exact ⟨n, h, Or.inl rfl⟩
    · exact ⟨r, hr, Or.inr ⟨x, r, rfl, heq⟩⟩
  · intro ⟨k, hk, h⟩
    exact h.mono (Set.singleton_subset_iff.2 hk)

/-- A covered name ends with a key. -/
theorem Covers.exists_suffix {keys : Set Str} {n : Str} (h : Covers keys n) :
    ∃ k ∈ keys, k <:+ n := by
  rcases h with h | ⟨x, r, hr, rfl⟩
  · exact ⟨n, h, List.suffix_rfl⟩
  · exact ⟨r, hr, (List.suffix_cons '.' r).trans (List.suffix_append x _)⟩

/-- A key that the name ends with inside a label does not count. -/
theorem covers_inside_label (keys : Set Str) {x r : Str} {c : Char} (hc : c ≠ '.') :
    Covers keys (x ++ c :: r) ↔ Covers (keys \ {r}) (x ++ c :: r) := by
  constructor
  · intro h
    rcases h with h | ⟨y, r', hr', heq⟩
    · refine Or.inl ⟨h, ?_⟩
      intro heq
      have hlen := congrArg List.length (Set.mem_singleton_iff.1 heq)
      rw [List.length_append, List.length_cons] at hlen
      omega
    · refine Or.inr ⟨y, r', ⟨hr', ?_⟩, heq⟩
      intro hr
      obtain rfl := Set.mem_singleton_iff.1 hr
      have htail := List.append_inj_right' heq rfl
      rw [List.cons.injEq] at htail
      exact hc htail.1
  · exact fun h => h.mono Set.sdiff_subset

/-- What follows a dot of a name is what follows its first dot, or follows a dot of that. -/
theorem append_dot_eq {pre rest x r : Str} (hpre : '.' ∉ pre) :
    pre ++ '.' :: rest = x ++ '.' :: r ↔
      rest = r ∧ x = pre ∨ ∃ y, rest = y ++ '.' :: r ∧ x = pre ++ '.' :: y := by
  constructor
  · intro h
    rcases List.append_eq_append_iff.1 h with ⟨y, hx, hy⟩ | ⟨y, hx, hy⟩
    · cases y with
      | nil =>
        rw [List.nil_append, List.cons.injEq] at hy
        exact Or.inl ⟨hy.2, by simpa using hx⟩
      | cons c y =>
        rw [List.cons_append, List.cons.injEq] at hy
        obtain ⟨rfl, hy⟩ := hy
        exact Or.inr ⟨y, hy, hx⟩
    · cases y with
      | nil =>
        rw [List.nil_append, List.cons.injEq] at hy
        exact Or.inl ⟨hy.2.symm, by simpa using hx.symm⟩
      | cons c y =>
        rw [List.cons_append, List.cons.injEq] at hy
        obtain ⟨rfl, -⟩ := hy
        exact absurd (hx ▸ List.mem_append_right x List.mem_cons_self) hpre
  · rintro (⟨rfl, rfl⟩ | ⟨y, rfl, rfl⟩)
    · rfl
    · simp

/-- A string at its first dot. -/
theorem eq_of_findIdx_dot {s : Str} {i : Nat} (h : s.findIdx? (· == '.') = some i) :
    s = s.take i ++ '.' :: s.drop (i + 1) ∧ '.' ∉ s.take i := by
  obtain ⟨hlt, hdot, hbefore⟩ := List.findIdx?_eq_some_iff_getElem.1 h
  constructor
  · have hi : s[i] = '.' := by simpa using hdot
    rw [← hi, ← List.drop_eq_getElem_cons hlt, List.take_append_drop]
  · intro hmem
    obtain ⟨j, hj, heq⟩ := List.mem_iff_getElem.1 hmem
    rw [List.length_take] at hj
    have hb := hbefore j (by omega)
    rw [List.getElem_take] at heq
    simp [heq] at hb

/-- The walk finds a key exactly if one follows a dot of the name. -/
theorem parentMatches_iff (wildcards : Finset Str) (current : Str) :
    parentMatches wildcards current = true ↔
      ∃ x r : Str, r ∈ wildcards ∧ current = x ++ '.' :: r := by
  induction hn : current.length using Nat.strong_induction_on generalizing current with
  | _ n ih =>
    rw [parentMatches]
    split
    · next hnone =>
      refine iff_of_false (by simp) ?_
      intro ⟨x, r, _, heq⟩
      have hno := List.findIdx?_eq_none_iff.1 hnone '.' (heq ▸ by simp)
      simp at hno
    · next i hsome =>
      obtain ⟨hsplit, hpre⟩ := eq_of_findIdx_dot hsome
      have hlt := (List.findIdx?_eq_some_iff_findIdx_eq.1 hsome).1
      have hshort : (current.drop (i + 1)).length < n := by
        rw [List.length_drop]
        omega
      rw [Bool.or_eq_true, decide_eq_true_eq, ih _ hshort _ rfl]
      constructor
      · intro h
        rcases h with h | ⟨x, r, hr, heq⟩
        · exact ⟨_, _, h, hsplit⟩
        · refine ⟨current.take i ++ '.' :: x, r, hr, ?_⟩
          conv => lhs; rw [hsplit, heq]
          simp
      · intro ⟨x, r, hr, heq⟩
        rw [hsplit, append_dot_eq hpre] at heq
        rcases heq with ⟨rfl, -⟩ | ⟨y, hy, -⟩
        · exact Or.inl hr
        · exact Or.inr ⟨y, r, hr, hy⟩

/-! ## The two sets -/

/-- Both sets hold the same keys. -/
def DomainTrie.Agree (t : DomainTrie) : Prop := t.wildcardMatches = t.exactMatches

def DomainTrie.keys (t : DomainTrie) : Set Str := t.exactMatches

theorem DomainTrie.agree_new : DomainTrie.new.Agree := rfl

/-- What a rule adds to both sets: one key or none. -/
theorem DomainTrie.insertRule_cases (t : DomainTrie) (rawRule : Str) :
    t.insertRule rawRule = t ∨ ∃ key, t.insertRule rawRule =
      { wildcardMatches := insert key t.wildcardMatches
        exactMatches := insert key t.exactMatches } := by
  unfold DomainTrie.insertRule
  dsimp only
  by_cases h1 : isSkipped (trim rawRule) = true
  · exact Or.inl (if_pos h1)
  rw [if_neg h1]
  by_cases h2 : (normalize (ruleDomain (trim rawRule))).isEmpty = true
  · exact Or.inl (if_pos h2)
  rw [if_neg h2]
  split
  · exact Or.inl rfl
  · exact Or.inr ⟨_, rfl⟩

theorem DomainTrie.Agree.insertRule {t : DomainTrie} (h : t.Agree) (rawRule : Str) :
    (t.insertRule rawRule).Agree := by
  rcases t.insertRule_cases rawRule with heq | ⟨key, heq⟩
  · rw [heq]
    exact h
  · rw [heq]
    exact congrArg (insert key) h

theorem DomainTrie.keys_subset_insertRule (t : DomainTrie) (rawRule : Str) :
    t.keys ⊆ (t.insertRule rawRule).keys := by
  intro k hk
  rcases t.insertRule_cases rawRule with heq | ⟨key, heq⟩
  · rw [heq]
    exact hk
  · rw [heq]
    exact Finset.mem_insert_of_mem hk

/-- With equal sets, a domain matches exactly if its normalized form is covered. -/
theorem DomainTrie.matches_iff {t : DomainTrie} (h : t.Agree) (domain : Str) :
    t.matches domain = true ↔ Covers t.keys (normalize domain) := by
  unfold DomainTrie.matches
  rw [Bool.or_eq_true, decide_eq_true_eq, parentMatches_iff, h]
  rfl

end VantaDns.Filter
