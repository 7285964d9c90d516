/-
  What the rule sets hold after any calls of `insert_rule`, and whether it can be found.

  `Sound` is the representation invariant of the trie: both sets hold the same keys, each of
  them is shaped as `insert_rule` asks and is its own normalized form, and every lookup of the
  key or of a name under it finds it. The first two always hold (`agree_inserted`, `key_shape`).

  `normalize` trims white space first and dots then. White space that stands in front of the
  dots stays, and is trimmed off when the key is looked up (`normalize_idem_iff`).
  `sound_iff`: the trie is sound exactly if no rule that is stored ends in that way.
-/
import VantaDns.Filter.Rules

namespace VantaDns.Filter

open Lib Lib.Text Lib.Unicode

/-- The text ends in white space. -/
def EndsBlank (s : Str) : Prop := ∃ t c, s = t ++ [c] ∧ isWhitespace c = true

/-- The domain of a rule without the white space around it and the dots behind it. -/
def bareDomain (rawRule : Str) : Str := trimEndMatches '.' (trim (ruleDomain (trim rawRule)))

/-- The lookups that should find a key of the trie. -/
structure Found (t : DomainTrie) (k : Str) : Prop where
  self : t.matches k = true
  under : ∀ x : Str, (∀ c ∈ x, c ≠ '.' ∧ isWhitespace c = false) → t.matches (x ++ '.' :: k) = true
  allowed : ∀ blocklist, (FilterEngine.mk t blocklist).evaluate k = .AllowListMatched k
  blocked : ∀ allowlist : DomainTrie, allowlist.matches k = false →
    (FilterEngine.mk allowlist t).evaluate k = .Blocked k

structure Sound (t : DomainTrie) : Prop where
  agree : t.wildcardMatches = t.exactMatches
  shape : ∀ k ∈ t.exactMatches, k ≠ [] ∧ ' ' ∉ k ∧ '=' ∉ k ∧ startsWith ['/'] k = false
  fixed : ∀ k ∈ t.exactMatches, normalize k = k
  found : ∀ k ∈ t.exactMatches, Found t k

/-- The trie after a sequence of insertions. -/
def inserted (rules : List Str) : DomainTrie := rules.foldl DomainTrie.insertRule .new

theorem agree_foldl {t : DomainTrie} (h : t.Agree) (rules : List Str) :
    (rules.foldl DomainTrie.insertRule t).Agree := by
  induction rules generalizing t with
  | nil => exact h
  | cons rule rules ih => exact ih (h.insertRule rule)

theorem agree_inserted (rules : List Str) : (inserted rules).Agree :=
  agree_foldl DomainTrie.agree_new rules

theorem keys_foldl_insertRule (t : DomainTrie) (rules : List Str) :
    (rules.foldl DomainTrie.insertRule t).keys = t.keys ∪ {k | ∃ rule ∈ rules, k ∈ ruleKeys rule} := by
  induction rules generalizing t with
  | nil => simp
  | cons rule rules ih =>
    rw [List.foldl_cons, ih, DomainTrie.keys_insertRule, Set.union_assoc]
    congr 1
    ext k
    simp

/-- The keys are those of the rules. -/
theorem mem_inserted {rules : List Str} {k : Str} :
    k ∈ (inserted rules).exactMatches ↔ ∃ rule ∈ rules, k ∈ ruleKeys rule := by
  have hkeys := keys_foldl_insertRule DomainTrie.new rules
  have hnew : DomainTrie.new.keys = ∅ := Finset.coe_empty
  rw [hnew, Set.empty_union] at hkeys
  exact Set.ext_iff.1 hkeys k

theorem key_shape {rawRule k : Str} (h : k ∈ ruleKeys rawRule) :
    k ≠ [] ∧ ' ' ∉ k ∧ '=' ∉ k ∧ startsWith ['/'] k = false := by
  obtain ⟨-, -, hne, hslash, hspace, hequals⟩ := h
  exact ⟨hne, hspace, hequals, hslash⟩

theorem key_eq {rawRule k : Str} (h : k ∈ ruleKeys rawRule) :
    k = toLowercase (bareDomain rawRule) ∧ bareDomain rawRule ≠ [] := by
  obtain ⟨-, rfl, hne, -⟩ := h
  refine ⟨rfl, ?_⟩
  intro hnil
  exact hne (toLowercase_eq_nil.2 hnil)

/-! ## Normalizing twice -/

/-- White space at the end of a text makes trimming shorten it. -/
theorem length_trim_lt {s : Str} (h : EndsBlank s) : (trim s).length < s.length := by
  obtain ⟨t, c, rfl, hc⟩ := h
  have hdrop := (List.dropWhile_suffix isWhitespace (l := t)).length_le
  have hrdrop := (List.rdropWhile_prefix isWhitespace (t.dropWhile isWhitespace)).length_le
  unfold trim
  rw [List.dropWhile_append]
  split
  · rw [List.dropWhile_cons_of_pos hc]
    simp
  · rw [List.rdropWhile_concat_pos _ _ _ hc, List.length_append, List.length_singleton]
    omega

theorem trim_subset (s : Str) : trim s ⊆ s :=
  List.Subset.trans (List.rdropWhile_prefix _ _).subset (List.dropWhile_suffix _).subset

/-- What is left of a text without the white space around it and the dots behind it begins with a
    character that is not white space, and does not end in a dot. -/
theorem trimmed_ends {s : Str} (h : trimEndMatches '.' (trim s) ≠ []) :
    (∃ c t, trimEndMatches '.' (trim s) = c :: t ∧ isWhitespace c = false) ∧
      ∃ t c, trimEndMatches '.' (trim s) = t ++ [c] ∧ c ≠ '.' := by
  constructor
  · obtain ⟨c, t, ht⟩ := List.exists_cons_of_ne_nil h
    refine ⟨c, t, ht, ?_⟩
    have hprefix : c :: t <+: s.dropWhile isWhitespace := by
      rw [← ht]
      exact (List.rdropWhile_prefix _ _).trans (List.rdropWhile_prefix _ _)
    obtain ⟨t', ht'⟩ := hprefix
    have hfirst := List.head?_dropWhile_not isWhitespace s
    rw [← ht'] at hfirst
    simpa using hfirst
  · obtain ⟨t, c, ht⟩ := (List.eq_nil_or_concat' _).resolve_left h
    refine ⟨t, c, ht, ?_⟩
    intro hc
    have hlast := List.rdropWhile_last_not (fun c => c == '.') (trim s) h
    unfold trimEndMatches at ht
    simp [ht, hc] at hlast

theorem solid_trimmed {s : Str} (hne : trimEndMatches '.' (trim s) ≠ [])
    (hblank : ¬ EndsBlank (trimEndMatches '.' (trim s))) :
    Solid (trimEndMatches '.' (trim s)) ∧ (trimEndMatches '.' (trim s)).getLast? ≠ some '.' := by
  obtain ⟨hfirst, t, c, hlast, hdot⟩ := trimmed_ends hne
  constructor
  · refine ⟨hfirst, t, c, hlast, ?_⟩
    by_contra hws
    exact hblank ⟨t, c, hlast, by simpa using hws⟩
  · rw [hlast, List.getLast?_concat, Ne, Option.some.injEq]
    exact hdot

/-- What lower-casing makes of a character that is neither white space nor a dot is neither. -/
theorem lowered_spec {x : Str} {c : Char} (hx : x = [c] ∨ ∀ d ∈ x, isWhitespace d = false ∧ d ≠ '.')
    (hc : isWhitespace c = false) : ∀ d ∈ x, isWhitespace d = false ∧ (c ≠ '.' → d ≠ '.') := by
  intro d hd
  rcases hx with rfl | hx
  · rw [List.mem_singleton.1 hd]
    exact ⟨hc, id⟩
  · exact ⟨(hx d hd).1, fun _ => (hx d hd).2⟩

/-- Lower-casing keeps the ends of a text from being white space, and the last one from being a
    dot. -/
theorem solid_toLowercase {s : Str} (hs : Solid s) (hdot : s.getLast? ≠ some '.') :
    Solid (toLowercase s) ∧ (toLowercase s).getLast? ≠ some '.' := by
  have hfirst : ∃ c t, toLowercase s = c :: t ∧ isWhitespace c = false := by
    obtain ⟨c, t, rfl, hc⟩ := hs.first
    obtain ⟨x, hlower, hne, hx⟩ := lowerFrom_cons_spec [] c t
    obtain ⟨d, x, rfl⟩ := List.exists_cons_of_ne_nil hne
    exact ⟨d, _, hlower, (lowered_spec hx hc d List.mem_cons_self).1⟩
  obtain ⟨t, d, hlast, hd, hddot⟩ :
      ∃ t d, toLowercase s = t ++ [d] ∧ isWhitespace d = false ∧ d ≠ '.' := by
    obtain ⟨t, c, rfl, hc⟩ := hs.last
    have hcdot : c ≠ '.' := fun h => hdot (by rw [h, List.getLast?_concat])
    obtain ⟨y, hy⟩ := lowerFrom_append [] t [c]
    obtain ⟨x, hlower, hne, hx⟩ := lowerFrom_cons_spec (t.reverse ++ []) c []
    obtain ⟨x, d, rfl⟩ := (List.eq_nil_or_concat' x).resolve_left hne
    obtain ⟨hd, hddot⟩ := lowered_spec hx hc d (List.mem_append_right x List.mem_cons_self)
    refine ⟨y ++ x, d, ?_, hd, hddot hcdot⟩
    rw [toLowercase, hy, hlower, lowerFrom, List.append_nil, List.append_assoc]
  refine ⟨⟨hfirst, ⟨t, d, hlast, hd⟩⟩, ?_⟩
  rw [hlast, List.getLast?_concat, Ne, Option.some.injEq]
  exact hddot

/-- Normalizing again changes nothing exactly if no white space stood in front of the dots. -/
theorem normalize_idem_iff {d : Str} (hne : trimEndMatches '.' (trim d) ≠ []) :
    normalize (normalize d) = normalize d ↔ ¬ EndsBlank (trimEndMatches '.' (trim d)) := by
  have hsettled := toLowercase_settled (trimEndMatches '.' (trim d))
  constructor
  · intro hidem hblank
    obtain ⟨t', w, ht', hw⟩ := hblank
    have hends : EndsBlank (normalize d) := by
      have hstays : ∀ e ∈ [w], Settled e := fun e he => by
        rw [List.mem_singleton.1 he]
        exact settled_of_isWhitespace hw
      obtain ⟨x, hx⟩ := toLowercase_append_settled t' hstays
      exact ⟨x, w, by rw [normalize, ht', hx], hw⟩
    have hlower : normalize (normalize d) = trimEndMatches '.' (trim (normalize d)) := by
      refine toLowercase_of_settled fun e he => hsettled e ?_
      exact trim_subset _ ((List.rdropWhile_prefix _ _).subset he)
    have hlt := length_trim_lt hends
    have hle := (List.rdropWhile_prefix (fun c => c == '.') (trim (normalize d))).length_le
    rw [hlower] at hidem
    have hlen := congrArg List.length hidem
    unfold trimEndMatches at hlen
    omega
  · intro hblank
    obtain ⟨hsolid, hend⟩ := solid_trimmed hne hblank
    obtain ⟨hsolid', hend'⟩ := solid_toLowercase hsolid hend
    show toLowercase (trimEndMatches '.' (trim (toLowercase (trimEndMatches '.' (trim d))))) =
      toLowercase (trimEndMatches '.' (trim d))
    rw [hsolid'.trim_eq_self, trimEndMatches_eq_self hend', toLowercase_idem]

/-! ## Finding keys -/

/-- Behind labels without dots and white space, a normalized key stays as it is. -/
theorem normalize_under {k : Str} (hk : Solid k) (hdot : k.getLast? ≠ some '.')
    (hsettled : ∀ c ∈ k, Settled c) {x : Str} (hx : ∀ c ∈ x, c ≠ '.' ∧ isWhitespace c = false) :
    ∃ y, normalize (x ++ '.' :: k) = y ++ '.' :: k := by
  obtain ⟨t, e, hlast, he⟩ := hk.last
  have hsolid : Solid (x ++ '.' :: k) := by
    constructor
    · cases x with
      | nil => exact ⟨'.', k, rfl, by decide⟩
      | cons c x => exact ⟨c, x ++ '.' :: k, rfl, (hx c List.mem_cons_self).2⟩
    · exact ⟨x ++ '.' :: t, e, by rw [hlast, List.append_assoc, List.cons_append], he⟩
  have hend : (x ++ '.' :: k).getLast? ≠ some '.' := by
    rw [List.append_cons, List.getLast?_append_of_ne_nil _ (by rw [hlast]; simp)]
    exact hdot
  have hall : ∀ c ∈ '.' :: k, Settled c := by
    intro c hc
    rcases List.mem_cons.1 hc with rfl | hc
    · decide
    · exact hsettled c hc
  rw [normalize, hsolid.trim_eq_self, trimEndMatches_eq_self hend]
  exact toLowercase_append_settled x hall

theorem found_of_solid {t : DomainTrie} (h : t.Agree) {k : Str} (hmem : k ∈ t.exactMatches)
    (hk : Solid k) (hdot : k.getLast? ≠ some '.') (hsettled : ∀ c ∈ k, Settled c) :
    normalize k = k ∧ Found t k := by
  have hfixed : normalize k = k := by
    rw [normalize, hk.trim_eq_self, trimEndMatches_eq_self hdot, toLowercase_of_settled hsettled]
  have hself : t.matches k = true := by
    rw [DomainTrie.matches_iff h, hfixed]
    exact Or.inl hmem
  refine ⟨hfixed, hself, ?_, ?_, ?_⟩
  · intro x hx
    obtain ⟨y, hy⟩ := normalize_under hk hdot hsettled hx
    rw [DomainTrie.matches_iff h, hy]
    exact Or.inr ⟨y, k, hmem, rfl⟩
  · intro blocklist
    unfold FilterEngine.evaluate
    dsimp only
    rw [hfixed, if_pos hself]
  · intro allowlist hno
    unfold FilterEngine.evaluate
    dsimp only
    rw [hfixed, hno, if_neg Bool.false_ne_true, if_pos hself]

/-- After any insertions the trie is sound exactly if none of the rules that are stored has a
    domain that, once the dots behind it are off, ends in white space. -/
theorem sound_iff (rules : List Str) :
    Sound (inserted rules) ↔
      ∀ rule ∈ rules, (ruleKeys rule).Nonempty → ¬ EndsBlank (bareDomain rule) := by
  constructor
  · intro h rule hrule hstored
    obtain ⟨k, hk⟩ := hstored
    have hfixed := h.fixed k (mem_inserted.2 ⟨rule, hrule, hk⟩)
    obtain ⟨hkey, hne⟩ := key_eq hk
    rw [hkey] at hfixed
    exact (normalize_idem_iff hne).1 hfixed
  · intro h
    have hfound : ∀ k ∈ (inserted rules).exactMatches, normalize k = k ∧ Found (inserted rules) k := by
      intro k hmem
      obtain ⟨rule, hrule, hk⟩ := mem_inserted.1 hmem
      have hblank := h rule hrule ⟨k, hk⟩
      obtain ⟨rfl, hne⟩ := key_eq hk
      obtain ⟨hsolid, hend⟩ := solid_trimmed hne hblank
      obtain ⟨hsolid', hend'⟩ := solid_toLowercase hsolid hend
      exact found_of_solid (agree_inserted rules) hmem hsolid' hend' (toLowercase_settled _)
    refine ⟨agree_inserted rules, ?_, fun k hk => (hfound k hk).1, fun k hk => (hfound k hk).2⟩
    intro k hmem
    obtain ⟨rule, -, hk⟩ := mem_inserted.1 hmem
    exact key_shape hk

/-- A tab in front of the last dot is stored, and then trimmed off every name that is looked up. -/
theorem not_sound_tabDot :
    "a\t".toList ∈ (inserted ["a\t.".toList]).exactMatches ∧
    (inserted ["a\t.".toList]).matches "a\t".toList = false ∧
    ¬ Sound (inserted ["a\t.".toList]) := by
  have hmem : "a\t".toList ∈ (inserted ["a\t.".toList]).exactMatches := by decide +kernel
  have hno : (inserted ["a\t.".toList]).matches "a\t".toList = false := by decide +kernel
  refine ⟨hmem, hno, ?_⟩
  intro h
  rw [(h.found _ hmem).self] at hno
  cases hno

end VantaDns.Filter
