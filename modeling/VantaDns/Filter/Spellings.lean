/-
  Two spellings of a list line next to the plain ones (`DomainTrie::insert_rule`): `||D^|` for
  `||D^`, and a hosts line with a gap of spaces and tabs for one with a single space.

  `insert_rule` trims no `|` off the end and looks for a space behind the address, so it stores
  `||D^|` under the key `D^|` and a hosts line whose gap begins with a tab whole, or not at all
  (`Variant.ruleKeys_eq`).

  `respelt_iff`: wherever in whatever loading calls the spelling stands, the engine decides every
  domain as with the plain one exactly if the other rules cover `D` and the key that is stored
  in its place (`Variant.Redundant`); a hosts line whose gap begins with a space is as good as
  the plain one. An exception `@@||D^|` leaves `D` as it was, blocked if it was.
-/
import VantaDns.Filter.Rules

namespace VantaDns.Filter

open Lib Lib.Text Lib.Unicode

/-! ## Engines that decide alike -/

/-- The keys that keep a rule of `side` from having a say: those of the allowlist for an
    exception, and those of both rule sets for a rule of the blocklist. -/
def FilterEngine.over (engine : FilterEngine) : Side → Set Str
  | .allow => engine.keys .allow
  | .block => engine.keys .allow ∪ engine.keys .block

/-- Two engines decide a domain alike if it is covered alike. -/
theorem evaluate_eq_iff (loads loads' : List Load) (domain : Str) :
    (loaded loads).evaluate domain = (loaded loads').evaluate domain ↔
      ∀ side, Covers ((loaded loads).over side) (normalize (normalize domain)) ↔
        Covers ((loaded loads').over side) (normalize (normalize domain)) := by
  rw [evaluate_eq_keys, evaluate_eq_keys]
  unfold decision
  have hblock : ∀ e : FilterEngine, Covers (e.over .block) (normalize (normalize domain)) ↔
      Covers (e.keys .allow) (normalize (normalize domain)) ∨
        Covers (e.keys .block) (normalize (normalize domain)) := fun _ => covers_union
  have hall : ∀ p : Side → Prop, (∀ side, p side) ↔ p .allow ∧ p .block := by
    intro p
    constructor
    · exact fun h => ⟨h .allow, h .block⟩
    · intro h side
      cases side with
      | allow => exact h.1
      | block => exact h.2
  rw [hall, hblock, hblock]
  change _ ↔ (Covers ((loaded loads).keys .allow) _ ↔ Covers ((loaded loads').keys .allow) _) ∧ _
  by_cases ha : Covers ((loaded loads).keys .allow) (normalize (normalize domain)) <;>
    by_cases ha' : Covers ((loaded loads').keys .allow) (normalize (normalize domain)) <;>
    by_cases hb : Covers ((loaded loads).keys .block) (normalize (normalize domain)) <;>
    by_cases hb' : Covers ((loaded loads').keys .block) (normalize (normalize domain)) <;>
    simp [ha, ha', hb, hb']

/-! ## A line respelt -/

/-- A rule text that a list line can hold. -/
structure Body (a : Str) : Prop where
  solid : Solid a
  not_skipped : isSkipped a = false
  not_exception : startsWith "@@".toList a = false

/-- The calls `op` and `op'` differ in one rule for `side`, which `op` spells `a` and `op'`
    spells `b`; `rest` loads what else they load. -/
inductive Respelt (a b : Str) : Side → List Load → Load → Load → Prop
  | blocklistRule : Respelt a b .block [] (.blocklistRule a) (.blocklistRule b)
  | allowlistRule {mark : Str} (hmark : mark = [] ∨ mark = "@@".toList) :
      Respelt a b .allow [] (.allowlistRule (mark ++ a)) (.allowlistRule (mark ++ b))
  | blocklistLine {c c' c'' w w' : Str} {ls ls' : List Str} (hw : Blank w) (hw' : Blank w')
      (hc : lines c = ls ++ (w ++ (a ++ w')) :: ls') (hc' : lines c' = ls ++ (w ++ (b ++ w')) :: ls')
      (hrest : lines c'' = ls ++ ls') :
      Respelt a b .block [.blocklistContent c''] (.blocklistContent c) (.blocklistContent c')
  | exceptionLine {c c' c'' w w' : Str} {ls ls' : List Str} (hw : Blank w) (hw' : Blank w')
      (hc : lines c = ls ++ (w ++ ("@@".toList ++ (a ++ w'))) :: ls')
      (hc' : lines c' = ls ++ (w ++ ("@@".toList ++ (b ++ w'))) :: ls')
      (hrest : lines c'' = ls ++ ls') :
      Respelt a b .allow [.blocklistContent c''] (.blocklistContent c) (.blocklistContent c')
  | allowlistLine {c c' c'' w w' mark : Str} {ls ls' : List Str} (hw : Blank w) (hw' : Blank w')
      (hmark : mark = [] ∨ mark = "@@".toList)
      (hc : lines c = ls ++ (w ++ (mark ++ (a ++ w'))) :: ls')
      (hc' : lines c' = ls ++ (w ++ (mark ++ (b ++ w'))) :: ls')
      (hrest : lines c'' = ls ++ ls') :
      Respelt a b .allow [.allowlistContent c''] (.allowlistContent c) (.allowlistContent c')

theorem Respelt.symm {a b : Str} {side : Side} {rest : List Load} {op op' : Load}
    (h : Respelt a b side rest op op') : Respelt b a side rest op' op := by
  cases h with
  | blocklistRule => exact .blocklistRule
  | allowlistRule hmark => exact .allowlistRule hmark
  | blocklistLine hw hw' hc hc' hrest => exact .blocklistLine hw hw' hc' hc hrest
  | exceptionLine hw hw' hc hc' hrest => exact .exceptionLine hw hw' hc' hc hrest
  | allowlistLine hw hw' hmark hc hc' hrest => exact .allowlistLine hw hw' hmark hc' hc hrest

namespace Body

variable {a w w' : Str}

theorem trim_eq (h : Body a) (hw : Blank w) (hw' : Blank w') : trim (w ++ (a ++ w')) = a := by
  rw [h.solid.trim hw, hw'.rdropWhile, List.append_nil]

theorem trim_exception (h : Body a) (hw : Blank w) (hw' : Blank w') :
    trim (w ++ ("@@".toList ++ (a ++ w'))) = "@@".toList ++ a := by
  have hat : Solid "@@".toList := solid_of_all (by decide) (by decide)
  have htrim := (hat.append h.solid []).trim hw w'
  rw [List.nil_append, List.append_assoc, hw'.rdropWhile, List.append_nil] at htrim
  exact htrim

theorem trimStartMatches_mark (h : Body a) {mark : Str} (hmark : mark = [] ∨ mark = "@@".toList) :
    trimStartMatches "@@".toList (mark ++ a) = a := by
  obtain rfl | rfl := hmark
  · rw [List.nil_append, trimStartMatches_of_startsWith h.not_exception]
  · exact trimStartMatches_append (by decide) h.not_exception

end Body

/-- The keys of a text with one line more. -/
theorem keys_with_line {added : Str → Side → Set Str} {ls ls' : List Str} {line : Str}
    (side : Side) : {k | ∃ l ∈ ls ++ line :: ls', k ∈ added l side} =
      {k | ∃ l ∈ ls ++ ls', k ∈ added l side} ∪ added line side := by
  ext k
  simp only [List.mem_append, List.mem_cons, Set.mem_union, Set.mem_ofPred_eq]
  constructor
  · intro h
    obtain ⟨l, hl | rfl | hl, hk⟩ := h
    · exact Or.inl ⟨l, Or.inl hl, hk⟩
    · exact Or.inr hk
    · exact Or.inl ⟨l, Or.inr hl, hk⟩
  · rintro (⟨l, hl | hl, hk⟩ | hk)
    · exact ⟨l, Or.inl hl, hk⟩
    · exact ⟨l, Or.inr (Or.inr hl), hk⟩
    · exact ⟨line, Or.inr (Or.inl rfl), hk⟩

/-- What the call loads: the rest, and the rule. -/
theorem Respelt.keys_eq {a b : Str} {side : Side} {rest : List Load} {op op' : Load}
    (h : Respelt a b side rest op op') (ha : Body a) (s : Side) :
    op.keys s = {k | ∃ r ∈ rest, k ∈ r.keys s} ∪ {k | s = side ∧ k ∈ ruleKeys a} := by
  cases h with
  | blocklistRule => simp [Load.keys]
  | allowlistRule hmark =>
    simp [-String.reduceToList, Load.keys, ha.trimStartMatches_mark hmark]
  | blocklistLine hw hw' hc hc' hrest =>
    simp only [Load.keys, hc, hrest, keys_with_line, List.mem_singleton, exists_eq_left]
    cases s <;> simp [-String.reduceToList, blocklistLineKeys, ha.trim_eq hw hw', ha.not_exception,
      ha.not_skipped]
  | exceptionLine hw hw' hc hc' hrest =>
    have hstrip := ha.trimStartMatches_mark (Or.inr rfl)
    simp only [Load.keys, hc, hrest, keys_with_line, List.mem_singleton, exists_eq_left]
    cases s <;> simp [-String.reduceToList, blocklistLineKeys, ha.trim_exception hw hw',
      startsWith_append, hstrip]
  | @allowlistLine c c' c'' w w' mark ls ls' hw hw' hmark hc hc' hrest =>
    have htrim : trim (w ++ (mark ++ (a ++ w'))) = mark ++ a := by
      obtain rfl | rfl := hmark
      · exact ha.trim_eq hw hw'
      · exact ha.trim_exception hw hw'
    have hskip : isSkipped (mark ++ a) = false := by
      obtain rfl | rfl := hmark
      · exact ha.not_skipped
      · rfl
    simp only [Load.keys, hc, hrest, keys_with_line, List.mem_singleton, exists_eq_left]
    cases s <;> simp [-String.reduceToList, allowlistLineKeys, htrim, hskip,
      ha.trimStartMatches_mark hmark]

/-- The rule adds its keys to its own rule set. -/
theorem Respelt.loaded_keys {a b : Str} {side : Side} {rest : List Load} {op op' : Load}
    (h : Respelt a b side rest op op') (ha : Body a) (pre post : List Load) (s : Side) :
    (loaded (pre ++ op :: post)).keys s = (loaded (pre ++ (rest ++ post))).keys s ∪
      {k | s = side ∧ k ∈ ruleKeys a} := by
  rw [keys_loaded, keys_loaded]
  ext k
  have hop := Set.ext_iff.1 (h.keys_eq ha s) k
  simp only [Set.mem_union, Set.mem_ofPred_eq] at hop
  simp only [List.mem_append, List.mem_cons, or_and_right, exists_or, exists_eq_left, hop,
    Set.mem_union, Set.mem_ofPred_eq, or_assoc]
  rw [or_comm (a := s = side ∧ k ∈ ruleKeys a)]

/-- The rule adds to the keys above its own rule set and above the blocklist's. -/
theorem Respelt.over_eq {a b : Str} {side : Side} {rest : List Load} {op op' : Load}
    (h : Respelt a b side rest op op') (ha : Body a) (pre post : List Load) (s : Side) :
    (loaded (pre ++ op :: post)).over s = (loaded (pre ++ (rest ++ post))).over s ∪
      {k | (s = side ∨ side = .allow) ∧ k ∈ ruleKeys a} := by
  cases s with
  | allow =>
    refine (h.loaded_keys ha pre post .allow).trans ?_
    cases side <;> simp [FilterEngine.over]
  | block =>
    unfold FilterEngine.over
    rw [h.loaded_keys ha, h.loaded_keys ha]
    ext k
    cases side <;> simp <;> tauto

/-- A rule adds one key at most. -/
theorem ruleKeys_eq_singleton {rawRule k : Str} (h : k ∈ ruleKeys rawRule) :
    ruleKeys rawRule = {k} := by
  obtain ⟨h1, rfl, h2⟩ := h
  ext k'
  constructor
  · exact fun h' => h'.2.1
  · rintro rfl
    exact ⟨h1, rfl, h2⟩

section Same

variable {a b : Str} {side : Side} {rest : List Load} {op op' : Load}

/-- If no domain is decided differently, a key of one spelling is the other's key, or covered. -/
theorem Respelt.covers_of_same (h : Respelt a b side rest op op') (ha : Body a) (hb : Body b)
    {pre post : List Load} {k : Str} (hk : k ∈ ruleKeys a) (hnormal : normalize k = k)
    (hapart : ∀ k' ∈ ruleKeys b, Covers {k'} k → k = k')
    (hsame : (loaded (pre ++ op :: post)).evaluate k = (loaded (pre ++ op' :: post)).evaluate k) :
    k ∈ ruleKeys b ∨ Covers ((loaded (pre ++ (rest ++ post))).over side) k := by
  have hcov := (evaluate_eq_iff _ _ k).1 hsame side
  rw [hnormal, hnormal, h.over_eq ha, h.symm.over_eq hb, covers_union, covers_union] at hcov
  obtain hbase | hother := hcov.1 (Or.inr (Or.inl ⟨Or.inl rfl, hk⟩))
  · exact Or.inr hbase
  · obtain ⟨k', ⟨-, hk'⟩, hc⟩ := covers_iff_exists.1 hother
    obtain rfl := hapart k' hk' hc
    exact Or.inl hk'

/-- A rule whose keys the others cover changes no decision. -/
theorem Respelt.covers_over_iff (h : Respelt a b side rest op op') (ha : Body a)
    {pre post : List Load}
    (hk : ∀ k ∈ ruleKeys a, Covers ((loaded (pre ++ (rest ++ post))).over side) k) (s : Side)
    (n : Str) : Covers ((loaded (pre ++ op :: post)).over s) n ↔
      Covers ((loaded (pre ++ (rest ++ post))).over s) n := by
  rw [h.over_eq ha, covers_union]
  refine or_iff_left_of_imp ?_
  intro hn
  refine hn.trans ?_
  intro k h
  obtain ⟨hs, hka⟩ := h
  refine (hk k hka).mono ?_
  obtain rfl | rfl := hs
  · exact subset_rfl
  · cases s with
    | allow => exact subset_rfl
    | block => exact Set.subset_union_left

/-- Two spellings of a rule have the same effect if they add the same key, or the other rules
    cover the keys of both. -/
theorem Respelt.same_iff (h : Respelt a b side rest op op') (ha : Body a) (hb : Body b)
    (pre post : List Load) (hnormal : ∀ k, k ∈ ruleKeys a ∨ k ∈ ruleKeys b → normalize k = k)
    (hapart : ∀ k ∈ ruleKeys a, ∀ k' ∈ ruleKeys b, Covers {k'} k ∨ Covers {k} k' → k = k') :
    (∀ domain, (loaded (pre ++ op :: post)).evaluate domain =
        (loaded (pre ++ op' :: post)).evaluate domain) ↔
      ruleKeys a = ruleKeys b ∨ ∀ k, k ∈ ruleKeys a ∨ k ∈ ruleKeys b →
        Covers ((loaded (pre ++ (rest ++ post))).over side) k := by
  constructor
  · intro hsame
    by_cases heq : ruleKeys a = ruleKeys b
    · exact Or.inl heq
    · refine Or.inr ?_
      rintro k (hk | hk)
      · refine (h.covers_of_same ha hb hk (hnormal k (Or.inl hk)) ?_ (hsame k)).resolve_left ?_
        · exact fun k' hk' hc => hapart k hk k' hk' (Or.inl hc)
        · intro hkb
          exact heq ((ruleKeys_eq_singleton hk).trans (ruleKeys_eq_singleton hkb).symm)
      · refine (h.symm.covers_of_same hb ha hk (hnormal k (Or.inr hk)) ?_
          (hsame k).symm).resolve_left ?_
        · exact fun k' hk' hc => (hapart k' hk' k hk (Or.inr hc)).symm
        · intro hka
          exact heq ((ruleKeys_eq_singleton hka).trans (ruleKeys_eq_singleton hk).symm)
  · intro hcond domain
    rw [evaluate_eq_iff]
    intro s
    obtain heq | hcond := hcond
    · rw [h.over_eq ha, h.symm.over_eq hb, heq]
    · rw [h.covers_over_iff ha (fun k hk => hcond k (Or.inl hk)),
        h.symm.covers_over_iff hb (fun k hk => hcond k (Or.inr hk))]

end Same

/-! ## The two spellings -/

/-- A spelling next to the plain one: a `|` behind the rule, or another gap in a hosts line. -/
inductive Variant where
  | endAnchored
  | gap (address w : Str) (ha : address = "0.0.0.0".toList ∨ address = "127.0.0.1".toList)
      (ne : w ≠ []) (hw : ∀ c ∈ w, c = ' ' ∨ c = '\t')

namespace Variant

def spelled (host : HostName) : Variant → Str
  | .endAnchored => "||".toList ++ (host.text ++ "^|".toList)
  | .gap address w _ _ _ => address ++ (w ++ host.text)

def plain (host : HostName) : Variant → Str
  | .endAnchored => "||".toList ++ (host.text ++ ['^'])
  | .gap address _ _ _ _ => address ++ ' ' :: (host.text ++ [])

/-- The keys `insert_rule` stores for the spelling. -/
def keys (host : HostName) : Variant → Set Str
  | .endAnchored => {host.lower.text ++ "^|".toList}
  | .gap address w _ _ _ =>
      if w.head? = some ' ' then {host.lower.text}
      else if ' ' ∈ w then ∅ else {address ++ (w ++ host.lower.text)}

variable {host : HostName}

theorem spells_plain (v : Variant) : Spells host (v.plain host) := by
  cases v with
  | endAnchored => exact .adguardEnd
  | gap address w ha ne hw => exact .hosts ha (Or.inl rfl)

theorem body_plain (v : Variant) : Body (v.plain host) := by
  have hs : Spells host (v.plain host) := v.spells_plain
  refine ⟨?_, hs.not_skipped, hs.not_exception⟩
  cases v with
  | endAnchored =>
    exact (solid_of_all (by decide) (by decide)).append (solid_of_all (by decide) (by decide)) _
  | gap address w ha ne hw =>
    have hsolid := (solid_address ha).append host.solid [' ']
    rw [← List.append_nil host.text] at hsolid
    exact hsolid

theorem body_spelled (v : Variant) : Body (v.spelled host) := by
  cases v with
  | endAnchored =>
    exact ⟨(solid_of_all (by decide) (by decide)).append (solid_of_all (by decide) (by decide)) _,
      rfl, rfl⟩
  | gap address w ha ne hw =>
    refine ⟨(solid_address ha).append host.solid w, ?_, ?_⟩
    · rcases ha with rfl | rfl <;> rfl
    · rcases ha with rfl | rfl <;> rfl

/-- A text between host characters that lower-casing takes as it is becomes its own key. -/
theorem normalize_between (host : HostName) {x y : Str} (hx : ∀ c ∈ x, Plain c ∧ c.toLower = c)
    (hy : ∀ c ∈ y, Plain c ∧ c.toLower = c) (hsolid : Solid (x ++ (host.text ++ y)))
    (hlast : (x ++ (host.text ++ y)).getLast? ≠ some '.') :
    normalize (x ++ (host.text ++ y)) = x ++ (host.lower.text ++ y) := by
  have hmap : ∀ {z : Str}, (∀ c ∈ z, Plain c ∧ c.toLower = c) → z.map Char.toLower = z := by
    intro z hz
    exact (List.map_congr_left fun c hc => (hz c hc).2).trans (List.map_id z)
  unfold normalize
  rw [hsolid.trim_eq_self, trimEndMatches_eq_self hlast, toLowercase_plain, List.map_append,
    List.map_append, hmap hx, hmap hy, HostName.text_lower]
  intro c hc
  obtain hc | hc := List.mem_append.1 hc
  · exact (hx c hc).1
  obtain hc | hc := List.mem_append.1 hc
  · exact host.plain c hc
  · exact (hy c hc).1

theorem normalize_endAnchored (host : HostName) :
    normalize (host.text ++ "^|".toList) = host.lower.text ++ "^|".toList := by
  have hy : ∀ c ∈ "^|".toList, Plain c ∧ c.toLower = c := by
    intro c hc
    rcases List.mem_pair.1 hc with rfl | rfl <;> decide
  have hsolid := host.solid.append (solid_of_all (s := "^|".toList) (by decide) (by decide)) []
  refine normalize_between host (x := []) (fun c hc => absurd hc List.not_mem_nil) hy hsolid ?_
  rw [List.nil_append, List.getLast?_append_of_ne_nil _ (by decide)]
  decide

theorem normalize_gap (host : HostName) {address w : Str}
    (ha : address = "0.0.0.0".toList ∨ address = "127.0.0.1".toList)
    (hw : ∀ c ∈ w, c = ' ' ∨ c = '\t') :
    normalize (address ++ (w ++ host.text)) = address ++ (w ++ host.lower.text) := by
  have haddr : (address.all fun c => decide (Plain c ∧ c.toLower = c)) = true := by
    rcases ha with rfl | rfl <;> decide
  have hx : ∀ c ∈ address ++ w, Plain c ∧ c.toLower = c := by
    intro c hc
    obtain hc | hc := List.mem_append.1 hc
    · exact of_decide_eq_true (List.all_eq_true.1 haddr c hc)
    · rcases hw c hc with rfl | rfl <;> decide
  have hsolid := (solid_address ha).append host.solid w
  have htrim := host.trimEndMatches_text
  have hne := host.text_ne_nil
  have hn := normalize_between host (y := []) hx (fun c hc => absurd hc List.not_mem_nil)
  rw [List.append_nil, List.append_nil, List.append_assoc, List.append_assoc] at hn
  refine hn hsolid ?_
  rw [← List.append_assoc, List.getLast?_append_of_ne_nil _ hne,
    List.getLast?_eq_some_getLast hne]
  unfold trimEndMatches at htrim
  rw [List.rdropWhile_eq_self_iff] at htrim
  simpa using htrim hne

theorem ruleKeys_endAnchored (host : HostName) :
    ruleKeys (endAnchored.spelled host) = {host.lower.text ++ "^|".toList} := by
  have hbody : Body (endAnchored.spelled host) := body_spelled _
  have htrim := hbody.solid.trim_eq_self
  have hdollar := host.not_mem_text (c := '$') (by decide)
  have hdomain : ruleDomain (endAnchored.spelled host) = host.text ++ "^|".toList := by
    refine (Spells.ruleDomain_adguard host _).trans ?_
    rw [splitOn_of_not_mem (by simp [hdollar])]
    apply trimEndMatches_eq_self
    rw [List.headD_cons, List.getLast?_append_of_ne_nil _ (by decide)]
    decide
  have hspace := host.lower.not_mem_text (c := ' ') (by decide)
  have hequals := host.lower.not_mem_text (c := '=') (by decide)
  refine ruleKeys_stored (htrim.symm ▸ hbody.not_skipped) ?_ (by simp)
    (HostName.startsWith_text (by decide) [] host.lower _) (by simp [hspace]) (by simp [hequals])
  rw [htrim, hdomain, normalize_endAnchored]

section Gap

variable {address w : Str} {ha : address = "0.0.0.0".toList ∨ address = "127.0.0.1".toList}

theorem ruleKeys_gap_space {ne : ' ' :: w ≠ []} {hw : ∀ c ∈ ' ' :: w, c = ' ' ∨ c = '\t'}
    (host : HostName) :
    ruleKeys ((gap address (' ' :: w) ha ne hw).spelled host) = {host.lower.text} := by
  have hbody : Body ((gap address (' ' :: w) ha ne hw).spelled host) := body_spelled _
  have htrim := hbody.solid.trim_eq_self
  have hblank : Blank w := by
    intro d hd
    rcases hw d (List.mem_cons_of_mem _ hd) with rfl | rfl <;> decide
  refine ruleKeys_of_ruleDomain (htrim.symm ▸ hbody.not_skipped) ?_
  rw [htrim, spelled, List.cons_append, Spells.ruleDomain_hosts ha, splitWhitespace_blank hblank,
    splitWhitespace_word host.text_ne_nil host.notSpace]
  rfl

theorem ruleKeys_gap_tab {ne : '\t' :: w ≠ []} {hw : ∀ c ∈ '\t' :: w, c = ' ' ∨ c = '\t'}
    (host : HostName) :
    ruleKeys ((gap address ('\t' :: w) ha ne hw).spelled host) =
      if ' ' ∈ '\t' :: w then ∅ else {address ++ ('\t' :: w ++ host.lower.text)} := by
  have hbody : Body ((gap address ('\t' :: w) ha ne hw).spelled host) := body_spelled _
  have htrim := hbody.solid.trim_eq_self
  have hdomain : ruleDomain ((gap address ('\t' :: w) ha ne hw).spelled host) =
      address ++ ('\t' :: w ++ host.text) := by
    rcases ha with rfl | rfl <;> rfl
  have hkey : normalize (ruleDomain (trim ((gap address ('\t' :: w) ha ne hw).spelled host))) =
      address ++ ('\t' :: w ++ host.lower.text) := by
    rw [htrim, hdomain, normalize_gap host ha hw]
  by_cases hsp : ' ' ∈ '\t' :: w
  · rw [if_pos hsp]
    exact ruleKeys_rejected hkey (List.mem_append_right _ (List.mem_append_left _ hsp))
  · have hfirst : address ++ ('\t' :: w ++ host.lower.text) ≠ [] ∧
        startsWith ['/'] (address ++ ('\t' :: w ++ host.lower.text)) = false ∧
        ' ' ∉ address ∧ '=' ∉ address := by
      rcases ha with rfl | rfl <;> exact ⟨List.cons_ne_nil _ _, rfl, by decide, by decide⟩
    have hequals : '=' ∉ '\t' :: w := by
      intro hm
      rcases hw _ hm with h | h <;> exact absurd h (by decide)
    rw [if_neg hsp]
    refine ruleKeys_stored (htrim.symm ▸ hbody.not_skipped) hkey hfirst.1 hfirst.2.1 ?_ ?_
    · rw [List.mem_append, List.mem_append]
      rintro (h | h | h)
      · exact hfirst.2.2.1 h
      · exact hsp h
      · exact host.lower.not_mem_text (by decide) h
    · rw [List.mem_append, List.mem_append]
      rintro (h | h | h)
      · exact hfirst.2.2.2 h
      · exact hequals h
      · exact host.lower.not_mem_text (by decide) h

end Gap

/-- What is stored for the spelling: its key is not that of the plain one, unless it is a hosts
    line with a space behind the address. -/
theorem ruleKeys_eq (v : Variant) (host : HostName) : ruleKeys (v.spelled host) = v.keys host := by
  cases v with
  | endAnchored => exact ruleKeys_endAnchored host
  | gap address w ha ne hw =>
    obtain ⟨c, w', rfl⟩ := List.exists_cons_of_ne_nil ne
    obtain rfl | rfl := hw c List.mem_cons_self
    · exact ruleKeys_gap_space host
    · exact ruleKeys_gap_tab host

theorem normalize_key (v : Variant) {host : HostName} {k : Str} (hk : k ∈ v.keys host) :
    normalize k = k := by
  cases v with
  | endAnchored =>
    obtain rfl := Set.mem_singleton_iff.1 hk
    rw [normalize_endAnchored, host.text_lower_lower]
  | gap address w ha ne hw =>
    unfold keys at hk
    dsimp only at hk
    split at hk
    · obtain rfl := Set.mem_singleton_iff.1 hk
      exact host.normalize_lower
    · split at hk
      · exact absurd hk (Set.notMem_empty k)
      · obtain rfl := Set.mem_singleton_iff.1 hk
        rw [normalize_gap host.lower ha hw, host.text_lower_lower]

/-- No host name is covered by a key with a foreign character. -/
theorem not_covers_of_foreign {d : HostName} {k : Str} {c : Char} (hk : c ∈ k)
    (hc : isHostChar c = false ∧ c ≠ '.') : ¬ Covers {k} d.text := by
  intro h
  obtain ⟨k', rfl, hsuf⟩ := h.exists_suffix
  exact d.not_mem_text hc (hsuf.subset hk)

/-- Neither key covers the other, unless they are one. -/
theorem keys_apart (v : Variant) {host : HostName} {k : Str} (hk : k ∈ v.keys host)
    (h : Covers {host.lower.text} k ∨ Covers {k} host.lower.text) : k = host.lower.text := by
  cases v with
  | endAnchored =>
    obtain rfl := Set.mem_singleton_iff.1 hk
    obtain h | h := h
    · obtain ⟨g, rfl, t, ht⟩ := h.exists_suffix
      have hlast := congrArg List.getLast? ht
      rw [List.getLast?_append_of_ne_nil _ host.lower.text_ne_nil,
        List.getLast?_append_of_ne_nil _ (by decide)] at hlast
      exact absurd (List.mem_of_getLast? hlast) (host.lower.not_mem_text (c := '|') (by decide))
    · exact absurd h (not_covers_of_foreign (c := '|') (by simp) (by decide))
  | gap address w ha ne hw =>
    unfold keys at hk
    dsimp only at hk
    split at hk
    · exact Set.mem_singleton_iff.1 hk
    split at hk
    · exact absurd hk (Set.notMem_empty k)
    obtain rfl := Set.mem_singleton_iff.1 hk
    -- the last character of the gap, a space or a tab
    obtain ⟨w', c, rfl⟩ := (List.eq_nil_or_concat' w).resolve_left ne
    have hc : isHostChar c = false ∧ c ≠ '.' := by
      rcases hw c (List.mem_append_right _ (List.mem_singleton_self c)) with rfl | rfl <;> decide
    have hmem : c ∈ address ++ (w' ++ [c] ++ host.lower.text) := by simp
    obtain (h | ⟨x, r, rfl, heq⟩) | h := h
    · exact Set.mem_singleton_iff.1 h
    · have hx : (address ++ w' ++ [c]) ++ host.lower.text = (x ++ ['.']) ++ host.lower.text := by
        simpa using heq
      have hlast := congrArg List.getLast? (List.append_cancel_right hx)
      rw [List.getLast?_append_of_ne_nil _ (by simp), List.getLast?_append_of_ne_nil _ (by simp),
        List.getLast?_singleton, List.getLast?_singleton, Option.some.injEq] at hlast
      exact absurd hlast hc.2
    · exact absurd h (not_covers_of_foreign hmem hc)

/-- The keys `others` cover both what the plain spelling adds and what this one adds, where these
    differ. -/
def Redundant (host : HostName) (others : Set Str) : Variant → Prop
  | .endAnchored =>
      Covers others host.lower.text ∧ Covers others (host.lower.text ++ "^|".toList)
  | .gap address w _ _ _ =>
      w.head? = some ' ' ∨ Covers others host.lower.text ∧
        (' ' ∈ w ∨ Covers others (address ++ (w ++ host.lower.text)))

theorem redundant_iff (v : Variant) (host : HostName) (others : Set Str) :
    v.Redundant host others ↔ v.keys host = {host.lower.text} ∨
      ∀ k, k ∈ v.keys host ∨ k = host.lower.text → Covers others k := by
  cases v with
  | endAnchored =>
    have hne : ({host.lower.text ++ "^|".toList} : Set Str) ≠ {host.lower.text} := by
      rw [Ne, Set.singleton_eq_singleton_iff]
      simp
    rw [Redundant, keys, or_iff_right hne]
    simp [-String.reduceToList, or_imp, forall_and, and_comm]
  | gap address w ha ne hw =>
    unfold Redundant keys
    dsimp only
    by_cases hhead : w.head? = some ' '
    · simp [hhead]
    · have hkey : address ++ (w ++ host.lower.text) ≠ host.lower.text := by
        intro heq
        have hlen := congrArg List.length heq
        have hpos := List.length_pos_iff.2 ne
        simp only [List.length_append] at hlen
        omega
      rw [if_neg hhead, or_iff_right hhead]
      by_cases hsp : ' ' ∈ w
      · have hne : (∅ : Set Str) ≠ {host.lower.text} := (Set.singleton_ne_empty _).symm
        simp [hsp, hne]
      · rw [if_neg hsp, or_iff_right hsp, Set.singleton_eq_singleton_iff, or_iff_right hkey]
        simp [or_imp, forall_and, and_comm]

end Variant

/-! ## The effect of a spelling -/

/-- The decision on a host name. -/
theorem evaluate_text (loads : List Load) (d : HostName) : (loaded loads).evaluate d.text =
    open Classical in
    if Covers ((loaded loads).keys .allow) d.lower.text then .AllowListMatched d.lower.text
    else if Covers ((loaded loads).keys .block) d.lower.text then .Blocked d.lower.text
    else .Allowed := by
  rw [evaluate_eq_keys]
  unfold decision
  rw [d.normalize_self, d.normalize_lower]

/-- Wherever a spelling stands in whatever is loaded, it has the effect of the plain one exactly
    if the rest covers the keys of both, or the gap of a hosts line begins with a space. The
    end-anchored one has no say in whether a host name is blocked. -/
theorem respelt_iff {host : HostName} {v : Variant} {side : Side} {rest : List Load}
    {op op' : Load} (h : Respelt (v.spelled host) (v.plain host) side rest op op')
    (pre post : List Load) :
    ((∀ domain, (loaded (pre ++ op :: post)).evaluate domain =
        (loaded (pre ++ op' :: post)).evaluate domain) ↔
      v.Redundant host ((loaded (pre ++ (rest ++ post))).over side)) ∧
    (v = .endAnchored → ∀ d : HostName,
      (∀ rule, (loaded (pre ++ op :: post)).evaluate d.text ≠ .Blocked rule) ↔
        (Covers ((loaded (pre ++ (rest ++ post))).keys .block) d.lower.text →
          Covers ((loaded (pre ++ (rest ++ post))).keys .allow) d.lower.text)) := by
  have hplain : ruleKeys (v.plain host) = {host.lower.text} := v.spells_plain.ruleKeys_self
  have hspelled := v.ruleKeys_eq host
  constructor
  · rw [v.redundant_iff, h.same_iff v.body_spelled v.body_plain, hplain, hspelled]
    · rfl
    · rw [hplain, hspelled]
      rintro k (hk | rfl)
      · exact v.normalize_key hk
      · exact host.normalize_lower
    · rw [hplain, hspelled]
      rintro k hk k' rfl hcov
      exact v.keys_apart hk hcov
  · rintro rfl d
    have hkeys : ∀ s, Covers ((loaded (pre ++ op :: post)).keys s) d.lower.text ↔
        Covers ((loaded (pre ++ (rest ++ post))).keys s) d.lower.text := by
      intro s
      rw [h.loaded_keys (Variant.body_spelled _), covers_union, hspelled]
      refine or_iff_left ?_
      intro hcov
      obtain ⟨k, ⟨-, rfl⟩, hk⟩ := covers_iff_exists.1 hcov
      exact Variant.not_covers_of_foreign (c := '|') (by simp) (by decide) hk
    rw [evaluate_text, ← hkeys, ← hkeys]
    by_cases hallow : Covers ((loaded (pre ++ op :: post)).keys .allow) d.lower.text
    · simp [hallow]
    · by_cases hblock : Covers ((loaded (pre ++ op :: post)).keys .block) d.lower.text
      · simp [hallow, hblock]
      · simp [hallow, hblock]

/-! ## A gap that begins with a space, and an exception that excepts nothing -/

def spaceTab : Variant :=
  .gap "0.0.0.0".toList [' ', '\t'] (Or.inl rfl) (by decide) fun c hc => by simpa using hc

theorem respelt_iff_spaceTab :
    (loaded [.blocklistRule (spaceTab.spelled adsHost)]).evaluate adsHost.text =
      (loaded [.blocklistRule (spaceTab.plain adsHost)]).evaluate adsHost.text :=
  (respelt_iff (v := spaceTab) .blocklistRule [] []).1.2 (Or.inl rfl) adsHost.text

theorem keys_blocklistRule (host : HostName) (side : Side) :
    (loaded [.blocklistRule host.text]).keys side = {k | side = .block ∧ k = host.lower.text} := by
  have hkeys := (Spells.domain : Spells host host.text).ruleKeys_self
  rw [keys_loaded]
  simp [Load.keys, hkeys]

/-- `ok.ads.X` stays blocked by the rule `ok.ads.X` under the exception `@@||ok.ads.X^|`, and is
    allow-listed under `@@||ok.ads.X^`. -/
theorem blocked_endAnchored_okHost :
    (loaded [.blocklistRule okHost.text,
        .allowlistRule ("@@".toList ++ Variant.endAnchored.spelled okHost)]).evaluate okHost.text =
      .Blocked okHost.lower.text ∧
    (loaded [.blocklistRule okHost.text,
        .allowlistRule ("@@".toList ++ Variant.endAnchored.plain okHost)]).evaluate okHost.text =
      .AllowListMatched okHost.lower.text := by
  have h : Respelt (Variant.endAnchored.spelled okHost) (Variant.endAnchored.plain okHost) .allow []
      _ _ := .allowlistRule (Or.inr rfl)
  have hspelled := h.loaded_keys (Variant.body_spelled _) [.blocklistRule okHost.text] []
  have hplain := h.symm.loaded_keys (Variant.body_plain _) [.blocklistRule okHost.text] []
  have hkey := (Variant.endAnchored.spells_plain : Spells okHost _).ruleKeys_self
  have hself : Covers {okHost.lower.text} okHost.lower.text := Or.inl rfl
  have hforeign : ¬ Covers {okHost.lower.text ++ "^|".toList} okHost.lower.text :=
    Variant.not_covers_of_foreign (c := '|') (by simp) (by decide)
  simp only [List.cons_append, List.nil_append, keys_blocklistRule] at hspelled hplain
  constructor
  · rw [evaluate_text, hspelled, hspelled, Variant.ruleKeys_endAnchored,
      if_neg (by simpa [-String.reduceToList] using hforeign), if_pos (by simpa using hself)]
  · rw [evaluate_text, hplain, hkey, if_pos (by simpa using hself)]

end VantaDns.Filter
