/-
  The string methods of Rust's standard library that the resolver uses, on strings as
  sequences of `char`s: `trim`, `trim_end_matches`, `trim_start_matches`, `split`,
  `split_whitespace`, `lines` and joining labels with dots.
-/
import VantaDns.Lib.Unicode

namespace VantaDns.Lib.Text

open Unicode

/-- `s.trim()`. -/
def trim (s : Str) : Str := (s.dropWhile isWhitespace).rdropWhile isWhitespace

/-- `s.trim_end_matches(c)`. -/
def trimEndMatches (c : Char) (s : Str) : Str := s.rdropWhile (· == c)

/-- `s.trim_start_matches(pat)` for a non-empty string `pat`. -/
def trimStartMatches (pat s : Str) : Str :=
  if pat ≠ [] ∧ pat <+: s then trimStartMatches pat (s.drop pat.length) else s
termination_by s.length
decreasing_by
  rename_i h
  have h1 := List.length_pos_iff.2 h.1
  have h2 := h.2.length_le
  rw [List.length_drop]
  omega

/-- `s.starts_with(pat)`. -/
def startsWith (pat s : Str) : Bool := pat.isPrefixOf s

/-- `s.strip_prefix(pat)`. -/
def stripPrefix (pat s : Str) : Option Str :=
  if startsWith pat s then some (s.drop pat.length) else none

/-- `s.split_whitespace()`. -/
def splitWhitespace (s : Str) : List Str := (s.splitOnP isWhitespace).filter (· ≠ [])

/-- A line without its carriage return. -/
def stripCr (s : Str) : Str := if s.getLast? = some '\r' then s.dropLast else s

/-- `s.lines()`: a line feed ends a line and takes a carriage return before it along; what
    follows the last line feed is a line of its own unless it is empty. -/
def lines (s : Str) : List Str :=
  let segments := s.splitOn '\n'
  let last := segments.getLastD []
  segments.dropLast.map stripCr ++ if last = [] then [] else [last]

/-- Labels joined by dots. -/
def joinDots (labels : List Str) : Str := ['.'].intercalate labels

@[simp] theorem joinDots_nil : joinDots [] = [] := rfl

@[simp] theorem joinDots_singleton (l : Str) : joinDots [l] = l := List.intercalate_singleton

theorem joinDots_cons {l : Str} {ls : List Str} (h : ls ≠ []) :
    joinDots (l :: ls) = l ++ '.' :: joinDots ls := by
  unfold joinDots
  rw [List.intercalate_cons_of_ne_nil h, List.append_assoc]
  rfl

/-! ## Splitting at dots -/

theorem joinDots_splitOn (s : Str) : joinDots (s.splitOn '.') = s := List.intercalate_splitOn '.'

theorem splitOn_joinDots {labels : List Str} (h : ∀ l ∈ labels, '.' ∉ l) (hne : labels ≠ []) :
    (joinDots labels).splitOn '.' = labels := List.splitOn_intercalate '.' h hne

theorem splitOn_of_not_mem {c : Char} {s : Str} (h : c ∉ s) : s.splitOn c = [s] :=
  List.splitOn_eq_singleton h

/-- The pieces hold what the string holds, and no separator. -/
theorem mem_of_mem_splitOn {c : Char} {s l : Str} (hl : l ∈ s.splitOn c) :
    c ∉ l ∧ ∀ x ∈ l, x ∈ s := by
  induction s generalizing l with
  | nil =>
    rw [List.splitOn_nil, List.mem_singleton] at hl
    subst hl
    simp
  | cons x s ih =>
    rw [List.splitOn_cons_eq_if_modifyHead] at hl
    split at hl
    · obtain rfl | hl := List.mem_cons.1 hl
      · simp
      · exact ⟨(ih hl).1, fun y hy => List.mem_cons_of_mem x ((ih hl).2 y hy)⟩
    · next hx =>
      have hcx : c ≠ x := by
        intro h
        simp [h] at hx
      cases hs : s.splitOn c with
      | nil => exact absurd hs (List.splitOn_ne_nil c s)
      | cons p ps =>
        rw [hs] at ih hl
        rw [List.modifyHead_cons] at hl
        obtain rfl | hl := List.mem_cons.1 hl
        · have hp := ih List.mem_cons_self
          simp only [List.mem_cons, not_or]
          refine ⟨⟨hcx, hp.1⟩, ?_⟩
          intro y hy
          exact hy.imp_right (hp.2 y)
        · have hp := ih (List.mem_cons_of_mem p hl)
          exact ⟨hp.1, fun y hy => List.mem_cons_of_mem x (hp.2 y hy)⟩

theorem splitOn_append_sep (s t : Str) (c : Char) :
    (s ++ c :: t).splitOn c = s.splitOn c ++ t.splitOn c := List.splitOn_append_cons_self s t

theorem splitOn_joinDots_flatMap {labels : List Str} (hne : labels ≠ []) :
    (joinDots labels).splitOn '.' = labels.flatMap (fun l => l.splitOn '.') := by
  induction labels with
  | nil => exact absurd rfl hne
  | cons l ls ih =>
    cases ls with
    | nil => simp
    | cons l' ls =>
      rw [joinDots_cons (List.cons_ne_nil l' ls), splitOn_append_sep, ih (List.cons_ne_nil l' ls)]
      rfl

theorem mem_joinDots {labels : List Str} {c : Char} (h : c ∈ joinDots labels) :
    c = '.' ∨ ∃ l ∈ labels, c ∈ l := by
  induction labels with
  | nil => simp at h
  | cons l ls ih =>
    cases ls with
    | nil =>
      rw [joinDots_singleton] at h
      exact Or.inr ⟨l, List.mem_singleton_self l, h⟩
    | cons l' ls =>
      rw [joinDots_cons (List.cons_ne_nil l' ls), List.mem_append, List.mem_cons] at h
      obtain h | h | h := h
      · exact Or.inr ⟨l, List.mem_cons_self, h⟩
      · exact Or.inl h
      · refine (ih h).imp_right ?_
        intro h
        obtain ⟨x, hx, hc⟩ := h
        exact ⟨x, List.mem_cons_of_mem l hx, hc⟩

theorem splitOn_append_replicate (s : Str) (c : Char) (j : Nat) :
    (s ++ List.replicate j c).splitOn c = s.splitOn c ++ List.replicate j [] := by
  induction j generalizing s with
  | zero => simp
  | succ j ih =>
    have hrep : ([] ++ List.replicate j c).splitOn c = [[]] ++ List.replicate j [] := by
      rw [ih, List.splitOn_nil]
    rw [List.replicate_succ, splitOn_append_sep, ← List.nil_append (List.replicate j c), hrep]
    rfl

/-- Trimming takes off a run of the character. -/
theorem exists_trimEndMatches (c : Char) (s : Str) :
    ∃ j, s = trimEndMatches c s ++ List.replicate j c := by
  induction s using List.reverseRecOn with
  | nil => exact ⟨0, rfl⟩
  | append_singleton s x ih =>
    unfold trimEndMatches at ih ⊢
    by_cases hx : x = c
    · obtain ⟨j, hj⟩ := ih
      rw [List.rdropWhile_concat_pos _ _ _ (by simp [hx])]
      refine ⟨j + 1, ?_⟩
      rw [List.replicate_succ', ← List.append_assoc, ← hj, hx]
    · rw [List.rdropWhile_concat_neg _ _ _ (by simp [hx])]
      exact ⟨0, by simp⟩

theorem trimEndMatches_eq_self {c : Char} {s : Str} (h : s.getLast? ≠ some c) :
    trimEndMatches c s = s := by
  unfold trimEndMatches
  rw [List.rdropWhile_eq_self_iff]
  intro hs hc
  rw [List.getLast?_eq_some_getLast hs] at h
  simp at hc
  simp [hc] at h

theorem joinDots_append {ls ls' : List Str} (h : ls ≠ []) (h' : ls' ≠ []) :
    joinDots (ls ++ ls') = joinDots ls ++ '.' :: joinDots ls' := by
  induction ls with
  | nil => exact absurd rfl h
  | cons l ls ih =>
    cases ls with
    | nil => rw [List.singleton_append, joinDots_cons h', joinDots_singleton]
    | cons l' ls =>
      have htail : l' :: ls ++ ls' ≠ [] := List.cons_ne_nil l' (ls ++ ls')
      rw [List.cons_append, joinDots_cons htail, ih (List.cons_ne_nil l' ls),
        joinDots_cons (List.cons_ne_nil l' ls), List.append_assoc, List.cons_append]

/-- A map that keeps the dot maps the labels. -/
theorem map_joinDots {f : Char → Char} (hf : f '.' = '.') (labels : List Str) :
    (joinDots labels).map f = joinDots (labels.map (List.map f)) := by
  induction labels with
  | nil => rfl
  | cons l ls ih =>
    cases ls with
    | nil => rw [joinDots_singleton, List.map_singleton, joinDots_singleton]
    | cons l' ls =>
      have htail : (l' :: ls).map (List.map f) ≠ [] := List.cons_ne_nil _ _
      rw [joinDots_cons (List.cons_ne_nil l' ls), List.map_append, List.map_cons, hf, ih,
        List.map_cons (l := l' :: ls), joinDots_cons htail]

/-- Dots behind a text are trimmed off with those it ends in. -/
theorem trimEndMatches_append_replicate (c : Char) (s : Str) (j : Nat) :
    trimEndMatches c (s ++ List.replicate j c) = trimEndMatches c s := by
  induction j with
  | zero => rw [List.replicate_zero, List.append_nil]
  | succ j ih =>
    rw [List.replicate_succ', ← List.append_assoc]
    unfold trimEndMatches at ih ⊢
    rw [List.rdropWhile_concat_pos _ _ _ (by simp)]
    exact ih

/-- The dots at the end of joined labels are those of empty labels at the end. -/
theorem rdropWhile_dot_joinDots {ps : List Str} (h : ∀ p ∈ ps, '.' ∉ p) :
    trimEndMatches '.' (joinDots ps) = joinDots (ps.rdropWhile List.isEmpty) := by
  induction ps using List.reverseRecOn with
  | nil => rfl
  | append_singleton ps p ih =>
    by_cases hp : p = []
    · subst hp
      rw [List.rdropWhile_concat_pos _ _ _ rfl, ← ih fun q hq => h q (List.mem_append_left _ hq)]
      by_cases hne : ps = []
      · rw [hne]
        rfl
      · rw [joinDots_append hne (List.cons_ne_nil [] [])]
        exact trimEndMatches_append_replicate '.' (joinDots ps) 1
    · rw [List.rdropWhile_concat_neg _ _ _ (by simpa using hp)]
      apply trimEndMatches_eq_self
      intro hlast
      refine h p (by simp) (List.mem_of_getLast? (?_ : p.getLast? = some '.'))
      by_cases hne : ps = []
      · rw [hne, List.nil_append, joinDots_singleton] at hlast
        exact hlast
      · rw [joinDots_append hne (List.cons_ne_nil p []), joinDots_singleton, List.append_cons,
          List.getLast?_append_of_ne_nil _ hp] at hlast
        exact hlast

/-- Joined labels without dots do not end in a dot. -/
theorem trimEndMatches_joinDots {labels : List Str} (h : ∀ l ∈ labels, l ≠ [] ∧ '.' ∉ l) :
    trimEndMatches '.' (joinDots labels) = joinDots labels := by
  have hfull : labels.rdropWhile List.isEmpty = labels := by
    rw [List.rdropWhile_eq_self_iff]
    intro hne
    simpa using (h _ (List.getLast_mem hne)).1
  rw [rdropWhile_dot_joinDots fun l hl => (h l hl).2, hfull]

/-! ## Texts cut behind line feeds -/

/-- The text is empty or ends in a line feed. -/
def Terminated (s : Str) : Prop := s = [] ∨ ∃ t, s = t ++ ['\n']

/-- Behind a line feed the lines begin anew. -/
theorem lines_append {s : Str} (h : Terminated s) (t : Str) : lines (s ++ t) = lines s ++ lines t := by
  rcases h with rfl | ⟨s, rfl⟩
  · rfl
  · obtain ⟨init, last, ht⟩ := (List.eq_nil_or_concat' (t.splitOn '\n')).resolve_left
      (List.splitOn_ne_nil '\n' t)
    have hs : (s ++ ['\n']).splitOn '\n' = s.splitOn '\n' ++ [[]] := by
      rw [splitOn_append_sep, List.splitOn_nil]
    have hst : (s ++ ['\n'] ++ t).splitOn '\n' = s.splitOn '\n' ++ init ++ [last] := by
      rw [List.append_assoc, List.singleton_append, splitOn_append_sep, ht, List.append_assoc]
    unfold lines
    dsimp only
    rw [hs, hst, ht]
    simp only [List.dropLast_concat, List.getLastD_concat, if_true, List.append_nil]
    rw [List.map_append, List.append_assoc]

theorem lines_append_lf (s t : Str) : lines (s ++ '\n' :: t) = lines (s ++ ['\n']) ++ lines t := by
  rw [List.append_cons, lines_append (Or.inr ⟨s, rfl⟩)]

theorem lines_single {l : Str} (h : '\n' ∉ l) : lines (l ++ ['\n']) = [stripCr l] := by
  unfold lines
  rw [splitOn_append_sep, splitOn_of_not_mem h, List.splitOn_nil]
  rfl

/-- Every piece that is followed by further text is terminated. -/
def Cut (pieces : List Str) : Prop :=
  ∀ before s after, pieces = before ++ s :: after → after.flatten ≠ [] → Terminated s

theorem Cut.infix {before pieces after : List Str} (h : Cut (before ++ pieces ++ after)) :
    Cut pieces := by
  intro before' s after' heq hne
  refine h (before ++ before') s (after' ++ after) ?_ ?_
  · rw [heq]
    simp
  · rw [List.flatten_append]
    exact fun hnil => hne (List.append_eq_nil_iff.1 hnil).1

theorem Cut.tail {s : Str} {pieces : List Str} (h : Cut (s :: pieces)) : Cut pieces := by
  intro before' s' after' heq hne
  exact h (s :: before') s' after' (by rw [heq, List.cons_append]) hne

theorem Cut.cons {s : Str} {pieces : List Str} (h : Cut pieces)
    (hs : pieces.flatten ≠ [] → Terminated s) : Cut (s :: pieces) := by
  intro before s' after heq hne
  cases before with
  | nil =>
    obtain ⟨rfl, rfl⟩ := List.cons.inj heq
    exact hs hne
  | cons p before => exact h before s' after (List.cons.inj heq).2 hne

theorem cut_of_terminated {pieces : List Str} (h : ∀ s ∈ pieces, Terminated s) : Cut pieces := by
  intro before s after heq _
  exact h s (by rw [heq]; simp)

/-- The lines of a text that is cut behind line feeds are those of the pieces. -/
theorem lines_flatten {pieces : List Str} (h : Cut pieces) :
    lines pieces.flatten = pieces.flatMap lines := by
  induction pieces with
  | nil => rfl
  | cons s pieces ih =>
    rw [List.flatten_cons, List.flatMap_cons, ← ih h.tail]
    by_cases hne : pieces.flatten = []
    · rw [hne, List.append_nil]
      exact (List.append_nil _).symm
    · exact lines_append (h [] s pieces rfl hne) _

/-! ## White space around a text -/

/-- The text is white space. -/
def Blank (w : Str) : Prop := ∀ c ∈ w, isWhitespace c = true

/-- The text begins and ends with characters that are not white space. -/
structure Solid (s : Str) : Prop where
  first : ∃ c t, s = c :: t ∧ isWhitespace c = false
  last : ∃ t c, s = t ++ [c] ∧ isWhitespace c = false

theorem solid_of_forall {s : Str} (hne : s ≠ []) (h : ∀ c ∈ s, isWhitespace c = false) :
    Solid s := by
  constructor
  · obtain ⟨c, t, rfl⟩ := List.exists_cons_of_ne_nil hne
    exact ⟨c, t, rfl, h c List.mem_cons_self⟩
  · obtain ⟨t, c, rfl⟩ := (List.eq_nil_or_concat' s).resolve_left hne
    exact ⟨t, c, rfl, h c (List.mem_append_right t (List.mem_singleton_self c))⟩

theorem solid_of_all {s : Str} (hne : s ≠ []) (h : (s.all fun c => !isWhitespace c) = true) :
    Solid s :=
  solid_of_forall hne fun c hc => by simpa using List.all_eq_true.1 h c hc

/-- What begins with one solid text and ends with another is solid. -/
theorem Solid.append {s t : Str} (hs : Solid s) (ht : Solid t) (x : Str) : Solid (s ++ (x ++ t)) := by
  obtain ⟨c, s', rfl, hc⟩ := hs.first
  obtain ⟨t', d, rfl, hd⟩ := ht.last
  exact ⟨⟨c, _, rfl, hc⟩, ⟨c :: s' ++ (x ++ t'), d, by simp, hd⟩⟩

theorem rdropWhile_append {p : Char → Bool} {s : Str} (h : ∃ t c, s = t ++ [c] ∧ p c = false)
    (x : Str) : (s ++ x).rdropWhile p = s ++ x.rdropWhile p := by
  obtain ⟨t, c, rfl, hc⟩ := h
  induction x using List.reverseRecOn with
  | nil =>
    rw [List.append_nil, List.rdropWhile_concat_neg _ _ _ (by simp [hc]), List.rdropWhile_nil,
      List.append_nil]
  | append_singleton x d ih =>
    rw [← List.append_assoc]
    by_cases hd : p d = true
    · rw [List.rdropWhile_concat_pos _ _ _ hd, List.rdropWhile_concat_pos _ _ _ hd, ih]
    · rw [List.rdropWhile_concat_neg _ _ _ hd, List.rdropWhile_concat_neg _ _ _ hd,
        List.append_assoc]

theorem Blank.rdropWhile {w : Str} (h : Blank w) : w.rdropWhile isWhitespace = [] :=
  List.rdropWhile_eq_nil_iff.2 h

theorem trim_blank {w : Str} (h : Blank w) : trim w = [] := by
  unfold trim
  rw [List.dropWhile_eq_nil_iff.2 h]
  rfl

/-- Trimming takes off the white space around a solid text, and keeps what follows it. -/
theorem Solid.trim {s : Str} (h : Solid s) {w : Str} (hw : Blank w) (x : Str) :
    Text.trim (w ++ (s ++ x)) = s ++ x.rdropWhile isWhitespace := by
  unfold Text.trim
  rw [List.dropWhile_append_of_pos hw]
  obtain ⟨c, t, hs, hc⟩ := h.first
  have hstart : (s ++ x).dropWhile isWhitespace = s ++ x := by
    rw [hs, List.cons_append, List.dropWhile_cons_of_neg (by simp [hc])]
  rw [hstart, rdropWhile_append h.last]

theorem Solid.trim_eq_self {s : Str} (h : Solid s) : Text.trim s = s := by
  have htrim := h.trim (w := []) (fun _ hc => absurd hc List.not_mem_nil) []
  rw [List.nil_append, List.append_nil] at htrim
  rw [htrim, List.rdropWhile_nil, List.append_nil]

/-! ## Dotted texts trimmed piece by piece -/

/-- The pieces of a dotted text after `trim().trim_end_matches('.')`: no white space in front of
    the first one and behind the last one, and no empty ones at the end. -/
def trimPieces (ps : List Str) : List Str :=
  ((ps.modifyHead (List.dropWhile isWhitespace)).modifyLast
    (List.rdropWhile isWhitespace)).rdropWhile List.isEmpty

theorem trimPieces_eq_self {ps : List Str}
    (h : ∀ p ∈ ps, p ≠ [] ∧ ∀ c ∈ p, isWhitespace c = false) : trimPieces ps = ps := by
  have hhead : ps.modifyHead (List.dropWhile isWhitespace) = ps := by
    cases ps with
    | nil => rfl
    | cons p ps =>
      have hp := h p List.mem_cons_self
      obtain ⟨c, t, rfl⟩ := List.exists_cons_of_ne_nil hp.1
      rw [List.modifyHead_cons, List.dropWhile_cons_of_neg (by simp [hp.2 c List.mem_cons_self])]
  unfold trimPieces
  rw [hhead]
  obtain rfl | ⟨ps, p, rfl⟩ := List.eq_nil_or_concat' ps
  · rfl
  · have hp := h p (List.mem_append_right _ (List.mem_singleton_self p))
    obtain ⟨t, c, rfl⟩ := (List.eq_nil_or_concat' p).resolve_left hp.1
    have hc := hp.2 c (List.mem_append_right _ (List.mem_singleton_self c))
    have hlast : (t ++ [c]).rdropWhile isWhitespace = t ++ [c] :=
      List.rdropWhile_concat_neg _ _ _ (by simp [hc])
    rw [List.modifyLast_concat, hlast, List.rdropWhile_concat_neg _ _ _ (by simp)]

theorem splitWhitespace_blank {w : Str} (h : Blank w) (s : Str) :
    splitWhitespace (w ++ s) = splitWhitespace s := by
  induction w with
  | nil => rfl
  | cons c w ih =>
    have hw : Blank w := fun d hd => h d (List.mem_cons_of_mem c hd)
    unfold splitWhitespace at ih ⊢
    rw [List.cons_append, ← List.nil_append (c :: (w ++ s)),
      List.splitOnP_append_cons [] (w ++ s) (h c List.mem_cons_self), List.splitOnP_nil,
      List.filter_append, ih hw]
    rfl

theorem splitWhitespace_word {s : Str} (hne : s ≠ []) (h : ∀ c ∈ s, isWhitespace c = false) :
    splitWhitespace s = [s] := by
  unfold splitWhitespace
  rw [List.splitOnP_eq_singleton h]
  simp [hne]

theorem splitWhitespace_cons {s : Str} (hne : s ≠ []) (h : ∀ c ∈ s, isWhitespace c = false)
    {c : Char} (hc : isWhitespace c = true) (t : Str) :
    splitWhitespace (s ++ c :: t) = s :: splitWhitespace t := by
  unfold splitWhitespace
  rw [List.splitOnP_append_cons s t hc, List.splitOnP_eq_singleton h, List.filter_append]
  simp [hne]

/-! ## Prefixes -/

theorem startsWith_append (pat s : Str) : startsWith pat (pat ++ s) = true :=
  List.isPrefixOf_iff_prefix.2 (List.prefix_append pat s)

theorem stripPrefix_eq_some {pat s rest : Str} : stripPrefix pat s = some rest ↔ s = pat ++ rest := by
  unfold stripPrefix
  constructor
  · intro h
    split at h
    · next hp =>
      obtain ⟨t, rfl⟩ := List.isPrefixOf_iff_prefix.1 hp
      rw [List.drop_left, Option.some.injEq] at h
      rw [h]
    · cases h
  · rintro rfl
    rw [if_pos (startsWith_append pat rest), List.drop_left]

theorem startsWith_cons_cons (p c : Char) (pat s : Str) :
    startsWith (p :: pat) (c :: s) = (p == c && startsWith pat s) := rfl

theorem trimStartMatches_of_startsWith {pat s : Str} (h : startsWith pat s = false) :
    trimStartMatches pat s = s := by
  rw [trimStartMatches, if_neg]
  intro hp
  exact Bool.false_ne_true (h.symm.trans (List.isPrefixOf_iff_prefix.2 hp.2))

theorem trimStartMatches_append {pat : Str} (hne : pat ≠ []) {s : Str}
    (h : startsWith pat s = false) : trimStartMatches pat (pat ++ s) = s := by
  rw [trimStartMatches, if_pos ⟨hne, List.prefix_append pat s⟩, List.drop_left,
    trimStartMatches_of_startsWith h]

end VantaDns.Lib.Text
