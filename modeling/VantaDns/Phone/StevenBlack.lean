/-
  The hosts list on the phone (the conversion in `update-blocklists.sh`).

  The script keeps the lines that begin with `0.0.0.0`, prints their second word, keeps what
  begins with a small letter or a digit, and sorts. Under `pipefail` the result replaces
  the list only if something was kept. All this is about files without a NUL byte, since `grep`
  takes others for binary and does not print their lines (`TextFile`).

  `convert_spec`: where the lines with `0.0.0.0` are lines of a hosts file, with the host in lower
  case behind a space, the converted list makes the engine that they alone made, in any
  configuration, and a conversion of it changes nothing. The other lines are lost, of which
  `127.0.0.1 localhost` was a rule.
-/
import VantaDns.Config.Startup
import VantaDns.Filter.Chunks
import VantaDns.Lib.Words

namespace VantaDns.Phone

open Lib Lib.Text Lib.Unicode Lib.Words Config VantaDns.Filter

/-- A file that `grep` reads as lines of text. -/
structure TextFile where
  text : Str
  noNul : '\x00' ∉ text
  deriving DecidableEq

/-- What separates words for `awk`. -/
def isBlank (c : Char) : Bool := c == ' ' || c == '\t' || c == '\n'

/-- The lines as `grep` and `awk` read them. -/
def unixLines (s : Str) : List Str :=
  let segments := s.splitOn '\n'
  if segments.getLastD [] = [] then segments.dropLast else segments

/-- `grep -E "^0\.0\.0\.0"`. -/
def isZeroLine (line : Str) : Bool := startsWith "0.0.0.0".toList line

/-- `awk '{print $2}'`. -/
def secondWord (line : Str) : Str := (words isBlank line).getD 1 []

/-- `grep -E '^[a-z0-9]'`. -/
def isNameStart (line : Str) : Bool := line.head?.any fun c => c.isLower || c.isDigit

/-- `sort -u`, for lines in the order of their characters. -/
def sortUnique (ls : List Str) : List Str := ls.dedup.insertionSort (· ≤ ·)

/-- What the pipe puts out. -/
def convertedLines (text : Str) : List Str :=
  sortUnique ((((unixLines text).filter isZeroLine).map secondWord).filter isNameStart)

/-! ## Lines -/

theorem mem_of_mem_unixLines {s l : Str} (h : l ∈ unixLines s) : '\n' ∉ l ∧ ∀ c ∈ l, c ∈ s := by
  have hmem : l ∈ s.splitOn '\n' := by
    unfold unixLines at h
    dsimp only at h
    split at h
    · exact List.dropLast_subset _ h
    · exact h
  exact mem_of_mem_splitOn hmem

theorem mem_of_mem_secondWord {line : Str} :
    ∀ c ∈ secondWord line, c ∈ line ∧ isBlank c = false := by
  unfold secondWord
  rw [List.getD_eq_getElem?_getD]
  cases hget : (words isBlank line)[1]? with
  | none => exact fun _ hc => absurd hc List.not_mem_nil
  | some word => exact mem_of_mem_words (List.mem_of_getElem? hget)

/-- The lines put out are the second words that begin like a name. -/
theorem mem_convertedLines {text l : Str} : l ∈ convertedLines text ↔ isNameStart l = true ∧
    ∃ line ∈ unixLines text, isZeroLine line = true ∧ secondWord line = l := by
  unfold convertedLines sortUnique
  rw [List.mem_insertionSort, List.mem_dedup, List.mem_filter, List.mem_map, and_comm]
  simp only [List.mem_filter, and_assoc]

theorem convertedLines_not_blank {text l : Str} (h : l ∈ convertedLines text) :
    ∀ c ∈ l, isBlank c = false := by
  obtain ⟨-, line, -, -, rfl⟩ := mem_convertedLines.1 h
  exact fun c hc => (mem_of_mem_secondWord c hc).2

theorem not_mem_chunkText {ls : List Str} {c : Char} (hc : c ≠ '\n') (h : ∀ l ∈ ls, c ∉ l) :
    c ∉ chunkText ls := by
  unfold chunkText
  rw [List.mem_flatten]
  intro ⟨t, ht, hct⟩
  obtain ⟨l, hl, rfl⟩ := List.mem_map.1 ht
  obtain hold | hlast := List.mem_append.1 hct
  · exact h l hl hold
  · exact hc (List.mem_singleton.1 hlast)

/-! ## The conversion -/

/-- The list after the conversion; `none` if it stays as it is. -/
def convert (file : TextFile) : Option TextFile :=
  if convertedLines file.text = [] then none
  else some
    { text := chunkText (convertedLines file.text)
      noNul := not_mem_chunkText (by decide) fun l hl hnul => by
        obtain ⟨-, line, hline, -, rfl⟩ := mem_convertedLines.1 hl
        exact file.noNul ((mem_of_mem_unixLines hline).2 _ (mem_of_mem_secondWord _ hnul).1) }

/-- The list without the lines that are passed over. -/
def zeroLines (text : Str) : Str := chunkText ((unixLines text).filter isZeroLine)

theorem unixLines_chunkText {ls : List Str} (h : ∀ l ∈ ls, '\n' ∉ l) :
    unixLines (chunkText ls) = ls := by
  have hsegments : (chunkText ls).splitOn '\n' = ls ++ [[]] := by
    induction ls with
    | nil => rfl
    | cons l ls ih =>
      have hl : '\n' ∉ l := h l List.mem_cons_self
      have hrest := ih fun l' hl' => h l' (List.mem_cons_of_mem l hl')
      unfold chunkText at hrest ⊢
      rw [List.map_cons, List.flatten_cons, List.append_assoc, List.singleton_append,
        splitOn_append_sep, splitOn_of_not_mem hl, hrest]
      rfl
  unfold unixLines
  dsimp only
  rw [hsegments, List.getLastD_concat, if_pos rfl, List.dropLast_concat]

theorem lines_chunkText_of_not_mem {ls : List Str} (h : ∀ l ∈ ls, '\n' ∉ l) :
    lines (chunkText ls) = ls.map stripCr := by
  rw [lines_chunkText, List.map_eq_flatMap]
  exact List.flatMap_congr fun l hl => lines_single (h l hl)

theorem trim_stripCr (l : Str) : trim (stripCr l) = trim l := by
  unfold stripCr
  split
  · next hlast =>
    obtain ⟨init, rfl⟩ : ∃ init, l = init ++ ['\r'] :=
      ⟨_, (List.dropLast_append_getLast? '\r' hlast).symm⟩
    rw [List.dropLast_concat]
    unfold trim
    rw [List.dropWhile_append]
    split
    · next hnil =>
      rw [List.isEmpty_iff.1 hnil]
      decide
    · rw [List.rdropWhile_concat_pos _ _ _ (by decide)]
  · rfl

/-- A line may end in a carriage return. -/
theorem blocklistLineKeys_stripCr (l : Str) (side : Side) :
    blocklistLineKeys (stripCr l) side = blocklistLineKeys l side := by
  unfold blocklistLineKeys
  rw [trim_stripCr]

/-- What a text of given lines adds. -/
theorem keys_chunkText {ls : List Str} (h : ∀ l ∈ ls, '\n' ∉ l) (side : Side) :
    {k | ∃ line ∈ lines (chunkText ls), k ∈ blocklistLineKeys line side} =
      {k | ∃ line ∈ ls, k ∈ blocklistLineKeys line side} := by
  rw [lines_chunkText_of_not_mem h]
  simp only [List.mem_map, exists_exists_and_eq_and, blocklistLineKeys_stripCr]

/-! ## Lines of a hosts file -/

/-- A line `0.0.0.0 host` with anything behind the host: a space stands behind the zeros, and the
    host begins with a digit or a letter in lower case. -/
structure HostsLine (line word : Str) : Prop where
  solid : ∀ c ∈ word, isWhitespace c = false
  start : isNameStart word = true
  shape : ∃ w rest, line = "0.0.0.0".toList ++ ' ' :: (w ++ (word ++ rest)) ∧
    (∀ c ∈ w, isBlank c = true) ∧
    (rest = [] ∨ rest = ['\r'] ∨ ∃ c t, rest = c :: t ∧ isBlank c = true)

theorem isWhitespace_of_isBlank {c : Char} (h : isBlank c = true) : isWhitespace c = true := by
  unfold isBlank at h
  simp only [Bool.or_eq_true, beq_iff_eq] at h
  obtain (rfl | rfl) | rfl := h <;> decide

section Lines

variable {line word : Str}

theorem HostsLine.ne_nil (h : HostsLine line word) : word ≠ [] := by
  rintro rfl
  exact absurd h.start (by decide)

/-- No rule spelling begins like a name. -/
theorem HostsLine.startsWith_word (h : HostsLine line word) {p : Char}
    (hp : (p.isLower || p.isDigit) = false) (pat : Str) : startsWith (p :: pat) word = false := by
  obtain ⟨c, t, rfl⟩ := List.exists_cons_of_ne_nil h.ne_nil
  have hc : (c.isLower || c.isDigit) = true := h.start
  rw [startsWith_cons_cons]
  have hpc : (p == c) = false := by
    rw [beq_eq_false_iff_ne]
    rintro rfl
    exact Bool.false_ne_true (hp.symm.trans hc)
  rw [hpc, Bool.false_and]

/-- The word is a rule for itself. -/
theorem HostsLine.ruleDomain_word (h : HostsLine line word) : ruleDomain word = word := by
  have hspace : ∀ pat : Str, ' ' ∈ pat → startsWith pat word = false := by
    intro pat hpat
    rw [startsWith, Bool.eq_false_iff, Ne, List.isPrefixOf_iff_prefix]
    intro hpre
    exact Bool.false_ne_true ((h.solid ' ' (hpre.subset hpat)).symm.trans (by decide))
  have hbars : startsWith "||".toList word = false := h.startsWith_word (by decide) ['|']
  have hstar : startsWith "*.".toList word = false := h.startsWith_word (by decide) ['.']
  unfold ruleDomain
  rw [hbars, hspace _ (by decide), hspace _ (by decide), hstar]
  rfl

/-- The filter reads the word from the line. -/
theorem HostsLine.trim_line (h : HostsLine line word) :
    trim (trim line) = trim line ∧ ruleDomain (trim line) = word ∧
      ∃ t, trim line = '0' :: t := by
  obtain ⟨w, rest, rfl, hw, hrest⟩ := h.shape
  have hblank : Blank w := fun c hc => isWhitespace_of_isBlank (hw c hc)
  have hcore : Solid ("0.0.0.0".toList ++ ((' ' :: w) ++ word)) :=
    (solid_of_all (by decide) (by decide)).append (solid_of_forall h.ne_nil h.solid) _
  have htrim : ∀ x, trim ("0.0.0.0".toList ++ ' ' :: (w ++ (word ++ x))) =
      "0.0.0.0".toList ++ ' ' :: (w ++ (word ++ x.rdropWhile isWhitespace)) := by
    intro x
    have happ := hcore.trim blank_nil x
    simpa using happ
  have hword :
      (splitWhitespace (w ++ (word ++ rest.rdropWhile isWhitespace))).getD 0 [] = word := by
    rw [splitWhitespace_blank hblank]
    have hend : rest.rdropWhile isWhitespace = [] ∨
        ∃ c t, rest.rdropWhile isWhitespace = c :: t ∧ isWhitespace c = true := by
      obtain ⟨y, hy⟩ := List.rdropWhile_prefix isWhitespace rest
      cases hd : rest.rdropWhile isWhitespace with
      | nil => exact Or.inl rfl
      | cons c t =>
        rw [hd, List.cons_append] at hy
        refine Or.inr ⟨c, t, rfl, ?_⟩
        obtain rfl | rfl | ⟨c', t', rfl, hc'⟩ := hrest
        · cases hy
        · rw [(List.cons.inj hy).1]
          decide
        · rw [(List.cons.inj hy).1]
          exact isWhitespace_of_isBlank hc'
    obtain hnil | ⟨c, t, hcons, hc⟩ := hend
    · rw [hnil, List.append_nil, splitWhitespace_word h.ne_nil h.solid]
      rfl
    · rw [hcons, splitWhitespace_cons h.ne_nil h.solid hc]
      rfl
  have haddress : "0.0.0.0".toList = "0.0.0.0".toList ∨ "0.0.0.0".toList = "127.0.0.1".toList :=
    Or.inl rfl
  rw [htrim, htrim, List.rdropWhile_idempotent]
  refine ⟨rfl, (Spells.ruleDomain_hosts haddress _).trans hword, ?_⟩
  exact ⟨_, List.cons_append⟩

/-- Behind the address `awk` finds the word, with the carriage return of its line. -/
theorem HostsLine.secondWord_eq (h : HostsLine line word) :
    ∃ cr, (cr = [] ∨ cr = ['\r']) ∧ secondWord line = word ++ cr := by
  obtain ⟨w, rest, rfl, hw, hrest⟩ := h.shape
  have haddress : ∀ c ∈ "0.0.0.0".toList, isBlank c = false := by simp [isBlank]
  have hplain : ∀ c ∈ word, isBlank c = false := by
    intro c hc
    rw [Bool.eq_false_iff]
    intro hblank
    exact Bool.false_ne_true ((h.solid c hc).symm.trans (isWhitespace_of_isBlank hblank))
  have hwords : words isBlank ("0.0.0.0".toList ++ ' ' :: (w ++ (word ++ rest))) =
      "0.0.0.0".toList :: words isBlank (word ++ rest) := by
    rw [words_cons (by decide) haddress (by decide), words_append_left hw]
  unfold secondWord
  rw [hwords]
  obtain rfl | rfl | ⟨c, t, rfl, hc⟩ := hrest
  · refine ⟨[], Or.inl rfl, ?_⟩
    rw [List.append_nil, words_word h.ne_nil hplain]
    rfl
  · refine ⟨['\r'], Or.inr rfl, ?_⟩
    have hcr : ∀ c ∈ word ++ ['\r'], isBlank c = false := by
      intro c hc
      obtain hc | hc := List.mem_append.1 hc
      · exact hplain c hc
      · rw [List.mem_singleton.1 hc]
        decide
    rw [words_word (by simp) hcr]
    rfl
  · refine ⟨[], Or.inl rfl, ?_⟩
    rw [words_cons h.ne_nil hplain hc, List.append_nil]
    rfl

/-- The word alone is the same rule as its line. -/
theorem HostsLine.keys_secondWord (h : HostsLine line word) (side : Side) :
    blocklistLineKeys (secondWord line) side = blocklistLineKeys line side := by
  obtain ⟨cr, hcr, hsecond⟩ := h.secondWord_eq
  obtain ⟨htwice, hdomain, t, hstart⟩ := h.trim_line
  have hsolid := solid_of_forall h.ne_nil h.solid
  have hword : trim (secondWord line) = word := by
    have htrim := hsolid.trim blank_nil cr
    rw [List.nil_append] at htrim
    rw [hsecond, htrim]
    obtain rfl | rfl := hcr
    · exact List.append_nil word
    · have hcr : ['\r'].rdropWhile isWhitespace = [] := by decide
      rw [hcr, List.append_nil]
  have hat : startsWith "@@".toList word = false := h.startsWith_word (by decide) ['@']
  have hat' : startsWith "@@".toList (trim line) = false := by rw [hstart]; rfl
  have hskip : isSkipped word = false := by
    unfold isSkipped
    rw [h.startsWith_word (by decide), h.startsWith_word (by decide),
      List.isEmpty_eq_false_iff.2 h.ne_nil]
    rfl
  have hskip' : isSkipped (trim line) = false := by rw [hstart]; rfl
  have hkeys : ruleKeys word = ruleKeys (trim line) := by
    unfold ruleKeys
    rw [htwice, hsolid.trim_eq_self, hdomain, h.ruleDomain_word, hskip, hskip']
  unfold blocklistLineKeys
  rw [hword, hat, hat', hskip, hskip', hkeys]
  cases side with
  | allow => simp
  | block => rfl

end Lines

/-! ## The converted list -/

/-- A single word has no second one. -/
theorem secondWord_of_word {l : Str} (h : ∀ c ∈ l, isBlank c = false) : secondWord l = [] := by
  unfold secondWord
  by_cases hl : l = []
  · rw [hl]
    rfl
  · rw [words_word hl h]
    rfl

theorem not_mem_of_not_blank {l : Str} (h : ∀ c ∈ l, isBlank c = false) : '\n' ∉ l :=
  fun hlf => Bool.false_ne_true ((h _ hlf).symm.trans (by decide))

theorem convert_eq_some {file converted : TextFile} (h : convert file = some converted) :
    converted.text = chunkText (convertedLines file.text) := by
  unfold convert at h
  split at h
  · cases h
  · rw [← Option.some.inj h]

/-- No line that was kept has a second word, so that a conversion of the list keeps nothing. -/
theorem convert_again {file converted : TextFile} (h : convert file = some converted) :
    convert converted = none := by
  have hnone : convertedLines converted.text = [] := by
    rw [convert_eq_some h, List.eq_nil_iff_forall_not_mem]
    intro word hword
    obtain ⟨hstart, l, hl, -, rfl⟩ := mem_convertedLines.1 hword
    rw [unixLines_chunkText fun l hl => not_mem_of_not_blank (convertedLines_not_blank hl)] at hl
    rw [secondWord_of_word (convertedLines_not_blank hl)] at hstart
    exact Bool.false_ne_true hstart
  unfold convert
  rw [if_pos hnone]

/-- A line of a hosts file is kept. -/
theorem HostsLine.kept {line word : Str} (h : HostsLine line word) :
    isZeroLine line = true ∧ isNameStart (secondWord line) = true := by
  constructor
  · obtain ⟨w, rest, rfl, -⟩ := h.shape
    exact startsWith_append _ _
  · obtain ⟨cr, -, hsecond⟩ := h.secondWord_eq
    obtain ⟨c, t, rfl⟩ := List.exists_cons_of_ne_nil h.ne_nil
    rw [hsecond]
    exact h.start

/-- Of lines of a hosts file the conversion keeps the rules. -/
theorem keys_convert {file converted : TextFile} (h : convert file = some converted)
    (hlines : ∀ line ∈ unixLines file.text, isZeroLine line = true → ∃ word, HostsLine line word)
    (side : Side) : (Load.blocklistContent converted.text).keys side =
      (Load.blocklistContent (zeroLines file.text)).keys side := by
  have hlf : ∀ l ∈ (unixLines file.text).filter isZeroLine, '\n' ∉ l :=
    fun l hl => (mem_of_mem_unixLines (List.mem_of_mem_filter hl)).1
  rw [convert_eq_some h]
  refine (keys_chunkText (fun l hl => not_mem_of_not_blank (convertedLines_not_blank hl))
    side).trans (Eq.trans ?_ (keys_chunkText hlf side).symm)
  ext k
  constructor
  · intro ⟨l, hl, hk⟩
    obtain ⟨-, line, hline, hzero, rfl⟩ := mem_convertedLines.1 hl
    obtain ⟨word, hhosts⟩ := hlines line hline hzero
    exact ⟨line, List.mem_filter.2 ⟨hline, hzero⟩, hhosts.keys_secondWord side ▸ hk⟩
  · intro ⟨line, hfilter, hk⟩
    obtain ⟨hline, hzero⟩ := List.mem_filter.1 hfilter
    obtain ⟨word, hhosts⟩ := hlines line hline hzero
    refine ⟨secondWord line, mem_convertedLines.2 ⟨hhosts.kept.2, line, hline, hzero, rfl⟩, ?_⟩
    rw [hhosts.keys_secondWord side]
    exact hk

/-! ## The list in its place -/

/-- Texts with the same keys make the same engine from a path of the blocklists. -/
theorem loadFilter_update {env : EnvVars} {config : ServerConfig} {path a b : Str} (files : Files)
    (hkeys : ∀ side, (Load.blocklistContent a).keys side = (Load.blocklistContent b).keys side)
    (hallow : ∀ p ∈ config.allowlistPaths, resolvePath env p ≠ path) :
    loadFilter env (Function.update files path (.ok (Utf8.encode a))) config =
      loadFilter env (Function.update files path (.ok (Utf8.encode b))) config := by
  have hread : ∀ {t p : Str}, resolvePath env p ≠ path →
      readToString (Function.update files path (.ok (Utf8.encode t))) (resolvePath env p) =
        readToString files (resolvePath env p) := by
    intro t p hp
    unfold readToString
    rw [Function.update_of_ne hp]
  have hself : ∀ t : Str, readToString (Function.update files path (.ok (Utf8.encode t))) path =
      .ok t := fun t => readToString_ok_iff.2 (Function.update_self _ _ _)
  have hallowed : ∀ t : Str, listTexts env (Function.update files path (.ok (Utf8.encode t)))
      config.allowlistPaths = listTexts env files config.allowlistPaths := by
    intro t
    refine List.filterMap_congr fun p hp => ?_
    rw [hread (hallow p hp)]
  have hlisted : ∀ {a b : Str},
      (∀ side, (Load.blocklistContent a).keys side = (Load.blocklistContent b).keys side) →
      ∀ side k, (∃ t ∈ listTexts env (Function.update files path (.ok (Utf8.encode a)))
          config.blocklistPaths, k ∈ (Load.blocklistContent t).keys side) →
        ∃ t ∈ listTexts env (Function.update files path (.ok (Utf8.encode b)))
          config.blocklistPaths, k ∈ (Load.blocklistContent t).keys side := by
    intro a b hab side k ⟨t, ht, hk⟩
    obtain ⟨p, hp, hpt⟩ := List.mem_filterMap.1 ht
    by_cases hpath : resolvePath env p = path
    · rw [hpath, hself a] at hpt
      obtain rfl := Option.some.inj hpt
      refine ⟨b, List.mem_filterMap.2 ⟨p, hp, ?_⟩, hab side ▸ hk⟩
      rw [hpath, hself b]
      rfl
    · refine ⟨t, List.mem_filterMap.2 ⟨p, hp, ?_⟩, hk⟩
      rw [hread hpath] at hpt ⊢
      exact hpt
  rw [loadFilter_eq, loadFilter_eq, hallowed, hallowed]
  refine (grown_loaded _).eq_of_keys (grown_loaded _) fun side => ?_
  rw [keys_loaded, keys_loaded]
  ext k
  simp only [List.mem_append, List.mem_map, Set.mem_ofPred_eq, or_and_right, exists_or,
    exists_exists_and_eq_and]
  exact or_congr ⟨hlisted hkeys side k, hlisted (fun side => (hkeys side).symm) side k⟩ Iff.rfl

/-- The converted list, wherever it stands among the blocklists of a configuration, makes the
    engine that the lines with `0.0.0.0` made; and converting it again changes nothing. -/
theorem convert_spec {file converted : TextFile} (h : convert file = some converted)
    (hlines : ∀ line ∈ unixLines file.text, isZeroLine line = true → ∃ word, HostsLine line word) :
    convert converted = none ∧
    ∀ env files (config : ServerConfig) path,
      (∀ p ∈ config.allowlistPaths, resolvePath env p ≠ path) →
      loadFilter env (Function.update files path (.ok (Utf8.encode converted.text))) config =
        loadFilter env (Function.update files path (.ok (Utf8.encode (zeroLines file.text))))
          config :=
  ⟨convert_again h,
    fun _ files _ _ hallow => loadFilter_update files (keys_convert h hlines) hallow⟩

/-- A local name, which is lost, and hosts with a comment, a second space and a repetition. -/
def sampleHosts : TextFile where
  text :=
    "# hosts\n127.0.0.1 localhost\n0.0.0.0 t.io # ads\r\n0.0.0.0  a.io\r\n0.0.0.0 t.io\n".toList
  noNul := by decide

def sampleConverted : TextFile := ⟨"a.io\r\nt.io\n".toList, by decide⟩

theorem convert_spec_sampleHosts :
    convert sampleConverted = none ∧
    loadFilter (fun _ => none) (Function.update (fun _ => .error "") [] (.ok (Utf8.encode
        sampleConverted.text))) { ServerConfig.default with blocklistPaths := [[]] } =
      loadFilter (fun _ => none) (Function.update (fun _ => .error "") [] (.ok (Utf8.encode
        (zeroLines sampleHosts.text)))) { ServerConfig.default with blocklistPaths := [[]] } := by
  have hconvert : convert sampleHosts = some sampleConverted := by decide
  have hunix : (unixLines sampleHosts.text).filter isZeroLine = ["0.0.0.0 t.io # ads\r".toList,
      "0.0.0.0  a.io\r".toList, "0.0.0.0 t.io".toList] := by
    decide
  have hsolid : ∀ {word : Str}, (word.all fun c => !isWhitespace c) = true →
      ∀ c ∈ word, isWhitespace c = false := by
    intro word hall c hc
    simpa using List.all_eq_true.1 hall c hc
  have hlines : ∀ line ∈ unixLines sampleHosts.text, isZeroLine line = true →
      ∃ word, HostsLine line word := by
    intro line hline hzero
    have hmem : line ∈ (unixLines sampleHosts.text).filter isZeroLine :=
      List.mem_filter.2 ⟨hline, hzero⟩
    rw [hunix] at hmem
    obtain rfl | rfl | rfl : line = _ ∨ line = _ ∨ line = _ := by simpa using hmem
    · exact ⟨"t.io".toList, hsolid (by decide), by decide, [], " # ads\r".toList,
        by decide, nofun, Or.inr (Or.inr ⟨' ', _, rfl, rfl⟩)⟩
    · exact ⟨"a.io".toList, hsolid (by decide), by decide, [' '], ['\r'],
        by decide, by simp [isBlank], Or.inr (Or.inl rfl)⟩
    · exact ⟨"t.io".toList, hsolid (by decide), by decide, [], [],
        by decide, nofun, Or.inl rfl⟩
  obtain ⟨hagain, hload⟩ := convert_spec hconvert hlines
  exact ⟨hagain, hload _ _ _ _ nofun⟩

end VantaDns.Phone
