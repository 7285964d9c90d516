/-
  Splitting a downloaded list on the phone (`split_into_chunks` in `update-blocklists.sh`).

  The script removes the old part files and runs a Python program that reads the list as
  text, collects lines until they take a number of bytes, and writes each collection to a
  part file named by letters. `splitIntoChunks` is what it does to the files.

  `splitIntoChunks_eq` and `writeParts_spec` say what is written; `partName_inj`: no two parts have
  one name. `lines_universalNewlines`: the translation of line ends does not change the lines
  that the server reads.
-/
import VantaDns.Lib.Chunks
import VantaDns.Config.Startup

namespace VantaDns.Phone

open Lib Lib.Text Lib.Utf8 Config

/-- The line ends of text files: a carriage return with a line feed behind it, or alone, counts as
    a line feed. -/
def universalNewlines : Str → Str
  | [] => []
  | c :: s =>
      if c = '\r' then
        if s.head? = some '\n' then universalNewlines s else '\n' :: universalNewlines s
      else c :: universalNewlines s

/-- `fp.readlines()`: the lines with their line feeds. -/
def readlines : Str → List Str
  | [] => []
  | c :: s =>
      if c = '\n' then ['\n'] :: readlines s
      else
        match readlines s with
        | [] => [[c]]
        | line :: rest => (c :: line) :: rest

/-- `chr`, for what can stand in a file name: a surrogate cannot. -/
def chr (n : Nat) : Option Char := if n.isValidChar then some (Char.ofNat n) else none

/-- `{chr(97 + i // 26) if i >= 26 else ''}`. -/
def secondLetter (i : Nat) : Option Str :=
  if 26 ≤ i then (chr (97 + i / 26)).map ([·]) else some []

/-- The name of the `i`-th part; `none` is an error, which ends the script. -/
def partName (stem : Str) (i : Nat) : Option Str := do
  let first ← chr (97 + i % 26)
  let second ← secondLetter i
  return stem ++ (".part".toList ++ (first :: second))

/-- The loop over the chunks, which writes the `i`-th part first. -/
def writeParts (stem : Str) : (i : Nat) → List (List Str) → Files → Option Files
  | _, [], files => some files
  | i, chunk :: chunks, files =>
    match partName stem i with
    | none => none
    | some out =>
        writeParts stem (i + 1) chunks (Function.update files out (.ok (encode chunk.flatten)))

/-- `rm -f "$LISTS/bundled/${name}.part"*`. -/
def removeParts (stem : Str) (files : Files) : Files := fun path =>
  match stripPrefix (stem ++ ".part".toList) path with
  | some rest => if '/' ∈ rest then files path else .error "No such file or directory"
  | none => files path

/-- `$LISTS`. -/
def listsDir (home : Str) : Str := home ++ "/VantaDNS/config/blocklists".toList

/-- `$LISTS/bundled/$name`. -/
def bundled (home name : Str) : Str := listsDir home ++ ("/bundled/".toList ++ name)

/-- `split_into_chunks`: the files after it, or `none` if the script ends in an error. -/
def splitIntoChunks (home : Str) (files : Files) (src name : Str) (bytes : Nat) : Option Files :=
  match files src with
  -- [ -f "$src" ] || return 0
  | .error _ => some files
  | .ok content =>
      let lines := readlines (universalNewlines (fromUtf8Lossy content))
      writeParts (bundled home name) 0 (chunkLoop byteLen bytes [] 0 lines)
        (removeParts (bundled home name) files)

/-! ## Reading lines -/

theorem flatten_readlines (s : Str) : (readlines s).flatten = s := by
  induction s with
  | nil => rfl
  | cons c s ih =>
    rw [readlines]
    split
    · next hc => rw [List.flatten_cons, ih, hc, List.singleton_append]
    · split
      · next h =>
        rw [h] at ih
        rw [← ih]
        rfl
      · next line rest h =>
        rw [h] at ih
        rw [List.flatten_cons, List.cons_append, ← List.flatten_cons, ih]

theorem readlines_append_lf {l : Str} (h : '\n' ∉ l) (s : Str) :
    readlines (l ++ '\n' :: s) = (l ++ ['\n']) :: readlines s := by
  induction l with
  | nil => rfl
  | cons c l ih =>
    rw [List.mem_cons, not_or] at h
    have hc : c ≠ '\n' := fun hc => h.1 hc.symm
    rw [List.cons_append, readlines, if_neg hc, ih h.2]
    rfl

/-- A line that is repeated in front of a text. -/
theorem readlines_replicate {l : Str} (h : '\n' ∉ l) (n : Nat) (s : Str) :
    readlines ((List.replicate n (l ++ ['\n'])).flatten ++ s) =
      List.replicate n (l ++ ['\n']) ++ readlines s := by
  induction n with
  | zero => rfl
  | succ n ih =>
    rw [List.replicate_succ, List.flatten_cons, List.append_assoc, List.append_assoc,
      List.singleton_append, readlines_append_lf h, ih, List.cons_append]

/-- The lines are not empty, and cut the text behind its line feeds. -/
theorem readlines_spec (s : Str) : (∀ line ∈ readlines s, line ≠ []) ∧ Cut (readlines s) := by
  induction s with
  | nil => exact ⟨nofun, cut_of_terminated nofun⟩
  | cons c s ih =>
    obtain ⟨hne, hcut⟩ := ih
    rw [readlines]
    split
    · refine ⟨?_, hcut.cons fun _ => Or.inr ⟨[], rfl⟩⟩
      intro line hline
      rcases List.mem_cons.1 hline with rfl | hline
      · exact List.cons_ne_nil _ _
      · exact hne line hline
    · split
      · have hnone : ∀ s ∈ ([] : List Str), Terminated s := nofun
        refine ⟨?_, (cut_of_terminated hnone).cons fun hnil => absurd rfl hnil⟩
        intro line hline
        rw [List.mem_singleton.1 hline]
        exact List.cons_ne_nil _ _
      · next line rest h =>
        rw [h] at hne hcut
        constructor
        · intro line' hline
          rcases List.mem_cons.1 hline with rfl | hline
          · exact List.cons_ne_nil _ _
          · exact hne line' (List.mem_cons_of_mem line hline)
        · refine hcut.tail.cons ?_
          intro hrest
          rcases hcut [] line rest rfl hrest with hnil | ⟨t, ht⟩
          · exact absurd hnil (hne line List.mem_cons_self)
          · exact Or.inr ⟨c :: t, by rw [ht, List.cons_append]⟩

/-- Every carriage return stands in front of a line feed. -/
def NoBareCr : Str → Prop
  | [] => True
  | c :: s => (c = '\r' → s.head? = some '\n') ∧ NoBareCr s

instance NoBareCr.decidable : (s : Str) → Decidable (NoBareCr s)
  | [] => inferInstanceAs (Decidable True)
  | c :: s =>
      have := NoBareCr.decidable s
      inferInstanceAs (Decidable ((c = '\r' → s.head? = some '\n') ∧ NoBareCr s))

/-- A text without carriage returns is read as it is. -/
theorem universalNewlines_eq_self {s : Str} (h : '\r' ∉ s) :
    NoBareCr s ∧ universalNewlines s = s := by
  induction s with
  | nil => exact ⟨trivial, rfl⟩
  | cons c s ih =>
    rw [List.mem_cons, not_or] at h
    obtain ⟨hbare, hself⟩ := ih h.2
    have hc : c ≠ '\r' := fun hc => h.1 hc.symm
    exact ⟨⟨fun hcr => absurd hcr hc, hbare⟩, by rw [universalNewlines, if_neg hc, hself]⟩

theorem lines_universalNewlines_append {s l : Str} (h : NoBareCr s)
    (hl : ∀ c ∈ l, c ≠ '\n' ∧ c ≠ '\r') : lines (l ++ universalNewlines s) = lines (l ++ s) := by
  induction s generalizing l with
  | nil => rfl
  | cons c s ih =>
    have hlf : '\n' ∉ l := fun hmem => (hl _ hmem).1 rfl
    have hcr : l.getLast? ≠ some '\r' := fun hlast => (hl _ (List.mem_of_getLast? hlast)).2 rfl
    have hrest : lines (universalNewlines s) = lines s := by
      have hnone : ∀ c ∈ ([] : Str), c ≠ '\n' ∧ c ≠ '\r' := nofun
      have hempty := ih h.2 hnone
      exact hempty
    rw [universalNewlines]
    by_cases hc : c = '\r'
    · obtain ⟨s', rfl⟩ := List.head?_eq_some_iff.1 (h.1 hc)
      have hdrop : universalNewlines ('\n' :: s') = '\n' :: universalNewlines s' := by
        rw [universalNewlines, if_neg (by decide)]
      have hbehind : lines (universalNewlines s') = lines s' := by
        have hfirst : ∀ t, lines ('\n' :: t) = lines ['\n'] ++ lines t := lines_append_lf []
        rw [hdrop, hfirst, hfirst s'] at hrest
        exact List.append_cancel_left hrest
      have hline : stripCr (l ++ ['\r']) = stripCr l := by
        rw [stripCr, if_pos List.getLast?_concat, List.dropLast_concat, stripCr, if_neg hcr]
      have hlfcr : '\n' ∉ l ++ ['\r'] := by simpa using hlf
      rw [if_pos hc, if_pos List.head?_cons, hdrop, lines_append_lf l (universalNewlines s'), hbehind,
        hc, List.append_cons l '\r', lines_append_lf (l ++ ['\r']) s', lines_single hlf,
        lines_single hlfcr, hline]
    · rw [if_neg hc]
      by_cases hn : c = '\n'
      · rw [hn, lines_append_lf, hrest, ← lines_append_lf]
      · have hext : ∀ d ∈ l ++ [c], d ≠ '\n' ∧ d ≠ '\r' := by
          intro d hd
          rcases List.mem_append.1 hd with hd | hd
          · exact hl d hd
          · rw [List.mem_singleton.1 hd]
            exact ⟨hn, hc⟩
        rw [List.append_cons, List.append_cons l c s]
        exact ih h.2 hext

/-- Where no carriage return stands alone, the translation of line ends keeps the lines. -/
theorem lines_universalNewlines {s : Str} (h : NoBareCr s) :
    lines (universalNewlines s) = lines s := by
  have hnone : ∀ c ∈ ([] : Str), c ≠ '\n' ∧ c ≠ '\r' := nofun
  have happ := lines_universalNewlines_append h hnone
  exact happ

/-! ## Part files -/

theorem toNat_of_chr {n : Nat} {c : Char} (h : chr n = some c) : c.toNat = n := by
  unfold chr at h
  split at h
  · next hvalid =>
    rw [← Option.some.inj h]
    exact toNat_ofNat_valid hvalid
  · cases h

theorem partName_cases {stem name : Str} {i : Nat} (h : partName stem i = some name) :
    ∃ first second, name = stem ++ (".part".toList ++ (first :: second)) ∧
      first.toNat = 97 + i % 26 ∧
      (i < 26 ∧ second = [] ∨ 26 ≤ i ∧ ∃ c : Char, second = [c] ∧ c.toNat = 97 + i / 26) := by
  obtain ⟨first, hfirst, h⟩ := Option.bind_eq_some_iff.1 h
  obtain ⟨second, hsecond, h⟩ := Option.bind_eq_some_iff.1 h
  refine ⟨first, second, (Option.some.inj h).symm, toNat_of_chr hfirst, ?_⟩
  unfold secondLetter at hsecond
  split at hsecond
  · next hi =>
    obtain ⟨c, hc, hlist⟩ := Option.map_eq_some_iff.1 hsecond
    exact Or.inr ⟨hi, c, hlist.symm, toNat_of_chr hc⟩
  · next hi => exact Or.inl ⟨Nat.lt_of_not_le hi, (Option.some.inj hsecond).symm⟩

/-- No two parts have one name. -/
theorem partName_inj {stem name : Str} {i j : Nat} (hi : partName stem i = some name)
    (hj : partName stem j = some name) : i = j := by
  obtain ⟨first, second, hname, hfirst, hsecond⟩ := partName_cases hi
  obtain ⟨first', second', hname', hfirst', hsecond'⟩ := partName_cases hj
  have heq := List.append_cancel_left (List.append_cancel_left (hname.symm.trans hname'))
  rw [List.cons.injEq] at heq
  obtain ⟨rfl, rfl⟩ := heq
  rcases hsecond with ⟨hi, rfl⟩ | ⟨hi, c, rfl, hc⟩
  · rcases hsecond' with ⟨hj, -⟩ | ⟨-, c, hnil, -⟩
    · omega
    · cases hnil
  · rcases hsecond' with ⟨-, hnil⟩ | ⟨hj, c', hc', hc''⟩
    · cases hnil
    · rw [List.cons.injEq] at hc'
      rw [← hc'.1] at hc''
      omega

/-- The first 26 names end in one letter. -/
theorem partName_letter (stem : Str) {i : Nat} (hi : i < 26) :
    partName stem i = some (stem ++ (".part".toList ++ [Char.ofNat (97 + i)])) := by
  have hvalid : (97 + i).isValidChar := Or.inl (by omega)
  have hfirst : chr (97 + i % 26) = some (Char.ofNat (97 + i)) := by
    rw [Nat.mod_eq_of_lt hi, chr, if_pos hvalid]
  have hsecond : secondLetter i = some [] := if_neg (by omega)
  rw [partName, hfirst, hsecond]
  rfl

/-- The paths that a removal of part files matches. -/
def IsPart (stem path : Str) : Prop := ∃ rest, path = stem ++ ".part".toList ++ rest ∧ '/' ∉ rest

theorem removeParts_of_isPart {stem path : Str} (h : IsPart stem path) (files : Files) :
    removeParts stem files path = .error "No such file or directory" := by
  obtain ⟨rest, hpath, hslash⟩ := h
  unfold removeParts
  rw [stripPrefix_eq_some.2 hpath]
  dsimp only
  rw [if_neg hslash]

theorem isPart_partName {stem name : Str} {i : Nat} (hi : i < 26)
    (h : partName stem i = some name) : IsPart stem name := by
  rw [partName_letter stem hi, Option.some.injEq] at h
  refine ⟨[Char.ofNat (97 + i)], by rw [← h, List.append_assoc], ?_⟩
  rw [List.mem_singleton]
  intro hslash
  have hletter : (Char.ofNat (97 + i)).toNat = 97 + i := toNat_ofNat_valid (Or.inl (by omega))
  have hval : '/'.toNat = 47 := by decide
  have hnat := congrArg Char.toNat hslash
  rw [hletter, hval] at hnat
  omega

/-- The names of the parts from the `i`-th on, one for each chunk. -/
def Named (stem : Str) (i : Nat) (chunks : List (List Str)) (names : List Str) : Prop :=
  List.Forall₂ (fun j name => partName stem j = some name) (List.range' i chunks.length) names

/-- Every chunk is in the file of its name, and the other files are as before. -/
theorem writeParts_spec {stem : Str} {i : Nat} {chunks : List (List Str)} {files files' : Files}
    (h : writeParts stem i chunks files = some files') :
    ∃ names, Named stem i chunks names ∧ names.Nodup ∧
      List.Forall₂ (fun name chunk => files' name = .ok (encode (List.flatten chunk))) names chunks ∧
      ∀ path ∉ names, files' path = files path := by
  induction chunks generalizing i files with
  | nil =>
    obtain rfl := Option.some.inj h
    exact ⟨[], .nil, List.nodup_nil, .nil, fun _ _ => rfl⟩
  | cons chunk chunks ih =>
    rw [writeParts] at h
    split at h
    · cases h
    · next out hout =>
      obtain ⟨names, hnamed, hnodup, hwritten, hothers⟩ := ih h
      have hnew : out ∉ names := by
        intro hmem
        obtain ⟨k, hk, rfl⟩ := List.mem_iff_getElem.1 hmem
        have hlen : k < (List.range' (i + 1) chunks.length).length := by
          rw [hnamed.length_eq]
          exact hk
        have hname := List.Forall₂.get hnamed hlen hk
        rw [List.get_eq_getElem, List.get_eq_getElem, List.getElem_range'] at hname
        have := partName_inj hout hname
        omega
      refine ⟨out :: names, .cons hout hnamed, List.nodup_cons.2 ⟨hnew, hnodup⟩, .cons ?_ hwritten, ?_⟩
      · rw [hothers out hnew, Function.update_self]
      · intro path hpath
        rw [List.mem_cons, not_or] at hpath
        rw [hothers path hpath.2, Function.update_of_ne hpath.1]

/-- The part of a number below that of the chunks is written. -/
theorem written_of_lt {stem name : Str} {i : Nat} {chunks : List (List Str)} {files files' : Files}
    (h : writeParts stem 0 chunks files = some files') (hi : i < chunks.length)
    (hname : partName stem i = some name) : ∃ bytes, files' name = .ok bytes := by
  obtain ⟨names, hnamed, -, hwritten, -⟩ := writeParts_spec h
  have hrange : i < (List.range' 0 chunks.length).length := by rw [List.length_range']; exact hi
  have hnames : i < names.length := by rw [hwritten.length_eq]; exact hi
  have hith := List.Forall₂.get hnamed hrange hnames
  have hfile := List.Forall₂.get hwritten hnames hi
  rw [List.get_eq_getElem, List.get_eq_getElem, List.getElem_range', Nat.zero_add, Nat.one_mul,
    hname, Option.some.injEq] at hith
  rw [List.get_eq_getElem, ← hith] at hfile
  exact ⟨_, hfile⟩

/-- The parts are written if each has a name. -/
theorem writeParts_isSome {i : Nat} {chunks : List (List Str)} (h : i + chunks.length ≤ 26)
    (stem : Str) (files : Files) : ∃ files', writeParts stem i chunks files = some files' := by
  induction chunks generalizing i files with
  | nil => exact ⟨files, rfl⟩
  | cons chunk chunks ih =>
    rw [List.length_cons] at h
    rw [writeParts, partName_letter stem (by omega)]
    have hrest : i + 1 + chunks.length ≤ 26 := by omega
    exact ih hrest _

/-- What happens to a list that is there. -/
theorem splitIntoChunks_eq {files : Files} {src content : Str} (h : files src = .ok (encode content))
    (home name : Str) (bytes : Nat) :
    splitIntoChunks home files src name bytes =
      writeParts (bundled home name) 0
        (chunkLoop byteLen bytes [] 0 (readlines (universalNewlines content)))
        (removeParts (bundled home name) files) := by
  unfold splitIntoChunks
  rw [h]
  dsimp only
  rw [fromUtf8Lossy_encode]

/-- What is not the name of a part stays as it is. -/
theorem removeParts_of_not_isPart {stem path : Str} (h : ∀ rest, path ≠ stem ++ ".part".toList ++ rest)
    (files : Files) : removeParts stem files path = files path := by
  unfold removeParts
  split
  · next rest hrest => exact absurd (stripPrefix_eq_some.1 hrest) (h rest)
  · rfl

end VantaDns.Phone
