/-
  The bundled OISD list on the phone: what `update-blocklists.sh` writes and what the server
  loads with `phone-vanta-dns.toml`.

  The script cuts a downloaded list into parts of 500000 bytes and names them by letters, as
  many as it takes. The configuration names thirteen. `nothingLost_iff`: the parts hold every
  line once, the server loads all of them, and it decides as if it had loaded the list in one
  piece, exactly if there is not enough of the list for a fourteenth part.
-/
import VantaDns.Filter.Chunks
import VantaDns.Phone.UpdateBlocklists

namespace VantaDns.Phone

open Lib Lib.Text Lib.Utf8 Config VantaDns.Filter

/-! ## The configuration -/

/-- The paths in front of the OISD parts. -/
def firstPaths : List String :=
  ["$HOME/VantaDNS/config/blocklists/custom-blocklist.txt",
    "$HOME/VantaDNS/config/blocklists/mobile-app-ads.txt",
    "$HOME/VantaDNS/config/blocklists/spotify-ad-blocklist.txt",
    "$HOME/VantaDNS/config/blocklists/youtube-ad-blocklist.txt",
    "$HOME/VantaDNS/config/blocklists/adguard-base.txt",
    "$HOME/VantaDNS/config/blocklists/adguard-dns-filter.txt"]

def oisdPaths : List String :=
  ["$HOME/VantaDNS/config/blocklists/bundled/oisd-big.parta",
    "$HOME/VantaDNS/config/blocklists/bundled/oisd-big.partb",
    "$HOME/VantaDNS/config/blocklists/bundled/oisd-big.partc",
    "$HOME/VantaDNS/config/blocklists/bundled/oisd-big.partd",
    "$HOME/VantaDNS/config/blocklists/bundled/oisd-big.parte",
    "$HOME/VantaDNS/config/blocklists/bundled/oisd-big.partf",
    "$HOME/VantaDNS/config/blocklists/bundled/oisd-big.partg",
    "$HOME/VantaDNS/config/blocklists/bundled/oisd-big.parth",
    "$HOME/VantaDNS/config/blocklists/bundled/oisd-big.parti",
    "$HOME/VantaDNS/config/blocklists/bundled/oisd-big.partj",
    "$HOME/VantaDNS/config/blocklists/bundled/oisd-big.partk",
    "$HOME/VantaDNS/config/blocklists/bundled/oisd-big.partl",
    "$HOME/VantaDNS/config/blocklists/bundled/oisd-big.partm"]

/-- The paths behind the OISD parts. -/
def lastPaths : List String :=
  ["$HOME/VantaDNS/config/blocklists/bundled/kadhosts.parta",
    "$HOME/VantaDNS/config/blocklists/bundled/kadhosts.partb",
    "$HOME/VantaDNS/config/blocklists/bundled/kadhosts.partc",
    "$HOME/VantaDNS/config/blocklists/bundled/kadhosts.partd",
    "$HOME/VantaDNS/config/blocklists/hagezi-pro-wild.txt",
    "$HOME/VantaDNS/config/blocklists/hagezi-pro-plus.txt",
    "$HOME/VantaDNS/config/blocklists/stevenblack-domains.txt",
    "$HOME/VantaDNS/config/blocklists/1hosts-lite.txt",
    "$HOME/VantaDNS/config/blocklists/hagezi-tif.txt",
    "$HOME/VantaDNS/config/blocklists/notracking-domains.txt"]

/-- `phone-vanta-dns.toml`. -/
def phoneFile : TomlConfigFile where
  server :=
    { bindAddr := .V4 (.ofFn ![127, 0, 0, 1]) 8533
      upstreamAddr := .V4 (.ofFn ![127, 0, 0, 1]) 5335
      upstreams :=
        ["tcp:1.1.1.1:53", "tcp:8.8.8.8:53", "udp:1.1.1.1:53", "udp:9.9.9.9:53"].map String.toList
      tcpEnabled := true
      tlsEnabled := false
      blockMode := "nxdomain".toList
      loggingEnabled := false }
  cache := ⟨50000, 60, 86400⟩
  filter := some
    { blocklistPaths := (firstPaths ++ oisdPaths ++ lastPaths).map String.toList
      allowlistPaths := ["$HOME/VantaDNS/allowlists/custom-allowlist.txt".toList] }

/-- The configuration that the server takes from the file. -/
def phoneConfig (env : EnvVars) : ServerConfig := phoneFile.config.applyTlsEnvOverrides env

/-- The same with the downloaded list in one piece in place of its parts. -/
def wholeConfig (env : EnvVars) : ServerConfig :=
  { phoneConfig env with
    blocklistPaths := (firstPaths ++ ["$HOME/VantaDNS/config/blocklists/.oisd-big-full.txt"] ++
      lastPaths).map String.toList }

/-- The server that is started with the file, or with a copy that has other lists, runs with what
    it says: it is accepted in every environment. -/
theorem serverConfig_phoneFile {toml : Toml} {env : EnvVars} {files : Files}
    {configPath content : Str} {lists : Option FilterSection}
    (hread : readToString files configPath = .ok content)
    (hfile : toml.table content = some { phoneFile with filter := lists }) :
    serverConfig toml env files configPath =
      ({ phoneFile with filter := lists } : TomlConfigFile).config.applyTlsEnvOverrides env := by
  obtain ⟨hcap, hmin, hmax, hmode, -, -, htls⟩ :=
    ({ phoneFile with filter := lists } : TomlConfigFile).config.applyTlsEnvOverrides_spec env
  refine serverConfig_of_table hread hfile (ServerConfig.finish_ok_iff.2 ⟨rfl, ?_, ?_, ?_, ?_, ?_⟩)
  · rw [hcap]
    show 0 < 50000
    decide
  · rw [hmin, hmax]
    show (60 : Nat) ≤ 86400
    decide
  · rw [hmode]
    have hlower : Unicode.toLowercase "nxdomain".toList = "nxdomain".toList := by decide
    exact Or.inl hlower
  · exact fun hon => Or.inl (htls rfl hon).1
  · exact fun hon => Or.inl (htls rfl hon).2

/-! ## What should happen -/

/-- The lines of a list are in part files: each line in one of them, in order, with a name of
    its own for each, and no other part files about. -/
structure Chunked (stem : Str) (ls : List Str) (files : Files) (names : List Str)
    (chunks : List (List Str)) : Prop where
  complete : chunks.flatten = ls
  distinct : names.Nodup
  written : List.Forall₂ (fun name chunk => files name = .ok (encode (List.flatten chunk)))
    names chunks
  others : ∀ path, IsPart stem path → path ∉ names →
    files path = .error "No such file or directory"

/-- `$LISTS/.oisd-big-full.txt`. -/
def fullList (home : Str) : Str := listsDir home ++ "/.oisd-big-full.txt".toList

/-- Once the downloaded list is split, the server loads every part, and decides as if it had loaded
    the list in one piece. -/
def NothingLost (env : EnvVars) (home : Str) (files : Files) (content : Str) : Prop :=
  ∃ files' names chunks,
    splitIntoChunks home files (fullList home) "oisd-big".toList 500000 = some files' ∧
    Chunked (bundled home "oisd-big".toList) (readlines (universalNewlines content)) files' names
      chunks ∧
    (∀ name ∈ names, name ∈ (phoneConfig env).blocklistPaths.map (resolvePath env)) ∧
    ∀ domain, (loadFilter env files' (phoneConfig env)).evaluate domain =
      (loadFilter env files' (wholeConfig env)).evaluate domain

/-! ## Paths -/

variable {env : EnvVars} {home : Str}

theorem blocklistPaths_phoneConfig (env : EnvVars) :
    (phoneConfig env).blocklistPaths =
      (firstPaths ++ oisdPaths ++ lastPaths).map String.toList :=
  (phoneFile.config.applyTlsEnvOverrides_spec env).2.2.2.2.1

theorem resolvePath_home (h : env "HOME" = some home) (rest : Str) :
    resolvePath env ("$HOME".toList ++ rest) = home ++ rest := by
  unfold resolvePath
  rw [stripPrefix_eq_some.2 rfl, h]
  rfl

/-- The path of the part with the `i`-th letter. -/
def partPath (home : Str) (i : Nat) : Str :=
  bundled home "oisd-big".toList ++ (".part".toList ++ [Char.ofNat (97 + i)])

theorem partName_partPath (home : Str) {i : Nat} (hi : i < 26) :
    partName (bundled home "oisd-big".toList) i = some (partPath home i) := partName_letter _ hi

theorem partPath_inj {i j : Nat} (hi : i < 26) (hj : j < 26)
    (h : partPath home i = partPath home j) : i = j := by
  have hname := partName_partPath home hi
  rw [h] at hname
  exact partName_inj hname (partName_partPath home hj)

/-- What stands behind `$HOME` in the path of an OISD part. -/
def oisdTail (i : Nat) : String :=
  "/VantaDNS/config/blocklists/bundled/oisd-big.part" ++ String.singleton (Char.ofNat (97 + i))

theorem partPath_eq (home : Str) (i : Nat) : partPath home i = home ++ (oisdTail i).toList := by
  have hname : "/VantaDNS/config/blocklists/bundled/oisd-big.part".toList =
      "/VantaDNS/config/blocklists".toList ++ ("/bundled/".toList ++ ("oisd-big".toList ++
        ".part".toList)) := by
    rw [← String.toList_append, ← String.toList_append, ← String.toList_append]
    rfl
  unfold partPath bundled listsDir oisdTail
  rw [String.toList_append, hname, String.toList_singleton]
  simp only [List.append_assoc]

theorem oisdPaths_eq : oisdPaths = (List.range 13).map fun i => "$HOME" ++ oisdTail i := by rfl

theorem map_resolvePath_oisdPaths (h : env "HOME" = some home) :
    (oisdPaths.map String.toList).map (resolvePath env) = (List.range 13).map (partPath home) := by
  rw [oisdPaths_eq, List.map_map, List.map_map]
  apply List.map_congr_left
  intro i _
  rw [Function.comp_apply, Function.comp_apply, String.toList_append, resolvePath_home h, partPath_eq]

/-- Thirteen parts are in the configuration. -/
theorem partPath_mem (h : env "HOME" = some home) {i : Nat} (hi : i < 13) :
    partPath home i ∈ (phoneConfig env).blocklistPaths.map (resolvePath env) := by
  have hpart : partPath home i ∈ (oisdPaths.map String.toList).map (resolvePath env) := by
    rw [map_resolvePath_oisdPaths h]
    exact List.mem_map_of_mem (List.mem_range.2 hi)
  rw [blocklistPaths_phoneConfig]
  simp only [List.map_append]
  exact List.mem_append_left _ (List.mem_append_right _ hpart)

/-- The fourteenth part is not in the configuration. -/
theorem partPath_not_mem (h : env "HOME" = some home) :
    partPath home 13 ∉ (phoneConfig env).blocklistPaths.map (resolvePath env) := by
  have hstart : ∀ p ∈ firstPaths ++ oisdPaths ++ lastPaths, p.startsWith "$HOME" = true := by
    decide +kernel
  have hno : "$HOME" ++ oisdTail 13 ∉ firstPaths ++ oisdPaths ++ lastPaths := by
    decide +kernel
  rw [blocklistPaths_phoneConfig, List.map_map]
  intro hmem
  obtain ⟨p, hp, heq⟩ := List.mem_map.1 hmem
  obtain ⟨rest, hrest⟩ := String.startsWith_string_iff.1 (hstart p hp)
  rw [Function.comp_apply, ← hrest, resolvePath_home h, partPath_eq] at heq
  rw [List.append_cancel_left heq, ← String.toList_append, String.toList_inj] at hrest
  rw [hrest] at hno
  exact hno hp

theorem fullList_not_part (home rest : Str) :
    fullList home ≠ bundled home "oisd-big".toList ++ ".part".toList ++ rest := by
  intro heq
  unfold fullList bundled at heq
  simp only [List.append_assoc] at heq
  have htail := List.append_cancel_left heq
  simp at htail

/-! ## The parts that are written -/

/-- The texts of the files that can be read. -/
def pathTexts (env : EnvVars) (files : Files) (paths : List String) : List Str :=
  listTexts env files (paths.map String.toList)

/-- They are found by the resolved paths. -/
theorem pathTexts_eq (env : EnvVars) (files : Files) (paths : List String) :
    pathTexts env files paths = ((paths.map String.toList).map (resolvePath env)).filterMap
      fun path => (readToString files path).toOption := by
  rw [List.filterMap_map]
  rfl

theorem pathTexts_append (env : EnvVars) (files : Files) (paths paths' : List String) :
    pathTexts env files (paths ++ paths') =
      pathTexts env files paths ++ pathTexts env files paths' := by
  unfold pathTexts listTexts
  rw [List.map_append, List.filterMap_append]

variable {stem : Str} {chunks : List (List Str)} {names : List Str} {files files' : Files}

/-- The first 26 parts are those of the letters, in order. -/
theorem named_eq (h : Named (bundled home "oisd-big".toList) 0 chunks names)
    (hlen : chunks.length ≤ 26) : names = (List.range chunks.length).map (partPath home) := by
  have hletter : ∀ i ∈ List.range' 0 chunks.length, i < 26 := by
    intro i hi
    rw [List.mem_range'_1] at hi
    omega
  have hpath : List.Forall₂ (fun i name => partPath home i = name)
      (List.range' 0 chunks.length) names := by
    refine ((List.forall₂_and_left _ _).2 ⟨hletter, h⟩).imp ?_
    intro i name ⟨hi, hname⟩
    rw [partName_partPath home hi] at hname
    exact Option.some.inj hname
  have heq : List.Forall₂ Eq ((List.range' 0 chunks.length).map (partPath home)) names :=
    List.forall₂_map_left_iff.2 hpath
  rw [List.forall₂_eq_eq_eq] at heq
  rw [List.range_eq_range', heq]

/-- The texts that are in the written files are read back. -/
theorem filterMap_written
    (h : List.Forall₂ (fun name chunk => files name = .ok (encode (List.flatten chunk))) names
      chunks) :
    (names.filterMap fun path => (readToString files path).toOption) = chunks.map List.flatten := by
  induction h with
  | nil => rfl
  | cons hfile _ ih =>
    rw [List.filterMap_cons, readToString_ok_iff.2 hfile, ih, List.map_cons]
    rfl

/-- The configuration's parts are the written ones, in order, and some that are not there. -/
theorem pathTexts_oisdPaths (hhome : env "HOME" = some home)
    (hnamed : Named (bundled home "oisd-big".toList) 0 chunks names) (hlen : chunks.length ≤ 13)
    (hwritten : List.Forall₂ (fun name chunk => files name = .ok (encode (List.flatten chunk))) names
      chunks)
    (hothers : ∀ path, IsPart (bundled home "oisd-big".toList) path → path ∉ names →
      files path = .error "No such file or directory") :
    pathTexts env files oisdPaths = chunks.map List.flatten := by
  have hnames := named_eq hnamed (hlen.trans (by decide))
  have hsplit : List.range 13 =
      List.range chunks.length ++ List.range' chunks.length (13 - chunks.length) := by
    have happ : List.range' 0 chunks.length ++
        List.range' (0 + chunks.length) (13 - chunks.length) =
          List.range' 0 (chunks.length + (13 - chunks.length)) := List.range'_append_1
    rw [Nat.zero_add, Nat.add_sub_cancel' hlen] at happ
    rw [List.range_eq_range', List.range_eq_range', happ]
  have hbehind : (((List.range' chunks.length (13 - chunks.length)).map
      (partPath home)).filterMap fun path => (readToString files path).toOption) = [] := by
    rw [List.filterMap_eq_nil_iff]
    intro path hpath
    obtain ⟨i, hi, rfl⟩ := List.mem_map.1 hpath
    rw [List.mem_range'_1] at hi
    have hlt : i < 26 := by omega
    have hnot : partPath home i ∉ names := by
      rw [hnames, List.mem_map]
      intro ⟨j, hj, heq⟩
      rw [List.mem_range] at hj
      have hij := partPath_inj (by omega) hlt heq
      omega
    have herr := hothers _ (isPart_partName hlt (partName_partPath home hlt)) hnot
    unfold readToString
    rw [herr]
    rfl
  rw [pathTexts_eq, map_resolvePath_oisdPaths hhome, hsplit, List.map_append, ← hnames,
    List.filterMap_append, hbehind, List.append_nil, filterMap_written hwritten]

/-! ## The same engine -/

/-- The chunks have the lines of the list. -/
theorem lines_chunks {content : Str} (hcr : NoBareCr content)
    (hcomplete : chunks.flatten = readlines (universalNewlines content)) :
    (chunks.map List.flatten).flatMap lines = lines content := by
  have hcut : Cut chunks.flatten := by
    rw [hcomplete]
    exact (readlines_spec _).2
  have hchunk : ∀ chunk ∈ chunks, lines (List.flatten chunk) = chunk.flatMap lines := by
    intro chunk hchunk
    obtain ⟨before, after, heq⟩ := List.append_of_mem hchunk
    rw [heq, List.flatten_append, List.flatten_cons, ← List.append_assoc] at hcut
    exact lines_flatten hcut.infix
  calc (chunks.map List.flatten).flatMap lines
      = chunks.flatMap fun chunk => lines (List.flatten chunk) := List.flatMap_map _ _ _
    _ = chunks.flatMap fun chunk => chunk.flatMap lines := List.flatMap_congr hchunk
    _ = chunks.flatten.flatMap lines := by rw [List.flatten_eq_flatMap, List.flatMap_assoc]; rfl
    _ = lines chunks.flatten.flatten := (lines_flatten hcut).symm
    _ = lines content := by rw [hcomplete, flatten_readlines, lines_universalNewlines hcr]

theorem pathTexts_fullList {content : Str} (hhome : env "HOME" = some home)
    (hfile : files (fullList home) = .ok (encode content)) :
    pathTexts env files ["$HOME/VantaDNS/config/blocklists/.oisd-big-full.txt"] = [content] := by
  have hname : "$HOME/VantaDNS/config/blocklists/.oisd-big-full.txt".toList =
      "$HOME".toList ++ ("/VantaDNS/config/blocklists".toList ++ "/.oisd-big-full.txt".toList) := by
    rw [← String.toList_append, ← String.toList_append]
    rfl
  have hpath : resolvePath env "$HOME/VantaDNS/config/blocklists/.oisd-big-full.txt".toList =
      fullList home := by
    rw [hname, resolvePath_home hhome, fullList, listsDir, List.append_assoc]
  rw [pathTexts_eq, List.map_singleton, List.map_singleton, hpath, List.filterMap_cons,
    readToString_ok_iff.2 hfile]
  rfl

/-- Where the parts have the lines of the list, the server loads the same rules from either. -/
theorem loadFilter_parts {content : Str} (hhome : env "HOME" = some home)
    (hfile : files (fullList home) = .ok (encode content))
    (hlines : (pathTexts env files oisdPaths).flatMap lines = lines content) :
    loadFilter env files (phoneConfig env) = loadFilter env files (wholeConfig env) := by
  have hsame : ∀ line, line ∈ (pathTexts env files oisdPaths).flatMap lines ↔
      line ∈ [content].flatMap lines := by
    intro line
    rw [hlines, List.flatMap_singleton]
  have hengine := loaded_same_lines ((pathTexts env files firstPaths).map .blocklistContent)
    ((pathTexts env files lastPaths).map .blocklistContent ++
      (listTexts env files (phoneConfig env).allowlistPaths).map .allowlistContent) hsame
  have hparts : listTexts env files (phoneConfig env).blocklistPaths =
      pathTexts env files firstPaths ++ pathTexts env files oisdPaths ++
        pathTexts env files lastPaths := by
    rw [blocklistPaths_phoneConfig, ← pathTexts_append, ← pathTexts_append]
    rfl
  have hwhole : listTexts env files (wholeConfig env).blocklistPaths =
      pathTexts env files firstPaths ++ [content] ++ pathTexts env files lastPaths := by
    rw [← pathTexts_fullList hhome hfile, ← pathTexts_append, ← pathTexts_append]
    rfl
  have hallow : (wholeConfig env).allowlistPaths = (phoneConfig env).allowlistPaths := rfl
  rw [loadFilter_eq, loadFilter_eq, hparts, hwhole, hallow]
  simp only [List.map_append, List.append_assoc] at hengine ⊢
  exact hengine

/-! ## Lists of every length -/

/-- A fourteenth part is written, and nothing loads it. -/
theorem not_nothingLost {content : Str} (hhome : env "HOME" = some home)
    (hfile : files (fullList home) = .ok (encode content))
    (hcut : Cuttable byteLen 500000 13 (readlines (universalNewlines content))) :
    ¬ NothingLost env home files content := by
  intro ⟨files', names, _, hsplit, hchunked, hloaded, _⟩
  rw [splitIntoChunks_eq hfile] at hsplit
  have hmany : 13 < (chunkLoop byteLen 500000 [] 0 (readlines (universalNewlines content))).length :=
    (lt_length_chunkLoop_iff (by decide)).2 hcut
  have hname := partName_partPath home (show 13 < 26 by decide)
  obtain ⟨bytes, hbytes⟩ := written_of_lt hsplit hmany hname
  have hmem : partPath home 13 ∈ names := by
    by_contra hnot
    have hgone := hchunked.others _ (isPart_partName (by decide) hname) hnot
    rw [hbytes] at hgone
    cases hgone
  exact partPath_not_mem hhome (hloaded _ hmem)

/-- Up to thirteen parts are loaded. -/
theorem nothingLost {content : Str} (hhome : env "HOME" = some home)
    (hfile : files (fullList home) = .ok (encode content)) (hcr : NoBareCr content)
    (hcut : ¬ Cuttable byteLen 500000 13 (readlines (universalNewlines content))) :
    NothingLost env home files content := by
  obtain ⟨chunks, hchunks⟩ : ∃ chunks, chunks =
      chunkLoop byteLen 500000 [] 0 (readlines (universalNewlines content)) := ⟨_, rfl⟩
  have hlen : chunks.length ≤ 13 := by
    rw [hchunks]
    exact Nat.le_of_not_lt fun hmany => hcut ((lt_length_chunkLoop_iff (by decide)).1 hmany)
  have hletters : 0 + chunks.length ≤ 26 := by omega
  obtain ⟨files', hsplit⟩ := writeParts_isSome hletters (bundled home "oisd-big".toList)
    (removeParts (bundled home "oisd-big".toList) files)
  obtain ⟨names, hnamed, hnodup, hwritten, hothers⟩ := writeParts_spec hsplit
  have hnames := named_eq hnamed (by omega)
  have hcomplete : chunks.flatten = readlines (universalNewlines content) := by
    rw [hchunks, flatten_chunkLoop, List.nil_append]
  have hgone : ∀ path, IsPart (bundled home "oisd-big".toList) path → path ∉ names →
      files' path = .error "No such file or directory" := by
    intro path hpart hpath
    rw [hothers path hpath, removeParts_of_isPart hpart]
  have hfull : files' (fullList home) = .ok (encode content) := by
    have hnot : fullList home ∉ names := by
      rw [hnames, List.mem_map]
      intro ⟨i, _, heq⟩
      exact fullList_not_part home _ (heq.symm.trans (List.append_assoc _ _ _).symm)
    rw [hothers _ hnot, removeParts_of_not_isPart (fullList_not_part home), hfile]
  have hlines : (pathTexts env files' oisdPaths).flatMap lines = lines content := by
    rw [pathTexts_oisdPaths hhome hnamed hlen hwritten hgone, lines_chunks hcr hcomplete]
  unfold NothingLost
  rw [splitIntoChunks_eq hfile, ← hchunks]
  refine ⟨files', names, chunks, hsplit, ⟨hcomplete, hnodup, hwritten, hgone⟩, ?_, ?_⟩
  · intro name hname
    rw [hnames, List.mem_map] at hname
    obtain ⟨i, hi, rfl⟩ := hname
    exact partPath_mem hhome ((List.mem_range.1 hi).trans_le hlen)
  · intro domain
    rw [loadFilter_parts hhome hfull hlines]

/-- Nothing is lost exactly if the list cannot be cut into thirteen segments that take 500000
    bytes each, with a line left over. -/
theorem nothingLost_iff {content : Str} (hhome : env "HOME" = some home)
    (hfile : files (fullList home) = .ok (encode content)) (hcr : NoBareCr content) :
    NothingLost env home files content ↔
      ¬ Cuttable byteLen 500000 13 (readlines (universalNewlines content)) :=
  ⟨fun h hcut => not_nothingLost hhome hfile hcut h, nothingLost hhome hfile hcr⟩

/-- A line that is repeated often enough for `k` parts. -/
theorem cuttable_repeated {l rest : Str} {n : Nat} (hlf : '\n' ∉ l)
    (hfull : 500000 ≤ n * byteLen (l ++ ['\n'])) (hrest : readlines rest ≠ []) (k : Nat) :
    Cuttable byteLen 500000 k
      (readlines ((List.replicate (k * n) (l ++ ['\n'])).flatten ++ rest)) := by
  rw [readlines_replicate hlf]
  exact cuttable_replicate hfull hrest k

/-- A list with both kinds of line ends. -/
def shortList : Str := "||ads.io^\r\n@@||ok.io^\n0.0.0.0 t.io".toList

theorem nothingLost_iff_shortList :
    NothingLost (fun _ => some "/home".toList) "/home".toList (fun _ => .ok (encode shortList))
      shortList := by
  have hsmall : total byteLen (readlines (universalNewlines shortList)) < 500000 := by
    decide +kernel
  exact (nothingLost_iff rfl rfl (by decide +kernel)).2 (not_cuttable hsmall)

/-- Thirteen times 50000 lines of ten bytes, and a line that goes to the fourteenth part. -/
def longList : Str :=
  (List.replicate (13 * 50000) ("ads00.com".toList ++ ['\n'])).flatten ++ "late.com\n".toList

theorem not_nothingLost_longList :
    NoBareCr longList ∧ ¬ NothingLost (fun _ => some "/home".toList) "/home".toList
      (fun _ => .ok (encode longList)) longList := by
  have hcr : '\r' ∉ longList := by
    unfold longList
    rw [List.mem_append, List.mem_flatten]
    intro h
    rcases h with ⟨line, hline, hmem⟩ | hmem
    · rw [List.eq_of_mem_replicate hline] at hmem
      revert hmem
      decide
    · revert hmem
      decide
  obtain ⟨hbare, hself⟩ := universalNewlines_eq_self hcr
  have hlf : '\n' ∉ "ads00.com".toList := by decide
  have hfull : 500000 ≤ 50000 * byteLen ("ads00.com".toList ++ ['\n']) := by
    have hten : byteLen ("ads00.com".toList ++ ['\n']) = 10 := by decide +kernel
    rw [hten]
  have hrest : readlines "late.com\n".toList ≠ [] := by decide
  have hcut : Cuttable byteLen 500000 13 (readlines (universalNewlines longList)) := by
    rw [hself]
    exact cuttable_repeated hlf hfull hrest 13
  exact ⟨hbare, not_nothingLost rfl rfl hcut⟩

end VantaDns.Phone
