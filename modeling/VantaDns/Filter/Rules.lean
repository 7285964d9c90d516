/-
  What the filter makes of the rule spellings it documents (`DomainTrie::insert_rule`,
  `FilterEngine::load_blocklist_content`).

  A loading call adds keys to the two rule sets (`Load.keys`), whatever was loaded before and
  comes after (`keys_loaded`). `Spells host body` lists the spellings of a rule for a host, and
  each adds that host in lower case and nothing else (`Spells.ruleKeys_eq`). `Means line entry`
  says which lines are blank, a comment, a rule or an exception.

  `evaluate_loadBlocklistContent`: after a text of such lines is loaded into a fresh engine, a
  host name in any case and with any number of dots behind it is allow-listed exactly if it is
  under the host of some exception, else blocked exactly if it is under the host of some rule,
  else allowed. It says nothing about lines of other forms.
-/
import VantaDns.Filter.Engine
import VantaDns.Filter.Host

namespace VantaDns.Filter

open Lib Lib.Text Lib.Unicode

/-! ## The keys a call adds -/

/-- The two rule sets of the engine. -/
inductive Side where
  | allow
  | block
  deriving DecidableEq

def FilterEngine.keys (engine : FilterEngine) : Side → Set Str
  | .allow => engine.allowlist.keys
  | .block => engine.blocklist.keys

/-- The key a rule adds, if it adds one. -/
def ruleKeys (rawRule : Str) : Set Str :=
  {k | isSkipped (trim rawRule) = false ∧ k = normalize (ruleDomain (trim rawRule)) ∧ k ≠ [] ∧
    startsWith ['/'] k = false ∧ ' ' ∉ k ∧ '=' ∉ k}

/-- A line of a blocklist goes to the allowlist if it begins with `@@`. -/
def blocklistLineKeys (line : Str) : Side → Set Str
  | .allow =>
      {k | startsWith "@@".toList (trim line) = true ∧
        k ∈ ruleKeys (trimStartMatches "@@".toList (trim line))}
  | .block =>
      {k | startsWith "@@".toList (trim line) = false ∧ isSkipped (trim line) = false ∧
        k ∈ ruleKeys (trim line)}

def allowlistLineKeys (line : Str) : Side → Set Str
  | .allow =>
      {k | isSkipped (trim line) = false ∧ k ∈ ruleKeys (trimStartMatches "@@".toList (trim line))}
  | .block => ∅

def Load.keys (op : Load) (side : Side) : Set Str :=
  match op with
  | .allowlistRule rule =>
      {k | side = .allow ∧ k ∈ ruleKeys (trimStartMatches "@@".toList rule)}
  | .blocklistRule rule => {k | side = .block ∧ k ∈ ruleKeys rule}
  | .allowlistContent content => {k | ∃ line ∈ lines content, k ∈ allowlistLineKeys line side}
  | .blocklistContent content => {k | ∃ line ∈ lines content, k ∈ blocklistLineKeys line side}

theorem DomainTrie.keys_insertRule (t : DomainTrie) (rawRule : Str) :
    (t.insertRule rawRule).keys = t.keys ∪ ruleKeys rawRule := by
  unfold DomainTrie.insertRule ruleKeys
  dsimp only
  generalize normalize (ruleDomain (trim rawRule)) = n
  by_cases h1 : isSkipped (trim rawRule) = true
  · rw [if_pos h1]
    simp [h1]
  rw [if_neg h1]
  by_cases h2 : n.isEmpty = true
  · rw [if_pos h2]
    have hn := List.isEmpty_iff.1 h2
    ext k
    simp only [Set.mem_union, Set.mem_ofPred_eq]
    refine (or_iff_left ?_).symm
    intro hk
    exact hk.2.2.1 (hk.2.1.trans hn)
  rw [if_neg h2]
  by_cases h3 : (startsWith ['/'] n || n.contains ' ' || n.contains '=') = true
  · rw [if_pos h3]
    ext k
    simp only [Set.mem_union, Set.mem_ofPred_eq]
    refine (or_iff_left ?_).symm
    intro h
    obtain ⟨-, rfl, -, h4, h5, h6⟩ := h
    simp [h4, h5, h6] at h3
  · rw [if_neg h3]
    simp only [Bool.or_eq_true, not_or, Bool.not_eq_true, List.contains_eq_mem,
      decide_eq_false_iff_not] at h3
    ext k
    simp only [Set.mem_union, Set.mem_ofPred_eq, DomainTrie.keys, Finset.coe_insert,
      Set.mem_insert_iff]
    constructor
    · rintro (rfl | hk)
      · refine Or.inr ⟨Bool.eq_false_of_not_eq_true h1, rfl, ?_, h3.1.1, h3.1.2, h3.2⟩
        rintro rfl
        exact h2 rfl
      · exact Or.inl hk
    · rintro (hk | ⟨-, rfl, -⟩)
      · exact Or.inr hk
      · exact Or.inl rfl

namespace FilterEngine

theorem keys_loadAllowlistRule (engine : FilterEngine) (rule : Str) (side : Side) :
    (engine.loadAllowlistRule rule).keys side = engine.keys side ∪
      {k | side = .allow ∧ k ∈ ruleKeys (trimStartMatches "@@".toList rule)} := by
  cases side with
  | allow =>
    refine (engine.allowlist.keys_insertRule _).trans ?_
    simp [keys]
  | block => simp [keys, loadAllowlistRule]

theorem keys_loadBlocklistRule (engine : FilterEngine) (rule : Str) (side : Side) :
    (engine.loadBlocklistRule rule).keys side =
      engine.keys side ∪ {k | side = .block ∧ k ∈ ruleKeys rule} := by
  cases side with
  | allow => simp [keys, loadBlocklistRule]
  | block =>
    refine (engine.blocklist.keys_insertRule _).trans ?_
    simp [keys]

theorem keys_loadBlocklistLine (st : FilterEngine × Nat) (line : Str) (side : Side) :
    (loadBlocklistLine st line).1.keys side = st.1.keys side ∪ blocklistLineKeys line side := by
  unfold loadBlocklistLine
  dsimp only
  by_cases h1 : startsWith "@@".toList (trim line) = true
  · rw [if_pos h1, keys_loadAllowlistRule]
    cases side <;> simp [-String.reduceToList, blocklistLineKeys, h1]
  rw [if_neg h1]
  have h1' := Bool.eq_false_of_not_eq_true h1
  by_cases h2 : isSkipped (trim line) = true
  · rw [if_pos h2]
    cases side <;> simp [-String.reduceToList, blocklistLineKeys, h1', h2]
  · rw [if_neg h2, keys_loadBlocklistRule]
    cases side <;> simp [-String.reduceToList, blocklistLineKeys, h1', h2]

theorem keys_loadAllowlistLine (st : FilterEngine × Nat) (line : Str) (side : Side) :
    (loadAllowlistLine st line).1.keys side = st.1.keys side ∪ allowlistLineKeys line side := by
  unfold loadAllowlistLine
  dsimp only
  by_cases h : isSkipped (trim line) = true
  · rw [if_pos h]
    cases side <;> simp [-String.reduceToList, allowlistLineKeys, h]
  · rw [if_neg h, keys_loadAllowlistRule]
    cases side <;> simp [-String.reduceToList, allowlistLineKeys, h]

/-- What the lines add one by one, the text adds. -/
theorem keys_foldl {step : FilterEngine × Nat → Str → FilterEngine × Nat}
    {added : Str → Side → Set Str}
    (hstep : ∀ st line side, (step st line).1.keys side = st.1.keys side ∪ added line side)
    (ls : List Str) (st : FilterEngine × Nat) (side : Side) :
    (ls.foldl step st).1.keys side = st.1.keys side ∪ {k | ∃ line ∈ ls, k ∈ added line side} := by
  induction ls generalizing st with
  | nil => simp
  | cons l ls ih =>
    rw [List.foldl_cons, ih, hstep, Set.union_assoc]
    congr 1
    ext k
    simp

theorem keys_load (engine : FilterEngine) (op : Load) (side : Side) :
    (engine.load op).keys side = engine.keys side ∪ op.keys side := by
  cases op with
  | allowlistRule rule => exact engine.keys_loadAllowlistRule rule side
  | blocklistRule rule => exact engine.keys_loadBlocklistRule rule side
  | allowlistContent content => exact keys_foldl keys_loadAllowlistLine _ _ side
  | blocklistContent content => exact keys_foldl keys_loadBlocklistLine _ _ side

theorem keys_loads (engine : FilterEngine) (loads : List Load) (side : Side) :
    (loads.foldl load engine).keys side =
      engine.keys side ∪ {k | ∃ op ∈ loads, k ∈ op.keys side} := by
  induction loads generalizing engine with
  | nil => simp
  | cons op loads ih =>
    rw [List.foldl_cons, ih, keys_load, Set.union_assoc]
    congr 1
    ext k
    simp

end FilterEngine

/-- The rule sets hold what the calls add, in whatever order they come. -/
theorem keys_loaded (loads : List Load) (side : Side) :
    (loaded loads).keys side = {k | ∃ op ∈ loads, k ∈ op.keys side} := by
  have hnew : FilterEngine.new.keys side = ∅ := by
    cases side <;> exact Finset.coe_empty
  unfold loaded
  rw [FilterEngine.keys_loads, hnew, Set.empty_union]

theorem evaluate_eq_keys (loads : List Load) (domain : Str) :
    (loaded loads).evaluate domain =
      decision ((loaded loads).keys .allow) ((loaded loads).keys .block) domain :=
  evaluate_eq_decision (grown_loaded loads).allowlist (grown_loaded loads).blocklist domain

theorem ruleKeys_stored {rawRule k : Str} (hskip : isSkipped (trim rawRule) = false)
    (hk : normalize (ruleDomain (trim rawRule)) = k) (hne : k ≠ [])
    (hslash : startsWith ['/'] k = false) (hspace : ' ' ∉ k) (hequals : '=' ∉ k) :
    ruleKeys rawRule = {k} := by
  ext k'
  constructor
  · exact fun h => h.2.1.trans hk
  · rintro rfl
    exact ⟨hskip, hk.symm, hne, hslash, hspace, hequals⟩

theorem ruleKeys_rejected {rawRule k : Str} (hk : normalize (ruleDomain (trim rawRule)) = k)
    (hspace : ' ' ∈ k) : ruleKeys rawRule = ∅ := by
  refine Set.eq_empty_of_forall_notMem ?_
  intro k' h
  obtain ⟨-, rfl, -, -, hno, -⟩ := h
  exact hno (hk.symm ▸ hspace)

/-- A rule whose domain is a host name adds it in lower case. -/
theorem ruleKeys_of_ruleDomain {rawRule : Str} {host : HostName}
    (hskip : isSkipped (trim rawRule) = false) (hdomain : ruleDomain (trim rawRule) = host.text) :
    ruleKeys rawRule = {host.lower.text} := by
  have hn := host.normalize_self
  have hslash := HostName.startsWith_text (p := '/') (by decide) [] host.lower []
  rw [← hdomain] at hn
  rw [List.append_nil] at hslash
  exact ruleKeys_stored hskip hn host.lower.text_ne_nil hslash
    (host.lower.not_mem_text (by decide)) (host.lower.not_mem_text (by decide))

/-! ## The spellings of a rule -/

/-- The spellings of a rule for `host`. -/
inductive Spells (host : HostName) : Str → Prop
  | domain : Spells host host.text
  | wildcard : Spells host ("*.".toList ++ host.text)
  | adguard : Spells host ("||".toList ++ host.text)
  | adguardEnd : Spells host ("||".toList ++ (host.text ++ ['^']))
  | options (o : Str) : Spells host ("||".toList ++ (host.text ++ '$' :: o))
  | endOptions (o : Str) : Spells host ("||".toList ++ (host.text ++ '^' :: '$' :: o))
  | hosts {address rest : Str}
      (ha : address = "0.0.0.0".toList ∨ address = "127.0.0.1".toList)
      (hr : rest = [] ∨ ∃ t, rest = ' ' :: t) :
      Spells host (address ++ ' ' :: (host.text ++ rest))

theorem solid_address {address : Str}
    (ha : address = "0.0.0.0".toList ∨ address = "127.0.0.1".toList) : Solid address := by
  obtain rfl | rfl := ha
  · exact solid_of_all (by decide) (by decide)
  · exact solid_of_all (by decide) (by decide)

namespace Spells

variable {host : HostName} {body : Str}

/-- The space around a spelling is trimmed off, with the space its text ends in. -/
theorem parts (h : Spells host body) : ∃ core rest, body = core ++ rest ∧ Solid core ∧
    ∀ w, Blank w → Spells host (core ++ (rest ++ w).rdropWhile isWhitespace) := by
  have hbar : Solid "||".toList := solid_of_all (by decide) (by decide)
  -- a spelling that ends where its last character says
  have whole : ∀ {core : Str}, Solid core → Spells host core → ∃ core' rest,
      core = core' ++ rest ∧ Solid core' ∧
        ∀ w, Blank w → Spells host (core' ++ (rest ++ w).rdropWhile isWhitespace) := by
    intro core hs hc
    refine ⟨core, [], (List.append_nil core).symm, hs, ?_⟩
    intro w hw
    rw [List.nil_append, hw.rdropWhile, List.append_nil]
    exact hc
  cases h with
  | domain => exact whole host.solid .domain
  | wildcard =>
    exact whole ((solid_of_all (by decide) (by decide)).append host.solid []) .wildcard
  | adguard => exact whole (hbar.append host.solid []) .adguard
  | adguardEnd =>
    exact whole (hbar.append (solid_of_all (by decide) (by decide)) host.text) .adguardEnd
  | options o =>
    refine ⟨"||".toList ++ (host.text ++ ['$']), o, by simp,
      hbar.append (solid_of_all (by decide) (by decide)) host.text, ?_⟩
    intro w _
    have hs : Spells host _ := options ((o ++ w).rdropWhile isWhitespace)
    simpa using hs
  | endOptions o =>
    refine ⟨"||".toList ++ (host.text ++ ['^', '$']), o, by simp,
      hbar.append (solid_of_all (by decide) (by decide)) host.text, ?_⟩
    intro w _
    have hs : Spells host _ := endOptions ((o ++ w).rdropWhile isWhitespace)
    simpa using hs
  | @hosts address rest ha hr =>
    refine ⟨address ++ ([' '] ++ host.text), rest, by simp,
      (solid_address ha).append host.solid [' '], ?_⟩
    intro w hw
    have hrest : (rest ++ w).rdropWhile isWhitespace = [] ∨
        ∃ t, (rest ++ w).rdropWhile isWhitespace = ' ' :: t := by
      obtain rfl | ⟨t, rfl⟩ := hr
      · exact Or.inl hw.rdropWhile
      · obtain ⟨y, hy⟩ := List.rdropWhile_prefix isWhitespace (' ' :: t ++ w)
        cases hd : (' ' :: t ++ w).rdropWhile isWhitespace with
        | nil => exact Or.inl rfl
        | cons c t' =>
          rw [hd, List.cons_append, List.cons_append, List.cons.injEq] at hy
          exact Or.inr ⟨t', by rw [hy.1]⟩
    have hs : Spells host _ := hosts ha hrest
    simpa using hs

/-- No spelling begins like a comment or an exception. -/
theorem first (h : Spells host body) :
    ∃ c t, body = c :: t ∧ c ≠ '#' ∧ c ≠ '!' ∧ c ≠ '@' := by
  cases h with
  | domain =>
    obtain ⟨c, t, hct, hc⟩ := host.text_eq_cons
    refine ⟨c, t, hct, ?_, ?_, ?_⟩ <;> rintro rfl <;> revert hc <;> decide
  | hosts ha hr =>
    obtain rfl | rfl := ha
    · exact ⟨'0', _, rfl, by decide⟩
    · exact ⟨'1', _, rfl, by decide⟩
  | wildcard => exact ⟨'*', _, rfl, by decide⟩
  | adguard => exact ⟨'|', _, rfl, by decide⟩
  | adguardEnd => exact ⟨'|', _, rfl, by decide⟩
  | options o => exact ⟨'|', _, rfl, by decide⟩
  | endOptions o => exact ⟨'|', _, rfl, by decide⟩

theorem not_skipped (h : Spells host body) : isSkipped body = false := by
  obtain ⟨c, t, rfl, h1, h2, -⟩ := h.first
  simp [isSkipped, startsWith_cons_cons, h1.symm, h2.symm]

theorem not_exception (h : Spells host body) : startsWith "@@".toList body = false := by
  obtain ⟨c, t, rfl, -, -, h3⟩ := h.first
  refine (startsWith_cons_cons '@' c ['@'] t).trans ?_
  simp [h3.symm]

/-- The branch for AdGuard rules keeps what stands before the options and the `^`. -/
theorem ruleDomain_adguard (host : HostName) (s : Str) : ruleDomain ("||".toList ++ (host.text ++ s)) =
    trimEndMatches '^' (((host.text ++ s).splitOn '$').headD []) := by
  have hbars : startsWith "||".toList (host.text ++ s) = false :=
    HostName.startsWith_text (by decide) ['|'] host s
  unfold ruleDomain
  rw [if_pos (startsWith_append _ _), trimStartMatches_append (by decide) hbars]

theorem trimEndMatches_caret (host : HostName) (j : Nat) :
    trimEndMatches '^' (host.text ++ List.replicate j '^') = host.text := by
  rw [trimEndMatches_append_replicate]
  apply trimEndMatches_eq_self
  intro hlast
  exact host.not_mem_text (by decide) (List.mem_of_getLast? hlast)

/-- The branch for hosts lines takes the second word. -/
theorem ruleDomain_hosts {address : Str}
    (ha : address = "0.0.0.0".toList ∨ address = "127.0.0.1".toList) (s : Str) :
    ruleDomain (address ++ ' ' :: s) = (splitWhitespace s).getD 0 [] := by
  have hword : address ≠ [] ∧ (address.all fun c => !isWhitespace c) = true := by
    rcases ha with rfl | rfl <;> decide
  have hbars : startsWith "||".toList (address ++ ' ' :: s) = false := by
    rcases ha with rfl | rfl <;> rfl
  have hhosts : (startsWith "0.0.0.0 ".toList (address ++ ' ' :: s) ||
      startsWith "127.0.0.1 ".toList (address ++ ' ' :: s)) = true := by
    rcases ha with rfl | rfl <;> rfl
  unfold ruleDomain
  rw [if_neg (by rw [hbars]; exact Bool.false_ne_true), if_pos hhosts,
    splitWhitespace_cons hword.1 (fun c hc => by simpa using List.all_eq_true.1 hword.2 c hc)
      (by decide)]
  rfl

theorem ruleDomain_eq (h : Spells host body) : ruleDomain body = host.text := by
  have hcaret : isHostChar '^' = false ∧ '^' ≠ '.' := by decide
  have hdollar : '$' ∉ host.text := host.not_mem_text (by decide)
  have hword := host.notSpace
  have hne := host.text_ne_nil
  cases h with
  | domain =>
    have hbars : startsWith "||".toList host.text = false :=
      HostName.startsWith_foreign (c := '|') (by decide) (by decide) host
    have hzero : startsWith "0.0.0.0 ".toList host.text = false :=
      HostName.startsWith_foreign (c := ' ') (by decide) (by decide) host
    have hloop : startsWith "127.0.0.1 ".toList host.text = false :=
      HostName.startsWith_foreign (c := ' ') (by decide) (by decide) host
    have hstar : startsWith "*.".toList host.text = false :=
      HostName.startsWith_foreign (c := '*') (by decide) (by decide) host
    unfold ruleDomain
    rw [hbars, hzero, hloop, hstar]
    rfl
  | wildcard =>
    have hstar : startsWith "*.".toList host.text = false :=
      HostName.startsWith_foreign (c := '*') (by decide) (by decide) host
    exact trimStartMatches_append (by decide) hstar
  | adguard =>
    have hd := ruleDomain_adguard host []
    rw [List.append_nil] at hd
    rw [hd, splitOn_of_not_mem hdollar]
    exact (congrArg _ (List.append_nil _).symm).trans (trimEndMatches_caret host 0)
  | adguardEnd =>
    rw [ruleDomain_adguard, splitOn_of_not_mem (by simp [hdollar])]
    exact trimEndMatches_caret host 1
  | options o =>
    rw [ruleDomain_adguard, splitOn_append_sep, splitOn_of_not_mem hdollar]
    exact (congrArg _ (List.append_nil _).symm).trans (trimEndMatches_caret host 0)
  | endOptions o =>
    have hsplit : host.text ++ '^' :: '$' :: o = (host.text ++ ['^']) ++ '$' :: o := by simp
    rw [ruleDomain_adguard, hsplit, splitOn_append_sep, splitOn_of_not_mem (by simp [hdollar])]
    exact trimEndMatches_caret host 1
  | hosts ha hr =>
    rw [ruleDomain_hosts ha]
    obtain rfl | ⟨t, rfl⟩ := hr
    · rw [List.append_nil, splitWhitespace_word hne hword]
      rfl
    · rw [splitWhitespace_cons hne hword (by decide)]
      rfl

/-- A rule that is a spelling once it is trimmed adds its host in lower case. -/
theorem ruleKeys_eq {rawRule : Str} (h : Spells host (trim rawRule)) :
    ruleKeys rawRule = {host.lower.text} :=
  ruleKeys_of_ruleDomain h.not_skipped h.ruleDomain_eq

end Spells

/-! ## Lines -/

/-- What a line of a blocklist says: nothing, or a rule for one of the rule sets. -/
inductive Entry where
  | skip
  | rule (side : Side) (host : HostName)

/-- The keys the entry should add. -/
def Entry.keys (entry : Entry) (side : Side) : Set Str :=
  {k | ∃ host, .rule side host = entry ∧ k = host.lower.text}

/-- What the lines the filter documents say. -/
inductive Means : Str → Entry → Prop
  | blank {w : Str} (hw : Blank w) : Means w .skip
  | comment {w : Str} {c : Char} (hw : Blank w) (hc : c = '#' ∨ c = '!') (t : Str) :
      Means (w ++ c :: t) .skip
  | rule {w w' body : Str} {host : HostName} (hw : Blank w) (hw' : Blank w')
      (h : Spells host body) : Means (w ++ (body ++ w')) (.rule .block host)
  | exception {w w' body : Str} {host : HostName} (hw : Blank w) (hw' : Blank w')
      (h : Spells host body) : Means (w ++ ("@@".toList ++ (body ++ w'))) (.rule .allow host)

theorem Spells.trim_line {host : HostName} {body w w' : Str} (h : Spells host body)
    (hw : Blank w) (hw' : Blank w') : Spells host (trim (w ++ (body ++ w'))) := by
  obtain ⟨core, rest, rfl, hcore, hspells⟩ := h.parts
  rw [List.append_assoc, hcore.trim hw]
  exact hspells w' hw'

theorem Spells.trim_exception {host : HostName} {body w w' : Str} (h : Spells host body)
    (hw : Blank w) (hw' : Blank w') : ∃ body', Spells host body' ∧
      trim (w ++ ("@@".toList ++ (body ++ w'))) = "@@".toList ++ body' := by
  obtain ⟨core, rest, rfl, hcore, hspells⟩ := h.parts
  refine ⟨_, hspells w' hw', ?_⟩
  have hat : Solid "@@".toList := solid_of_all (by decide) (by decide)
  have hsolid := (hat.append hcore []).trim hw (rest ++ w')
  rw [List.nil_append, List.append_assoc] at hsolid
  rw [List.append_assoc, hsolid, List.append_assoc]

theorem blank_nil : Blank [] := fun _ hc => absurd hc List.not_mem_nil

theorem Spells.ruleKeys_self {host : HostName} {body : Str} (h : Spells host body) :
    ruleKeys body = {host.lower.text} := by
  have htrim := h.trim_line blank_nil blank_nil
  rw [List.nil_append, List.append_nil] at htrim
  exact ruleKeys_eq htrim

/-- A line adds the host it has a rule for, to the rule set the rule is for, and no other key. -/
theorem Means.keys_eq {line : Str} {entry : Entry} (h : Means line entry) (side : Side) :
    blocklistLineKeys line side = entry.keys side := by
  cases h with
  | blank hw =>
    have htrim := trim_blank hw
    cases side <;> simp [blocklistLineKeys, Entry.keys, htrim, startsWith, isSkipped]
  | comment hw hc t =>
    obtain rfl | rfl := hc
    · have htrim := (solid_of_all (s := ['#']) (by decide) (by decide)).trim hw t
      rw [List.singleton_append, List.singleton_append] at htrim
      cases side <;> simp [blocklistLineKeys, Entry.keys, htrim, startsWith, isSkipped]
    · have htrim := (solid_of_all (s := ['!']) (by decide) (by decide)).trim hw t
      rw [List.singleton_append, List.singleton_append] at htrim
      cases side <;> simp [blocklistLineKeys, Entry.keys, htrim, startsWith, isSkipped]
  | rule hw hw' h =>
    have hbody := h.trim_line hw hw'
    cases side with
    | allow =>
      simp [-String.reduceToList, blocklistLineKeys, Entry.keys, hbody.not_exception]
    | block =>
      simp [-String.reduceToList, blocklistLineKeys, Entry.keys, hbody.not_exception,
        hbody.not_skipped, hbody.ruleKeys_self]
  | exception hw hw' h =>
    obtain ⟨body', hbody, htrim⟩ := h.trim_exception hw hw'
    cases side with
    | allow =>
      simp [-String.reduceToList, blocklistLineKeys, Entry.keys, htrim, startsWith_append,
        trimStartMatches_append (by decide) hbody.not_exception, hbody.ruleKeys_self]
    | block =>
      simp [-String.reduceToList, blocklistLineKeys, Entry.keys, htrim, startsWith_append]

/-! ## Texts of such lines -/

/-- Some line of the text is a rule of the set `side` for a host that `d` is under. -/
def Listed (entries : List Entry) (side : Side) (d : HostName) : Prop :=
  ∃ host, Entry.rule side host ∈ entries ∧ d.Under host

/-- What the lines mean is what the text adds. -/
theorem keys_of_means {ls : List Str} {entries : List Entry} (h : List.Forall₂ Means ls entries)
    (side : Side) : {k | ∃ line ∈ ls, k ∈ blocklistLineKeys line side} =
      {k | ∃ host ∈ {host | Entry.rule side host ∈ entries}, k = host.lower.text} := by
  ext k
  simp only [Set.mem_ofPred_eq]
  induction h with
  | nil => simp
  | @cons line entry ls entries h _ ih =>
    rw [List.exists_mem_cons_iff, h.keys_eq, ih]
    simp only [Entry.keys, Set.mem_ofPred_eq, List.mem_cons, or_and_right, exists_or]

theorem covers_listed {content : Str} {entries : List Entry}
    (h : List.Forall₂ Means (lines content) entries) (side : Side) (d : HostName) :
    Covers ((loaded [.blocklistContent content]).keys side) d.lower.text ↔
      Listed entries side d := by
  have hkeys : (loaded [.blocklistContent content]).keys side =
      {k | ∃ line ∈ lines content, k ∈ blocklistLineKeys line side} := by
    rw [keys_loaded]
    ext k
    simp [Load.keys]
  rw [hkeys, keys_of_means h, HostName.covers_lower_iff]
  rfl

/-- Over a text of documented lines the engine decides by the hosts of the rules: exceptions
    first, then rules, each for its host and the subdomains of it. -/
theorem evaluate_loadBlocklistContent {content : Str} {entries : List Entry}
    (h : List.Forall₂ Means (lines content) entries) (d : HostName) (j : Nat) :
    let result := (FilterEngine.new.loadBlocklistContent content).1.evaluate
      (d.text ++ List.replicate j '.')
    ((∃ rule, result = .AllowListMatched rule) ↔ Listed entries .allow d) ∧
    ((∃ rule, result = .Blocked rule) ↔ ¬ Listed entries .allow d ∧ Listed entries .block d) ∧
    (result = .Allowed ↔ ¬ Listed entries .allow d ∧ ¬ Listed entries .block d) := by
  intro result
  have hresult : result = decision ((loaded [.blocklistContent content]).keys .allow)
      ((loaded [.blocklistContent content]).keys .block) (d.text ++ List.replicate j '.') :=
    evaluate_eq_keys [.blocklistContent content] _
  rw [hresult]
  unfold decision
  rw [d.normalize_text, d.normalize_lower]
  have hallow := covers_listed h .allow d
  have hblock := covers_listed h .block d
  by_cases ha : Listed entries .allow d
  · rw [if_pos (hallow.2 ha)]
    simp [ha]
  rw [if_neg (hallow.not.2 ha)]
  by_cases hb : Listed entries .block d
  · rw [if_pos (hblock.2 hb)]
    simp [ha, hb]
  · rw [if_neg (hblock.not.2 hb)]
    simp [ha, hb]

/-! ## A list with an exception -/

/-- `Ads.x`. -/
def adsHost : HostName := .ofLabels [['A', 'd', 's'], ['x']] (by decide)

/-- `ok.ads.X`. -/
def okHost : HostName := .ofLabels [['o', 'k'], ['a', 'd', 's'], ['X']] (by decide)

/-- A comment, `||Ads.x^$a`, a blank line and `@@0.0.0.0 ok.ads.X #` behind a space. -/
def sampleList : Str :=
  '!' :: '\n' :: ("||".toList ++ (adsHost.text ++ '^' :: '$' :: 'a' :: '\n' :: '\n' :: ' ' ::
    ("@@0.0.0.0 ".toList ++ (okHost.text ++ [' ', '#']))))

theorem means_sampleList : List.Forall₂ Means (lines sampleList)
    [.skip, .rule .block adsHost, .skip, .rule .allow okHost] := by
  have hlines : lines sampleList = [[] ++ '!' :: [],
      [] ++ ("||".toList ++ (adsHost.text ++ '^' :: '$' :: ['a']) ++ []), [],
      [' '] ++ ("@@".toList ++ ("0.0.0.0".toList ++ ' ' :: (okHost.text ++ [' ', '#']) ++ []))] := by
    decide +kernel
  have hspace : Blank [' '] := by
    intro c hc
    rw [List.mem_singleton.1 hc]
    decide
  rw [hlines]
  exact .cons (.comment blank_nil (Or.inr rfl) [])
    (.cons (.rule blank_nil blank_nil (.endOptions ['a']))
      (.cons (.blank blank_nil)
        (.cons (.exception hspace blank_nil (.hosts (Or.inl rfl) (Or.inr ⟨['#'], rfl⟩))) .nil)))

theorem evaluate_loadBlocklistContent_sampleList : ∃ rule,
    (FilterEngine.new.loadBlocklistContent sampleList).1.evaluate
      (adsHost.text ++ List.replicate 2 '.') = .Blocked rule :=
  (evaluate_loadBlocklistContent means_sampleList adsHost 2).2.1.2 (by
    constructor
    · intro h
      obtain ⟨host, hmem, hunder⟩ := h
      have hhost : host = okHost := by simpa using hmem
      rw [hhost] at hunder
      revert hunder
      decide
    · exact ⟨adsHost, by simp, List.suffix_rfl⟩)

end VantaDns.Filter
