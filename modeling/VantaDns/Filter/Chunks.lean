/-
  Lists that are loaded in pieces (`load_blocklist_content` in the loop of `run_server`).

  Loading a text adds the keys of its lines to two sets, and the lines of a text that is cut
  behind line feeds are those of its pieces. So the pieces may come in any order, and more
  than once: `load_chunks`. The counts that are returned do not collapse; they add up over
  pieces that come once each. `evaluate_insert`: what more calls, of whatever kind and wherever
  they come in, do to a decision.
-/
import VantaDns.Filter.Rules

namespace VantaDns.Filter

open Lib Lib.Text

/-- Lines as a text, a line feed behind each. -/
def chunkText (chunk : List Str) : Str := (chunk.map fun line => line ++ ['\n']).flatten

/-- Texts loaded one after another, with the sum of the counts. -/
def FilterEngine.loadBlocklistContents (engine : FilterEngine) (contents : List Str) :
    FilterEngine × Nat :=
  contents.foldl (fun st content =>
    ((st.1.loadBlocklistContent content).1, st.2 + (st.1.loadBlocklistContent content).2))
    (engine, 0)

/-! ## Engines with the same keys -/

theorem DomainTrie.Agree.eq_of_keys {t t' : DomainTrie} (h : t.Agree) (h' : t'.Agree)
    (hkeys : t.keys = t'.keys) : t = t' := by
  have hexact : t.exactMatches = t'.exactMatches := Finset.coe_injective hkeys
  cases t
  cases t'
  unfold Agree at h h'
  dsimp only at h h' hexact
  subst h h' hexact
  rfl

/-- The keys determine an engine. -/
theorem FilterEngine.Grown.eq_of_keys {engine engine₁ engine₂ : FilterEngine}
    (h₁ : engine.Grown engine₁) (h₂ : engine.Grown engine₂)
    (hkeys : ∀ side, engine₁.keys side = engine₂.keys side) : engine₁ = engine₂ := by
  have hallow := h₁.allowlist.eq_of_keys h₂.allowlist (hkeys .allow)
  have hblock := h₁.blocklist.eq_of_keys h₂.blocklist (hkeys .block)
  cases engine₁
  cases engine₂
  dsimp only at hallow hblock
  rw [hallow, hblock]

/-! ## Counts -/

/-- The line is counted as a rule of the blocklist. -/
def isCounted (line : Str) : Bool :=
  !startsWith "@@".toList (trim line) && !isSkipped (trim line)

theorem count_loadBlocklistLine (st : FilterEngine × Nat) (line : Str) :
    (FilterEngine.loadBlocklistLine st line).2 = st.2 + if isCounted line then 1 else 0 := by
  unfold FilterEngine.loadBlocklistLine isCounted
  dsimp only
  by_cases h1 : startsWith "@@".toList (trim line) = true
  · rw [if_pos h1, h1]
    rfl
  rw [if_neg h1, Bool.eq_false_of_not_eq_true h1]
  by_cases h2 : isSkipped (trim line) = true
  · rw [if_pos h2, h2]
    rfl
  · rw [if_neg h2, Bool.eq_false_of_not_eq_true h2]
    rfl

theorem count_foldl (ls : List Str) (st : FilterEngine × Nat) :
    (ls.foldl FilterEngine.loadBlocklistLine st).2 = st.2 + ls.countP isCounted := by
  induction ls generalizing st with
  | nil => rfl
  | cons line ls ih => rw [List.foldl_cons, ih, count_loadBlocklistLine, List.countP_cons]; omega

theorem count_loadBlocklistContent (engine : FilterEngine) (content : Str) :
    (engine.loadBlocklistContent content).2 = (lines content).countP isCounted := by
  rw [FilterEngine.loadBlocklistContent, count_foldl, Nat.zero_add]

/-! ## Pieces -/

theorem foldl_contents (contents : List Str) (st : FilterEngine × Nat) :
    contents.foldl (fun st content =>
      ((st.1.loadBlocklistContent content).1, st.2 + (st.1.loadBlocklistContent content).2)) st =
      ((contents.map Load.blocklistContent).foldl FilterEngine.load st.1,
        st.2 + (contents.flatMap lines).countP isCounted) := by
  induction contents generalizing st with
  | nil => rfl
  | cons content contents ih =>
    rw [List.foldl_cons, ih, List.map_cons, List.foldl_cons, List.flatMap_cons, List.countP_append,
      count_loadBlocklistContent, Nat.add_assoc]
    rfl

theorem loadBlocklistContents_eq (engine : FilterEngine) (contents : List Str) :
    engine.loadBlocklistContents contents =
      ((contents.map Load.blocklistContent).foldl FilterEngine.load engine,
        (contents.flatMap lines).countP isCounted) := by
  rw [FilterEngine.loadBlocklistContents, foldl_contents, Nat.zero_add]

theorem lines_chunkText (chunk : List Str) :
    lines (chunkText chunk) = chunk.flatMap fun line => lines (line ++ ['\n']) := by
  unfold chunkText
  rw [lines_flatten, List.flatMap_map]
  apply cut_of_terminated
  intro s hs
  obtain ⟨line, -, rfl⟩ := List.mem_map.1 hs
  exact Or.inr ⟨line, rfl⟩

/-- The lines of the pieces are those of the whole text. -/
theorem lines_chunkText_flatten (chunks : List (List Str)) :
    lines (chunkText chunks.flatten) = (chunks.map chunkText).flatMap lines := by
  rw [lines_chunkText, List.flatMap_map, List.flatten_eq_flatMap, List.flatMap_assoc]
  congr 1
  funext chunk
  rw [lines_chunkText]
  rfl

/-- Texts with the same lines, in whatever order and however often, make the same engine. -/
theorem load_same_lines (before : List Load) {contents contents' : List Str}
    (h : ∀ line, line ∈ contents.flatMap lines ↔ line ∈ contents'.flatMap lines) :
    (contents.map Load.blocklistContent).foldl FilterEngine.load (loaded before) =
      (contents'.map Load.blocklistContent).foldl FilterEngine.load (loaded before) := by
  have hgrown : ∀ cs : List Str, (loaded before).Grown
      ((cs.map Load.blocklistContent).foldl FilterEngine.load (loaded before)) := fun cs =>
    FilterEngine.Grown.loads ⟨(grown_loaded before).allowlist, (grown_loaded before).blocklist,
      subset_rfl, subset_rfl⟩ _
  have hkeys : ∀ (cs : List Str) (side : Side),
      {k | ∃ op ∈ cs.map Load.blocklistContent, k ∈ op.keys side} =
        {k | ∃ line ∈ cs.flatMap lines, k ∈ blocklistLineKeys line side} := by
    intro cs side
    ext k
    simp only [Set.mem_ofPred_eq, List.mem_map, exists_exists_and_eq_and, List.mem_flatMap]
    constructor
    · intro ⟨content, hcontent, line, hline, hk⟩
      exact ⟨line, ⟨content, hcontent, hline⟩, hk⟩
    · intro ⟨line, ⟨content, hcontent, hline⟩, hk⟩
      exact ⟨content, hcontent, line, hline, hk⟩
  refine (hgrown contents).eq_of_keys (hgrown contents') ?_
  intro side
  rw [FilterEngine.keys_loads, FilterEngine.keys_loads, hkeys, hkeys]
  congr 1
  ext k
  simp only [Set.mem_ofPred_eq, h]

/-- The same holds between any other calls. -/
theorem loaded_same_lines (before after : List Load) {contents contents' : List Str}
    (h : ∀ line, line ∈ contents.flatMap lines ↔ line ∈ contents'.flatMap lines) :
    loaded (before ++ contents.map .blocklistContent ++ after) =
      loaded (before ++ contents'.map .blocklistContent ++ after) := by
  unfold loaded
  rw [List.foldl_append, List.foldl_append, List.foldl_append, List.foldl_append]
  exact congrArg (List.foldl FilterEngine.load · after) (load_same_lines before h)

/-- However a list of lines is cut into chunks, and in whatever order and however often these are
    loaded: the engine decides as after loading the whole list at once, with the same numbers of
    rules. If every chunk is loaded once, the counts add up to that of the whole list. -/
theorem load_chunks (before : List Load) {ls : List Str} {chunks order : List (List Str)}
    (hcut : chunks.flatten = ls) (horder : ∀ chunk, chunk ∈ order ↔ chunk ∈ chunks) :
    let whole := (loaded before).loadBlocklistContent (chunkText ls)
    let pieces := (loaded before).loadBlocklistContents (order.map chunkText)
    (∀ domain, pieces.1.evaluate domain = whole.1.evaluate domain) ∧
    pieces.1.blocklistRuleCount = whole.1.blocklistRuleCount ∧
    pieces.1.allowlistRuleCount = whole.1.allowlistRuleCount ∧
    (order.Perm chunks → pieces.2 = whole.2) := by
  subst hcut
  dsimp only
  rw [loadBlocklistContents_eq]
  have hengine : ((order.map chunkText).map Load.blocklistContent).foldl FilterEngine.load
      (loaded before) = ((loaded before).loadBlocklistContent (chunkText chunks.flatten)).1 := by
    have hlines : ∀ line, line ∈ (order.map chunkText).flatMap lines ↔
        line ∈ [chunkText chunks.flatten].flatMap lines := by
      intro line
      rw [List.flatMap_singleton, lines_chunkText_flatten]
      simp only [List.mem_flatMap, List.mem_map, exists_exists_and_eq_and, horder]
    exact load_same_lines before hlines
  rw [hengine]
  refine ⟨fun _ => rfl, rfl, rfl, ?_⟩
  intro hperm
  rw [count_loadBlocklistContent, lines_chunkText_flatten]
  exact ((hperm.map chunkText).flatMap_right lines).countP_eq isCounted

/-- Two chunks, the second one loaded first and once more at the end. -/
theorem load_chunks_repeated :
    let a := ["||ads.x^".toList, "@@||ok.ads.x^".toList]
    let b := ["! tracker".toList, "0.0.0.0 t.x".toList]
    ∀ domain, ((loaded []).loadBlocklistContents ([b, a, b].map chunkText)).1.evaluate domain =
      ((loaded []).loadBlocklistContent (chunkText (a ++ b))).1.evaluate domain := by
  intro a b
  have horder : ∀ chunk, chunk ∈ [b, a, b] ↔ chunk ∈ [a, b] := by
    intro chunk
    simp only [List.mem_cons, List.not_mem_nil, or_false]
    tauto
  have hcut : [a, b].flatten = a ++ b := by
    rw [List.flatten_cons, List.flatten_singleton]
  exact (load_chunks [] hcut horder).1

/-! ## More rules -/

/-- A decision after more rules: the keys `allow` and `block` are added. -/
noncomputable def revised (allow block : Set Str) (domain : Str) (result : FilterResult) :
    FilterResult :=
  open Classical in
  if Covers allow (normalize (normalize domain)) then .AllowListMatched (normalize domain)
  else
    match result with
    | .Allowed =>
        if Covers block (normalize (normalize domain)) then .Blocked (normalize domain)
        else .Allowed
    | result => result

theorem decision_union (allow allow' block block' : Set Str) (domain : Str) :
    decision (allow ∪ allow') (block ∪ block') domain =
      revised allow' block' domain (decision allow block domain) := by
  have hallow := @covers_union allow allow' (normalize (normalize domain))
  have hblock := @covers_union block block' (normalize (normalize domain))
  unfold decision revised
  by_cases ha' : Covers allow' (normalize (normalize domain))
  · rw [if_pos ha', if_pos (hallow.2 (Or.inr ha'))]
  rw [if_neg ha']
  by_cases ha : Covers allow (normalize (normalize domain))
  · rw [if_pos ha, if_pos (hallow.2 (Or.inl ha))]
  rw [if_neg ha, if_neg (hallow.not.2 (not_or.2 ⟨ha, ha'⟩))]
  by_cases hb : Covers block (normalize (normalize domain))
  · rw [if_pos hb, if_pos (hblock.2 (Or.inl hb))]
  rw [if_neg hb]
  by_cases hb' : Covers block' (normalize (normalize domain))
  · rw [if_pos (hblock.2 (Or.inr hb')), if_pos hb']
  · rw [if_neg (hblock.not.2 (not_or.2 ⟨hb, hb'⟩)), if_neg hb']

/-- What any further calls do to a decision, wherever they come in: it depends on the decision
    without them and on the keys they add, and not on when they come. An exception for the name
    wins, a block key has a say if nothing had one before, and other keys have none. -/
theorem evaluate_insert (before later after : List Load) (domain : Str) :
    (loaded (before ++ later ++ after)).evaluate domain =
      revised {k | ∃ op ∈ later, k ∈ op.keys .allow} {k | ∃ op ∈ later, k ∈ op.keys .block} domain
        ((loaded (before ++ after)).evaluate domain) := by
  have hkeys : ∀ side, (loaded (before ++ later ++ after)).keys side =
      (loaded (before ++ after)).keys side ∪ {k | ∃ op ∈ later, k ∈ op.keys side} := by
    intro side
    rw [keys_loaded, keys_loaded]
    ext k
    simp only [List.mem_append, Set.mem_ofPred_eq, Set.mem_union, or_and_right, exists_or]
    exact or_right_comm
  rw [evaluate_eq_keys, evaluate_eq_keys, hkeys, hkeys, decision_union]

end VantaDns.Filter
