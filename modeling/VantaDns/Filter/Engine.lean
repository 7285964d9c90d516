/-
  The filter (`filter/engine.rs`): loading rules and list texts, and `FilterEngine::evaluate`.

  `Load` is one call that loads something, `FilterEngine.load` what it does to the engine and
  `loaded` the engine after a sequence of calls. `evaluate_loaded`: its decision is the
  reference decision on the keys the two rule sets then hold, and an allow match stays one
  whatever is loaded later.
-/
import VantaDns.Filter.Trie

namespace VantaDns.Filter

open Lib Lib.Text

inductive FilterResult where
  | Allowed
  | AllowListMatched (rule : Str)
  | Blocked (rule : Str)
  deriving DecidableEq

structure FilterEngine where
  allowlist : DomainTrie
  blocklist : DomainTrie

namespace FilterEngine

def new : FilterEngine := ⟨.new, .new⟩

def loadAllowlistRule (engine : FilterEngine) (rule : Str) : FilterEngine :=
  { engine with allowlist := engine.allowlist.insertRule (trimStartMatches "@@".toList rule) }

def loadBlocklistRule (engine : FilterEngine) (rule : Str) : FilterEngine :=
  { engine with blocklist := engine.blocklist.insertRule rule }

/-- One round of the loop of `load_blocklist_content`, with its `count`. -/
def loadBlocklistLine (st : FilterEngine × Nat) (line : Str) : FilterEngine × Nat :=
  let trimmed := trim line
  if startsWith "@@".toList trimmed then (st.1.loadAllowlistRule trimmed, st.2)
  else if isSkipped trimmed then st
  else (st.1.loadBlocklistRule trimmed, st.2 + 1)

def loadBlocklistContent (engine : FilterEngine) (content : Str) : FilterEngine × Nat :=
  (lines content).foldl loadBlocklistLine (engine, 0)

/-- One round of the loop of `load_allowlist_content`, with its `count`. -/
def loadAllowlistLine (st : FilterEngine × Nat) (line : Str) : FilterEngine × Nat :=
  let trimmed := trim line
  if isSkipped trimmed then st else (st.1.loadAllowlistRule trimmed, st.2 + 1)

def loadAllowlistContent (engine : FilterEngine) (content : Str) : FilterEngine × Nat :=
  (lines content).foldl loadAllowlistLine (engine, 0)

/-- `FilterEngine::evaluate`: the allowlist first, then the blocklist. -/
def evaluate (engine : FilterEngine) (domain : Str) : FilterResult :=
  let normalized := normalize domain
  if engine.allowlist.matches normalized then .AllowListMatched normalized
  else if engine.blocklist.matches normalized then .Blocked normalized
  else .Allowed

def blocklistRuleCount (engine : FilterEngine) : Nat := engine.blocklist.len

def allowlistRuleCount (engine : FilterEngine) : Nat := engine.allowlist.len

end FilterEngine

/-! ## Loading -/

/-- A call that loads rules. -/
inductive Load where
  | allowlistRule (rule : Str)
  | blocklistRule (rule : Str)
  | allowlistContent (content : Str)
  | blocklistContent (content : Str)

def FilterEngine.load (engine : FilterEngine) : Load → FilterEngine
  | .allowlistRule rule => engine.loadAllowlistRule rule
  | .blocklistRule rule => engine.loadBlocklistRule rule
  | .allowlistContent content => (engine.loadAllowlistContent content).1
  | .blocklistContent content => (engine.loadBlocklistContent content).1

/-- The engine after a sequence of loading calls. -/
def loaded (loads : List Load) : FilterEngine := loads.foldl FilterEngine.load .new

/-- An engine whose sets agree, and which holds at least the keys of an earlier one. -/
structure FilterEngine.Grown (engine engine' : FilterEngine) : Prop where
  allowlist : engine'.allowlist.Agree
  blocklist : engine'.blocklist.Agree
  allowKeys : engine.allowlist.keys ⊆ engine'.allowlist.keys
  blockKeys : engine.blocklist.keys ⊆ engine'.blocklist.keys

namespace FilterEngine.Grown

variable {engine engine' : FilterEngine}

theorem loadAllowlistRule (h : engine.Grown engine') (rule : Str) :
    engine.Grown (engine'.loadAllowlistRule rule) :=
  ⟨h.allowlist.insertRule _, h.blocklist,
    h.allowKeys.trans (engine'.allowlist.keys_subset_insertRule _), h.blockKeys⟩

theorem loadBlocklistRule (h : engine.Grown engine') (rule : Str) :
    engine.Grown (engine'.loadBlocklistRule rule) :=
  ⟨h.allowlist, h.blocklist.insertRule _, h.allowKeys,
    h.blockKeys.trans (engine'.blocklist.keys_subset_insertRule _)⟩

theorem loadAllowlistLine {st : FilterEngine × Nat} (h : engine.Grown st.1) (line : Str) :
    engine.Grown (FilterEngine.loadAllowlistLine st line).1 := by
  unfold FilterEngine.loadAllowlistLine
  dsimp only
  split
  · exact h
  · exact h.loadAllowlistRule _

theorem loadBlocklistLine {st : FilterEngine × Nat} (h : engine.Grown st.1) (line : Str) :
    engine.Grown (FilterEngine.loadBlocklistLine st line).1 := by
  unfold FilterEngine.loadBlocklistLine
  dsimp only
  split
  · exact h.loadAllowlistRule _
  · split
    · exact h
    · exact h.loadBlocklistRule _

/-- What one line preserves, a text preserves. -/
theorem foldl {step : FilterEngine × Nat → Str → FilterEngine × Nat}
    (hstep : ∀ {st : FilterEngine × Nat}, engine.Grown st.1 → ∀ line, engine.Grown (step st line).1)
    (ls : List Str) {st : FilterEngine × Nat} (h : engine.Grown st.1) :
    engine.Grown (ls.foldl step st).1 := by
  induction ls generalizing st with
  | nil => exact h
  | cons l ls ih => exact ih (hstep h l)

theorem load (h : engine.Grown engine') (op : Load) : engine.Grown (engine'.load op) := by
  cases op with
  | allowlistRule rule => exact h.loadAllowlistRule rule
  | blocklistRule rule => exact h.loadBlocklistRule rule
  | allowlistContent content => exact foldl loadAllowlistLine _ h
  | blocklistContent content => exact foldl loadBlocklistLine _ h

theorem loads (h : engine.Grown engine') (loads : List Load) :
    engine.Grown (loads.foldl FilterEngine.load engine') := by
  induction loads generalizing engine' with
  | nil => exact h
  | cons op loads ih => exact ih (h.load op)

end FilterEngine.Grown

theorem grown_loaded (loads : List Load) : FilterEngine.new.Grown (loaded loads) :=
  FilterEngine.Grown.loads ⟨DomainTrie.agree_new, DomainTrie.agree_new, subset_rfl, subset_rfl⟩ loads

theorem grown_loaded_append (loads later : List Load) :
    (loaded loads).Grown (loaded (loads ++ later)) := by
  have h := grown_loaded loads
  unfold loaded at h ⊢
  rw [List.foldl_append]
  exact FilterEngine.Grown.loads ⟨h.allowlist, h.blocklist, subset_rfl, subset_rfl⟩ later

/-! ## The decision -/

/-- The decision on sets of keys: an allow key that covers the name wins over all block keys. -/
noncomputable def decision (allow block : Set Str) (domain : Str) : FilterResult :=
  open Classical in
  if Covers allow (normalize (normalize domain)) then .AllowListMatched (normalize domain)
  else if Covers block (normalize (normalize domain)) then .Blocked (normalize domain)
  else .Allowed

theorem decision_congr {allow allow' block block' : Set Str} {domain : Str}
    (ha : Covers allow (normalize (normalize domain)) ↔
      Covers allow' (normalize (normalize domain)))
    (hb : Covers block (normalize (normalize domain)) ↔
      Covers block' (normalize (normalize domain))) :
    decision allow block domain = decision allow' block' domain := by
  unfold decision
  by_cases h1 : Covers allow (normalize (normalize domain))
  · rw [if_pos h1, if_pos (ha.1 h1)]
  rw [if_neg h1, if_neg (ha.not.1 h1)]
  by_cases h2 : Covers block (normalize (normalize domain))
  · rw [if_pos h2, if_pos (hb.1 h2)]
  · rw [if_neg h2, if_neg (hb.not.1 h2)]

theorem evaluate_eq_decision {engine : FilterEngine} (ha : engine.allowlist.Agree)
    (hb : engine.blocklist.Agree) (domain : Str) :
    engine.evaluate domain = decision engine.allowlist.keys engine.blocklist.keys domain := by
  have hallow := DomainTrie.matches_iff ha (normalize domain)
  have hblock := DomainTrie.matches_iff hb (normalize domain)
  unfold FilterEngine.evaluate decision
  by_cases h1 : Covers engine.allowlist.keys (normalize (normalize domain))
  · rw [if_pos h1, if_pos (hallow.2 h1)]
  rw [if_neg h1, if_neg (hallow.not.2 h1)]
  by_cases h2 : Covers engine.blocklist.keys (normalize (normalize domain))
  · rw [if_pos h2, if_pos (hblock.2 h2)]
  · rw [if_neg h2, if_neg (hblock.not.2 h2)]

theorem decision_eq_allow {allow block : Set Str} {domain rule : Str} :
    decision allow block domain = .AllowListMatched rule ↔
      Covers allow (normalize (normalize domain)) ∧ rule = normalize domain := by
  unfold decision
  split
  · next h => simp [h, eq_comm]
  · next h =>
    refine iff_of_false ?_ fun h' => h h'.1
    split <;> simp

/-- After any loading calls `evaluate` is the reference decision on the keys both sets of each
    trie hold, an allow match withstands all further calls, and a key that a name merely ends
    with, inside a label, has no say in the decision on that name. -/
theorem evaluate_loaded (loads : List Load) (domain : Str) :
    (loaded loads).allowlist.Agree ∧ (loaded loads).blocklist.Agree ∧
    (loaded loads).evaluate domain =
      decision (loaded loads).allowlist.keys (loaded loads).blocklist.keys domain ∧
    (∀ rule later, (loaded loads).evaluate domain = .AllowListMatched rule →
      (loaded (loads ++ later)).evaluate domain = .AllowListMatched rule) ∧
    ∀ (x r : Str) (c : Char), c ≠ '.' → normalize (normalize domain) = x ++ c :: r →
      (loaded loads).evaluate domain =
        decision ((loaded loads).allowlist.keys \ {r}) ((loaded loads).blocklist.keys \ {r})
          domain := by
  have h := grown_loaded loads
  have heval := evaluate_eq_decision h.allowlist h.blocklist domain
  refine ⟨h.allowlist, h.blocklist, heval, ?_, ?_⟩
  · intro rule later hmatch
    have hg := grown_loaded_append loads later
    rw [heval, decision_eq_allow] at hmatch
    rw [evaluate_eq_decision hg.allowlist hg.blocklist, decision_eq_allow]
    exact ⟨hmatch.1.mono hg.allowKeys, hmatch.2⟩
  · intro x r c hc hn
    rw [heval]
    apply decision_congr
    · rw [hn]
      exact covers_inside_label _ hc
    · rw [hn]
      exact covers_inside_label _ hc

end VantaDns.Filter
