/-
  Maps of bounded size that drop the least recently used key (the `lru` crate's `LruCache`).

  The entries stand in order of use, the most recent first, and their number and the
  distinctness of the keys are part of the structure. `get` moves an entry to the front,
  `put` puts one there and drops the last entry when the map is full and the key is new,
  `pop` takes one out. `lookup_get`, `lookup_pop` and `lookup_put` say what the
  operations do to the map as a function; `put` may only lose entries of other keys.
  `newer k` is the set of keys in front of `k`: an operation on another key adds at most that
  key to it, and `put` drops `k` only when it has grown to the capacity (`cap_le_of_dropped`).
  `missing c c'` counts the keys that are lost from `c` to `c'`; `missing_put` says when `put`
  loses one.
-/
import Mathlib

namespace VantaDns.Lib

open scoped List

/-- An `LruCache` with its entries, most recently used first. -/
structure Lru (κ ν : Type) where
  cap : Nat
  entries : AList (fun _ : κ => ν)
  cap_pos : 0 < cap
  len_le : entries.keys.length ≤ cap

namespace Lru

variable {κ ν : Type} [DecidableEq κ]

/-- `LruCache::new`. -/
def new (cap : Nat) (h : 0 < cap) : Lru κ ν := ⟨cap, ∅, h, Nat.zero_le _⟩

def len (c : Lru κ ν) : Nat := c.entries.keys.length

/-- The value of a key; it does not count as a use. -/
def lookup (c : Lru κ ν) (k : κ) : Option ν := c.entries.lookup k

theorem length_keys_insert_of_mem {s : AList (fun _ : κ => ν)} {k : κ} (h : k ∈ s) (v : ν) :
    (s.insert k v).keys.length = s.keys.length := by
  rw [AList.keys_insert, List.length_cons, List.length_erase_of_mem (AList.mem_keys.1 h)]
  have := List.length_pos_of_mem (AList.mem_keys.1 h)
  omega

theorem length_keys_insert_le (s : AList (fun _ : κ => ν)) (k : κ) (v : ν) :
    (s.insert k v).keys.length ≤ s.keys.length + 1 := by
  rw [AList.keys_insert, List.length_cons]
  have := (List.erase_sublist (a := k) (l := s.keys)).length_le
  omega

/-- `get`: the entry of the key, if there is one, becomes the most recently used. -/
def get (c : Lru κ ν) (k : κ) : Option ν × Lru κ ν :=
  match h : c.entries.lookup k with
  | none => (none, c)
  | some v =>
      (some v, { c with
        entries := c.entries.insert k v
        len_le := by
          have hmem : k ∈ c.entries := AList.lookup_isSome.1 (by rw [h]; rfl)
          rw [length_keys_insert_of_mem hmem]
          exact c.len_le })

/-- `pop`. -/
def pop (c : Lru κ ν) (k : κ) : Lru κ ν :=
  { c with
    entries := c.entries.erase k
    len_le := by
      rw [AList.keys_erase]
      exact (List.erase_sublist (a := k) (l := c.entries.keys)).length_le.trans c.len_le }

/-- Without the least recently used entry. -/
def dropLast (s : AList (fun _ : κ => ν)) : AList (fun _ : κ => ν) :=
  ⟨s.entries.dropLast, s.nodupKeys.sublist (List.dropLast_sublist _)⟩

/-- The entries when `k` is about to be put: one is dropped if the key is new and the map full. -/
def makeRoom (c : Lru κ ν) (k : κ) : AList (fun _ : κ => ν) :=
  if k ∈ c.entries then c.entries
  else if c.len = c.cap then dropLast c.entries
  else c.entries

omit [DecidableEq κ] in
theorem keys_dropLast (s : AList (fun _ : κ => ν)) : (dropLast s).keys = s.keys.dropLast := by
  simp [AList.keys, List.keys, dropLast, List.map_dropLast]

theorem length_put_le (c : Lru κ ν) (k : κ) (v : ν) :
    ((c.makeRoom k).insert k v).keys.length ≤ c.cap := by
  have hle := c.len_le
  have hpos := c.cap_pos
  unfold makeRoom
  split
  · next h =>
    rw [length_keys_insert_of_mem h]
    exact hle
  · split
    · next hfull =>
      have := length_keys_insert_le (dropLast c.entries) k v
      rw [keys_dropLast, List.length_dropLast] at this
      omega
    · next hfull =>
      have := length_keys_insert_le c.entries k v
      unfold len at hfull
      omega

/-- `put`. -/
def put (c : Lru κ ν) (k : κ) (v : ν) : Lru κ ν :=
  { c with entries := (c.makeRoom k).insert k v, len_le := c.length_put_le k v }

/-- `clear`. -/
def clear (c : Lru κ ν) : Lru κ ν := { c with entries := ∅, len_le := Nat.zero_le _ }

/-! ## The operations as operations on a map -/

@[simp] theorem lookup_new (cap : Nat) (h : 0 < cap) (k : κ) :
    (new cap h : Lru κ ν).lookup k = none := rfl

@[simp] theorem get_fst (c : Lru κ ν) (k : κ) : (c.get k).1 = c.lookup k := by
  unfold get lookup
  split <;> simp_all

theorem get_of_lookup_none {c : Lru κ ν} {k : κ} (h : c.lookup k = none) : c.get k = (none, c) := by
  unfold get
  split
  · rfl
  · next v hv => exact absurd (h.symm.trans hv) (by simp)

theorem lookup_get (c : Lru κ ν) (k k' : κ) : (c.get k).2.lookup k' = c.lookup k' := by
  unfold get
  split
  · rfl
  · next v h =>
    unfold lookup
    by_cases hk : k' = k
    · subst hk
      rw [AList.lookup_insert, h]
    · rw [AList.lookup_insert_ne hk]

theorem lookup_pop (c : Lru κ ν) (k k' : κ) :
    (c.pop k).lookup k' = if k' = k then none else c.lookup k' := by
  unfold lookup pop
  split
  · next h =>
    subst h
    exact AList.lookup_erase k' c.entries
  · next h => exact AList.lookup_erase_ne h

@[simp] theorem lookup_put_self (c : Lru κ ν) (k : κ) (v : ν) : (c.put k v).lookup k = some v :=
  AList.lookup_insert _

theorem lookup_eq_none_of {c c' : Lru κ ν} {k : κ}
    (h : ∀ v, c'.lookup k = some v → c.lookup k = some v) (hnone : c.lookup k = none) :
    c'.lookup k = none := by
  rw [Option.eq_none_iff_forall_ne_some]
  intro v hv
  exact absurd ((h v hv).symm.trans hnone) (by simp)

theorem lookup_dropLast {s : AList (fun _ : κ => ν)} {k : κ} {v : ν}
    (h : (dropLast s).lookup k = some v) : s.lookup k = some v :=
  AList.mem_lookup_iff.2 (List.mem_of_mem_dropLast (AList.mem_lookup_iff.1 h))

theorem lookup_makeRoom {c : Lru κ ν} {k k' : κ} {v : ν}
    (h : (c.makeRoom k).lookup k' = some v) : c.lookup k' = some v := by
  unfold makeRoom at h
  split at h
  · exact h
  · split at h
    · exact lookup_dropLast h
    · exact h

/-- After `put` another key has the value it had, or none. -/
theorem lookup_put {c : Lru κ ν} {k k' : κ} {v w : ν} (h : (c.put k v).lookup k' = some w) :
    k' = k ∧ w = v ∨ k' ≠ k ∧ c.lookup k' = some w := by
  by_cases hk : k' = k
  · subst hk
    rw [lookup_put_self, Option.some.injEq] at h
    exact Or.inl ⟨rfl, h.symm⟩
  · have hroom : (c.makeRoom k).lookup k' = some w := by
      rw [← AList.lookup_insert_ne hk]
      exact h
    exact Or.inr ⟨hk, lookup_makeRoom hroom⟩

@[simp] theorem lookup_clear (c : Lru κ ν) (k : κ) : c.clear.lookup k = none := rfl

@[simp] theorem cap_get (c : Lru κ ν) (k : κ) : (c.get k).2.cap = c.cap := by
  unfold get
  split <;> rfl

@[simp] theorem cap_pop (c : Lru κ ν) (k : κ) : (c.pop k).cap = c.cap := rfl

@[simp] theorem cap_put (c : Lru κ ν) (k : κ) (v : ν) : (c.put k v).cap = c.cap := rfl

omit [DecidableEq κ] in
@[simp] theorem cap_clear (c : Lru κ ν) : c.clear.cap = c.cap := rfl

/-! ## Recency -/

/-- The keys used more recently than `k`, if `k` is in the map. -/
def newer (c : Lru κ ν) (k : κ) : Finset κ :=
  c.entries.keys.toFinset.filter fun x => [x, k] <+ c.entries.keys

theorem mem_newer {c : Lru κ ν} {k x : κ} : x ∈ c.newer k ↔ [x, k] <+ c.entries.keys := by
  unfold newer
  rw [Finset.mem_filter, List.mem_toFinset]
  exact and_iff_right_of_imp fun h => h.subset List.mem_cons_self

theorem lookup_eq_none {c : Lru κ ν} {k : κ} : c.lookup k = none ↔ k ∉ c.entries.keys := by
  rw [← AList.mem_keys]
  exact AList.lookup_eq_none

/-- The keys behind one that is moved or put to the front stand in the order they stood in. -/
theorem newer_of_keys {c c' : Lru κ ν} {k : κ} {l : List κ} (hl : l <+ c.entries.keys)
    (hk : k ∉ l) (h : c'.entries.keys = k :: l) :
    c'.newer k = ∅ ∧ ∀ k' ≠ k, c'.newer k' ⊆ insert k (c.newer k') := by
  constructor
  · refine Finset.eq_empty_of_forall_notMem fun x hx => ?_
    rw [mem_newer, h, List.sublist_cons_iff] at hx
    obtain hx | ⟨r, hr, hx⟩ := hx
    · exact hk (hx.subset (by simp))
    · obtain ⟨-, rfl⟩ := List.cons.inj hr
      exact hk (hx.subset (by simp))
  · intro k' hk' x hx
    rw [mem_newer, h, List.sublist_cons_iff] at hx
    rw [Finset.mem_insert, mem_newer]
    obtain hx | ⟨r, hr, -⟩ := hx
    · exact Or.inr (hx.trans hl)
    · exact Or.inl (List.cons.inj hr).1

theorem keys_get {c : Lru κ ν} {k : κ} {v : ν} (h : c.lookup k = some v) :
    (c.get k).2.entries.keys = k :: c.entries.keys.erase k := by
  unfold get
  split
  · next hnone => exact absurd (h.symm.trans hnone) (by simp)
  · exact AList.keys_insert _

/-- The key of a hit is the newest, and newer than every other key. -/
theorem newer_get {c : Lru κ ν} {k : κ} {v : ν} (h : c.lookup k = some v) :
    (c.get k).2.newer k = ∅ ∧ ∀ k' ≠ k, (c.get k).2.newer k' ⊆ insert k (c.newer k') :=
  newer_of_keys (List.erase_sublist (l := c.entries.keys))
    (List.Nodup.not_mem_erase c.entries.keys_nodup) (keys_get h)

theorem keys_makeRoom (c : Lru κ ν) (k : κ) : (c.makeRoom k).keys <+ c.entries.keys := by
  unfold makeRoom
  split
  · exact List.Sublist.refl _
  · split
    · rw [keys_dropLast]
      exact List.dropLast_sublist _
    · exact List.Sublist.refl _

theorem newer_put (c : Lru κ ν) (k : κ) (v : ν) :
    (c.put k v).newer k = ∅ ∧ ∀ k' ≠ k, (c.put k v).newer k' ⊆ insert k (c.newer k') :=
  newer_of_keys ((List.erase_sublist (l := (c.makeRoom k).keys)).trans (c.keys_makeRoom k))
    (List.Nodup.not_mem_erase (c.makeRoom k).keys_nodup)
    (AList.keys_insert _)

theorem newer_pop (c : Lru κ ν) (k k' : κ) : (c.pop k).newer k' ⊆ c.newer k' := by
  intro x hx
  rw [mem_newer] at hx ⊢
  have hkeys : (c.pop k).entries.keys = c.entries.keys.erase k := AList.keys_erase _ _
  rw [hkeys] at hx
  exact hx.trans List.erase_sublist

theorem not_mem_newer_pop (c : Lru κ ν) (k k' : κ) : k ∉ (c.pop k).newer k' := by
  intro h
  have hkeys : (c.pop k).entries.keys = c.entries.keys.erase k := AList.keys_erase _ _
  rw [mem_newer, hkeys] at h
  exact List.Nodup.not_mem_erase c.entries.keys_nodup (h.subset List.mem_cons_self)

/-- A key that is used and taken out is in front of no key. -/
theorem newer_pop_get {c : Lru κ ν} {k k' : κ} {v : ν} (h : c.lookup k = some v) (hne : k' ≠ k) :
    ((c.get k).2.pop k).newer k' ⊆ c.newer k' := by
  intro x hx
  have hxk : x ≠ k := by
    rintro rfl
    exact not_mem_newer_pop _ _ _ hx
  have hget := (newer_get h).2 k' hne (newer_pop _ _ _ hx)
  exact (Finset.mem_insert.1 hget).resolve_left hxk

/-- The key that makes room is the last one of a full map. -/
theorem gone_makeRoom {c : Lru κ ν} {k k' : κ} (hin : k' ∈ c.entries.keys)
    (hout : k' ∉ (c.makeRoom k).keys) :
    k ∉ c.entries.keys ∧ c.len = c.cap ∧ ∃ init, c.entries.keys = init ++ [k'] := by
  unfold makeRoom at hout
  split at hout
  · exact absurd hin hout
  next hnew =>
  split at hout
  · next hfull =>
    refine ⟨fun hk => hnew (AList.mem_keys.2 hk), hfull, ?_⟩
    obtain ⟨init, last, hkeys⟩ := (List.eq_nil_or_concat' c.entries.keys).resolve_left
      (List.ne_nil_of_mem hin)
    rw [keys_dropLast, hkeys, List.dropLast_concat] at hout
    rw [hkeys, List.mem_append, List.mem_singleton] at hin
    obtain rfl := hin.resolve_left hout
    exact ⟨init, hkeys⟩
  · exact absurd hin hout

/-- Every other key is newer than the last one. -/
theorem newer_last {c : Lru κ ν} {k : κ} {init : List κ} (h : c.entries.keys = init ++ [k]) :
    init.toFinset ⊆ c.newer k := by
  intro x hx
  rw [mem_newer, h]
  exact (List.singleton_sublist.2 (List.mem_toFinset.1 hx)).append (List.Sublist.refl [k])

/-- A key is dropped only if, with the new key, as many keys are newer as the map has room for. -/
theorem cap_le_of_dropped {c : Lru κ ν} {k k' : κ} {v : ν} (hne : k' ≠ k)
    (h : c.lookup k' ≠ none) (h' : (c.put k v).lookup k' = none) :
    c.cap ≤ (insert k (c.newer k')).card := by
  have hin : k' ∈ c.entries.keys := by
    by_contra hno
    exact h (lookup_eq_none.2 hno)
  have hput : (c.put k v).entries.keys = k :: (c.makeRoom k).keys.erase k := AList.keys_insert _
  have hout : k' ∉ (c.makeRoom k).keys := by
    intro hroom
    refine lookup_eq_none.1 h' ?_
    rw [hput]
    exact List.mem_cons_of_mem k ((List.mem_erase_of_ne hne).2 hroom)
  obtain ⟨hnew, hfull, init, hkeys⟩ := gone_makeRoom hin hout
  have hnodup : (init ++ [k']).Nodup := hkeys ▸ c.entries.keys_nodup
  have hknew : k ∉ init.toFinset := by
    intro hk
    refine hnew ?_
    rw [hkeys]
    exact List.mem_append_left _ (List.mem_toFinset.1 hk)
  calc c.cap = init.length + 1 := by
        rw [← hfull, len, hkeys, List.length_append, List.length_singleton]
    _ = (insert k init.toFinset).card := by
        rw [Finset.card_insert_of_notMem hknew,
          List.toFinset_card_of_nodup (hnodup.sublist (List.sublist_append_left _ _))]
    _ ≤ (insert k (c.newer k')).card :=
        Finset.card_le_card (Finset.insert_subset_insert k (newer_last hkeys))

/-! ## How many entries there are -/

theorem len_get (c : Lru κ ν) (k : κ) : (c.get k).2.len = c.len := by
  unfold get
  split
  · rfl
  · next v h => exact length_keys_insert_of_mem (AList.lookup_isSome.1 (by rw [h]; rfl)) v

theorem len_pop {c : Lru κ ν} {k : κ} {v : ν} (h : c.lookup k = some v) :
    (c.pop k).len + 1 = c.len := by
  have hmem : k ∈ c.entries.keys := by
    by_contra hno
    rw [lookup_eq_none.2 hno] at h
    cases h
  have hpos := List.length_pos_of_mem hmem
  have hkeys : (c.pop k).entries.keys = c.entries.keys.erase k := AList.keys_erase _ _
  unfold len
  rw [hkeys, List.length_erase_of_mem hmem]
  omega

/-- The number of keys of one map that another one does not have. -/
def missing (c c' : Lru κ ν) : Nat := (c.entries.keys.toFinset \ c'.entries.keys.toFinset).card

theorem len_eq_card (c : Lru κ ν) : c.len = c.entries.keys.toFinset.card :=
  (List.toFinset_card_of_nodup c.entries.keys_nodup).symm

/-- A key that is put is there, and apart from it there are the keys of before, or some of them. -/
theorem len_put_add_missing (c : Lru κ ν) (k : κ) (v : ν) :
    (c.put k v).len + missing c (c.put k v) = if c.lookup k = none then c.len + 1 else c.len := by
  have hput : (c.put k v).entries.keys = k :: (c.makeRoom k).keys.erase k := AList.keys_insert _
  have hunion : c.entries.keys.toFinset ∪ (c.put k v).entries.keys.toFinset =
      insert k c.entries.keys.toFinset := by
    ext x
    rw [hput]
    simp only [Finset.mem_union, List.mem_toFinset, List.mem_cons, Finset.mem_insert]
    constructor
    · rintro (h | h | h)
      · exact Or.inr h
      · exact Or.inl h
      · exact Or.inr ((c.keys_makeRoom k).subset (List.mem_of_mem_erase h))
    · rintro (h | h)
      · exact Or.inr (Or.inl h)
      · exact Or.inl h
  have hcard := Finset.card_sdiff_add_card c.entries.keys.toFinset
    (c.put k v).entries.keys.toFinset
  rw [hunion, ← len_eq_card] at hcard
  unfold missing
  rw [Nat.add_comm, hcard]
  by_cases hk : c.lookup k = none
  · rw [if_pos hk, Finset.card_insert_of_notMem (by simpa using lookup_eq_none.1 hk), len_eq_card]
  · have hmem : k ∈ c.entries.keys.toFinset := by
      rw [List.mem_toFinset]
      by_contra hno
      exact hk (lookup_eq_none.2 hno)
    rw [if_neg hk, Finset.insert_eq_of_mem hmem, len_eq_card]

/-- A new key makes a full map lose one entry, and nothing else does. -/
theorem missing_put (c : Lru κ ν) (k : κ) (v : ν) :
    missing c (c.put k v) = if c.lookup k = none ∧ c.len = c.cap then 1 else 0 := by
  have hput : (c.put k v).entries.keys = k :: (c.makeRoom k).keys.erase k := AList.keys_insert _
  have hadd := c.len_put_add_missing k v
  have hlen : (c.put k v).len = ((c.makeRoom k).keys.erase k).length + 1 := by
    unfold len
    rw [hput, List.length_cons]
  have hpos := c.cap_pos
  by_cases hk : c.lookup k = none
  · have hnew : k ∉ c.entries := fun h => lookup_eq_none.1 hk (AList.mem_keys.1 h)
    have herase : (c.makeRoom k).keys.erase k = (c.makeRoom k).keys :=
      List.erase_of_not_mem fun h => lookup_eq_none.1 hk ((c.keys_makeRoom k).subset h)
    rw [if_pos hk] at hadd
    rw [herase] at hlen
    unfold makeRoom at hlen
    rw [if_neg hnew] at hlen
    by_cases hfull : c.len = c.cap
    · rw [if_pos hfull, keys_dropLast, List.length_dropLast] at hlen
      rw [if_pos ⟨hk, hfull⟩]
      unfold len at *
      omega
    · rw [if_neg hfull] at hlen
      rw [if_neg fun h => hfull h.2]
      unfold len at *
      omega
  · have hmem : k ∈ c.entries := by
      by_contra hno
      exact hk (lookup_eq_none.2 fun h => hno (AList.mem_keys.2 h))
    have hin := AList.mem_keys.1 hmem
    have hlenpos := List.length_pos_of_mem hin
    rw [if_neg hk] at hadd
    rw [if_neg fun h => hk h.1]
    unfold makeRoom at hlen
    rw [if_pos hmem, List.length_erase_of_mem hin] at hlen
    unfold len at *
    omega

end Lru

end VantaDns.Lib
