/-
  A list cut into chunks by a budget: the loop that collects items until their sizes reach
  `maxSize`, and then begins the next chunk.

  `flatten_chunkLoop`: the chunks are the list, in order and without loss. The loop makes as
  many chunks as can be made: `lt_length_chunkLoop_iff` says that there are more than `k`
  exactly if `k` segments that reach `maxSize` can be cut off the list, and something is left.
-/
import Mathlib

namespace VantaDns.Lib

section Chunks

variable {α : Type} {size : α → Nat} {maxSize : Nat} {cur xs : List α} {n k : Nat}

/-- The chunks of a list, with the chunk that is being collected and its size so far. -/
def chunkLoop (size : α → Nat) (maxSize : Nat) : (cur : List α) → (n : Nat) → List α → List (List α)
  | [], _, [] => []
  | x :: cur, _, [] => [x :: cur]
  | cur, n, x :: xs =>
      if maxSize ≤ n + size x then (cur ++ [x]) :: chunkLoop size maxSize [] 0 xs
      else chunkLoop size maxSize (cur ++ [x]) (n + size x) xs

def total (size : α → Nat) (xs : List α) : Nat := (xs.map size).sum

theorem total_append (xs ys : List α) : total size (xs ++ ys) = total size xs + total size ys := by
  unfold total
  rw [List.map_append, List.sum_append]

theorem flatten_chunkLoop : (chunkLoop size maxSize cur n xs).flatten = cur ++ xs := by
  induction xs generalizing cur n with
  | nil => cases cur <;> simp [chunkLoop]
  | cons x xs ih =>
    rw [chunkLoop]
    split
    · rw [List.flatten_cons, ih, List.nil_append, List.append_assoc, List.singleton_append]
    · rw [ih, List.append_assoc, List.singleton_append]

/-- That many segments that reach `maxSize` can be cut off the list, and something is left. -/
def Cuttable (size : α → Nat) (maxSize k : Nat) (xs : List α) : Prop :=
  ∃ segments rest, xs = List.flatten segments ++ rest ∧ segments.length = k ∧
    (∀ segment ∈ segments, maxSize ≤ total size segment) ∧ rest ≠ []

theorem cuttable_zero : Cuttable size maxSize 0 xs ↔ xs ≠ [] := by
  constructor
  · intro h
    obtain ⟨segments, rest, rfl, hlen, -, hrest⟩ := h
    rw [List.length_eq_zero_iff.1 hlen]
    exact hrest
  · intro h
    exact ⟨[], xs, rfl, rfl, nofun, h⟩

theorem total_replicate (n : Nat) (x : α) : total size (List.replicate n x) = n * size x := by
  unfold total
  rw [List.map_replicate, List.sum_replicate, smul_eq_mul]

/-- Segments of one item repeated. -/
theorem cuttable_replicate {x : α} {rest : List α} (hx : maxSize ≤ n * size x) (hrest : rest ≠ [])
    (k : Nat) : Cuttable size maxSize k (List.replicate (k * n) x ++ rest) := by
  refine ⟨List.replicate k (List.replicate n x), rest, ?_, List.length_replicate, ?_, hrest⟩
  · rw [List.flatten_replicate_replicate]
  · intro segment hsegment
    rw [List.eq_of_mem_replicate hsegment, total_replicate]
    exact hx

/-- What does not reach `maxSize` as a whole has no segment that does. -/
theorem not_cuttable (h : total size xs < maxSize) : ¬ Cuttable size maxSize (k + 1) xs := by
  intro h
  obtain ⟨segments, rest, rfl, hlen, hfull, -⟩ := h
  obtain ⟨segment, segments, rfl⟩ := List.exists_cons_of_length_eq_add_one hlen
  have hreach := hfull segment List.mem_cons_self
  rw [List.flatten_cons, total_append, total_append] at h
  omega

/-- A first segment reaches at least as far as the items that reach `maxSize` with the last one
    of them. -/
theorem cuttable_succ {x : α} (hcur : total size cur < maxSize)
    (hfull : maxSize ≤ total size (cur ++ [x])) :
    Cuttable size maxSize (k + 1) (cur ++ x :: xs) ↔ Cuttable size maxSize k xs := by
  constructor
  · intro h
    obtain ⟨segments, rest, heq, hlen, hall, hrest⟩ := h
    obtain ⟨segment, segments, rfl⟩ := List.exists_cons_of_length_eq_add_one hlen
    have hsegment := hall segment List.mem_cons_self
    have htail : ∀ s ∈ segments, maxSize ≤ total size s := fun s hs =>
      hall s (List.mem_cons_of_mem segment hs)
    rw [List.length_cons, Nat.add_right_cancel_iff] at hlen
    rw [List.flatten_cons, List.append_assoc] at heq
    rcases List.append_eq_append_iff.1 heq with ⟨d, hseg, hxs⟩ | ⟨d, hc, -⟩
    · cases d with
      | nil =>
        rw [List.append_nil] at hseg
        rw [hseg] at hsegment
        omega
      | cons y d =>
        rw [List.cons_append, List.cons.injEq] at hxs
        -- what the first segment holds behind `x` goes to the next one, or is left
        cases segments with
        | nil =>
          obtain rfl : 0 = k := hlen
          rw [cuttable_zero, hxs.2, List.flatten_nil, List.nil_append]
          simp [hrest]
        | cons s segments =>
          refine ⟨(d ++ s) :: segments, rest, ?_, hlen, ?_, hrest⟩
          · rw [hxs.2, List.flatten_cons, List.flatten_cons]
            simp only [List.append_assoc]
          · intro s' hs'
            rcases List.mem_cons.1 hs' with rfl | hs'
            · rw [total_append]
              exact (htail s List.mem_cons_self).trans (Nat.le_add_left _ _)
            · exact htail s' (List.mem_cons_of_mem s hs')
    · rw [hc, total_append] at hcur
      omega
  · intro h
    obtain ⟨segments, rest, rfl, hlen, hall, hrest⟩ := h
    refine ⟨(cur ++ [x]) :: segments, rest, ?_, ?_, ?_, hrest⟩
    · rw [List.flatten_cons, List.append_assoc, List.append_assoc]
      rfl
    · rw [List.length_cons, hlen]
    · intro s hs
      rcases List.mem_cons.1 hs with rfl | hs
      · exact hfull
      · exact hall s hs

/-- The loop cuts off as many chunks as possible. -/
theorem lt_length_chunkLoop_iff (hcur : total size cur < maxSize) :
    k < (chunkLoop size maxSize cur (total size cur) xs).length ↔
      Cuttable size maxSize k (cur ++ xs) := by
  induction xs generalizing cur k with
  | nil =>
    rw [List.append_nil]
    cases k with
    | zero =>
      rw [cuttable_zero]
      cases cur <;> simp [chunkLoop]
    | succ k =>
      refine iff_of_false ?_ (not_cuttable hcur)
      cases cur <;> simp [chunkLoop]
  | cons x xs ih =>
    have hsum : total size cur + size x = total size (cur ++ [x]) := by
      rw [total_append]
      simp [total]
    rw [chunkLoop, hsum]
    split
    · next hfull =>
      have hpos : total size ([] : List α) < maxSize := (Nat.zero_le _).trans_lt hcur
      cases k with
      | zero =>
        rw [cuttable_zero]
        simp
      | succ k =>
        rw [cuttable_succ hcur hfull, List.length_cons, Nat.add_lt_add_iff_right]
        exact ih hpos
    · next hnot =>
      rw [ih (Nat.lt_of_not_le hnot), List.append_assoc, List.singleton_append]

end Chunks

end VantaDns.Lib
