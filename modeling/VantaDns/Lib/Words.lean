/-
  The words of a text: what stands between the characters of a class, without the empty pieces.
-/
import Mathlib.Data.List.Basic

namespace VantaDns.Lib.Words

variable {α : Type*} {p : α → Bool}

def words (p : α → Bool) (s : List α) : List (List α) := (s.splitOnP p).filter fun w => !w.isEmpty

theorem words_append_left {w : List α} (hw : ∀ c ∈ w, p c = true) (s : List α) :
    words p (w ++ s) = words p s := by
  induction w with
  | nil => rfl
  | cons c w ih =>
    have hrest := ih fun d hd => hw d (List.mem_cons_of_mem c hd)
    unfold words at hrest ⊢
    rw [List.cons_append, ← List.nil_append (c :: (w ++ s)),
      List.splitOnP_append_cons [] (w ++ s) (hw c List.mem_cons_self), List.splitOnP_nil,
      List.filter_append, hrest]
    rfl

theorem words_word {s : List α} (hne : s ≠ []) (h : ∀ c ∈ s, p c = false) : words p s = [s] := by
  unfold words
  rw [List.splitOnP_eq_singleton h]
  simp [hne]

theorem words_cons {s : List α} (hne : s ≠ []) (h : ∀ c ∈ s, p c = false) {c : α}
    (hc : p c = true) (t : List α) : words p (s ++ c :: t) = s :: words p t := by
  unfold words
  rw [List.splitOnP_append_cons s t hc, List.splitOnP_eq_singleton h, List.filter_append]
  simp [hne]

/-- The pieces of a text are made of its characters, without the separators. -/
theorem mem_of_mem_splitOnP {s w : List α} (hw : w ∈ s.splitOnP p) :
    ∀ c ∈ w, c ∈ s ∧ p c = false := by
  induction s generalizing w with
  | nil =>
    rw [List.splitOnP_nil, List.mem_singleton] at hw
    rw [hw]
    exact fun _ hc => absurd hc List.not_mem_nil
  | cons x s ih =>
    have hrest : ∀ {v}, v ∈ s.splitOnP p → ∀ c ∈ v, c ∈ x :: s ∧ p c = false :=
      fun hv c hc => (ih hv c hc).imp_left (List.mem_cons_of_mem x)
    rw [List.splitOnP_cons_eq_if_modifyHead] at hw
    split at hw
    · obtain rfl | hw := List.mem_cons.1 hw
      · exact fun _ hc => absurd hc List.not_mem_nil
      · exact hrest hw
    · next hx =>
      obtain ⟨v, vs, hs⟩ := List.exists_cons_of_ne_nil (List.splitOnP_ne_nil p s)
      rw [hs, List.modifyHead_cons] at hw
      rw [hs] at hrest
      obtain rfl | hw := List.mem_cons.1 hw
      · intro c hc
        obtain rfl | hc := List.mem_cons.1 hc
        · exact ⟨List.mem_cons_self, Bool.eq_false_iff.2 hx⟩
        · exact hrest List.mem_cons_self c hc
      · exact hrest (List.mem_cons_of_mem v hw)

theorem mem_of_mem_words {s w : List α} (hw : w ∈ words p s) : ∀ c ∈ w, c ∈ s ∧ p c = false :=
  mem_of_mem_splitOnP (List.mem_of_mem_filter hw)

end VantaDns.Lib.Words
