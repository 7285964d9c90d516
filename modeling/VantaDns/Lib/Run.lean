/-
  Runs of a machine that takes a state and an input to the next state.

  `Along step P s as`: `P` holds of every step of the run from `s` on the inputs `as`, of the
  state before the step and its input (`along_iff`). A run all of whose steps satisfy `C`
  keeps an invariant that steps with `C` keep, and satisfies along its way what follows from
  both (`Along.invariant`, `Along.of_invariant`). Where steps without `C` break a property,
  the runs with `C` are exactly those that have it throughout (`forall_prefix_iff_along`).

  `outputs step out s as`: what the steps of the run put out. Two machines put out the same
  on the same inputs if a relation of their states is kept (`outputs_eq`), and a part of the
  state that a step changes by what it puts out is a machine of its own (`foldl_outputs`).
-/
import Mathlib

namespace VantaDns.Lib

section Runs

variable {σ α : Type} {step : σ → α → σ} {P Q C : σ → α → Prop} {Inv : σ → Prop} {s : σ}
  {as bs : List α}

/-- `P` holds of every step of the run on a list of inputs. -/
def Along (step : σ → α → σ) (P : σ → α → Prop) : σ → List α → Prop
  | _, [] => True
  | s, a :: as => P s a ∧ Along step P (step s a) as

instance instDecidableAlong [∀ s a, Decidable (P s a)] : (s : σ) → (as : List α) → Decidable (Along step P s as)
  | _, [] => isTrue trivial
  | s, a :: as =>
    have := instDecidableAlong (step s a) as
    inferInstanceAs (Decidable (P s a ∧ Along step P (step s a) as))

theorem along_append :
    Along step P s (as ++ bs) ↔ Along step P s as ∧ Along step P (as.foldl step s) bs := by
  induction as generalizing s with
  | nil => exact ⟨fun h => ⟨trivial, h⟩, And.right⟩
  | cons a as ih =>
    rw [List.cons_append, Along, Along, ih, and_assoc]
    rfl

/-- Along a run means at each input, in the state that the inputs before it lead to. -/
theorem along_iff :
    Along step P s as ↔ ∀ pre a post, as = pre ++ a :: post → P (pre.foldl step s) a := by
  constructor
  · rintro h pre a post rfl
    exact (along_append.1 h).2.1
  · intro h
    induction as generalizing s with
    | nil => trivial
    | cons a as ih =>
      refine ⟨h [] a as rfl, ih ?_⟩
      intro pre a' post heq
      exact h (a :: pre) a' post (by rw [heq, List.cons_append])

theorem along_of_forall (h : ∀ s a, P s a) : Along step P s as := by
  induction as generalizing s with
  | nil => trivial
  | cons a as ih => exact ⟨h s a, ih⟩

theorem along_and :
    Along step (fun s a => P s a ∧ Q s a) s as ↔ Along step P s as ∧ Along step Q s as := by
  induction as generalizing s with
  | nil => exact ⟨fun _ => ⟨trivial, trivial⟩, fun _ => trivial⟩
  | cons a as ih =>
    rw [Along, Along, Along, ih]
    exact and_and_and_comm

theorem Along.mono (hPQ : ∀ s a, P s a → Q s a) (h : Along step P s as) : Along step Q s as := by
  induction as generalizing s with
  | nil => trivial
  | cons a as ih => exact ⟨hPQ s a h.1, ih h.2⟩

theorem along_of_mem (h : ∀ s, ∀ a ∈ as, P s a) : Along step P s as := by
  induction as generalizing s with
  | nil => trivial
  | cons a as ih =>
    exact ⟨h s a List.mem_cons_self, ih fun s a ha => h s a (List.mem_cons_of_mem _ ha)⟩

/-- What one step keeps a run keeps. -/
theorem Along.invariant (h0 : Inv s) (hstep : ∀ s a, Inv s → C s a → Inv (step s a))
    (h : Along step C s as) : Inv (as.foldl step s) := by
  induction as generalizing s with
  | nil => exact h0
  | cons a as ih => exact ih (hstep s a h0 h.1) h.2

/-- What one step from a good state does, and leads to good states, a run does all along. -/
theorem Along.of_invariant (h0 : Inv s) (hstep : ∀ s a, Inv s → C s a → Inv (step s a))
    (hP : ∀ s a, Inv s → C s a → P s a) (h : Along step C s as) : Along step P s as := by
  induction as generalizing s with
  | nil => trivial
  | cons a as ih => exact ⟨hP s a h0 h.1, ih (hstep s a h0 h.1) h.2⟩

/-- If, from good states, exactly the steps with `C` keep a property of states, then exactly the
    runs with `C` along them have it in every state. -/
theorem forall_prefix_iff_along {G : σ → Prop} (h0 : Inv s) (hG : G s)
    (hstep : ∀ s a, Inv s → Inv (step s a)) (hiff : ∀ s a, Inv s → G s → (G (step s a) ↔ C s a)) :
    (∀ pre, pre <+: as → G (pre.foldl step s)) ↔ Along step C s as := by
  induction as generalizing s with
  | nil =>
    refine iff_of_true ?_ trivial
    intro pre hpre
    rw [List.prefix_nil.1 hpre]
    exact hG
  | cons a as ih =>
    constructor
    · intro h
      have hnext : G (step s a) := h [a] (List.prefix_append [a] as)
      refine ⟨(hiff s a h0 hG).1 hnext, (ih (hstep s a h0) hnext).1 ?_⟩
      intro pre hpre
      exact h (a :: pre) (List.cons_prefix_cons.2 ⟨rfl, hpre⟩)
    · rintro ⟨hC, hrest⟩ pre hpre
      have hnext := (hiff s a h0 hG).2 hC
      cases pre with
      | nil => exact hG
      | cons a' pre =>
        obtain ⟨rfl, hpre'⟩ := List.cons_prefix_cons.1 hpre
        exact (ih (hstep s a' h0) hnext).2 hrest pre hpre'

/-! ## Outputs -/

section Outputs

variable {τ β : Type} {step' : τ → α → τ} {out : σ → α → List β} {out' : τ → α → List β}
  {R : σ → τ → Prop} {t : τ}

/-- What the steps of a run put out. -/
def outputs (step : σ → α → σ) (out : σ → α → List β) : σ → List α → List β
  | _, [] => []
  | s, a :: as => out s a ++ outputs step out (step s a) as

theorem outputs_append :
    outputs step out s (as ++ bs) = outputs step out s as ++ outputs step out (as.foldl step s) bs := by
  induction as generalizing s with
  | nil => rfl
  | cons a as ih =>
    rw [List.cons_append, outputs, outputs, ih, List.append_assoc]
    rfl

theorem outputs_concat {a : α} :
    outputs step out s (as ++ [a]) = outputs step out s as ++ out (as.foldl step s) a := by
  rw [outputs_append, outputs, outputs, List.append_nil]

/-- A relation of two states that their steps keep. -/
theorem Along.simulation (h0 : R s t) (hstep : ∀ s t a, R s t → C s a → R (step s a) (step' t a))
    (h : Along step C s as) : R (as.foldl step s) (as.foldl step' t) := by
  induction as generalizing s t with
  | nil => exact h0
  | cons a as ih => exact ih (hstep s t a h0 h.1) h.2

/-- Machines with a relation that is kept put out the same if they do from related states. -/
theorem outputs_eq (h0 : R s t) (hstep : ∀ s t a, R s t → C s a → R (step s a) (step' t a))
    (hout : ∀ s t a, R s t → C s a → out s a = out' t a) (h : Along step C s as) :
    outputs step out s as = outputs step' out' t as := by
  induction as generalizing s t with
  | nil => rfl
  | cons a as ih => rw [outputs, outputs, hout s t a h0 h.1, ih (hstep s t a h0 h.1) h.2]

/-- A part of the state that changes with what the steps put out. -/
theorem foldl_outputs {next : τ → β → τ} (part : σ → τ) (h0 : Inv s)
    (hinv : ∀ s a, Inv s → Inv (step s a))
    (hpart : ∀ s a, Inv s → part (step s a) = (out s a).foldl next (part s)) :
    part (as.foldl step s) = (outputs step out s as).foldl next (part s) := by
  induction as generalizing s with
  | nil => rfl
  | cons a as ih =>
    rw [outputs, List.foldl_append, ← hpart s a h0]
    exact ih (hinv s a h0)

end Outputs

end Runs

end VantaDns.Lib
