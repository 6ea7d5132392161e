import Mathlib.Data.List.Basic

/-!
# Machines with outputs, and what an observer sees of them

A sequential component whose calls return something: `f s a` is the state after the call `a` and
what it returns. `outputs f s as` pairs the calls of a sequence with their results, and `final` is
the state they lead to.

The one rule, `Simulation.outputs_eq`, compares two machines where the second makes only the
**visible** calls of the first. The relation between their states may speak of the calls that are
still to come, so that an assumption on the sequence can be carried along. Read with the same
machine on both sides it says that the other calls cannot be noticed; read with a smaller machine it
says that a part of the state evolves by itself.
-/

namespace Mealy

variable {σ τ α β : Type*}

/-- The calls of a sequence, each with what it returns. -/
def outputs (f : σ → α → σ × β) (s : σ) : List α → List (α × β)
  | [] => []
  | a :: as => (a, (f s a).2) :: outputs f (f s a).1 as

/-- The state after the calls of a sequence. -/
def final (f : σ → α → σ × β) (s : σ) (as : List α) : σ := as.foldl (fun s a ↦ (f s a).1) s

/-- A machine `g` that follows what can be seen of `f`. `R as s t` relates their states when `f` has
the calls `as` still to make. -/
structure Simulation (f : σ → α → σ × β) (g : τ → α → τ × β) (visible : α → Bool)
    (R : List α → σ → τ → Prop) : Prop where
  hidden : ∀ {a as s t}, R (a :: as) s t → visible a = false → R as (f s a).1 t
  result : ∀ {a as s t}, R (a :: as) s t → visible a = true → (f s a).2 = (g t a).2
  step : ∀ {a as s t}, R (a :: as) s t → visible a = true → R as (f s a).1 (g t a).1

namespace Simulation

variable {f : σ → α → σ × β} {g : τ → α → τ × β} {visible : α → Bool}
  {R : List α → σ → τ → Prop}

/-- **The visible results of a run are the results of the visible calls.** -/
theorem outputs_eq (h : Simulation f g visible R) {as : List α} {s : σ} {t : τ} (hR : R as s t) :
    (outputs f s as).filter (fun p ↦ visible p.1) = outputs g t (as.filter visible) := by
  induction as generalizing s t with
  | nil => rfl
  | cons a as ih =>
    rcases hv : visible a with - | -
    · simpa [outputs, hv] using ih (h.hidden hR hv)
    · have hres := h.result hR hv
      simpa [outputs, hv, hres] using ih (h.step hR hv)

/-- The states stay related to the end. -/
theorem final_rel (h : Simulation f g visible R) {as : List α} {s : σ} {t : τ} (hR : R as s t) :
    R [] (final f s as) (final g t (as.filter visible)) := by
  induction as generalizing s t with
  | nil => exact hR
  | cons a as ih =>
    rcases hv : visible a with - | -
    · rw [List.filter_cons_of_neg (by simp [hv])]
      exact ih (h.hidden hR hv)
    · rw [List.filter_cons_of_pos hv]
      exact ih (h.step hR hv)

end Simulation

end Mealy
