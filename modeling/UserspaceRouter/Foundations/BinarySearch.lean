import Mathlib.Data.List.Basic

/-!
# The partition point of a list

`partitionPoint` is a binary search for the place where a test that passes at first begins to fail.
The search halves an interval of indices until one index is left, and looks at that one.

**On order.** The result is the length of the passing part if the list is one: elements that pass,
followed by elements that fail (`partitionPoint_append`). Of any other list the search returns some
place or other, but never a wrong one for its neighbours: the element before it passes, and the
element at it fails (`partitionPoint_spec`). Callers that keep their list in order only as long as
their own callers behave have that much, whatever happens.
-/

namespace BinarySearch

variable {α : Type*} (p : α → Bool) (l : List α)

/-- Whether there is an element at the index, and it passes. -/
def passes (i : ℕ) : Bool := l[i]?.any p

/-- The loop of the search, in the interval of `size` indices from `base` on. Each turn takes away
half of the interval, so fuel for as many turns as it has indices is enough. -/
def search : ℕ → ℕ → ℕ → ℕ
  | 0, base, _ => base
  | fuel + 1, base, size =>
    if 1 < size then
      let half := size / 2
      let mid := base + half
      search fuel (if passes p l mid then mid else base) (size - half)
    else base

/-- `slice::partition_point`. -/
def partitionPoint : ℕ :=
  if l.length = 0 then 0
  else
    let base := search p l l.length 0 l.length
    if passes p l base then base + 1 else base

variable {p l}

/-- What is known of the interval: it is in the list, its first index is 0 or passes, and it ends
with the list, or next to an index that fails. The last index that was tried may still be in it, but
not as the only one. -/
structure Bounds (p : α → Bool) (l : List α) (base size : ℕ) : Prop where
  pos : 0 < size
  le : base + size ≤ l.length
  first : base = 0 ∨ passes p l base = true
  last : base + size = l.length ∨ passes p l (base + size) = false ∨
    1 < size ∧ passes p l (base + size - 1) = false

/-- One turn of the loop. -/
theorem Bounds.step {base size : ℕ} (h : Bounds p l base size) (hsize : 1 < size) :
    Bounds p l (if passes p l (base + size / 2) then base + size / 2 else base)
      (size - size / 2) := by
  have hle := h.le
  rcases hmid : passes p l (base + size / 2) with - | -
  · -- the upper half goes, and with an odd size the middle stays
    rw [if_neg Bool.false_ne_true]
    refine ⟨by omega, by omega, h.first, ?_⟩
    by_cases heven : size % 2 = 0
    · refine Or.inr (Or.inl ?_)
      rwa [show base + (size - size / 2) = base + size / 2 by omega]
    · refine Or.inr (Or.inr ⟨by omega, ?_⟩)
      rwa [show base + (size - size / 2) - 1 = base + size / 2 by omega]
  · -- the lower half goes, and the interval ends where it did
    rw [if_pos rfl]
    have hend : base + size / 2 + (size - size / 2) = base + size := by omega
    refine ⟨by omega, by omega, Or.inr hmid, ?_⟩
    rw [hend]
    rcases h.last with hlast | hlast | ⟨-, hlast⟩
    · exact Or.inl hlast
    · exact Or.inr (Or.inl hlast)
    · refine Or.inr (Or.inr ⟨?_, hlast⟩)
      -- an interval of two would end with the middle
      by_contra hone
      rw [show base + size - 1 = base + size / 2 by omega, hmid] at hlast
      cases hlast

/-- The loop ends with one index. -/
theorem Bounds.search {fuel base size : ℕ} (h : Bounds p l base size) (hfuel : size ≤ fuel) :
    Bounds p l (search p l fuel base size) 1 := by
  induction fuel generalizing base size with
  | zero => exact absurd h.pos (by omega)
  | succ fuel ih =>
    rw [BinarySearch.search]
    by_cases hsize : 1 < size
    · rw [if_pos hsize]
      exact ih (h.step hsize) (by omega)
    · rw [if_neg hsize]
      have hpos := h.pos
      rwa [show size = 1 by omega] at h

/-- **What the search returns**, of any list. -/
theorem partitionPoint_spec (p : α → Bool) (l : List α) :
    partitionPoint p l ≤ l.length ∧
      (∀ i, partitionPoint p l = i + 1 → passes p l i = true) ∧
      passes p l (partitionPoint p l) = false := by
  unfold partitionPoint
  by_cases hnil : l.length = 0
  · rw [if_pos hnil]
    refine ⟨Nat.zero_le _, nofun, ?_⟩
    rw [passes, List.length_eq_zero_iff.1 hnil]
    rfl
  rw [if_neg hnil]
  have hbounds : Bounds p l (search p l l.length 0 l.length) 1 :=
    Bounds.search ⟨by omega, by omega, Or.inl rfl, Or.inl (by omega)⟩ (Nat.le_refl _)
  generalize search p l l.length 0 l.length = base at hbounds ⊢
  dsimp only
  have hle := hbounds.le
  rcases hbase : passes p l base with - | -
  · rw [if_neg Bool.false_ne_true]
    refine ⟨by omega, fun i hi ↦ ?_, hbase⟩
    rcases hbounds.first with rfl | hfirst
    · cases hi
    · rw [hbase] at hfirst
      cases hfirst
  · rw [if_pos rfl]
    refine ⟨hle, fun i hi ↦ by rwa [← Nat.succ.inj hi], ?_⟩
    rcases hbounds.last with hlast | hlast | ⟨hone, -⟩
    · rw [hlast, passes, List.getElem?_eq_none (Nat.le_refl _)]
      rfl
    · exact hlast
    · omega

/-- The search finds where the passing part ends. -/
theorem partitionPoint_append {l₁ l₂ : List α} (h₁ : ∀ x ∈ l₁, p x = true)
    (h₂ : ∀ x ∈ l₂, p x = false) : partitionPoint p (l₁ ++ l₂) = l₁.length := by
  obtain ⟨hle, hbefore, hat⟩ := partitionPoint_spec p (l₁ ++ l₂)
  have hpasses : ∀ i, i < l₁.length → passes p (l₁ ++ l₂) i = true := by
    intro i hi
    rw [passes, List.getElem?_append_left hi, List.getElem?_eq_getElem hi]
    exact h₁ _ (List.getElem_mem hi)
  have hfails : ∀ i, l₁.length ≤ i → passes p (l₁ ++ l₂) i = false := by
    intro i hi
    rw [passes, List.getElem?_append_right hi, Option.any_eq_false]
    exact fun x hx ↦ by rw [h₂ x (List.mem_of_getElem? hx)]
  rcases Nat.lt_trichotomy (partitionPoint p (l₁ ++ l₂)) l₁.length with hlt | heq | hgt
  · rw [hpasses _ hlt] at hat
    cases hat
  · exact heq
  · have hpred := hbefore (partitionPoint p (l₁ ++ l₂) - 1) (by omega)
    rw [hfails _ (by omega)] at hpred
    cases hpred

end BinarySearch
