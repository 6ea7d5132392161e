import Mathlib.Data.List.Basic

/-!
# Iterators that are pulled

An iterator is a state and a call `next`, which returns an item or says that there is none, and
leaves a new state. The call may also fail, which is `none`; being exhausted is not a failure.

`Yields next s as` says what a loop over the iterator sees: it is handed the items `as`, one after
the other, and then told that there are no more. So it says that no call fails, and that the loop
ends. `exists_yields` gives this for an iterator that consumes something with every item it returns.
Nothing is said of calls after the first one that returned no item.
-/

namespace PullIterator

variable {σ α : Type*} {next : σ → Option (Option α × σ)}

/-- A loop over the iterator is handed these items. -/
inductive Yields (next : σ → Option (Option α × σ)) : σ → List α → Prop
  | nil {s t : σ} : next s = some (none, t) → Yields next s []
  | cons {s t : σ} {a : α} {as : List α} :
      next s = some (some a, t) → Yields next t as → Yields next s (a :: as)

/-- **Iteration ends** if no call fails and each item is paid for. -/
theorem exists_yields (m : σ → ℕ) (hnext : ∀ s, (next s).isSome)
    (hpaid : ∀ s a t, next s = some (some a, t) → m t < m s) (s : σ) :
    ∃ as, Yields next s as ∧ as.length ≤ m s := by
  induction hm : m s using Nat.strongRecOn generalizing s with
  | ind n ih =>
    subst hm
    obtain ⟨⟨o, t⟩, hs⟩ := Option.isSome_iff_exists.1 (hnext s)
    cases o with
    | none => exact ⟨[], .nil hs, Nat.zero_le _⟩
    | some a =>
      have hlt := hpaid s a t hs
      obtain ⟨as, has, hlen⟩ := ih (m t) hlt t rfl
      exact ⟨a :: as, .cons hs has, Nat.lt_of_le_of_lt hlen hlt⟩

end PullIterator
