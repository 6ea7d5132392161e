import Mathlib.Logic.Function.Basic
import Mathlib.Tactic.SplitIfs

/-!
# Exclusive ownership

A stock of assets, of which some are free and some are in the hands of owners. `Exclusive` says that
nobody owns a free asset and nobody owns somebody else's. The owners are whoever can hold one: the
keys of a table, and the workers that carry an asset from one table to another.

There are three elementary moves. Assets may be *lost*, from the free ones or from an owner, which
is always harmless (`Exclusive.mono`); an asset nobody has may be *acquired* by an owner
(`Exclusive.acquire`), whose former asset is then lost, or be *reclaimed* as free
(`Exclusive.reclaim`). Everything a program does is one of their compositions: `take` an asset out
of the free ones, `move` it from owner to owner, `give` it back.
-/

namespace Ownership

variable {O A : Type*}

/-- Free and owned assets are within `bound`, and no asset is both free and owned, or owned
twice. -/
structure Exclusive (bound free : A → Prop) (owned : O → Option A) : Prop where
  bound_of_free : ∀ a, free a → bound a
  bound_of_owned : ∀ o a, owned o = some a → bound a
  not_free : ∀ o a, owned o = some a → ¬free a
  inj : ∀ o o' a, owned o = some a → owned o' = some a → o = o'

namespace Exclusive

variable {bound free free' : A → Prop} {owned owned' : O → Option A} {o o' : O} {a : A}

/-- **Losing is harmless.** -/
theorem mono (h : Exclusive bound free owned) (hfree : ∀ x, free' x → free x)
    (howned : ∀ o x, owned' o = some x → owned o = some x) : Exclusive bound free' owned' where
  bound_of_free x hx := h.bound_of_free x (hfree x hx)
  bound_of_owned o x hx := h.bound_of_owned o x (howned o x hx)
  not_free o x hx hx' := h.not_free o x (howned o x hx) (hfree x hx')
  inj o o' x hx hx' := h.inj o o' x (howned o x hx) (howned o' x hx')

/-- **Reclaiming an asset nobody has.** -/
theorem reclaim (h : Exclusive bound free owned) (hb : bound a) (hno : ∀ o, owned o ≠ some a)
    (hfree : ∀ x, free' x ↔ free x ∨ x = a) : Exclusive bound free' owned where
  bound_of_free x hx := by
    rcases (hfree x).1 hx with hx | rfl
    · exact h.bound_of_free x hx
    · exact hb
  bound_of_owned := h.bound_of_owned
  not_free o x hx hx' := by
    rcases (hfree x).1 hx' with hx' | rfl
    · exact h.not_free o x hx hx'
    · exact hno o hx
  inj := h.inj

variable [DecidableEq O]

/-- An owner that gives up what it has. -/
theorem owned_of_update_none {x : A} (hx : Function.update owned o none o' = some x) :
    owned o' = some x ∧ o' ≠ o := by
  rw [Function.update_apply] at hx
  split_ifs at hx with ho
  exact ⟨hx, ho⟩

theorem drop (h : Exclusive bound free owned) (o : O) :
    Exclusive bound free (Function.update owned o none) :=
  h.mono (fun _ hx ↦ hx) fun _ _ hx ↦ (owned_of_update_none hx).1

/-- **Acquiring an asset nobody has.** -/
theorem acquire (h : Exclusive bound free owned) (hb : bound a) (hno : ∀ o, owned o ≠ some a)
    (hfree : ¬free a) (o : O) : Exclusive bound free (Function.update owned o (some a)) := by
  -- an owner holds either the new asset, and is `o`, or what it held before
  have hcases : ∀ p x, Function.update owned o (some a) p = some x →
      p = o ∧ x = a ∨ p ≠ o ∧ owned p = some x := by
    intro p x hx
    rw [Function.update_apply] at hx
    split_ifs at hx with hp
    · exact Or.inl ⟨hp, (Option.some.inj hx).symm⟩
    · exact Or.inr ⟨hp, hx⟩
  refine ⟨h.bound_of_free, fun p x hx ↦ ?_, fun p x hx ↦ ?_, fun p q x hx hx' ↦ ?_⟩
  · rcases hcases p x hx with ⟨-, rfl⟩ | ⟨-, hx⟩
    · exact hb
    · exact h.bound_of_owned p x hx
  · rcases hcases p x hx with ⟨-, rfl⟩ | ⟨-, hx⟩
    · exact hfree
    · exact h.not_free p x hx
  · rcases hcases p x hx with ⟨hp, rfl⟩ | ⟨-, hpx⟩
    · rcases hcases q x hx' with ⟨hq, -⟩ | ⟨-, hqx⟩
      · exact hp.trans hq.symm
      · exact absurd hqx (hno q)
    · rcases hcases q x hx' with ⟨-, rfl⟩ | ⟨-, hqx⟩
      · exact absurd hpx (hno p)
      · exact h.inj p q x hpx hqx

/-- **Taking an asset out of the free ones.** -/
theorem take (h : Exclusive bound free owned) (ha : free a)
    (hfree : ∀ x, free' x ↔ free x ∧ x ≠ a) (o : O) :
    Exclusive bound free' (Function.update owned o (some a)) := by
  have hrest : Exclusive bound free' owned :=
    h.mono (fun x hx ↦ ((hfree x).1 hx).1) fun _ _ hx ↦ hx
  exact hrest.acquire (h.bound_of_free a ha) (fun p hp ↦ h.not_free p a hp ha)
    (fun ha' ↦ ((hfree a).1 ha').2 rfl) o

/-- After `o` gives up `a`, nobody has it. -/
theorem update_none_ne (h : Exclusive bound free owned) (ho : owned o = some a) (p : O) :
    Function.update owned o none p ≠ some a := fun hp ↦
  (owned_of_update_none hp).2 (h.inj p o a (owned_of_update_none hp).1 ho)

/-- **Giving an asset back.** -/
theorem give (h : Exclusive bound free owned) (ho : owned o = some a)
    (hfree : ∀ x, free' x ↔ free x ∨ x = a) :
    Exclusive bound free' (Function.update owned o none) :=
  (h.drop o).reclaim (h.bound_of_owned o a ho) (h.update_none_ne ho) hfree

/-- **Moving an asset from one owner to another.** What the other one had is lost. -/
theorem move (h : Exclusive bound free owned) (ho : owned o = some a) (o' : O) :
    Exclusive bound free (Function.update (Function.update owned o none) o' (some a)) :=
  (h.drop o).acquire (h.bound_of_owned o a ho) (h.update_none_ne ho) (h.not_free o a ho) o'

end Exclusive

end Ownership
