import Mathlib.Data.List.InsertIdx
import Mathlib.Data.Nat.Bitwise

/-!
# Operations that check their arguments

Arithmetic that must not overflow and indices that must be in range, as partial functions: `none` is
the failed check. Code that is modelled with wrapping operations and total lookups is compared with
the same code over these; where the two agree, no check fails.
-/

namespace Checked

/-! ### Arithmetic -/

def add32 (a b : UInt32) : Option UInt32 :=
  if a.toNat + b.toNat < 2 ^ 32 then some (a + b) else none

def sub32 (a b : UInt32) : Option UInt32 := if b.toNat ≤ a.toNat then some (a - b) else none

def add64 (a b : UInt64) : Option UInt64 :=
  if a.toNat + b.toNat < 2 ^ 64 then some (a + b) else none

def sub64 (a b : UInt64) : Option UInt64 := if b.toNat ≤ a.toNat then some (a - b) else none

theorem add32_eq {a b : UInt32} (h : a.toNat + b.toNat < 2 ^ 32) : add32 a b = some (a + b) :=
  if_pos h

theorem sub32_eq {a b : UInt32} (h : b.toNat ≤ a.toNat) : sub32 a b = some (a - b) := if_pos h

theorem add64_eq {a b : UInt64} (h : a.toNat + b.toNat < 2 ^ 64) : add64 a b = some (a + b) :=
  if_pos h

theorem sub64_eq {a b : UInt64} (h : b.toNat ≤ a.toNat) : sub64 a b = some (a - b) := if_pos h

/-! ### Lists -/

variable {α : Type*}

/-- Overwrite the element at an index. -/
def store (l : List α) (i : ℕ) (x : α) : Option (List α) :=
  if i < l.length then some (l.set i x) else none

/-- Remove the element at an index. -/
def remove (l : List α) (i : ℕ) : Option (List α) :=
  if i < l.length then some (l.eraseIdx i) else none

/-- Insert an element in front of the one at an index, or at the end. -/
def insert (l : List α) (i : ℕ) (x : α) : Option (List α) :=
  if i ≤ l.length then some (l.insertIdx i x) else none

theorem store_eq {l : List α} {i : ℕ} (h : i < l.length) (x : α) : store l i x = some (l.set i x) :=
  if_pos h

theorem remove_eq {l : List α} {i : ℕ} (h : i < l.length) : remove l i = some (l.eraseIdx i) :=
  if_pos h

theorem insert_eq {l : List α} {i : ℕ} (h : i ≤ l.length) (x : α) :
    insert l i x = some (l.insertIdx i x) :=
  if_pos h

end Checked
