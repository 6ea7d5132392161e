import Mathlib.Data.Nat.Notation
import Mathlib.Tactic.SplitIfs

/-!
# Bitmask

Which items of a pool are in use: one bit an item, packed into 32-bit words. Every operation asserts
that the index is below the size; `none` is the failed assertion, or a word that is not there.

To the words corresponds the set of the bits that are set (`used`). Reading, setting and clearing
are membership, insertion and removal, for every index that passes the assertion (`isSet_eq`,
`exists_set`, `exists_clear`).
-/

namespace UserspaceRouter

/-- `Bitmask`, with as many words as `new` allocates. -/
structure Bitmask where
  size : ℕ
  bits : List UInt32
  length_bits : bits.length = (size + 31) / 32

namespace Bitmask

def new (size : ℕ) : Bitmask where
  size := size
  bits := List.replicate ((size + 31) / 32) 0
  length_bits := List.length_replicate

/-- `1 << bit`, of the bit that an index has in its word. -/
def mask (idx : ℕ) : UInt32 := 1 <<< UInt32.ofNat (idx % 32)

def isSet (b : Bitmask) (idx : ℕ) : Option Bool :=
  if idx < b.size then b.bits[idx / 32]?.map fun w ↦ w &&& mask idx != 0 else none

/-- Another word in place of the one at `k`. -/
def replaceWord (b : Bitmask) (k : ℕ) (w : UInt32) : Bitmask where
  size := b.size
  bits := b.bits.set k w
  length_bits := by rw [List.length_set, b.length_bits]

/-- `set` and `clear` replace the word of the index. -/
def modify (b : Bitmask) (idx : ℕ) (f : UInt32 → UInt32) : Option Bitmask :=
  if idx < b.size then b.bits[idx / 32]?.map fun w ↦ b.replaceWord (idx / 32) (f w) else none

def set (b : Bitmask) (idx : ℕ) : Option Bitmask := b.modify idx fun w ↦ w ||| mask idx

def clear (b : Bitmask) (idx : ℕ) : Option Bitmask := b.modify idx fun w ↦ w &&& ~~~mask idx

/-! ### Bits of a word -/

theorem toBitVec_mask (idx : ℕ) : (mask idx).toBitVec = BitVec.twoPow 32 (idx % 32) := by
  have hall : ∀ k : Fin 32, ((1 : UInt32) <<< UInt32.ofNat k.val).toBitVec =
      BitVec.twoPow 32 k.val := by
    decide
  exact hall ⟨idx % 32, Nat.mod_lt _ (by decide)⟩

theorem and_mask (w : UInt32) (idx : ℕ) :
    (w &&& mask idx != 0) = w.toBitVec.getLsbD (idx % 32) := by
  have hlt : idx % 32 < 32 := Nat.mod_lt _ (by decide)
  have hzero : (w &&& mask idx = 0) ↔ w.toBitVec &&& BitVec.twoPow 32 (idx % 32) = 0#32 := by
    rw [← UInt32.toBitVec_inj, UInt32.toBitVec_and, toBitVec_mask]
    rfl
  have hpos : BitVec.twoPow 32 (idx % 32) ≠ 0#32 := by
    intro h
    have hbit := congrArg (fun x ↦ x.getLsbD (idx % 32)) h
    simp [hlt] at hbit
  rw [BitVec.and_twoPow] at hzero
  rcases hbit : w.toBitVec.getLsbD (idx % 32) with - | -
  · rw [hbit] at hzero
    simpa using hzero.2 rfl
  · rw [hbit] at hzero
    simpa using fun h ↦ hpos (hzero.1 h)

theorem getLsbD_or_mask (w : UInt32) (idx k : ℕ) :
    (w ||| mask idx).toBitVec.getLsbD k = (w.toBitVec.getLsbD k || decide (k = idx % 32)) := by
  have hlt : idx % 32 < 32 := Nat.mod_lt _ (by decide)
  rw [UInt32.toBitVec_or, toBitVec_mask, BitVec.getLsbD_or, BitVec.getLsbD_twoPow]
  simp [hlt, eq_comm]

theorem getLsbD_and_not_mask (w : UInt32) (idx k : ℕ) :
    (w &&& ~~~mask idx).toBitVec.getLsbD k =
      (w.toBitVec.getLsbD k && !decide (k = idx % 32)) := by
  have hlt : idx % 32 < 32 := Nat.mod_lt _ (by decide)
  rw [UInt32.toBitVec_and, UInt32.toBitVec_not, toBitVec_mask, BitVec.getLsbD_and,
    BitVec.getLsbD_not, BitVec.getLsbD_twoPow]
  rcases Nat.lt_or_ge k 32 with hk | hk
  · simp [hlt, hk, eq_comm]
  · simp [BitVec.getLsbD_of_ge _ _ hk]

/-! ### The set of the bits that are set -/

/-- Bit `i` is set. -/
def used (b : Bitmask) (i : ℕ) : Bool :=
  (b.bits[i / 32]?.map fun w ↦ w.toBitVec.getLsbD (i % 32)).getD false

variable {b : Bitmask} {idx : ℕ}

/-- The word of an index is there. -/
theorem exists_word (h : idx < b.size) : ∃ w, b.bits[idx / 32]? = some w := by
  have hlen := b.length_bits
  exact ⟨_, List.getElem?_eq_getElem (by omega)⟩

theorem isSet_eq (h : idx < b.size) : b.isSet idx = some (b.used idx) := by
  obtain ⟨w, hw⟩ := exists_word h
  rw [isSet, if_pos h, used, hw, Option.map_some, Option.map_some, Option.getD_some, and_mask]

theorem used_new (size i : ℕ) : (new size).used i = false := by
  rw [used, new, List.getElem?_replicate]
  split_ifs <;> simp

theorem exists_modify (h : idx < b.size) (f : UInt32 → UInt32) :
    ∃ w b', b.bits[idx / 32]? = some w ∧ b.modify idx f = some b' ∧ b'.size = b.size ∧
      ∀ i, b'.used i =
        if i / 32 = idx / 32 then (f w).toBitVec.getLsbD (i % 32) else b.used i := by
  obtain ⟨w, hw⟩ := exists_word h
  have hlen := b.length_bits
  refine ⟨w, b.replaceWord (idx / 32) (f w), hw, by rw [modify, if_pos h, hw, Option.map_some],
    rfl, fun i ↦ ?_⟩
  simp only [used, replaceWord]
  split_ifs with hi
  · rw [hi, List.getElem?_set_self (by omega), Option.map_some, Option.getD_some]
  · rw [List.getElem?_set_ne (Ne.symm hi)]

theorem index_eq_iff (i j : ℕ) : i = j ↔ i / 32 = j / 32 ∧ i % 32 = j % 32 := by omega

theorem exists_set (h : idx < b.size) :
    ∃ b', b.set idx = some b' ∧ b'.size = b.size ∧
      ∀ i, b'.used i = true ↔ b.used i = true ∨ i = idx := by
  obtain ⟨w, b', hw, hset, hsize, hused⟩ := exists_modify h fun w ↦ w ||| mask idx
  refine ⟨b', hset, hsize, fun i ↦ ?_⟩
  rw [hused, index_eq_iff i idx]
  split_ifs with hi
  · rw [getLsbD_or_mask, used, hi, hw]
    simp only [Option.map_some, Option.getD_some, Bool.or_eq_true, decide_eq_true_eq, true_and]
  · simp [hi]

theorem exists_clear (h : idx < b.size) :
    ∃ b', b.clear idx = some b' ∧ b'.size = b.size ∧
      ∀ i, b'.used i = true ↔ b.used i = true ∧ i ≠ idx := by
  obtain ⟨w, b', hw, hclear, hsize, hused⟩ := exists_modify h fun w ↦ w &&& ~~~mask idx
  refine ⟨b', hclear, hsize, fun i ↦ ?_⟩
  rw [hused, Ne, index_eq_iff i idx]
  split_ifs with hi
  · rw [getLsbD_and_not_mask, used, hi, hw]
    simp only [Option.map_some, Option.getD_some, Bool.and_eq_true, Bool.not_eq_true',
      decide_eq_false_iff_not, true_and]
  · simp [hi]

end Bitmask

end UserspaceRouter
