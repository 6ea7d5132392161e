import Mathlib.Data.Nat.Bitwise

/-!
# Byte-addressed memory

A memory of `2 ^ 64` bytes and the little-endian 64-bit words in it. Address arithmetic wraps, so
that "how far apart" two addresses are is a difference in either direction: `Apart n a b` says that
neither `n`-byte cell reaches into the other. Words are specified by the two lemmas that proofs
about data kept in memory need, reading back what was written (`read64_write64_self`) and everything
else being unchanged (`read64_write64_of_apart`).

Rounding an address up to a power of two by masking is arithmetic on the same 64-bit numbers, and
stands here as well (`toNat_alignUp`).
-/

namespace ByteMemory

/-- A byte at each address. -/
abbrev Memory := UInt64 → UInt8

/-- The number whose `n` little-endian bytes are at `a`. -/
def readLE (m : Memory) (a : UInt64) : ℕ → ℕ
  | 0 => 0
  | n + 1 => readLE m a n + 256 ^ n * (m (a + UInt64.ofNat n)).toNat

/-- The `i`-th byte of a number. -/
def byteOf (v i : ℕ) : UInt8 := UInt8.ofNat (v / 256 ^ i)

/-- The word at `a`. -/
def read64 (m : Memory) (a : UInt64) : UInt64 := UInt64.ofNat (readLE m a 8)

/-- Write a byte. -/
def write8 (m : Memory) (a : UInt64) (v : UInt8) : Memory := fun x ↦ if x = a then v else m x

/-- Write a word. -/
def write64 (m : Memory) (a v : UInt64) : Memory := fun x ↦
  if (x - a).toNat < 8 then byteOf v.toNat (x - a).toNat else m x

/-- Two cells of `n` bytes that do not overlap. -/
def Apart (n : ℕ) (a b : UInt64) : Prop := n ≤ (b - a).toNat ∧ n ≤ (a - b).toNat

variable {m m' : Memory} {a b v : UInt64} {n : ℕ}

theorem Apart.symm (h : Apart n a b) : Apart n b a := ⟨h.2, h.1⟩

/-! ### Words -/

theorem readLE_congr (h : ∀ i < n, m (a + UInt64.ofNat i) = m' (a + UInt64.ofNat i)) :
    readLE m a n = readLE m' a n := by
  induction n with
  | zero => rfl
  | succ n ih =>
    rw [readLE, readLE, ih fun i hi ↦ h i (Nat.lt_succ_of_lt hi), h n (Nat.lt_succ_self n)]

theorem readLE_of_bytes {v : ℕ} (h : ∀ i < n, m (a + UInt64.ofNat i) = byteOf v i) :
    readLE m a n = v % 256 ^ n := by
  induction n with
  | zero => rw [readLE, Nat.pow_zero, Nat.mod_one]
  | succ n ih =>
    rw [readLE, ih fun i hi ↦ h i (Nat.lt_succ_of_lt hi), h n (Nat.lt_succ_self n),
      Nat.mod_pow_succ]
    rfl

theorem toNat_add_ofNat_sub (a b : UInt64) (i : ℕ) :
    (b + UInt64.ofNat i - a).toNat = ((b - a).toNat + i) % 2 ^ 64 := by
  have ha := a.toNat_lt
  have hb := b.toNat_lt
  rw [UInt64.toNat_sub, UInt64.toNat_add, UInt64.toNat_sub, UInt64.toNat_ofNat']
  omega

theorem read64_write64_self (m : Memory) (a v : UInt64) : read64 (write64 m a v) a = v := by
  have hbytes : ∀ i < 8, write64 m a v (a + UInt64.ofNat i) = byteOf v.toNat i := by
    intro i hi
    have hdiff : (a + UInt64.ofNat i - a).toNat = i := by
      rw [toNat_add_ofNat_sub a a i, UInt64.sub_self]
      exact Nat.mod_eq_of_lt (by show 0 + i < 2 ^ 64; omega) |>.trans (Nat.zero_add i)
    rw [write64, hdiff, if_pos hi]
  rw [read64, readLE_of_bytes hbytes]
  apply UInt64.toNat.inj
  have hv := v.toNat_lt
  rw [UInt64.toNat_ofNat']
  omega

theorem read64_congr (h : ∀ i < 8, m (a + UInt64.ofNat i) = m' (a + UInt64.ofNat i)) :
    read64 m a = read64 m' a := by
  rw [read64, read64, readLE_congr h]

theorem read64_write64_of_apart (h : Apart 8 a b) : read64 (write64 m a v) b = read64 m b := by
  refine read64_congr fun i hi ↦ if_neg ?_
  obtain ⟨hab, hba⟩ := h
  rw [UInt64.toNat_sub] at hba
  rw [toNat_add_ofNat_sub a b i]
  rw [UInt64.toNat_sub] at hab ⊢
  have ha := a.toNat_lt
  have hb := b.toNat_lt
  omega

/-- A byte outside a word may change. -/
theorem read64_write8_of_le {v : UInt8} (h : 8 ≤ (a - b).toNat) :
    read64 (write8 m a v) b = read64 m b := by
  refine read64_congr fun i hi ↦ if_neg ?_
  rintro rfl
  rw [toNat_add_ofNat_sub b b i, UInt64.sub_self] at h
  have hmod : ((0 : UInt64).toNat + i) % 2 ^ 64 = i := by
    show (0 + i) % 2 ^ 64 = i
    omega
  omega

/-! ### Alignment -/

/-- Round up to a multiple of `align`, a power of two, by masking. -/
def alignUp (value align : UInt64) : UInt64 := (value + (align - 1)) &&& ~~~(align - 1)

/-- The least multiple of `a` that is not below `x`. -/
def roundUp (x a : ℕ) : ℕ := (x + (a - 1)) / a * a

theorem dvd_roundUp (x a : ℕ) : a ∣ roundUp x a := Nat.dvd_mul_left a _

theorem le_roundUp (x : ℕ) {a : ℕ} (ha : 0 < a) : x ≤ roundUp x a := by
  have hdiv := Nat.div_add_mod (x + (a - 1)) a
  have hmod := Nat.mod_lt (x + (a - 1)) ha
  rw [roundUp, Nat.mul_comm]
  omega

theorem roundUp_lt (x : ℕ) {a : ℕ} (ha : 0 < a) : roundUp x a < x + a := by
  have hle := Nat.div_mul_le_self (x + (a - 1)) a
  rw [roundUp]
  omega

theorem roundUp_le {x a y : ℕ} (ha : 0 < a) (hy : a ∣ y) (hxy : x ≤ y) : roundUp x a ≤ y := by
  obtain ⟨q, rfl⟩ := hy
  rw [roundUp, Nat.mul_comm a q]
  refine Nat.mul_le_mul_right a (Nat.le_of_lt_succ ((Nat.div_lt_iff_lt_mul ha).2 ?_))
  rw [Nat.succ_mul, Nat.mul_comm q a]
  omega

/-- Clearing the low bits. -/
theorem and_two_pow_sub_two_pow {x k : ℕ} (hx : x < 2 ^ 64) (hk : k ≤ 64) :
    x &&& (2 ^ 64 - 2 ^ k) = x / 2 ^ k * 2 ^ k := by
  have hpow : 2 ^ k ≤ 2 ^ 64 := Nat.pow_le_pow_right (by omega) hk
  have hpos := Nat.two_pow_pos k
  have hmask : 2 ^ 64 - 2 ^ k = 2 ^ 64 - (2 ^ k - 1 + 1) := by omega
  refine Nat.eq_of_testBit_eq fun i ↦ ?_
  rw [Nat.testBit_and, hmask, Nat.testBit_two_pow_sub_succ (by omega), Nat.testBit_two_pow_sub_one,
    Nat.mul_comm, Nat.testBit_two_pow_mul, Nat.testBit_div_two_pow]
  rcases Nat.lt_or_ge i k with hi | hi
  · simp [hi, Nat.not_le.2 hi]
  · rcases Nat.lt_or_ge i 64 with hi' | hi'
    · simp [hi, hi', Nat.not_lt.2 hi, Nat.sub_add_cancel hi]
    · have hbit : x.testBit i = false :=
        Nat.testBit_lt_two_pow (Nat.lt_of_lt_of_le hx (Nat.pow_le_pow_right (by omega) hi'))
      simp [hi, Nat.sub_add_cancel hi, hbit]

/-- **Masking rounds up**, modulo the size of the address space. -/
theorem toNat_alignUp (value : UInt64) {align : UInt64} {k : ℕ} (hk : k < 64)
    (halign : align.toNat = 2 ^ k) :
    (alignUp value align).toNat = roundUp value.toNat align.toNat % 2 ^ 64 := by
  have hpos := Nat.two_pow_pos k
  have hpow : 2 ^ k < 2 ^ 64 := Nat.pow_lt_pow_right (by omega) hk
  have hone : (align - 1).toNat = 2 ^ k - 1 := by
    rw [UInt64.toNat_sub_of_le _ _ (UInt64.le_iff_toNat_le.2 (by rw [halign]; exact hpos)), halign]
    rfl
  have hmask : (~~~(align - 1)).toNat = 2 ^ 64 - 2 ^ k := by
    rw [UInt64.toNat_not, hone]
    show 2 ^ 64 - 1 - (2 ^ k - 1) = _
    omega
  have hsplit : 2 ^ 64 = 2 ^ k * 2 ^ (64 - k) := by rw [← Nat.pow_add]; congr 1; omega
  rw [alignUp, UInt64.toNat_and, hmask, UInt64.toNat_add, hone,
    and_two_pow_sub_two_pow (Nat.mod_lt _ (by omega)) (by omega), roundUp, halign, hsplit,
    Nat.mod_mul_right_div_self, Nat.mul_comm (2 ^ k) (2 ^ (64 - k)), Nat.mul_mod_mul_right]

end ByteMemory
