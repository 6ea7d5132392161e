import Mathlib.Data.Nat.ModEq
import Mathlib.Tactic.SplitIfs

/-!
# One's-complement sums

Adding with end-around carry on words below `m + 1` (for instance `m = 2 ^ 16 - 1`) is adding
modulo `m`, except that the residue `0` has two representatives, `0` and `m`. Which one a sum lands
on is not a matter of taste: the carries of a nonzero sum never produce `0`. `endAround m n` is that
sum, in closed form, of words with plain total `n`.

Words may also be added one by one, each carry being added back at once (`carryAdd`); that comes to
the same (`foldl_carryAdd`).

A *checksum* is the complement `m - endAround m n` of such a sum. `Represents m c n` says that `c`
is a checksum of `n` up to the choice of representative; it is what an incremental update preserves
(`Represents.update`) with no side condition. The exact value is recovered in the two ways the
protocols do it:

* `Represents.eq_sub_endAround`: a checksum that is not `m` is *the* checksum of a nonzero total;
  `Follows` adds to `Represents` what an update needs for that, and `Follows.update` keeps it;
* `Represents.norm_eq`: writing `0` as `m` (`norm`) leaves one representative.
-/

namespace OnesComplement

/-- The end-around-carry sum of words with plain total `n`. -/
def endAround (m n : ℕ) : ℕ := if n = 0 then 0 else (n - 1) % m + 1

variable {m n n' c c' : ℕ}

theorem endAround_zero (m : ℕ) : endAround m 0 = 0 := rfl

theorem endAround_of_pos (hn : 0 < n) : endAround m n = (n - 1) % m + 1 := by
  rw [endAround, if_neg (by omega)]

theorem endAround_pos (hn : 0 < n) : 0 < endAround m n := by
  rw [endAround_of_pos hn]
  omega

theorem endAround_le (hm : 0 < m) (n : ℕ) : endAround m n ≤ m := by
  rcases Nat.eq_zero_or_pos n with rfl | hn
  · rw [endAround_zero]
    omega
  · have := Nat.mod_lt (n - 1) hm
    rw [endAround_of_pos hn]
    omega

/-- A sum that already fits in a word is left alone. -/
theorem endAround_of_le (hn : n ≤ m) : endAround m n = n := by
  rcases Nat.eq_zero_or_pos n with rfl | hpos
  · rfl
  · rw [endAround_of_pos hpos, Nat.mod_eq_of_lt (by omega)]
    omega

theorem endAround_modEq (m n : ℕ) : endAround m n ≡ n [MOD m] := by
  rcases Nat.eq_zero_or_pos n with rfl | hpos
  · rfl
  · rw [endAround_of_pos hpos]
    have h : (n - 1) % m + 1 ≡ n - 1 + 1 [MOD m] := (Nat.mod_modEq (n - 1) m).add_right 1
    rwa [Nat.sub_add_cancel hpos] at h

/-- Nonzero totals with one residue have one sum. -/
theorem endAround_eq_of_modEq (hn : 0 < n) (hn' : 0 < n') (h : n ≡ n' [MOD m]) :
    endAround m n = endAround m n' := by
  have hpred : n - 1 ≡ n' - 1 [MOD m] := by
    apply Nat.ModEq.add_right_cancel' 1
    rwa [Nat.sub_add_cancel hn, Nat.sub_add_cancel hn']
  rw [endAround_of_pos hn, endAround_of_pos hn', hpred]

/-- **One carry.** Adding the part above the word back to the word does not change the sum. -/
theorem endAround_carry (m n : ℕ) :
    endAround m (n % (m + 1) + n / (m + 1)) = endAround m n := by
  rcases Nat.eq_zero_or_pos n with rfl | hn
  · simp
  · have hdiv := Nat.mod_add_div n (m + 1)
    have hsplit : n % (m + 1) + n / (m + 1) + m * (n / (m + 1)) = n := by
      rw [Nat.add_mul, Nat.one_mul] at hdiv
      omega
    have hpos : 0 < n % (m + 1) + n / (m + 1) := by
      rcases Nat.eq_zero_or_pos (n / (m + 1)) with hq | hq
      · rw [hq, Nat.mul_zero] at hsplit
        omega
      · omega
    apply endAround_eq_of_modEq hpos hn
    have hmul : n % (m + 1) + n / (m + 1) + m * (n / (m + 1)) ≡
        n % (m + 1) + n / (m + 1) [MOD m] := Nat.add_mul_mod_self_left _ _ _
    rw [hsplit] at hmul
    exact hmul.symm

/-- A carry makes the number smaller, so carrying ends. -/
theorem carry_lt (hm : 0 < m) (h : n / (m + 1) ≠ 0) : n % (m + 1) + n / (m + 1) < n := by
  have hdiv := Nat.mod_add_div n (m + 1)
  have hq : 0 < m * (n / (m + 1)) := Nat.mul_pos hm (Nat.pos_of_ne_zero h)
  rw [Nat.add_mul, Nat.one_mul] at hdiv
  omega

/-! ### Carrying at every step -/

/-- Adding two words, and the carry back in. -/
def carryAdd (m a b : ℕ) : ℕ := (a + b) % (m + 1) + (a + b) / (m + 1)

/-- One carry is enough: the sum of two words is a word. -/
theorem carryAdd_le {a b : ℕ} (ha : a ≤ m) (hb : b ≤ m) : carryAdd m a b ≤ m := by
  rcases Nat.lt_or_ge (a + b) (m + 1) with hlt | hge
  · rw [carryAdd, Nat.mod_eq_of_lt hlt, Nat.div_eq_of_lt hlt]
    omega
  · have hdiv : (a + b) / (m + 1) = 1 := Nat.div_eq_of_lt_le (by omega) (by omega)
    have hmod := Nat.mod_add_div (a + b) (m + 1)
    rw [hdiv, Nat.mul_one] at hmod
    rw [carryAdd, hdiv]
    omega

/-- Carrying early does not change the sum. -/
theorem endAround_endAround_add (m n w : ℕ) :
    endAround m (endAround m n + w) = endAround m (n + w) := by
  rcases Nat.eq_zero_or_pos n with rfl | hn
  · rw [endAround_zero]
  · have hpos := endAround_pos (m := m) hn
    exact endAround_eq_of_modEq (by omega) (by omega) ((endAround_modEq m n).add_right w)

theorem carryAdd_endAround {w : ℕ} (hm : 0 < m) (hw : w ≤ m) (n : ℕ) :
    carryAdd m (endAround m n) w = endAround m (n + w) := by
  have hword : carryAdd m (endAround m n) w ≤ m := carryAdd_le (endAround_le hm n) hw
  calc carryAdd m (endAround m n) w
      = endAround m (carryAdd m (endAround m n) w) := (endAround_of_le hword).symm
    _ = endAround m (endAround m n + w) := endAround_carry m _
    _ = endAround m (n + w) := endAround_endAround_add m n w

/-- **Carrying at every step is carrying at the end.** -/
theorem foldl_carryAdd {ws : List ℕ} (hm : 0 < m) (hws : ∀ w ∈ ws, w ≤ m) (n : ℕ) :
    ws.foldl (carryAdd m) (endAround m n) = endAround m (n + ws.sum) := by
  induction ws generalizing n with
  | nil => rfl
  | cons w ws ih =>
    rw [List.foldl_cons, carryAdd_endAround hm (hws w List.mem_cons_self),
      ih fun v hv ↦ hws v (List.mem_cons_of_mem w hv), List.sum_cons, Nat.add_assoc]

/-! ### Checksums -/

/-- `c` is a checksum of words with total `n`, up to the two representatives of zero. -/
def Represents (m c n : ℕ) : Prop := m - c ≡ n [MOD m]

theorem represents_sub_endAround (hm : 0 < m) (n : ℕ) : Represents m (m - endAround m n) n := by
  have hle := endAround_le hm n
  have hsub : m - (m - endAround m n) = endAround m n := by omega
  rw [Represents, hsub]
  exact endAround_modEq m n

/-- **The incremental update.** The words `old` leave the total and the words `new` enter it;
`comp` is the sum of the complements of the old words. -/
theorem Represents.update {rest old new comp : ℕ} (hm : 0 < m)
    (h : Represents m c (rest + old)) (hcomp : comp + old ≡ 0 [MOD m]) :
    Represents m (m - endAround m (m - c + comp + new)) (rest + new) := by
  have hsum : m - c + comp + new + old ≡ rest + new + old [MOD m] := by
    have h₁ : m - c + (comp + old) ≡ rest + old + 0 [MOD m] := Nat.ModEq.add h hcomp
    have h₂ := h₁.add_right new
    have hl : m - c + (comp + old) + new = m - c + comp + new + old := by omega
    have hr : rest + old + 0 + new = rest + new + old := by omega
    rwa [hl, hr] at h₂
  have hcancel := Nat.ModEq.add_right_cancel' old hsum
  exact (represents_sub_endAround hm _).trans hcancel

/-- A representative other than `m` is the checksum itself, for a nonzero total. -/
theorem Represents.eq_sub_endAround (h : Represents m c n) (hc : c < m) (hn : 0 < n) :
    c = m - endAround m n := by
  have heq : endAround m (m - c) = endAround m n := endAround_eq_of_modEq (by omega) hn h
  rw [endAround_of_le (by omega)] at heq
  omega

/-- **Words and their checksum add up to all ones.** -/
theorem Represents.endAround_add (h : Represents m c n) (hc : c ≤ m) (hpos : 0 < n + c) :
    endAround m (n + c) = m := by
  have hmod : n + c ≡ m [MOD m] := by
    have hadd := (h.add_right c).symm
    rwa [Nat.sub_add_cancel hc] at hadd
  rcases Nat.eq_zero_or_pos m with rfl | hm
  · rw [Nat.modEq_zero_iff.1 hmod, endAround_zero]
  · rw [endAround_eq_of_modEq hpos hm hmod, endAround_of_le (Nat.le_refl m)]

/-- `c` is a checksum of `n` in the representative that a computation of it gives: it is `m` only
where there is nothing to sum. -/
structure Follows (m c n : ℕ) : Prop where
  represents : Represents m c n
  eq_zero : c = m → n = 0

theorem follows_sub_endAround (hm : 0 < m) (n : ℕ) : Follows m (m - endAround m n) n := by
  refine ⟨represents_sub_endAround hm n, fun h ↦ ?_⟩
  by_contra hn
  have hpos := endAround_pos (m := m) (Nat.pos_of_ne_zero hn)
  omega

/-- **An update follows the total**, also through totals of zero, where the representative may
change. -/
theorem Follows.update {rest old new comp : ℕ} (hm : 0 < m) (h : Follows m c (rest + old))
    (hcomp : comp + old ≡ 0 [MOD m]) (hc : c ≤ m) :
    Follows m (m - endAround m (m - c + comp + new)) (rest + new) := by
  refine ⟨h.represents.update hm hcomp, fun heq ↦ ?_⟩
  -- nothing was summed: the old checksum was `m`, and there is nothing new
  have hnone := (follows_sub_endAround hm (m - c + comp + new)).eq_zero heq
  have hrest := h.eq_zero (by omega)
  omega

theorem Follows.eq_sub_endAround (h : Follows m c n) (hc : c ≤ m) (hn : 0 < n) :
    c = m - endAround m n := by
  refine h.represents.eq_sub_endAround (Nat.lt_of_le_of_ne hc fun heq ↦ ?_) hn
  have := h.eq_zero heq
  omega

/-- Write the checksum `0` as `m`. -/
def norm (m c : ℕ) : ℕ := if c = 0 then m else c

theorem norm_le (hc : c ≤ m) : norm m c ≤ m := by
  unfold norm
  split_ifs <;> omega

/-- What `norm` selects: the complement that is a residue below `m`. -/
theorem sub_norm (hm : 0 < m) (c : ℕ) : m - norm m c = (m - c) % m := by
  unfold norm
  split_ifs with hc
  · rw [hc, Nat.sub_zero, Nat.sub_self, Nat.mod_self]
  · rw [Nat.mod_eq_of_lt (by omega)]

/-- After `norm` the representative is unique. -/
theorem Represents.norm_eq (h : Represents m c n) (h' : Represents m c' n) (hm : 0 < m)
    (hc : c ≤ m) (hc' : c' ≤ m) : norm m c = norm m c' := by
  have hres : m - norm m c = m - norm m c' := by
    rw [sub_norm hm, sub_norm hm]
    exact h.trans h'.symm
  have hle := norm_le hc
  have hle' := norm_le hc'
  omega

/-- Writing zero as `m` changes the representative only. -/
theorem Represents.norm (h : Represents m c n) (hm : 0 < m) :
    Represents m (OnesComplement.norm m c) n := by
  rw [Represents, sub_norm hm]
  exact (Nat.mod_modEq _ _).trans h

end OnesComplement
