import UserspaceRouter.Foundations.Checked
import UserspaceRouter.Mem.Heap

/-!
# Which hole a request gets

`alloc` tries one position in each hole: the first that is aligned and leaves nothing or a whole
block in front. If what it leaves behind the block is too small for a block, it goes on to the next
hole and does not look for another position in this one. That loses nothing. Any other position is
further on by a multiple of the alignment, hence by sixteen bytes at least: an alignment of eight
puts the first position at the start of the hole, and the next one leaves a block in front. So if
there is a position at all, what the first one leaves behind is nothing or a block (`admits_place`).

**Nothing overflows.** `allocChecked` is `alloc` with all its arithmetic checked. Over a region
below `2 ^ 63` no check fails (`allocFromChecked_spec`). It also takes the alignment `2 ^ 63`, with
which nothing but the size 0 goes. No address in the region is a multiple of it
(`not_admits_of_end_le`), so such a call returns null, and the runs lose nothing by its absence.
-/

namespace UserspaceRouter

open ByteMemory Intervals TransitionSystem

namespace FreeList

/-! ### The code, with its checks -/

def alignUpChecked (value align : UInt64) : Option UInt64 := do
  let mask ← Checked.sub64 align 1
  let sum ← Checked.add64 value mask
  some (sum &&& ~~~mask)

section Checked

variable (h : FreeList) (align need cur : UInt64)

/-- The position that is tried in the hole at `cur`. -/
def placeChecked : Option UInt64 := do
  let addr ← Checked.add64 h.base cur
  let up ← alignUpChecked addr align
  let aligned ← Checked.sub64 up h.base
  let front ← Checked.sub64 aligned cur
  if front ≠ 0 ∧ front < minBlock then do
    let addr ← Checked.add64 h.base cur
    let addr ← Checked.add64 addr minBlock
    let up ← alignUpChecked addr align
    let aligned ← Checked.sub64 up h.base
    let _ ← Checked.sub64 aligned cur
    some aligned
  else some aligned

/-- The outer `none` is a failed check, the inner one a hole that does not fit. -/
def fitChecked : Option (Option UInt64) := do
  let holeEnd ← Checked.add64 cur (h.entrySize cur)
  let aligned ← h.placeChecked align cur
  let allocEnd ← Checked.add64 aligned need
  if allocEnd ≤ holeEnd then do
    let back ← Checked.sub64 holeEnd allocEnd
    some (if back = 0 ∨ minBlock ≤ back then some aligned else none)
  else some none

end Checked

def allocFromChecked (h : FreeList) (align need : UInt64) :
    ℕ → UInt64 → UInt64 → Option (FreeList × UInt64)
  | 0, _, _ => none
  | fuel + 1, prev, cur =>
    if cur = nil then some (h, 0)
    else do
      match ← h.fitChecked align need cur with
      | some aligned => do
        let ptr ← Checked.add64 h.base aligned
        some (h.split need prev cur aligned, ptr)
      | none => h.allocFromChecked align need fuel cur (h.entryNext cur)

/-- A size and an alignment that make a `Layout`. -/
structure ValidLayout (size align : UInt64) : Prop where
  align_eq : ∃ k ≤ 63, align.toNat = 2 ^ k
  size_le : size.toNat + align.toNat ≤ 2 ^ 63

/-- `alloc`, for any layout. -/
def allocChecked (h : FreeList) (size align : UInt64) : Option (FreeList × UInt64) := do
  let need ← alignUpChecked (max size minBlock) FreeList.align
  h.allocFromChecked (max align FreeList.align) need h.rounds nil h.head

/-! ### Requests -/

/-- What `alloc` makes of a layout: an alignment, and the size of the block. -/
structure Request (a need : UInt64) : Prop where
  align_eq : ∃ k, 3 ≤ k ∧ k ≤ 63 ∧ a.toNat = 2 ^ k
  need_ge : 16 ≤ need.toNat
  need_le : need.toNat ≤ 2 ^ 63

variable {size al a need : UInt64}

theorem ValidLayout.request (hv : ValidLayout size al) :
    Request (max al align) (blockSize size) := by
  obtain ⟨⟨k, hk63, hk⟩, hle⟩ := hv
  have hpos := pos_of_eq_two_pow hk
  have hmax : (max al align).toNat = max al.toNat 8 := toNat_max _ _
  have hneed := toNat_blockSize (by omega : size.toNat < 2 ^ 63)
  have hlow := le_roundUp (max size.toNat 16) (a := 8) (by omega)
  have hhigh := roundUp_le (x := max size.toNat 16) (a := 8) (y := 2 ^ 63) (by omega) (by decide)
    (by omega)
  refine ⟨?_, by omega, by omega⟩
  rw [hmax, hk]
  rcases Nat.le_total 3 k with h3 | h3
  · have hle : 2 ^ 3 ≤ 2 ^ k := Nat.pow_le_pow_right (by omega) h3
    exact ⟨k, h3, hk63, Nat.max_eq_left hle⟩
  · have hle : 2 ^ k ≤ 2 ^ 3 := Nat.pow_le_pow_right (by omega) h3
    exact ⟨3, Nat.le_refl 3, by omega, Nat.max_eq_right hle⟩

/-! ### No check fails -/

variable {h : FreeList} {cur : UInt64}

theorem alignUpChecked_eq {v : UInt64} (hpos : 0 < a.toNat)
    (hlt : v.toNat + (a.toNat - 1) < 2 ^ 64) : alignUpChecked v a = some (alignUp v a) := by
  have hmask : (a - 1).toNat = a.toNat - 1 :=
    UInt64.toNat_sub_of_le _ _ (UInt64.le_iff_toNat_le.2 hpos)
  have hone : (1 : UInt64).toNat ≤ a.toNat := hpos
  rw [alignUpChecked, Checked.sub64_eq hone]
  simp only [Option.bind_eq_bind, Option.bind_some]
  rw [Checked.add64_eq (by rw [hmask]; exact hlt)]
  rfl

/-- An address between the base and `2 ^ 63`, rounded up, and the offset that this is. -/
theorem alignUp_sub_base {v : UInt64} (hq : Request a need) (hbase : h.base.toNat ≤ v.toNat)
    (hv : v.toNat ≤ 2 ^ 63) :
    alignUpChecked v a = some (alignUp v a) ∧
      Checked.sub64 (alignUp v a) h.base = some (alignUp v a - h.base) ∧
      v.toNat ≤ h.base.toNat + (alignUp v a - h.base).toNat ∧
      h.base.toNat + (alignUp v a - h.base).toNat ≤ 2 ^ 63 := by
  obtain ⟨k, hk3, hk63, hk⟩ := hq.align_eq
  have hpos := pos_of_eq_two_pow hk
  have hdvd : a.toNat ∣ 2 ^ 63 := by
    rw [hk]
    exact Nat.pow_dvd_pow 2 hk63
  have hle : a.toNat ≤ 2 ^ 63 := Nat.le_of_dvd (by omega) hdvd
  have hup := roundUp_le hpos hdvd hv
  have hlow := le_roundUp v.toNat hpos
  have hround := toNat_alignUp v (by omega) hk
  have hge : h.base.toNat ≤ (alignUp v a).toNat := by omega
  have hsub : (alignUp v a - h.base).toNat = (alignUp v a).toNat - h.base.toNat :=
    UInt64.toNat_sub_of_le _ _ (UInt64.le_iff_toNat_le.2 hge)
  exact ⟨alignUpChecked_eq hpos (by omega), Checked.sub64_eq hge, by omega, by omega⟩

/-- **The position is computed without overflow**, and is not beyond `2 ^ 63` as an address. -/
theorem placeChecked_eq (hbelow : h.base.toNat + h.size.toNat ≤ 2 ^ 63) (hq : Request a need)
    (hle : cur.toNat + 16 ≤ h.size.toNat) :
    h.placeChecked a cur = some (h.place a cur) ∧
      h.base.toNat + (h.place a cur).toNat ≤ 2 ^ 63 := by
  have hcur : (h.base + cur).toNat = h.base.toNat + cur.toNat := by
    rw [UInt64.toNat_add]
    omega
  have h16 : minBlock.toNat = 16 := rfl
  have hcur' : (h.base + cur + minBlock).toNat = h.base.toNat + cur.toNat + 16 := by
    rw [UInt64.toNat_add, hcur, h16]
    omega
  have hadd : Checked.add64 h.base cur = some (h.base + cur) := Checked.add64_eq (by omega)
  have hadd' : Checked.add64 (h.base + cur) minBlock = some (h.base + cur + minBlock) :=
    Checked.add64_eq (by omega)
  -- the first position, and the one behind a block in front
  obtain ⟨hup, hsub, hlow, hhigh⟩ :=
    alignUp_sub_base (h := h) hq (v := h.base + cur) (by omega) (by omega)
  obtain ⟨hup', hsub', hlow', hhigh'⟩ :=
    alignUp_sub_base (h := h) hq (v := h.base + cur + minBlock) (by omega) (by omega)
  have hfront : Checked.sub64 (alignUp (h.base + cur) a - h.base) cur =
      some (alignUp (h.base + cur) a - h.base - cur) := Checked.sub64_eq (by omega)
  have hfront' : Checked.sub64 (alignUp (h.base + cur + minBlock) a - h.base) cur =
      some (alignUp (h.base + cur + minBlock) a - h.base - cur) := Checked.sub64_eq (by omega)
  rw [placeChecked, place]
  simp only [hadd, hadd', hup, hup', hsub, hsub', hfront, hfront', Option.bind_eq_bind,
    Option.bind_some]
  split_ifs
  · exact ⟨rfl, hhigh'⟩
  · exact ⟨rfl, hhigh⟩

/-! ### The position in a hole -/

/-- The block of `need` bytes at `p` may be taken out of the hole: it is in it, its address is a
multiple of `a`, and what is left in front of it and behind it is nothing or a block. -/
def Admits (base a need : ℕ) (i : Interval) (p : ℕ) : Prop :=
  i.1 ≤ p ∧ p + need ≤ i.2 ∧ a ∣ base + p ∧
    (p - i.1 = 0 ∨ 16 ≤ p - i.1) ∧ (i.2 - (p + need) = 0 ∨ 16 ≤ i.2 - (p + need))

/-- No position is a multiple of an alignment as large as the end of the region. -/
theorem not_admits_of_end_le {base a need n : ℕ} {i : Interval} (hbase : 0 < base)
    (hneed : 0 < need) (hle : i.2 ≤ n) (ha : base + n ≤ a) (p : ℕ) : ¬Admits base a need i p := by
  rintro ⟨-, hend, hdvd, -⟩
  have hmul := Nat.le_of_dvd (by omega) hdvd
  omega

section Hole

variable {i : Interval}

/-- **The position that is tried is the one to try.** If a hole admits any position, it admits the
least one. -/
theorem admits_place (hr : h.Region) (hq : Request a need) (hcur : cur.toNat = i.1)
    (hdvd : 8 ∣ i.1) (hroom : i.1 + 16 ≤ h.size.toNat) {p : ℕ}
    (hp : Admits h.base.toNat a.toNat need.toNat i p) :
    Admits h.base.toNat a.toNat need.toNat i (h.place a cur).toNat := by
  obtain ⟨k, hk3, hk63, hk⟩ := hq.align_eq
  obtain ⟨hlo, hhi, halign, hfront, hback⟩ := hp
  have hcurRoom : cur.toNat + 16 ≤ h.size.toNat := by omega
  obtain ⟨⟨hplace, halign'⟩, hleast⟩ := isLeast_place hr (by omega) hk hcurRoom
  have hle : (h.place a cur).toNat ≤ p := hleast ⟨by omega, halign⟩
  refine ⟨by omega, by omega, halign', by omega, ?_⟩
  rcases Nat.eq_or_lt_of_le hle with heq | hlt
  · rw [heq]
    exact hback
  -- the other position is further on by a multiple of the alignment
  suffices hfar : (h.place a cur).toNat + 16 ≤ p by omega
  have hstep : a.toNat ∣ p - (h.place a cur).toNat := by
    have hdiff := Nat.dvd_sub halign halign'
    rwa [Nat.add_sub_add_left] at hdiff
  have hmul := Nat.le_of_dvd (by omega) hstep
  rcases Nat.lt_or_ge k 4 with hk4 | hk4
  · -- the hole starts at a multiple of 8
    obtain rfl : k = 3 := by omega
    have hstart : (h.place a cur).toNat ≤ cur.toNat := by
      refine hleast ⟨Or.inl rfl, ?_⟩
      rw [hk, hcur]
      exact Nat.dvd_add hr.base_dvd hdvd
    omega
  · have h16 : 2 ^ 4 ≤ a.toNat := by
      rw [hk]
      exact Nat.pow_le_pow_right (by omega) hk4
    omega

variable (hr : h.Region) (hbelow : h.base.toNat + h.size.toNat ≤ 2 ^ 63) (hq : Request a need)
  (hcur : cur.toNat = i.1) (hsize : i.1 + (h.entrySize cur).toNat = i.2)
  (hlarge : i.1 + 16 ≤ i.2) (hle : i.2 ≤ h.size.toNat)

include hr hbelow hq hcur hsize hlarge hle

/-- The sums that are compared, without wrap-around. -/
theorem toNat_ends :
    (cur + h.entrySize cur).toNat = i.2 ∧
      (h.place a cur + need).toNat = (h.place a cur).toNat + need.toNat ∧
      (h.place a cur).toNat + need.toNat < 2 ^ 64 := by
  have hroom : cur.toNat + 16 ≤ h.size.toNat := by omega
  obtain ⟨-, hplace⟩ := placeChecked_eq hbelow hq hroom
  have hneed := hq.need_le
  have hbase := hr.base_pos
  have h8 := hr.base_dvd
  refine ⟨?_, ?_, by omega⟩
  · rw [UInt64.toNat_add]
    omega
  · rw [UInt64.toNat_add]
    omega

theorem fitChecked_eq : h.fitChecked a need cur = some (h.fit a need cur) := by
  obtain ⟨hend, -, hsum⟩ := toNat_ends hr hbelow hq hcur hsize hlarge hle
  have hroom : cur.toNat + 16 ≤ h.size.toNat := by omega
  obtain ⟨hplace, -⟩ := placeChecked_eq hbelow hq hroom
  have hlt := hr.size_lt
  have hadd : Checked.add64 cur (h.entrySize cur) = some (cur + h.entrySize cur) :=
    Checked.add64_eq (by omega)
  rw [fitChecked, fit]
  simp only [hadd, hplace, Checked.add64_eq hsum, Option.bind_eq_bind, Option.bind_some]
  by_cases hfits : h.place a cur + need ≤ cur + h.entrySize cur
  · rw [if_pos hfits, Checked.sub64_eq (UInt64.le_iff_toNat_le.1 hfits), Option.bind_some]
    simp only [hfits, true_and]
  · rw [if_neg hfits, if_neg fun hc ↦ hfits hc.1]

/-- What is tested is that the hole admits the position. -/
theorem fit_eq (hdvd : 8 ∣ i.1) :
    (h.fit a need cur = some (h.place a cur) ∧
      Admits h.base.toNat a.toNat need.toNat i (h.place a cur).toNat) ∨
    (h.fit a need cur = none ∧ ∀ p, ¬Admits h.base.toNat a.toNat need.toNat i p) := by
  obtain ⟨hend, hsum, -⟩ := toNat_ends hr hbelow hq hcur hsize hlarge hle
  obtain ⟨k, hk3, hk63, hk⟩ := hq.align_eq
  have hroom : cur.toNat + 16 ≤ h.size.toNat := by omega
  obtain ⟨hplace, halign⟩ := (isLeast_place hr (by omega) hk hroom).1
  have h16 : minBlock.toNat = 16 := rfl
  have h0 : (0 : UInt64).toNat = 0 := rfl
  have hiff : (h.place a cur + need ≤ cur + h.entrySize cur ∧
      (cur + h.entrySize cur - (h.place a cur + need) = 0 ∨
        minBlock ≤ cur + h.entrySize cur - (h.place a cur + need))) ↔
      Admits h.base.toNat a.toNat need.toNat i (h.place a cur).toNat := by
    rw [UInt64.le_iff_toNat_le, hend, hsum]
    constructor
    · rintro ⟨hfits, hback⟩
      have hsub := UInt64.toNat_sub_of_le (cur + h.entrySize cur) (h.place a cur + need)
        (UInt64.le_iff_toNat_le.2 (by omega))
      rw [← UInt64.toNat_inj, UInt64.le_iff_toNat_le, hsub] at hback
      exact ⟨by omega, hfits, halign, by omega, by omega⟩
    · rintro ⟨-, hfits, -, -, hback⟩
      have hsub := UInt64.toNat_sub_of_le (cur + h.entrySize cur) (h.place a cur + need)
        (UInt64.le_iff_toNat_le.2 (by omega))
      rw [← UInt64.toNat_inj, UInt64.le_iff_toNat_le, hsub]
      exact ⟨hfits, by omega⟩
  by_cases hfits : Admits h.base.toNat a.toNat need.toNat i (h.place a cur).toNat
  · exact Or.inl ⟨if_pos (hiff.2 hfits), hfits⟩
  · refine Or.inr ⟨if_neg fun hc ↦ hfits (hiff.1 hc), fun p hp ↦ hfits ?_⟩
    exact admits_place hr hq hcur hdvd (by omega) hp

end Hole

/-! ### The loop -/

theorem Blocks.tail {n : ℕ} {i : Interval} {l : List Interval} (hl : Blocks n (i :: l)) :
    Blocks n l where
  sep := (separated_cons.1 hl.sep).2.2
  dvd j hj := hl.dvd j (List.mem_cons_of_mem i hj)
  large j hj := hl.large j (List.mem_cons_of_mem i hj)
  le j hj := hl.le j (List.mem_cons_of_mem i hj)
  total_le := Nat.le_trans (by rw [total_cons]; omega) hl.total_le

/-- **First fit.** From a place in the list on, no check fails. The result is null, and nothing has
changed, if no block ahead admits a position; otherwise the block is placed in the first that
does. -/
theorem allocFromChecked_spec (hr : h.Region) (hbelow : h.base.toNat + h.size.toNat ≤ 2 ^ 63)
    (hq : Request a need) {l : List Interval} (hl : Blocks h.size.toNat l) {fuel : ℕ}
    (hfuel : l.length < fuel) (prev : UInt64) (hseg : h.Seg cur l nil) :
    h.allocFromChecked a need fuel prev cur = h.allocFrom a need fuel prev cur ∧
    ((h.allocFrom a need fuel prev cur = some (h, 0) ∧
        ∀ i ∈ l, ∀ p, ¬Admits h.base.toNat a.toNat need.toNat i p) ∨
      ∃ h' ptr l₁ i l₂ p, h.allocFrom a need fuel prev cur = some (h', ptr) ∧ ptr ≠ 0 ∧
        l = l₁ ++ i :: l₂ ∧ (∀ j ∈ l₁, ∀ q, ¬Admits h.base.toNat a.toNat need.toNat j q) ∧
        Admits h.base.toNat a.toNat need.toNat i p ∧ ptr.toNat = h.base.toNat + p) := by
  induction l generalizing prev cur fuel with
  | nil =>
    obtain rfl : cur = nil := hseg
    obtain ⟨fuel, rfl⟩ := Nat.exists_eq_add_one_of_ne_zero (Nat.ne_of_gt hfuel)
    rw [allocFromChecked, allocFrom, if_pos rfl, if_pos rfl]
    exact ⟨rfl, Or.inl ⟨rfl, by simp⟩⟩
  | cons i l ih =>
    obtain ⟨hcur, hsize, hrest⟩ := hseg
    have hlarge := hl.large i List.mem_cons_self
    have hle := hl.le i List.mem_cons_self
    have hdvd := (hl.dvd i List.mem_cons_self).1
    have hlt := hr.size_lt
    have hne : cur ≠ nil := ne_nil_of_lt (by omega)
    obtain ⟨fuel, rfl⟩ := Nat.exists_eq_add_one_of_ne_zero (Nat.ne_of_gt (Nat.zero_lt_of_lt hfuel))
    rw [allocFromChecked, allocFrom, if_neg hne, if_neg hne,
      fitChecked_eq hr hbelow hq hcur hsize hlarge hle]
    simp only [Option.bind_eq_bind, Option.bind_some]
    rcases fit_eq hr hbelow hq hcur hsize hlarge hle hdvd with ⟨hfit, hadmits⟩ | ⟨hfit, hnone⟩
    · -- the block is placed here
      have hneed := hq.need_ge
      have hend := hadmits.2.1
      obtain ⟨hptr, hnonzero⟩ :=
        hr.toNat_address (by omega : (h.place a cur).toNat < h.size.toNat)
      have hsum : h.base.toNat + (h.place a cur).toNat < 2 ^ 64 := by
        rw [← hptr]
        exact UInt64.toNat_lt _
      simp only [hfit, Checked.add64_eq hsum, Option.bind_some]
      exact ⟨trivial, Or.inr ⟨_, _, [], i, l, _, rfl, hnonzero, rfl, by simp, hadmits, hptr⟩⟩
    · have hl' : Blocks h.size.toNat l := hl.tail
      obtain ⟨hchecked, hcases⟩ := ih hl' (Nat.lt_of_succ_lt_succ hfuel) cur hrest
      simp only [hfit]
      refine ⟨hchecked, ?_⟩
      rcases hcases with ⟨hnull, hall⟩ | ⟨h', ptr, l₁, j, l₂, p, halloc, hptr, rfl, hbefore, hj⟩
      · exact Or.inl ⟨hnull, List.forall_mem_cons.2 ⟨hnone, hall⟩⟩
      · exact Or.inr ⟨h', ptr, i :: l₁, j, l₂, p, halloc, hptr, rfl,
          List.forall_mem_cons.2 ⟨hnone, hbefore⟩, hj⟩

/-- **What `alloc` does**, over a region below `2 ^ 63`, with any layout. -/
theorem allocChecked_spec (hr : h.Region) (hbelow : h.base.toNat + h.size.toNat ≤ 2 ^ 63)
    (hv : ValidLayout size al) {l : List Interval} (hl : Blocks h.size.toNat l)
    (hseg : h.Seg h.head l nil) :
    h.allocChecked size al =
        h.allocFrom (max al align) (blockSize size) h.rounds nil h.head ∧
    ((h.allocChecked size al = some (h, 0) ∧ ∀ i ∈ l, ∀ p,
        ¬Admits h.base.toNat (max al align).toNat (blockSize size).toNat i p) ∨
      ∃ h' ptr l₁ i l₂ p, h.allocChecked size al = some (h', ptr) ∧ ptr ≠ 0 ∧ l = l₁ ++ i :: l₂ ∧
        (∀ j ∈ l₁, ∀ q, ¬Admits h.base.toNat (max al align).toNat (blockSize size).toNat j q) ∧
        Admits h.base.toNat (max al align).toNat (blockSize size).toNat i p ∧
        ptr.toNat = h.base.toNat + p) := by
  have hpos : 0 < al.toNat := by
    obtain ⟨k, -, hk⟩ := hv.align_eq
    exact pos_of_eq_two_pow hk
  have hsize := hv.size_le
  have hmax : (max size minBlock).toNat = max size.toNat 16 := toNat_max _ _
  have h8 : align.toNat = 8 := rfl
  have hneed : alignUpChecked (max size minBlock) align = some (blockSize size) :=
    alignUpChecked_eq (by decide) (by omega)
  obtain ⟨hchecked, hcases⟩ :=
    allocFromChecked_spec hr hbelow hv.request hl hl.length_lt nil hseg
  have heq : h.allocChecked size al =
      h.allocFrom (max al align) (blockSize size) h.rounds nil h.head := by
    rw [allocChecked, hneed]
    exact hchecked
  rw [heq]
  exact ⟨rfl, hcases⟩

end FreeList

namespace Heap

open FreeList

/-- **The allocator finds a hole whenever one fits.** In every run over a region below `2 ^ 63`,
with `l` the free blocks in the order of their addresses, and for every layout: `alloc` returns
without an overflow. It returns null, and changes nothing, exactly if no free block admits a
position. Otherwise it places the block in the first that does. The calls of a run have alignments
up to `2 ^ 62`; with `2 ^ 63` the result is null. -/
theorem alloc_finds_hole {mem : Memory} {base size : UInt64} (hv : ValidRegion base size)
    (hbelow : base.toNat + size.toNat ≤ 2 ^ 63) {h : FreeList}
    (hnew : new mem base size = some h) {tr : List (HeapCall × Option UInt64)} {s : Heap}
    (hrun : system.Run ⟨h, []⟩ tr s) {sz al : UInt64} (hlayout : ValidLayout sz al) :
    ∃ l, s.Inv l ∧ ∃ list ptr, s.list.allocChecked sz al = some (list, ptr) ∧
      (∀ layout : Layout, layout.size = sz → layout.align = al →
        s.list.alloc layout = some (list, ptr)) ∧
      (ptr = 0 → list = s.list) ∧ (al.toNat = 2 ^ 63 → ptr = 0) ∧
      (ptr = 0 ↔ ∀ i ∈ l, ∀ p,
        ¬Admits s.list.base.toNat (max al.toNat 8) (blockSize sz).toNat i p) ∧
      (ptr ≠ 0 → ∃ l₁ i l₂ p, l = l₁ ++ i :: l₂ ∧ ptr.toNat = s.list.base.toNat + p ∧
        Admits s.list.base.toNat (max al.toNat 8) (blockSize sz).toNat i p ∧
        ∀ j ∈ l₁, ∀ q, ¬Admits s.list.base.toNat (max al.toNat 8) (blockSize sz).toNat j q) := by
  obtain ⟨hbase, hsize, l, hl⟩ := inv_run (inv_new hv hnew) hrun
  obtain ⟨-, ⟨-, hend⟩, -⟩ := new_spec hv hnew
  have hbelow' : s.list.base.toNat + s.list.size.toNat ≤ 2 ^ 63 := by
    rw [hbase, hsize]
    omega
  have hmax : (max al align).toNat = max al.toNat 8 := toNat_max _ _
  obtain ⟨heq, hcases⟩ := allocChecked_spec hl.region hbelow' hlayout hl.blocks hl.seg
  rw [hmax] at hcases
  have hmodel : ∀ layout : Layout, layout.size = sz → layout.align = al →
      s.list.alloc layout = s.list.allocChecked sz al := by
    rintro layout rfl rfl
    exact heq.symm
  refine ⟨l, hl, ?_⟩
  rcases hcases with ⟨hnull, hall⟩ | ⟨list, ptr, l₁, i, l₂, p, halloc, hptr, rfl, hbefore, hp, hat⟩
  · refine ⟨s.list, 0, hnull, fun layout h₁ h₂ ↦ (hmodel layout h₁ h₂).trans hnull, fun _ ↦ rfl,
      fun _ ↦ rfl, iff_of_true rfl hall, fun hne ↦ absurd rfl hne⟩
  · have hi : i ∈ l₁ ++ i :: l₂ := by simp
    refine ⟨list, ptr, halloc, fun layout h₁ h₂ ↦ (hmodel layout h₁ h₂).trans halloc,
      fun hzero ↦ absurd hzero hptr, fun htop ↦ ?_, iff_of_false hptr fun hall ↦ hall i hi p hp,
      fun _ ↦ ⟨l₁, i, l₂, p, rfl, hat, hp, hbefore⟩⟩
    have hneed : 0 < (blockSize sz).toNat := Nat.lt_of_lt_of_le (by omega) hlayout.request.need_ge
    exact absurd hp (not_admits_of_end_le hl.region.base_pos hneed (hl.blocks.le i hi) (by omega) p)

/-- Behind a block of 24 bytes, a request at a multiple of 64 is placed with a block in front of it
and one behind it. -/
theorem alloc_finds_hole_between :
    ∃ h, new (fun _ ↦ 0) 0x1003 100 = some h ∧ ∃ tr s, system.Run ⟨h, []⟩ tr s ∧
      tr.length = 1 ∧ ∃ l, s.Inv l ∧ ∃ list ptr,
        s.list.allocChecked 16 64 = some (list, ptr) ∧ ptr = 0x1040 ∧
        ∃ l₁ i l₂ p, l = l₁ ++ i :: l₂ ∧ ptr.toNat = s.list.base.toNat + p ∧
          Admits s.list.base.toNat 64 16 i p := by
  have hcalls : ((new (fun _ ↦ 0) 0x1003 100).bind fun h ↦ (calls step ⟨h, []⟩
      [.alloc ⟨20, 8, ⟨3, by decide, rfl⟩, by decide⟩]).map fun r ↦
      (r.1.length, (r.2.list.allocChecked 16 64).map (·.2))) = some (1, some 0x1040) := by
    decide +kernel
  obtain ⟨h, hnew, hmap⟩ := Option.bind_eq_some_iff.1 hcalls
  obtain ⟨⟨tr, s⟩, hsome, hend⟩ := Option.map_eq_some_iff.1 hmap
  obtain ⟨hlen, hptr⟩ := Prod.mk.inj hend
  have hrun := run_of_calls hsome
  obtain ⟨l, hl, list, ptr, halloc, -, -, -, -, hplaced⟩ :=
    alloc_finds_hole ⟨by decide, by decide, by decide, by decide⟩ (by decide) hnew hrun
      (⟨⟨6, by decide, rfl⟩, by decide⟩ : ValidLayout 16 64)
  have hptr' : ptr = 0x1040 := by
    simp only [halloc, Option.map_some] at hptr
    exact Option.some.inj hptr
  obtain ⟨l₁, i, l₂, p, hsplit, hat, hadmits, -⟩ := hplaced (by rw [hptr']; decide)
  exact ⟨h, hnew, tr, s, hrun, hlen, l, hl, list, ptr, halloc, hptr', l₁, i, l₂, p, hsplit, hat,
    hadmits⟩

end Heap

end UserspaceRouter
