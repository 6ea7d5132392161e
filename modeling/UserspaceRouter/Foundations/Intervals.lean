import Mathlib.Data.List.Basic
import Mathlib.Tactic.SplitIfs

/-!
# Lists of disjoint intervals

A set of natural numbers kept as a list of half-open intervals `[lo, hi)`: what an address pool and
a free list of memory blocks both are. The two operations are the same as well. *Taking* a
subinterval `[a, b)` out of a block leaves the remnants in front of and behind it (`carve`);
*giving back* `[a, b)` puts it between its neighbours and merges it with those it touches
(`insertFree`).

Two things are tracked about a list. `Separated` is its shape: blocks are nonempty, in ascending
order, and never adjacent. `cov l x` is how often `x` is covered; counting, rather than asking
whether, is what lets several lists share one space, each point of it being covered once in total.
For each operation there is one lemma about either, and `eq_of_cov_eq` says that the shape leaves
no choice: a set has one separated list.
-/

namespace Intervals

/-- A half-open interval `[lo, hi)`. -/
abbrev Interval := ℕ × ℕ

/-- How often `[a, b)` covers `x`: once or not at all. -/
def ind (a b x : ℕ) : ℕ := if a ≤ x ∧ x < b then 1 else 0

/-- How often the intervals of `l` cover `x`. -/
def cov : List Interval → ℕ → ℕ
  | [], _ => 0
  | i :: l, x => ind i.1 i.2 x + cov l x

/-- The sum of the lengths. -/
def total : List Interval → ℕ
  | [] => 0
  | i :: l => (i.2 - i.1) + total l

/-- Nonempty blocks in ascending order, with a gap between any two. -/
def Separated (l : List Interval) : Prop :=
  (∀ i ∈ l, i.1 < i.2) ∧ l.Pairwise fun i j ↦ i.2 < j.1

variable {l l' l₁ l₂ : List Interval} {i : Interval} {a b c lo hi x : ℕ}

/-! ### Counting -/

@[simp] theorem cov_nil (x : ℕ) : cov [] x = 0 := rfl

@[simp] theorem cov_cons (i : Interval) (l : List Interval) (x : ℕ) :
    cov (i :: l) x = ind i.1 i.2 x + cov l x := rfl

@[simp] theorem total_nil : total [] = 0 := rfl

@[simp] theorem total_cons (i : Interval) (l : List Interval) :
    total (i :: l) = (i.2 - i.1) + total l := rfl

@[simp] theorem cov_append (l l' : List Interval) (x : ℕ) :
    cov (l ++ l') x = cov l x + cov l' x := by
  induction l with
  | nil => simp
  | cons i l ih =>
    rw [List.cons_append, cov_cons, cov_cons, ih]
    omega

@[simp] theorem total_append (l l' : List Interval) : total (l ++ l') = total l + total l' := by
  induction l with
  | nil => simp
  | cons i l ih =>
    rw [List.cons_append, total_cons, total_cons, ih]
    omega

theorem cov_perm (h : l.Perm l') (x : ℕ) : cov l x = cov l' x := by
  induction h with
  | nil => rfl
  | cons i _ ih => rw [cov_cons, cov_cons, ih]
  | swap i j l => simp only [cov_cons]; omega
  | trans _ _ ih₁ ih₂ => exact ih₁.trans ih₂

theorem total_perm (h : l.Perm l') : total l = total l' := by
  induction h with
  | nil => rfl
  | cons i _ ih => rw [total_cons, total_cons, ih]
  | swap i j l => simp only [total_cons]; omega
  | trans _ _ ih₁ ih₂ => exact ih₁.trans ih₂

theorem ind_of_mem (h : a ≤ x ∧ x < b) : ind a b x = 1 := if_pos h

theorem ind_of_notMem (h : ¬(a ≤ x ∧ x < b)) : ind a b x = 0 := if_neg h

/-- Adjacent intervals cover what their union covers. -/
theorem ind_add (hab : a ≤ b) (hbc : b ≤ c) (x : ℕ) : ind a b x + ind b c x = ind a c x := by
  unfold ind
  split_ifs <;> omega

theorem cov_eq_zero_of_forall (h : ∀ i ∈ l, ¬(i.1 ≤ x ∧ x < i.2)) : cov l x = 0 := by
  induction l with
  | nil => rfl
  | cons i l ih =>
    rw [cov_cons, ind_of_notMem (h i List.mem_cons_self),
      ih fun j hj ↦ h j (List.mem_cons_of_mem i hj)]

theorem le_cov_of_mem (hi : i ∈ l) (x : ℕ) : ind i.1 i.2 x ≤ cov l x := by
  induction l with
  | nil => exact absurd hi List.not_mem_nil
  | cons j l ih =>
    rw [cov_cons]
    rcases List.mem_cons.1 hi with rfl | hmem
    · omega
    · have := ih hmem
      omega

/-- A point is covered when some interval holds it. -/
theorem cov_pos_iff : 0 < cov l x ↔ ∃ i ∈ l, i.1 ≤ x ∧ x < i.2 := by
  constructor
  · intro h
    by_contra hno
    have hzero : cov l x = 0 := cov_eq_zero_of_forall fun i hi hx ↦ hno ⟨i, hi, hx⟩
    omega
  · rintro ⟨i, hi, hx⟩
    have hle := le_cov_of_mem hi x
    rw [ind_of_mem hx] at hle
    omega

/-- Intervals that cover no point twice are pairwise disjoint. -/
theorem pairwise_of_cov_le_one (h : ∀ x, cov l x ≤ 1) :
    l.Pairwise fun i j ↦ ∀ x, ¬((i.1 ≤ x ∧ x < i.2) ∧ (j.1 ≤ x ∧ x < j.2)) := by
  induction l with
  | nil => exact List.Pairwise.nil
  | cons i l ih =>
    refine List.pairwise_cons.2 ⟨fun j hj x hx ↦ ?_, ih fun x ↦ ?_⟩
    · have hone := h x
      have hle := le_cov_of_mem hj x
      rw [cov_cons, ind_of_mem hx.1] at hone
      rw [ind_of_mem hx.2] at hle
      omega
    · have hone := h x
      rw [cov_cons] at hone
      omega

/-! ### Separated lists -/

theorem separated_nil : Separated [] := ⟨by simp, List.Pairwise.nil⟩

theorem separated_append :
    Separated (l ++ l') ↔ Separated l ∧ Separated l' ∧ ∀ i ∈ l, ∀ j ∈ l', i.2 < j.1 := by
  unfold Separated
  rw [List.pairwise_append]
  constructor
  · rintro ⟨hne, hl, hl', hsep⟩
    exact ⟨⟨fun i hi ↦ hne i (List.mem_append_left _ hi), hl⟩,
      ⟨fun i hi ↦ hne i (List.mem_append_right _ hi), hl'⟩, hsep⟩
  · rintro ⟨⟨hne, hl⟩, ⟨hne', hl'⟩, hsep⟩
    refine ⟨fun i hi ↦ ?_, hl, hl', hsep⟩
    rcases List.mem_append.1 hi with hi | hi
    · exact hne i hi
    · exact hne' i hi

theorem separated_cons : Separated (i :: l) ↔ i.1 < i.2 ∧ (∀ j ∈ l, i.2 < j.1) ∧ Separated l := by
  unfold Separated
  rw [List.pairwise_cons]
  simp only [List.mem_cons, forall_eq_or_imp]
  tauto

theorem separated_singleton (h : a < b) : Separated [(a, b)] :=
  separated_cons.2 ⟨h, by simp, separated_nil⟩

/-- A separated list covers every point at most once. -/
theorem Separated.cov_le_one (h : Separated l) (x : ℕ) : cov l x ≤ 1 := by
  induction l with
  | nil => simp
  | cons i l ih =>
    obtain ⟨-, hsep, hl⟩ := separated_cons.1 h
    rw [cov_cons]
    by_cases hx : i.1 ≤ x ∧ x < i.2
    · have hzero : cov l x = 0 := cov_eq_zero_of_forall fun j hj hj' ↦ by
        have := hsep j hj
        omega
      exact Nat.le_of_eq (by rw [ind_of_mem hx, hzero])
    · rw [ind_of_notMem hx]
      have := ih hl
      omega

theorem Separated.cov_start_pos (h : Separated (i :: l)) : 0 < cov (i :: l) i.1 :=
  cov_pos_iff.2 ⟨i, List.mem_cons_self, Nat.le_refl _, (separated_cons.1 h).1⟩

/-- The first block starts at the first point that is covered. -/
theorem Separated.start_le (h : Separated (i :: l)) (hx : 0 < cov (i :: l) x) : i.1 ≤ x := by
  obtain ⟨hi, hsep, -⟩ := separated_cons.1 h
  obtain ⟨j, hj, hjx, -⟩ := cov_pos_iff.1 hx
  rcases List.mem_cons.1 hj with rfl | hj
  · exact hjx
  · have := hsep j hj
    omega

/-- The first block ends no later than the first gap behind its start. -/
theorem end_le_of_cov_eq_zero (hx : cov (i :: l) x = 0) (hi : i.1 ≤ x) : i.2 ≤ x := by
  by_contra hlt
  have hpos : 0 < cov (i :: l) x := cov_pos_iff.2 ⟨i, List.mem_cons_self, hi, Nat.lt_of_not_le hlt⟩
  omega

/-- There is a gap behind the first block. -/
theorem Separated.cov_end (h : Separated (i :: l)) : cov (i :: l) i.2 = 0 := by
  obtain ⟨-, hsep, -⟩ := separated_cons.1 h
  refine cov_eq_zero_of_forall fun j hj hx ↦ ?_
  rcases List.mem_cons.1 hj with rfl | hj
  · omega
  · have := hsep j hj
    omega

/-- **A set has one separated list.** -/
theorem eq_of_cov_eq (h : Separated l) (h' : Separated l') (heq : ∀ x, cov l x = cov l' x) :
    l = l' := by
  induction l generalizing l' with
  | nil =>
    rcases l' with - | ⟨j, l'⟩
    · rfl
    · exact absurd (heq j.1) (Nat.ne_of_lt h'.cov_start_pos)
  | cons i l ih =>
    rcases l' with - | ⟨j, l'⟩
    · exact absurd (heq i.1) (Nat.ne_of_gt h.cov_start_pos)
    · obtain ⟨hi, -, hl⟩ := separated_cons.1 h
      obtain ⟨hj, -, hl'⟩ := separated_cons.1 h'
      -- the first blocks start at the first point covered, and end at the first gap behind it
      have hlo : i.1 = j.1 := by
        refine Nat.le_antisymm (h.start_le ?_) (h'.start_le ?_)
        · rw [heq]
          exact h'.cov_start_pos
        · rw [← heq]
          exact h.cov_start_pos
      have hhi : i.2 = j.2 := by
        refine Nat.le_antisymm (end_le_of_cov_eq_zero (l := l) ?_ (by omega))
          (end_le_of_cov_eq_zero (l := l') ?_ (by omega))
        · rw [heq]
          exact h'.cov_end
        · rw [← heq]
          exact h.cov_end
      obtain rfl : i = j := Prod.ext hlo hhi
      rw [ih hl hl' fun x ↦ Nat.add_left_cancel (heq x)]

/-- Blocks inside a block may take its place. -/
theorem Separated.replace (h : Separated (l₁ ++ (lo, hi) :: l₂)) (hl : Separated l)
    (hin : ∀ i ∈ l, lo ≤ i.1 ∧ i.2 ≤ hi) : Separated (l₁ ++ (l ++ l₂)) := by
  obtain ⟨h₁, hrest, hsep⟩ := separated_append.1 h
  obtain ⟨hlohi, hafter, h₂⟩ := separated_cons.1 hrest
  refine separated_append.2 ⟨h₁, separated_append.2 ⟨hl, h₂, fun i hi' j hj ↦ ?_⟩, ?_⟩
  · exact Nat.lt_of_le_of_lt (hin i hi').2 (hafter j hj)
  · intro i hi' j hj
    rcases List.mem_append.1 hj with hj | hj
    · exact Nat.lt_of_lt_of_le (hsep i hi' (lo, hi) List.mem_cons_self) (hin j hj).1
    · exact hsep i hi' j (List.mem_cons_of_mem _ hj)

/-- In an ordered list, what a downward closed test drops from the front on fails it throughout. -/
theorem not_of_mem_dropWhile {α : Type*} {r : α → α → Prop} {p : α → Bool} {l : List α}
    (h : l.Pairwise r) (hp : ∀ i j, r i j → p j = true → p i = true) {i : α}
    (hi : i ∈ l.dropWhile p) : p i = false := by
  induction l with
  | nil => exact absurd hi List.not_mem_nil
  | cons j l ih =>
    obtain ⟨hj, hl⟩ := List.pairwise_cons.1 h
    rw [List.dropWhile_cons] at hi
    split_ifs at hi with hpj
    · exact ih hl hi
    · rcases List.mem_cons.1 hi with rfl | hmem
      · exact Bool.eq_false_iff.2 hpj
      · exact Bool.eq_false_iff.2 fun hpi ↦ hpj (hp j i (hj i hmem) hpi)

/-! ### Taking a subinterval -/

/-- What is left between `a` and `b`. -/
def remnant (a b : ℕ) : List Interval := if a < b then [(a, b)] else []

/-- What is left of the block `[lo, hi)` when `[a, b)` is taken out of it. -/
def carve (lo hi a b : ℕ) : List Interval := remnant lo a ++ remnant b hi

@[simp] theorem cov_remnant (a b x : ℕ) : cov (remnant a b) x = ind a b x := by
  unfold remnant
  split_ifs with h
  · simp
  · rw [ind_of_notMem (by omega), cov_nil]

@[simp] theorem total_remnant (a b : ℕ) : total (remnant a b) = b - a := by
  unfold remnant
  split_ifs with h
  · simp
  · rw [total_nil]
    omega

theorem separated_remnant (a b : ℕ) : Separated (remnant a b) := by
  unfold remnant
  split_ifs with h
  · exact separated_singleton h
  · exact separated_nil

theorem mem_remnant (hi : i ∈ remnant a b) : i = (a, b) ∧ a < b := by
  unfold remnant at hi
  split_ifs at hi with h
  · exact ⟨List.mem_singleton.1 hi, h⟩
  · exact absurd hi List.not_mem_nil

/-- **Taking keeps the list separated.** -/
theorem Separated.carve (h : Separated (l₁ ++ (lo, hi) :: l₂)) (hlo : lo ≤ a) (hab : a < b)
    (hhi : b ≤ hi) : Separated (l₁ ++ (Intervals.carve lo hi a b ++ l₂)) := by
  refine h.replace (separated_append.2 ⟨separated_remnant _ _, separated_remnant _ _, ?_⟩) ?_
  · intro i hi' j hj
    obtain ⟨rfl, -⟩ := mem_remnant hi'
    obtain ⟨rfl, -⟩ := mem_remnant hj
    exact hab
  · intro i hi'
    rcases List.mem_append.1 hi' with hi' | hi'
    · obtain ⟨rfl, -⟩ := mem_remnant hi'
      exact ⟨Nat.le_refl _, by show a ≤ hi; omega⟩
    · obtain ⟨rfl, -⟩ := mem_remnant hi'
      exact ⟨by show lo ≤ b; omega, Nat.le_refl _⟩

/-- **Taking uncovers what is taken**, and nothing else. -/
theorem cov_carve (hlo : lo ≤ a) (hab : a ≤ b) (hhi : b ≤ hi) (x : ℕ) :
    cov (carve lo hi a b) x + ind a b x = ind lo hi x := by
  rw [carve, cov_append, cov_remnant, cov_remnant, ← ind_add (Nat.le_trans hlo hab) hhi,
    ← ind_add hlo hab]
  omega

theorem total_carve (hlo : lo ≤ a) (hab : a ≤ b) (hhi : b ≤ hi) :
    total (carve lo hi a b) + (b - a) = hi - lo := by
  rw [carve, total_append, total_remnant, total_remnant]
  omega

/-! ### Giving back an interval -/

/-- Put `[a, b)` in front of `l`, merging it with the first block if they touch. -/
def joinRight (a b : ℕ) : List Interval → List Interval
  | [] => [(a, b)]
  | (lo, hi) :: l => if b = lo then (a, hi) :: l else (a, b) :: (lo, hi) :: l

/-- Put `[a, b)` between `l₁` and `l₂`, merging it with the last block of `l₁` and the first block
of `l₂` if they touch. -/
def insertFree (l₁ : List Interval) (a b : ℕ) (l₂ : List Interval) : List Interval :=
  match l₁.getLast? with
  | none => joinRight a b l₂
  | some (lo, hi) => if hi = a then l₁.dropLast ++ joinRight lo b l₂ else l₁ ++ joinRight a b l₂

@[simp] theorem insertFree_nil (a b : ℕ) (l₂ : List Interval) :
    insertFree [] a b l₂ = joinRight a b l₂ := rfl

theorem insertFree_concat (l₁ : List Interval) (lo hi a b : ℕ) (l₂ : List Interval) :
    insertFree (l₁ ++ [(lo, hi)]) a b l₂ =
      if hi = a then l₁ ++ joinRight lo b l₂ else l₁ ++ [(lo, hi)] ++ joinRight a b l₂ := by
  simp [insertFree]

theorem cov_joinRight (hab : a ≤ b) (h : ∀ i ∈ l, i.1 ≤ i.2) (x : ℕ) :
    cov (joinRight a b l) x = ind a b x + cov l x := by
  rcases l with - | ⟨⟨lo, hi⟩, l⟩
  · rfl
  · have hle : lo ≤ hi := h (lo, hi) List.mem_cons_self
    rw [joinRight]
    split_ifs with heq
    · subst heq
      show ind a hi x + cov l x = ind a b x + (ind b hi x + cov l x)
      rw [← ind_add hab hle]
      omega
    · rfl

theorem total_joinRight (hab : a ≤ b) (h : ∀ i ∈ l, i.1 ≤ i.2) :
    total (joinRight a b l) = (b - a) + total l := by
  rcases l with - | ⟨⟨lo, hi⟩, l⟩
  · rfl
  · have hle : lo ≤ hi := h (lo, hi) List.mem_cons_self
    rw [joinRight]
    split_ifs with heq
    · subst heq
      simp only [total_cons]
      omega
    · rfl

theorem le_of_mem_joinRight (hb : ∀ j ∈ l, b ≤ j.1) (hab : a ≤ b) (hi : i ∈ joinRight a b l) :
    a ≤ i.1 := by
  rcases l with - | ⟨⟨lo, hi⟩, l⟩
  · exact Nat.le_of_eq (by rw [List.mem_singleton.1 hi])
  · rw [joinRight] at hi
    split_ifs at hi with heq
    · rcases List.mem_cons.1 hi with rfl | hmem
      · exact Nat.le_refl _
      · exact Nat.le_trans hab (hb i (List.mem_cons_of_mem _ hmem))
    · rcases List.mem_cons.1 hi with rfl | hmem
      · exact Nat.le_refl _
      · exact Nat.le_trans hab (hb i hmem)

theorem separated_joinRight (h : Separated l) (hab : a < b) (hb : ∀ j ∈ l, b ≤ j.1) :
    Separated (joinRight a b l) := by
  rcases l with - | ⟨⟨lo, hi⟩, l⟩
  · exact separated_singleton hab
  · obtain ⟨hne, hsep, hl⟩ := separated_cons.1 h
    have hlo : b ≤ lo := hb (lo, hi) List.mem_cons_self
    rw [joinRight]
    split_ifs with heq
    · exact separated_cons.2 ⟨by show a < hi; omega, hsep, hl⟩
    · refine separated_cons.2 ⟨hab, fun j hj ↦ ?_, h⟩
      rcases List.mem_cons.1 hj with rfl | hmem
      · show b < lo
        omega
      · have := hsep j hmem
        show b < j.1
        omega

theorem mem_joinRight (hne : ∀ j ∈ l, j.1 ≤ j.2) (hmem : i ∈ joinRight a b l) :
    i ∈ l ∨ i.1 = a ∧ b ≤ i.2 ∧ (i.2 = b ∨ ∃ k ∈ l, k.2 = i.2) := by
  rcases l with - | ⟨⟨lo, hi⟩, l⟩
  · rw [List.mem_singleton.1 hmem]
    exact Or.inr ⟨rfl, Nat.le_refl _, Or.inl rfl⟩
  · rw [joinRight] at hmem
    split_ifs at hmem with heq
    · rcases List.mem_cons.1 hmem with rfl | hmem
      · have hle : lo ≤ hi := hne (lo, hi) List.mem_cons_self
        exact Or.inr ⟨rfl, by show b ≤ hi; omega, Or.inr ⟨(lo, hi), List.mem_cons_self, rfl⟩⟩
      · exact Or.inl (List.mem_cons_of_mem _ hmem)
    · rcases List.mem_cons.1 hmem with rfl | hmem
      · exact Or.inr ⟨rfl, Nat.le_refl _, Or.inl rfl⟩
      · exact Or.inl hmem

/-- Every block after giving back is one from before, or the block given back with what it was
merged with. -/
theorem mem_insertFree (hne : ∀ j ∈ l₁ ++ l₂, j.1 ≤ j.2) (hmem : i ∈ insertFree l₁ a b l₂) :
    i ∈ l₁ ++ l₂ ∨ i.1 ≤ a ∧ b ≤ i.2 ∧ (i.1 = a ∨ ∃ k ∈ l₁, k.1 = i.1) ∧
      (i.2 = b ∨ ∃ k ∈ l₂, k.2 = i.2) := by
  have hne₂ : ∀ j ∈ l₂, j.1 ≤ j.2 := fun j hj ↦ hne j (List.mem_append_right _ hj)
  rcases List.eq_nil_or_concat' l₁ with rfl | ⟨l, ⟨lo, hi⟩, rfl⟩
  · rcases mem_joinRight hne₂ hmem with hmem | ⟨ha, hb, hend⟩
    · exact Or.inl hmem
    · exact Or.inr ⟨Nat.le_of_eq ha, hb, Or.inl ha, hend⟩
  · have hlo : lo ≤ hi := hne (lo, hi) (by simp)
    rw [insertFree_concat] at hmem
    split_ifs at hmem with heq
    · rcases List.mem_append.1 hmem with hmem | hmem
      · exact Or.inl (by simp [hmem])
      · rcases mem_joinRight hne₂ hmem with hmem | ⟨ha, hb, hend⟩
        · exact Or.inl (by simp [hmem])
        · exact Or.inr ⟨by omega, hb, Or.inr ⟨(lo, hi), by simp, ha.symm⟩, hend⟩
    · rcases List.mem_append.1 hmem with hmem | hmem
      · exact Or.inl (List.mem_append_left _ hmem)
      · rcases mem_joinRight hne₂ hmem with hmem | ⟨ha, hb, hend⟩
        · exact Or.inl (by simp [hmem])
        · exact Or.inr ⟨Nat.le_of_eq ha, hb, Or.inl ha, hend⟩

/-- **Giving back keeps the list separated.** -/
theorem Separated.insertFree (h : Separated (l₁ ++ l₂)) (hab : a < b) (h₁ : ∀ i ∈ l₁, i.2 ≤ a)
    (h₂ : ∀ j ∈ l₂, b ≤ j.1) : Separated (Intervals.insertFree l₁ a b l₂) := by
  obtain ⟨hl₁, hl₂, hsep⟩ := separated_append.1 h
  rcases List.eq_nil_or_concat' l₁ with rfl | ⟨l, ⟨lo, hi⟩, rfl⟩
  · exact separated_joinRight hl₂ hab h₂
  · obtain ⟨hl, hlast, hbefore⟩ := separated_append.1 hl₁
    have hlo : lo < hi := (separated_cons.1 hlast).1
    have hhi : hi ≤ a := h₁ (lo, hi) (by simp)
    rw [insertFree_concat]
    split_ifs with heq
    · have hlob : lo < b := by omega
      refine separated_append.2 ⟨hl, separated_joinRight hl₂ hlob h₂, fun i hi' j hj ↦ ?_⟩
      have hlt : i.2 < lo := hbefore i hi' (lo, hi) (by simp)
      exact Nat.lt_of_lt_of_le hlt (le_of_mem_joinRight h₂ (by omega) hj)
    · refine separated_append.2 ⟨hl₁, separated_joinRight hl₂ hab h₂, fun i hi' j hj ↦ ?_⟩
      have hlt : i.2 < a := by
        rcases List.mem_append.1 hi' with hmem | hmem
        · have hlt' : i.2 < lo := hbefore i hmem (lo, hi) (by simp)
          omega
        · rw [List.mem_singleton.1 hmem]
          show hi < a
          omega
      exact Nat.lt_of_lt_of_le hlt (le_of_mem_joinRight h₂ (by omega) hj)

/-- **Giving back covers what is given back**, and nothing else. -/
theorem cov_insertFree (h : Separated (l₁ ++ l₂)) (hab : a ≤ b) (x : ℕ) :
    cov (insertFree l₁ a b l₂) x = cov (l₁ ++ l₂) x + ind a b x := by
  obtain ⟨hl₁, hl₂, -⟩ := separated_append.1 h
  have hne₂ : ∀ i ∈ l₂, i.1 ≤ i.2 := fun i hi ↦ Nat.le_of_lt (hl₂.1 i hi)
  rcases List.eq_nil_or_concat' l₁ with rfl | ⟨l, ⟨lo, hi⟩, rfl⟩
  · rw [insertFree_nil, cov_joinRight hab hne₂, List.nil_append]
    omega
  · have hlo : lo < hi := hl₁.1 (lo, hi) (by simp)
    rw [insertFree_concat]
    split_ifs with heq
    · subst heq
      rw [cov_append, cov_joinRight (by omega) hne₂, ← ind_add (Nat.le_of_lt hlo) hab]
      simp only [cov_append, cov_cons, cov_nil]
      omega
    · simp only [cov_append, cov_joinRight hab hne₂]
      omega

theorem total_insertFree (h : Separated (l₁ ++ l₂)) (hab : a ≤ b) :
    total (insertFree l₁ a b l₂) = total (l₁ ++ l₂) + (b - a) := by
  obtain ⟨hl₁, hl₂, -⟩ := separated_append.1 h
  have hne₂ : ∀ i ∈ l₂, i.1 ≤ i.2 := fun i hi ↦ Nat.le_of_lt (hl₂.1 i hi)
  rcases List.eq_nil_or_concat' l₁ with rfl | ⟨l, ⟨lo, hi⟩, rfl⟩
  · rw [insertFree_nil, total_joinRight hab hne₂, List.nil_append]
    omega
  · have hlo : lo < hi := hl₁.1 (lo, hi) (by simp)
    rw [insertFree_concat]
    split_ifs with heq
    · subst heq
      rw [total_append, total_joinRight (by omega) hne₂]
      simp only [total_append, total_cons, total_nil]
      omega
    · simp only [total_append, total_joinRight hab hne₂]
      omega

end Intervals
