import UserspaceRouter.Foundations.Intervals
import UserspaceRouter.Mem.FreeList

/-!
# The free blocks in memory

The abstract allocator is a list of free intervals: taking a block is `Intervals.carve`, giving one
back is `Intervals.insertFree`. This module shows that the list kept in memory does the same.

`Seg h cur l stop` says that the nodes in memory from `cur` on describe the blocks `l` and lead to
`stop`; the whole free list is a segment from the head to `NIL`. What a loop has passed and what
lies ahead of it are two segments, and the pointer `prev` it keeps is the last node of the first
(`IsPrev`), which is the one node that `link` redirects (`Seg.link`).

A segment depends on its own nodes only (`Seg.congr`), and blocks are large enough for their nodes,
so writes to other blocks never show. On this rest `seg_split` (what `alloc` does to the hole it has
found) and `seg_insertAt` (the four ways in which `dealloc` merges), and with the loops
`alloc_cases` and `exists_dealloc`.
-/

namespace UserspaceRouter

open ByteMemory Intervals

namespace FreeList

variable {h h' : FreeList} {l l₁ l₂ : List Interval} {cur prev stop off size next : UInt64} {n : ℕ}

/-! ### Segments -/

/-- From `cur` to `stop`, the nodes in memory describe the blocks `l`. -/
def Seg (h : FreeList) : UInt64 → List Interval → UInt64 → Prop
  | cur, [], stop => cur = stop
  | cur, i :: l, stop =>
    cur.toNat = i.1 ∧ i.1 + (h.entrySize cur).toNat = i.2 ∧ h.Seg (h.entryNext cur) l stop

/-- A segment is determined by its own nodes. -/
theorem Seg.congr (hseg : h.Seg cur l stop)
    (heq : ∀ off : UInt64, (∃ i ∈ l, off.toNat = i.1) → h'.entry off = h.entry off) :
    h'.Seg cur l stop := by
  induction l generalizing cur with
  | nil => exact hseg
  | cons i l ih =>
    obtain ⟨hcur, hsize, hrest⟩ := hseg
    have hentry : h'.entry cur = h.entry cur := heq cur ⟨i, List.mem_cons_self, hcur⟩
    refine ⟨hcur, by rw [entrySize, hentry]; exact hsize, ?_⟩
    rw [entryNext, hentry]
    refine ih hrest ?_
    rintro off ⟨j, hj, hoff⟩
    exact heq off ⟨j, List.mem_cons_of_mem _ hj, hoff⟩

theorem seg_append :
    h.Seg cur (l₁ ++ l₂) stop ↔ ∃ mid, h.Seg cur l₁ mid ∧ h.Seg mid l₂ stop := by
  induction l₁ generalizing cur with
  | nil =>
    constructor
    · exact fun hseg ↦ ⟨cur, rfl, hseg⟩
    · rintro ⟨mid, rfl, hseg⟩
      exact hseg
  | cons i l ih =>
    constructor
    · rintro ⟨hcur, hsize, hrest⟩
      obtain ⟨mid, hl, hl₂⟩ := ih.1 hrest
      exact ⟨mid, ⟨hcur, hsize, hl⟩, hl₂⟩
    · rintro ⟨mid, ⟨hcur, hsize, hl⟩, hl₂⟩
      exact ⟨hcur, hsize, ih.2 ⟨mid, hl, hl₂⟩⟩

theorem Seg.append {mid : UInt64} (h₁ : h.Seg cur l₁ mid) (h₂ : h.Seg mid l₂ stop) :
    h.Seg cur (l₁ ++ l₂) stop :=
  seg_append.2 ⟨mid, h₁, h₂⟩

theorem Seg.start (hseg : h.Seg cur l stop) : cur = stop ∨ ∃ i ∈ l, cur.toNat = i.1 := by
  rcases l with - | ⟨i, l⟩
  · exact Or.inl hseg
  · exact Or.inr ⟨i, List.mem_cons_self, hseg.1⟩

/-- `prev` is the last node of `l`, or `NIL` if there is none. -/
def IsPrev (prev : UInt64) (l : List Interval) : Prop :=
  match l.getLast? with
  | none => prev = nil
  | some i => prev.toNat = i.1

theorem isPrev_nil : IsPrev nil [] := rfl

theorem isPrev_concat {i : Interval} (hprev : prev.toNat = i.1) : IsPrev prev (l ++ [i]) := by
  rw [IsPrev, List.getLast?_concat]
  exact hprev

theorem IsPrev.of_concat {i : Interval} (hprev : IsPrev prev (l ++ [i])) : prev.toNat = i.1 := by
  rw [IsPrev, List.getLast?_concat] at hprev
  exact hprev

/-! ### Blocks -/

/-- Free blocks of a region of `n` bytes. -/
structure Blocks (n : ℕ) (l : List Interval) : Prop where
  sep : Separated l
  dvd : ∀ i ∈ l, 8 ∣ i.1 ∧ 8 ∣ i.2
  large : ∀ i ∈ l, i.1 + 16 ≤ i.2
  le : ∀ i ∈ l, i.2 ≤ n
  total_le : total l ≤ n

theorem ne_nil_of_lt (hlt : cur.toNat < 2 ^ 63) : cur ≠ nil := by
  rintro rfl
  exact absurd hlt (by decide)

/-- Nodes of which one lies behind the other. -/
theorem apart_of_le {a b : UInt64} (hab : a.toNat + 16 ≤ b.toNat) (hb : b.toNat < 2 ^ 63) :
    Apart 16 a b := by
  constructor <;> rw [UInt64.toNat_sub] <;> omega

theorem apart_of_or {a b : UInt64} (hab : a.toNat + 16 ≤ b.toNat ∨ b.toNat + 16 ≤ a.toNat)
    (ha : a.toNat < 2 ^ 63) (hb : b.toNat < 2 ^ 63) : Apart 16 a b :=
  hab.elim (fun hle ↦ apart_of_le hle hb) fun hle ↦ (apart_of_le hle ha).symm

/-- A free list that fits into the region has fewer blocks than the loops have rounds. -/
theorem Blocks.length_lt (hl : Blocks h.size.toNat l) : l.length < h.rounds := by
  have hcount : ∀ l : List Interval, (∀ i ∈ l, i.1 + 16 ≤ i.2) → 16 * l.length ≤ total l := by
    intro l hlarge
    induction l with
    | nil => exact Nat.le_refl _
    | cons i l ih =>
      rw [List.forall_mem_cons] at hlarge
      have := ih hlarge.2
      rw [List.length_cons, total_cons]
      omega
  have hle := Nat.le_trans (hcount l hl.large) hl.total_le
  rw [rounds]
  omega

/-! ### Redirecting a pointer -/

@[simp] theorem link_base : (h.link prev off).base = h.base := by
  unfold link
  split_ifs <;> rfl

@[simp] theorem link_size : (h.link prev off).size = h.size := by
  unfold link
  split_ifs <;> rfl

/-- Only the node `prev` is redirected. -/
theorem entry_link (hprev : prev = nil ∨ Apart 16 prev cur) :
    (h.link prev off).entry cur = h.entry cur := by
  unfold link
  split_ifs with hnil
  · rfl
  · exact entry_setNext_of_apart (hprev.resolve_left hnil)

/-- **What has been passed is made to lead to `off`.** -/
theorem Seg.link (hseg : h.Seg h.head l stop) (hprev : IsPrev prev l) (hl : Blocks n l)
    (hn : n < 2 ^ 63) : (h.link prev off).Seg (h.link prev off).head l off := by
  rcases List.eq_nil_or_concat' l with rfl | ⟨l, i, rfl⟩
  · obtain rfl : prev = nil := hprev
    rw [FreeList.link, if_pos rfl]
    rfl
  · obtain ⟨mid, hbefore, hmid, hsize, -⟩ := seg_append.1 hseg
    obtain rfl : prev = mid := UInt64.toNat.inj (hprev.of_concat.trans hmid.symm)
    obtain ⟨-, -, hsep⟩ := separated_append.1 hl.sep
    have hi : prev.toNat < 2 ^ 63 := by
      have := hl.large i (by simp)
      have := hl.le i (by simp)
      omega
    rw [FreeList.link, if_neg (ne_nil_of_lt hi)]
    refine Seg.append (hbefore.congr ?_) ⟨hmid, ?_, ?_⟩
    · -- the blocks in front of the last one
      rintro p ⟨j, hj, hp⟩
      have hlarge := hl.large j (List.mem_append_left _ hj)
      have hlt := hsep j hj i (List.mem_singleton_self i)
      exact entry_setNext_of_apart (apart_of_le (by omega) hi).symm
    · rw [entrySize, entry_setNext_self]
      exact hsize
    · rw [entryNext, entry_setNext_self]
      rfl

/-- The node in front is not one of those behind. -/
theorem IsPrev.apart (hprev : IsPrev prev l) (hl : Blocks n l) (hle : ∀ i ∈ l, i.2 ≤ cur.toNat)
    (hcur : cur.toNat < 2 ^ 63) : prev = nil ∨ Apart 16 prev cur := by
  rcases List.eq_nil_or_concat' l with rfl | ⟨l, i, rfl⟩
  · exact Or.inl hprev
  · have hlarge := hl.large i (by simp)
    have hle := hle i (by simp)
    have hi := hprev.of_concat
    exact Or.inr (apart_of_le (by omega) hcur)

/-! ### Taking a block -/

@[simp] theorem leave_base : (h.leave off size next).1.base = h.base := by
  unfold leave
  split_ifs <;> rfl

@[simp] theorem leave_size : (h.leave off size next).1.size = h.size := by
  unfold leave
  split_ifs <;> rfl

@[simp] theorem leave_head : (h.leave off size next).1.head = h.head := by
  unfold leave
  split_ifs <;> rfl

/-- A remnant is a block, or nothing. -/
theorem seg_leave (h : FreeList) (off next : UInt64) (hsize : size.toNat = 0 ∨ 16 ≤ size.toNat) :
    (h.leave off size next).1.Seg (h.leave off size next).2
      (remnant off.toNat (off.toNat + size.toNat)) next := by
  unfold leave remnant
  split_ifs with hle hlt hlt
  · exact ⟨rfl, by rw [entrySize, entry_writeEntry_self],
      by rw [entryNext, entry_writeEntry_self]; rfl⟩
  · have hle' : 16 ≤ size.toNat := UInt64.le_iff_toNat_le.1 hle
    omega
  · have hle' : ¬16 ≤ size.toNat := fun hge ↦ hle (UInt64.le_iff_toNat_le.2 hge)
    omega
  · rfl

theorem entry_leave (hcur : cur.toNat + 16 ≤ off.toNat ∨ off.toNat + size.toNat ≤ cur.toNat)
    (hlt : cur.toNat < 2 ^ 63) (hoff : off.toNat < 2 ^ 63) :
    (h.leave off size next).1.entry cur = h.entry cur := by
  unfold leave
  split_ifs with hle
  · have hle' : 16 ≤ size.toNat := UInt64.le_iff_toNat_le.1 hle
    exact entry_writeEntry_of_apart (apart_of_or (by omega) hoff hlt)
  · rfl

theorem Blocks.left (hl : Blocks n (l₁ ++ l₂)) : Blocks n l₁ where
  sep := (separated_append.1 hl.sep).1
  dvd i hi := hl.dvd i (List.mem_append_left _ hi)
  large i hi := hl.large i (List.mem_append_left _ hi)
  le i hi := hl.le i (List.mem_append_left _ hi)
  total_le := Nat.le_trans (by rw [total_append]; omega) hl.total_le

/-- The two remnants of a hole: what is left behind the block is written first, then what is left in
front of it, and nothing outside the hole changes. -/
theorem seg_carve (h : FreeList) (next : UInt64) {stop back front : UInt64} {lo hi a b : ℕ}
    (hcur : cur.toNat = lo) (hstop : stop.toNat = b) (hfront : lo + front.toNat = a)
    (hback : b + back.toNat = hi) (hab : a + 16 ≤ b) (hhi : hi < 2 ^ 63)
    (hfront' : front.toNat = 0 ∨ 16 ≤ front.toNat) (hback' : back.toNat = 0 ∨ 16 ≤ back.toNat) :
    ((h.leave stop back next).1.leave cur front (h.leave stop back next).2).1.Seg
        ((h.leave stop back next).1.leave cur front (h.leave stop back next).2).2
        (carve lo hi a b) next ∧
      ∀ p : UInt64, p.toNat < 2 ^ 63 → p.toNat + 16 ≤ lo ∨ hi ≤ p.toNat →
        ((h.leave stop back next).1.leave cur front (h.leave stop back next).2).1.entry p =
          h.entry p := by
  have hbackSeg := seg_leave h stop next hback'
  set p₁ := h.leave stop back next
  have hfrontSeg := seg_leave p₁.1 cur p₁.2 hfront'
  rw [hstop, hback] at hbackSeg
  rw [hcur, hfront] at hfrontSeg
  -- the second write is in front of the block, so that the remnant behind it stays
  have hframe : ∀ p : UInt64, p.toNat < 2 ^ 63 → p.toNat + 16 ≤ lo ∨ a ≤ p.toNat →
      (p₁.1.leave cur front p₁.2).1.entry p = p₁.1.entry p := fun p hp hout ↦
    entry_leave (by omega) hp (by omega)
  refine ⟨hfrontSeg.append (hbackSeg.congr ?_), ?_⟩
  · rintro p ⟨i, hi', hp⟩
    obtain ⟨rfl, hlt⟩ := mem_remnant hi'
    dsimp only at hp
    exact hframe p (by omega) (by omega)
  · intro p hp hout
    rw [hframe p hp (by omega)]
    exact entry_leave (by omega) hp (by omega)

/-- **Taking a block out of a hole** leaves its remnants in the list, in its place. -/
theorem seg_split {need aligned : UInt64} {lo hi b : ℕ} (hl : Blocks n (l₁ ++ (lo, hi) :: l₂))
    (hn : n < 2 ^ 63) (hpassed : h.Seg h.head l₁ cur) (hprev : IsPrev prev l₁)
    (hahead : h.Seg cur ((lo, hi) :: l₂) nil) (hb : (aligned + need).toNat = b)
    (hlo : aligned.toNat = lo ∨ lo + 16 ≤ aligned.toNat) (hab : aligned.toNat + 16 ≤ b)
    (hhi : b = hi ∨ b + 16 ≤ hi) :
    (h.split need prev cur aligned).Seg (h.split need prev cur aligned).head
      (l₁ ++ (carve lo hi aligned.toNat b ++ l₂)) nil := by
  obtain ⟨hcur, hsize, hrest⟩ := hahead
  obtain ⟨-, hsep₂, hsep₁⟩ := separated_append.1 hl.sep
  obtain ⟨-, hafter, -⟩ := separated_cons.1 hsep₂
  dsimp only at hcur hsize
  have hhin : hi ≤ n := hl.le (lo, hi) (by simp)
  have hholeEnd : (cur + h.entrySize cur).toNat = hi := by
    rw [UInt64.toNat_add]
    omega
  have hback : b + (cur + h.entrySize cur - (aligned + need)).toNat = hi := by
    rw [UInt64.toNat_sub_of_le _ _ (UInt64.le_iff_toNat_le.2 (by omega)), hholeEnd, hb]
    omega
  have hfront : lo + (aligned - cur).toNat = aligned.toNat := by
    rw [UInt64.toNat_sub_of_le _ _ (UInt64.le_iff_toNat_le.2 (by omega)), hcur]
    omega
  obtain ⟨hcarve, hframe⟩ := seg_carve h (h.entryNext cur) hcur hb hfront hback hab (by omega)
    (by omega) (by omega)
  set p₁ := h.leave (aligned + need) (cur + h.entrySize cur - (aligned + need)) (h.entryNext cur)
    with hp₁
  set p₂ := p₁.1.leave cur (aligned - cur) p₁.2 with hp₂
  -- the nodes in front of the hole and behind it are as before
  have hlast : ∀ i ∈ l₁, i.2 ≤ lo := fun i hi' ↦
    Nat.le_of_lt (hsep₁ i hi' (lo, hi) List.mem_cons_self)
  have hbehind : ∀ j ∈ l₂, hi < j.1 ∧ j.1 < n := fun j hj ↦ by
    have hmem : j ∈ l₁ ++ (lo, hi) :: l₂ := by simp [hj]
    have hlarge := hl.large j hmem
    have hle := hl.le j hmem
    exact ⟨hafter j hj, by omega⟩
  have hpassed₂ : p₂.1.Seg p₂.1.head l₁ cur := by
    rw [hp₂, leave_head, hp₁, leave_head]
    refine hpassed.congr ?_
    rintro p ⟨i, hi', hp⟩
    have hlarge := hl.large i (List.mem_append_left _ hi')
    have hle := hlast i hi'
    exact hframe p (by omega) (by omega)
  have hrest₂ : p₂.1.Seg (h.entryNext cur) l₂ nil := by
    refine hrest.congr ?_
    rintro p ⟨j, hj, hp⟩
    have hbounds := hbehind j hj
    exact hframe p (by omega) (by omega)
  refine (hpassed₂.link hprev hl.left hn).append ((hcarve.append hrest₂).congr ?_)
  rintro p ⟨j, hj, hp⟩
  have hbounds : lo ≤ j.1 ∧ j.1 < n := by
    rcases List.mem_append.1 hj with hj | hj
    · rcases List.mem_append.1 hj with hj | hj
      · obtain ⟨rfl, hlt⟩ := mem_remnant hj
        dsimp only
        omega
      · obtain ⟨rfl, hlt⟩ := mem_remnant hj
        dsimp only
        omega
    · have hbounds := hbehind j hj
      omega
  refine entry_link (hprev.apart hl.left (fun i hi' ↦ ?_) (by omega))
  exact Nat.le_trans (hlast i hi') (by omega)

/-- Where a request is placed in a hole that it fits into. -/
theorem fit_spec {layout : Layout} {aligned : UInt64} {lo hi : ℕ} (hr : h.Region)
    (hcur : cur.toNat = lo) (hsize : lo + (h.entrySize cur).toNat = hi) (hdvd : 8 ∣ lo)
    (hlarge : lo + 16 ≤ hi) (hle : hi ≤ h.size.toNat)
    (hfit : h.fit (max layout.align align) (blockSizeFor layout) cur = some aligned) :
    (aligned + blockSizeFor layout).toNat = aligned.toNat + (blockSizeFor layout).toNat ∧
      (aligned.toNat = lo ∨ lo + 16 ≤ aligned.toNat) ∧
      (aligned.toNat + (blockSizeFor layout).toNat = hi ∨
        aligned.toNat + (blockSizeFor layout).toNat + 16 ≤ hi) ∧
      (max layout.align align).toNat ∣ h.base.toNat + aligned.toNat := by
  obtain ⟨k, hk3, hk62, hk⟩ := exists_max_align_eq layout
  obtain ⟨-, -, -, hneed⟩ := blockSizeFor_spec layout
  have hroom : cur.toNat + 16 ≤ h.size.toNat := by omega
  obtain ⟨hplace, halign⟩ := (isLeast_place hr (by omega) hk hroom).1
  have hplaceLe := place_le hr hk3 hk62 hk (by omega) hroom
  have hlt := hr.size_lt
  have hholeEnd : (cur + h.entrySize cur).toNat = hi := by
    rw [UInt64.toNat_add]
    omega
  rw [fit] at hfit
  split_ifs at hfit with hcond
  obtain rfl := Option.some.inj hfit
  have hend : (h.place (max layout.align align) cur + blockSizeFor layout).toNat =
      (h.place (max layout.align align) cur).toNat + (blockSizeFor layout).toNat := by
    rw [UInt64.toNat_add]
    omega
  refine ⟨hend, by omega, ?_, halign⟩
  obtain ⟨hle', hback⟩ := hcond
  have hback' := UInt64.toNat_sub_of_le _ _ hle'
  rw [hholeEnd, hend] at hback'
  rw [UInt64.le_iff_toNat_le, hholeEnd, hend] at hle'
  rw [← UInt64.toNat_inj, UInt64.le_iff_toNat_le, hback'] at hback
  have h16 : minBlock.toNat = 16 := rfl
  have h0 : (0 : UInt64).toNat = 0 := rfl
  omega

@[simp] theorem split_base {need aligned : UInt64} :
    (h.split need prev cur aligned).base = h.base := by
  simp [split]

@[simp] theorem split_size {need aligned : UInt64} :
    (h.split need prev cur aligned).size = h.size := by
  simp [split]

/-- `need` bytes at `a` are taken out of one of the blocks `l`; `l'` is left, in which no block is
too small. -/
def Takes (need a : ℕ) (l l' : List Interval) : Prop :=
  ∃ l₁ lo hi l₂, l = l₁ ++ (lo, hi) :: l₂ ∧ l' = l₁ ++ (carve lo hi a (a + need) ++ l₂) ∧
    (a = lo ∨ lo + 16 ≤ a) ∧ (a + need = hi ∨ a + need + 16 ≤ hi)

/-- The loop of `alloc`, from a place in the list on. -/
theorem allocFrom_cases {layout : Layout} {fuel : ℕ} (hr : h.Region) (hfuel : l₂.length < fuel)
    (hl : Blocks h.size.toNat (l₁ ++ l₂)) (hpassed : h.Seg h.head l₁ cur) (hprev : IsPrev prev l₁)
    (hahead : h.Seg cur l₂ nil) :
    h.allocFrom (max layout.align align) (blockSizeFor layout) fuel prev cur = some (h, 0) ∨
    ∃ h' aligned l', h.allocFrom (max layout.align align) (blockSizeFor layout) fuel prev cur =
        some (h', h.base + aligned) ∧
      Takes (blockSizeFor layout).toNat aligned.toNat (l₁ ++ l₂) l' ∧
      (max layout.align align).toNat ∣ h.base.toNat + aligned.toNat ∧
      h'.Seg h'.head l' nil ∧ h'.base = h.base ∧ h'.size = h.size := by
  induction l₂ generalizing l₁ prev cur fuel with
  | nil =>
    obtain rfl : cur = nil := hahead
    obtain ⟨fuel, rfl⟩ := Nat.exists_eq_add_one_of_ne_zero (Nat.ne_of_gt hfuel)
    rw [allocFrom, if_pos rfl]
    exact Or.inl rfl
  | cons i l₂ ih =>
    have hi : i ∈ l₁ ++ i :: l₂ := by simp
    have hlarge := hl.large i hi
    have hle := hl.le i hi
    have hlt := hr.size_lt
    obtain ⟨hcur, hsize, hrest⟩ := hahead
    have hne : cur ≠ nil := ne_nil_of_lt (by omega)
    obtain ⟨fuel, rfl⟩ := Nat.exists_eq_add_one_of_ne_zero (Nat.ne_of_gt (Nat.zero_lt_of_lt hfuel))
    rw [allocFrom, if_neg hne]
    rcases hfit : h.fit (max layout.align align) (blockSizeFor layout) cur with - | aligned
    · -- on to the next hole
      have hl' : Blocks h.size.toNat (l₁ ++ [i] ++ l₂) := by rwa [List.append_assoc]
      have hnode : h.Seg cur [i] (h.entryNext cur) := ⟨hcur, hsize, rfl⟩
      have hcases := ih (Nat.lt_of_succ_lt_succ hfuel) hl' (hpassed.append hnode)
        (isPrev_concat hcur) hrest
      rwa [List.append_assoc] at hcases
    · obtain ⟨hend, hlo, hhi, halign⟩ := fit_spec hr hcur hsize (hl.dvd i hi).1 hlarge hle hfit
      obtain ⟨-, hneed, -⟩ := blockSizeFor_spec layout
      refine Or.inr ⟨_, aligned, _, rfl, ⟨l₁, i.1, i.2, l₂, rfl, rfl, hlo, hhi⟩, halign, ?_,
        split_base, split_size⟩
      exact seg_split hl hlt hpassed hprev ⟨hcur, hsize, hrest⟩ hend hlo (by omega) hhi

/-- **Allocation** ends; it returns null and changes nothing, or takes a block out of the list. -/
theorem alloc_cases (hr : h.Region) (hl : Blocks h.size.toNat l) (hseg : h.Seg h.head l nil)
    (layout : Layout) :
    h.alloc layout = some (h, 0) ∨
    ∃ h' aligned l', h.alloc layout = some (h', h.base + aligned) ∧
      Takes (blockSizeFor layout).toNat aligned.toNat l l' ∧
      (max layout.align align).toNat ∣ h.base.toNat + aligned.toNat ∧
      h'.Seg h'.head l' nil ∧ h'.base = h.base ∧ h'.size = h.size := by
  have hpassed : h.Seg h.head [] h.head := rfl
  have hl' : Blocks h.size.toNat ([] ++ l) := hl
  exact allocFrom_cases hr hl.length_lt hl' hpassed isPrev_nil hseg

/-! ### Giving a block back -/

/-- The loop of `insert_free`, from a place in the list on: it stops between the blocks that start
before `off` and those that do not. -/
theorem exists_gap (off : UInt64) {fuel : ℕ} (hfuel : l₂.length < fuel) (hl : Blocks n (l₁ ++ l₂))
    (hn : n < 2 ^ 63) (hpassed : h.Seg h.head l₁ cur) (hprev : IsPrev prev l₁)
    (hahead : h.Seg cur l₂ nil) (hbefore : ∀ i ∈ l₁, i.1 < off.toNat) :
    ∃ prev' cur' l₁' l₂', h.gap off fuel prev cur = some (prev', cur') ∧ l₁ ++ l₂ = l₁' ++ l₂' ∧
      h.Seg h.head l₁' cur' ∧ IsPrev prev' l₁' ∧ h.Seg cur' l₂' nil ∧
      (∀ i ∈ l₁', i.1 < off.toNat) ∧ ∀ j ∈ l₂', off.toNat ≤ j.1 := by
  induction l₂ generalizing l₁ prev cur fuel with
  | nil =>
    obtain rfl : cur = nil := hahead
    obtain ⟨fuel, rfl⟩ := Nat.exists_eq_add_one_of_ne_zero (Nat.ne_of_gt hfuel)
    refine ⟨prev, nil, l₁, [], ?_, rfl, hpassed, hprev, rfl, hbefore, by simp⟩
    rw [gap, if_neg fun hc ↦ hc.1 rfl]
  | cons i l₂ ih =>
    have hi : i ∈ l₁ ++ i :: l₂ := by simp
    have hlarge := hl.large i hi
    have hle := hl.le i hi
    have hahead' := hahead
    obtain ⟨hcur, hsize, hrest⟩ := hahead
    have hne : cur ≠ nil := ne_nil_of_lt (by omega)
    obtain ⟨fuel, rfl⟩ := Nat.exists_eq_add_one_of_ne_zero (Nat.ne_of_gt (Nat.zero_lt_of_lt hfuel))
    rw [gap]
    by_cases hlt : cur < off
    · rw [if_pos ⟨hne, hlt⟩]
      have hl' : Blocks n (l₁ ++ [i] ++ l₂) := by rwa [List.append_assoc]
      have hnode : h.Seg cur [i] (h.entryNext cur) := ⟨hcur, hsize, rfl⟩
      have hbefore' : ∀ j ∈ l₁ ++ [i], j.1 < off.toNat := by
        rw [List.forall_mem_append, List.forall_mem_singleton, ← hcur]
        exact ⟨hbefore, UInt64.lt_iff_toNat_lt.1 hlt⟩
      have hgap := ih (Nat.lt_of_succ_lt_succ hfuel) hl' (hpassed.append hnode)
        (isPrev_concat hcur) hrest hbefore'
      rwa [List.append_assoc] at hgap
    · rw [if_neg fun hc ↦ hlt hc.2]
      refine ⟨prev, cur, l₁, i :: l₂, rfl, rfl, hpassed, hprev, hahead', hbefore, ?_⟩
      have hoff : off.toNat ≤ i.1 := by
        rw [← hcur]
        exact Nat.le_of_not_lt fun hc ↦ hlt (UInt64.lt_iff_toNat_lt.2 hc)
      obtain ⟨-, hsep, -⟩ := separated_append.1 hl.sep
      obtain ⟨-, hafter, -⟩ := separated_cons.1 hsep
      rw [List.forall_mem_cons]
      refine ⟨hoff, fun j hj ↦ ?_⟩
      have := hafter j hj
      omega

/-- The size and the next node of a block of `size` bytes at `off` that takes in the block at `cur`
if they touch. -/
def absorb (h : FreeList) (off size cur : UInt64) : Entry :=
  if cur ≠ nil ∧ off + size = cur then ⟨size + h.entrySize cur, h.entryNext cur⟩ else ⟨size, cur⟩

/-- A block that is written with what it absorbs. -/
theorem seg_joinRight (hl : Blocks n l) (hn : n < 2 ^ 63) (hahead : h.Seg cur l nil)
    (hend : off.toNat + size.toNat ≤ n) (hafter : ∀ j ∈ l, off.toNat + size.toNat ≤ j.1)
    (hoff : h'.entry off = h.absorb off size cur)
    (hother : ∀ q : UInt64, (∃ j ∈ l, q.toNat = j.1) → h'.entry q = h.entry q) :
    h'.Seg off (joinRight off.toNat (off.toNat + size.toNat) l) nil := by
  rcases l with - | ⟨⟨lo, hi⟩, l⟩
  · obtain rfl : cur = nil := hahead
    rw [absorb, if_neg fun hc ↦ hc.1 rfl] at hoff
    exact ⟨rfl, by rw [entrySize, hoff], by rw [entryNext, hoff]; rfl⟩
  · obtain ⟨hcur, hsize, hrest⟩ := hahead
    dsimp only at hcur hsize
    have hle : hi ≤ n := hl.le (lo, hi) List.mem_cons_self
    have hlo : off.toNat + size.toNat ≤ lo := hafter (lo, hi) List.mem_cons_self
    have hne : cur ≠ nil := ne_nil_of_lt (by omega)
    have hadd : (off + size).toNat = off.toNat + size.toNat := by
      rw [UInt64.toNat_add]
      omega
    have hiff : off + size = cur ↔ off.toNat + size.toNat = lo := by
      rw [← UInt64.toNat_inj, hadd, hcur]
    rw [joinRight]
    by_cases htouch : off.toNat + size.toNat = lo
    · rw [absorb, if_pos ⟨hne, hiff.2 htouch⟩] at hoff
      rw [if_pos htouch]
      refine ⟨rfl, ?_, ?_⟩
      · rw [entrySize, hoff, UInt64.toNat_add]
        dsimp only
        omega
      · rw [entryNext, hoff]
        refine hrest.congr ?_
        rintro q ⟨j, hj, hq⟩
        exact hother q ⟨j, List.mem_cons_of_mem _ hj, hq⟩
    · rw [absorb, if_neg fun hc ↦ htouch (hiff.1 hc.2)] at hoff
      rw [if_neg htouch]
      refine ⟨rfl, by rw [entrySize, hoff], ?_⟩
      rw [entryNext, hoff]
      have hseg : h.Seg cur ((lo, hi) :: l) nil := ⟨hcur, hsize, hrest⟩
      exact hseg.congr hother

/-- The branch of `insert_free` in which the block is merged into the one before it: the node `prev`
grows, and everything else is as before. -/
theorem insertAt_merge (size : UInt64) (hne : prev ≠ nil) (hoff : prev + h.entrySize prev = off)
    (hnext : h.entryNext prev = cur) (hapart : cur = nil ∨ Apart 16 prev cur) :
    (h.insertAt off size prev cur).entry prev = h.absorb prev (h.entrySize prev + size) cur ∧
      (∀ q, Apart 16 prev q → (h.insertAt off size prev cur).entry q = h.entry q) ∧
      (h.insertAt off size prev cur).head = h.head := by
  rw [insertAt, if_pos ⟨hne, hoff⟩, absorb]
  dsimp only
  set h₁ := h.setSize prev (h.entrySize prev + size) with hh₁
  have hentry₁ : h₁.entry prev = ⟨h.entrySize prev + size, cur⟩ := by
    rw [hh₁, entry_setSize_self, hnext]
  have hsize₁ : h₁.entrySize prev = h.entrySize prev + size := by rw [entrySize, hentry₁]
  have hother₁ : ∀ q, Apart 16 prev q → h₁.entry q = h.entry q := fun q ↦ entry_setSize_of_apart
  rw [hsize₁]
  split_ifs with htouch
  · set h₂ := h₁.setSize prev (h.entrySize prev + size + h₁.entrySize cur) with hh₂
    have hother₂ : ∀ q, Apart 16 prev q → h₂.entry q = h.entry q := fun q hq ↦
      (entry_setSize_of_apart hq).trans (hother₁ q hq)
    have hcur := hapart.resolve_left htouch.1
    have hcurSize : h₁.entrySize cur = h.entrySize cur := congrArg Entry.size (hother₁ cur hcur)
    have hcurNext : h₂.entryNext cur = h.entryNext cur := congrArg Entry.next (hother₂ cur hcur)
    refine ⟨?_, fun q hq ↦ (entry_setNext_of_apart hq).trans (hother₂ q hq), rfl⟩
    rw [entry_setNext_self, hcurNext, entrySize, hh₂, entry_setSize_self, hcurSize]
  · exact ⟨hentry₁, hother₁, rfl⟩

/-- The branch of `insert_free` in which the block gets a node of its own. -/
theorem insertAt_own (hne : prev = nil ∨ prev + h.entrySize prev ≠ off) :
    h.insertAt off size prev cur =
      (h.writeEntry off (h.absorb off size cur).size (h.absorb off size cur).next).link prev
        off := by
  have hcond : ¬(prev ≠ nil ∧ prev + h.entrySize prev = off) := fun hc ↦
    hne.elim hc.1 fun hne ↦ hne hc.2
  rw [insertAt, if_neg hcond, absorb]
  split_ifs <;> rfl

theorem Blocks.right (hl : Blocks n (l₁ ++ l₂)) : Blocks n l₂ where
  sep := (separated_append.1 hl.sep).2.1
  dvd i hi := hl.dvd i (List.mem_append_right _ hi)
  large i hi := hl.large i (List.mem_append_right _ hi)
  le i hi := hl.le i (List.mem_append_right _ hi)
  total_le := Nat.le_trans (by rw [total_append]; omega) hl.total_le

/-- The block is not merged with the one before it. -/
theorem seg_insertAt_own (hl : Blocks n (l₁ ++ l₂)) (hn : n < 2 ^ 63)
    (hpassed : h.Seg h.head l₁ cur) (hprev : IsPrev prev l₁) (hahead : h.Seg cur l₂ nil)
    (hsize : 16 ≤ size.toNat) (hend : off.toNat + size.toNat ≤ n)
    (hbefore : ∀ i ∈ l₁, i.2 ≤ off.toNat) (hafter : ∀ j ∈ l₂, off.toNat + size.toNat ≤ j.1)
    (hne : prev = nil ∨ prev + h.entrySize prev ≠ off) :
    (h.insertAt off size prev cur).Seg (h.insertAt off size prev cur).head
      (l₁ ++ joinRight off.toNat (off.toNat + size.toNat) l₂) nil := by
  rw [insertAt_own hne]
  set e := h.absorb off size cur with he
  have hpassed' : (h.writeEntry off e.size e.next).Seg (h.writeEntry off e.size e.next).head l₁
      cur := by
    refine hpassed.congr ?_
    rintro p ⟨i, hi, hp⟩
    have hlarge := hl.large i (List.mem_append_left _ hi)
    have hle := hbefore i hi
    exact entry_writeEntry_of_apart (apart_of_le (by omega) (by omega)).symm
  refine (hpassed'.link hprev hl.left hn).append
    (seg_joinRight hl.right hn hahead hend hafter ?_ ?_)
  · rw [entry_link (hprev.apart hl.left hbefore (by omega)), entry_writeEntry_self]
  · rintro q ⟨j, hj, hq⟩
    have hle := hafter j hj
    have hlarge := hl.large j (List.mem_append_right _ hj)
    have hjn := hl.le j (List.mem_append_right _ hj)
    rw [entry_link (hprev.apart hl.left (fun i hi ↦ ?_) (by omega)),
      entry_writeEntry_of_apart (apart_of_le (by omega) (by omega))]
    have := hbefore i hi
    omega

/-- The block is merged with the one before it. -/
theorem seg_insertAt_merge {lo hi : ℕ} (hl : Blocks n (l₁ ++ [(lo, hi)] ++ l₂)) (hn : n < 2 ^ 63)
    (hseg : h.Seg h.head l₁ prev) (hmid : h.Seg prev [(lo, hi)] cur) (hahead : h.Seg cur l₂ nil)
    (hend : off.toNat + size.toNat ≤ n) (hafter : ∀ j ∈ l₂, off.toNat + size.toNat ≤ j.1)
    (htouch : hi = off.toNat) :
    (h.insertAt off size prev cur).Seg (h.insertAt off size prev cur).head
      (l₁ ++ joinRight lo (off.toNat + size.toNat) l₂) nil := by
  obtain ⟨hlo, hprevSize, hnext⟩ := hmid
  replace hnext : h.entryNext prev = cur := hnext
  dsimp only at hlo hprevSize
  have hlarge : lo + 16 ≤ hi := hl.large (lo, hi) (by simp)
  have hhi : prev + h.entrySize prev = off := by
    rw [← UInt64.toNat_inj, UInt64.toNat_add]
    omega
  -- the nodes behind are apart from the one that grows
  have hother : ∀ q : UInt64, (∃ j ∈ l₂, q.toNat = j.1) → Apart 16 prev q := by
    rintro q ⟨j, hj, hq⟩
    have hle := hafter j hj
    have hlarge' := hl.large j (List.mem_append_right _ hj)
    have hjn := hl.le j (List.mem_append_right _ hj)
    exact apart_of_le (by omega) (by omega)
  obtain ⟨hentry, hframe, hhead⟩ := insertAt_merge size (ne_nil_of_lt (by omega)) hhi hnext
    (hahead.start.imp_right (hother cur))
  have hblock : prev.toNat + (h.entrySize prev + size).toNat = off.toNat + size.toNat := by
    rw [UInt64.toNat_add]
    omega
  have hjoin := seg_joinRight hl.right hn hahead (by rw [hblock]; exact hend)
    (by rw [hblock]; exact hafter) hentry fun q hq ↦ hframe q (hother q hq)
  rw [hblock, hlo] at hjoin
  rw [hhead]
  refine Seg.append (hseg.congr ?_) hjoin
  rintro p ⟨i, hi', hp⟩
  obtain ⟨-, -, hsep⟩ := separated_append.1 hl.left.sep
  have hlt : i.2 < lo := hsep i hi' (lo, hi) (List.mem_singleton_self _)
  have hlarge' := hl.left.large i (List.mem_append_left _ hi')
  exact hframe p (apart_of_le (by omega) (by omega)).symm

/-- **Giving a block back** merges it with the blocks it touches. -/
theorem seg_insertAt (hl : Blocks n (l₁ ++ l₂)) (hn : n < 2 ^ 63) (hpassed : h.Seg h.head l₁ cur)
    (hprev : IsPrev prev l₁) (hahead : h.Seg cur l₂ nil) (hsize : 16 ≤ size.toNat)
    (hend : off.toNat + size.toNat ≤ n) (hbefore : ∀ i ∈ l₁, i.2 ≤ off.toNat)
    (hafter : ∀ j ∈ l₂, off.toNat + size.toNat ≤ j.1) :
    (h.insertAt off size prev cur).Seg (h.insertAt off size prev cur).head
      (Intervals.insertFree l₁ off.toNat (off.toNat + size.toNat) l₂) nil := by
  rcases List.eq_nil_or_concat' l₁ with rfl | ⟨l, ⟨lo, hi⟩, rfl⟩
  · rw [insertFree_nil]
    exact seg_insertAt_own hl hn hpassed hprev hahead hsize hend hbefore hafter (Or.inl hprev)
  · -- the last block passed is the one at `prev`
    obtain ⟨mid, hseg, hmid⟩ := seg_append.1 hpassed
    obtain rfl : prev = mid := UInt64.toNat.inj (hprev.of_concat.trans hmid.1.symm)
    rw [insertFree_concat]
    split_ifs with htouch
    · exact seg_insertAt_merge hl hn hseg hmid hahead hend hafter htouch
    · refine seg_insertAt_own hl hn hpassed hprev hahead hsize hend hbefore hafter (Or.inr ?_)
      obtain ⟨hlo, hprevSize, -⟩ := hmid
      dsimp only at hlo hprevSize
      have hle : hi ≤ n := hl.le (lo, hi) (by simp)
      rintro rfl
      rw [UInt64.toNat_add] at htouch
      omega

@[simp] theorem insertAt_base : (h.insertAt off size prev cur).base = h.base := by
  unfold insertAt
  dsimp only
  split_ifs <;> first | rfl | exact link_base

@[simp] theorem insertAt_size : (h.insertAt off size prev cur).size = h.size := by
  unfold insertAt
  dsimp only
  split_ifs <;> first | rfl | exact link_size

/-- The `n` bytes at `a` are put between two of the blocks `l`; this gives `l'`. -/
def Gives (n a : ℕ) (l l' : List Interval) : Prop :=
  ∃ l₁ l₂, l = l₁ ++ l₂ ∧ l' = Intervals.insertFree l₁ a (a + n) l₂ ∧ (∀ i ∈ l₁, i.2 ≤ a) ∧
    ∀ j ∈ l₂, a + n ≤ j.1

/-- **Freeing** a block of the region that is not free ends, and gives it back to the list. -/
theorem exists_insertFree (hr : h.Region) (hl : Blocks h.size.toNat l) (hseg : h.Seg h.head l nil)
    (hsize : 16 ≤ size.toNat) (hend : off.toNat + size.toNat ≤ h.size.toNat)
    (hfree : ∀ x, cov l x + ind off.toNat (off.toNat + size.toNat) x ≤ 1) :
    ∃ h' l', h.insertFree off size = some h' ∧ Gives size.toNat off.toNat l l' ∧
      h'.Seg h'.head l' nil ∧ h'.base = h.base ∧ h'.size = h.size := by
  have hpassed : h.Seg h.head [] h.head := rfl
  have hl' : Blocks h.size.toNat ([] ++ l) := hl
  obtain ⟨prev, cur, l₁, l₂, hgap, heq, hpassed, hprev, hahead, hbefore, hafter⟩ :=
    exists_gap off hl.length_lt hl' hr.size_lt hpassed isPrev_nil hseg (by simp)
  obtain rfl : l = l₁ ++ l₂ := heq
  -- blocks that start before or behind do not reach into the block
  have hbefore' : ∀ i ∈ l₁, i.2 ≤ off.toNat := by
    intro i hi
    have hlt := hbefore i hi
    have hle := le_cov_of_mem (List.mem_append_left l₂ hi) off.toNat
    have hone := hfree off.toNat
    rw [ind_of_mem ⟨Nat.le_refl _, by omega⟩] at hone
    by_contra hge
    rw [ind_of_mem ⟨by omega, by omega⟩] at hle
    omega
  have hafter' : ∀ j ∈ l₂, off.toNat + size.toNat ≤ j.1 := by
    intro j hj
    have hge := hafter j hj
    have hlarge := hl.large j (List.mem_append_right _ hj)
    have hle := le_cov_of_mem (List.mem_append_right l₁ hj) j.1
    have hone := hfree j.1
    rw [ind_of_mem ⟨Nat.le_refl _, by omega⟩] at hle
    by_contra hlt
    rw [ind_of_mem ⟨by omega, by omega⟩] at hone
    omega
  refine ⟨h.insertAt off size prev cur, _, ?_, ⟨l₁, l₂, rfl, rfl, hbefore', hafter'⟩, ?_,
    insertAt_base, insertAt_size⟩
  · rw [insertFree, hgap]
    rfl
  · exact seg_insertAt hl hr.size_lt hpassed hprev hahead hsize hend hbefore' hafter'

/-! ### Counting the free bytes -/

theorem exists_freeBytesFrom {fuel : ℕ} (sum : UInt64) (hfuel : l.length < fuel)
    (hl : ∀ i ∈ l, i.1 + 16 ≤ i.2) (hl' : ∀ i ∈ l, i.2 < 2 ^ 63) (hseg : h.Seg cur l nil)
    (hsum : sum.toNat + total l < 2 ^ 64) :
    ∃ r, h.freeBytesFrom fuel sum cur = some r ∧ r.toNat = sum.toNat + total l := by
  induction l generalizing cur sum fuel with
  | nil =>
    obtain rfl : cur = nil := hseg
    obtain ⟨fuel, rfl⟩ := Nat.exists_eq_add_one_of_ne_zero (Nat.ne_of_gt hfuel)
    exact ⟨sum, by rw [freeBytesFrom, if_pos rfl], rfl⟩
  | cons i l ih =>
    obtain ⟨hcur, hsize, hrest⟩ := hseg
    obtain ⟨fuel, rfl⟩ := Nat.exists_eq_add_one_of_ne_zero (Nat.ne_of_gt (Nat.zero_lt_of_lt hfuel))
    rw [List.forall_mem_cons] at hl hl'
    rw [total_cons] at hsum
    have hadd : (sum + h.entrySize cur).toNat = sum.toNat + (i.2 - i.1) := by
      rw [UInt64.toNat_add]
      omega
    obtain ⟨r, hr, hrsum⟩ := ih (sum + h.entrySize cur) (Nat.lt_of_succ_lt_succ hfuel) hl.2 hl'.2
      hrest (by omega)
    refine ⟨r, ?_, by rw [hrsum, total_cons]; omega⟩
    rw [freeBytesFrom, if_neg (ne_nil_of_lt (by omega)), hr]

/-- **`free_bytes`** ends, and is the sum of the sizes of the free blocks. -/
theorem exists_freeBytes (hr : h.Region) (hl : Blocks h.size.toNat l) (hseg : h.Seg h.head l nil) :
    ∃ r, h.freeBytes = some r ∧ r.toNat = total l := by
  have hlt := hr.size_lt
  have hle := hl.total_le
  have hzero : (0 : UInt64).toNat = 0 := rfl
  obtain ⟨r, hfree, hsum⟩ := exists_freeBytesFrom 0 hl.length_lt hl.large
    (fun i hi ↦ Nat.lt_of_le_of_lt (hl.le i hi) hlt) hseg (by omega)
  exact ⟨r, hfree, by omega⟩

/-! ### The abstract operations -/

section Abstract

variable {l' : List Interval} {need a : ℕ}

/-- Taking uncovers the block. -/
theorem Takes.cov_add (h : Takes need a l l') (x : ℕ) :
    cov l' x + ind a (a + need) x = cov l x := by
  obtain ⟨l₁, lo, hi, l₂, rfl, rfl, hlo, hhi⟩ := h
  have hcarve : cov (carve lo hi a (a + need)) x + ind a (a + need) x = ind lo hi x :=
    cov_carve (by omega) (by omega) (by omega) x
  simp only [cov_append, cov_cons]
  omega

theorem Takes.total_add (h : Takes need a l l') : total l' + need = total l := by
  obtain ⟨l₁, lo, hi, l₂, rfl, rfl, hlo, hhi⟩ := h
  have hcarve : total (carve lo hi a (a + need)) + (a + need - a) = hi - lo :=
    total_carve (by omega) (by omega) (by omega)
  simp only [total_append, total_cons]
  omega

theorem Takes.le (h : Takes need a l l') (hl : Blocks n l) : a + need ≤ n := by
  obtain ⟨l₁, lo, hi, l₂, rfl, rfl, hlo, hhi⟩ := h
  have hle : hi ≤ n := hl.le (lo, hi) (by simp)
  omega

/-- Taking keeps the shape of the list. -/
theorem Takes.blocks (h : Takes need a l l') (hl : Blocks n l) (ha : 8 ∣ a) (hneed : 8 ∣ need)
    (hlarge : 16 ≤ need) : Blocks n l' := by
  have htotal := h.total_add
  obtain ⟨l₁, lo, hi, l₂, rfl, rfl, hlo, hhi⟩ := h
  have hmem : (lo, hi) ∈ l₁ ++ (lo, hi) :: l₂ := by simp
  -- every block left is an old one or a remnant
  have hcases : ∀ i ∈ l₁ ++ (carve lo hi a (a + need) ++ l₂), i ∈ l₁ ++ (lo, hi) :: l₂ ∨
      i = (lo, a) ∧ lo < a ∨ i = (a + need, hi) ∧ a + need < hi := by
    intro i hi'
    rcases List.mem_append.1 hi' with hi' | hi'
    · exact Or.inl (List.mem_append_left _ hi')
    · rcases List.mem_append.1 hi' with hi' | hi'
      · exact Or.inr ((List.mem_append.1 hi').imp mem_remnant mem_remnant)
      · exact Or.inl (by simp [hi'])
  obtain ⟨hdlo, hdhi⟩ : 8 ∣ lo ∧ 8 ∣ hi := hl.dvd _ hmem
  have hle : hi ≤ n := hl.le _ hmem
  refine ⟨hl.sep.carve (by omega) (by omega) (by omega), fun i hi' ↦ ?_, fun i hi' ↦ ?_,
    fun i hi' ↦ ?_, by have := hl.total_le; omega⟩
  · rcases hcases i hi' with hold | ⟨rfl, -⟩ | ⟨rfl, -⟩
    · exact hl.dvd i hold
    · exact ⟨hdlo, ha⟩
    · exact ⟨Nat.dvd_add ha hneed, hdhi⟩
  · rcases hcases i hi' with hold | ⟨rfl, hlt⟩ | ⟨rfl, hlt⟩
    · exact hl.large i hold
    · show lo + 16 ≤ a
      omega
    · show a + need + 16 ≤ hi
      omega
  · rcases hcases i hi' with hold | ⟨rfl, -⟩ | ⟨rfl, -⟩
    · exact hl.le i hold
    · show a ≤ n
      omega
    · exact hle

/-- Giving back covers the block. -/
theorem Gives.cov_eq (h : Gives need a l l') (hl : Separated l) (x : ℕ) :
    cov l' x = cov l x + ind a (a + need) x := by
  obtain ⟨l₁, l₂, rfl, rfl, -, -⟩ := h
  exact cov_insertFree hl (Nat.le_add_right a need) x

theorem Gives.total_eq (h : Gives need a l l') (hl : Separated l) : total l' = total l + need := by
  obtain ⟨l₁, l₂, rfl, rfl, -, -⟩ := h
  rw [total_insertFree hl (Nat.le_add_right a need), Nat.add_sub_cancel_left]

/-- Giving back keeps the shape of the list. -/
theorem Gives.blocks (h : Gives need a l l') (hl : Blocks n l) (ha : 8 ∣ a) (hneed : 8 ∣ need)
    (hlarge : 16 ≤ need) (hle : a + need ≤ n) (htotal : total l + need ≤ n) : Blocks n l' := by
  have htotal' := h.total_eq hl.sep
  obtain ⟨l₁, l₂, rfl, rfl, hbefore, hafter⟩ := h
  have hne : ∀ j ∈ l₁ ++ l₂, j.1 ≤ j.2 := fun j hj ↦ Nat.le_of_lt (hl.sep.1 j hj)
  refine ⟨hl.sep.insertFree (by omega) hbefore hafter, fun i hi ↦ ?_, fun i hi ↦ ?_,
    fun i hi ↦ ?_, by omega⟩ <;>
    rcases mem_insertFree hne hi with hold | ⟨hlo, hhi, hstart, hend⟩
  · exact hl.dvd i hold
  · refine ⟨?_, ?_⟩
    · rcases hstart with heq | ⟨k, hk, heq⟩
      · exact heq ▸ ha
      · exact heq ▸ (hl.dvd k (List.mem_append_left _ hk)).1
    · rcases hend with heq | ⟨k, hk, heq⟩
      · exact heq ▸ Nat.dvd_add ha hneed
      · exact heq ▸ (hl.dvd k (List.mem_append_right _ hk)).2
  · exact hl.large i hold
  · omega
  · exact hl.le i hold
  · rcases hend with heq | ⟨k, hk, heq⟩
    · omega
    · exact heq ▸ hl.le k (List.mem_append_right _ hk)

end Abstract

end FreeList

end UserspaceRouter
