import Mathlib.Algebra.Group.Nat.Defs
import Mathlib.Data.List.InsertIdx
import Mathlib.Data.List.TakeWhile
import UserspaceRouter.Foundations.BinarySearch
import UserspaceRouter.Foundations.Intervals
import UserspaceRouter.Net.Headers

/-!
# The DHCP address pool

A pool is a list of disjoint inclusive ranges of addresses. `reserve` and `take` take addresses out
of it, `release` puts one back and merges it with the ranges it touches.

The ranges are read as half-open intervals of numbers (`iv`), where `reserve` is `Intervals.carve`
at the range that holds the address and `release` is `Intervals.insertFree` at the partition point.
What callers need to know is then three specifications, in terms of the set of free addresses alone
(`IsFree`): `becomes_reserve`, `take_one_cases` and `exists_becomes_release`. The last one is about
an address that is not free; giving back a free address is not excluded by the code, and breaks the
list.
-/

namespace UserspaceRouter

open Intervals

/-- A pool: the bounds it was created with, and its free ranges, inclusive at both ends. -/
structure AddressPool where
  start : Ipv4Addr
  end_ : Ipv4Addr
  intervals : List (Ipv4Addr × Ipv4Addr)
deriving DecidableEq, Repr

namespace AddressPool

/-! ### The code -/

/-- `AddressPool::new`; `none` is its failed assertion. -/
def new (start end_ : Ipv4Addr) : Option AddressPool :=
  if start ≤ end_ then some ⟨start, end_, [(start, end_)]⟩ else none

/-- `partition_point`: the number of leading ranges that pass the test, if none passes after them.
The search is the library's, so that lists that are out of order are searched as the code does. -/
def partitionPoint (p : Ipv4Addr × Ipv4Addr → Bool) (intervals : List (Ipv4Addr × Ipv4Addr)) : ℕ :=
  BinarySearch.partitionPoint p intervals

/-- The range at an index; the code indexes only where there is one. -/
def rangeAt (intervals : List (Ipv4Addr × Ipv4Addr)) (idx : ℕ) : Ipv4Addr × Ipv4Addr :=
  intervals.getD idx (0, 0)

/-- Take one address out of the pool. The result is `none` if it was not in the pool. -/
def reserve (pool : AddressPool) (addr : Ipv4Addr) : AddressPool × Option Ipv4Addr :=
  let pos := partitionPoint (fun i ↦ i.1 ≤ addr) pool.intervals
  if pos = 0 then (pool, none)
  else
    let idx := pos - 1
    let (start, end_) := rangeAt pool.intervals idx
    if addr > end_ then (pool, none)
    else
      let intervals :=
        if start = addr ∧ end_ = addr then pool.intervals.eraseIdx idx
        else if start = addr then pool.intervals.set idx (addr + 1, end_)
        else if end_ = addr then pool.intervals.set idx (start, addr - 1)
        else (pool.intervals.insertIdx (idx + 1) (addr + 1, end_)).set idx (start, addr - 1)
      ({ pool with intervals }, some addr)

/-- One `reserve` after the other. -/
def reserveAll (pool : AddressPool) (addrs : List Ipv4Addr) : AddressPool :=
  addrs.foldl (fun pool addr ↦ (pool.reserve addr).1) pool

/-- `(u32::from(e) - u32::from(s) + 1) as usize`. -/
def span (s e : Ipv4Addr) : ℕ := (e - s + 1).toNat

/-- The first loop of `take`: count free addresses until there are `n`. -/
def countAvailable (n : ℕ) : ℕ → List (Ipv4Addr × Ipv4Addr) → ℕ
  | available, [] => available
  | available, (s, e) :: rest =>
    let available := available + span s e
    if n ≤ available then available else countAvailable n available rest

/-- `k` addresses from `s` on. -/
def addresses (s : Ipv4Addr) (k : ℕ) : List Ipv4Addr :=
  (List.range k).map fun i ↦ s + UInt32.ofNat i

/-- The second loop of `take`: consume ranges from the head. -/
def consume : ℕ → List (Ipv4Addr × Ipv4Addr) → List Ipv4Addr × List (Ipv4Addr × Ipv4Addr)
  | _, [] => ([], [])
  | remaining, (s, e) :: rest =>
    if span s e ≤ remaining then
      let out := addresses s (e.toNat + 1 - s.toNat)
      let remaining := remaining - span s e
      if remaining = 0 then (out, rest)
      else
        let (out', rest') := consume remaining rest
        (out ++ out', rest')
    else (addresses s remaining, (s + UInt32.ofNat remaining, e) :: rest)

/-- Take `n` addresses, or none if there are fewer. -/
def take (pool : AddressPool) (n : ℕ) : AddressPool × Option (List Ipv4Addr) :=
  if countAvailable n 0 pool.intervals < n then (pool, none)
  else
    let (out, intervals) := consume n pool.intervals
    ({ pool with intervals }, some out)

/-- Put an address between the ranges before and from `pos` on, growing or joining those it
touches. -/
def insertAt (l : List (Ipv4Addr × Ipv4Addr)) (pos : ℕ) (ip : Ipv4Addr) :
    List (Ipv4Addr × Ipv4Addr) :=
  let leftAdj : Bool := 0 < pos && (rangeAt l (pos - 1)).2 + 1 == ip
  let rightAdj : Bool := pos < l.length && (rangeAt l pos).1 == ip + 1
  match leftAdj, rightAdj with
  | true, true => (l.set (pos - 1) ((rangeAt l (pos - 1)).1, (rangeAt l pos).2)).eraseIdx pos
  | true, false => l.set (pos - 1) ((rangeAt l (pos - 1)).1, ip)
  | false, true => l.set pos (ip, (rangeAt l pos).2)
  | false, false => l.insertIdx pos (ip, ip)

/-- Put an address back; `none` is the failed assertion that it is in bounds. -/
def release (pool : AddressPool) (ip : Ipv4Addr) : Option AddressPool :=
  if pool.start ≤ ip ∧ ip ≤ pool.end_ then
    let pos := partitionPoint (fun i ↦ i.1 < ip) pool.intervals
    some { pool with intervals := insertAt pool.intervals pos ip }
  else none

/-! ### The set of free addresses -/

/-- A range, as a half-open interval of numbers. -/
def iv (i : Ipv4Addr × Ipv4Addr) : Interval := (i.1.toNat, i.2.toNat + 1)

/-- The address is in one of the free ranges. -/
def IsFree (pool : AddressPool) (ip : Ipv4Addr) : Prop :=
  ∃ i ∈ pool.intervals, i.1 ≤ ip ∧ ip ≤ i.2

instance (pool : AddressPool) (ip : Ipv4Addr) : Decidable (pool.IsFree ip) :=
  List.decidableBEx _ pool.intervals

/-- The address is within the bounds of the pool. -/
def InBounds (pool : AddressPool) (ip : Ipv4Addr) : Prop := pool.start ≤ ip ∧ ip ≤ pool.end_

/-- The free ranges are sorted, nonempty, not adjacent, and within bounds. -/
structure Wf (pool : AddressPool) : Prop where
  separated : Separated (pool.intervals.map iv)
  within : ∀ i ∈ pool.intervals, pool.start ≤ i.1 ∧ i.2 ≤ pool.end_

theorem isFree_iff_cov {pool : AddressPool} {ip : Ipv4Addr} :
    pool.IsFree ip ↔ 0 < cov (pool.intervals.map iv) ip.toNat := by
  rw [cov_pos_iff]
  constructor
  · rintro ⟨i, hi, h₁, h₂⟩
    have h₁' := UInt32.le_iff_toNat_le.1 h₁
    have h₂' := UInt32.le_iff_toNat_le.1 h₂
    exact ⟨iv i, List.mem_map_of_mem hi, h₁', Nat.lt_succ_of_le h₂'⟩
  · rintro ⟨j, hj, h⟩
    obtain ⟨i, hi, rfl⟩ := List.mem_map.1 hj
    exact ⟨i, hi, UInt32.le_iff_toNat_le.2 h.1, UInt32.le_iff_toNat_le.2 (Nat.le_of_lt_succ h.2)⟩

theorem Wf.inBounds_of_isFree {pool : AddressPool} (h : pool.Wf) {ip : Ipv4Addr}
    (hip : pool.IsFree ip) : pool.InBounds ip := by
  obtain ⟨i, hi, h₁, h₂⟩ := hip
  obtain ⟨hs, he⟩ := h.within i hi
  exact ⟨UInt32.le_trans hs h₁, UInt32.le_trans h₂ he⟩

theorem wf_new {start end_ : Ipv4Addr} {pool : AddressPool} (h : new start end_ = some pool) :
    pool.Wf ∧ pool.start = start ∧ pool.end_ = end_ := by
  unfold new at h
  split_ifs at h with hle
  obtain rfl := Option.some.inj h
  refine ⟨⟨separated_singleton ?_, fun i hi ↦ ?_⟩, rfl, rfl⟩
  · exact Nat.lt_succ_of_le (UInt32.le_iff_toNat_le.1 hle)
  · rw [List.mem_singleton.1 hi]
    exact ⟨UInt32.le_refl _, UInt32.le_refl _⟩

/-! ### Taking one address out of a range -/

/-- The ranges left of `[s, e]` when `addr` is taken out of it. -/
def carveRange (s e addr : Ipv4Addr) : List (Ipv4Addr × Ipv4Addr) :=
  (if s = addr then [] else [(s, addr - 1)]) ++ (if e = addr then [] else [(addr + 1, e)])

theorem map_iv_carveRange {s e addr : Ipv4Addr} (hs : s ≤ addr) (he : addr ≤ e) :
    (carveRange s e addr).map iv = carve s.toNat (e.toNat + 1) addr.toNat (addr.toNat + 1) := by
  have hs' := UInt32.le_iff_toNat_le.1 hs
  have he' := UInt32.le_iff_toNat_le.1 he
  have hlt := e.toNat_lt
  have hfront : (if s = addr then [] else [(s, addr - 1)]).map iv = remnant s.toNat addr.toNat := by
    unfold remnant
    by_cases hsa : s = addr
    · rw [if_pos hsa, if_neg (by rw [hsa]; omega), List.map_nil]
    · have hne : s.toNat ≠ addr.toNat := fun h ↦ hsa (UInt32.toNat.inj h)
      have hpred : (addr - 1).toNat = addr.toNat - 1 :=
        UInt32.toNat_sub_of_le _ _ (UInt32.le_iff_toNat_le.2 (by rw [UInt32.toNat_one]; omega))
      rw [if_neg hsa, if_pos (by omega)]
      simp only [List.map_cons, List.map_nil, iv, hpred, List.cons.injEq, Prod.mk.injEq, and_true,
        true_and]
      omega
  have hback : (if e = addr then [] else [(addr + 1, e)]).map iv =
      remnant (addr.toNat + 1) (e.toNat + 1) := by
    unfold remnant
    by_cases hea : e = addr
    · rw [if_pos hea, if_neg (by rw [hea]; omega), List.map_nil]
    · have hne : e.toNat ≠ addr.toNat := fun h ↦ hea (UInt32.toNat.inj h)
      have hsucc : (addr + 1).toNat = addr.toNat + 1 := by
        rw [UInt32.toNat_add, UInt32.toNat_one]
        omega
      rw [if_neg hea, if_pos (by omega)]
      simp only [List.map_cons, List.map_nil, iv, hsucc]
  rw [carveRange, List.map_append, hfront, hback, carve]

/-- `pool'` is a well-formed pool with the bounds of `pool`, whose free addresses are those of
`F`. -/
structure Becomes (pool pool' : AddressPool) (F : Ipv4Addr → Prop) : Prop where
  wf : pool'.Wf
  start_eq : pool'.start = pool.start
  end_eq : pool'.end_ = pool.end_
  isFree_iff : ∀ x, pool'.IsFree x ↔ F x

theorem Becomes.inBounds_eq {pool pool' : AddressPool} {F : Ipv4Addr → Prop}
    (h : Becomes pool pool' F) : pool'.InBounds = pool.InBounds := by
  funext x
  rw [InBounds, InBounds, h.start_eq, h.end_eq]

/-- New ranges are judged by the points they cover. -/
theorem becomes_of_cov {pool : AddressPool} {l : List (Ipv4Addr × Ipv4Addr)} {F : Ipv4Addr → Prop}
    (hsep : Separated (l.map iv)) (hF : ∀ x : Ipv4Addr, 0 < cov (l.map iv) x.toNat ↔ F x)
    (hb : ∀ x, F x → pool.InBounds x) : pool.Becomes { pool with intervals := l } F := by
  have hfree : ∀ x, IsFree { pool with intervals := l } x ↔ F x := fun x ↦
    isFree_iff_cov.trans (hF x)
  refine ⟨⟨hsep, fun i hi ↦ ?_⟩, rfl, rfl, hfree⟩
  -- both ends of a range are free
  have hle : i.1 ≤ i.2 :=
    UInt32.le_iff_toNat_le.2 (Nat.le_of_lt_succ (hsep.1 (iv i) (List.mem_map_of_mem hi)))
  exact ⟨(hb i.1 ((hfree i.1).1 ⟨i, hi, UInt32.le_refl _, hle⟩)).1,
    (hb i.2 ((hfree i.2).1 ⟨i, hi, hle, UInt32.le_refl _⟩)).2⟩

/-- A single point, as an interval. -/
theorem ind_point (x a : Ipv4Addr) :
    ind a.toNat (a.toNat + 1) x.toNat = if x = a then 1 else 0 := by
  split_ifs with hx
  · rw [hx, ind_of_mem ⟨Nat.le_refl _, Nat.lt_succ_self _⟩]
  · have hne : x.toNat ≠ a.toNat := fun hx' ↦ hx (UInt32.toNat.inj hx')
    exact ind_of_notMem (by omega)

/-- What a pool looks like when `addr` has been taken out of one of its ranges. -/
theorem becomes_carveRange {pool : AddressPool} (h : pool.Wf)
    {l₁ l₂ : List (Ipv4Addr × Ipv4Addr)} {s e addr : Ipv4Addr}
    (hl : pool.intervals = l₁ ++ (s, e) :: l₂) (hs : s ≤ addr) (he : addr ≤ e) :
    pool.Becomes { pool with intervals := l₁ ++ (carveRange s e addr ++ l₂) }
      fun x ↦ pool.IsFree x ∧ x ≠ addr := by
  have hs' := UInt32.le_iff_toNat_le.1 hs
  have he' := Nat.succ_le_succ (UInt32.le_iff_toNat_le.1 he)
  have hsep : Separated (l₁.map iv ++ (s.toNat, e.toNat + 1) :: l₂.map iv) := by
    have := h.separated
    rwa [hl, List.map_append, List.map_cons] at this
  have hmap : (l₁ ++ (carveRange s e addr ++ l₂)).map iv = l₁.map iv ++
      (carve s.toNat (e.toNat + 1) addr.toNat (addr.toNat + 1) ++ l₂.map iv) := by
    rw [List.map_append, List.map_append, map_iv_carveRange hs he]
  refine becomes_of_cov ?_ (fun x ↦ ?_) fun x hx ↦ h.inBounds_of_isFree hx.1
  · rw [hmap]
    exact hsep.carve hs' (Nat.lt_succ_self _) he'
  · -- the covered points are those of before, less the one point `addr`
    have hcov : cov (carve s.toNat (e.toNat + 1) addr.toNat (addr.toNat + 1)) x.toNat +
        ind addr.toNat (addr.toNat + 1) x.toNat = ind s.toNat (e.toNat + 1) x.toNat :=
      cov_carve hs' (Nat.le_succ _) he' _
    have hone := hsep.cov_le_one x.toNat
    rw [isFree_iff_cov, hl, hmap]
    rw [ind_point] at hcov
    simp only [List.map_append, List.map_cons, cov_append, cov_cons, iv] at hone ⊢
    split_ifs at hcov with hx
    · simp only [hx, ne_eq, not_true_eq_false, and_false, iff_false]
      rw [hx] at hcov hone
      omega
    · rw [Nat.add_zero] at hcov
      rw [hcov, and_iff_left hx]

/-! ### Putting one address back -/

section Index

variable (l₁ l₂ : List (Ipv4Addr × Ipv4Addr)) (i j : Ipv4Addr × Ipv4Addr)

theorem rangeAt_append : rangeAt (l₁ ++ i :: l₂) l₁.length = i := by
  simp [rangeAt]

theorem set_append : (l₁ ++ i :: l₂).set l₁.length j = l₁ ++ j :: l₂ := by
  simp

theorem eraseIdx_append : (l₁ ++ i :: l₂).eraseIdx l₁.length = l₁ ++ l₂ := by
  simp [List.eraseIdx_append_of_length_le]

theorem insertIdx_append : (l₁ ++ l₂).insertIdx l₁.length i = l₁ ++ i :: l₂ := by
  induction l₁ with
  | nil => simp
  | cons k l₁ ih => simp [ih]

end Index

theorem add_one_eq_iff {a b : Ipv4Addr} (h : a.toNat + 1 < 2 ^ 32) :
    a + 1 = b ↔ a.toNat + 1 = b.toNat := by
  rw [← UInt32.toNat_inj, UInt32.toNat_add, UInt32.toNat_one, Nat.mod_eq_of_lt h]

/-- With nothing touching on the left, the address stands in front of the ranges behind it. -/
theorem map_iv_insertAt_of_not_adj {l₁ l₂ : List (Ipv4Addr × Ipv4Addr)} {ip : Ipv4Addr}
    (hadj : (decide (0 < l₁.length) && (rangeAt (l₁ ++ l₂) (l₁.length - 1)).2 + 1 == ip) = false)
    (hright : ∀ j ∈ l₂, ip.toNat + 1 ≤ j.1.toNat) :
    (insertAt (l₁ ++ l₂) l₁.length ip).map iv =
      l₁.map iv ++ joinRight ip.toNat (ip.toNat + 1) (l₂.map iv) := by
  rw [insertAt]
  simp only [hadj]
  rcases l₂ with - | ⟨⟨lo, hi⟩, l₂⟩
  · simp [joinRight, iv]
  · have hlt := lo.toNat_lt
    have hle : ip.toNat + 1 ≤ lo.toNat := hright (lo, hi) List.mem_cons_self
    have hiff : ip + 1 = lo ↔ ip.toNat + 1 = lo.toNat := add_one_eq_iff (by omega)
    rw [rangeAt_append]
    by_cases heq : ip.toNat + 1 = lo.toNat
    · simp [joinRight, iv, heq, hiff.2 heq]
    · have hne : (lo == ip + 1) = false := beq_false_of_ne fun h ↦ heq (hiff.1 h.symm)
      simp [insertIdx_append, joinRight, iv, heq, hne]

/-- `insertAt` is the insertion of an interval of length one. -/
theorem map_iv_insertAt {l₁ l₂ : List (Ipv4Addr × Ipv4Addr)} {ip : Ipv4Addr}
    (hleft : ∀ i ∈ l₁, i.2.toNat + 1 ≤ ip.toNat) (hright : ∀ j ∈ l₂, ip.toNat + 1 ≤ j.1.toNat) :
    (insertAt (l₁ ++ l₂) l₁.length ip).map iv =
      insertFree (l₁.map iv) ip.toNat (ip.toNat + 1) (l₂.map iv) := by
  rcases List.eq_nil_or_concat' l₁ with rfl | ⟨m, ⟨lo, hi⟩, rfl⟩
  · exact map_iv_insertAt_of_not_adj rfl hright
  · have hip := ip.toNat_lt
    have hle : hi.toNat + 1 ≤ ip.toNat := hleft (lo, hi) (by simp)
    have hiff : hi + 1 = ip ↔ hi.toNat + 1 = ip.toNat := add_one_eq_iff (by omega)
    have hlast : rangeAt (m ++ [(lo, hi)] ++ l₂) ((m ++ [(lo, hi)]).length - 1) = (lo, hi) := by
      simp [rangeAt]
    have hmap : (m ++ [(lo, hi)]).map iv = m.map iv ++ [(lo.toNat, hi.toNat + 1)] := by
      simp [iv]
    rw [hmap, insertFree_concat]
    split_ifs with heq
    · -- the range on the left grows, and joins the one on the right if they meet
      have hset : ∀ x l, (m ++ [(lo, hi)] ++ l).set ((m ++ [(lo, hi)]).length - 1) x =
          m ++ x :: l := by simp
      rw [insertAt, hlast, hset, hset]
      have hadj : (decide (0 < (m ++ [(lo, hi)]).length) && hi + 1 == ip) = true := by
        simp [hiff.2 heq]
      simp only [hadj]
      rcases l₂ with - | ⟨⟨lo', hi'⟩, l₂⟩
      · simp [joinRight, iv]
      · have hlt := lo'.toNat_lt
        have hle' : ip.toNat + 1 ≤ lo'.toNat := hright (lo', hi') List.mem_cons_self
        have hiff' : ip + 1 = lo' ↔ ip.toNat + 1 = lo'.toNat := add_one_eq_iff (by omega)
        rw [rangeAt_append]
        by_cases heq' : ip.toNat + 1 = lo'.toNat
        · have herase : (m ++ (lo, hi') :: (lo', hi') :: l₂).eraseIdx (m.length + 1) =
              m ++ (lo, hi') :: l₂ := by
            have := eraseIdx_append (m ++ [(lo, hi')]) l₂ (lo', hi')
            simpa only [List.append_assoc, List.singleton_append, List.length_append,
              List.length_singleton] using this
          simp [joinRight, iv, heq', hiff'.2 heq', herase]
        · have hne : (lo' == ip + 1) = false := beq_false_of_ne fun h ↦ heq' (hiff'.1 h.symm)
          simp [joinRight, iv, heq', hne]
    · have hne : (hi + 1 == ip) = false := beq_false_of_ne fun h ↦ heq (hiff.1 h)
      rw [map_iv_insertAt_of_not_adj (by rw [hlast, hne, Bool.and_false]) hright, hmap]

/-! ### The three operations -/

/-- The ranges before and from the partition point on, for a test that is monotone in the start. -/
theorem Wf.partition {pool : AddressPool} (h : pool.Wf) {p : Ipv4Addr → Bool}
    (hp : ∀ s s', s < s' → p s' = true → p s = true) :
    ∃ l₁ l₂, pool.intervals = l₁ ++ l₂ ∧
      partitionPoint (fun i ↦ p i.1) pool.intervals = l₁.length ∧
      (∀ i ∈ l₁, p i.1 = true) ∧ ∀ i ∈ l₂, p i.1 = false := by
  have hpair : pool.intervals.Pairwise fun i j ↦ i.1 < j.1 := by
    refine (List.pairwise_map.1 h.separated.2).imp_of_mem fun {i j} hi _ hij ↦ ?_
    have hne : i.1.toNat < i.2.toNat + 1 := h.separated.1 (iv i) (List.mem_map_of_mem hi)
    have hlt : i.2.toNat + 1 < j.1.toNat := hij
    exact UInt32.lt_iff_toNat_lt.2 (by omega)
  have hpass : ∀ i ∈ pool.intervals.takeWhile fun i ↦ p i.1, p i.1 = true :=
    fun i hi ↦ List.mem_takeWhile_imp (p := fun i : Ipv4Addr × Ipv4Addr ↦ p i.1) hi
  have hfail : ∀ i ∈ pool.intervals.dropWhile fun i ↦ p i.1, p i.1 = false :=
    fun i hi ↦ not_of_mem_dropWhile hpair (fun i j ↦ hp i.1 j.1) hi
  have hsplit : pool.intervals = (pool.intervals.takeWhile fun i ↦ p i.1) ++
      pool.intervals.dropWhile fun i ↦ p i.1 := List.takeWhile_append_dropWhile.symm
  refine ⟨_, _, hsplit, ?_, hpass, hfail⟩
  have hpoint := BinarySearch.partitionPoint_append (p := fun i : Ipv4Addr × Ipv4Addr ↦ p i.1)
    hpass hfail
  rwa [← hsplit] at hpoint

/-- An address between two neighbouring ranges is not free. -/
theorem Wf.not_isFree_of_gap {pool : AddressPool} (h : pool.Wf)
    {l₁ l₂ : List (Ipv4Addr × Ipv4Addr)} {s e addr : Ipv4Addr}
    (hl : pool.intervals = l₁ ++ (s, e) :: l₂) (hs : s ≤ addr) (he : e < addr)
    (hafter : ∀ i ∈ l₂, ¬i.1 ≤ addr) : ¬pool.IsFree addr := by
  rintro ⟨i, hi, h₁, h₂⟩
  rw [hl] at hi
  rcases List.mem_append.1 hi with hi | hi
  · -- the ranges before `(s, e)` end even earlier
    have hsep := h.separated
    rw [hl, List.map_append, separated_append] at hsep
    have hlt : i.2.toNat + 1 < s.toNat :=
      hsep.2.2 (iv i) (List.mem_map_of_mem hi) (iv (s, e)) (by simp)
    rw [UInt32.le_iff_toNat_le] at hs h₂
    omega
  · rcases List.mem_cons.1 hi with rfl | hi
    · exact absurd he (UInt32.not_lt.2 h₂)
    · exact hafter i hi h₁

/-- **What `reserve` does**: nothing, if the address is not free, and otherwise it takes the address
out of the range that holds it. -/
theorem reserve_cases {pool : AddressPool} (h : pool.Wf) (addr : Ipv4Addr) :
    (¬pool.IsFree addr ∧ pool.reserve addr = (pool, none)) ∨
      ∃ l₁ s e l₂, pool.intervals = l₁ ++ (s, e) :: l₂ ∧ s ≤ addr ∧ addr ≤ e ∧
        pool.reserve addr =
          ({ pool with intervals := l₁ ++ (carveRange s e addr ++ l₂) }, some addr) := by
  obtain ⟨l₁, l₂, hsplit, hpos, htake, hdrop⟩ := h.partition (p := fun s ↦ s ≤ addr)
    fun s s' hlt hle ↦ decide_eq_true
      (UInt32.le_trans (UInt32.le_of_lt hlt) (of_decide_eq_true hle))
  rcases List.eq_nil_or_concat' l₁ with rfl | ⟨m, ⟨s, e⟩, rfl⟩
  · refine Or.inl ⟨?_, if_pos hpos⟩
    rintro ⟨i, hi, hle, -⟩
    rw [hsplit, List.nil_append] at hi
    exact of_decide_eq_false (hdrop i hi) hle
  · have hs : s ≤ addr := of_decide_eq_true (htake (s, e) (by simp))
    have hlen : (m ++ [(s, e)]).length = m.length + 1 := by simp
    have hsplit' : pool.intervals = m ++ (s, e) :: l₂ := by
      rw [hsplit, List.append_assoc, List.singleton_append]
    have hat : rangeAt pool.intervals m.length = (s, e) := by rw [hsplit', rangeAt_append]
    have hinsert : pool.intervals.insertIdx (m.length + 1) (addr + 1, e) =
        m ++ (s, e) :: (addr + 1, e) :: l₂ := by
      rw [hsplit, ← hlen, insertIdx_append, List.append_assoc, List.singleton_append]
    simp only [reserve, hpos, hlen, Nat.add_sub_cancel, hat, Nat.succ_ne_zero, if_false]
    split_ifs with he hboth hstart hend
    · exact Or.inl
        ⟨h.not_isFree_of_gap hsplit' hs he fun i hi ↦ of_decide_eq_false (hdrop i hi), rfl⟩
    all_goals
      refine Or.inr ⟨m, s, e, l₂, hsplit', hs, UInt32.not_lt.1 he, ?_⟩
      rw [carveRange]
    · rw [hsplit', eraseIdx_append, if_pos hboth.1, if_pos hboth.2]
      rfl
    · rw [hsplit', set_append, if_pos hstart, if_neg fun hend ↦ hboth ⟨hstart, hend⟩]
      rfl
    · rw [hsplit', set_append, if_neg hstart, if_pos hend]
      rfl
    · rw [hinsert, set_append, if_neg hstart, if_neg hend]
      rfl

/-- **`reserve` takes one address out of the free set**, whether or not it was there. -/
theorem becomes_reserve {pool : AddressPool} (h : pool.Wf) (addr : Ipv4Addr) :
    pool.Becomes (pool.reserve addr).1 fun x ↦ pool.IsFree x ∧ x ≠ addr := by
  rcases reserve_cases h addr with ⟨hno, heq⟩ | ⟨l₁, s, e, l₂, hl, hs, he, heq⟩
  · rw [heq]
    refine ⟨h, rfl, rfl, fun x ↦ ⟨fun hx ↦ ⟨hx, ?_⟩, And.left⟩⟩
    rintro rfl
    exact hno hx
  · rw [heq]
    exact becomes_carveRange h hl hs he

/-- Reservations keep a pool well formed, within its bounds. -/
theorem wf_reserveAll {pool : AddressPool} (h : pool.Wf) (addrs : List Ipv4Addr) :
    (pool.reserveAll addrs).Wf ∧ (pool.reserveAll addrs).start = pool.start ∧
      (pool.reserveAll addrs).end_ = pool.end_ := by
  induction addrs generalizing pool with
  | nil => exact ⟨h, rfl, rfl⟩
  | cons addr addrs ih =>
    have hbecomes := becomes_reserve h addr
    obtain ⟨hwf, hstart, hend⟩ := ih hbecomes.wf
    exact ⟨hwf, hstart.trans hbecomes.start_eq, hend.trans hbecomes.end_eq⟩

/-- The span of a range is its size, but for the range of all addresses, where it wraps to zero. -/
theorem span_eq {s e : Ipv4Addr} (h : s ≤ e) :
    span s e = if s = 0 ∧ e.toNat + 1 = 2 ^ 32 then 0 else e.toNat + 1 - s.toNat := by
  have hle := UInt32.le_iff_toNat_le.1 h
  have hlt := e.toNat_lt
  rw [span, UInt32.toNat_add, UInt32.toNat_sub_of_le _ _ h, UInt32.toNat_one]
  split_ifs with hfull
  · have hzero : s.toNat = 0 := by rw [hfull.1]; rfl
    omega
  · have hzero : s.toNat = 0 → s = 0 := fun hs ↦ UInt32.toNat.inj hs
    rcases Nat.eq_zero_or_pos s.toNat with hs | hs
    · have : e.toNat + 1 ≠ 2 ^ 32 := fun he ↦ hfull ⟨hzero hs, he⟩
      omega
    · omega

/-- The size of the range of all addresses wraps to zero, so `take` finds nothing in it. -/
theorem take_one_of_full {pool : AddressPool} (h : pool.Wf) {s e : Ipv4Addr}
    {rest : List (Ipv4Addr × Ipv4Addr)} (hl : pool.intervals = (s, e) :: rest)
    (hfull : s = 0 ∧ e.toNat + 1 = 2 ^ 32) :
    pool.take 1 = (pool, none) ∧ pool.start = 0 ∧ pool.end_.toNat + 1 = 2 ^ 32 := by
  obtain ⟨rfl, he⟩ := hfull
  have hspan : span 0 e = 0 := by
    rw [span_eq (UInt32.le_iff_toNat_le.2 (Nat.zero_le _)), if_pos ⟨rfl, he⟩]
  -- no range fits behind the last address, so the pool is this one range
  have hnil : rest = [] := by
    rcases rest with - | ⟨i, rest⟩
    · rfl
    · have hsep := h.separated
      rw [hl, List.map_cons, separated_cons] at hsep
      have hi : e.toNat + 1 < i.1.toNat := hsep.2.1 (iv i) (by simp)
      have := i.1.toNat_lt
      omega
  obtain ⟨hstart, hend⟩ : pool.start ≤ 0 ∧ e ≤ pool.end_ := h.within (0, e) (by rw [hl]; simp)
  rw [UInt32.le_iff_toNat_le] at hstart hend
  have hend_lt := pool.end_.toNat_lt
  refine ⟨?_, UInt32.toNat.inj (Nat.le_zero.1 hstart), by omega⟩
  simp [take, hl, hnil, countAvailable, hspan]

/-- From any other first range `take` takes the start. -/
theorem take_one_of_cons {pool : AddressPool} {s e : Ipv4Addr}
    {rest : List (Ipv4Addr × Ipv4Addr)} (hl : pool.intervals = (s, e) :: rest) (hse : s ≤ e)
    (hfull : ¬(s = 0 ∧ e.toNat + 1 = 2 ^ 32)) :
    pool.take 1 = ({ pool with intervals := carveRange s e s ++ rest }, some [s]) := by
  have hle := UInt32.le_iff_toNat_le.1 hse
  have hspan : span s e = e.toNat + 1 - s.toNat := by rw [span_eq hse, if_neg hfull]
  have hone : addresses s 1 = [s] := by simp [addresses]
  have havail : ¬countAvailable 1 0 pool.intervals < 1 := by
    rw [hl, countAvailable, Nat.zero_add]
    split_ifs <;> omega
  rw [take, if_neg havail, hl, consume]
  by_cases hes : e = s
  · subst hes
    have hsize : span e e = 1 := by omega
    simp [hsize, hone, carveRange]
  · have hsize : ¬e.toNat + 1 - s.toNat ≤ 1 := by
      have hne : e.toNat ≠ s.toNat := fun heq ↦ hes (UInt32.toNat.inj heq)
      omega
    simp [hspan, hsize, hone, carveRange, hes]

/-- **What `take` does for one address**: it takes the start of the first range. It fails only if
nothing is free, or if the pool is the range of all addresses. -/
theorem take_one_cases {pool : AddressPool} (h : pool.Wf) :
    (pool.take 1 = (pool, none) ∧
        ((∀ x, ¬pool.IsFree x) ∨ pool.start = 0 ∧ pool.end_.toNat + 1 = 2 ^ 32)) ∨
      ∃ ip pool', pool.take 1 = (pool', some [ip]) ∧ pool.IsFree ip ∧
        pool.Becomes pool' fun x ↦ pool.IsFree x ∧ x ≠ ip := by
  rcases hl : pool.intervals with - | ⟨⟨s, e⟩, rest⟩
  · refine Or.inl ⟨?_, Or.inl ?_⟩
    · rw [take, hl]
      rfl
    · rintro x ⟨i, hi, -⟩
      rw [hl] at hi
      exact List.not_mem_nil hi
  · by_cases hfull : s = 0 ∧ e.toNat + 1 = 2 ^ 32
    · obtain ⟨htake, hbounds⟩ := take_one_of_full h hl hfull
      exact Or.inl ⟨htake, Or.inr hbounds⟩
    · have hsep := h.separated
      rw [hl, List.map_cons, separated_cons] at hsep
      have hse : s ≤ e := UInt32.le_iff_toNat_le.2 (Nat.le_of_lt_succ hsep.1)
      have hl' : pool.intervals = [] ++ (s, e) :: rest := hl
      refine Or.inr ⟨s, _, take_one_of_cons hl hse hfull, ?_,
        becomes_carveRange h hl' (UInt32.le_refl s) hse⟩
      exact ⟨(s, e), by rw [hl]; simp, UInt32.le_refl s, hse⟩

/-- **What `release` does with an address in bounds that is not free**: it joins the free set. -/
theorem exists_becomes_release {pool : AddressPool} (h : pool.Wf) {ip : Ipv4Addr}
    (hb : pool.InBounds ip) (hfree : ¬pool.IsFree ip) :
    ∃ pool', pool.release ip = some pool' ∧
      pool.Becomes pool' fun x ↦ pool.IsFree x ∨ x = ip := by
  obtain ⟨l₁, l₂, hsplit, hpos, htake, hdrop⟩ := h.partition (p := fun s ↦ s < ip)
    fun s s' hlt hle ↦ decide_eq_true (UInt32.lt_trans hlt (of_decide_eq_true hle))
  have hleft : ∀ i ∈ l₁, i.2.toNat + 1 ≤ ip.toNat := by
    intro i hi
    have hlt : i.1 < ip := of_decide_eq_true (htake i hi)
    have hno : ¬ip ≤ i.2 := fun hle ↦
      hfree ⟨i, by rw [hsplit]; exact List.mem_append_left _ hi, UInt32.le_of_lt hlt, hle⟩
    exact UInt32.lt_iff_toNat_lt.1 (UInt32.not_le.1 hno)
  have hright : ∀ j ∈ l₂, ip.toNat + 1 ≤ j.1.toNat := by
    intro j hj
    have hmem : j ∈ pool.intervals := by rw [hsplit]; exact List.mem_append_right _ hj
    have hge : ¬j.1 < ip := of_decide_eq_false (hdrop j hj)
    have hne : j.1.toNat < j.2.toNat + 1 := h.separated.1 (iv j) (List.mem_map_of_mem hmem)
    have hno : ¬(j.1 ≤ ip ∧ ip ≤ j.2) := fun hle ↦ hfree ⟨j, hmem, hle⟩
    rw [UInt32.le_iff_toNat_le, UInt32.le_iff_toNat_le] at hno
    rw [UInt32.lt_iff_toNat_lt] at hge
    omega
  refine ⟨_, if_pos hb, ?_⟩
  rw [hpos, hsplit]
  have hsep := h.separated
  rw [hsplit, List.map_append] at hsep
  refine becomes_of_cov ?_ (fun x ↦ ?_) fun x hx ↦ ?_
  · rw [map_iv_insertAt hleft hright]
    refine hsep.insertFree (Nat.lt_succ_self _) ?_ ?_
    · exact List.forall_mem_map.2 hleft
    · exact List.forall_mem_map.2 hright
  · rw [map_iv_insertAt hleft hright, cov_insertFree hsep (Nat.le_succ _), ind_point,
      isFree_iff_cov, hsplit, List.map_append]
    split_ifs with hx <;> simp [hx]
  · rcases hx with hx | rfl
    · exact h.inBounds_of_isFree hx
    · exact hb

theorem becomes_release {pool pool' : AddressPool} (h : pool.Wf) {ip : Ipv4Addr}
    (hb : pool.InBounds ip) (hfree : ¬pool.IsFree ip) (hrelease : pool.release ip = some pool') :
    pool.Becomes pool' fun x ↦ pool.IsFree x ∨ x = ip := by
  obtain ⟨pool'', hrelease', hbecomes⟩ := exists_becomes_release h hb hfree
  obtain rfl := Option.some.inj (hrelease.symm.trans hrelease')
  exact hbecomes

/-- In a well-formed pool the free ranges come one after the other. -/
theorem Wf.pairwise_lt {pool : AddressPool} (h : pool.Wf) :
    pool.intervals.Pairwise fun i j ↦ i.2 < j.1 := by
  have hpair := h.separated.2
  rw [List.pairwise_map] at hpair
  refine hpair.imp fun {i j} hij ↦ UInt32.lt_iff_toNat_lt.2 ?_
  have hij' : i.2.toNat + 1 < j.1.toNat := hij
  omega

/-! ### Pools whose ranges may overlap

An address that is given back while it is free makes two ranges overlap. Little can be said of such
a pool, but what it hands out is in bounds, and it has something to hand out. -/

/-- The free ranges are nonempty and within bounds. -/
def Bounded (pool : AddressPool) : Prop :=
  ∀ i ∈ pool.intervals, pool.start ≤ i.1 ∧ i.1 ≤ i.2 ∧ i.2 ≤ pool.end_

theorem Wf.bounded {pool : AddressPool} (h : pool.Wf) : pool.Bounded := by
  intro i hi
  have hlt : i.1.toNat < i.2.toNat + 1 := h.separated.1 (iv i) (List.mem_map_of_mem hi)
  exact ⟨(h.within i hi).1, UInt32.le_iff_toNat_le.2 (Nat.le_of_lt_succ hlt), (h.within i hi).2⟩

theorem getElem?_rangeAt {l : List (Ipv4Addr × Ipv4Addr)} {idx : ℕ} (h : idx < l.length) :
    l[idx]? = some (rangeAt l idx) := by
  rw [rangeAt, List.getD_eq_getElem?_getD, List.getElem?_eq_getElem h]
  rfl

theorem partitionPoint_le (p : Ipv4Addr × Ipv4Addr → Bool) (l : List (Ipv4Addr × Ipv4Addr)) :
    partitionPoint p l ≤ l.length :=
  (BinarySearch.partitionPoint_spec p l).1

/-- The range before the partition point passes the test. -/
theorem rangeAt_before {p : Ipv4Addr × Ipv4Addr → Bool} {l : List (Ipv4Addr × Ipv4Addr)}
    (h : partitionPoint p l ≠ 0) :
    rangeAt l (partitionPoint p l - 1) ∈ l ∧ p (rangeAt l (partitionPoint p l - 1)) = true := by
  have hidx : partitionPoint p l - 1 < l.length := by
    have hle := partitionPoint_le p l
    omega
  have hpass := (BinarySearch.partitionPoint_spec p l).2.1 (partitionPoint p l - 1)
    (Nat.succ_pred_eq_of_ne_zero h).symm
  rw [BinarySearch.passes, getElem?_rangeAt hidx] at hpass
  exact ⟨List.mem_of_getElem? (getElem?_rangeAt hidx), hpass⟩

/-- The range at the partition point does not. -/
theorem rangeAt_partitionPoint {p : Ipv4Addr × Ipv4Addr → Bool} {l : List (Ipv4Addr × Ipv4Addr)}
    (h : partitionPoint p l < l.length) :
    rangeAt l (partitionPoint p l) ∈ l ∧ p (rangeAt l (partitionPoint p l)) = false := by
  have hfail : BinarySearch.passes p l (partitionPoint p l) = false :=
    (BinarySearch.partitionPoint_spec p l).2.2
  rw [BinarySearch.passes, getElem?_rangeAt h] at hfail
  exact ⟨List.mem_of_getElem? (getElem?_rangeAt h), hfail⟩

theorem Bounded.release {pool pool' : AddressPool} (h : pool.Bounded) {ip : Ipv4Addr}
    (hrelease : pool.release ip = some pool') :
    pool'.Bounded ∧ pool'.start = pool.start ∧ pool'.end_ = pool.end_ := by
  rw [AddressPool.release] at hrelease
  split_ifs at hrelease with hb
  obtain rfl := Option.some.inj hrelease
  refine ⟨fun j hj ↦ ?_, rfl, rfl⟩
  show pool.start ≤ j.1 ∧ j.1 ≤ j.2 ∧ j.2 ≤ pool.end_
  set l := pool.intervals with hl
  set pos := partitionPoint (fun i ↦ i.1 < ip) l with hpos
  -- the range on the left starts below the address, the one on the right does not
  have hbefore : 0 < pos → pool.start ≤ (rangeAt l (pos - 1)).1 ∧ (rangeAt l (pos - 1)).1 ≤ ip := by
    intro h0
    obtain ⟨hmem, hlt⟩ := rangeAt_before (Nat.pos_iff_ne_zero.1 h0)
    exact ⟨(h _ hmem).1, UInt32.le_of_lt (of_decide_eq_true hlt)⟩
  have hafter : pos < l.length → ip ≤ (rangeAt l pos).2 ∧ (rangeAt l pos).2 ≤ pool.end_ := by
    intro hlt
    obtain ⟨hmem, hle⟩ := rangeAt_partitionPoint hlt
    obtain ⟨-, hrange, hend⟩ := h _ hmem
    exact ⟨UInt32.le_trans (UInt32.not_lt.1 (of_decide_eq_false hle)) hrange, hend⟩
  have hj' : j ∈ insertAt l pos ip := hj
  rw [insertAt] at hj'
  rcases hleft : (decide (0 < pos) && (rangeAt l (pos - 1)).2 + 1 == ip) with - | - <;>
    rcases hright : (decide (pos < l.length) && (rangeAt l pos).1 == ip + 1) with - | - <;>
    simp only [hleft, hright] at hj'
  · rcases List.eq_or_mem_of_mem_insertIdx hj' with rfl | hj'
    · exact ⟨hb.1, UInt32.le_refl ip, hb.2⟩
    · exact h j hj'
  · have hr := hafter (of_decide_eq_true (Bool.and_eq_true_iff.1 hright).1)
    rcases List.mem_or_eq_of_mem_set hj' with hj' | rfl
    · exact h j hj'
    · exact ⟨hb.1, hr.1, hr.2⟩
  · have hf := hbefore (of_decide_eq_true (Bool.and_eq_true_iff.1 hleft).1)
    rcases List.mem_or_eq_of_mem_set hj' with hj' | rfl
    · exact h j hj'
    · exact ⟨hf.1, hf.2, hb.2⟩
  · have hf := hbefore (of_decide_eq_true (Bool.and_eq_true_iff.1 hleft).1)
    have hr := hafter (of_decide_eq_true (Bool.and_eq_true_iff.1 hright).1)
    rcases List.mem_or_eq_of_mem_set (List.mem_of_mem_eraseIdx hj') with hj' | rfl
    · exact h j hj'
    · exact ⟨hf.1, UInt32.le_trans hf.2 hr.1, hr.2⟩

/-- What is left of a range above one of its addresses. -/
theorem bounds_above {start end_ s e addr : Ipv4Addr} (hstart : start ≤ s) (hend : e ≤ end_)
    (hs : s ≤ addr) (he : addr ≤ e) (hne : e ≠ addr) :
    start ≤ addr + 1 ∧ addr + 1 ≤ e ∧ e ≤ end_ := by
  have hne' : e.toNat ≠ addr.toNat := fun heq ↦ hne (UInt32.toNat.inj heq)
  have hlt := e.toNat_lt
  rw [UInt32.le_iff_toNat_le] at hstart hs he
  refine ⟨?_, ?_, hend⟩ <;>
    rw [UInt32.le_iff_toNat_le, UInt32.toNat_add, UInt32.toNat_one] <;> omega

/-- What is left of it below. -/
theorem bounds_below {start end_ s e addr : Ipv4Addr} (hstart : start ≤ s) (hend : e ≤ end_)
    (hs : s ≤ addr) (he : addr ≤ e) (hne : s ≠ addr) :
    start ≤ s ∧ s ≤ addr - 1 ∧ addr - 1 ≤ end_ := by
  have hne' : s.toNat ≠ addr.toNat := fun heq ↦ hne (UInt32.toNat.inj heq)
  rw [UInt32.le_iff_toNat_le] at hend hs he
  have hone : (1 : UInt32) ≤ addr := by
    rw [UInt32.le_iff_toNat_le, UInt32.toNat_one]
    omega
  refine ⟨hstart, ?_, ?_⟩ <;>
    rw [UInt32.le_iff_toNat_le, UInt32.toNat_sub_of_le _ _ hone, UInt32.toNat_one] <;> omega

theorem Bounded.reserve {pool : AddressPool} (h : pool.Bounded) (addr : Ipv4Addr) :
    (pool.reserve addr).1.Bounded ∧ (pool.reserve addr).1.start = pool.start ∧
      (pool.reserve addr).1.end_ = pool.end_ := by
  by_cases hzero : partitionPoint (fun i ↦ i.1 ≤ addr) pool.intervals = 0
  · simp only [AddressPool.reserve, if_pos hzero]
    exact ⟨h, trivial, trivial⟩
  obtain ⟨hmem, hle⟩ := rangeAt_before hzero
  rcases hrange : rangeAt pool.intervals
    (partitionPoint (fun i ↦ i.1 ≤ addr) pool.intervals - 1) with ⟨s, e⟩
  rw [hrange] at hmem hle
  obtain ⟨hstart, -, hend⟩ : pool.start ≤ s ∧ s ≤ e ∧ e ≤ pool.end_ := h _ hmem
  have hs : s ≤ addr := of_decide_eq_true hle
  by_cases hgap : addr > e
  · simp only [AddressPool.reserve, if_neg hzero, hrange, if_pos hgap]
    exact ⟨h, trivial, trivial⟩
  have he : addr ≤ e := UInt32.not_lt.1 hgap
  simp only [AddressPool.reserve, if_neg hzero, hrange, if_neg hgap]
  refine ⟨fun j hj ↦ ?_, trivial, trivial⟩
  show pool.start ≤ j.1 ∧ j.1 ≤ j.2 ∧ j.2 ≤ pool.end_
  simp only at hj
  split_ifs at hj with hone hfirst hlast
  · exact h j (List.mem_of_mem_eraseIdx hj)
  · rcases List.mem_or_eq_of_mem_set hj with hj | rfl
    · exact h j hj
    · exact bounds_above hstart hend hs he fun heq ↦ hone ⟨hfirst, heq⟩
  · rcases List.mem_or_eq_of_mem_set hj with hj | rfl
    · exact h j hj
    · exact bounds_below hstart hend hs he hfirst
  · rcases List.mem_or_eq_of_mem_set hj with hj | rfl
    · rcases List.eq_or_mem_of_mem_insertIdx hj with rfl | hj
      · exact bounds_above hstart hend hs he hlast
      · exact h j hj
    · exact bounds_below hstart hend hs he hfirst

/-- The range of all addresses, whose size wraps to zero. -/
def allAddresses : Ipv4Addr × Ipv4Addr := (0, 0xffffffff)

theorem span_eq_zero_iff {i : Ipv4Addr × Ipv4Addr} (h : i.1 ≤ i.2) :
    span i.1 i.2 = 0 ↔ i = allAddresses := by
  have hle := UInt32.le_iff_toNat_le.1 h
  rw [span_eq h]
  split_ifs with hall
  · simp only [true_iff]
    exact Prod.ext hall.1 (UInt32.toNat.inj (Nat.add_right_cancel hall.2))
  · refine ⟨fun hzero ↦ by omega, fun hi ↦ ?_⟩
    rw [hi] at hall
    exact absurd ⟨rfl, rfl⟩ hall

/-- The first loop of `take` finds nothing exactly if every range is the range of all addresses. -/
theorem countAvailable_one_lt_iff {l : List (Ipv4Addr × Ipv4Addr)} (h : ∀ i ∈ l, i.1 ≤ i.2) :
    countAvailable 1 0 l < 1 ↔ ∀ i ∈ l, i = allAddresses := by
  induction l with
  | nil => simp [countAvailable]
  | cons i l ih =>
    obtain ⟨hi, hl⟩ := List.forall_mem_cons.1 h
    have hspan := span_eq_zero_iff hi
    rw [countAvailable, Nat.zero_add, List.forall_mem_cons]
    split_ifs with hone
    · refine ⟨fun hlt ↦ absurd hlt (Nat.not_lt.2 hone), fun hall ↦ ?_⟩
      rw [hspan.2 hall.1] at hone
      exact absurd hone (by decide)
    · have hzero : span i.1 i.2 = 0 := by omega
      rw [hzero, ih hl]
      exact ⟨fun hall ↦ ⟨hspan.1 hzero, hall⟩, And.right⟩

theorem head?_addresses (s : Ipv4Addr) {k : ℕ} (hk : 0 < k) :
    (addresses s k).head? = some s := by
  obtain ⟨k, rfl⟩ := Nat.exists_eq_add_of_lt hk
  simp [addresses, List.range_succ_eq_map]

/-- The second loop of `take`, for one address: something comes out, and what is left are ranges
that were there, or the rest of one. -/
theorem consume_one {l : List (Ipv4Addr × Ipv4Addr)} (h : ∀ i ∈ l, i.1 ≤ i.2)
    (hsome : ∃ i ∈ l, i ≠ allAddresses) :
    (∃ i ∈ l, (consume 1 l).1.head? = some i.1) ∧
      ∀ j ∈ (consume 1 l).2, j ∈ l ∨ ∃ i ∈ l, i.1 < i.2 ∧ j = (i.1 + 1, i.2) := by
  induction l with
  | nil => exact absurd hsome (by simp)
  | cons i l ih =>
    obtain ⟨s, e⟩ := i
    obtain ⟨hi, hl⟩ := List.forall_mem_cons.1 h
    have hle : s.toNat ≤ e.toNat := UInt32.le_iff_toNat_le.1 hi
    have hspan : span s e = _ := span_eq hi
    have hhead : (addresses s (e.toNat + 1 - s.toNat)).head? = some s :=
      head?_addresses s (by omega)
    rw [consume]
    by_cases hall : (s, e) = allAddresses
    · -- a range that counts for nothing is consumed, and the loop goes on
      have hzero : span s e = 0 := (span_eq_zero_iff hi).2 hall
      obtain ⟨-, hrest⟩ := ih hl (by simpa [hall] using hsome)
      simp only [hzero, Nat.zero_le, if_true, Nat.sub_zero, Nat.one_ne_zero, if_false]
      refine ⟨⟨(s, e), List.mem_cons_self, ?_⟩, fun j hj ↦ ?_⟩
      · rw [List.head?_append, hhead]
        rfl
      · rcases hrest j hj with hj | ⟨i, hi, hj⟩
        · exact Or.inl (List.mem_cons_of_mem _ hj)
        · exact Or.inr ⟨i, List.mem_cons_of_mem _ hi, hj⟩
    · have hpos : span s e ≠ 0 := fun hzero ↦ hall ((span_eq_zero_iff hi).1 hzero)
      by_cases hone : span s e ≤ 1
      · have hspan1 : span s e = 1 := by omega
        simp only [hspan1, Nat.le_refl, if_true, Nat.sub_self]
        exact ⟨⟨(s, e), List.mem_cons_self, hhead⟩, fun j hj ↦ Or.inl (List.mem_cons_of_mem _ hj)⟩
      · simp only [if_neg hone]
        refine ⟨⟨(s, e), List.mem_cons_self, head?_addresses s Nat.one_pos⟩, fun j hj ↦ ?_⟩
        rcases List.mem_cons.1 hj with rfl | hj
        · refine Or.inr ⟨(s, e), List.mem_cons_self, ?_, rfl⟩
          have hsize : span s e ≤ e.toNat + 1 - s.toNat := by
            rw [hspan]
            split_ifs <;> omega
          show s < e
          rw [UInt32.lt_iff_toNat_lt]
          omega
        · exact Or.inl (List.mem_cons_of_mem _ hj)

/-- **What `take` does for one address**, in any pool: it fails exactly if it finds nothing but the
range of all addresses. -/
theorem Bounded.take_one_cases {pool : AddressPool} (h : pool.Bounded) :
    (pool.take 1 = (pool, none) ∧ ∀ i ∈ pool.intervals, i = allAddresses) ∨
      (∃ i ∈ pool.intervals, i ≠ allAddresses) ∧
        ∃ ip out pool', pool.take 1 = (pool', some out) ∧ out.head? = some ip ∧
          pool.InBounds ip ∧ pool'.Bounded ∧ pool'.start = pool.start ∧
          pool'.end_ = pool.end_ := by
  have hle : ∀ i ∈ pool.intervals, i.1 ≤ i.2 := fun i hi ↦ (h i hi).2.1
  by_cases hall : ∀ i ∈ pool.intervals, i = allAddresses
  · exact Or.inl ⟨if_pos ((countAvailable_one_lt_iff hle).2 hall), hall⟩
  · have hsome : ∃ i ∈ pool.intervals, i ≠ allAddresses := by simpa using hall
    obtain ⟨⟨i, hi, hhead⟩, hrest⟩ := consume_one hle hsome
    obtain ⟨hstart, hrange, hend⟩ := h i hi
    refine Or.inr ⟨hsome, i.1, (consume 1 pool.intervals).1,
      { pool with intervals := (consume 1 pool.intervals).2 }, ?_, hhead,
      ⟨hstart, UInt32.le_trans hrange hend⟩, fun j hj ↦ ?_, rfl, rfl⟩
    · rw [AddressPool.take, if_neg fun hlt ↦ hall ((countAvailable_one_lt_iff hle).1 hlt)]
    · rcases hrest j hj with hj | ⟨k, hk, hlt, rfl⟩
      · exact h j hj
      · obtain ⟨hstart, -, hend⟩ := h k hk
        exact bounds_above hstart hend (UInt32.le_refl k.1) (UInt32.le_of_lt hlt)
          (UInt32.ne_of_lt hlt).symm

end AddressPool

end UserspaceRouter
