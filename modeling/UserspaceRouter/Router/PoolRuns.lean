import UserspaceRouter.Foundations.Checked
import UserspaceRouter.Foundations.TransitionSystem
import UserspaceRouter.Router.Pool

/-!
# The address pool as a set

What the pool is for is a set of free addresses. `setSystem` is that set, with the three calls as
operations on it: `take` asks for its smallest elements, `reserve` removes one, `release` adds one.
A run of the pool is a run of the set (`refines_run`), as long as no address is released that is
free or out of bounds.

**One list for a set.** The ranges of a well-formed pool are determined by the free addresses
(`WfIn.eq_of_free_eq`), so a call that leaves the set alone leaves the pool alone.

**Nothing out of range.** The `…Checked` operations are the code once more, with every index and
every `u32` operation checked. On the pools of these runs they do what the code does. The one range
whose size is not a `u32` is that of all addresses, so a pool over all of them is left out.
-/

namespace UserspaceRouter

open Intervals TransitionSystem

namespace AddressPool

/-! ### The code, with its checks -/

def reserveChecked (pool : AddressPool) (addr : Ipv4Addr) :
    Option (AddressPool × Option Ipv4Addr) :=
  let pos := partitionPoint (fun i ↦ i.1 ≤ addr) pool.intervals
  if pos = 0 then some (pool, none)
  else do
    let idx := pos - 1
    let range ← pool.intervals[idx]?
    if addr > range.2 then some (pool, none)
    else do
      let intervals ←
        if range.1 = addr ∧ range.2 = addr then Checked.remove pool.intervals idx
        else if range.1 = addr then do
          let next ← Checked.add32 addr 1
          Checked.store pool.intervals idx (next, range.2)
        else if range.2 = addr then do
          let prev ← Checked.sub32 addr 1
          Checked.store pool.intervals idx (range.1, prev)
        else do
          let next ← Checked.add32 addr 1
          let intervals ← Checked.insert pool.intervals (idx + 1) (next, range.2)
          let prev ← Checked.sub32 addr 1
          Checked.store intervals idx (range.1, prev)
      some ({ pool with intervals }, some addr)

def spanChecked (s e : Ipv4Addr) : Option ℕ := do
  let d ← Checked.sub32 e s
  let d ← Checked.add32 d 1
  some d.toNat

def countAvailableChecked (n : ℕ) : ℕ → List (Ipv4Addr × Ipv4Addr) → Option ℕ
  | available, [] => some available
  | available, (s, e) :: rest => do
    let size ← spanChecked s e
    let available := available + size
    if n ≤ available then some available else countAvailableChecked n available rest

def consumeChecked :
    ℕ → List (Ipv4Addr × Ipv4Addr) → Option (List Ipv4Addr × List (Ipv4Addr × Ipv4Addr))
  | _, [] => some ([], [])
  | remaining, (s, e) :: rest => do
    let size ← spanChecked s e
    if size ≤ remaining then
      let out := addresses s (e.toNat + 1 - s.toNat)
      let remaining := remaining - size
      if remaining = 0 then some (out, rest)
      else do
        let (out', rest') ← consumeChecked remaining rest
        some (out ++ out', rest')
    else do
      let start ← Checked.add32 s (UInt32.ofNat remaining)
      some (addresses s remaining, (start, e) :: rest)

def takeChecked (pool : AddressPool) (n : ℕ) : Option (AddressPool × Option (List Ipv4Addr)) := do
  let available ← countAvailableChecked n 0 pool.intervals
  if available < n then some (pool, none)
  else do
    let (out, intervals) ← consumeChecked n pool.intervals
    some ({ pool with intervals }, some out)

/-- The test that the range on the left ends right below the address. -/
def leftAdjChecked (l : List (Ipv4Addr × Ipv4Addr)) (pos : ℕ) (ip : Ipv4Addr) : Option Bool :=
  if 0 < pos then do
    let left ← l[pos - 1]?
    let next ← Checked.add32 left.2 1
    some (next == ip)
  else some false

/-- The test that the range on the right starts right above the address. -/
def rightAdjChecked (l : List (Ipv4Addr × Ipv4Addr)) (pos : ℕ) (ip : Ipv4Addr) : Option Bool :=
  if pos < l.length then do
    let right ← l[pos]?
    let next ← Checked.add32 ip 1
    some (right.1 == next)
  else some false

def insertAtChecked (l : List (Ipv4Addr × Ipv4Addr)) (pos : ℕ) (ip : Ipv4Addr) :
    Option (List (Ipv4Addr × Ipv4Addr)) := do
  let leftAdj ← leftAdjChecked l pos ip
  let rightAdj ← rightAdjChecked l pos ip
  match leftAdj, rightAdj with
  | true, true => do
    let right ← l[pos]?
    let left ← l[pos - 1]?
    let l ← Checked.store l (pos - 1) (left.1, right.2)
    Checked.remove l pos
  | true, false => do
    let left ← l[pos - 1]?
    Checked.store l (pos - 1) (left.1, ip)
  | false, true => do
    let right ← l[pos]?
    Checked.store l pos (ip, right.2)
  | false, false => Checked.insert l pos (ip, ip)

def releaseChecked (pool : AddressPool) (ip : Ipv4Addr) : Option AddressPool :=
  if pool.start ≤ ip ∧ ip ≤ pool.end_ then do
    let pos := partitionPoint (fun i ↦ i.1 < ip) pool.intervals
    let intervals ← insertAtChecked pool.intervals pos ip
    some { pool with intervals }
  else none

/-! ### No check fails -/

/-- `reserve` never fails a check, whatever the pool. -/
theorem reserveChecked_eq (pool : AddressPool) (addr : Ipv4Addr) :
    pool.reserveChecked addr = some (pool.reserve addr) := by
  unfold reserveChecked reserve
  set pos := partitionPoint (fun i ↦ i.1 ≤ addr) pool.intervals with hpos
  by_cases hzero : pos = 0
  · simp only [if_pos hzero]
  have hidx : pos - 1 < pool.intervals.length := by
    have hle := partitionPoint_le (fun i ↦ i.1 ≤ addr) pool.intervals
    omega
  have hstart : (rangeAt pool.intervals (pos - 1)).1 ≤ addr :=
    of_decide_eq_true (rangeAt_before hzero).2
  simp only [if_neg hzero, getElem?_rangeAt hidx, Option.bind_eq_bind, Option.bind_some]
  generalize rangeAt pool.intervals (pos - 1) = range at hstart ⊢
  obtain ⟨s, e⟩ := range
  by_cases hend : addr > e
  · simp only [if_pos hend]
  simp only [if_neg hend]
  rw [gt_iff_lt, UInt32.not_lt, UInt32.le_iff_toNat_le] at hend
  have hstart' : s.toNat ≤ addr.toNat := UInt32.le_iff_toNat_le.1 hstart
  have hlt := e.toNat_lt
  -- the address above is at most the end, and the one below at least the start
  have hnext : e ≠ addr → Checked.add32 addr 1 = some (addr + 1) := by
    intro hne
    have hne' : e.toNat ≠ addr.toNat := fun heq ↦ hne (UInt32.toNat.inj heq)
    exact Checked.add32_eq (by rw [UInt32.toNat_one]; omega)
  have hprev : s ≠ addr → Checked.sub32 addr 1 = some (addr - 1) := by
    intro hne
    have hne' : s.toNat ≠ addr.toNat := fun heq ↦ hne (UInt32.toNat.inj heq)
    exact Checked.sub32_eq (by rw [UInt32.toNat_one]; omega)
  by_cases hs : s = addr <;> by_cases he : e = addr
  · simp [hs, he, Checked.remove_eq hidx]
  · simp [hs, he, hnext he, Checked.store_eq hidx]
  · simp [hs, he, hprev hs, Checked.store_eq hidx]
  · have hinsert : pos - 1 + 1 ≤ pool.intervals.length := hidx
    have hidx' : pos - 1 < (pool.intervals.insertIdx (pos - 1 + 1) (addr + 1, e)).length := by
      rw [List.length_insertIdx, if_pos hinsert]
      omega
    simp [hs, he, hprev hs, hnext he, Checked.insert_eq hinsert, Checked.store_eq hidx']

/-- The range is nonempty, and not that of all addresses. -/
def Counted (i : Ipv4Addr × Ipv4Addr) : Prop := i.1 ≤ i.2 ∧ ¬(i.1 = 0 ∧ i.2.toNat + 1 = 2 ^ 32)

/-- The size of a range is a number the code can count with. -/
theorem Counted.span {s e : Ipv4Addr} (h : Counted (s, e)) :
    span s e = e.toNat + 1 - s.toNat ∧ spanChecked s e = some (span s e) := by
  obtain ⟨hle, hfull⟩ := h
  have hspan : AddressPool.span s e = e.toNat + 1 - s.toNat := by rw [span_eq hle, if_neg hfull]
  refine ⟨hspan, ?_⟩
  have hle' := UInt32.le_iff_toNat_le.1 hle
  have hlt := e.toNat_lt
  have hsub : (e - s).toNat = e.toNat - s.toNat := UInt32.toNat_sub_of_le _ _ hle
  have hsmall : e.toNat - s.toNat + 1 < 2 ^ 32 := by
    by_contra hge
    exact hfull ⟨UInt32.toNat.inj (by show s.toNat = 0; omega), by show e.toNat + 1 = _; omega⟩
  have hadd : Checked.add32 (e - s) 1 = some (e - s + 1) :=
    Checked.add32_eq (by rw [hsub, UInt32.toNat_one]; exact hsmall)
  rw [spanChecked, Checked.sub32_eq hle']
  simp only [Option.bind_eq_bind, Option.bind_some, hadd]
  rfl

theorem countAvailableChecked_eq {l : List (Ipv4Addr × Ipv4Addr)} (h : ∀ i ∈ l, Counted i)
    (n available : ℕ) :
    countAvailableChecked n available l = some (countAvailable n available l) := by
  induction l generalizing available with
  | nil => rfl
  | cons i l ih =>
    obtain ⟨hi, hl⟩ := List.forall_mem_cons.1 h
    rw [countAvailableChecked, countAvailable, hi.span.2]
    simp only [Option.bind_eq_bind, Option.bind_some]
    split_ifs
    · rfl
    · exact ih hl _

theorem consumeChecked_eq {l : List (Ipv4Addr × Ipv4Addr)} (h : ∀ i ∈ l, Counted i)
    (remaining : ℕ) : consumeChecked remaining l = some (consume remaining l) := by
  induction l generalizing remaining with
  | nil => rfl
  | cons i l ih =>
    obtain ⟨s, e⟩ := i
    obtain ⟨hi, hl⟩ := List.forall_mem_cons.1 h
    rw [consumeChecked, consume, hi.span.2]
    simp only [Option.bind_eq_bind, Option.bind_some]
    split_ifs with hsize hdone
    · rfl
    · rw [ih hl]
      rfl
    · -- the new start is still in the range
      have hlt := e.toNat_lt
      have hsmall : remaining < 2 ^ 32 := by
        have := hi.span.1
        omega
      have hadd : Checked.add32 s (UInt32.ofNat remaining) = some (s + UInt32.ofNat remaining) := by
        refine Checked.add32_eq ?_
        rw [UInt32.toNat_ofNat_of_lt' hsmall]
        have := hi.span.1
        omega
      rw [hadd]
      rfl

theorem takeChecked_eq {pool : AddressPool} (h : ∀ i ∈ pool.intervals, Counted i) (n : ℕ) :
    pool.takeChecked n = some (pool.take n) := by
  rw [takeChecked, take, countAvailableChecked_eq h]
  simp only [Option.bind_eq_bind, Option.bind_some]
  split_ifs
  · rfl
  · rw [consumeChecked_eq h]
    rfl

/-- If the range on the left does not end with the last of all addresses, and an address with a
range on the right is not the last, the address is put back without a failed check. -/
theorem insertAtChecked_eq {l : List (Ipv4Addr × Ipv4Addr)} {pos : ℕ} {ip : Ipv4Addr}
    (hpos : pos ≤ l.length) (hleft : 0 < pos → (rangeAt l (pos - 1)).2.toNat + 1 < 2 ^ 32)
    (hright : pos < l.length → ip.toNat + 1 < 2 ^ 32) :
    insertAtChecked l pos ip = some (insertAt l pos ip) := by
  have hadj : leftAdjChecked l pos ip =
      some (decide (0 < pos) && (rangeAt l (pos - 1)).2 + 1 == ip) := by
    unfold leftAdjChecked
    split_ifs with h0
    · rw [getElem?_rangeAt (by omega), Option.bind_eq_bind, Option.bind_some,
        Checked.add32_eq (by rw [UInt32.toNat_one]; exact hleft h0)]
      simp [h0]
    · simp [h0]
  have hadj' : rightAdjChecked l pos ip =
      some (decide (pos < l.length) && (rangeAt l pos).1 == ip + 1) := by
    unfold rightAdjChecked
    split_ifs with hlen
    · rw [getElem?_rangeAt hlen, Option.bind_eq_bind, Option.bind_some,
        Checked.add32_eq (by rw [UInt32.toNat_one]; exact hright hlen)]
      simp [hlen]
    · simp [hlen]
  rw [insertAtChecked, insertAt]
  simp only [hadj, hadj', Option.bind_eq_bind, Option.bind_some]
  rcases hl : (decide (0 < pos) && (rangeAt l (pos - 1)).2 + 1 == ip) with - | - <;>
    rcases hr : (decide (pos < l.length) && (rangeAt l pos).1 == ip + 1) with - | - <;>
    simp only
  · exact Checked.insert_eq hpos _
  · have hlen : pos < l.length := of_decide_eq_true (Bool.and_eq_true_iff.1 hr).1
    rw [getElem?_rangeAt hlen, Option.bind_some, Checked.store_eq hlen]
  · have h0 : 0 < pos := of_decide_eq_true (Bool.and_eq_true_iff.1 hl).1
    rw [getElem?_rangeAt (by omega), Option.bind_some, Checked.store_eq (by omega)]
  · have h0 : 0 < pos := of_decide_eq_true (Bool.and_eq_true_iff.1 hl).1
    have hlen : pos < l.length := of_decide_eq_true (Bool.and_eq_true_iff.1 hr).1
    rw [getElem?_rangeAt hlen, Option.bind_some, getElem?_rangeAt (by omega), Option.bind_some,
      Checked.store_eq (by omega), Option.bind_some,
      Checked.remove_eq (by rw [List.length_set]; exact hlen)]

/-- `release` fails no check on an address that is not free. -/
theorem releaseChecked_eq {pool : AddressPool} (h : pool.Wf) {ip : Ipv4Addr}
    (hfree : ¬pool.IsFree ip) : pool.releaseChecked ip = pool.release ip := by
  unfold releaseChecked release
  split_ifs with hb
  · set pos := partitionPoint (fun i ↦ i.1 < ip) pool.intervals with hpos
    have hinsert : insertAtChecked pool.intervals pos ip =
        some (insertAt pool.intervals pos ip) := by
      refine insertAtChecked_eq (partitionPoint_le _ _) (fun h0 ↦ ?_) fun hlen ↦ ?_
      · -- the range on the left ends below the address
        obtain ⟨hmem, hlt⟩ := rangeAt_before (Nat.pos_iff_ne_zero.1 h0)
        have hend : (rangeAt pool.intervals (pos - 1)).2 < ip := by
          refine UInt32.not_le.1 fun hle ↦ hfree ⟨_, hmem, ?_, hle⟩
          exact UInt32.le_of_lt (of_decide_eq_true hlt)
        have hip := ip.toNat_lt
        have hend' := UInt32.lt_iff_toNat_lt.1 hend
        omega
      · -- and the one on the right starts above it
        obtain ⟨hmem, hge⟩ := rangeAt_partitionPoint hlen
        have hstart : ip < (rangeAt pool.intervals pos).1 := by
          refine UInt32.not_le.1 fun hle ↦ hfree ⟨_, hmem, hle, ?_⟩
          exact UInt32.le_trans (UInt32.not_lt.1 (of_decide_eq_false hge)) (h.bounded _ hmem).2.1
        have hnext := (rangeAt pool.intervals pos).1.toNat_lt
        have hstart' := UInt32.lt_iff_toNat_lt.1 hstart
        omega
    simp only [hinsert, Option.bind_eq_bind, Option.bind_some]
  · rfl

/-- **No check fails on a pool whose bounds leave out the last address**, even when its ranges
overlap and are out of order. -/
theorem Bounded.checked_eq {pool : AddressPool} (h : pool.Bounded)
    (hend : pool.end_.toNat + 1 < 2 ^ 32) :
    (∀ ip, pool.reserveChecked ip = some (pool.reserve ip)) ∧
      (∀ n, pool.takeChecked n = some (pool.take n)) ∧
      ∀ ip, pool.releaseChecked ip = pool.release ip := by
  have hlast : ∀ i ∈ pool.intervals, i.2.toNat + 1 < 2 ^ 32 := by
    intro i hi
    have hle := UInt32.le_iff_toNat_le.1 (h i hi).2.2
    omega
  refine ⟨pool.reserveChecked_eq, takeChecked_eq fun i hi ↦ ⟨(h i hi).2.1, fun hall ↦ ?_⟩,
    fun ip ↦ ?_⟩
  · have := hlast i hi
    omega
  · unfold releaseChecked AddressPool.release
    split_ifs with hb
    · have hip := UInt32.le_iff_toNat_le.1 hb.2
      have hsmall : ip.toNat + 1 < 2 ^ 32 := by omega
      have hinsert := insertAtChecked_eq (partitionPoint_le (fun i ↦ i.1 < ip) pool.intervals)
        (fun h0 ↦ hlast _ (rangeAt_before (Nat.pos_iff_ne_zero.1 h0)).1) fun _ ↦ hsmall
      simp only [hinsert, Option.bind_eq_bind, Option.bind_some]
    · rfl

/-! ### The free addresses, in order -/

/-- The addresses of the ranges, one after the other. -/
def addrsOf (l : List (Ipv4Addr × Ipv4Addr)) : List Ipv4Addr :=
  l.flatMap fun i ↦ addresses i.1 (i.2.toNat + 1 - i.1.toNat)

theorem addrsOf_cons (i : Ipv4Addr × Ipv4Addr) (l : List (Ipv4Addr × Ipv4Addr)) :
    addrsOf (i :: l) = addresses i.1 (i.2.toNat + 1 - i.1.toNat) ++ addrsOf l := rfl

theorem length_addresses (s : Ipv4Addr) (k : ℕ) : (addresses s k).length = k := by
  rw [addresses, List.length_map, List.length_range]

/-- Adding to an address, without wrapping. -/
theorem toNat_add_ofNat {s : Ipv4Addr} {k : ℕ} (h : s.toNat + k < 2 ^ 32) :
    (s + UInt32.ofNat k).toNat = s.toNat + k := by
  rw [UInt32.toNat_add, UInt32.toNat_ofNat_of_lt' (by show k < 2 ^ 32; omega), Nat.mod_eq_of_lt h]

/-- The addresses from `s` on are those from `s` to `s + k`, in order. -/
theorem mem_addresses_iff {s x : Ipv4Addr} {k : ℕ} (h : s.toNat + k ≤ 2 ^ 32) :
    x ∈ addresses s k ↔ s.toNat ≤ x.toNat ∧ x.toNat < s.toNat + k := by
  simp only [addresses, List.mem_map, List.mem_range]
  constructor
  · rintro ⟨i, hi, rfl⟩
    rw [toNat_add_ofNat (by omega)]
    omega
  · rintro ⟨hle, hlt⟩
    refine ⟨x.toNat - s.toNat, by omega, UInt32.toNat.inj ?_⟩
    have hx := x.toNat_lt
    rw [toNat_add_ofNat (by omega)]
    omega

theorem pairwise_addresses {s : Ipv4Addr} {k : ℕ} (h : s.toNat + k ≤ 2 ^ 32) :
    (addresses s k).Pairwise (· < ·) := by
  rw [addresses, List.pairwise_map]
  refine List.pairwise_lt_range.imp_of_mem fun {i j} hi hj hij ↦ UInt32.lt_iff_toNat_lt.2 ?_
  rw [List.mem_range] at hi hj
  rw [toNat_add_ofNat (by omega), toNat_add_ofNat (by omega)]
  omega

/-- The first `n` of them, and those from there on. -/
theorem addresses_split (s : Ipv4Addr) {n k : ℕ} (h : n ≤ k) :
    addresses s k = addresses s n ++ addresses (s + UInt32.ofNat n) (k - n) := by
  obtain ⟨m, rfl⟩ := Nat.exists_eq_add_of_le h
  rw [Nat.add_sub_cancel_left, addresses, List.range_add, List.map_append, List.map_map]
  congr 1
  refine List.map_congr_left fun i _ ↦ ?_
  simp only [Function.comp_apply]
  rw [UInt32.ofNat_add, UInt32.add_assoc]

theorem mem_range_addresses_iff {i : Ipv4Addr × Ipv4Addr} {x : Ipv4Addr} :
    x ∈ addresses i.1 (i.2.toNat + 1 - i.1.toNat) ↔ i.1 ≤ x ∧ x ≤ i.2 := by
  have hlo := i.1.toNat_lt
  have hhi := i.2.toNat_lt
  rw [mem_addresses_iff (by omega), UInt32.le_iff_toNat_le, UInt32.le_iff_toNat_le]
  omega

theorem mem_addrsOf_iff {pool : AddressPool} {x : Ipv4Addr} :
    x ∈ addrsOf pool.intervals ↔ pool.IsFree x := by
  rw [addrsOf, List.mem_flatMap]
  exact exists_congr fun i ↦ and_congr_right fun _ ↦ mem_range_addresses_iff

/-- The free addresses are in ascending order. -/
theorem Wf.pairwise_addrsOf {pool : AddressPool} (h : pool.Wf) :
    (addrsOf pool.intervals).Pairwise (· < ·) := by
  rw [addrsOf, List.pairwise_flatMap]
  refine ⟨fun i _ ↦ pairwise_addresses ?_, h.pairwise_lt.imp fun {i j} hij x hx y hy ↦ ?_⟩
  · have hlo := i.1.toNat_lt
    have hhi := i.2.toNat_lt
    omega
  · exact UInt32.lt_of_le_of_lt (mem_range_addresses_iff.1 hx).2
      (UInt32.lt_of_lt_of_le hij (mem_range_addresses_iff.1 hy).1)

/-! ### Taking many addresses -/

/-- The first loop finds out whether there are enough. -/
theorem countAvailable_lt_iff {l : List (Ipv4Addr × Ipv4Addr)} (h : ∀ i ∈ l, Counted i)
    (n available : ℕ) :
    countAvailable n available l < n ↔ available + (addrsOf l).length < n := by
  induction l generalizing available with
  | nil => rfl
  | cons i l ih =>
    obtain ⟨s, e⟩ := i
    obtain ⟨hi, hl⟩ := List.forall_mem_cons.1 h
    rw [countAvailable, addrsOf_cons, List.length_append, length_addresses, hi.span.1]
    simp only
    split_ifs with hle
    · omega
    · rw [ih hl]
      omega

/-- **The second loop takes the addresses from the front**, and leaves ranges for the others. -/
theorem consume_spec {l : List (Ipv4Addr × Ipv4Addr)} (h : ∀ i ∈ l, Counted i)
    (hsep : Separated (l.map iv)) {n : ℕ} (hn : n ≤ (addrsOf l).length) :
    (consume n l).1 = (addrsOf l).take n ∧ addrsOf (consume n l).2 = (addrsOf l).drop n ∧
      Separated ((consume n l).2.map iv) := by
  induction l generalizing n with
  | nil => exact ⟨by rw [addrsOf]; simp [consume], by simp [consume, addrsOf], hsep⟩
  | cons i l ih =>
    obtain ⟨s, e⟩ := i
    obtain ⟨hi, hl⟩ := List.forall_mem_cons.1 h
    obtain ⟨hne, hafter, hsep'⟩ := separated_cons.1 hsep
    have hsize := length_addresses s (e.toNat + 1 - s.toNat)
    rw [addrsOf_cons, List.length_append, hsize] at hn
    rw [consume, hi.span.1, addrsOf_cons]
    dsimp only
    split_ifs with hle hdone
    · -- the range is used up, and that is enough
      have hn' : n = e.toNat + 1 - s.toNat := by omega
      exact ⟨by rw [hn', List.take_left' hsize], by rw [hn', List.drop_left' hsize], hsep'⟩
    · obtain ⟨htake, hdrop, hrest⟩ := ih hl hsep' (n := n - (e.toNat + 1 - s.toNat)) (by omega)
      have hall : (addresses s (e.toNat + 1 - s.toNat)).length ≤ n := by rwa [hsize]
      refine ⟨?_, ?_, hrest⟩
      · rw [htake, List.take_append, List.take_of_length_le hall, hsize]
      · rw [hdrop, List.drop_append, List.drop_of_length_le hall, hsize, List.nil_append]
    · -- the range is shortened
      rw [Nat.not_le] at hle
      have hlt := e.toNat_lt
      have hstart : (s + UInt32.ofNat n).toNat = s.toNat + n := toNat_add_ofNat (by omega)
      have hsplit := addresses_split s (Nat.le_of_lt hle)
      have hlen := length_addresses s n
      refine ⟨?_, ?_, ?_⟩
      · rw [hsplit, List.append_assoc, List.take_left' hlen]
      · show addresses (s + UInt32.ofNat n) (e.toNat + 1 - (s + UInt32.ofNat n).toNat) ++
          addrsOf l = _
        rw [hsplit, List.append_assoc, List.drop_left' hlen, hstart, Nat.sub_add_eq]
      · rw [List.map_cons, separated_cons]
        refine ⟨?_, hafter, hsep'⟩
        show (s + UInt32.ofNat n).toNat < e.toNat + 1
        omega

/-- **What `take` does**: it takes the first `n` free addresses, if there are so many. -/
theorem take_spec {pool : AddressPool} (h : pool.Wf) (hcounted : ∀ i ∈ pool.intervals, Counted i)
    (n : ℕ) :
    (n ≤ (addrsOf pool.intervals).length ∧
      ∃ pool', pool.take n = (pool', some ((addrsOf pool.intervals).take n)) ∧
        pool.Becomes pool' fun x ↦ pool.IsFree x ∧ x ∉ (addrsOf pool.intervals).take n) ∨
    ((addrsOf pool.intervals).length < n ∧ pool.take n = (pool, none)) := by
  have hiff := countAvailable_lt_iff hcounted n 0
  rw [Nat.zero_add] at hiff
  unfold take
  split_ifs with hfew
  · exact Or.inr ⟨hiff.1 hfew, rfl⟩
  · have hn : n ≤ (addrsOf pool.intervals).length := Nat.not_lt.1 fun hlt ↦ hfew (hiff.2 hlt)
    obtain ⟨htake, hdrop, hsep⟩ := consume_spec hcounted h.separated hn
    refine Or.inl ⟨hn, { pool with intervals := (consume n pool.intervals).2 },
      congrArg (Prod.mk _) (congrArg some htake), becomes_of_cov hsep (fun x ↦ ?_) fun x hx ↦ ?_⟩
    · -- what is left free is what was not taken, since no address is listed twice
      have hfree : IsFree { pool with intervals := (consume n pool.intervals).2 } x ↔
          0 < cov ((consume n pool.intervals).2.map iv) x.toNat := isFree_iff_cov
      rw [← hfree, ← mem_addrsOf_iff, hdrop, ← mem_addrsOf_iff]
      have hnodup : ((addrsOf pool.intervals).take n ++ (addrsOf pool.intervals).drop n).Nodup := by
        rw [List.take_append_drop]
        exact h.pairwise_addrsOf.imp fun hlt ↦ UInt32.ne_of_lt hlt
      have hapart := (List.nodup_append.1 hnodup).2.2
      constructor
      · intro hx
        exact ⟨List.mem_of_mem_drop hx, fun hx' ↦ hapart x hx' x hx rfl⟩
      · rintro ⟨hx, hnot⟩
        rw [← List.take_append_drop n (addrsOf pool.intervals), List.mem_append] at hx
        exact hx.resolve_left hnot
    · exact h.inBounds_of_isFree hx.1

/-! ### The set of free addresses -/

/-- The calls on a pool. -/
inductive Call
  | take (n : ℕ)
  | reserve (addr : Ipv4Addr)
  | release (ip : Ipv4Addr)

/-- What the calls return. -/
inductive Return
  | addrs (r : Option (List Ipv4Addr))
  | addr (r : Option Ipv4Addr)
  | unit

/-- One call; `none` is a failed assertion. -/
def call (pool : AddressPool) : Call → Option (AddressPool × Return)
  | .take n => some ((pool.take n).1, .addrs (pool.take n).2)
  | .reserve addr => some ((pool.reserve addr).1, .addr (pool.reserve addr).2)
  | .release ip => (pool.release ip).map fun pool' ↦ (pool', .unit)

/-- One call with its checks; `none` is a failed assertion or check. -/
def callChecked (pool : AddressPool) : Call → Option (AddressPool × Return)
  | .take n => (pool.takeChecked n).map fun p ↦ (p.1, .addrs p.2)
  | .reserve addr => (pool.reserveChecked addr).map fun p ↦ (p.1, .addr p.2)
  | .release ip => (pool.releaseChecked ip).map fun pool' ↦ (pool', .unit)

/-- The pool, one call at a time. -/
def callSystem : TransitionSystem AddressPool (Call × Return) := .ofCalls call

/-- An address that is released is in bounds and not free. -/
def Permitted (pool : AddressPool) : Call → Prop
  | .release ip => pool.InBounds ip ∧ ¬pool.IsFree ip
  | .take _ | .reserve _ => True

instance (pool : AddressPool) (c : Call) : Decidable (pool.Permitted c) :=
  match c with
  | .release ip =>
    inferInstanceAs (Decidable ((pool.start ≤ ip ∧ ip ≤ pool.end_) ∧ ¬pool.IsFree ip))
  | .take _ | .reserve _ => isTrue trivial

/-- **The operations on a set.** The elements are listed in ascending order where their order
matters. -/
inductive SetStep (F : Set Ipv4Addr) : Call × Return → Set Ipv4Addr → Prop
  | take {n : ℕ} {l : List Ipv4Addr} (hsorted : l.Pairwise (· < ·)) (hmem : ∀ x, x ∈ l ↔ x ∈ F)
      (hn : n ≤ l.length) : SetStep F (.take n, .addrs (some (l.take n))) {x ∈ F | x ∉ l.take n}
  | takeNone {n : ℕ} {l : List Ipv4Addr} (hsorted : l.Pairwise (· < ·)) (hmem : ∀ x, x ∈ l ↔ x ∈ F)
      (hn : l.length < n) : SetStep F (.take n, .addrs none) F
  | reserve {a : Ipv4Addr} (ha : a ∈ F) : SetStep F (.reserve a, .addr (some a)) (F \ {a})
  | reserveNone {a : Ipv4Addr} (ha : a ∉ F) : SetStep F (.reserve a, .addr none) F
  | release {a : Ipv4Addr} : SetStep F (.release a, .unit) (insert a F)

/-- A set of addresses, one operation at a time. -/
def setSystem : TransitionSystem (Set Ipv4Addr) (Call × Return) := ⟨SetStep⟩

/-- The free addresses. -/
def free (pool : AddressPool) : Set Ipv4Addr := {x | pool.IsFree x}

/-- A well-formed pool from `start` to `end_`. -/
structure WfIn (start end_ : Ipv4Addr) (pool : AddressPool) : Prop where
  wf : pool.Wf
  start_eq : pool.start = start
  end_eq : pool.end_ = end_

variable {start end_ : Ipv4Addr}

theorem WfIn.of_becomes {pool pool' : AddressPool} (h : WfIn start end_ pool)
    {F : Ipv4Addr → Prop} (hbecomes : pool.Becomes pool' F) :
    WfIn start end_ pool' ∧ pool'.free = {x | F x} :=
  ⟨⟨hbecomes.wf, hbecomes.start_eq.trans h.start_eq, hbecomes.end_eq.trans h.end_eq⟩,
    Set.ext hbecomes.isFree_iff⟩

/-- **The free addresses determine the pool.** -/
theorem WfIn.eq_of_free_eq {pool pool' : AddressPool} (h : WfIn start end_ pool)
    (h' : WfIn start end_ pool') (heq : pool'.free = pool.free) : pool' = pool := by
  have hiv : Function.Injective iv := by
    rintro ⟨a, b⟩ ⟨c, d⟩ hij
    obtain ⟨hac, hbd⟩ := Prod.mk.inj hij
    exact Prod.ext (UInt32.toNat.inj hac) (UInt32.toNat.inj (Nat.succ.inj hbd))
  -- a point beyond the addresses is in neither list
  have hpos : ∀ x, 0 < cov (pool'.intervals.map iv) x ↔ 0 < cov (pool.intervals.map iv) x := by
    intro x
    by_cases hx : x < 2 ^ 32
    · have hmem : UInt32.ofNat x ∈ pool'.free ↔ UInt32.ofNat x ∈ pool.free := by rw [heq]
      have hfree := isFree_iff_cov.symm.trans (hmem.trans isFree_iff_cov)
      rwa [UInt32.toNat_ofNat_of_lt' hx] at hfree
    · have hnone : ∀ l : List (Ipv4Addr × Ipv4Addr), ¬0 < cov (l.map iv) x := by
        intro l hcov
        obtain ⟨j, hj, -, hlt⟩ := cov_pos_iff.1 hcov
        obtain ⟨i, -, rfl⟩ := List.mem_map.1 hj
        have hi := i.2.toNat_lt
        have hlt' : x < i.2.toNat + 1 := hlt
        omega
      exact iff_of_false (hnone _) (hnone _)
  have hcov : ∀ x, cov (pool'.intervals.map iv) x = cov (pool.intervals.map iv) x := by
    intro x
    have h₁ := h'.wf.separated.cov_le_one x
    have h₂ := h.wf.separated.cov_le_one x
    have h₃ := hpos x
    omega
  have hmap := eq_of_cov_eq h'.wf.separated h.wf.separated hcov
  have hlist : pool'.intervals = pool.intervals := List.map_injective_iff.2 hiv hmap
  rcases pool with ⟨s, e, l⟩
  rcases pool' with ⟨s', e', l'⟩
  obtain rfl : s' = s := h'.start_eq.trans h.start_eq.symm
  obtain rfl : e' = e := h'.end_eq.trans h.end_eq.symm
  obtain rfl : l' = l := hlist
  rfl

/-- In a pool that is not over all addresses, no range is that of all addresses. -/
theorem WfIn.counted {pool : AddressPool} (h : WfIn start end_ pool)
    (hpart : ¬(start = 0 ∧ end_.toNat + 1 = 2 ^ 32)) : ∀ i ∈ pool.intervals, Counted i := by
  intro i hi
  obtain ⟨hs, hle, he⟩ := h.wf.bounded i hi
  refine ⟨hle, ?_⟩
  rintro ⟨hzero, htop⟩
  rw [h.start_eq, hzero, UInt32.le_iff_toNat_le] at hs
  rw [h.end_eq, UInt32.le_iff_toNat_le] at he
  have hlt := end_.toNat_lt
  exact hpart ⟨UInt32.toNat.inj (Nat.le_zero.1 hs), by omega⟩

/-- **One call** does what the operation on the set does, and fails no check. -/
theorem WfIn.call {pool : AddressPool} (h : WfIn start end_ pool)
    (hpart : ¬(start = 0 ∧ end_.toNat + 1 = 2 ^ 32)) {c : Call} (hc : pool.Permitted c) :
    ∃ pool' r, pool.call c = some (pool', r) ∧ pool.callChecked c = some (pool', r) ∧
      WfIn start end_ pool' ∧ SetStep pool.free (c, r) pool'.free := by
  cases c with
  | take n =>
    have hcounted := h.counted hpart
    refine ⟨_, _, rfl, by rw [callChecked, takeChecked_eq hcounted]; rfl, ?_⟩
    rcases take_spec h.wf hcounted n with ⟨hn, pool', htake, hbecomes⟩ | ⟨hn, htake⟩
    · obtain ⟨hwf, hfree⟩ := h.of_becomes hbecomes
      rw [htake, hfree]
      exact ⟨hwf, .take h.wf.pairwise_addrsOf (fun _ ↦ mem_addrsOf_iff) hn⟩
    · rw [htake]
      exact ⟨h, .takeNone h.wf.pairwise_addrsOf (fun _ ↦ mem_addrsOf_iff) hn⟩
  | reserve a =>
    refine ⟨_, _, rfl, by rw [callChecked, reserveChecked_eq]; rfl, ?_⟩
    obtain ⟨hwf, hfree⟩ := h.of_becomes (becomes_reserve h.wf a)
    rcases reserve_cases h.wf a with ⟨hno, heq⟩ | ⟨l₁, s, e, l₂, hl, hs, he, heq⟩
    · rw [heq]
      exact ⟨h, .reserveNone hno⟩
    · have ha : a ∈ pool.free := ⟨(s, e), by rw [hl]; simp, hs, he⟩
      refine ⟨hwf, ?_⟩
      rw [hfree, heq]
      exact .reserve ha
  | release a =>
    obtain ⟨pool', hrelease, hbecomes⟩ := exists_becomes_release h.wf hc.1 hc.2
    obtain ⟨hwf, hfree⟩ := h.of_becomes hbecomes
    refine ⟨pool', .unit, by rw [AddressPool.call, hrelease]; rfl, ?_, hwf, ?_⟩
    · rw [callChecked, releaseChecked_eq h.wf hc.2, hrelease]
      rfl
    · have hinsert : pool'.free = insert a pool.free := by
        rw [hfree]
        ext x
        exact or_comm
      rw [hinsert]
      exact .release

/-- **A run of the pool is a run of the set.** -/
theorem refines_run (hpart : ¬(start = 0 ∧ end_.toNat + 1 = 2 ^ 32)) {pool₀ pool : AddressPool}
    (h₀ : WfIn start end_ pool₀) {tr : List (Call × Return)}
    (hrun : (callSystem.restrict fun pool a ↦ pool.Permitted a.1).Run pool₀ tr pool) :
    WfIn start end_ pool ∧ setSystem.Run pool₀.free tr pool.free := by
  refine hrun.history (I := fun tr pool ↦ WfIn start end_ pool ∧
    setSystem.Run pool₀.free tr pool.free) ⟨h₀, .nil⟩ ?_
  rintro tr pool ⟨c, r⟩ pool' ⟨hwf, hset⟩ ⟨hc, hcall⟩
  obtain ⟨pool'', r', hcall', -, hwf', hstep⟩ := hwf.call hpart hc
  obtain ⟨rfl, rfl⟩ := Prod.mk.inj (Option.some.inj (hcall.symm.trans hcall'))
  exact ⟨hwf', hset.snoc hstep⟩

/-- **The pool implements a set of addresses.** In every run of calls on a new pool, other than one
over all addresses, in which no address is released that is free or out of bounds:

* the ranges are sorted, nonempty, within bounds, disjoint and not adjacent;
* they are the only such ranges with these free addresses;
* the calls have returned what the operations on the set return, and left what they leave;
* and so will any next call, without a failed assertion, index or `u32` operation. -/
theorem implements_set {pool₀ pool : AddressPool} (hnew : new start end_ = some pool₀)
    (hpart : ¬(start = 0 ∧ end_ = 0xffffffff)) {tr : List (Call × Return)}
    (hrun : (callSystem.restrict fun pool a ↦ pool.Permitted a.1).Run pool₀ tr pool) :
    WfIn start end_ pool ∧
    (∀ pool', WfIn start end_ pool' → pool'.free = pool.free → pool' = pool) ∧
    setSystem.Run {x | start ≤ x ∧ x ≤ end_} tr pool.free ∧
    ∀ c, pool.Permitted c → ∃ pool' r, pool.call c = some (pool', r) ∧
      pool.callChecked c = some (pool', r) ∧ WfIn start end_ pool' ∧
      SetStep pool.free (c, r) pool'.free := by
  have hpart' : ¬(start = 0 ∧ end_.toNat + 1 = 2 ^ 32) := by
    rintro ⟨hzero, htop⟩
    exact hpart ⟨hzero, UInt32.toNat.inj (Nat.succ.inj htop)⟩
  obtain ⟨hwf₀, hs, he⟩ := wf_new hnew
  have h₀ : WfIn start end_ pool₀ := ⟨hwf₀, hs, he⟩
  obtain ⟨hwf, hset⟩ := refines_run hpart' h₀ hrun
  have hfree₀ : pool₀.free = {x | start ≤ x ∧ x ≤ end_} := by
    unfold new at hnew
    split_ifs at hnew
    obtain rfl := Option.some.inj hnew
    ext x
    simp [free, IsFree]
  rw [hfree₀] at hset
  exact ⟨hwf, fun pool' hwf' ↦ hwf.eq_of_free_eq hwf', hset, fun c hc ↦ hwf.call hpart' hc⟩

/-- The last two addresses there are: both are taken, the last one comes back, and a third one could
not be had. -/
theorem implements_set_last_two :
    ∃ pool₀, new 0xfffffffe 0xffffffff = some pool₀ ∧
      ∃ tr pool, (callSystem.restrict fun pool a ↦ pool.Permitted a.1).Run pool₀ tr pool ∧
        tr.length = 3 ∧ pool.intervals = [(0xffffffff, 0xffffffff)] ∧
        setSystem.Run {x | 0xfffffffe ≤ x ∧ x ≤ 0xffffffff} tr pool.free ∧
        ∃ pool' r, pool.callChecked (.take 2) = some (pool', r) ∧
          SetStep pool.free (.take 2, r) pool'.free := by
  have hnew : new 0xfffffffe 0xffffffff =
      some ⟨0xfffffffe, 0xffffffff, [(0xfffffffe, 0xffffffff)]⟩ := rfl
  refine ⟨_, hnew, ?_⟩
  have hcalls : (calls (fun pool c ↦ if pool.Permitted c then call pool c else none)
      ⟨0xfffffffe, 0xffffffff, [(0xfffffffe, 0xffffffff)]⟩
      [.take 2, .release 0xffffffff, .take 2]).map (fun r ↦ (r.1.length, r.2.intervals)) =
      some (3, [(0xffffffff, 0xffffffff)]) := by decide +kernel
  obtain ⟨⟨tr, pool⟩, hsome, hend⟩ := Option.map_eq_some_iff.1 hcalls
  obtain ⟨hlen, hlist⟩ := Prod.mk.inj hend
  have hrun := run_restrict_of_calls hsome
  obtain ⟨-, -, hset, hnext⟩ := implements_set hnew (by decide) hrun
  obtain ⟨pool', r, -, hchecked, -, hstep⟩ := hnext (.take 2) trivial
  exact ⟨tr, pool, hrun, hlen, hlist, hset, pool', r, hchecked, hstep⟩

end AddressPool

end UserspaceRouter
