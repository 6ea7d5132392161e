import UserspaceRouter.Foundations.TransitionSystem
import UserspaceRouter.Mem.FreeBlocks

/-!
# The allocator and its clients

A heap is the allocator together with the blocks it has handed out. Its clients allocate, free
blocks that they hold, with the layout they were allocated with, and write to the bytes of their
blocks as they like; `Heap.step` is one such call and `Heap.system` any sequence of them.

The invariant `Heap.Inv` counts: every byte of the region is covered exactly once by the free blocks
in memory and the live blocks together. Taking a block moves its cover from the one side to the
other and giving it back moves it back, so a step keeps the invariant (`Inv.exists_step`); writes of
the clients do not touch the nodes of the free list, which lie in free blocks. That the calls
return, that nothing overlaps and that nothing is lost is read off the invariant (`Inv.sound`).
-/

namespace UserspaceRouter

open ByteMemory Intervals TransitionSystem FreeList

/-- A block in use. -/
structure Block where
  ptr : UInt64
  layout : Layout
  deriving DecidableEq

namespace Block

/-- The size of the block. -/
def size (b : Block) : ℕ := (blockSizeFor b.layout).toNat

/-- The offsets of the block in a region that starts at `base`. -/
def interval (base : UInt64) (b : Block) : Interval :=
  ((b.ptr - base).toNat, (b.ptr - base).toNat + b.size)

/-- The address is one of the bytes of the block. -/
def Covers (b : Block) (addr : UInt64) : Prop := (addr - b.ptr).toNat < b.size

instance (b : Block) (addr : UInt64) : Decidable (b.Covers addr) :=
  inferInstanceAs (Decidable (_ < _))

end Block

/-- The allocator, and the blocks in use. -/
structure Heap where
  list : FreeList
  live : List Block

/-- What the clients do. -/
inductive HeapCall
  | alloc (layout : Layout)
  | dealloc (b : Block)
  | write (addr : UInt64) (v : UInt8)

namespace Heap

/-- The contract of the calls: only blocks in use are freed or written to. -/
def Allowed (s : Heap) : HeapCall → Prop
  | .alloc _ => True
  | .dealloc b => b ∈ s.live
  | .write addr _ => ∃ b ∈ s.live, b.Covers addr

instance (s : Heap) (c : HeapCall) : Decidable (s.Allowed c) :=
  match c with
  | .alloc _ => inferInstanceAs (Decidable True)
  | .dealloc b => inferInstanceAs (Decidable (b ∈ s.live))
  | .write addr _ => inferInstanceAs (Decidable (∃ b ∈ s.live, b.Covers addr))

/-- A call, and the pointer that `alloc` returns. -/
def call (s : Heap) : HeapCall → Option (Heap × Option UInt64)
  | .alloc layout => (s.list.alloc layout).map fun (list, ptr) ↦
      (⟨list, if ptr = 0 then s.live else ⟨ptr, layout⟩ :: s.live⟩, some ptr)
  | .dealloc b => (s.list.dealloc b.ptr b.layout).map fun list ↦ (⟨list, s.live.erase b⟩, none)
  | .write addr v => some (⟨s.list.poke addr v, s.live⟩, none)

/-- One call within the contract. -/
def step (s : Heap) (c : HeapCall) : Option (Heap × Option UInt64) :=
  if s.Allowed c then s.call c else none

/-- Any sequence of calls. -/
def system : TransitionSystem Heap (HeapCall × Option UInt64) := .ofCalls step

/-! ### The invariant -/

/-- The blocks in use, as offsets. -/
def intervals (s : Heap) : List Interval := s.live.map (Block.interval s.list.base)

/-- **The invariant.** The list in memory is `l`, and every byte of the region is covered once. -/
structure Inv (s : Heap) (l : List Interval) : Prop where
  region : s.list.Region
  blocks : Blocks s.list.size.toNat l
  seg : s.list.Seg s.list.head l nil
  aligned : ∀ b ∈ s.live, (max b.layout.align align).toNat ∣ b.ptr.toNat
  cov_eq : ∀ x, cov s.intervals x + cov l x = ind 0 s.list.size.toNat x
  total_eq : total s.intervals + total l = s.list.size.toNat

theorem inv_new {mem : Memory} {base size : UInt64} (hv : ValidRegion base size) {h : FreeList}
    (hnew : new mem base size = some h) : (⟨h, []⟩ : Heap).Inv [(0, h.size.toNat)] := by
  obtain ⟨hr, -, hlarge, hhead, hentry⟩ := new_spec hv hnew
  refine ⟨hr, ⟨separated_singleton (by omega), ?_, ?_, ?_, ?_⟩, ?_, by simp, fun x ↦ ?_, ?_⟩
  · simpa using hr.size_dvd
  · simpa using hlarge
  · simp
  · simp
  · rw [hhead]
    refine ⟨rfl, ?_, ?_⟩
    · rw [entrySize, hentry]
      exact Nat.zero_add _
    · rw [entryNext, hentry]
      rfl
  · simp [intervals]
  · simp [intervals]

section Step

variable {s : Heap} {l : List Interval}

/-- A block in use lies in the region. -/
theorem Inv.interval_le (h : s.Inv l) {b : Block} (hb : b ∈ s.live) :
    (b.interval s.list.base).2 ≤ s.list.size.toNat := by
  obtain ⟨-, hlarge, -⟩ := blockSizeFor_spec b.layout
  have hmem : b.interval s.list.base ∈ s.intervals := List.mem_map_of_mem hb
  -- its last byte is covered
  have hle := le_cov_of_mem hmem ((b.interval s.list.base).2 - 1)
  have hcov := h.cov_eq ((b.interval s.list.base).2 - 1)
  have hlt : (b.interval s.list.base).1 + 16 ≤ (b.interval s.list.base).2 :=
    Nat.add_le_add_left hlarge _
  rw [ind_of_mem ⟨by omega, by omega⟩] at hle
  by_contra hgt
  rw [ind_of_notMem (by omega)] at hcov
  omega

/-- A block in use shares no byte with a free one. -/
theorem Inv.cov_add_le (h : s.Inv l) {b : Block} (hb : b ∈ s.live) (x : ℕ) :
    cov l x + ind (b.interval s.list.base).1 (b.interval s.list.base).2 x ≤ 1 := by
  have hmem : b.interval s.list.base ∈ s.intervals := List.mem_map_of_mem hb
  have hle := le_cov_of_mem hmem x
  have hcov := h.cov_eq x
  have hone : ind 0 s.list.size.toNat x ≤ 1 := by
    unfold ind
    split_ifs <;> omega
  omega

/-- **Allocation** returns, and keeps the invariant. -/
theorem Inv.exists_alloc (h : s.Inv l) (layout : Layout) :
    ∃ list ptr l', s.list.alloc layout = some (list, ptr) ∧
      list.base = s.list.base ∧ list.size = s.list.size ∧
      (⟨list, if ptr = 0 then s.live else ⟨ptr, layout⟩ :: s.live⟩ : Heap).Inv l' := by
  rcases alloc_cases h.region h.blocks h.seg layout with hnull |
    ⟨list, aligned, l', halloc, htakes, halign, hseg, hbase, hsize⟩
  · exact ⟨s.list, 0, l, hnull, rfl, rfl, by rw [if_pos rfl]; exact h⟩
  · obtain ⟨hdvd, hlarge, -⟩ := blockSizeFor_spec layout
    have hr := h.region
    have hle := htakes.le h.blocks
    have h8 : 8 ∣ aligned.toNat :=
      (Nat.dvd_add_right hr.base_dvd).1 (Nat.dvd_trans (eight_dvd_max_align layout) halign)
    obtain ⟨hptr, hne⟩ := hr.toNat_address (by omega : aligned.toNat < s.list.size.toNat)
    have hoff : (s.list.base + aligned - s.list.base).toNat = aligned.toNat := by
      rw [UInt64.add_comm, UInt64.add_sub_cancel]
    have hinterval : (⟨s.list.base + aligned, layout⟩ : Block).interval s.list.base =
        (aligned.toNat, aligned.toNat + (blockSizeFor layout).toNat) := by
      rw [Block.interval, hoff]
      rfl
    refine ⟨list, s.list.base + aligned, l', halloc, hbase, hsize, ?_⟩
    rw [if_neg hne]
    refine ⟨hr.of_eq hbase hsize, ?_, hseg, ?_, fun x ↦ ?_, ?_⟩
    · rw [hsize]
      exact htakes.blocks h.blocks h8 hdvd hlarge
    · rw [List.forall_mem_cons, hptr]
      exact ⟨halign, h.aligned⟩
    · have hcov := h.cov_eq x
      have htake := htakes.cov_add x
      rw [intervals, List.map_cons, hbase, hsize, hinterval, cov_cons, ← hcov, ← htake, intervals]
      dsimp only
      omega
    · have htotal := h.total_eq
      have htake := htakes.total_add
      rw [intervals, List.map_cons, hbase, hsize, hinterval, total_cons, ← htotal, ← htake,
        intervals]
      dsimp only
      omega

/-- **Freeing a block in use** returns, and keeps the invariant. -/
theorem Inv.exists_dealloc (h : s.Inv l) {b : Block} (hb : b ∈ s.live) :
    ∃ list l', s.list.dealloc b.ptr b.layout = some list ∧
      list.base = s.list.base ∧ list.size = s.list.size ∧
      (⟨list, s.live.erase b⟩ : Heap).Inv l' := by
  obtain ⟨hdvd, hlarge, -⟩ := blockSizeFor_spec b.layout
  have hle := h.interval_le hb
  obtain ⟨list, l', hinsert, hgives, hseg, hbase, hsize⟩ :=
    exists_insertFree h.region h.blocks h.seg hlarge hle (h.cov_add_le hb)
  have hperm : (b.interval s.list.base :: (s.live.erase b).map (Block.interval s.list.base)).Perm
      s.intervals := ((List.perm_cons_erase hb).map _).symm
  have hlen : (b.interval s.list.base).2 - (b.interval s.list.base).1 =
      (blockSizeFor b.layout).toNat := Nat.add_sub_cancel_left ..
  have hlive := total_perm hperm
  rw [total_cons, hlen] at hlive
  have htotal := h.total_eq
  have h8 : 8 ∣ (b.ptr - s.list.base).toNat := by
    have hptr := Nat.dvd_trans (eight_dvd_max_align b.layout) (h.aligned b hb)
    have hbaseDvd := h.region.base_dvd
    have hptrLt := b.ptr.toNat_lt
    have hbaseLt := s.list.base.toNat_lt
    rw [UInt64.toNat_sub]
    omega
  refine ⟨list, l', hinsert, hbase, hsize, h.region.of_eq hbase hsize, ?_, hseg, ?_, fun x ↦ ?_, ?_⟩
  · rw [hsize]
    exact hgives.blocks h.blocks h8 hdvd hlarge hle (by omega)
  · exact fun c hc ↦ h.aligned c (List.mem_of_mem_erase hc)
  · have hgive : cov l' x =
        cov l x + ind (b.interval s.list.base).1 (b.interval s.list.base).2 x :=
      hgives.cov_eq h.blocks.sep x
    have hcov := h.cov_eq x
    have hlive' := cov_perm hperm x
    rw [cov_cons] at hlive'
    rw [intervals, hbase, hsize, hgive]
    dsimp only
    omega
  · have hgive := hgives.total_eq h.blocks.sep
    rw [intervals, hbase, hsize]
    dsimp only
    omega

/-- **Writing to a block in use** keeps the invariant. -/
theorem Inv.poke (h : s.Inv l) {addr : UInt64} {v : UInt8} {b : Block} (hb : b ∈ s.live)
    (haddr : b.Covers addr) : (⟨s.list.poke addr v, s.live⟩ : Heap).Inv l := by
  refine ⟨h.region.of_eq rfl rfl, h.blocks, h.seg.congr ?_, h.aligned, h.cov_eq, h.total_eq⟩
  rintro p ⟨i, hi, hp⟩
  have hlarge := h.blocks.large i hi
  have hin := h.blocks.le i hi
  have hlt := h.region.size_lt
  have hle : (b.ptr - s.list.base).toNat + b.size ≤ s.list.size.toNat := h.interval_le hb
  have hd : (addr - b.ptr).toNat < b.size := haddr
  -- the byte written, as an offset, is not in the free block
  set x := (b.ptr - s.list.base).toNat + (addr - b.ptr).toNat with hx
  have hout : x < i.1 ∨ i.2 ≤ x := by
    have hone := h.cov_add_le hb x
    have hcov := le_cov_of_mem hi x
    rw [ind_of_mem ⟨by show (b.ptr - s.list.base).toNat ≤ x; omega,
      by show x < (b.ptr - s.list.base).toNat + b.size; omega⟩] at hone
    by_contra hmem
    rw [ind_of_mem ⟨by omega, by omega⟩] at hcov
    omega
  refine entry_poke_of_le ?_
  have haddrLt := addr.toNat_lt
  have hptrLt := b.ptr.toNat_lt
  have hbaseLt := s.list.base.toNat_lt
  rw [UInt64.toNat_sub] at hx
  rw [UInt64.toNat_sub addr b.ptr] at hx
  rw [UInt64.toNat_sub, UInt64.toNat_add]
  omega

/-- **Every call returns, and keeps the invariant.** -/
theorem Inv.exists_step (h : s.Inv l) {c : HeapCall} (hc : s.Allowed c) :
    ∃ t o l', s.step c = some (t, o) ∧ t.list.base = s.list.base ∧ t.list.size = s.list.size ∧
      t.Inv l' := by
  rw [step, if_pos hc]
  cases c with
  | alloc layout =>
    obtain ⟨list, ptr, l', halloc, hbase, hsize, hinv⟩ := h.exists_alloc layout
    exact ⟨_, _, l', by rw [call, halloc]; rfl, hbase, hsize, hinv⟩
  | dealloc b =>
    obtain ⟨list, l', hdealloc, hbase, hsize, hinv⟩ := h.exists_dealloc hc
    exact ⟨_, _, l', by rw [call, hdealloc]; rfl, hbase, hsize, hinv⟩
  | write addr v =>
    obtain ⟨b, hb, haddr⟩ := hc
    exact ⟨_, _, l, rfl, rfl, rfl, h.poke hb haddr⟩

theorem allowed_of_step {c : HeapCall} {r : Heap × Option UInt64} (h : s.step c = some r) :
    s.Allowed c := by
  by_contra hc
  rw [step, if_neg hc] at h
  exact absurd h (by simp)

end Step

/-! ### Runs -/

/-- The invariant holds in every state of a run, in the region the run began with. -/
theorem inv_run {h : FreeList} {l₀ : List Interval} (h₀ : (⟨h, []⟩ : Heap).Inv l₀) {s : Heap}
    {tr : List (HeapCall × Option UInt64)} (hrun : system.Run ⟨h, []⟩ tr s) :
    s.list.base = h.base ∧ s.list.size = h.size ∧ ∃ l, s.Inv l := by
  refine hrun.invariant
    (I := fun s : Heap ↦ s.list.base = h.base ∧ s.list.size = h.size ∧ ∃ l, s.Inv l)
    ⟨rfl, rfl, l₀, h₀⟩ ?_
  rintro s ⟨c, o⟩ t ⟨hbase, hsize, l, hl⟩ hst
  obtain ⟨t', o', l', hst', hbase', hsize', hl'⟩ := hl.exists_step (allowed_of_step hst)
  obtain ⟨rfl, -⟩ := Prod.mk.inj (Option.some.inj (hst.symm.trans hst'))
  exact ⟨hbase'.trans hbase, hsize'.trans hsize, l', hl'⟩

/-- Nothing in use, so everything free. -/
theorem Inv.eq_of_live_eq_nil {s : Heap} {l : List Interval} (h : s.Inv l) (hlive : s.live = [])
    (hpos : 0 < s.list.size.toNat) : l = [(0, s.list.size.toNat)] := by
  refine eq_of_cov_eq h.blocks.sep (separated_singleton hpos) fun x ↦ ?_
  have hcov := h.cov_eq x
  rw [intervals, hlive] at hcov
  simpa using hcov

/-- **Freeing everything**, in any order, restores the one block that there was at first. -/
theorem Inv.exists_free_all {s : Heap} {l : List Interval} (h : s.Inv l)
    (hpos : 0 < s.list.size.toNat) {order : List Block} (horder : order.Perm s.live) :
    ∃ tr t, calls step s (order.map .dealloc) = some (tr, t) ∧ t.live = [] ∧
      t.list.Seg t.list.head [(0, s.list.size.toNat)] nil := by
  induction order generalizing s l with
  | nil =>
    have hlive := horder.nil_eq.symm
    exact ⟨[], s, rfl, hlive, h.eq_of_live_eq_nil hlive hpos ▸ h.seg⟩
  | cons b order ih =>
    obtain ⟨hb, hrest⟩ := List.cons_perm_iff_perm_erase.1 horder
    obtain ⟨list, l', hdealloc, -, hsize, hinv⟩ := h.exists_dealloc hb
    obtain ⟨tr, t, hcalls, hlive, hseg⟩ := ih hinv (by rw [hsize]; exact hpos) hrest
    refine ⟨(.dealloc b, none) :: tr, t, ?_, hlive, by rw [← hsize]; exact hseg⟩
    have hstep : s.step (.dealloc b) = some (⟨list, s.live.erase b⟩, none) := by
      have hallowed : s.Allowed (.dealloc b) := hb
      rw [step, if_pos hallowed, call, hdealloc]
      rfl
    rw [List.map_cons, calls, hstep, Option.bind_some, hcalls]
    rfl

/-- What is expected of a heap, where `l` is the list of the free blocks in memory. -/
structure Sound (s : Heap) (l : List Interval) : Prop where
  /-- The nodes in memory describe `l`, and it ends. -/
  seg : s.list.Seg s.list.head l nil
  ascending : l.Pairwise fun i j ↦ i.1 < j.1
  notAdjacent : l.Pairwise fun i j ↦ i.2 ≠ j.1 ∧ j.2 ≠ i.1
  size_dvd : ∀ i ∈ l, 8 ∣ i.2 - i.1
  le_size : ∀ i ∈ l, 16 ≤ i.2 - i.1
  aligned : ∀ b ∈ s.live, b.layout.align.toNat ∣ b.ptr.toNat
  disjoint : (s.intervals ++ l).Pairwise
    fun i j ↦ ∀ x, ¬((i.1 ≤ x ∧ x < i.2) ∧ (j.1 ≤ x ∧ x < j.2))
  cover : ∀ x, x < s.list.size.toNat ↔ ∃ i ∈ s.intervals ++ l, i.1 ≤ x ∧ x < i.2
  freeBytes : ∃ r, s.list.freeBytes = some r ∧
    r.toNat + (s.live.map Block.size).sum = s.list.size.toNat
  /-- Every call within the contract returns. -/
  returns : ∀ c, s.Allowed c → ∃ r, s.step c = some r
  restored : ∀ order : List Block, order.Perm s.live →
    ∃ tr t, calls step s (order.map .dealloc) = some (tr, t) ∧ t.live = [] ∧
      t.list.Seg t.list.head [(0, s.list.size.toNat)] nil

theorem total_intervals (s : Heap) : total s.intervals = (s.live.map Block.size).sum := by
  rw [intervals]
  induction s.live with
  | nil => rfl
  | cons b bs ih =>
    rw [List.map_cons, List.map_cons, total_cons, List.sum_cons, ih, Block.interval,
      Nat.add_sub_cancel_left]

/-- The invariant has all that is expected. -/
theorem Inv.sound {s : Heap} {l : List Interval} (h : s.Inv l) (hpos : 0 < s.list.size.toNat) :
    s.Sound l := by
  have hcov : ∀ x, cov (s.intervals ++ l) x = ind 0 s.list.size.toNat x := fun x ↦ by
    rw [cov_append, h.cov_eq]
  obtain ⟨hne, hsep⟩ := h.blocks.sep
  refine ⟨h.seg, ?_, ?_, ?_, ?_, ?_, ?_, fun x ↦ ?_, ?_, ?_, fun order ↦ h.exists_free_all hpos⟩
  · refine hsep.imp_of_mem fun {i j} hi _ hlt ↦ ?_
    have := hne i hi
    omega
  · refine hsep.imp_of_mem fun {i j} hi hj hlt ↦ ?_
    have := hne i hi
    have := hne j hj
    omega
  · exact fun i hi ↦ Nat.dvd_sub (h.blocks.dvd i hi).2 (h.blocks.dvd i hi).1
  · intro i hi
    have := h.blocks.large i hi
    omega
  · exact fun b hb ↦ Nat.dvd_trans (align_dvd_max b.layout) (h.aligned b hb)
  · refine pairwise_of_cov_le_one fun x ↦ ?_
    rw [hcov, ind]
    split_ifs <;> omega
  · rw [← cov_pos_iff, hcov, ind]
    split_ifs <;> omega
  · obtain ⟨r, hfree, hr⟩ := exists_freeBytes h.region h.blocks h.seg
    refine ⟨r, hfree, ?_⟩
    rw [hr, ← total_intervals, Nat.add_comm]
    exact h.total_eq
  · intro c hc
    obtain ⟨t, o, -, hst, -⟩ := h.exists_step hc
    exact ⟨(t, o), hst⟩

/-- **The allocator is sound**, in every run over a region that `new` accepts: what it manages stays
the part of the region it began with, and it is as expected. -/
theorem sound_of_run {mem : Memory} {base size : UInt64} (hv : ValidRegion base size)
    {h : FreeList} (hnew : new mem base size = some h) {tr : List (HeapCall × Option UInt64)}
    {s : Heap} (hrun : system.Run ⟨h, []⟩ tr s) :
    (base.toNat ≤ s.list.base.toNat ∧
      s.list.base.toNat + s.list.size.toNat ≤ base.toNat + size.toNat) ∧
    s.list.base = h.base ∧ s.list.size = h.size ∧ ∃ l, s.Sound l := by
  obtain ⟨hbase, hsize, l, hl⟩ := inv_run (inv_new hv hnew) hrun
  obtain ⟨-, hin, hlarge, -, -⟩ := new_spec hv hnew
  refine ⟨?_, hbase, hsize, l, hl.sound (by rw [hsize]; omega)⟩
  rw [hbase, hsize]
  exact hin

/-- Two blocks are allocated, the second at a multiple of 64 with a hole in front of it; the first
is written to and freed. -/
theorem sound_two_blocks :
    ∃ h, new (fun _ ↦ 0) 0x1003 100 = some h ∧ ∃ tr s, system.Run ⟨h, []⟩ tr s ∧
      s.live.map Block.ptr = [0x1040] ∧ s.list.freeBytes = some 72 ∧ ∃ l, s.Sound l := by
  have hcalls : ((new (fun _ ↦ 0) 0x1003 100).bind fun h ↦ (calls step ⟨h, []⟩
      [.alloc ⟨20, 8, ⟨3, by decide, rfl⟩, by decide⟩,
        .alloc ⟨16, 64, ⟨6, by decide, rfl⟩, by decide⟩,
        .write 0x1010 0xff,
        .dealloc ⟨0x1008, ⟨20, 8, ⟨3, by decide, rfl⟩, by decide⟩⟩]).map fun r ↦
      (r.2.live.map Block.ptr, r.2.list.freeBytes)) = some ([0x1040], some 72) := by decide +kernel
  obtain ⟨h, hnew, hmap⟩ := Option.bind_eq_some_iff.1 hcalls
  obtain ⟨⟨tr, s⟩, hsome, hend⟩ := Option.map_eq_some_iff.1 hmap
  obtain ⟨hlive, hfree⟩ := Prod.mk.inj hend
  have hrun := run_of_calls hsome
  obtain ⟨-, -, -, hsound⟩ :=
    sound_of_run ⟨by decide, by decide, by decide, by decide⟩ hnew hrun
  exact ⟨h, hnew, tr, s, hrun, hlive, hfree, hsound⟩

end Heap

end UserspaceRouter
