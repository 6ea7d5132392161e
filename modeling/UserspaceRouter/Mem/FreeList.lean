import Mathlib.Order.Bounds.Defs
import UserspaceRouter.Foundations.ByteMemory

/-!
# The free-list allocator

`FreeList` carves blocks out of one region. Its free blocks form a list in ascending order, and the
list is kept in the free blocks themselves: the first sixteen bytes of each are an `Entry`, its size
and the offset of the next one. So the state of the allocator is the state of memory, and the model
passes the whole of memory along. Allocation is first fit and splits the hole it takes into up to
three parts; freeing merges a block with the neighbours it touches.

Offsets and sizes are 64-bit numbers and all arithmetic wraps, as in the source. A loop follows the
list for as many rounds as there can be blocks in the region, and fails if it has not come to the
end by then.

At the end of the module, the two computations that wrap-around could spoil are given their meaning:
the size of a block (`blockSizeFor_spec`), and where in a hole a request is placed
(`isLeast_place`).
-/

namespace UserspaceRouter

open ByteMemory

/-! ### The code -/

/-- The node in the first bytes of a free block. -/
structure Entry where
  size : UInt64
  next : UInt64

/-- A request. The alignment `2 ^ 63` is left out: only the size `0` goes with it, and a request of
size `0` breaks the contract of `GlobalAlloc::alloc`. -/
structure Layout where
  size : UInt64
  align : UInt64
  align_eq : ∃ k ≤ 62, align.toNat = 2 ^ k
  size_le : size.toNat + align.toNat ≤ 2 ^ 63
  deriving DecidableEq

/-- The allocator, and the memory its region lies in. -/
structure FreeList where
  base : UInt64
  size : UInt64
  /-- The offset of the first free block. -/
  head : UInt64
  mem : Memory

namespace FreeList

/-- `ALIGN`: the alignment of every block. -/
def align : UInt64 := 8

/-- `MIN_BLOCK`: the size of an entry. -/
def minBlock : UInt64 := 16

/-- `NIL`: no next block. -/
def nil : UInt64 := 0xffffffffffffffff

/-- The size of the block for `size` bytes. -/
def blockSize (size : UInt64) : UInt64 := alignUp (max size minBlock) align

/-- The size a request occupies. -/
def blockSizeFor (layout : Layout) : UInt64 := blockSize layout.size

section Accessors

variable (h : FreeList) (off : UInt64)

/-- The node at `off`; an entry is two little-endian words. -/
def entry : Entry := ⟨read64 h.mem (h.base + off), read64 h.mem (h.base + off + 8)⟩

def entrySize : UInt64 := (h.entry off).size

def entryNext : UInt64 := (h.entry off).next

def setSize (size : UInt64) : FreeList := { h with mem := write64 h.mem (h.base + off) size }

def setNext (next : UInt64) : FreeList := { h with mem := write64 h.mem (h.base + off + 8) next }

def writeEntry (size next : UInt64) : FreeList := (h.setSize off size).setNext off next

end Accessors

/-- Take over the region of `size` bytes at `base`, as one free block. -/
def new (mem : Memory) (base size : UInt64) : Option FreeList :=
  let aligned := alignUp base align
  let pad := aligned - base
  let usable := (size - pad) &&& ~~~(align - 1)
  if minBlock ≤ usable then
    let list : FreeList := ⟨base + pad, usable, 0, mem⟩
    some (list.writeEntry 0 usable nil)
  else none

/-- As many free blocks as there can be. -/
def rounds (h : FreeList) : ℕ := h.size.toNat / 16 + 1

/-- Where in the hole at `cur` a request is placed: aligned as an absolute address, with no front
padding or enough of it for a block. -/
def place (h : FreeList) (align cur : UInt64) : UInt64 :=
  let aligned := alignUp (h.base + cur) align - h.base
  let front := aligned - cur
  if front ≠ 0 ∧ front < minBlock then alignUp (h.base + cur + minBlock) align - h.base
  else aligned

/-- The offset a request gets in the hole at `cur`, if the hole is large enough and nothing too
small for a block is left behind it. -/
def fit (h : FreeList) (align need cur : UInt64) : Option UInt64 :=
  let holeEnd := cur + h.entrySize cur
  let aligned := h.place align cur
  let allocEnd := aligned + need
  let back := holeEnd - allocEnd
  if allocEnd ≤ holeEnd ∧ (back = 0 ∨ minBlock ≤ back) then some aligned else none

/-- Let `off` follow `prev`, or come first. -/
def link (h : FreeList) (prev off : UInt64) : FreeList :=
  if prev = nil then { h with head := off } else h.setNext prev off

/-- Leave `size` bytes at `off` behind as a free block in front of `next`, if there are any. -/
def leave (h : FreeList) (off size next : UInt64) : FreeList × UInt64 :=
  if minBlock ≤ size then (h.writeEntry off size next, off) else (h, next)

/-- Replace the hole at `cur` by what is left of it behind and in front of the block taken. -/
def split (h : FreeList) (need prev cur aligned : UInt64) : FreeList :=
  let next := h.entryNext cur
  let holeEnd := cur + h.entrySize cur
  let allocEnd := aligned + need
  let (h, backOff) := h.leave allocEnd (holeEnd - allocEnd) next
  let (h, segHead) := h.leave cur (aligned - cur) backOff
  h.link prev segHead

/-- The loop of `alloc`. -/
def allocFrom (h : FreeList) (align need : UInt64) :
    ℕ → UInt64 → UInt64 → Option (FreeList × UInt64)
  | 0, _, _ => none
  | fuel + 1, prev, cur =>
    if cur = nil then some (h, 0)
    else
      match h.fit align need cur with
      | some aligned => some (h.split need prev cur aligned, h.base + aligned)
      | none => h.allocFrom align need fuel cur (h.entryNext cur)

/-- Allocate a block; the null pointer if no hole fits. -/
def alloc (h : FreeList) (layout : Layout) : Option (FreeList × UInt64) :=
  h.allocFrom (max layout.align align) (blockSizeFor layout) h.rounds nil h.head

/-- The loop of `insert_free`: the free blocks before and after `off`. -/
def gap (h : FreeList) (off : UInt64) : ℕ → UInt64 → UInt64 → Option (UInt64 × UInt64)
  | 0, _, _ => none
  | fuel + 1, prev, cur =>
    if cur ≠ nil ∧ cur < off then h.gap off fuel cur (h.entryNext cur) else some (prev, cur)

/-- The rest of `insert_free`: put a block between `prev` and `cur`, or merge it with them. -/
def insertAt (h : FreeList) (off size prev cur : UInt64) : FreeList :=
  if prev ≠ nil ∧ prev + h.entrySize prev = off then
    let h := h.setSize prev (h.entrySize prev + size)
    if cur ≠ nil ∧ prev + h.entrySize prev = cur then
      let h := h.setSize prev (h.entrySize prev + h.entrySize cur)
      h.setNext prev (h.entryNext cur)
    else h
  else
    let (newSize, newNext) :=
      if cur ≠ nil ∧ off + size = cur then (size + h.entrySize cur, h.entryNext cur)
      else (size, cur)
    (h.writeEntry off newSize newNext).link prev off

/-- Insert a free block into the list. -/
def insertFree (h : FreeList) (off size : UInt64) : Option FreeList :=
  (h.gap off h.rounds nil h.head).map fun p ↦ h.insertAt off size p.1 p.2

/-- Return a block to the list. -/
def dealloc (h : FreeList) (ptr : UInt64) (layout : Layout) : Option FreeList :=
  h.insertFree (ptr - h.base) (blockSizeFor layout)

/-- The loop of `free_bytes`. -/
def freeBytesFrom (h : FreeList) : ℕ → UInt64 → UInt64 → Option UInt64
  | 0, _, _ => none
  | fuel + 1, total, cur =>
    if cur = nil then some total
    else h.freeBytesFrom fuel (total + h.entrySize cur) (h.entryNext cur)

/-- The sum of the sizes of the free blocks. -/
def freeBytes (h : FreeList) : Option UInt64 := h.freeBytesFrom h.rounds 0 h.head

/-- The owner of a block writes to it. -/
def poke (h : FreeList) (addr : UInt64) (v : UInt8) : FreeList :=
  { h with mem := write8 h.mem addr v }

/-! ### Entries -/

section Entries

variable (h : FreeList) (off : UInt64) {off' size next : UInt64}

theorem apart_size_next (a : UInt64) : Apart 8 a (a + 8) := by
  have ha := a.toNat_lt
  have h8 : (8 : UInt64).toNat = 8 := rfl
  constructor <;> rw [UInt64.toNat_sub, UInt64.toNat_add, h8] <;> omega

/-- The words of nodes that are apart. -/
theorem apart_words {a b : UInt64} (hab : Apart 16 a b) (c : UInt64) :
    Apart 8 (c + a) (c + b) ∧ Apart 8 (c + a) (c + b + 8) ∧ Apart 8 (c + a + 8) (c + b) ∧
      Apart 8 (c + a + 8) (c + b + 8) := by
  have ha := a.toNat_lt
  have hb := b.toNat_lt
  have hc := c.toNat_lt
  have h8 : (8 : UInt64).toNat = 8 := rfl
  obtain ⟨h₁, h₂⟩ := hab
  rw [UInt64.toNat_sub] at h₁ h₂
  refine ⟨⟨?_, ?_⟩, ⟨?_, ?_⟩, ⟨?_, ?_⟩, ?_, ?_⟩ <;>
    simp only [UInt64.toNat_sub, UInt64.toNat_add, h8] <;> omega

theorem entry_setSize_self : (h.setSize off size).entry off = ⟨size, h.entryNext off⟩ := by
  rw [entry, Entry.mk.injEq]
  exact ⟨read64_write64_self .., read64_write64_of_apart (apart_size_next _)⟩

theorem entry_setNext_self : (h.setNext off next).entry off = ⟨h.entrySize off, next⟩ := by
  rw [entry, Entry.mk.injEq]
  exact ⟨read64_write64_of_apart (apart_size_next _).symm, read64_write64_self ..⟩

theorem entry_writeEntry_self : (h.writeEntry off size next).entry off = ⟨size, next⟩ := by
  rw [writeEntry, entry_setNext_self, entrySize, entry_setSize_self]

variable {h off}

theorem entry_setSize_of_apart (hne : Apart 16 off off') :
    (h.setSize off size).entry off' = h.entry off' := by
  obtain ⟨hss, hsn, -, -⟩ := apart_words hne h.base
  rw [entry, entry, Entry.mk.injEq]
  exact ⟨read64_write64_of_apart hss, read64_write64_of_apart hsn⟩

theorem entry_setNext_of_apart (hne : Apart 16 off off') :
    (h.setNext off next).entry off' = h.entry off' := by
  obtain ⟨-, -, hns, hnn⟩ := apart_words hne h.base
  rw [entry, entry, Entry.mk.injEq]
  exact ⟨read64_write64_of_apart hns, read64_write64_of_apart hnn⟩

theorem entry_writeEntry_of_apart (hne : Apart 16 off off') :
    (h.writeEntry off size next).entry off' = h.entry off' := by
  rw [writeEntry, entry_setNext_of_apart hne, entry_setSize_of_apart hne]

/-- A write outside the node leaves it as it is. -/
theorem entry_poke_of_le {addr : UInt64} {v : UInt8} (hle : 16 ≤ (addr - (h.base + off)).toNat) :
    (h.poke addr v).entry off = h.entry off := by
  rw [entry, entry, Entry.mk.injEq]
  refine ⟨read64_write8_of_le (Nat.le_trans (by omega) hle), read64_write8_of_le ?_⟩
  have haddr := addr.toNat_lt
  have hb := (h.base + off).toNat_lt
  have h8 : (8 : UInt64).toNat = 8 := rfl
  show 8 ≤ (addr - (h.base + off + 8)).toNat
  rw [UInt64.toNat_sub] at hle ⊢
  rw [UInt64.toNat_add (h.base + off), h8]
  omega

end Entries

/-! ### Sizes and places -/

theorem pos_of_eq_two_pow {x k : ℕ} (hx : x = 2 ^ k) : 0 < x := hx ▸ Nat.two_pow_pos k

theorem toNat_max (a b : UInt64) : (max a b).toNat = max a.toNat b.toNat := by
  show (if a ≤ b then b else a).toNat = _
  split_ifs with hle
  · exact (Nat.max_eq_right (UInt64.le_iff_toNat_le.1 hle)).symm
  · have hle' : ¬a.toNat ≤ b.toNat := fun h ↦ hle (UInt64.le_iff_toNat_le.2 h)
    exact (Nat.max_eq_left (by omega)).symm

theorem toNat_blockSize {size : UInt64} (hsize : size.toNat < 2 ^ 63) :
    (blockSize size).toNat = roundUp (max size.toNat 16) 8 := by
  have hmax : (max size minBlock).toNat = max size.toNat 16 := toNat_max _ _
  have hround : (blockSize size).toNat = roundUp (max size minBlock).toNat 8 % 2 ^ 64 :=
    toNat_alignUp _ (k := 3) (by omega) rfl
  have hlt := roundUp_lt (max size.toNat 16) (a := 8) (by omega)
  rw [hround, hmax]
  exact Nat.mod_eq_of_lt (by omega)

/-- **The size of a block.** It holds the request and an entry, and does not overflow even with the
padding that its alignment may need. -/
theorem blockSizeFor_spec (layout : Layout) :
    8 ∣ (blockSizeFor layout).toNat ∧ 16 ≤ (blockSizeFor layout).toNat ∧
      layout.size.toNat ≤ (blockSizeFor layout).toNat ∧
      (blockSizeFor layout).toNat + (max layout.align align).toNat ≤ 2 ^ 63 + 8 := by
  have hmax : (max layout.align align).toNat = max layout.align.toNat 8 := toNat_max _ _
  have hle := layout.size_le
  obtain ⟨k, hk62, hk⟩ := layout.align_eq
  have hpos := pos_of_eq_two_pow hk
  have hsize : (blockSizeFor layout).toNat = roundUp (max layout.size.toNat 16) 8 :=
    toNat_blockSize (by omega)
  have hdvd : 8 ∣ layout.align.toNat ∨ layout.align.toNat ≤ 8 := by
    rw [hk]
    rcases Nat.le_total 3 k with h3 | h3
    · exact Or.inl (Nat.pow_dvd_pow 2 h3)
    · exact Or.inr (Nat.pow_le_pow_right (by omega) h3)
  have hhalf : layout.align.toNat ≤ 2 ^ 62 := by
    rw [hk]
    exact Nat.pow_le_pow_right (by omega) hk62
  rw [hmax, hsize, roundUp]
  omega

/-- Blocks are aligned to a power of two, and at least to 8. -/
theorem exists_max_align_eq (layout : Layout) :
    ∃ k, 3 ≤ k ∧ k ≤ 62 ∧ (max layout.align align).toNat = 2 ^ k := by
  obtain ⟨k, hk62, hk⟩ := layout.align_eq
  have hmax : (max layout.align align).toNat = max layout.align.toNat 8 := toNat_max _ _
  rw [hmax, hk]
  rcases Nat.le_total 3 k with h3 | h3
  · have hle : 2 ^ 3 ≤ 2 ^ k := Nat.pow_le_pow_right (by omega) h3
    exact ⟨k, h3, hk62, Nat.max_eq_left hle⟩
  · have hle : 2 ^ k ≤ 2 ^ 3 := Nat.pow_le_pow_right (by omega) h3
    exact ⟨3, Nat.le_refl 3, by omega, Nat.max_eq_right hle⟩

theorem eight_dvd_max_align (layout : Layout) : 8 ∣ (max layout.align align).toNat := by
  obtain ⟨k, hk3, -, hk⟩ := exists_max_align_eq layout
  rw [hk]
  exact Nat.pow_dvd_pow 2 hk3

theorem align_dvd_max (layout : Layout) :
    layout.align.toNat ∣ (max layout.align align).toNat := by
  obtain ⟨k, -, hk⟩ := layout.align_eq
  have hmax : (max layout.align align).toNat = max layout.align.toNat 8 := toNat_max _ _
  rw [hmax]
  rcases Nat.le_total layout.align.toNat 8 with hle | hle
  · rw [Nat.max_eq_right hle, hk]
    rw [hk] at hle
    exact Nat.pow_dvd_pow 2 ((Nat.pow_le_pow_iff_right (by omega)).1 (show 2 ^ k ≤ 2 ^ 3 from hle))
  · rw [Nat.max_eq_left hle]

/-- What is known of the region from the start. -/
structure Region (h : FreeList) : Prop where
  base_pos : 0 < h.base.toNat
  base_dvd : 8 ∣ h.base.toNat
  size_dvd : 8 ∣ h.size.toNat
  size_lt : h.size.toNat < 2 ^ 63
  end_le : h.base.toNat + h.size.toNat ≤ 2 ^ 64

/-- They do not depend on memory. -/
theorem Region.of_eq {h h' : FreeList} (hr : h.Region) (hbase : h'.base = h.base)
    (hsize : h'.size = h.size) : h'.Region := by
  obtain ⟨h₁, h₂, h₃, h₄, h₅⟩ := hr
  rw [← hbase] at h₁ h₂ h₅
  rw [← hsize] at h₃ h₄ h₅
  exact ⟨h₁, h₂, h₃, h₄, h₅⟩

/-- The address of an offset in the region does not wrap around, and is not null. -/
theorem Region.toNat_address {h : FreeList} (hr : h.Region) {off : UInt64}
    (hoff : off.toNat < h.size.toNat) :
    (h.base + off).toNat = h.base.toNat + off.toNat ∧ h.base + off ≠ 0 := by
  have hend := hr.end_le
  have hpos := hr.base_pos
  have haddr : (h.base + off).toNat = h.base.toNat + off.toNat := by
    rw [UInt64.toNat_add]
    omega
  refine ⟨haddr, fun hzero ↦ ?_⟩
  rw [hzero] at haddr
  have h0 : (0 : UInt64).toNat = 0 := rfl
  omega

/-- A region the allocator may be given: it does not start at the null address, and has at least the
eight bytes that `new` may skip to align it and at most `isize::MAX`. -/
structure ValidRegion (base size : UInt64) : Prop where
  base_pos : 0 < base.toNat
  le_size : 8 ≤ size.toNat
  size_lt : size.toNat < 2 ^ 63
  end_le : base.toNat + size.toNat ≤ 2 ^ 64

/-- **A new allocator** has one free block, the region less what is cut off at its ends. -/
theorem new_spec {mem : Memory} {base size : UInt64} (hv : ValidRegion base size) {h : FreeList}
    (hnew : new mem base size = some h) :
    h.Region ∧ (base.toNat ≤ h.base.toNat ∧
      h.base.toNat + h.size.toNat ≤ base.toNat + size.toNat) ∧
      16 ≤ h.size.toNat ∧ h.head = 0 ∧ h.entry 0 = ⟨h.size, nil⟩ := by
  obtain ⟨hbase, hsize, hlt, hend⟩ := hv
  have hround : (alignUp base align).toNat = roundUp base.toNat 8 % 2 ^ 64 :=
    toNat_alignUp base (k := 3) (by omega) rfl
  have hpad : (alignUp base align - base).toNat = roundUp base.toNat 8 - base.toNat := by
    rw [UInt64.toNat_sub, hround, roundUp]
    omega
  have hpad' : roundUp base.toNat 8 < base.toNat + 8 := roundUp_lt _ (by omega)
  have husable : ((size - (alignUp base align - base)) &&& ~~~(align - 1)).toNat =
      (size.toNat - (roundUp base.toNat 8 - base.toNat)) / 8 * 8 := by
    have hmask : (~~~(align - 1)).toNat = 2 ^ 64 - 2 ^ 3 := rfl
    rw [UInt64.toNat_and, hmask, and_two_pow_sub_two_pow (UInt64.toNat_lt _) (by omega),
      UInt64.toNat_sub_of_le _ _ (UInt64.le_iff_toNat_le.2 (by omega)), hpad]
    rfl
  have hdvd := dvd_roundUp base.toNat 8
  have hge := le_roundUp base.toNat (a := 8) (by omega)
  have hbase' : (base + (alignUp base align - base)).toNat = roundUp base.toNat 8 := by
    rw [UInt64.toNat_add, hpad]
    omega
  simp only [new] at hnew
  split_ifs at hnew with hle
  obtain rfl := Option.some.inj hnew
  have hr : Region ⟨base + (alignUp base align - base),
      (size - (alignUp base align - base)) &&& ~~~(align - 1), 0, mem⟩ := by
    constructor <;> dsimp only <;> omega
  refine ⟨⟨hr.1, hr.2, hr.3, hr.4, hr.5⟩, ?_, UInt64.le_iff_toNat_le.1 hle, rfl,
    entry_writeEntry_self _ _⟩
  show base.toNat ≤ (base + (alignUp base align - base)).toNat ∧
    (base + (alignUp base align - base)).toNat +
      ((size - (alignUp base align - base)) &&& ~~~(align - 1)).toNat ≤ base.toNat + size.toNat
  omega

/-- Rounding up an address of the region, also if the result is the end of the address space. -/
theorem toNat_alignUp_sub {base v a : UInt64} {x k : ℕ} (hk : k < 64) (ha : a.toNat = 2 ^ k)
    (hbase : 0 < base.toNat) (hx : base.toNat ≤ x) (hle : x ≤ 2 ^ 64) (hv : v.toNat = x % 2 ^ 64) :
    (alignUp v a - base).toNat = roundUp x a.toNat - base.toNat := by
  have hpos := pos_of_eq_two_pow ha
  have hdvd : a.toNat ∣ 2 ^ 64 := by
    rw [ha]
    exact Nat.pow_dvd_pow 2 (Nat.le_of_lt hk)
  have hlow := le_roundUp x hpos
  have hhigh := roundUp_le hpos hdvd hle
  have hround := toNat_alignUp v hk ha
  have hb := base.toNat_lt
  rw [UInt64.toNat_sub, hround, hv]
  rcases Nat.lt_or_eq_of_le hle with hlt | rfl
  · rw [Nat.mod_eq_of_lt hlt]
    omega
  · have hzero : roundUp (2 ^ 64 % 2 ^ 64) a.toNat ≤ 0 :=
      roundUp_le hpos (Nat.dvd_zero _) (Nat.le_of_eq (Nat.mod_self _))
    omega

/-- The places for a request in the hole at `cur`. -/
def Places (h : FreeList) (align cur : ℕ) : Set ℕ :=
  {q | (q = cur ∨ cur + 16 ≤ q) ∧ align ∣ h.base.toNat + q}

section Place

variable {h : FreeList} {a cur : UInt64} {k : ℕ}

/-- `place` without wrap-around. -/
theorem toNat_place (hr : h.Region) (hk : k < 64) (ha : a.toNat = 2 ^ k)
    (hle : cur.toNat + 16 ≤ h.size.toNat) :
    (h.place a cur).toNat =
      let front := roundUp (h.base.toNat + cur.toNat) a.toNat - h.base.toNat - cur.toNat
      if front ≠ 0 ∧ front < 16 then
        roundUp (h.base.toNat + cur.toNat + 16) a.toNat - h.base.toNat
      else roundUp (h.base.toNat + cur.toNat) a.toNat - h.base.toNat := by
  have hend := hr.end_le
  have hcur : (h.base + cur).toNat = (h.base.toNat + cur.toNat) % 2 ^ 64 := UInt64.toNat_add _ _
  have hcur' : (h.base + cur + minBlock).toNat = (h.base.toNat + cur.toNat + 16) % 2 ^ 64 := by
    have h16 : minBlock.toNat = 16 := rfl
    rw [UInt64.toNat_add, hcur, h16]
    omega
  have hlow := toNat_alignUp_sub hk ha hr.base_pos (Nat.le_add_right _ cur.toNat)
    (by omega) hcur
  have hhigh := toNat_alignUp_sub hk ha hr.base_pos (by omega) (by omega) hcur'
  have hfront : (alignUp (h.base + cur) a - h.base - cur).toNat =
      roundUp (h.base.toNat + cur.toNat) a.toNat - h.base.toNat - cur.toNat := by
    have hge := le_roundUp (h.base.toNat + cur.toNat) (pos_of_eq_two_pow ha)
    rw [UInt64.toNat_sub_of_le _ _ (UInt64.le_iff_toNat_le.2 (by omega)), hlow]
  rw [place, apply_ite UInt64.toNat, hlow, hhigh]
  refine if_congr ?_ rfl rfl
  rw [← hfront, UInt64.lt_iff_toNat_lt, Ne, ← UInt64.toNat_inj]
  rfl

/-- **A request is placed as low as it can be.** -/
theorem isLeast_place (hr : h.Region) (hk : k < 64) (ha : a.toNat = 2 ^ k)
    (hle : cur.toNat + 16 ≤ h.size.toNat) :
    IsLeast (h.Places a.toNat cur.toNat) (h.place a cur).toNat := by
  have hpos := pos_of_eq_two_pow ha
  have hge := le_roundUp (h.base.toNat + cur.toNat) hpos
  have hge' := le_roundUp (h.base.toNat + cur.toNat + 16) hpos
  rw [toNat_place hr hk ha hle]
  dsimp only
  split_ifs with hfront
  · refine ⟨⟨Or.inr (by omega), ?_⟩, ?_⟩
    · rw [Nat.add_sub_cancel' (by omega)]
      exact dvd_roundUp _ _
    · rintro q ⟨rfl | hq, hdvd⟩
      · have := roundUp_le hpos hdvd (Nat.le_refl _)
        omega
      · have := roundUp_le hpos hdvd (x := h.base.toNat + cur.toNat + 16) (by omega)
        omega
  · refine ⟨⟨by omega, ?_⟩, ?_⟩
    · rw [Nat.add_sub_cancel' (by omega)]
      exact dvd_roundUp _ _
    · rintro q ⟨hq, hdvd⟩
      have := roundUp_le hpos hdvd (x := h.base.toNat + cur.toNat) (by omega)
      omega

theorem place_le (hr : h.Region) (hk : 3 ≤ k) (hk' : k ≤ 62) (ha : a.toNat = 2 ^ k)
    (hcur : 8 ∣ cur.toNat) (hle : cur.toNat + 16 ≤ h.size.toNat) :
    (h.place a cur).toNat ≤ cur.toNat + a.toNat + 8 := by
  have h8 : 8 ∣ a.toNat := by
    rw [ha]
    exact Nat.pow_dvd_pow 2 hk
  have hpos := pos_of_eq_two_pow ha
  have hlt := roundUp_lt (h.base.toNat + cur.toNat) hpos
  have hlt' := roundUp_lt (h.base.toNat + cur.toNat + 16) hpos
  -- everything in sight is a multiple of 8
  have hdvd := Nat.dvd_trans h8 (dvd_roundUp (h.base.toNat + cur.toNat + 16) a.toNat)
  have hbase := hr.base_dvd
  rw [toNat_place hr (by omega) ha hle]
  dsimp only
  split_ifs <;> omega

end Place

end FreeList

end UserspaceRouter
