import Mathlib.Data.Multiset.Filter
import Mathlib.Data.Multiset.Range
import Mathlib.Tactic.Abel
import UserspaceRouter.Core.Bitmask
import UserspaceRouter.Foundations.Checked
import UserspaceRouter.Foundations.TransitionSystem

/-!
# The object pool

A fixed number of slots for values, handed out by index. Which slots are in use is recorded twice: a
stack of the free indices, and a bitmask that is read by the debug assertions and by the pool's
destructor.

A slot does not know whether it holds a value: destroying a value or moving it out leaves the bytes
behind, and a slot read at the wrong time would give up its value a second time. So `slots` keeps
what was last written, and what has become of the values is recorded beside the pool.

**The books.** With the indices that handles were given out for and never released, the free list
makes up all indices, each once, and the bits that are set are those of the handles (`Books`). An
operation of a handle keeps the books and passes every check (`Books.alloc`, `Books.release`).

**The accounts.** What was moved in is what was destroyed, what was moved out, and what is in the
slots of the handles (`PoolWorld.Inv.accounts`).
-/

namespace UserspaceRouter

/-- `ObjectPool`, for values of a type that is not zero-sized. -/
structure ObjectPool (T : Type) where
  /-- What was last written to each slot, if anything was. -/
  slots : List (Option T)
  /-- Bit set: slot currently allocated. -/
  used : Bitmask
  /-- Stack of free indices. -/
  list : List ℕ

/-- `Obj`: an owning handle to one slot. -/
structure Obj where
  index : ℕ
deriving DecidableEq

namespace ObjectPool

variable {T : Type}

def new (T : Type) (capacity : ℕ) : ObjectPool T where
  slots := List.replicate capacity none
  used := Bitmask.new capacity
  list := (List.range capacity).reverse

def capacity (p : ObjectPool T) : ℕ := p.slots.length

def available (p : ObjectPool T) : ℕ := p.list.length

/-- `assume_init` of a slot; `none` if there is no such slot or it was never written. -/
def slot (p : ObjectPool T) (index : ℕ) : Option T := p.slots[index]?.join

/-- Claim a free slot and move `value` into it. The outer `none` is a failed check: an assertion, or
an index out of range. -/
def alloc (p : ObjectPool T) (value : T) : Option (ObjectPool T × Option Obj) :=
  match p.list.getLast? with
  | none => some (p, none)
  | some index => do
    let inUse ← p.used.isSet index
    -- "free-list yielded an in-use slot"
    if inUse then none
    else
      let used ← p.used.set index
      let slots ← Checked.store p.slots index (some value)
      some (⟨slots, used, p.list.dropLast⟩, some ⟨index⟩)

/-- Return a slot to the free list, with the values whose destructor was run. -/
def release (p : ObjectPool T) (index : ℕ) (dropValue : Bool) :
    Option (ObjectPool T × List T) := do
  let destroyed ← if dropValue then (p.slot index).map fun v ↦ [v] else some []
  let inUse ← p.used.isSet index
  -- "double free of pool slot"
  if inUse then
    let used ← p.used.clear index
    some ({ p with used, list := p.list ++ [index] }, destroyed)
  else none

/-- The loop of the pool's destructor: the values it destroys. -/
def dropSlots (p : ObjectPool T) : List ℕ → Option (List T)
  | [] => some []
  | index :: rest => do
    let set ← p.used.isSet index
    let destroyed ← if set then (p.slot index).map fun v ↦ [v] else some []
    let others ← dropSlots p rest
    some (destroyed ++ others)

/-- `Drop` of the pool: values still checked out, as by a handle that was forgotten. -/
def drop (p : ObjectPool T) : Option (List T) := p.dropSlots (List.range p.slots.length)

end ObjectPool

namespace Obj

variable {T : Type}

/-- `Drop` of a handle. -/
def drop (o : Obj) (p : ObjectPool T) : Option (ObjectPool T × List T) := p.release o.index true

/-- Move the value out, freeing the slot without running its destructor. -/
def intoInner (o : Obj) (p : ObjectPool T) : Option (ObjectPool T × T) := do
  let value ← p.slot o.index
  let (p, _) ← p.release o.index false
  some (p, value)

end Obj

/-! ### The books of a pool -/

namespace ObjectPool

variable {T : Type}

/-- **The books** of a pool of `n` slots, of which `held` were given out and not released. -/
structure Books (n : ℕ) (p : ObjectPool T) (held : Multiset ℕ) : Prop where
  size_used : p.used.size = n
  length_slots : p.slots.length = n
  partition : (p.list : Multiset ℕ) + held = Multiset.range n
  used_iff : ∀ i, p.used.used i = true ↔ i ∈ held

variable {n i : ℕ} {p : ObjectPool T} {held : Multiset ℕ}

theorem books_new (T : Type) (n : ℕ) : Books n (new T n) 0 where
  size_used := rfl
  length_slots := List.length_replicate
  partition := by
    rw [add_zero]
    exact Multiset.coe_reverse _
  used_iff i := by
    show (Bitmask.new n).used i = true ↔ i ∈ 0
    rw [Bitmask.used_new]
    simp

namespace Books

theorem nodup (h : Books n p held) : ((p.list : Multiset ℕ) + held).Nodup := by
  rw [h.partition]
  exact Multiset.nodup_range n

theorem nodup_list (h : Books n p held) : p.list.Nodup :=
  Multiset.coe_nodup.1 (Multiset.nodup_of_le (Multiset.le_add_right _ _) h.nodup)

theorem nodup_held (h : Books n p held) : held.Nodup :=
  Multiset.nodup_of_le (Multiset.le_add_left _ _) h.nodup

/-- No slot is both free and held. -/
theorem not_mem_held (h : Books n p held) (hi : i ∈ p.list) : i ∉ held :=
  Multiset.disjoint_left.1 (Multiset.nodup_add.1 h.nodup).2.2 (Multiset.mem_coe.2 hi)

theorem mem_iff_lt (h : Books n p held) (i : ℕ) : i ∈ p.list ∨ i ∈ held ↔ i < n := by
  rw [← Multiset.mem_range, ← h.partition, Multiset.mem_add, Multiset.mem_coe]

/-- The bitmask answers for every index of the pool. -/
theorem isSet_eq (h : Books n p held) (hi : i < n) : p.used.isSet i = some (p.used.used i) :=
  Bitmask.isSet_eq (by rwa [h.size_used])

/-- **The two records agree.** -/
theorem mem_list_iff (h : Books n p held) (i : ℕ) :
    i ∈ p.list ↔ i < n ∧ p.used.isSet i = some false := by
  constructor
  · intro hi
    have hlt := (h.mem_iff_lt i).1 (Or.inl hi)
    have hclear : p.used.used i = false :=
      Bool.eq_false_iff.2 fun hset ↦ h.not_mem_held hi ((h.used_iff i).1 hset)
    rw [h.isSet_eq hlt, hclear]
    exact ⟨hlt, rfl⟩
  · rintro ⟨hlt, hclear⟩
    rw [h.isSet_eq hlt] at hclear
    refine ((h.mem_iff_lt i).2 hlt).resolve_right fun hheld ↦ ?_
    rw [(h.used_iff i).2 hheld] at hclear
    exact absurd hclear (by simp)

theorem isSet_of_mem (h : Books n p held) (hi : i ∈ held) : p.used.isSet i = some true := by
  rw [h.isSet_eq ((h.mem_iff_lt i).1 (Or.inr hi)), (h.used_iff i).2 hi]

theorem available_add (h : Books n p held) : p.available + held.card = n := by
  have hcard := congrArg Multiset.card h.partition
  rwa [Multiset.card_add, Multiset.coe_card, Multiset.card_range] at hcard

/-- **What `alloc` does**: nothing, if there is no free slot, or it hands one out. -/
theorem alloc (h : Books n p held) (v : T) :
    p.available = 0 ∧ p.alloc v = some (p, none) ∨
    ∃ i p', 0 < p.available ∧ p.alloc v = some (p', some ⟨i⟩) ∧ i ∉ held ∧
      Books n p' (i ::ₘ held) ∧ p'.slot i = some v ∧ ∀ j, j ≠ i → p'.slot j = p.slot j := by
  rcases List.eq_nil_or_concat p.list with hnil | ⟨rest, i, hlist⟩
  · exact Or.inl ⟨by rw [available, hnil]; rfl, by simp only [ObjectPool.alloc, hnil]; rfl⟩
  · rw [List.concat_eq_append] at hlist
    have hi : i ∈ p.list := by simp [hlist]
    obtain ⟨hlt, hclear⟩ := (h.mem_list_iff i).1 hi
    obtain ⟨used, hset, hsize, hused⟩ := Bitmask.exists_set (show i < p.used.size by
      rwa [h.size_used])
    have hslots : i < p.slots.length := by rwa [h.length_slots]
    refine Or.inr ⟨i, ⟨p.slots.set i (some v), used, rest⟩, ?_, ?_, h.not_mem_held hi,
      ⟨hsize.trans h.size_used, ?_, ?_, fun j ↦ ?_⟩, ?_, fun j hj ↦ ?_⟩
    · rw [available, hlist]
      simp
    · simp only [ObjectPool.alloc, hlist, List.getLast?_append, List.getLast?_singleton,
        Option.some_or, hclear, hset, Checked.store_eq hslots, List.dropLast_concat,
        Option.bind_eq_bind, Option.bind_some, Bool.false_eq_true, if_false]
    · rw [List.length_set, h.length_slots]
    · rw [← h.partition, hlist, ← Multiset.coe_add, Multiset.coe_singleton,
        ← Multiset.singleton_add]
      abel
    · rw [hused, h.used_iff, Multiset.mem_cons, or_comm]
    · rw [slot, List.getElem?_set_self hslots]
      rfl
    · rw [slot, List.getElem?_set_ne (Ne.symm hj), slot]

/-- **What a handle's release does**: the slot is free again, and no other slot is touched. -/
theorem release (h : Books n p (i ::ₘ held)) :
    ∃ p', p.release i false = some (p', []) ∧
      (∀ v, p.slot i = some v → p.release i true = some (p', [v])) ∧ Books n p' held ∧
      ∀ j, p'.slot j = p.slot j := by
  have hi : i ∈ i ::ₘ held := Multiset.mem_cons_self i held
  have hlt := (h.mem_iff_lt i).1 (Or.inr hi)
  have hset := h.isSet_of_mem hi
  obtain ⟨used, hclear, hsize, hused⟩ := Bitmask.exists_clear (show i < p.used.size by
    rwa [h.size_used])
  refine ⟨{ p with used, list := p.list ++ [i] }, ?_, fun v hv ↦ ?_,
    ⟨hsize.trans h.size_used, h.length_slots, ?_, fun j ↦ ?_⟩, fun j ↦ rfl⟩
  · simp [ObjectPool.release, hset, hclear]
  · simp [ObjectPool.release, hset, hclear, hv]
  · rw [← h.partition, ← Multiset.coe_add, Multiset.coe_singleton, ← Multiset.singleton_add]
    abel
  · have hnot := (Multiset.nodup_cons.1 h.nodup_held).1
    rw [hused, h.used_iff, Multiset.mem_cons]
    constructor
    · rintro ⟨rfl | hj, hne⟩
      · exact absurd rfl hne
      · exact hj
    · intro hj
      refine ⟨Or.inr hj, ?_⟩
      rintro rfl
      exact hnot hj

/-- The loop of the destructor finds the values of the slots that are held. -/
theorem exists_dropSlots (h : Books n p held) (hheld : ∀ j ∈ held, ∃ v, p.slot j = some v)
    {is : List ℕ} (his : ∀ j ∈ is, j < n) :
    ∃ vs, p.dropSlots is = some vs ∧
      vs.map some = (is.filter fun j ↦ p.used.used j).map p.slot := by
  induction is with
  | nil => exact ⟨[], rfl, rfl⟩
  | cons j is ih =>
    obtain ⟨vs, hvs, hmap⟩ := ih fun k hk ↦ his k (List.mem_cons_of_mem j hk)
    have hset := h.isSet_eq (his j List.mem_cons_self)
    rcases hj : p.used.used j with - | -
    · rw [hj] at hset
      refine ⟨vs, ?_, ?_⟩
      · simp [dropSlots, hset, hvs]
      · rw [hmap, List.filter_cons_of_neg (by simp [hj])]
    · rw [hj] at hset
      obtain ⟨v, hv⟩ := hheld j ((h.used_iff j).1 hj)
      refine ⟨v :: vs, ?_, ?_⟩
      · simp [dropSlots, hset, hvs, hv]
      · rw [List.map_cons, hmap, List.filter_cons_of_pos (by simp [hj]), List.map_cons, hv]

/-- **What the pool's destructor destroys**: what is in the slots that are held. -/
theorem exists_drop (h : Books n p held) (hheld : ∀ j ∈ held, ∃ v, p.slot j = some v) :
    ∃ vs, p.drop = some vs ∧ (vs : Multiset T).map some = held.map p.slot := by
  obtain ⟨vs, hdrop, hmap⟩ := h.exists_dropSlots hheld fun j hj ↦ List.mem_range.1 hj
  refine ⟨vs, by rw [drop, h.length_slots, hdrop], ?_⟩
  have hfilter : ((List.range n).filter fun j ↦ p.used.used j : Multiset ℕ) = held := by
    refine (Multiset.Nodup.ext ?_ h.nodup_held).2 fun j ↦ ?_
    · exact Multiset.coe_nodup.2 (List.nodup_range.filter _)
    · rw [Multiset.mem_coe, List.mem_filter, List.mem_range, h.used_iff]
      exact ⟨And.right, fun hj ↦ ⟨(h.mem_iff_lt j).1 (Or.inr hj), hj⟩⟩
  rw [Multiset.map_coe, hmap, ← Multiset.map_coe, hfilter]

end Books

end ObjectPool

/-! ### Programs that use a pool -/

/-- A pool, the handles the program has to it, and what has become of the values. -/
structure PoolWorld (T : Type) where
  pool : ObjectPool T
  /-- The handles that are live. -/
  live : Multiset Obj
  /-- The handles that were forgotten. -/
  forgotten : Multiset Obj
  entered : Multiset T
  destroyed : Multiset T
  movedOut : Multiset T

/-- What a program can do. -/
inductive PoolCall (T : Type)
  | alloc (value : T)
  | drop (o : Obj)
  | intoInner (o : Obj)
  | forget (o : Obj)

namespace PoolWorld

variable {T : Type}

def new (T : Type) (capacity : ℕ) : PoolWorld T := ⟨.new T capacity, 0, 0, 0, 0, 0⟩

/-- The slots that handles, live or forgotten, were given out for. -/
def held (w : PoolWorld T) : Multiset ℕ := w.live.map Obj.index + w.forgotten.map Obj.index

/-- A program can only use handles it has. -/
def CanMake (w : PoolWorld T) : PoolCall T → Prop
  | .alloc _ => True
  | .drop o | .intoInner o | .forget o => o ∈ w.live

instance (w : PoolWorld T) : (c : PoolCall T) → Decidable (w.CanMake c)
  | .alloc _ => .isTrue trivial
  | .drop o | .intoInner o | .forget o => inferInstanceAs (Decidable (o ∈ w.live))

/-- A call; `none` is a check that failed in it. -/
def call (w : PoolWorld T) : PoolCall T → Option (PoolWorld T)
  | .alloc value => (w.pool.alloc value).map fun (pool, result) ↦
    match result with
    -- `alloc` has the value, and drops it when it returns
    | none => { w with
        pool
        entered := value ::ₘ w.entered
        destroyed := value ::ₘ w.destroyed }
    | some o => { w with
        pool
        live := o ::ₘ w.live
        entered := value ::ₘ w.entered }
  | .drop o => (o.drop w.pool).map fun (pool, values) ↦ { w with
      pool
      live := w.live.erase o
      destroyed := values + w.destroyed }
  | .intoInner o => (o.intoInner w.pool).map fun (pool, value) ↦ { w with
      pool
      live := w.live.erase o
      movedOut := value ::ₘ w.movedOut }
  | .forget o => some { w with
      live := w.live.erase o
      forgotten := o ::ₘ w.forgotten }

/-- **The invariant**: the books are in order, and the accounts balance. -/
structure Inv (n : ℕ) (w : PoolWorld T) : Prop where
  books : w.pool.Books n w.held
  accounts : w.entered.map some =
    (w.destroyed + w.movedOut).map some + w.held.map w.pool.slot

variable {n : ℕ} {w w' : PoolWorld T}

theorem inv_new (T : Type) (n : ℕ) : (new T n).Inv n := ⟨ObjectPool.books_new T n, rfl⟩

/-- A slot that is held has a value in it. -/
theorem Inv.exists_value (h : w.Inv n) {i : ℕ} (hi : i ∈ w.held) :
    ∃ v, w.pool.slot i = some v := by
  have hmem : w.pool.slot i ∈ w.entered.map some := by
    rw [h.accounts]
    exact Multiset.mem_add.2 (Or.inr (Multiset.mem_map_of_mem _ hi))
  obtain ⟨v, -, hv⟩ := Multiset.mem_map.1 hmem
  exact ⟨v, hv.symm⟩

/-- The slot of a live handle, and the others. -/
theorem held_eq_cons {o : Obj} (ho : o ∈ w.live) :
    w.held = o.index ::ₘ ((w.live.erase o).map Obj.index + w.forgotten.map Obj.index) := by
  rw [held, ← Multiset.cons_erase ho, Multiset.map_cons, Multiset.cons_add,
    Multiset.erase_cons_head]

/-- **A handle gives its slot back**: the value that was in it has left the slots. -/
theorem Inv.exists_release (h : w.Inv n) {o : Obj} (ho : o ∈ w.live) :
    ∃ p v, w.pool.slot o.index = some v ∧ w.pool.release o.index true = some (p, [v]) ∧
      w.pool.release o.index false = some (p, []) ∧
      p.Books n ((w.live.erase o).map Obj.index + w.forgotten.map Obj.index) ∧
      w.entered.map some = (v ::ₘ (w.destroyed + w.movedOut)).map some +
        ((w.live.erase o).map Obj.index + w.forgotten.map Obj.index).map p.slot := by
  have hheld := held_eq_cons ho
  obtain ⟨v, hv⟩ := h.exists_value (i := o.index) (by rw [hheld]; exact Multiset.mem_cons_self _ _)
  have hbooks := h.books
  have haccounts := h.accounts
  rw [hheld] at hbooks haccounts
  obtain ⟨p, hmove, hdrop, hbooks', hslot⟩ := hbooks.release
  refine ⟨p, v, hv, hdrop v hv, hmove, hbooks', ?_⟩
  rw [haccounts, Multiset.map_cons, hv, Multiset.map_cons, funext hslot, Multiset.add_cons,
    Multiset.cons_add]

theorem Inv.alloc (h : w.Inv n) (v : T) : ∃ w', w.call (.alloc v) = some w' ∧ w'.Inv n := by
  rcases h.books.alloc v with ⟨-, halloc⟩ | ⟨i, p, -, halloc, hi, hbooks, hslot, hother⟩
  · refine ⟨{ w with entered := v ::ₘ w.entered, destroyed := v ::ₘ w.destroyed },
      by rw [PoolWorld.call, halloc]; rfl, h.books, ?_⟩
    show (v ::ₘ w.entered).map some =
      (v ::ₘ w.destroyed + w.movedOut).map some + w.held.map w.pool.slot
    rw [Multiset.map_cons, h.accounts, Multiset.cons_add, Multiset.map_cons, Multiset.cons_add]
  · have hheld : (⟨i⟩ ::ₘ w.live).map Obj.index + w.forgotten.map Obj.index = i ::ₘ w.held := by
      rw [Multiset.map_cons, Multiset.cons_add]
      rfl
    -- the slot was free, so nobody's value is overwritten
    have hsame : w.held.map p.slot = w.held.map w.pool.slot :=
      Multiset.map_congr rfl fun j hj ↦ hother j fun heq ↦ hi (heq ▸ hj)
    refine ⟨_, by rw [PoolWorld.call, halloc]; rfl, ?_, ?_⟩
    · show p.Books n ((⟨i⟩ ::ₘ w.live).map Obj.index + w.forgotten.map Obj.index)
      rwa [hheld]
    · show (v ::ₘ w.entered).map some = (w.destroyed + w.movedOut).map some +
        ((⟨i⟩ ::ₘ w.live).map Obj.index + w.forgotten.map Obj.index).map p.slot
      rw [hheld, Multiset.map_cons, Multiset.map_cons, hslot, hsame, h.accounts,
        Multiset.add_cons]

theorem Inv.drop (h : w.Inv n) {o : Obj} (ho : o ∈ w.live) :
    ∃ w', w.call (.drop o) = some w' ∧ w'.Inv n := by
  obtain ⟨p, v, -, hrelease, -, hbooks, haccounts⟩ := h.exists_release ho
  refine ⟨_, by rw [PoolWorld.call, Obj.drop, hrelease]; rfl, hbooks, ?_⟩
  refine haccounts.trans ?_
  show (v ::ₘ (w.destroyed + w.movedOut)).map some + _ =
    (([v] : Multiset T) + w.destroyed + w.movedOut).map some + _
  rw [Multiset.coe_singleton, add_assoc, Multiset.singleton_add]
  rfl

theorem Inv.intoInner (h : w.Inv n) {o : Obj} (ho : o ∈ w.live) :
    ∃ w', w.call (.intoInner o) = some w' ∧ w'.Inv n := by
  obtain ⟨p, v, hv, -, hrelease, hbooks, haccounts⟩ := h.exists_release ho
  refine ⟨_, by rw [PoolWorld.call, Obj.intoInner, hv]; simp only [hrelease]; rfl, hbooks, ?_⟩
  refine haccounts.trans ?_
  show (v ::ₘ (w.destroyed + w.movedOut)).map some + _ =
    (w.destroyed + v ::ₘ w.movedOut).map some + _
  rw [Multiset.add_cons]
  rfl

/-- A handle that is forgotten keeps its slot. -/
theorem Inv.forget (h : w.Inv n) {o : Obj} (ho : o ∈ w.live) :
    ∃ w', w.call (.forget o) = some w' ∧ w'.Inv n := by
  have hheld : (w.live.erase o).map Obj.index + (o ::ₘ w.forgotten).map Obj.index = w.held := by
    rw [held_eq_cons ho, Multiset.map_cons, Multiset.add_cons]
  refine ⟨_, rfl, ?_, ?_⟩
  · show w.pool.Books n ((w.live.erase o).map Obj.index + (o ::ₘ w.forgotten).map Obj.index)
    rw [hheld]
    exact h.books
  · show w.entered.map some = (w.destroyed + w.movedOut).map some +
      ((w.live.erase o).map Obj.index + (o ::ₘ w.forgotten).map Obj.index).map w.pool.slot
    rw [hheld]
    exact h.accounts

/-- **One call**: it passes its checks, and keeps the invariant. -/
theorem Inv.call (h : w.Inv n) {c : PoolCall T} (hc : w.CanMake c) :
    ∃ w', w.call c = some w' ∧ w'.Inv n := by
  cases c with
  | alloc v => exact h.alloc v
  | drop o => exact h.drop hc
  | intoInner o => exact h.intoInner hc
  | forget o => exact h.forget hc

/-- The programs that use a pool. -/
def program (T : Type) : TransitionSystem (PoolWorld T) (PoolCall T) :=
  (TransitionSystem.ofPartial call).restrict CanMake

/-- **A whole program** keeps the invariant. -/
theorem inv_of_run {tr : List (PoolCall T)} (hrun : (program T).Run (new T n) tr w) : w.Inv n := by
  refine hrun.invariant (inv_new T n) ?_
  rintro w c w' hw ⟨hc, hcall⟩
  obtain ⟨w'', hcall', hinv⟩ := hw.call hc
  obtain rfl : w'' = w' := Option.some.inj (hcall'.symm.trans hcall)
  exact hinv

/-- **What leaves the pool is what entered it**, once the pool's destructor has run. A handle
borrows the pool, so none is live by then; the account does not depend on it. -/
theorem Inv.exists_drop (h : w.Inv n) :
    ∃ vs, w.pool.drop = some vs ∧ w.entered = w.destroyed + vs + w.movedOut := by
  obtain ⟨vs, hdrop, hmap⟩ := h.books.exists_drop fun j hj ↦ h.exists_value hj
  refine ⟨vs, hdrop, Multiset.map_injective (Option.some_injective T) ?_⟩
  have haccounts := h.accounts
  rw [← hmap, ← Multiset.map_add] at haccounts
  rw [haccounts]
  congr 1
  abel

/-- **Slots are owned once.** After any sequence of calls on a pool of any capacity: the free list
has no duplicates and is exactly the indices whose bit is clear; the live handles have indices of
their own, whose bits are set; free slots, live handles and forgotten ones add up to the capacity;
`alloc` fails exactly if nothing is available; no call that the program can make fails a check; and
if the pool is dropped now, the values that entered it have been destroyed or moved out, each as
often as it entered. -/
theorem slots_owned_once {tr : List (PoolCall T)} (hrun : (program T).Run (new T n) tr w) :
    w.pool.list.Nodup ∧
    (∀ i, i ∈ w.pool.list ↔ i < n ∧ w.pool.used.isSet i = some false) ∧
    (w.live.map Obj.index).Nodup ∧ (∀ o ∈ w.live, w.pool.used.isSet o.index = some true) ∧
    w.pool.capacity = n ∧ w.pool.available + w.live.card + w.forgotten.card = n ∧
    (∀ v, ∃ p result, w.pool.alloc v = some (p, result) ∧
      (result = none ↔ w.pool.available = 0)) ∧
    (∀ c, w.CanMake c → ∃ w', w.call c = some w') ∧
    ∃ vs, w.pool.drop = some vs ∧ w.entered = w.destroyed + vs + w.movedOut := by
  have hinv := inv_of_run hrun
  have hbooks := hinv.books
  refine ⟨hbooks.nodup_list, hbooks.mem_list_iff, ?_, fun o ho ↦ hbooks.isSet_of_mem ?_,
    hbooks.length_slots, ?_, fun v ↦ ?_, fun c hc ↦ ?_, hinv.exists_drop⟩
  · exact Multiset.nodup_of_le (Multiset.le_add_right _ _) hbooks.nodup_held
  · exact Multiset.mem_add.2 (Or.inl (Multiset.mem_map_of_mem _ ho))
  · have hcard := hbooks.available_add
    rwa [held, Multiset.card_add, Multiset.card_map, Multiset.card_map, ← add_assoc] at hcard
  · rcases hbooks.alloc v with ⟨hnone, halloc⟩ | ⟨i, p, hsome, halloc, -⟩
    · exact ⟨_, _, halloc, fun _ ↦ hnone, fun _ ↦ rfl⟩
    · exact ⟨_, _, halloc, fun heq ↦ absurd heq (by simp), fun h0 ↦ absurd h0 (by omega)⟩
  · obtain ⟨w', hcall, -⟩ := hinv.call hc
    exact ⟨w', hcall⟩

/-- Three values in two slots: the third is refused, the first moved out, and the second forgotten
and left to the pool's destructor. -/
theorem slots_owned_once_forgotten :
    ∃ w : PoolWorld ℕ, (program ℕ).Run (new ℕ 2)
        [.alloc 10, .alloc 20, .alloc 30, .intoInner ⟨0⟩, .forget ⟨1⟩] w ∧
      w.pool.list = [0] ∧ w.destroyed = {30} ∧ w.movedOut = {10} ∧
      ∃ vs, w.pool.drop = some vs ∧ w.entered = w.destroyed + vs + w.movedOut := by
  have hcalls : ([.alloc 10, .alloc 20, .alloc 30, .intoInner ⟨0⟩, .forget ⟨1⟩].foldlM
      (fun (w : PoolWorld ℕ) c ↦ if w.CanMake c then w.call c else none) (new ℕ 2)).map
        (fun w ↦ (w.pool.list, w.destroyed, w.movedOut)) = some ([0], {30}, {10}) := by
    decide +kernel
  obtain ⟨w, hsome, hend⟩ := Option.map_eq_some_iff.1 hcalls
  obtain ⟨hlist, hend⟩ := Prod.mk.inj hend
  obtain ⟨hdestroyed, hmoved⟩ := Prod.mk.inj hend
  have hrun := TransitionSystem.run_restrict_of_foldlM hsome
  obtain ⟨-, -, -, -, -, -, -, -, hdrop⟩ := slots_owned_once hrun
  exact ⟨w, hrun, hlist, hdestroyed, hmoved, hdrop⟩

end PoolWorld

end UserspaceRouter
