import Mathlib.Data.Nat.ModEq
import UserspaceRouter.Foundations.Fifo

/-!
# The single-producer, single-consumer ring

A ring of `N` slots with two indices: the producer alone stores `head`, the consumer alone stores
`tail`. `push` and `pop` are the code, run without interruption. `PushPc.next` and `PopPc.next` are
the same code cut at its accesses to shared memory, which are sequentially consistent: load the own
index, load the other one's, write or take the slot, store the own index. `system T N` lets the two
threads take such steps in any order; the producer chooses what it pushes.

The ring is a bounded queue of capacity `N - 1`, the one free slot telling full from empty. The
abstract queue holds the items whose `head` store has been done and whose `tail` store has not, and
an item stays in the slot `tail + j` for the `j`-th item in the queue (`Refines`). Each side decides
on a value of the other index that may be stale, but staleness is harmless: the consumer only ever
makes room and the producer only ever adds items, so what was seen stays true until the side's own
store. That the queue was full, or empty, is true at the moment of the load.
-/

namespace UserspaceRouter

open TransitionSystem

/-! ### The code -/

/-- `SpscRing`: the indices are always those of a slot. -/
structure SpscRing (T : Type*) (N : ℕ) where
  head : Fin N
  tail : Fin N
  buffer : Fin N → Option T

namespace SpscRing

variable {T : Type*} {N : ℕ}

/-- `(i + 1) % N`. -/
def succ (i : Fin N) : Fin N := ⟨(i.val + 1) % N, Nat.mod_lt _ i.pos⟩

def new (hN : 0 < N) : SpscRing T N := ⟨⟨0, hN⟩, ⟨0, hN⟩, fun _ ↦ none⟩

/-- Put an item into a slot, or take it out. -/
def setSlot (r : SpscRing T N) (i : Fin N) (o : Option T) : SpscRing T N :=
  { r with buffer := Function.update r.buffer i o }

/-- `push`; `false` is `Err`. -/
def push (r : SpscRing T N) (item : T) : SpscRing T N × Bool :=
  let nextHead := succ r.head
  if nextHead = r.tail then (r, false)
  else ({ r.setSlot r.head (some item) with head := nextHead }, true)

def pop (r : SpscRing T N) : SpscRing T N × Option T :=
  if r.tail = r.head then (r, none)
  else ({ r.setSlot r.tail none with tail := succ r.tail }, r.buffer r.tail)

def len (r : SpscRing T N) : ℕ := (r.head.val + N - r.tail.val) % N

/-! ### The code, cut at its accesses -/

/-- Where the producer is in `push`. -/
inductive PushPc (T : Type*) (N : ℕ)
  | idle
  | loaded (item : T) (head : Fin N)
  /-- The ring is not full. -/
  | checked (item : T) (head : Fin N)
  | written (item : T) (head : Fin N)

/-- Where the consumer is in `pop`. -/
inductive PopPc (T : Type*) (N : ℕ)
  | idle
  | loaded (tail : Fin N)
  /-- The ring is not empty. -/
  | checked (tail : Fin N)
  | taken (tail : Fin N) (item : Option T)

/-- What a step shows to the outside. -/
inductive Event (T : Type*)
  | proceed
  /-- `push` returns `Ok`. -/
  | pushed (item : T)
  /-- `push` returns `Err`. -/
  | full (item : T)
  /-- `pop` returns what it took from the slot. -/
  | popped (item : Option T)
  /-- `pop` returns `None`. -/
  | empty

/-- The next access of a producer that is in `push`. -/
def PushPc.next : PushPc T N → SpscRing T N → Option (Event T × PushPc T N × SpscRing T N)
  | .idle, _ => none
  | .loaded item head, r =>
    if succ head = r.tail then some (.full item, .idle, r)
    else some (.proceed, .checked item head, r)
  | .checked item head, r => some (.proceed, .written item head, r.setSlot head (some item))
  | .written item head, r => some (.pushed item, .idle, { r with head := succ head })

/-- The next access of a consumer that is in `pop`. -/
def PopPc.next : PopPc T N → SpscRing T N → Option (Event T × PopPc T N × SpscRing T N)
  | .idle, _ => none
  | .loaded tail, r =>
    if tail = r.head then some (.empty, .idle, r) else some (.proceed, .checked tail, r)
  | .checked tail, r => some (.proceed, .taken tail (r.buffer tail), r.setSlot tail none)
  | .taken tail item, r => some (.popped item, .idle, { r with tail := succ tail })

/-- The ring and its two threads. -/
structure Threads (T : Type*) (N : ℕ) where
  ring : SpscRing T N
  producer : PushPc T N
  consumer : PopPc T N

/-- One access of one of the threads. A call begins with the load of the own index. -/
inductive Step : Threads T N → Event T → Threads T N → Prop
  | callPush {s : Threads T N} (item : T) : s.producer = .idle →
      Step s .proceed { s with producer := .loaded item s.ring.head }
  | push {s : Threads T N} {e : Event T} {pc : PushPc T N} {r : SpscRing T N} :
      s.producer.next s.ring = some (e, pc, r) → Step s e { s with ring := r, producer := pc }
  | callPop {s : Threads T N} : s.consumer = .idle →
      Step s .proceed { s with consumer := .loaded s.ring.tail }
  | pop {s : Threads T N} {e : Event T} {pc : PopPc T N} {r : SpscRing T N} :
      s.consumer.next s.ring = some (e, pc, r) → Step s e { s with ring := r, consumer := pc }

/-- The two threads, in any interleaving. -/
def system (T : Type*) (N : ℕ) : TransitionSystem (Threads T N) (Event T) := ⟨Step⟩

/-- Both threads idle. -/
def resting (r : SpscRing T N) : Threads T N := ⟨r, .idle, .idle⟩

/-- **An uninterrupted `push` is a run.** Its last event says what it returns. -/
theorem run_push (r : SpscRing T N) (item : T) :
    ∃ tr, (system T N).Run (resting r)
      (tr ++ [if (r.push item).2 then .pushed item else .full item])
      (resting (r.push item).1) := by
  have hcall : (system T N).Run (resting r) [.proceed] ⟨r, .loaded item r.head, .idle⟩ :=
    .single (.callPush item rfl)
  by_cases hfull : succ r.head = r.tail
  · have hpush : r.push item = (r, false) := if_pos hfull
    rw [hpush]
    exact ⟨_, hcall.snoc (.push (if_pos hfull))⟩
  · have hpush : r.push item = ({ r.setSlot r.head (some item) with head := succ r.head }, true) :=
      if_neg hfull
    rw [hpush]
    have hchecked := hcall.snoc (.push (if_neg hfull))
    have hwritten := hchecked.snoc (.push rfl)
    exact ⟨_, hwritten.snoc (.push rfl)⟩

/-- **An uninterrupted `pop` is a run.** -/
theorem run_pop (r : SpscRing T N) :
    ∃ tr, (system T N).Run (resting r) (tr ++ [if r.tail = r.head then .empty else .popped r.pop.2])
      (resting r.pop.1) := by
  have hcall : (system T N).Run (resting r) [.proceed] ⟨r, .idle, .loaded r.tail⟩ :=
    .single (.callPop rfl)
  by_cases hempty : r.tail = r.head
  · have hpop : r.pop = (r, none) := if_pos hempty
    rw [hpop, if_pos hempty]
    exact ⟨_, hcall.snoc (.pop (if_pos hempty))⟩
  · have hpop : r.pop = ({ r.setSlot r.tail none with tail := succ r.tail }, r.buffer r.tail) :=
      if_neg hempty
    rw [hpop, if_neg hempty]
    have hchecked := hcall.snoc (.pop (if_neg hempty))
    have htaken := hchecked.snoc (.pop rfl)
    exact ⟨_, htaken.snoc (.pop rfl)⟩

/-! ### Slots, counted from `tail` -/

/-- The slot `j` places behind `i`. -/
def slot (i : Fin N) (j : ℕ) : Fin N := ⟨(i.val + j) % N, Nat.mod_lt _ i.pos⟩

@[simp] theorem slot_zero (i : Fin N) : slot i 0 = i := Fin.ext (Nat.mod_eq_of_lt i.isLt)

theorem succ_slot (i : Fin N) (j : ℕ) : succ (slot i j) = slot i (j + 1) :=
  Fin.ext (Nat.mod_add_mod _ _ _)

theorem slot_succ (i : Fin N) (j : ℕ) : slot (succ i) j = slot i (j + 1) := by
  refine Fin.ext ((Nat.mod_add_mod _ _ _).trans ?_)
  rw [Nat.add_assoc, Nat.add_comm 1 j]
  rfl

/-- The slots fewer than `N` places behind are distinct. -/
theorem slot_inj {i : Fin N} {j k : ℕ} (hj : j < N) (hk : k < N) (h : slot i j = slot i k) :
    j = k := by
  have hmod : i.val + j ≡ i.val + k [MOD N] := Fin.val_eq_of_eq h
  have hjk : j ≡ k [MOD N] := hmod.add_left_cancel'
  rwa [Nat.ModEq, Nat.mod_eq_of_lt hj, Nat.mod_eq_of_lt hk] at hjk

/-- Once around. -/
theorem slot_self (i : Fin N) : slot i N = i := by
  refine Fin.ext ((Nat.add_mod_right _ _).trans (Nat.mod_eq_of_lt i.isLt))

theorem slot_eq_iff {i : Fin N} {j : ℕ} (hpos : 0 < j) (hj : j ≤ N) : slot i j = i ↔ j = N := by
  constructor
  · intro h
    by_contra hne
    have hzero := slot_inj (Nat.lt_of_le_of_ne hj hne) (Nat.zero_lt_of_lt i.isLt)
      (h.trans (slot_zero i).symm)
    omega
  · rintro rfl
    exact slot_self i

/-! ### The ring refines a bounded queue -/

/-- The item that has been written and whose `head` store is still to come. -/
def PushPc.pending : PushPc T N → Option T
  | .written item _ => some item
  | _ => none

/-- The front item has been taken, and its `tail` store is still to come. -/
def PopPc.hasTaken : PopPc T N → Bool
  | .taken _ _ => true
  | _ => false

/-- What is in the slot `j` places behind `tail`. -/
def layout (s : Threads T N) (q : List T) (j : ℕ) : Option T :=
  if s.consumer.hasTaken ∧ j = 0 then none
  else if j = q.length then s.producer.pending
  else q[j]?

/-- What the producer knows. -/
def PushPc.Knows (r : SpscRing T N) (q : List T) : PushPc T N → Prop
  | .idle => True
  | .loaded _ head => head = r.head
  | .checked _ head => head = r.head ∧ q.length + 1 < N
  | .written _ head => head = r.head ∧ q.length + 1 < N

/-- What the consumer knows. -/
def PopPc.Knows (r : SpscRing T N) (q : List T) : PopPc T N → Prop
  | .idle => True
  | .loaded tail => tail = r.tail
  | .checked tail => tail = r.tail ∧ q ≠ []
  | .taken tail item => tail = r.tail ∧ ∃ x, item = some x ∧ q.head? = some x

/-- What the producer knows stays true when an item leaves the queue. -/
theorem PushPc.Knows.pop {r : SpscRing T N} {x : T} {q : List T} {pc : PushPc T N} {i : Fin N}
    (h : pc.Knows r (x :: q)) : pc.Knows { r with tail := i } q := by
  cases pc with
  | idle => trivial
  | loaded item head => exact h
  | checked item head => exact ⟨h.1, Nat.lt_of_le_of_lt (Nat.le_succ _) h.2⟩
  | written item head => exact ⟨h.1, Nat.lt_of_le_of_lt (Nat.le_succ _) h.2⟩

/-- What the consumer knows stays true when an item is added. -/
theorem PopPc.Knows.push {r : SpscRing T N} {q : List T} {pc : PopPc T N} {i : Fin N}
    (h : pc.Knows r q) (x : T) : pc.Knows { r with head := i } (q ++ [x]) := by
  cases pc with
  | idle => trivial
  | loaded tail => exact h
  | checked tail => exact ⟨h.1, by simp⟩
  | taken tail item =>
    obtain ⟨htail, y, hitem, hy⟩ := h
    exact ⟨htail, y, hitem, by rw [List.head?_append, hy]; rfl⟩

/-- The state of the threads stands for the queue `q`. -/
structure Refines (s : Threads T N) (q : List T) : Prop where
  head_eq : s.ring.head = slot s.ring.tail q.length
  length_lt : q.length < N
  slots : ∀ j < N, s.ring.buffer (slot s.ring.tail j) = layout s q j
  producer : s.producer.Knows s.ring q
  consumer : s.consumer.Knows s.ring q

/-- What the queue sees of an event. -/
def Event.visible : Event T → Option (QueueEvent T)
  | .proceed => none
  | .pushed item => some (.push item)
  | .full item => some (.full item)
  | .popped item => item.map .pop
  | .empty => some .empty

theorem refines_new (hN : 0 < N) : Refines (resting (new hN : SpscRing T N)) [] where
  head_eq := (slot_zero _).symm
  length_lt := hN
  slots j _ := by
    show none = layout _ [] j
    simp [layout, resting, PopPc.hasTaken, PushPc.pending]
  producer := trivial
  consumer := trivial

section Step

variable {s : Threads T N} {q : List T}

theorem Refines.not_hasTaken_of_nil (h : Refines s q) (hq : q.length = 0) :
    s.consumer.hasTaken = false := by
  have hc := h.consumer
  rcases hpc : s.consumer with - | - | - | ⟨tail, item⟩
  · rfl
  · rfl
  · rfl
  · rw [hpc] at hc
    obtain ⟨-, x, -, hx⟩ := hc
    rw [List.length_eq_zero_iff.1 hq] at hx
    exact absurd hx (by simp)

/-- The slot that is written next is empty. -/
theorem Refines.buffer_head (h : Refines s q) (hp : s.producer.pending = none) :
    s.ring.buffer s.ring.head = none := by
  rw [h.head_eq, h.slots _ h.length_lt, layout, if_neg, if_pos rfl, hp]
  rintro ⟨htaken, hq⟩
  rw [h.not_hasTaken_of_nil hq] at htaken
  exact Bool.false_ne_true htaken

/-- The slot that is taken next holds the front item. -/
theorem Refines.buffer_tail (h : Refines s q) (ht : s.consumer.hasTaken = false) {x : T}
    (hx : q.head? = some x) : s.ring.buffer s.ring.tail = some x := by
  have hpos : 0 ≠ q.length := by
    rintro hq
    rw [List.length_eq_zero_iff.1 hq.symm] at hx
    exact absurd hx (by simp)
  have hslot := h.slots 0 (Nat.zero_lt_of_lt h.length_lt)
  rw [slot_zero] at hslot
  rw [hslot, layout, if_neg (by simp [ht]), if_neg hpos, ← List.head?_eq_getElem?, hx]

/-- **A step of the producer** is invisible to the queue, or a step of it. -/
theorem Refines.push_step (h : Refines s q) {e : Event T} {pc : PushPc T N} {r : SpscRing T N}
    (hnext : s.producer.next s.ring = some (e, pc, r)) :
    (e.visible = none ∧ Refines { s with ring := r, producer := pc } q) ∨
      ∃ b q', e.visible = some b ∧ (boundedQueue T (N - 1)).step q b q' ∧
        Refines { s with ring := r, producer := pc } q' := by
  have hlt := h.length_lt
  have hknows := h.producer
  have hslots := h.slots
  unfold layout at hslots
  rcases hpc : s.producer with - | ⟨item, head⟩ | ⟨item, head⟩ | ⟨item, head⟩ <;>
    rw [hpc] at hnext hknows hslots
  · exact absurd hnext (by simp [PushPc.next])
  · -- the load of `tail` decides
    obtain rfl : head = s.ring.head := hknows
    have hfull : succ s.ring.head = s.ring.tail ↔ q.length + 1 = N := by
      rw [h.head_eq, succ_slot, slot_eq_iff (Nat.succ_pos _) hlt]
    rw [PushPc.next] at hnext
    split_ifs at hnext with hcond
    · obtain ⟨rfl, rfl, rfl⟩ := by simpa using hnext
      have hcap := hfull.1 hcond
      refine Or.inr ⟨_, q, rfl, ⟨by omega, rfl⟩, h.head_eq, hlt, hslots, trivial, h.consumer⟩
    · obtain ⟨rfl, rfl, rfl⟩ := by simpa using hnext
      have hne : q.length + 1 ≠ N := fun heq ↦ hcond (hfull.2 heq)
      exact Or.inl ⟨rfl, h.head_eq, hlt, hslots, ⟨rfl, by omega⟩, h.consumer⟩
  · obtain ⟨rfl, hroom⟩ := hknows
    obtain ⟨rfl, rfl, rfl⟩ := by simpa [PushPc.next] using hnext
    refine Or.inl ⟨rfl, h.head_eq, hlt, fun j hj ↦ ?_, ⟨rfl, hroom⟩, h.consumer⟩
    show Function.update s.ring.buffer s.ring.head (some item) (slot s.ring.tail j) = _
    unfold layout
    by_cases hjq : j = q.length
    · subst hjq
      rw [← h.head_eq, Function.update_self, if_neg, if_pos rfl]
      · rfl
      · rintro ⟨htaken, hq⟩
        rw [h.not_hasTaken_of_nil hq] at htaken
        exact Bool.false_ne_true htaken
    · have hslot : slot s.ring.tail j ≠ s.ring.head := fun heq ↦
        hjq (slot_inj hj hlt (heq.trans h.head_eq))
      rw [Function.update_of_ne hslot, hslots j hj]
      simp only [if_neg hjq]
  · obtain ⟨rfl, hroom⟩ := hknows
    obtain ⟨rfl, rfl, rfl⟩ := by simpa [PushPc.next] using hnext
    refine Or.inr ⟨_, q ++ [item], rfl, ⟨by omega, rfl⟩, ?_, ?_, fun j hj ↦ ?_, trivial, ?_⟩
    · show succ s.ring.head = slot s.ring.tail (q ++ [item]).length
      rw [h.head_eq, succ_slot, List.length_append, List.length_singleton]
    · rw [List.length_append]
      exact hroom
    · show s.ring.buffer (slot s.ring.tail j) = _
      rw [hslots j hj]
      unfold layout
      rw [List.length_append, List.length_singleton]
      -- the pending item has become the last one of the queue
      rcases Nat.lt_trichotomy j q.length with hj' | rfl | hj'
      · simp only [if_neg (Nat.ne_of_lt hj'), if_neg (Nat.ne_of_lt (Nat.lt_succ_of_lt hj')),
          List.getElem?_append_left hj']
      · simp [PushPc.pending]
      · have hnone : q[j]? = none := List.getElem?_eq_none (Nat.le_of_lt hj')
        have hnone' : (q ++ [item])[j]? = none :=
          List.getElem?_eq_none (by rw [List.length_append]; exact hj')
        simp [Nat.ne_of_gt hj', hnone, hnone', PushPc.pending]
    · exact h.consumer.push item

/-- The consumer finds the ring empty exactly if the queue is. -/
theorem Refines.tail_eq_head_iff (h : Refines s q) : s.ring.tail = s.ring.head ↔ q = [] := by
  rw [h.head_eq]
  constructor
  · intro heq
    have hlen := slot_inj (Nat.zero_lt_of_lt h.length_lt) h.length_lt ((slot_zero _).trans heq)
    exact List.length_eq_zero_iff.1 hlen.symm
  · rintro rfl
    exact (slot_zero _).symm

/-- **A step of the consumer** is invisible to the queue, or a step of it. -/
theorem Refines.pop_step (h : Refines s q) {e : Event T} {pc : PopPc T N} {r : SpscRing T N}
    (hnext : s.consumer.next s.ring = some (e, pc, r)) :
    (e.visible = none ∧ Refines { s with ring := r, consumer := pc } q) ∨
      ∃ b q', e.visible = some b ∧ (boundedQueue T (N - 1)).step q b q' ∧
        Refines { s with ring := r, consumer := pc } q' := by
  have hlt := h.length_lt
  have hknows := h.consumer
  have hslots := h.slots
  unfold layout at hslots
  rcases hpc : s.consumer with - | tail | tail | ⟨tail, item⟩ <;>
    rw [hpc] at hnext hknows hslots
  · exact absurd hnext (by simp [PopPc.next])
  · -- the load of `head` decides
    obtain rfl : tail = s.ring.tail := hknows
    rw [PopPc.next] at hnext
    split_ifs at hnext with hcond
    · obtain ⟨rfl, rfl, rfl⟩ := by simpa using hnext
      exact Or.inr ⟨_, q, rfl, ⟨h.tail_eq_head_iff.1 hcond, rfl⟩,
        h.head_eq, hlt, hslots, h.producer, trivial⟩
    · obtain ⟨rfl, rfl, rfl⟩ := by simpa using hnext
      exact Or.inl ⟨rfl, h.head_eq, hlt, hslots, h.producer, rfl, mt h.tail_eq_head_iff.2 hcond⟩
  · obtain ⟨rfl, hq⟩ := hknows
    obtain ⟨rfl, rfl, rfl⟩ := by simpa [PopPc.next] using hnext
    obtain ⟨x, hx⟩ : ∃ x, q.head? = some x := Option.isSome_iff_exists.1 (by simpa using hq)
    have hfront := h.buffer_tail (by rw [hpc]; rfl) hx
    refine Or.inl ⟨rfl, h.head_eq, hlt, fun j hj ↦ ?_, h.producer, rfl, x, hfront, hx⟩
    show Function.update s.ring.buffer s.ring.tail none (slot s.ring.tail j) = _
    unfold layout
    by_cases hj0 : j = 0
    · subst hj0
      rw [slot_zero, Function.update_self, if_pos ⟨rfl, rfl⟩]
    · have hslot : slot s.ring.tail j ≠ s.ring.tail := fun heq ↦
        hj0 (slot_inj hj (Nat.zero_lt_of_lt hj) (heq.trans (slot_zero _).symm))
      rw [Function.update_of_ne hslot, hslots j hj]
      simp only [hj0, and_false, if_false]
  · obtain ⟨rfl, x, rfl, hx⟩ := hknows
    obtain ⟨rfl, rfl, rfl⟩ := by simpa [PopPc.next] using hnext
    obtain ⟨q', rfl⟩ : ∃ q', q = x :: q' := List.head?_eq_some_iff.1 hx
    rw [List.length_cons] at hlt
    refine Or.inr ⟨_, q', rfl, rfl, ?_, by omega, fun j hj ↦ ?_, ?_, trivial⟩
    · show s.ring.head = slot (succ s.ring.tail) q'.length
      rw [h.head_eq, slot_succ, List.length_cons]
    · show s.ring.buffer (slot (succ s.ring.tail) j) = _
      rw [slot_succ]
      unfold layout
      rw [if_neg (by simp [PopPc.hasTaken])]
      rcases Nat.lt_or_eq_of_le (Nat.succ_le_of_lt hj) with hj' | hj'
      · -- what was behind the front item moves up
        rw [hslots (j + 1) hj', if_neg (by simp), List.length_cons, List.getElem?_cons_succ]
        simp only [Nat.add_right_cancel_iff]
      · -- the slot just left is the last one now, and empty
        have hj'' : j + 1 = N := hj'
        have htail := hslots 0 (by omega)
        rw [slot_zero, if_pos ⟨rfl, rfl⟩] at htail
        rw [hj'', slot_self, htail, if_neg (by omega), List.getElem?_eq_none (by omega)]
    · exact h.producer.pop

end Step

/-- **The ring refines a queue of capacity `N - 1`.** -/
theorem run_refines (hN : 0 < N) {tr : List (Event T)} {s : Threads T N}
    (h : (system T N).Run (resting (new hN)) tr s) :
    ∃ q, (boundedQueue T (N - 1)).Run [] (tr.filterMap Event.visible) q ∧ Refines s q := by
  refine h.simulation (R := Refines) (refines_new hN) ?_
  intro s e t q hR hst
  cases hst with
  | callPush item hidle =>
    refine Or.inl ⟨rfl, hR.head_eq, hR.length_lt, fun j hj ↦ ?_, rfl, hR.consumer⟩
    have hslot := hR.slots j hj
    rw [layout, hidle] at hslot
    exact hslot
  | push hnext => exact hR.push_step hnext
  | callPop hidle =>
    refine Or.inl ⟨rfl, hR.head_eq, hR.length_lt, fun j hj ↦ ?_, hR.producer, rfl⟩
    have hslot := hR.slots j hj
    rw [layout, hidle] at hslot
    exact hslot
  | pop hnext => exact hR.pop_step hnext

/-! ### What the threads observe -/

/-- The items that were pushed, in order. -/
def pushed (tr : List (Event T)) : List T :=
  tr.filterMap fun
    | .pushed item => some item
    | _ => none

/-- What `pop` returned each time it advanced `tail`, in order. -/
def popped (tr : List (Event T)) : List (Option T) :=
  tr.filterMap fun
    | .popped item => some item
    | _ => none

/-- The consumer stands between its emptiness check and its `tail` store on the slot `i`. -/
def PopPc.Busy (i : Fin N) : PopPc T N → Prop
  | .checked tail => tail = i
  | .taken tail _ => tail = i
  | _ => False

theorem flatMap_input_visible (tr : List (Event T)) :
    (tr.filterMap Event.visible).flatMap QueueEvent.input = pushed tr := by
  induction tr with
  | nil => rfl
  | cons e tr ih =>
    cases e with
    | popped item =>
      cases item with
      | none => exact ih
      | some x => exact ih
    | pushed item => exact congrArg (item :: ·) ih
    | _ => exact ih

theorem flatMap_output_visible {tr : List (Event T)} (h : ∀ o, Event.popped o ∈ tr → o.isSome) :
    ((tr.filterMap Event.visible).flatMap QueueEvent.output).map some = popped tr := by
  induction tr with
  | nil => rfl
  | cons e tr ih =>
    have ih' := ih fun o ho ↦ h o (List.mem_cons_of_mem e ho)
    cases e with
    | popped item =>
      obtain ⟨x, rfl⟩ := Option.isSome_iff_exists.1 (h item List.mem_cons_self)
      exact congrArg (some x :: ·) ih'
    | _ => exact ih'

/-- Only the last step of `pop` shows what it took. -/
theorem taken_of_popped {s t : Threads T N} {o : Option T} (h : Step s (.popped o) t) :
    ∃ tail, s.consumer = .taken tail o := by
  cases h with
  | push hnext =>
    exfalso
    cases hpc : s.producer with
    | idle => simp [hpc, PushPc.next] at hnext
    | loaded item head =>
      rw [hpc, PushPc.next] at hnext
      split_ifs at hnext <;> simp at hnext
    | checked item head => simp [hpc, PushPc.next] at hnext
    | written item head => simp [hpc, PushPc.next] at hnext
  | pop hnext =>
    cases hpc : s.consumer with
    | idle => simp [hpc, PopPc.next] at hnext
    | loaded tail =>
      rw [hpc, PopPc.next] at hnext
      split_ifs at hnext <;> simp at hnext
    | checked tail => simp [hpc, PopPc.next] at hnext
    | taken tail item =>
      obtain ⟨rfl, -⟩ := by simpa [hpc, PopPc.next] using hnext
      exact ⟨tail, rfl⟩

/-- `pop` never advances past an empty slot. -/
theorem isSome_of_popped (hN : 0 < N) {tr : List (Event T)} {s : Threads T N}
    (h : (system T N).Run (resting (new hN)) tr s) {o : Option T} (ho : Event.popped o ∈ tr) :
    o.isSome := by
  obtain ⟨pre, post, rfl⟩ := List.append_of_mem ho
  obtain ⟨u, hpre, hpost⟩ := h.of_append
  obtain ⟨v, hst, -⟩ := hpost.of_cons
  obtain ⟨q, -, hR⟩ := run_refines hN hpre
  obtain ⟨tail, hpc⟩ := taken_of_popped hst
  have hknows := hR.consumer
  rw [hpc] at hknows
  obtain ⟨-, x, rfl, -⟩ := hknows
  rfl

/-- The slots between two indices. -/
theorem slot_sub (i : Fin N) {k : ℕ} (hk : k < N) : ((slot i k).val + N - i.val) % N = k := by
  have hi := i.isLt
  show ((i.val + k) % N + N - i.val) % N = k
  rcases Nat.lt_or_ge (i.val + k) N with hsmall | hwrap
  · have hsub : i.val + k + N - i.val = k + N := by omega
    rw [Nat.mod_eq_of_lt hsmall, hsub, Nat.add_mod_right, Nat.mod_eq_of_lt hk]
  · have hmod : (i.val + k) % N = i.val + k - N := by
      rw [Nat.mod_eq_sub_mod hwrap, Nat.mod_eq_of_lt (by omega)]
    have hsub : i.val + k - N + N - i.val = k := by omega
    rw [hmod, hsub, Nat.mod_eq_of_lt hk]

/-- `len` counts the items of the queue. -/
theorem Refines.len_eq {s : Threads T N} {q : List T} (h : Refines s q) :
    s.ring.len = q.length := by
  rw [len, h.head_eq, slot_sub _ h.length_lt]

/-- **The ring is a bounded FIFO queue**, in every interleaving of one producer and one consumer.
What has been popped is what has been pushed, in order, up to the at most `N - 1` items `q` that are
still in the ring, each in its slot; `pop` only ever advances past a slot that held an item; and a
slot that is about to be written is empty, and not one the consumer is busy with. -/
theorem bounded_fifo (hN : 0 < N) {tr : List (Event T)} {s : Threads T N}
    (h : (system T N).Run (resting (new hN)) tr s) :
    (∃ q : List T, (pushed tr).map some = popped tr ++ q.map some ∧ q.length ≤ N - 1 ∧
      s.ring.len = q.length ∧ ∀ j x, q[j]? = some x → (j = 0 → s.consumer.hasTaken = false) →
        s.ring.buffer (slot s.ring.tail j) = some x) ∧
    (∀ i, s.consumer = .checked i → (s.ring.buffer i).isSome) ∧
    (∀ i o, s.consumer = .taken i o → o.isSome) ∧
    ∀ item i, s.producer = .checked item i → s.ring.buffer i = none ∧ ¬s.consumer.Busy i := by
  obtain ⟨q, hqueue, hR⟩ := run_refines hN h
  obtain ⟨hfifo, hcap⟩ := boundedQueue_run hqueue
  have hknows := hR.consumer
  refine ⟨⟨q, ?_, hcap, hR.len_eq, ?_⟩, ?_, ?_, ?_⟩
  · rw [← flatMap_input_visible, hfifo, List.map_append,
      flatMap_output_visible fun o ↦ isSome_of_popped hN h]
  · intro j x hx htaken
    obtain ⟨hj, -⟩ := List.getElem?_eq_some_iff.1 hx
    have hnot : ¬(s.consumer.hasTaken ∧ j = 0) := by
      rintro ⟨hyes, hzero⟩
      rw [htaken hzero] at hyes
      exact Bool.false_ne_true hyes
    rw [hR.slots j (Nat.lt_trans hj hR.length_lt), layout, if_neg hnot,
      if_neg (Nat.ne_of_lt hj), hx]
  · intro i hpc
    rw [hpc] at hknows
    obtain ⟨rfl, hne⟩ := hknows
    obtain ⟨x, hx⟩ : ∃ x, q.head? = some x := Option.isSome_iff_exists.1 (by simpa using hne)
    rw [hR.buffer_tail (by rw [hpc]; rfl) hx]
    rfl
  · intro i o hpc
    rw [hpc] at hknows
    obtain ⟨-, x, rfl, -⟩ := hknows
    rfl
  · intro item i hpc
    have hproducer := hR.producer
    rw [hpc] at hproducer
    obtain ⟨rfl, -⟩ := hproducer
    refine ⟨hR.buffer_head (by rw [hpc]; rfl), fun hbusy ↦ ?_⟩
    -- the consumer is busy with `tail`, and the queue is not empty
    obtain ⟨htail, hne⟩ : s.ring.tail = s.ring.head ∧ q ≠ [] := by
      cases hc : s.consumer with
      | idle =>
        rw [hc] at hbusy
        exact hbusy.elim
      | loaded tail =>
        rw [hc] at hbusy
        exact hbusy.elim
      | checked tail =>
        rw [hc] at hbusy hknows
        exact ⟨hknows.1.symm.trans hbusy, hknows.2⟩
      | taken tail o =>
        rw [hc] at hbusy hknows
        obtain ⟨ht, x, -, hx⟩ := hknows
        exact ⟨ht.symm.trans hbusy, fun hq ↦ absurd hx (by simp [hq])⟩
    have hzero := slot_inj (Nat.zero_lt_of_lt hR.length_lt) hR.length_lt
      ((slot_zero _).trans (htail.trans hR.head_eq))
    exact hne (List.length_eq_zero_iff.1 hzero.symm)

/-- On a ring of three slots the consumer takes the first item while the producer is pushing the
second one: the first item has come out, and the second one is in the ring. -/
theorem bounded_fifo_three :
    ∃ tr s, (system ℕ 3).Run (resting (new (by decide))) tr s ∧ pushed tr = [7, 8] ∧
      popped tr = [some 7] ∧ s.ring.len = 1 := by
  set r₀ : SpscRing ℕ 3 := new (by decide)
  have hcall : (system ℕ 3).Run (resting r₀) [.proceed] ⟨r₀, .loaded 7 r₀.head, .idle⟩ :=
    .single (.callPush 7 rfl)
  have hfirst := ((hcall.snoc (.push rfl)).snoc (.push rfl)).snoc (.push rfl)
  have hboth := ((hfirst.snoc (.callPop rfl)).snoc (.callPush 8 rfl)).snoc (.pop rfl)
  have hrun := ((((hboth.snoc (.push rfl)).snoc (.push rfl)).snoc (.pop rfl)).snoc (.push rfl)).snoc
    (.pop rfl)
  refine ⟨_, _, hrun, rfl, rfl, ?_⟩
  obtain ⟨⟨q, hq, -, hlen, -⟩, -⟩ := bounded_fifo (by decide) hrun
  have hone : q.map some = [some 8] := (List.cons_inj_right (some 7)).1 hq.symm
  rw [hlen, ← List.length_map some, hone]
  rfl

end SpscRing

end UserspaceRouter
