import UserspaceRouter.Mem.Channel
import UserspaceRouter.Mem.Ring

/-!
# A channel in use

The two handles of a channel share a control block: the ring, and a flag for each of them that says
whether it still exists. Besides pushing and popping, a handle can ask whether the other one has
been dropped (`is_closed`) and how many items are in the ring (`len`). Neither is a snapshot: `len`
is two loads, and by the time an answer is used the other side may have moved on. This module says
what the answers are good for all the same.

* `len` is a promise to the one who asked (`len_is_a_promise`). The consumer can pop as many items
  as it was told there are, and the producer can push as many as there was room for: what the other
  side does in the meantime can only help.
* A consumer that has seen the channel closed **and then** finds it empty has had everything
  (`closed_then_empty_is_the_end`). The order of the two questions matters.

The accesses of both handles are sequentially consistent and interleave freely. What happens to the
control block when both handles are gone is the subject of `Teardown`; here the handle that acts is
there, and with it the block (`Teardown.frees_eq_zero_of_live`).
-/

namespace UserspaceRouter

open TransitionSystem

namespace SpscRing

variable {T : Type*} {N : ℕ}

/-! ### The two sides of the ring -/

/-- A step of the producer. -/
inductive Produces : Threads T N → Event T → Threads T N → Prop
  | call {s : Threads T N} (item : T) : s.producer = .idle →
      Produces s .proceed { s with producer := .loaded item s.ring.head }
  | next {s : Threads T N} {e : Event T} {pc : PushPc T N} {r : SpscRing T N} :
      s.producer.next s.ring = some (e, pc, r) → Produces s e { s with ring := r, producer := pc }

/-- A step of the consumer. -/
inductive Consumes : Threads T N → Event T → Threads T N → Prop
  | call {s : Threads T N} : s.consumer = .idle →
      Consumes s .proceed { s with consumer := .loaded s.ring.tail }
  | next {s : Threads T N} {e : Event T} {pc : PopPc T N} {r : SpscRing T N} :
      s.consumer.next s.ring = some (e, pc, r) → Consumes s e { s with ring := r, consumer := pc }

theorem step_iff {s t : Threads T N} {e : Event T} :
    Step s e t ↔ Produces s e t ∨ Consumes s e t := by
  constructor
  · intro h
    cases h with
    | callPush item hidle => exact Or.inl (.call item hidle)
    | push hnext => exact Or.inl (.next hnext)
    | callPop hidle => exact Or.inr (.call hidle)
    | pop hnext => exact Or.inr (.next hnext)
  · rintro (h | h)
    · cases h with
      | call item hidle => exact .callPush item hidle
      | next hnext => exact .push hnext
    · cases h with
      | call hidle => exact .callPop hidle
      | next hnext => exact .pop hnext

/-- What a step of the producer leaves alone, and what it can show. -/
theorem Produces.spec {s t : Threads T N} {e : Event T} (h : Produces s e t) :
    t.consumer = s.consumer ∧ t.ring.tail = s.ring.tail ∧
      (e.visible = none ∨ ∃ x, e.visible = some (.push x) ∨ e.visible = some (.full x)) := by
  cases h with
  | call item hidle => exact ⟨rfl, rfl, Or.inl rfl⟩
  | @next e pc r hnext =>
    rcases hpc : s.producer with - | ⟨item, head⟩ | ⟨item, head⟩ | ⟨item, head⟩ <;>
      rw [hpc, PushPc.next] at hnext
    · cases hnext
    · split_ifs at hnext
      · obtain ⟨rfl, rfl, rfl⟩ := by simpa using hnext
        exact ⟨rfl, rfl, Or.inr ⟨item, Or.inr rfl⟩⟩
      · obtain ⟨rfl, rfl, rfl⟩ := by simpa using hnext
        exact ⟨rfl, rfl, Or.inl rfl⟩
    · obtain ⟨rfl, rfl, rfl⟩ := by simpa using hnext
      exact ⟨rfl, rfl, Or.inl rfl⟩
    · obtain ⟨rfl, rfl, rfl⟩ := by simpa using hnext
      exact ⟨rfl, rfl, Or.inr ⟨item, Or.inl rfl⟩⟩

/-- What a step of the consumer leaves alone; and it puts nothing into the queue. -/
theorem Consumes.spec {s t : Threads T N} {e : Event T} (h : Consumes s e t) :
    t.producer = s.producer ∧ t.ring.head = s.ring.head ∧ ∀ b ∈ e.visible, b.input = [] := by
  cases h with
  | call hidle => exact ⟨rfl, rfl, fun _ hb ↦ by cases hb⟩
  | @next e pc r hnext =>
    rcases hpc : s.consumer with - | tail | tail | ⟨tail, item⟩ <;> rw [hpc, PopPc.next] at hnext
    · cases hnext
    · split_ifs at hnext
      · obtain ⟨rfl, rfl, rfl⟩ := by simpa using hnext
        exact ⟨rfl, rfl, by rintro b ⟨⟩; rfl⟩
      · obtain ⟨rfl, rfl, rfl⟩ := by simpa using hnext
        exact ⟨rfl, rfl, fun _ hb ↦ by cases hb⟩
    · obtain ⟨rfl, rfl, rfl⟩ := by simpa using hnext
      exact ⟨rfl, rfl, fun _ hb ↦ by cases hb⟩
    · obtain ⟨rfl, rfl, rfl⟩ := by simpa using hnext
      refine ⟨rfl, rfl, ?_⟩
      cases item with
      | none =>
        rintro b ⟨⟩
      | some x =>
        rintro b ⟨⟩
        rfl

/-- **One step of the ring** is invisible to the queue, or a step of it. -/
theorem Refines.step {s t : Threads T N} {q : List T} {e : Event T} (h : Refines s q)
    (hst : Step s e t) : (e.visible = none ∧ Refines t q) ∨
      ∃ b q', e.visible = some b ∧ (boundedQueue T (N - 1)).step q b q' ∧ Refines t q' := by
  have hsame : ∀ producer consumer, PushPc.pending producer = s.producer.pending →
      PopPc.hasTaken consumer = s.consumer.hasTaken → producer.Knows s.ring q →
      consumer.Knows s.ring q → Refines ⟨s.ring, producer, consumer⟩ q := by
    intro producer consumer hpending htaken hproducer hconsumer
    refine ⟨h.head_eq, h.length_lt, fun j hj ↦ (h.slots j hj).trans ?_, hproducer, hconsumer⟩
    simp only [layout, hpending, htaken]
  cases hst with
  | callPush item hidle =>
    exact Or.inl ⟨rfl, hsame _ _ (by rw [hidle]; rfl) rfl rfl h.consumer⟩
  | push hnext => exact h.push_step hnext
  | callPop hidle => exact Or.inl ⟨rfl, hsame _ _ rfl (by rw [hidle]; rfl) h.producer rfl⟩
  | pop hnext => exact h.pop_step hnext

end SpscRing

open SpscRing

/-! ### The control block -/

/-- `ControlBlock`: the ring with its two threads, the flags `has_rx` and `has_tx`, and for each
handle the `head` that a `len` in progress has loaded. -/
structure ControlBlock (T : Type*) (N : ℕ) where
  threads : Threads T N
  flag : Handle → Bool
  lenPc : Handle → Option (Fin N)

namespace ControlBlock

variable {T : Type*} {N : ℕ}

/-- What happens at a channel. -/
inductive Event (T : Type*)
  | ring (e : SpscRing.Event T)
  /-- `is_closed` returns. -/
  | closed (a : Handle) (answer : Bool)
  /-- The first load of `len`. -/
  | lenHead (a : Handle)
  /-- `len` returns. -/
  | len (a : Handle) (n : ℕ)
  /-- The handle is dropped: its flag is cleared. -/
  | drop (a : Handle)

/-- `channel`: an empty ring and two handles. -/
def channel (hN : 0 < N) : ControlBlock T N := ⟨resting (new hN), fun _ ↦ true, fun _ ↦ none⟩

/-- The handle is there, and its thread is not in the middle of a method. -/
def Ready (s : ControlBlock T N) (a : Handle) : Prop :=
  s.flag a = true ∧ s.lenPc a = none ∧
    match a with
    | .tx => s.threads.producer = .idle
    | .rx => s.threads.consumer = .idle

/-- One access of one of the handles. -/
inductive Step : ControlBlock T N → Event T → ControlBlock T N → Prop
  | produce {s : ControlBlock T N} {e : SpscRing.Event T} {threads : Threads T N}
      (hlive : s.flag .tx = true) (hlen : s.lenPc .tx = none)
      (hst : Produces s.threads e threads) : Step s (.ring e) { s with threads }
  | consume {s : ControlBlock T N} {e : SpscRing.Event T} {threads : Threads T N}
      (hlive : s.flag .rx = true) (hlen : s.lenPc .rx = none)
      (hst : Consumes s.threads e threads) : Step s (.ring e) { s with threads }
  | isClosed {s : ControlBlock T N} {a : Handle} (hready : s.Ready a) :
      Step s (.closed a !(s.flag a.peer)) s
  | lenHead {s : ControlBlock T N} {a : Handle} (hready : s.Ready a) :
      Step s (.lenHead a)
        { s with lenPc := Function.update s.lenPc a (some s.threads.ring.head) }
  | lenTail {s : ControlBlock T N} {a : Handle} {head : Fin N} (hpc : s.lenPc a = some head) :
      Step s (.len a ((head.val + N - s.threads.ring.tail.val) % N))
        { s with lenPc := Function.update s.lenPc a none }
  | drop {s : ControlBlock T N} {a : Handle} (hready : s.Ready a) :
      Step s (.drop a) { s with flag := Function.update s.flag a false }

/-- The two handles, in any interleaving. -/
def system (T : Type*) (N : ℕ) : TransitionSystem (ControlBlock T N) (Event T) := ⟨Step⟩

/-- What the queue sees of an event. -/
def Event.visible : Event T → Option (QueueEvent T)
  | .ring e => e.visible
  | .closed _ _ | .lenHead _ | .len _ _ | .drop _ => none

/-- The items that have been pushed, in order. -/
def pushed (tr : List (Event T)) : List T := (tr.filterMap Event.visible).flatMap QueueEvent.input

/-- The items that have been popped, in order. -/
def popped (tr : List (Event T)) : List T := (tr.filterMap Event.visible).flatMap QueueEvent.output

/-! ### The invariant -/

/-- The channel stands for the queue `q`. A consumer that has loaded `head` knows of some of the
items, and a producer that has loaded it knows its own index; and a producer that has been dropped
is at rest. -/
structure Stands (s : ControlBlock T N) (q : List T) : Prop where
  ring : SpscRing.Refines s.threads q
  lenRx : ∀ head, s.lenPc .rx = some head →
    ∃ k ≤ q.length, head = slot s.threads.ring.tail k
  lenTx : ∀ head, s.lenPc .tx = some head →
    s.threads.producer = .idle ∧ head = s.threads.ring.head
  dropped : s.flag .tx = false → s.threads.producer = .idle

variable {s t : ControlBlock T N} {q : List T}

theorem stands_channel (hN : 0 < N) : (channel hN : ControlBlock T N).Stands [] :=
  ⟨refines_new hN, fun _ h ↦ absurd h nofun, fun _ h ↦ absurd h nofun, fun h ↦ absurd h nofun⟩

/-- Nothing but the pending `len` of one handle and the flags changes. -/
theorem Stands.of_lenPc (h : s.Stands q) {flag : Handle → Bool} {lenPc : Handle → Option (Fin N)}
    (hrx : ∀ head, lenPc .rx = some head → ∃ k ≤ q.length, head = slot s.threads.ring.tail k)
    (htx : ∀ head, lenPc .tx = some head →
      s.threads.producer = .idle ∧ head = s.threads.ring.head)
    (hflag : flag .tx = false → s.threads.producer = .idle) :
    Stands ⟨s.threads, flag, lenPc⟩ q := ⟨h.ring, hrx, htx, hflag⟩

/-- A step of the producer: the queue does not become shorter, and `tail` does not move. -/
theorem Stands.produce (h : s.Stands q) {e : SpscRing.Event T} {threads : Threads T N}
    (hlive : s.flag .tx = true) (hlen : s.lenPc .tx = none)
    (hst : Produces s.threads e threads) :
    (e.visible = none ∧ Stands { s with threads } q) ∨
      ∃ b q', e.visible = some b ∧ (boundedQueue T (N - 1)).step q b q' ∧
        Stands { s with threads } q' := by
  obtain ⟨-, htail, hevent⟩ := hst.spec
  have hstands : ∀ q', q.length ≤ q'.length → SpscRing.Refines threads q' →
      Stands { s with threads } q' := by
    refine fun q' hle hR ↦ ⟨hR, fun head hhead ↦ ?_, fun head hhead ↦ ?_, fun hflag ↦ ?_⟩
    · obtain ⟨k, hk, rfl⟩ := h.lenRx head hhead
      exact ⟨k, Nat.le_trans hk hle, by rw [htail]⟩
    · exact absurd (hlen.symm.trans hhead) nofun
    · exact absurd (hlive.symm.trans hflag) nofun
  rcases h.ring.step (step_iff.2 (Or.inl hst)) with ⟨hnone, hR⟩ | ⟨b, q', hsome, hqueue, hR⟩
  · exact Or.inl ⟨hnone, hstands q le_rfl hR⟩
  · refine Or.inr ⟨b, q', hsome, hqueue, hstands q' ?_ hR⟩
    rcases hevent with hnone | ⟨x, hpush | hfull⟩
    · exact absurd (hnone.symm.trans hsome) nofun
    · obtain rfl := Option.some.inj (hpush.symm.trans hsome)
      obtain ⟨-, rfl⟩ := hqueue
      simp
    · obtain rfl := Option.some.inj (hfull.symm.trans hsome)
      obtain ⟨-, rfl⟩ := hqueue
      exact le_rfl

/-- A step of the consumer: what the producer knows does not change. -/
theorem Stands.consume (h : s.Stands q) {e : SpscRing.Event T} {threads : Threads T N}
    (hlen : s.lenPc .rx = none) (hst : Consumes s.threads e threads) :
    (e.visible = none ∧ Stands { s with threads } q) ∨
      ∃ b q', e.visible = some b ∧ (boundedQueue T (N - 1)).step q b q' ∧
        Stands { s with threads } q' := by
  obtain ⟨hproducer, hhead, -⟩ := hst.spec
  have hstands : ∀ q', SpscRing.Refines threads q' → Stands { s with threads } q' := by
    refine fun q' hR ↦ ⟨hR, fun head hpc ↦ absurd (hlen.symm.trans hpc) nofun, ?_, ?_⟩
    · show ∀ head, s.lenPc .tx = some head → threads.producer = .idle ∧ head = threads.ring.head
      rw [hproducer, hhead]
      exact h.lenTx
    · show s.flag .tx = false → threads.producer = .idle
      rw [hproducer]
      exact h.dropped
  rcases h.ring.step (step_iff.2 (Or.inr hst)) with ⟨hnone, hR⟩ | ⟨b, q', hsome, hqueue, hR⟩
  · exact Or.inl ⟨hnone, hstands q hR⟩
  · exact Or.inr ⟨b, q', hsome, hqueue, hstands q' hR⟩

/-- The first load of `len`. -/
theorem Stands.lenHead (h : s.Stands q) {a : Handle} (hready : s.Ready a) :
    Stands { s with lenPc := Function.update s.lenPc a (some s.threads.ring.head) } q := by
  refine h.of_lenPc (fun head hpc ↦ ?_) (fun head hpc ↦ ?_) h.dropped
  · cases a with
    | rx =>
      rw [Function.update_self] at hpc
      exact ⟨q.length, le_rfl, (Option.some.inj hpc).symm.trans h.ring.head_eq⟩
    | tx =>
      rw [Function.update_of_ne (by decide)] at hpc
      exact h.lenRx head hpc
  · cases a with
    | rx =>
      rw [Function.update_of_ne (by decide)] at hpc
      exact h.lenTx head hpc
    | tx =>
      rw [Function.update_self] at hpc
      exact ⟨hready.2.2, (Option.some.inj hpc).symm⟩

/-- The second load of `len`: a pending `len` only goes away. -/
theorem Stands.lenTail (h : s.Stands q) (a : Handle) :
    Stands { s with lenPc := Function.update s.lenPc a none } q := by
  have hold : ∀ b head, Function.update s.lenPc a none b = some head → s.lenPc b = some head := by
    intro b head hpc
    by_cases hb : b = a
    · rw [hb, Function.update_self] at hpc
      exact absurd hpc nofun
    · rwa [Function.update_of_ne hb] at hpc
  exact h.of_lenPc (fun head hpc ↦ h.lenRx head (hold _ head hpc))
    (fun head hpc ↦ h.lenTx head (hold _ head hpc)) h.dropped

/-- **One step of the channel** is invisible to the queue, or a step of it. -/
theorem Stands.step (h : s.Stands q) {e : Event T} (hst : Step s e t) :
    (e.visible = none ∧ t.Stands q) ∨
      ∃ b q', e.visible = some b ∧ (boundedQueue T (N - 1)).step q b q' ∧ t.Stands q' := by
  cases hst with
  | produce hlive hlen hst => exact h.produce hlive hlen hst
  | consume hlive hlen hst => exact h.consume hlen hst
  | isClosed hready => exact Or.inl ⟨rfl, h⟩
  | lenHead hready => exact Or.inl ⟨rfl, h.lenHead hready⟩
  | @lenTail a head hpc => exact Or.inl ⟨rfl, h.lenTail a⟩
  | @drop a hready =>
    refine Or.inl ⟨rfl, h.of_lenPc h.lenRx h.lenTx fun hflag ↦ ?_⟩
    cases a with
    | rx =>
      rw [Function.update_of_ne (by decide)] at hflag
      exact h.dropped hflag
    | tx => exact hready.2.2

/-- **A channel refines a queue of capacity `N - 1`**, from any state that stands for one. -/
theorem Stands.run (h : s.Stands q) {tr : List (Event T)} (hrun : (system T N).Run s tr t) :
    ∃ q', (boundedQueue T (N - 1)).Run q (tr.filterMap Event.visible) q' ∧ t.Stands q' :=
  hrun.simulation h fun _ _ _ _ hR hst ↦ hR.step hst

/-! ### What the answers are good for -/

/-- What the consumer was told is in the queue. -/
theorem Stands.len_rx (h : s.Stands q) {n : ℕ} (hst : Step s (.len .rx n) t) : n ≤ q.length := by
  cases hst with
  | lenTail hpc =>
    obtain ⟨k, hk, rfl⟩ := h.lenRx _ hpc
    rw [slot_sub _ (Nat.lt_of_le_of_lt hk h.ring.length_lt)]
    exact hk

/-- What the producer was told is what is in the queue. -/
theorem Stands.len_tx (h : s.Stands q) {n : ℕ} (hst : Step s (.len .tx n) t) : n = q.length := by
  cases hst with
  | lenTail hpc =>
    obtain ⟨-, rfl⟩ := h.lenTx _ hpc
    rw [h.ring.head_eq, slot_sub _ h.ring.length_lt]

/-- What the queue sees is a step of it. -/
theorem Stands.step_visible (h : s.Stands q) {e : Event T} (hst : Step s e t)
    {b : QueueEvent T} (hb : e.visible = some b) :
    ∃ q', (boundedQueue T (N - 1)).step q b q' := by
  rcases h.step hst with ⟨hnone, -⟩ | ⟨b', q', hsome, hqueue, -⟩
  · exact absurd (hnone.symm.trans hb) nofun
  · obtain rfl := Option.some.inj (hsome.symm.trans hb)
    exact ⟨q', hqueue⟩

/-- `pop` finds nothing only if the queue is empty. -/
theorem Stands.eq_nil_of_empty (h : s.Stands q) (hst : Step s (.ring .empty) t) : q = [] := by
  obtain ⟨q', hqueue⟩ := h.step_visible hst rfl
  exact hqueue.1

/-- `push` fails only if the queue is full. -/
theorem Stands.length_of_full (h : s.Stands q) {x : T} (hst : Step s (.ring (.full x)) t) :
    q.length = N - 1 := by
  obtain ⟨q', hqueue⟩ := h.step_visible hst rfl
  exact hqueue.1

/-- A producer that is gone does not come back, and nothing is pushed any more. -/
theorem Step.of_dropped {e : Event T} (hst : Step s e t) (h : s.flag .tx = false) :
    t.flag .tx = false ∧ ∀ b ∈ e.visible, b.input = [] := by
  cases hst with
  | produce hlive => exact absurd (hlive.symm.trans h) nofun
  | consume _ _ hst => exact ⟨h, hst.spec.2.2⟩
  | isClosed | lenHead | lenTail => exact ⟨h, nofun⟩
  | @drop a hready =>
    refine ⟨?_, nofun⟩
    show Function.update s.flag a false .tx = false
    cases a with
    | rx => rwa [Function.update_of_ne (by decide)]
    | tx => exact Function.update_self ..

theorem pushed_append (tr tr' : List (Event T)) : pushed (tr ++ tr') = pushed tr ++ pushed tr' := by
  simp [pushed]

/-- Nothing is pushed after the producer is gone. -/
theorem pushed_of_dropped {tr : List (Event T)} (h : (system T N).Run s tr t)
    (hflag : s.flag .tx = false) : pushed tr = [] := by
  have hboth : pushed tr = [] ∧ t.flag .tx = false := by
    refine h.history (I := fun tr t ↦ pushed tr = [] ∧ t.flag .tx = false) ⟨rfl, hflag⟩ ?_
    rintro tr s e t ⟨hpushed, hs⟩ hst
    obtain ⟨ht, hinput⟩ := Step.of_dropped hst hs
    refine ⟨?_, ht⟩
    rw [pushed_append, hpushed, List.nil_append, pushed]
    cases hvisible : e.visible with
    | none => simp [hvisible]
    | some b => simp [hvisible, hinput b hvisible]
  exact hboth.1

/-- **`len` is a promise to the one who asked**, in every interleaving of the two handles. After the
consumer's `len` has returned `n`, no `pop` finds the ring empty before `n` items have been popped;
and after the producer's `len` has returned `n`, no `push` finds it full before `N - 1 - n` items
have been pushed. -/
theorem len_is_a_promise (hN : 0 < N) {tr later : List (Event T)} {a : Handle} {n : ℕ}
    {e : Event T} (h : (system T N).Run (channel hN) (tr ++ [.len a n] ++ later ++ [e]) s) :
    (a = .rx → e = .ring .empty → n ≤ (popped later).length) ∧
    (a = .tx → ∀ x, e = .ring (.full x) → N - 1 - n ≤ (pushed later).length) := by
  obtain ⟨u, hu, hlast⟩ := h.of_snoc
  obtain ⟨v, hv, hlater⟩ := hu.of_append
  obtain ⟨w, hw, hst⟩ := hv.of_snoc
  obtain ⟨q, -, hq⟩ := (stands_channel hN).run hw
  have hv' : v.Stands q := by
    rcases hq.step hst with ⟨-, hv'⟩ | ⟨b, q', hsome, -⟩
    · exact hv'
    · exact absurd hsome nofun
  obtain ⟨q', hqueue, hu'⟩ := hv'.run hlater
  -- what was in the queue and what came in is what went out and what is left
  have hlaw : q.length + (pushed later).length = (popped later).length + q'.length := by
    rw [← List.length_append, ← List.length_append]
    exact congrArg List.length (boundedQueue_conserves hqueue)
  constructor
  · rintro rfl rfl
    have hn := hq.len_rx hst
    rw [hu'.eq_nil_of_empty hlast, List.length_nil] at hlaw
    omega
  · rintro rfl x rfl
    have hn := hq.len_tx hst
    have hfull := hu'.length_of_full hlast
    omega

/-- An item is pushed into a ring of two slots. -/
theorem run_push_seven : (system ℕ 2).Run (channel (by decide))
    [.ring .proceed, .ring .proceed, .ring .proceed, .ring (.pushed 7)]
    ⟨⟨⟨1, 0, Function.update (fun _ ↦ none) 0 (some 7)⟩, .idle, .idle⟩, fun _ ↦ true,
      fun _ ↦ none⟩ := by
  have hnil : (system ℕ 2).Run (channel (by decide)) [] (channel (by decide)) := .nil
  exact hnil.snoc (Step.produce rfl rfl (.call 7 rfl))
    |>.snoc (Step.produce rfl rfl (.next rfl))
    |>.snoc (Step.produce rfl rfl (.next rfl))
    |>.snoc (Step.produce rfl rfl (.next rfl))

/-- The consumer is told that there is one item, and pops it before it finds the ring empty. -/
theorem len_is_a_promise_one : ∃ (tr later : List (Event ℕ)) (s : ControlBlock ℕ 2),
    (system ℕ 2).Run (channel (by decide)) (tr ++ [.len .rx 1] ++ later ++ [.ring .empty]) s ∧
    1 ≤ (popped later).length := by
  have hlen := run_push_seven.snoc (Step.lenHead (a := .rx) ⟨rfl, rfl, rfl⟩)
    |>.snoc (Step.lenTail (a := .rx) rfl)
  have hempty := hlen.snoc (Step.consume rfl rfl (.call rfl))
    |>.snoc (Step.consume rfl rfl (.next rfl))
    |>.snoc (Step.consume rfl rfl (.next rfl))
    |>.snoc (Step.consume rfl rfl (.next rfl))
    |>.snoc (Step.consume rfl rfl (.call rfl))
    |>.snoc (Step.consume rfl rfl (.next rfl))
  have hrun : (system ℕ 2).Run (channel (by decide))
      ([.ring .proceed, .ring .proceed, .ring .proceed, .ring (.pushed 7), .lenHead .rx] ++
        [.len .rx 1] ++ [.ring .proceed, .ring .proceed, .ring .proceed,
          .ring (.popped (some 7)), .ring .proceed] ++ [.ring .empty]) _ := hempty
  exact ⟨_, _, _, hrun, (len_is_a_promise _ hrun).1 rfl rfl⟩

/-- **The end of the stream.** If the consumer has seen that the channel is closed, and a later
`pop` finds it empty, then it had popped, in order, everything that is ever pushed. -/
theorem closed_then_empty_is_the_end (hN : 0 < N) {tr mid later : List (Event T)}
    (h : (system T N).Run (channel hN)
      (tr ++ [.closed .rx true] ++ mid ++ [.ring .empty] ++ later) s) :
    popped (tr ++ [.closed .rx true] ++ mid) =
      pushed (tr ++ [.closed .rx true] ++ mid ++ [.ring .empty] ++ later) := by
  obtain ⟨x, hx, hlater⟩ := h.of_append
  obtain ⟨u, hu, hempty⟩ := hx.of_snoc
  obtain ⟨v, hv, hmid⟩ := hu.of_append
  obtain ⟨w, hw, hst⟩ := hv.of_snoc
  obtain ⟨q, hqueue, hq⟩ := (stands_channel hN).run hu
  have hlaw : pushed (tr ++ [.closed .rx true] ++ mid) =
      popped (tr ++ [.closed .rx true] ++ mid) ++ q := boundedQueue_conserves hqueue
  rw [hq.eq_nil_of_empty hempty, List.append_nil] at hlaw
  -- the answer of `is_closed` is the producer's flag
  have hflag : v.flag .tx = false := by
    generalize he : Event.closed Handle.rx true = e at hst
    cases hst with
    | isClosed hready =>
      obtain ⟨rfl, hanswer⟩ := Event.closed.inj he
      simpa [Handle.peer] using hanswer.symm
    | produce | consume | lenHead | lenTail | drop => cases he
  have hafter : pushed ([.ring .empty] ++ later) = [] := by
    have hrun := hmid.trans ((Run.single hempty).trans hlater)
    have hnone := pushed_of_dropped hrun hflag
    rw [pushed_append] at hnone
    exact (List.append_eq_nil_iff.1 hnone).2
  rw [List.append_assoc _ _ later, pushed_append, hafter, List.append_nil, hlaw]

/-- One item goes through a ring of two slots, and `Tx` is dropped before it is popped. -/
theorem closed_then_empty_is_the_end_one : ∃ (tr mid later : List (Event ℕ)) (s : ControlBlock ℕ 2),
    (system ℕ 2).Run (channel (by decide))
      (tr ++ [.closed .rx true] ++ mid ++ [.ring .empty] ++ later) s ∧
    popped (tr ++ [.closed .rx true] ++ mid) = [7] := by
  have hclosed := run_push_seven.snoc (Step.drop (a := .tx) ⟨rfl, rfl, rfl⟩)
    |>.snoc (Step.isClosed (a := .rx) ⟨rfl, rfl, rfl⟩)
  have hempty := hclosed.snoc (Step.consume rfl rfl (.call rfl))
    |>.snoc (Step.consume rfl rfl (.next rfl))
    |>.snoc (Step.consume rfl rfl (.next rfl))
    |>.snoc (Step.consume rfl rfl (.next rfl))
    |>.snoc (Step.consume rfl rfl (.call rfl))
    |>.snoc (Step.consume rfl rfl (.next rfl))
  have hrun : (system ℕ 2).Run (channel (by decide))
      ([.ring .proceed, .ring .proceed, .ring .proceed, .ring (.pushed 7), .drop .tx] ++
        [.closed .rx true] ++ [.ring .proceed, .ring .proceed, .ring .proceed,
          .ring (.popped (some 7)), .ring .proceed] ++ [.ring .empty] ++ []) _ := hempty
  exact ⟨_, _, _, _, hrun, closed_then_empty_is_the_end _ hrun⟩

end ControlBlock

end UserspaceRouter
