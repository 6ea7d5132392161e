import UserspaceRouter.Foundations.TransitionSystem

/-!
# Dropping the two ends of a channel

The handles `Tx` and `Rx` of a channel point at one control block, which nothing owns but they. The
handle that is dropped last has to free it, and which one that is each finds out by itself: it
stores `false` to its own flag, loads the other's, and frees the block if it reads `false`.

`teardown` is the system of the two drops, one atomic access at a time, in any interleaving; a
handle that is not being dropped yet may use the block in between. The atomics are sequentially
consistent. What a freed block holds is not known: a load from it returns anything. The state counts
the frees and records whether any access came after one.

A handle in use never meets a freed block (`frees_eq_zero_of_live`). The drops themselves are right
exactly in those interleavings in which neither handle stores its flag while the other stands
between its store and its load. Otherwise both read `false`, and each takes itself for the last. The
proof follows a run through two kinds of states, `Orderly` and `Racing`: a step leads from the first
kind to the second precisely if the condition fails (`Orderly.step`, `Orderly.racing`), and nothing
leads back (`Racing.step`).
-/

namespace UserspaceRouter

open TransitionSystem

/-- The handles of a channel. -/
inductive Handle
  | rx
  | tx
  deriving DecidableEq, Repr

namespace Handle

/-- The other handle. -/
def peer : Handle → Handle
  | rx => tx
  | tx => rx

@[simp] theorem peer_peer (a : Handle) : a.peer.peer = a := by cases a <;> rfl

@[simp] theorem peer_ne (a : Handle) : a.peer ≠ a := by cases a <;> decide

@[simp] theorem ne_peer (a : Handle) : a ≠ a.peer := a.peer_ne.symm

theorem eq_or_eq_peer (a b : Handle) : a = b ∨ a = b.peer := by cases a <;> cases b <;> decide

end Handle

/-! ### The drops -/

/-- How far the drop of a handle has come. -/
inductive DropPc
  /-- It has not begun. -/
  | live
  /-- Its own flag is `false`; the other's has not been read. -/
  | stored
  /-- It has read `false`, and is about to free the block. -/
  | last
  | done
  deriving DecidableEq, Repr

/-- The accesses to the control block. -/
inductive Access
  /-- Any method of a handle. -/
  | use
  | store
  | load (seen : Bool)
  | free
  deriving DecidableEq, Repr

/-- The control block, and where the two drops stand. -/
structure Teardown where
  pc : Handle → DropPc
  /-- `has_rx` and `has_tx`. -/
  flag : Handle → Bool
  /-- How often the block has been freed. -/
  frees : ℕ
  /-- Whether the block has been accessed after it was freed. -/
  touched : Bool

namespace Teardown

/-- `channel`: a fresh control block and two handles. -/
def channel : Teardown := ⟨fun _ ↦ .live, fun _ ↦ true, 0, false⟩

/-- Record an access. -/
def touch (s : Teardown) : Teardown := { s with touched := s.touched || decide (0 < s.frees) }

/-- An access after which the handle `a` goes on at `p`. -/
def move (s : Teardown) (a : Handle) (p : DropPc) : Teardown :=
  { s.touch with pc := Function.update s.pc a p }

/-- One atomic access of one handle. -/
inductive Step : Teardown → Handle × Access → Teardown → Prop
  | use {s : Teardown} (a : Handle) : s.pc a = .live → Step s (a, .use) s.touch
  | store {s : Teardown} (a : Handle) : s.pc a = .live →
      Step s (a, .store) { s.move a .stored with flag := Function.update s.flag a false }
  -- the block is intact as long as nobody has freed it
  | load {s : Teardown} (a : Handle) (seen : Bool) : s.pc a = .stored →
      (s.frees = 0 → seen = s.flag a.peer) →
      Step s (a, .load seen) (s.move a (if seen then .done else .last))
  | free {s : Teardown} (a : Handle) : s.pc a = .last →
      Step s (a, .free) { s.move a .done with frees := s.frees + 1 }

/-- The system of the two drops. -/
def teardown : TransitionSystem Teardown (Handle × Access) := ⟨Step⟩

/-- Both handles are gone. -/
def Dropped (s : Teardown) : Prop := ∀ a, s.pc a = .done

/-- The block has been freed exactly once, and not been accessed since. -/
def FreedOnce (s : Teardown) : Prop := s.frees = 1 ∧ s.touched = false

/-- A flag is not stored while the other handle stands between its store and its load. -/
def InTurn (s : Teardown) (a : Handle × Access) : Prop := a.2 = .store → s.pc a.1.peer ≠ .stored

instance (s : Teardown) (a : Handle × Access) : Decidable (s.InTurn a) :=
  inferInstanceAs (Decidable (_ → _))

variable {s t : Teardown}

section Move

variable (s) (a : Handle) (p : DropPc)

@[simp] theorem move_pc_self : (s.move a p).pc a = p := Function.update_self ..

@[simp] theorem move_pc_peer : (s.move a p).pc a.peer = s.pc a.peer :=
  Function.update_of_ne a.peer_ne ..

@[simp] theorem move_pc_of_peer : (s.move a.peer p).pc a = s.pc a :=
  Function.update_of_ne a.ne_peer ..

@[simp] theorem move_flag : (s.move a p).flag = s.flag := rfl

@[simp] theorem move_frees : (s.move a p).frees = s.frees := rfl

@[simp] theorem move_touched : (s.move a p).touched = s.touch.touched := rfl

end Move

/-- A drop can always go on to its end, whatever the other handle does. -/
theorem exists_run_done (s : Teardown) (a : Handle) :
    ∃ tr t, teardown.Run s tr t ∧ t.pc a = .done ∧ t.pc a.peer = s.pc a.peer := by
  -- the places in a drop, from the last one backwards
  have hlast : ∀ s : Teardown, s.pc a = .last →
      ∃ tr t, teardown.Run s tr t ∧ t.pc a = .done ∧ t.pc a.peer = s.pc a.peer := fun s h ↦
    ⟨_, _, .single (.free a h), s.move_pc_self a _, s.move_pc_peer a _⟩
  have hstored : ∀ s : Teardown, s.pc a = .stored →
      ∃ tr t, teardown.Run s tr t ∧ t.pc a = .done ∧ t.pc a.peer = s.pc a.peer := by
    intro s h
    have hload := Step.load a (s.flag a.peer) h fun _ ↦ rfl
    cases hseen : s.flag a.peer with
    | false =>
      rw [hseen] at hload
      obtain ⟨tr, t, hrun, hdone, hpeer⟩ := hlast _ (s.move_pc_self a .last)
      exact ⟨_, t, Run.trans (.single hload) hrun, hdone, hpeer.trans (s.move_pc_peer a _)⟩
    | true =>
      rw [hseen] at hload
      exact ⟨_, _, .single hload, s.move_pc_self a _, s.move_pc_peer a _⟩
  cases h : s.pc a with
  | live =>
    obtain ⟨tr, t, hrun, hdone, hpeer⟩ := hstored
      { s.move a .stored with flag := Function.update s.flag a false } (s.move_pc_self a .stored)
    exact ⟨_, t, Run.trans (.single (.store a h)) hrun, hdone, hpeer.trans (s.move_pc_peer a _)⟩
  | stored => exact hstored s h
  | last => exact hlast s h
  | done => exact ⟨[], s, .nil, h, rfl⟩

/-! ### Orderly and racing states -/

/-- The flags say which handles are live. -/
def FlagsTrue (s : Teardown) : Prop := ∀ a, s.flag a = decide (s.pc a = .live)

theorem FlagsTrue.step (h : s.FlagsTrue) {l : Handle × Access} (hst : Step s l t) :
    t.FlagsTrue := by
  intro b
  have hb := h b
  cases hst with
  | use a ha => exact hb
  | store a ha => rcases Handle.eq_or_eq_peer b a with rfl | rfl <;> simp [hb]
  | load a seen ha _ =>
    rcases Handle.eq_or_eq_peer b a with rfl | rfl
    · cases seen <;> simp [hb, ha]
    · simp [hb]
  | free a ha => rcases Handle.eq_or_eq_peer b a with rfl | rfl <;> simp [hb, ha]

/-- No drop has begun before the other one was past its load. -/
inductive Order (s : Teardown) : Prop
  /-- At most one drop has begun; the other handle is live, so the block is not freed. -/
  | opened (a : Handle) : s.pc a.peer = .live → s.pc a ≠ .last → s.frees = 0 → Order s
  /-- One drop is over, without a free; the other one will see that. -/
  | closing (a : Handle) : s.pc a = .done → s.pc a.peer ≠ .live →
      s.frees = (if s.pc a.peer = .done then 1 else 0) → Order s

/-- A state in which nothing has gone wrong. -/
structure Orderly (s : Teardown) : Prop where
  flags : s.FlagsTrue
  untouched : s.touched = false
  order : s.Order

theorem orderly_channel : channel.Orderly where
  flags _ := rfl
  untouched := rfl
  order := .opened .rx rfl (by decide) rfl

/-- A handle that is not done would find the block as it was. -/
theorem Order.frees_eq_zero (h : s.Order) {a : Handle} (ha : s.pc a ≠ .done) : s.frees = 0 := by
  cases h with
  | opened b _ _ hfrees => exact hfrees
  | closing b hb _ hfrees =>
    obtain rfl | rfl := a.eq_or_eq_peer b
    · exact absurd hb ha
    · rwa [if_neg ha] at hfrees

/-- Before the block is freed, an access leaves no mark. -/
theorem touch_touched (h : s.frees = 0) : s.touch.touched = s.touched := by simp [touch, h]

/-- The handle that acts is not done. -/
theorem Step.pc_ne_done {l : Handle × Access} (h : Step s l t) : s.pc l.1 ≠ .done := by
  cases h <;> simp_all

/-- The only trace an access leaves is that it came after a free. -/
theorem Step.touched_eq {l : Handle × Access} (h : Step s l t) : t.touched = s.touch.touched := by
  cases h <;> rfl

/-- **A step in turn keeps the order.** -/
theorem Order.step (h : s.Order) (hflags : s.FlagsTrue) {l : Handle × Access} (hturn : s.InTurn l)
    (hst : Step s l t) : t.Order := by
  have hfrees := h.frees_eq_zero hst.pc_ne_done
  cases hst with
  | use a ha =>
    cases h with
    | opened b hpeer hb _ => exact .opened b hpeer hb hfrees
    | closing b hb hpeer hcount => exact .closing b hb hpeer hcount
  | store a ha =>
    cases h with
    | opened b hpeer hb _ =>
      obtain rfl | rfl := a.eq_or_eq_peer b
      · exact .opened a (by simp [hpeer]) (by simp) hfrees
      · -- the other drop has not begun or is past its load
        cases hpc : s.pc b with
        | live => exact .opened b.peer (by simp [hpc]) (by simp) hfrees
        | stored => exact absurd (by simpa using hpc) (hturn rfl)
        | last => exact absurd hpc hb
        | done => exact .closing b (by simp [hpc]) (by simp) (by simp [hfrees])
    | closing b hb hpeer _ =>
      obtain rfl | rfl := a.eq_or_eq_peer b
      · exact absurd (ha.symm.trans hb) (by decide)
      · exact absurd ha hpeer
  | load a seen ha hseen =>
    have hread : seen = decide (s.pc a.peer = .live) := (hseen hfrees).trans (hflags _)
    cases h with
    | opened b hpeer hb _ =>
      obtain rfl | rfl := a.eq_or_eq_peer b
      · exact .opened a (by simp [hpeer]) (by simp [hread, hpeer]) hfrees
      · exact absurd (ha.symm.trans hpeer) (by decide)
    | closing b hb hpeer _ =>
      obtain rfl | rfl := a.eq_or_eq_peer b
      · exact absurd (ha.symm.trans hb) (by decide)
      · exact .closing b (by simp [hb]) (by simp [hread, hb]) (by simp [hfrees, hread, hb])
  | free a ha =>
    cases h with
    | opened b hpeer hb _ =>
      obtain rfl | rfl := a.eq_or_eq_peer b
      · exact absurd ha hb
      · exact absurd (ha.symm.trans hpeer) (by decide)
    | closing b hb hpeer _ =>
      obtain rfl | rfl := a.eq_or_eq_peer b
      · exact absurd (ha.symm.trans hb) (by decide)
      · exact .closing b (by simp [hb]) (by simp) (by simp [hfrees])

theorem Orderly.step (h : s.Orderly) {l : Handle × Access} (hturn : s.InTurn l) (hst : Step s l t) :
    t.Orderly where
  flags := h.flags.step hst
  untouched := by
    rw [hst.touched_eq, touch_touched (h.order.frees_eq_zero hst.pc_ne_done), h.untouched]
  order := h.order.step h.flags hturn hst

/-- Once both handles are gone, an orderly run has freed the block once. -/
theorem Orderly.freedOnce (h : s.Orderly) (hs : s.Dropped) : s.FreedOnce := by
  refine ⟨?_, h.untouched⟩
  cases h.order with
  | opened b hpeer _ _ => exact absurd (hpeer.symm.trans (hs _)) (by decide)
  | closing b _ _ hfrees => rw [hfrees, if_pos (hs _)]

/-! ### The race -/

/-- The number of handles that are done. -/
def dones (s : Teardown) : ℕ :=
  (if s.pc .rx = .done then 1 else 0) + if s.pc .tx = .done then 1 else 0

/-- A state in which something has gone wrong, or is bound to: both drops have begun, and each that
is done has freed the block. -/
structure Racing (s : Teardown) : Prop where
  flags : s.FlagsTrue
  notLive : ∀ a, s.pc a ≠ .live
  wrong : s.touched = true ∨ s.frees = s.dones

theorem dones_move_last {a : Handle} (h : s.pc a = .stored) : (s.move a .last).dones = s.dones := by
  cases a <;> simp [dones, move, touch, h]

theorem dones_move_done {a : Handle} (h : s.pc a = .last) :
    (s.move a .done).dones = s.dones + 1 := by
  cases a
  · simp [dones, move, touch, h, Nat.add_comm]
  · simp [dones, move, touch, h]

/-- **A store out of turn starts the race**: both handles stand between their store and their
load. -/
theorem Orderly.racing (h : s.Orderly) {l : Handle × Access} (hturn : ¬s.InTurn l)
    (hst : Step s l t) : t.Racing := by
  have hfrees := h.order.frees_eq_zero hst.pc_ne_done
  have hflags := h.flags.step hst
  obtain ⟨hstore, hpeer⟩ := Classical.not_imp.1 hturn
  rw [not_not] at hpeer
  cases hst with
  | store a ha =>
    refine ⟨hflags, fun b ↦ ?_, Or.inr ?_⟩
    · obtain rfl | rfl := b.eq_or_eq_peer a
      · simp
      · simp [hpeer]
    · cases a <;> simp_all [dones, move, touch, Handle.peer]
  | use | load | free => exact absurd hstore (by simp)

/-- The mark an access leaves. -/
theorem touch_touched_eq_true (h : s.touched = true ∨ s.frees ≠ 0) : s.touch.touched = true := by
  simpa [touch, Nat.pos_iff_ne_zero] using h

/-- **A race cannot be undone.** -/
theorem Racing.step (h : s.Racing) {l : Handle × Access} (hst : Step s l t) : t.Racing := by
  have hflags := h.flags.step hst
  cases hst with
  | use a ha | store a ha => exact absurd ha (h.notLive a)
  | load a seen ha hseen =>
    refine ⟨hflags, fun b ↦ ?_, ?_⟩
    · obtain rfl | rfl := b.eq_or_eq_peer a
      · cases seen <;> simp
      · simp [h.notLive]
    -- if the block is intact, the load finds that the other handle is gone
    · rcases Decidable.em (s.touched = true ∨ s.frees ≠ 0) with hwrong | hintact
      · exact Or.inl (touch_touched_eq_true hwrong)
      · obtain ⟨huntouched, hfrees⟩ := not_or.1 hintact
        have hread : seen = false := by
          rw [hseen (not_not.1 hfrees), h.flags, decide_eq_false (h.notLive _)]
        subst hread
        exact Or.inr ((h.wrong.resolve_left huntouched).trans (dones_move_last ha).symm)
  | free a ha =>
    refine ⟨hflags, fun b ↦ ?_, ?_⟩
    · obtain rfl | rfl := b.eq_or_eq_peer a
      · simp
      · simp [h.notLive]
    · rcases h.wrong with htouched | hcount
      · exact Or.inl (touch_touched_eq_true (Or.inl htouched))
      · exact Or.inr ((congrArg (· + 1) hcount).trans (dones_move_done ha).symm)

theorem Racing.not_freedOnce (h : s.Racing) (hs : s.Dropped) : ¬s.FreedOnce := by
  rintro ⟨hfrees, hclean⟩
  rcases h.wrong with htouched | hcount
  · exact absurd (htouched.symm.trans hclean) (by decide)
  · simp [hfrees, dones, hs .rx, hs .tx] at hcount

/-! ### Runs -/

/-- Every run is orderly throughout, or has come to race. -/
theorem orderly_or_racing {tr : List (Handle × Access)} (h : teardown.Run channel tr s) :
    (teardown.restrict InTurn).Run channel tr s ∧ s.Orderly ∨ s.Racing := by
  induction h with
  | nil => exact Or.inl ⟨.nil, orderly_channel⟩
  | @snoc tr s t l _ hst ih =>
    rcases ih with ⟨hrun, hs⟩ | hs
    · by_cases hturn : s.InTurn l
      · exact Or.inl ⟨hrun.snoc ⟨hturn, hst⟩, hs.step hturn hst⟩
      · exact Or.inr (hs.racing hturn hst)
    · exact Or.inr (hs.step hst)

/-- **A handle in use never meets a freed block**, in any interleaving. -/
theorem frees_eq_zero_of_live {tr : List (Handle × Access)} (h : teardown.Run channel tr s)
    {a : Handle} (ha : s.pc a = .live) : s.frees = 0 := by
  rcases orderly_or_racing h with ⟨-, hs⟩ | hs
  · exact hs.order.frees_eq_zero (a := a) (by simp [ha])
  · exact absurd ha (hs.notLive a)

/-- **When the control block is freed exactly once.** Once both handles are dropped, the block has
been freed exactly once and no access came after that, if and only if neither handle stored its flag
while the other stood between its store and its load. -/
theorem freedOnce_iff {tr : List (Handle × Access)} (h : teardown.Run channel tr s)
    (hs : s.Dropped) : s.FreedOnce ↔ (teardown.restrict InTurn).Run channel tr s := by
  constructor
  · intro honce
    rcases orderly_or_racing h with ⟨hrun, -⟩ | hracing
    · exact hrun
    · exact absurd honce (hracing.not_freedOnce hs)
  · intro hrun
    have horderly : s.Orderly := by
      refine hrun.invariant orderly_channel ?_
      rintro s l t hs ⟨hturn, hst⟩
      exact hs.step hturn hst
    exact horderly.freedOnce hs

/-- `Rx` is dropped, `Tx` is used once more, and then dropped. -/
theorem freedOnce_rx_then_tx :
    ∃ s, teardown.Run channel [(.rx, .store), (.rx, .load true), (.tx, .use), (.tx, .store),
      (.tx, .load false), (.tx, .free)] s ∧ s.Dropped ∧ s.FreedOnce := by
  have hnil : (teardown.restrict InTurn).Run channel [] channel := .nil
  have hrx := (hnil.snoc ⟨by decide, Step.store .rx rfl⟩).snoc
    ⟨by decide, Step.load .rx true rfl fun _ ↦ rfl⟩
  have htx := (((hrx.snoc ⟨by decide, Step.use .tx rfl⟩).snoc ⟨by decide, Step.store .tx rfl⟩).snoc
    ⟨by decide, Step.load .tx false rfl fun _ ↦ rfl⟩).snoc ⟨by decide, Step.free .tx rfl⟩
  refine ⟨_, htx.of_restrict, ?_, (freedOnce_iff htx.of_restrict ?_).2 htx⟩ <;>
  · rintro (_ | _) <;> rfl

/-- Both handles store, both load, and both free. -/
theorem freed_twice :
    ∃ s, teardown.Run channel [(.rx, .store), (.tx, .store), (.rx, .load false), (.tx, .load false),
      (.rx, .free), (.tx, .free)] s ∧ s.Dropped ∧ s.frees = 2 ∧ s.touched = true := by
  have hnil : teardown.Run channel [] channel := .nil
  have hstore := (hnil.snoc (Step.store .rx rfl)).snoc (Step.store .tx rfl)
  have hload := (hstore.snoc (Step.load .rx false rfl fun _ ↦ rfl)).snoc
    (Step.load .tx false rfl fun _ ↦ rfl)
  have hfree := (hload.snoc (Step.free .rx rfl)).snoc (Step.free .tx rfl)
  refine ⟨_, hfree, ?_, rfl, rfl⟩
  rintro (_ | _) <;> rfl

end Teardown

end UserspaceRouter
