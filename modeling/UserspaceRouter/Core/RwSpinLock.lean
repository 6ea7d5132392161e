import UserspaceRouter.Foundations.TransitionSystem

/-!
# The reader-writer spin lock

`RwSpinLock` keeps its readers and its writer in one word: the lowest bit is the writer, the rest
the number of readers. A reader loads the word, and if the bit is clear tries to add 2 to the word
it has seen; a writer tries to exchange 0 for 1. Both try again when the compare-exchange fails,
which it may do for no reason. A reader leaves by subtracting 2, a writer by storing 0.

An atomic step on the word is one step of the model, sequentially consistent, and any number of
threads take theirs in any order. `Move` lists what a step can do. What is to be shown of all
interleavings is the meaning of the word (`Inv`): it counts the threads that hold the lock. A step
keeps it, since the stored word of a reader that has succeeded is the one it has seen, and the
subtraction and the store find a word that counts the thread that makes them (`Inv.move`).

The guards of `read_lock` and `write_lock` can outlive the call, so that one thread may hold several
of them; the model then has a thread for each.
-/

namespace UserspaceRouter

namespace RwSpinLock

open TransitionSystem

/-- The methods that take the lock. -/
inductive Method
  | withRead
  | readLock
  | withWrite
  | writeLock
deriving DecidableEq, Repr

/-- Where a thread is in the code of the lock. -/
inductive Pc
  /-- Outside. -/
  | idle
  /-- At the load of a reader. -/
  | load
  /-- At the compare-exchange of a reader that has seen this word. -/
  | exchange (seen : UInt64)
  /-- At the compare-exchange of a writer. -/
  | exchangeWrite
  /-- It holds a read lock. -/
  | reading
  /-- It holds the write lock. -/
  | writing
deriving DecidableEq, Repr

/-- The first instruction of a method. The two methods of a pair run the same loop. -/
def Method.start : Method → Pc
  | withRead => .load
  | readLock => .load
  | withWrite => .exchangeWrite
  | writeLock => .exchangeWrite

/-- What a thread does next. -/
inductive Act
  /-- Call a method. -/
  | call (m : Method)
  | load
  /-- Compare and exchange, which may fail for no reason. -/
  | compareExchange (spurious : Bool)
  /-- Release the lock, at the end of a `with_` method or when the guard is dropped. -/
  | release
deriving DecidableEq, Repr

/-- One step of a thread on the word. -/
def next : Pc → UInt64 → Act → Option (Pc × UInt64)
  | .idle, state, .call m => some (m.start, state)
  | .load, state, .load =>
    if state &&& 1 = 0 then some (.exchange state, state)
    -- a writer: spin
    else some (.load, state)
  | .exchange seen, state, .compareExchange spurious =>
    if state = seen ∧ spurious = false then some (.reading, seen + 2) else some (.load, state)
  | .exchangeWrite, state, .compareExchange spurious =>
    if state = 0 ∧ spurious = false then some (.writing, 1) else some (.exchangeWrite, state)
  -- `fetch_sub(2)`
  | .reading, state, .release => some (.idle, state - 2)
  -- `store(0)`
  | .writing, _, .release => some (.idle, 0)
  | _, _, _ => none

/-- Threads `W`, in any interleaving. -/
def system (W : Type*) [DecidableEq W] : TransitionSystem ((W → Pc) × UInt64) (W × Act) :=
  .interleave W fun l state a l' state' ↦ next l state a = some (l', state')

/-- The same step, as a function of the thread and its action. -/
def step {W : Type*} [DecidableEq W] (s : (W → Pc) × UInt64) (a : W × Act) :
    Option ((W → Pc) × UInt64) :=
  (next (s.1 a.1) s.2 a.2).map fun r ↦ (Function.update s.1 a.1 r.1, r.2)

/-- A new lock, and all threads outside. -/
def init (W : Type*) : (W → Pc) × UInt64 := (fun _ ↦ .idle, 0)

theorem run_of_step {W : Type*} [DecidableEq W] {s t : (W → Pc) × UInt64} {tr : List (W × Act)}
    (h : tr.foldlM step s = some t) : (system W).Run s tr t := by
  refine (run_of_foldlM h).mono fun s a t hst ↦ ?_
  obtain ⟨⟨l', state'⟩, hnext, rfl⟩ := Option.map_eq_some_iff.1 hst
  exact ⟨l', hnext, rfl⟩

/-! ### What a step does -/

/-- The thread does not hold the lock. -/
def Pc.Out (l : Pc) : Prop := l ≠ .reading ∧ l ≠ .writing

/-- What a step can do to the thread and to the word. -/
inductive Move : Pc → UInt64 → Pc → UInt64 → Prop
  | wait {l l' : Pc} {state : UInt64} (hl : l.Out) (hl' : l'.Out)
      (hseen : ∀ seen, l' = .exchange seen → seen &&& 1 = 0) : Move l state l' state
  | lockRead (seen : UInt64) : Move (.exchange seen) seen .reading (seen + 2)
  | lockWrite : Move .exchangeWrite 0 .writing 1
  | unlockRead (state : UInt64) : Move .reading state .idle (state - 2)
  | unlockWrite (state : UInt64) : Move .writing state .idle 0

/-- **The inversion of a step.** -/
theorem move_of_next {l l' : Pc} {state state' : UInt64} {a : Act}
    (h : next l state a = some (l', state')) : Move l state l' state' := by
  cases l <;> cases a
  case idle.call m =>
    obtain ⟨rfl, rfl⟩ := Prod.mk.inj (Option.some.inj h)
    cases m <;> exact .wait ⟨nofun, nofun⟩ ⟨nofun, nofun⟩ nofun
  case load.load =>
    change (if state &&& 1 = 0 then some (Pc.exchange state, state) else some (.load, state)) = _
      at h
    split_ifs at h with heven
    · obtain ⟨rfl, rfl⟩ := Prod.mk.inj (Option.some.inj h)
      refine .wait ⟨nofun, nofun⟩ ⟨nofun, nofun⟩ ?_
      rintro seen ⟨⟩
      exact heven
    · obtain ⟨rfl, rfl⟩ := Prod.mk.inj (Option.some.inj h)
      exact .wait ⟨nofun, nofun⟩ ⟨nofun, nofun⟩ nofun
  case exchange.compareExchange seen spurious =>
    change (if state = seen ∧ spurious = false then some (Pc.reading, seen + 2)
      else some (.load, state)) = _ at h
    split_ifs at h with heq
    · obtain ⟨rfl, rfl⟩ := Prod.mk.inj (Option.some.inj h)
      obtain ⟨rfl, -⟩ := heq
      exact .lockRead _
    · obtain ⟨rfl, rfl⟩ := Prod.mk.inj (Option.some.inj h)
      exact .wait ⟨nofun, nofun⟩ ⟨nofun, nofun⟩ nofun
  case exchangeWrite.compareExchange spurious =>
    change (if state = 0 ∧ spurious = false then some (Pc.writing, (1 : UInt64))
      else some (.exchangeWrite, state)) = _ at h
    split_ifs at h with heq
    · obtain ⟨rfl, rfl⟩ := Prod.mk.inj (Option.some.inj h)
      obtain ⟨rfl, -⟩ := heq
      exact .lockWrite
    · obtain ⟨rfl, rfl⟩ := Prod.mk.inj (Option.some.inj h)
      exact .wait ⟨nofun, nofun⟩ ⟨nofun, nofun⟩ nofun
  case reading.release =>
    obtain ⟨rfl, rfl⟩ := Prod.mk.inj (Option.some.inj h)
    exact .unlockRead _
  case writing.release =>
    obtain ⟨rfl, rfl⟩ := Prod.mk.inj (Option.some.inj h)
    exact .unlockWrite _
  -- no other action is possible
  all_goals exact absurd h.symm (Option.some_ne_none _)

/-! ### The meaning of the word -/

section Invariant

variable {W : Type*} [Fintype W]

/-- The number of threads that hold a read lock. -/
def readers (ls : W → Pc) : ℕ := population (· = .reading) ls

/-- The number of threads that hold the write lock. -/
def writers (ls : W → Pc) : ℕ := population (· = .writing) ls

/-- **The invariant.** The word counts the readers and the writer, there are not both, and what a
reader has seen had no writer in it. -/
structure Inv (ls : W → Pc) (state : UInt64) : Prop where
  word : state.toNat = 2 * readers ls + writers ls
  exclusive : writers ls = 0 ∨ writers ls = 1 ∧ readers ls = 0
  seen : ∀ w seen, ls w = .exchange seen → seen &&& 1 = 0

theorem inv_init : Inv (fun _ : W ↦ .idle) 0 := by
  have hreaders : readers (fun _ : W ↦ .idle) = 0 := population_const_of_not nofun
  have hwriters : writers (fun _ : W ↦ .idle) = 0 := population_const_of_not nofun
  exact ⟨by rw [hreaders, hwriters]; rfl, Or.inl hwriters, nofun⟩

variable {ls : W → Pc} {state : UInt64} {w : W}

/-- A thread with a read lock is counted by the word. -/
theorem Inv.two_le (h : Inv ls state) (hw : ls w = .reading) :
    2 ≤ state.toNat ∧ writers ls = 0 := by
  have hpos : 0 < readers ls := population_pos hw
  have hword := h.word
  rcases h.exclusive with hnone | ⟨-, hzero⟩
  · exact ⟨by omega, hnone⟩
  · exact absurd hzero (Nat.ne_of_gt hpos)

/-- While a thread has the write lock, the word is 1. -/
theorem Inv.eq_one (h : Inv ls state) (hw : ls w = .writing) :
    state.toNat = 1 ∧ writers ls = 1 ∧ readers ls = 0 := by
  have hpos : 0 < writers ls := population_pos hw
  have hword := h.word
  rcases h.exclusive with hnone | ⟨hone, hzero⟩
  · exact absurd hnone (Nat.ne_of_gt hpos)
  · exact ⟨by omega, hone, hzero⟩

/-- A reader has seen an even word. -/
theorem Inv.even_seen (h : Inv ls state) {seen : UInt64} (hw : ls w = .exchange seen) :
    seen.toNat % 2 = 0 := by
  have hand := congrArg UInt64.toNat (h.seen w seen hw)
  rwa [UInt64.toNat_and, UInt64.toNat_one, Nat.and_one_is_mod] at hand

theorem toNat_add_two (h : state.toNat + 2 < 2 ^ 64) : (state + 2).toNat = state.toNat + 2 := by
  rw [UInt64.toNat_add]
  exact Nat.mod_eq_of_lt h

theorem toNat_sub_two (h : 2 ≤ state.toNat) : (state - 2).toNat = state.toNat - 2 :=
  UInt64.toNat_sub_of_le _ _ (UInt64.le_iff_toNat_le.2 h)

variable [DecidableEq W]

/-- How the counts change when a thread moves from `l` to `l'`. -/
theorem readers_update {l : Pc} (hw : ls w = l) (l' : Pc) :
    readers (Function.update ls w l') + (if l = .reading then 1 else 0) =
      readers ls + if l' = .reading then 1 else 0 := by
  rw [← hw]
  exact population_update _ ls w l'

theorem writers_update {l : Pc} (hw : ls w = l) (l' : Pc) :
    writers (Function.update ls w l') + (if l = .writing then 1 else 0) =
      writers ls + if l' = .writing then 1 else 0 := by
  rw [← hw]
  exact population_update _ ls w l'

/-- A thread that moves and has seen a word has seen one without the bit of the writer. -/
theorem Inv.seen_update (h : Inv ls state) (w : W) (l' : Pc)
    (hl' : ∀ seen, l' = .exchange seen → seen &&& 1 = 0) (v : W) (seen : UInt64)
    (hv : Function.update ls w l' v = .exchange seen) : seen &&& 1 = 0 := by
  by_cases hvw : v = w
  · rw [hvw, Function.update_self] at hv
    exact hl' seen hv
  · rw [Function.update_of_ne hvw] at hv
    exact h.seen v seen hv

/-- **A step keeps the meaning of the word.** That there are fewer than `2 ^ 62` threads keeps the
count of readers from running over. -/
theorem Inv.move (hcard : Fintype.card W < 2 ^ 62) {state' : UInt64} {l l' : Pc}
    (h : Inv ls state) (hw : ls w = l) (hmove : Move l state l' state') :
    Inv (Function.update ls w l') state' := by
  have hword := h.word
  have hexclusive := h.exclusive
  have hreaders := readers_update hw l'
  have hwriters := writers_update hw l'
  have hseen := h.seen_update w l'
  cases hmove with
  | wait hl hl' hexchange =>
    rw [if_neg hl.1, if_neg hl'.1] at hreaders
    rw [if_neg hl.2, if_neg hl'.2] at hwriters
    exact ⟨by omega, by omega, hseen hexchange⟩
  | lockRead =>
    -- the word seen is the word now, so there is no writer, and 2 is added to it
    have heven := h.even_seen hw
    have hle : readers (Function.update ls w .reading) ≤ Fintype.card W := population_le_card _ _
    simp only [reduceCtorEq, if_true, if_false] at hreaders hwriters
    have hadd := toNat_add_two (by omega : state.toNat + 2 < 2 ^ 64)
    exact ⟨by omega, by omega, hseen nofun⟩
  | lockWrite =>
    have hzero : (0 : UInt64).toNat = 0 := rfl
    have hone : (1 : UInt64).toNat = 1 := rfl
    simp only [reduceCtorEq, if_true, if_false] at hreaders hwriters
    exact ⟨by omega, by omega, hseen nofun⟩
  | unlockRead =>
    obtain ⟨htwo, -⟩ := h.two_le hw
    simp only [reduceCtorEq, if_true, if_false] at hreaders hwriters
    have hsub := toNat_sub_two htwo
    exact ⟨by omega, by omega, hseen nofun⟩
  | unlockWrite =>
    -- nothing but the thread's own 1 is overwritten
    obtain ⟨-, hone, hnone⟩ := h.eq_one hw
    have hzero : (0 : UInt64).toNat = 0 := rfl
    simp only [reduceCtorEq, if_true, if_false] at hreaders hwriters
    exact ⟨by omega, by omega, hseen nofun⟩

theorem inv_run (hcard : Fintype.card W < 2 ^ 62) {tr : List (W × Act)} {s : (W → Pc) × UInt64}
    (h : (system W).Run (init W) tr s) : Inv s.1 s.2 := by
  refine h.invariant (I := fun s : (W → Pc) × UInt64 ↦ Inv s.1 s.2) inv_init ?_
  rintro ⟨ls, state⟩ ⟨w, a⟩ ⟨ls', state'⟩ hs hst
  obtain ⟨l', hnext, rfl⟩ := step_interleave_iff.1 hst
  exact hs.move hcard rfl (move_of_next hnext)

/-- **The lock excludes.** In every interleaving of fewer than `2 ^ 62` threads the word is twice
the number of threads with a read lock, plus one if a thread has the write lock; no two threads have
the write lock, and none has it while another has a read lock; and a release takes from the word
what it counts for the thread that makes it, and leaves the other threads as they are. -/
theorem excludes (hcard : Fintype.card W < 2 ^ 62) {tr : List (W × Act)} {s : (W → Pc) × UInt64}
    (h : (system W).Run (init W) tr s) :
    s.2.toNat = 2 * readers s.1 + (if ∃ w, s.1 w = .writing then 1 else 0) ∧
    (∀ v w, s.1 v = .writing → s.1 w = .writing → v = w) ∧
    (∀ v w, s.1 v = .writing → s.1 w ≠ .reading) ∧
    ∀ w t, (system W).step s (w, .release) t →
      (s.1 w = .reading ∧ t.2.toNat + 2 = s.2.toNat ∨
        s.1 w = .writing ∧ t.2.toNat + 1 = s.2.toNat) ∧ ∀ v, v ≠ w → t.1 v = s.1 v := by
  obtain ⟨ls, state⟩ := s
  have hinv : Inv ls state := inv_run hcard h
  have hword := hinv.word
  refine ⟨?_, fun v w hv hw ↦ ?_, fun v w hv hw ↦ ?_, ?_⟩
  · split_ifs with hwriter
    · obtain ⟨w, hw⟩ := hwriter
      obtain ⟨-, hone, -⟩ := hinv.eq_one hw
      rw [hword, hone]
    · have hnone : writers ls = 0 := by
        by_contra hne
        exact hwriter (exists_of_population_pos (Nat.pos_of_ne_zero hne))
      rw [hword, hnone]
  · obtain ⟨-, hone, -⟩ := hinv.eq_one hv
    exact eq_of_population_le_one (Nat.le_of_eq hone) hv hw
  · obtain ⟨-, hone, -⟩ := hinv.eq_one hv
    obtain ⟨-, hnone⟩ := hinv.two_le hw
    exact absurd (hnone.symm.trans hone) (by decide)
  · rintro w ⟨ls', state'⟩ hst
    obtain ⟨l', hnext, rfl⟩ := step_interleave_iff.1 hst
    refine ⟨?_, fun v hv ↦ Function.update_of_ne hv _ _⟩
    rcases hw : ls w with - | - | seen | - | - | -
    all_goals rw [hw] at hnext
    case reading =>
      obtain ⟨-, rfl⟩ := Prod.mk.inj (Option.some.inj hnext)
      obtain ⟨htwo, -⟩ := hinv.two_le hw
      refine Or.inl ⟨hw, ?_⟩
      show (state - 2).toNat + 2 = state.toNat
      rw [toNat_sub_two htwo]
      exact Nat.sub_add_cancel htwo
    case writing =>
      obtain ⟨-, rfl⟩ := Prod.mk.inj (Option.some.inj hnext)
      obtain ⟨hone, -, -⟩ := hinv.eq_one hw
      exact Or.inr ⟨hw, hone.symm⟩
    -- nothing to release
    all_goals exact absurd hnext.symm (Option.some_ne_none _)

end Invariant

/-- Two threads of three get a read lock, the second after a compare-exchange that fails for no
reason and one that fails because the first thread was faster; the third waits to write. -/
theorem excludes_two_readers :
    ∃ tr s, (system (Fin 3)).Run (init (Fin 3)) tr s ∧ s.1 0 = .reading ∧ s.1 1 = .reading ∧
      s.1 2 = .exchangeWrite ∧ s.2.toNat = 4 ∧ readers s.1 = 2 ∧ ∀ w, s.1 w ≠ .writing := by
  have hfold : (List.foldlM step (init (Fin 3))
      [(0, .call .withRead), (1, .call .readLock), (2, .call .writeLock), (1, .load),
        (1, .compareExchange true), (0, .load), (1, .load), (0, .compareExchange false),
        (1, .compareExchange false), (2, .compareExchange false), (1, .load),
        (1, .compareExchange false)]).map (fun s ↦ (s.1 0, s.1 1, s.1 2, s.2.toNat)) =
      some (.reading, .reading, .exchangeWrite, 4) := by decide +kernel
  obtain ⟨s, hrun, hs⟩ := Option.map_eq_some_iff.1 hfold
  simp only [Prod.mk.injEq] at hs
  obtain ⟨h0, h1, h2, hstate⟩ := hs
  obtain ⟨hword, -, hexclusive, -⟩ := excludes (by decide) (run_of_step hrun)
  have hnone : ∀ w, s.1 w ≠ .writing := fun w hw ↦ hexclusive w 0 hw h0
  rw [if_neg (not_exists.2 hnone)] at hword
  exact ⟨_, s, run_of_step hrun, h0, h1, h2, hstate, by omega, hnone⟩

end RwSpinLock

end UserspaceRouter
