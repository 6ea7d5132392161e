import UserspaceRouter.Core.RwSpinLock
import UserspaceRouter.Foundations.Locking

/-!
# The locks make calls atomic

Every table that the workers share is behind a lock: the NAT, the flow table, the address pool, the
leases, the forwarding database and the memory pools behind a `SpinLock`, the neighbor tables and
the DHCP client behind a `RwSpinLock`. The other modules take a call on such a table to be one step.
This module is why they may.

Here a call is not one step: the closure that `with` is given, or the code between `lock` and the
drop of the guard, makes its accesses to the data one at a time, and so do all other threads, in any
order. `SpinLock.with_is_atomic` and `RwSpinLock.reads_and_writes_are_atomic` say that the calls are
those of some sequence of calls all the same, with the same results, and in an order that respects
which call returned before which one started.

Atomics are sequentially consistent in the model, and a closure is taken to return: one that panics
leaves the lock taken for good.
-/

namespace UserspaceRouter

open TransitionSystem Locking

/-! ### The spin lock -/

namespace SpinLock

/-- The methods that take the lock. -/
inductive Method
  | with_
  | lock
deriving DecidableEq, Repr

/-- Where a thread is in the code of the lock. -/
inductive Pc
  /-- Outside. -/
  | idle
  /-- At the compare-exchange. -/
  | exchange
  /-- It holds the lock. -/
  | inside
deriving DecidableEq, Repr

/-- The one instruction on the way in, which may fail for no reason. -/
inductive Act
  | compareExchange (spurious : Bool)
deriving DecidableEq, Repr

/-- One turn of the loop that both methods begin with. -/
def next : Pc → Bool → Act → Option (Pc × Bool)
  | .exchange, locked, .compareExchange spurious =>
    if locked = false ∧ spurious = false then some (.inside, true)
    -- spin
    else some (.exchange, locked)
  | .idle, _, _ | .inside, _, _ => none

theorem next_eq_some {l l' : Pc} {locked locked' : Bool} {a : Act}
    (h : next l locked a = some (l', locked')) :
    l = .exchange ∧ (l' = .inside ∧ locked = false ∧ locked' = true ∨
      l' = .exchange ∧ locked' = locked) := by
  obtain ⟨spurious⟩ := a
  rcases l with - | - | -
  · exact absurd h nofun
  · simp only [next] at h
    split_ifs at h with hfree
    · obtain ⟨rfl, rfl⟩ := Prod.mk.inj (Option.some.inj h)
      exact ⟨rfl, Or.inl ⟨rfl, hfree.1, rfl⟩⟩
    · obtain ⟨rfl, rfl⟩ := Prod.mk.inj (Option.some.inj h)
      exact ⟨rfl, Or.inr ⟨rfl, rfl⟩⟩
  · exact absurd h nofun

/-- `SpinLock::with` and `SpinLock::lock`. The lock is given back by a store of `false`, at the end
of `with` or when the guard is dropped. -/
def code : LockCode Method Pc Bool Act where
  idle := .idle
  enter _ := .exchange
  next := next
  holds l := l = .inside
  leave _ _ := false
  takes _ := .exclusive
  mode _ := .exclusive
  mode_enter _ := rfl
  mode_next _ := rfl
  not_holds_idle := nofun
  not_holds_enter _ := nofun
  not_holds_next h := by
    rw [(next_eq_some h).1]
    nofun

/-- **The invariant.** The flag is set exactly while a thread is inside, and only one is. -/
structure Inv {W : Type*} (ls : W → Pc) (locked : Bool) : Prop where
  flag : locked = true ↔ ∃ w, ls w = .inside
  unique : ∀ v w, ls v = .inside → ls w = .inside → v = w

variable {W : Type*}

theorem inv_idle : Inv (fun _ : W ↦ .idle) false :=
  ⟨⟨nofun, fun ⟨_, hw⟩ ↦ absurd hw nofun⟩, fun _ _ hv ↦ absurd hv nofun⟩

variable [DecidableEq W] {ls : W → Pc} {locked : Bool} {w : W}

/-- A thread moves outside the lock. -/
theorem Inv.outside (h : Inv ls locked) {l : Pc} (hl : l ≠ .inside) (hw : ls w ≠ .inside) :
    Inv (Function.update ls w l) locked := by
  have hsame : ∀ v, Function.update ls w l v = .inside ↔ ls v = .inside := by
    intro v
    by_cases hv : v = w
    · subst hv
      simp [hl, hw]
    · rw [Function.update_of_ne hv]
  refine ⟨h.flag.trans (exists_congr fun v ↦ (hsame v).symm), fun v v' hv hv' ↦ ?_⟩
  exact h.unique v v' ((hsame v).1 hv) ((hsame v').1 hv')

/-- A thread takes the lock. -/
theorem Inv.take (h : Inv ls false) : Inv (Function.update ls w .inside) true := by
  have hnone : ∀ v, ls v ≠ .inside := fun v hv ↦ absurd (h.flag.2 ⟨v, hv⟩) (by decide)
  have honly : ∀ v, Function.update ls w .inside v = .inside → v = w := by
    intro v hv
    by_contra hne
    rw [Function.update_of_ne hne] at hv
    exact hnone v hv
  exact ⟨⟨fun _ ↦ ⟨w, Function.update_self ..⟩, fun _ ↦ rfl⟩, fun v v' hv hv' ↦
    (honly v hv).trans (honly v' hv').symm⟩

/-- The thread that has the lock gives it back. -/
theorem Inv.release (h : Inv ls locked) (hw : ls w = .inside) :
    Inv (Function.update ls w .idle) false := by
  have hnone : ∀ v, Function.update ls w .idle v ≠ .inside := by
    intro v hv
    by_cases hvw : v = w
    · rw [hvw, Function.update_self] at hv
      exact absurd hv nofun
    · rw [Function.update_of_ne hvw] at hv
      exact hvw (h.unique v w hv hw)
  exact ⟨⟨nofun, fun ⟨v, hv⟩ ↦ absurd hv (hnone v)⟩, fun v _ hv ↦ absurd hv (hnone v)⟩

theorem excludes_code : Excludes code (Inv (W := W)) where
  enter _ hinv hidle := hinv.outside nofun (by rw [hidle]; nofun)
  next hinv hnext := by
    obtain ⟨hl, ⟨rfl, rfl, rfl⟩ | ⟨rfl, rfl⟩⟩ := next_eq_some hnext
    · exact hinv.take
    · exact hinv.outside nofun (by rw [hl]; nofun)
  leave hinv hholds := hinv.release hholds
  exclusive hinv hv _ hw := hinv.unique _ _ hw hv

/-- **Calls under the spin lock are atomic.** For any number of threads, any closures and any
interleaving of their accesses: at most one thread is inside, and the flag tells whether one is. The
calls completed so far, in the order in which they gave the lock back, are calls made one after the
other, with the results they returned; while the lock is free the data is what they left, and while
a thread is inside, what it has still to do comes to its whole call on that data. -/
theorem with_is_atomic {σ ρ : Type*} {data : σ} {tr : List (W × Locking.Act Method Act σ ρ)}
    {c : Config W Pc Bool σ ρ}
    (h : (Locking.system code W σ ρ).Run (Locking.init code W ρ false data) tr c) :
    (∀ v w, (c.threads v).place = .inside → (c.threads w).place = .inside → v = w) ∧
    (c.word = true ↔ ∃ w, (c.threads w).place = .inside) ∧
    ∃ q, (sequential σ ρ).Run data (tr.filterMap fun a ↦ a.2.finished) q ∧
      (c.word = false → c.object = q) ∧
      ∀ w job, c.threads w = ⟨.inside, some job⟩ → job.rest.run c.object = job.body.run q := by
  obtain ⟨q, hrun, hR⟩ := serializes excludes_code inv_idle h
  refine ⟨hR.lock.unique, hR.lock.flag, q, hrun, fun hfree ↦ hR.object ?_, fun w job hw ↦ ?_⟩
  · rintro ⟨w, hw, -⟩
    exact absurd (hR.lock.flag.2 ⟨w, hw⟩) (by rw [hfree]; decide)
  · exact (hR.follows w _ job hw).running rfl

/-- A closure that reads a counter, adds one and writes it back, and returns what it read. -/
def increment : Program ℕ ℕ := .access id fun n ↦ .access (fun _ ↦ n + 1) fun _ ↦ .ret n

/-- Two threads increment a counter. The second one tries while the first is between its read and
its write, and has to wait; no increment is lost. -/
theorem with_is_atomic_two_increments :
    ∃ tr c, (Locking.system code (Fin 2) ℕ ℕ).Run (Locking.init code (Fin 2) ℕ false 0) tr c ∧
      (tr.filterMap fun a ↦ a.2.finished).map (·.2) = [0, 1] ∧ c.word = false ∧
      (sequential ℕ ℕ).Run 0 (tr.filterMap fun a ↦ a.2.finished) c.object := by
  have hrun : ∃ tr c, (Locking.system code (Fin 2) ℕ ℕ).Run (Locking.init code (Fin 2) ℕ false 0)
      tr c ∧ (tr.filterMap fun a ↦ a.2.finished).map (·.2) = [0, 1] ∧ c.word = false := by
    refine ⟨_, _, ((((((((((Run.nil (T := Locking.system code (Fin 2) ℕ ℕ)
      |>.snoc (Step.call 0 .with_ increment rfl nofun))
      |>.snoc (Step.lock (w := 0) (a := .compareExchange false) rfl rfl))
      |>.snoc (Step.access (w := 0) rfl rfl))
      |>.snoc (Step.call 1 .lock increment rfl nofun))
      |>.snoc (Step.lock (w := 1) (a := .compareExchange false) rfl rfl))
      |>.snoc (Step.access (w := 0) rfl rfl))
      |>.snoc (Step.finish (w := 0) rfl rfl))
      |>.snoc (Step.lock (w := 1) (a := .compareExchange false) rfl rfl))
      |>.snoc (Step.access (w := 1) rfl rfl))
      |>.snoc (Step.access (w := 1) rfl rfl))
      |>.snoc (Step.finish (w := 1) rfl rfl), rfl, rfl⟩
  obtain ⟨tr, c, hc, hresults, hfree⟩ := hrun
  obtain ⟨-, -, q, hq, hobject, -⟩ := with_is_atomic hc
  exact ⟨tr, c, hc, hresults, hfree, hobject hfree ▸ hq⟩

end SpinLock

/-! ### The reader-writer spin lock -/

namespace RwSpinLock

/-- How a place in the code belongs to readers or to writers. -/
def Pc.mode : Pc → Mode
  | .exchangeWrite | .writing => .exclusive
  | .idle | .load | .exchange _ | .reading => .shared

/-- The instructions on the way in. -/
def acquire : Pc → UInt64 → Act → Option (Pc × UInt64)
  | l, state, .load => next l state .load
  | l, state, .compareExchange spurious => next l state (.compareExchange spurious)
  | _, _, .call _ | _, _, .release => none

/-- The word after a release. -/
def leave (l : Pc) (state : UInt64) : UInt64 :=
  match next l state .release with
  | some (_, state') => state'
  | none => state

theorem next_of_acquire {l l' : Pc} {state state' : UInt64} {a : Act}
    (h : acquire l state a = some (l', state')) : next l state a = some (l', state') := by
  cases a with
  | load => exact h
  | compareExchange spurious => exact h
  | call m => exact absurd h nofun
  | release => exact absurd h nofun

/-- On the way in, a reader stays a reader and a writer a writer, and neither has the lock yet. -/
theorem acquire_eq_some {l l' : Pc} {state state' : UInt64} {a : Act}
    (h : acquire l state a = some (l', state')) : l'.mode = l.mode ∧ l.Out := by
  cases a with
  | call m => exact absurd h nofun
  | release => exact absurd h nofun
  | load =>
    cases l
    case load =>
      change (if _ then some _ else some _) = some _ at h
      split_ifs at h
      all_goals
        obtain ⟨rfl, -⟩ := Prod.mk.inj (Option.some.inj h)
        exact ⟨rfl, nofun, nofun⟩
    all_goals exact absurd h nofun
  | compareExchange spurious =>
    cases l
    case exchange seen =>
      change (if _ then some _ else some _) = some _ at h
      split_ifs at h
      all_goals
        obtain ⟨rfl, -⟩ := Prod.mk.inj (Option.some.inj h)
        exact ⟨rfl, nofun, nofun⟩
    case exchangeWrite =>
      change (if _ then some _ else some _) = some _ at h
      split_ifs at h
      all_goals
        obtain ⟨rfl, -⟩ := Prod.mk.inj (Option.some.inj h)
        exact ⟨rfl, nofun, nofun⟩
    all_goals exact absurd h nofun

/-- `RwSpinLock::with_read`, `read_lock`, `with_write` and `write_lock`, with the drops of the
guards. -/
def code : LockCode Method Pc UInt64 Act where
  idle := .idle
  enter := Method.start
  next := acquire
  holds l := l = .reading ∨ l = .writing
  leave := leave
  takes m := m.start.mode
  mode := Pc.mode
  mode_enter _ := rfl
  mode_next h := (acquire_eq_some h).1
  not_holds_idle := by simp
  not_holds_enter m := by cases m <;> simp [Method.start]
  not_holds_next h := not_or.2 (acquire_eq_some h).2

variable {W : Type*} [DecidableEq W] [Fintype W]

theorem excludes_code (hcard : Fintype.card W < 2 ^ 62) : Excludes code (Inv (W := W)) where
  enter {ls s w} m hinv hidle := by
    have hcall : next .idle s (.call m) = some (m.start, s) := rfl
    exact hinv.move hcard hidle (move_of_next hcall)
  next hinv hnext := hinv.move hcard rfl (move_of_next (next_of_acquire hnext))
  leave {ls s w} hinv hholds := by
    rcases hholds with hw | hw
    all_goals
      rw [hw]
      exact hinv.move hcard hw (move_of_next (a := .release) rfl)
  exclusive {ls s v w} hinv hv hmode hw := by
    have hv' : ls v = .writing := by
      rcases hv with hv | hv
      · have hmode' : (ls v).mode = .exclusive := hmode
        rw [hv] at hmode'
        exact absurd hmode' (by decide)
      · exact hv
    obtain ⟨-, hone, hnone⟩ := hinv.eq_one hv'
    rcases hw with hw | hw
    · exact absurd hnone (Nat.ne_of_gt (population_pos hw))
    · exact eq_of_population_le_one (Nat.le_of_eq hone) hw hv'

/-- **Calls under the reader-writer lock are atomic.** For fewer than `2 ^ 62` threads, any closures
of which those of the readers do not write, and any interleaving of their accesses: the calls
completed so far, in the order in which they gave the lock back, are calls made one after the other,
with the results they returned. While nobody writes the data is what they left; and what a thread
that holds the lock has still to do comes to its whole call on that data, however many others read
at the same time. -/
theorem reads_and_writes_are_atomic (hcard : Fintype.card W < 2 ^ 62) {σ ρ : Type*} {data : σ}
    {tr : List (W × Locking.Act Method Act σ ρ)} {c : Config W Pc UInt64 σ ρ}
    (h : (Locking.system code W σ ρ).Run (Locking.init code W ρ 0 data) tr c) :
    ∃ q, (sequential σ ρ).Run data (tr.filterMap fun a ↦ a.2.finished) q ∧
      ((∀ w, (c.threads w).place ≠ .writing) → c.object = q) ∧
      ∀ w l job, l = .reading ∨ l = .writing → c.threads w = ⟨l, some job⟩ →
        job.rest.run c.object = job.body.run q := by
  obtain ⟨q, hrun, hR⟩ := serializes (excludes_code hcard) inv_init h
  refine ⟨q, hrun, fun hno ↦ hR.object ?_, fun w l job hl hw ↦ (hR.follows w l job hw).running hl⟩
  rintro ⟨w, hholds | hholds, hmode⟩
  · have hmode' : (c.threads w).place.mode = .exclusive := hmode
    rw [hholds] at hmode'
    exact absurd hmode' (by decide)
  · exact hno w hholds

/-- A closure that reads twice, and compares. -/
def stable : Program ℕ ℕ := .access id fun m ↦ .access id fun n ↦ .ret (if m = n then 1 else 0)

/-- Two readers and a writer. The readers overlap, each reading a second time after the other has
read; the writer comes after both. -/
theorem reads_and_writes_are_atomic_two_readers :
    ∃ tr c, (Locking.system code (Fin 3) ℕ ℕ).Run (Locking.init code (Fin 3) ℕ 0 0) tr c ∧
      (tr.filterMap fun a ↦ a.2.finished).map (·.2) = [1, 1, 0] ∧
      (∀ w, (c.threads w).place ≠ .writing) ∧
      (sequential ℕ ℕ).Run 0 (tr.filterMap fun a ↦ a.2.finished) c.object := by
  have hstable : stable.ReadOnly := ⟨fun _ ↦ rfl, fun _ ↦ ⟨fun _ ↦ rfl, fun _ ↦ trivial⟩⟩
  have hrun : ∃ tr c, (Locking.system code (Fin 3) ℕ ℕ).Run (Locking.init code (Fin 3) ℕ 0 0) tr c ∧
      (tr.filterMap fun a ↦ a.2.finished).map (·.2) = [1, 1, 0] ∧
      ∀ w, (c.threads w).place ≠ .writing := by
    refine ⟨_, _, (((((((((((((((Run.nil (T := Locking.system code (Fin 3) ℕ ℕ)
      |>.snoc (Step.call 0 .withRead stable rfl fun _ ↦ hstable))
      |>.snoc (Step.lock (w := 0) (a := .load) rfl rfl))
      |>.snoc (Step.lock (w := 0) (a := .compareExchange false) rfl rfl))
      |>.snoc (Step.access (w := 0) rfl (Or.inl rfl)))
      |>.snoc (Step.call 1 .readLock stable rfl fun _ ↦ hstable))
      |>.snoc (Step.lock (w := 1) (a := .load) rfl rfl))
      |>.snoc (Step.lock (w := 1) (a := .compareExchange false) rfl rfl))
      |>.snoc (Step.access (w := 1) rfl (Or.inl rfl)))
      |>.snoc (Step.access (w := 0) rfl (Or.inl rfl)))
      |>.snoc (Step.finish (w := 0) rfl (Or.inl rfl)))
      |>.snoc (Step.access (w := 1) rfl (Or.inl rfl)))
      |>.snoc (Step.finish (w := 1) rfl (Or.inl rfl)))
      |>.snoc (Step.call 2 .withWrite SpinLock.increment rfl nofun))
      |>.snoc (Step.lock (w := 2) (a := .compareExchange false) rfl rfl))
      |>.snoc (Step.access (w := 2) rfl (Or.inr rfl)))
      |>.snoc (Step.access (w := 2) rfl (Or.inr rfl))
      |>.snoc (Step.finish (w := 2) rfl (Or.inr rfl)), rfl, by decide⟩
  obtain ⟨tr, c, hc, hresults, hno⟩ := hrun
  obtain ⟨q, hq, hobject, -⟩ := reads_and_writes_are_atomic (by decide) hc
  exact ⟨tr, c, hc, hresults, hno, hobject hno ▸ hq⟩

end RwSpinLock

end UserspaceRouter
