import UserspaceRouter.Foundations.Program

/-!
# Objects behind a lock

A lock guards an object. A thread that wants to work on the object first runs the code of the lock,
then its own program on the object, one access at a time, and then gives the lock back. The lock may
be taken by one thread alone, or, for programs that only read, be shared.

What the lock is for is that none of this shows. `sequential` is the object used by one caller, who
makes its calls one after the other; `serializes` says that the calls made by any number of threads
under the lock, **in the order in which they give the lock back**, are such a sequence, with the
same results. As a call gives the lock back between its start and its return, a call that returns
before another one starts comes first.

All that is asked of the lock is its code (`LockCode`) and an invariant of that code from which
exclusion follows (`Excludes`). The argument is that the object belongs to whoever holds the lock: a
thread that has it alone finds what it left, and threads that share it find what no one changes.
-/

namespace Locking

open TransitionSystem

/-- How a lock is held. -/
inductive Mode
  | shared
  | exclusive
deriving DecidableEq, Repr

/-- The code of a lock with methods `K`, for threads at places `L` and a lock word `S`. -/
structure LockCode (K L S A : Type*) where
  /-- Outside. -/
  idle : L
  /-- The first instruction of a method. -/
  enter : K → L
  /-- One instruction on the way in. -/
  next : L → S → A → Option (L × S)
  /-- The lock is held. -/
  holds : L → Prop
  /-- What the lock word becomes when the lock is given back. -/
  leave : L → S → S
  /-- How a method takes the lock. -/
  takes : K → Mode
  /-- How a thread holds the lock, or is going to. -/
  mode : L → Mode
  mode_enter : ∀ m, mode (enter m) = takes m
  mode_next : ∀ {l s a l' s'}, next l s a = some (l', s') → mode l' = mode l
  not_holds_idle : ¬holds idle
  not_holds_enter : ∀ m, ¬holds (enter m)
  not_holds_next : ∀ {l s a l' s'}, next l s a = some (l', s') → ¬holds l

/-- A call on the object, and what is left of it to do. -/
structure Job (σ ρ : Type*) where
  body : Program σ ρ
  rest : Program σ ρ

/-- A thread: where it is in the code of the lock, and its call if it makes one. -/
structure Thread (L σ ρ : Type*) where
  place : L
  job : Option (Job σ ρ)

/-- Threads, the lock word and the object. -/
structure Config (W L S σ ρ : Type*) where
  threads : W → Thread L σ ρ
  word : S
  object : σ

/-- What a thread does next. -/
inductive Act (K A σ ρ : Type*)
  /-- Call a method, with the program to run under the lock. -/
  | call (method : K) (body : Program σ ρ)
  /-- An instruction of the lock. -/
  | lock (a : A)
  /-- An access to the object. -/
  | access
  /-- Give the lock back, at the end of the call `body`, which returns `result`. -/
  | finish (body : Program σ ρ) (result : ρ)

/-- The call that a step completes, with its result. -/
def Act.finished {K A σ ρ : Type*} : Act K A σ ρ → Option (Program σ ρ × ρ)
  | .finish body result => some (body, result)
  | .call _ _ | .lock _ | .access => none

/-- The object in the hands of one caller, labelled with its calls and their results. -/
def sequential (σ ρ : Type*) : TransitionSystem σ (Program σ ρ × ρ) :=
  .ofCalls fun s body ↦ some ((body.run s).2, (body.run s).1)

section

variable {W K L S A σ ρ : Type*} [DecidableEq W] (code : LockCode K L S A)

/-- An invariant of the code of a lock, from which it follows that a thread which holds the lock
alone is the only one to hold it. -/
structure Excludes (Inv : (W → L) → S → Prop) : Prop where
  enter : ∀ {ls s w} m, Inv ls s → ls w = code.idle → Inv (Function.update ls w (code.enter m)) s
  next : ∀ {ls s w a l' s'}, Inv ls s → code.next (ls w) s a = some (l', s') →
    Inv (Function.update ls w l') s'
  leave : ∀ {ls s w}, Inv ls s → code.holds (ls w) →
    Inv (Function.update ls w code.idle) (code.leave (ls w) s)
  exclusive : ∀ {ls s v w}, Inv ls s → code.holds (ls v) → code.mode (ls v) = .exclusive →
    code.holds (ls w) → w = v

/-- One thread moves. -/
def Config.set (c : Config W L S σ ρ) (w : W) (place : L) (job : Option (Job σ ρ)) (word : S)
    (object : σ) : Config W L S σ ρ :=
  ⟨Function.update c.threads w ⟨place, job⟩, word, object⟩

/-- **Threads under the lock.** -/
inductive Step : Config W L S σ ρ → W × Act K A σ ρ → Config W L S σ ρ → Prop
  | call {c : Config W L S σ ρ} (w : W) (m : K) (body : Program σ ρ)
      (hthread : c.threads w = ⟨code.idle, none⟩)
      (hread : code.takes m = .shared → body.ReadOnly) :
      Step c (w, .call m body) (c.set w (code.enter m) (some ⟨body, body⟩) c.word c.object)
  | lock {c : Config W L S σ ρ} {w : W} {a : A} {l l' : L} {job : Option (Job σ ρ)} {s : S}
      (hthread : c.threads w = ⟨l, job⟩) (hnext : code.next l c.word a = some (l', s)) :
      Step c (w, .lock a) (c.set w l' job s c.object)
  | access {c : Config W L S σ ρ} {w : W} {l : L} {body : Program σ ρ} {f : σ → σ}
      {k : σ → Program σ ρ} (hthread : c.threads w = ⟨l, some ⟨body, .access f k⟩⟩)
      (hholds : code.holds l) :
      Step c (w, .access) (c.set w l (some ⟨body, k c.object⟩) c.word (f c.object))
  | finish {c : Config W L S σ ρ} {w : W} {l : L} {body : Program σ ρ} {result : ρ}
      (hthread : c.threads w = ⟨l, some ⟨body, .ret result⟩⟩) (hholds : code.holds l) :
      Step c (w, .finish body result) (c.set w code.idle none (code.leave l c.word) c.object)

def system (W : Type*) [DecidableEq W] (σ ρ : Type*) :
    TransitionSystem (Config W L S σ ρ) (W × Act K A σ ρ) := ⟨Step code⟩

/-- All threads outside. -/
def init (W : Type*) (ρ : Type*) (word : S) (object : σ) : Config W L S σ ρ :=
  ⟨fun _ ↦ ⟨code.idle, none⟩, word, object⟩

/-! ### Refinement -/

/-- Somebody has the lock alone. -/
def Taken (c : Config W L S σ ρ) : Prop :=
  ∃ w, code.holds (c.threads w).place ∧ code.mode (c.threads w).place = .exclusive

/-- How a call under the lock stands to an object `q` on which no call has been begun: before the
thread has the lock everything is still to do, and afterwards what is left to do on the object as it
is comes to the whole call on `q`. -/
structure Follows (object q : σ) (l : L) (job : Job σ ρ) : Prop where
  waiting : ¬code.holds l → job.rest = job.body
  running : code.holds l → job.rest.run object = job.body.run q
  readOnly : code.mode l = .shared → job.rest.ReadOnly

/-- **The simulation relation.** -/
structure Refines (Inv : (W → L) → S → Prop) (c : Config W L S σ ρ) (q : σ) : Prop where
  lock : Inv (fun w ↦ (c.threads w).place) c.word
  follows : ∀ w l job, c.threads w = ⟨l, some job⟩ → Follows code c.object q l job
  object : ¬Taken code c → c.object = q

variable {code} {Inv : (W → L) → S → Prop} {c : Config W L S σ ρ} {q object : σ} {w : W}
  {l l' : L} {job : Option (Job σ ρ)} {word : S}

@[simp] theorem threads_set_self (c : Config W L S σ ρ) (w : W) (l : L) (job : Option (Job σ ρ))
    (word : S) (object : σ) : (c.set w l job word object).threads w = ⟨l, job⟩ :=
  Function.update_self ..

theorem threads_set_of_ne (c : Config W L S σ ρ) {v w : W} (h : v ≠ w) (l : L)
    (job : Option (Job σ ρ)) (word : S) (object : σ) :
    (c.set w l job word object).threads v = c.threads v := Function.update_of_ne h ..

theorem place_set (c : Config W L S σ ρ) (w : W) (l : L) (job : Option (Job σ ρ)) (word : S)
    (object : σ) : (fun v ↦ ((c.set w l job word object).threads v).place) =
      Function.update (fun v ↦ (c.threads v).place) w l := by
  funext v
  by_cases hv : v = w
  · subst hv
    simp
  · rw [threads_set_of_ne c hv, Function.update_of_ne hv]

/-- The calls of all threads follow if that of the thread that moved does, and those of the others
do. -/
theorem follows_set {object' q' : σ} {l' : L} {job' : Option (Job σ ρ)}
    (hself : ∀ job, job' = some job → Follows code object' q' l' job)
    (hothers : ∀ v l job, v ≠ w → c.threads v = ⟨l, some job⟩ → Follows code object' q' l job) :
    ∀ v l job, (c.set w l' job' word object').threads v = ⟨l, some job⟩ →
      Follows code object' q' l job := by
  intro v l job hv
  by_cases hvw : v = w
  · rw [hvw, threads_set_self] at hv
    obtain ⟨rfl, hjob⟩ := Thread.mk.inj hv
    exact hself job hjob
  · rw [threads_set_of_ne c hvw] at hv
    exact hothers v l job hvw hv

omit [DecidableEq W] in
/-- A call that has not got the lock does not care for the object. -/
theorem Follows.of_not_holds {object' q' : σ} {job : Job σ ρ} (h : Follows code object q l job)
    (hholds : ¬code.holds l) : Follows code object' q' l job :=
  ⟨h.waiting, fun hl ↦ absurd hl hholds, h.readOnly⟩

namespace Refines

omit [DecidableEq W] in
theorem init (h : Inv (fun _ ↦ code.idle) word) :
    Refines code Inv (Locking.init code W ρ word object) object where
  lock := h
  follows _ _ _ hv := absurd (Thread.mk.inj hv).2 nofun
  object _ := rfl

theorem inv_set (h : Refines code Inv c q) (hthread : c.threads w = ⟨l, job⟩)
    {job' : Option (Job σ ρ)} : Inv (fun v ↦ ((c.set w l job' c.word object).threads v).place)
      c.word := by
  have hplace : (c.threads w).place = l := by rw [hthread]
  rw [place_set, ← hplace, Function.update_eq_self]
  exact h.lock

/-- While a thread shares the lock, nobody has it alone. -/
theorem not_taken (hexcl : Excludes code Inv) (h : Refines code Inv c q)
    (hthread : c.threads w = ⟨l, job⟩) (hholds : code.holds l) (hmode : code.mode l = .shared) :
    ¬Taken code c := by
  rintro ⟨v, hv, hvmode⟩
  obtain rfl : w = v := hexcl.exclusive h.lock hv hvmode (by rw [hthread]; exact hholds)
  rw [hthread] at hvmode
  exact absurd (hmode.symm.trans hvmode) (by decide)

/-- While a thread has the lock alone, no other one has it. -/
theorem not_holds (hexcl : Excludes code Inv) (h : Refines code Inv c q)
    (hthread : c.threads w = ⟨l, job⟩) (hholds : code.holds l) (hmode : code.mode l = .exclusive)
    {v : W} (hv : v ≠ w) : ¬code.holds (c.threads v).place := fun hv' ↦
  hv (hexcl.exclusive h.lock (by rw [hthread]; exact hholds) (by rw [hthread]; exact hmode) hv')

/-- A call is started. -/
theorem call (hexcl : Excludes code Inv) (h : Refines code Inv c q) {m : K}
    {body : Program σ ρ} (hthread : c.threads w = ⟨code.idle, none⟩)
    (hread : code.takes m = .shared → body.ReadOnly) :
    Refines code Inv (c.set w (code.enter m) (some ⟨body, body⟩) c.word c.object) q := by
  have hplace : (c.threads w).place = code.idle := by rw [hthread]
  refine ⟨?_, follows_set ?_ fun v l job _ hv ↦ h.follows v l job hv, fun htaken ↦ h.object ?_⟩
  · rw [place_set]
    exact hexcl.enter m h.lock hplace
  · rintro job ⟨⟩
    refine ⟨fun _ ↦ rfl, fun hholds ↦ absurd hholds (code.not_holds_enter m), fun hmode ↦ ?_⟩
    rw [code.mode_enter] at hmode
    exact hread hmode
  · rintro ⟨v, hv, hvmode⟩
    have hne : v ≠ w := by
      rintro rfl
      rw [hplace] at hv
      exact code.not_holds_idle hv
    exact htaken ⟨v, by rw [threads_set_of_ne c hne]; exact ⟨hv, hvmode⟩⟩

/-- An instruction of the lock. If it is the one that takes the lock, the object is as it was left,
since nobody had the lock in a way that excludes this thread. -/
theorem next (hexcl : Excludes code Inv) (h : Refines code Inv c q) {a : A} {s : S}
    (hthread : c.threads w = ⟨l, job⟩) (hnext : code.next l c.word a = some (l', s)) :
    Refines code Inv (c.set w l' job s c.object) q := by
  have hplace : (c.threads w).place = l := by rw [hthread]
  have hout := code.not_holds_next hnext
  have hlock : Inv (fun v ↦ ((c.set w l' job s c.object).threads v).place) s := by
    rw [place_set]
    refine hexcl.next h.lock (a := a) ?_
    rw [hplace]
    exact hnext
  -- whoever had the lock still has it
  have hstill : ∀ v, code.holds (c.threads v).place →
      (c.set w l' job s c.object).threads v = c.threads v := by
    intro v hv
    refine threads_set_of_ne c ?_ ..
    rintro rfl
    rw [hplace] at hv
    exact hout hv
  have huntaken : code.holds l' → ¬Taken code c := by
    rintro hl ⟨v, hv, hvmode⟩
    have heq : w = v := hexcl.exclusive hlock (by rw [hstill v hv]; exact hv)
      (by rw [hstill v hv]; exact hvmode) (by rw [threads_set_self]; exact hl)
    rw [← heq, hplace] at hv
    exact hout hv
  refine ⟨hlock, follows_set ?_ fun v l job _ hv ↦ h.follows v l job hv, fun htaken ↦ h.object ?_⟩
  · rintro job rfl
    have hfollows := h.follows w l job hthread
    have hrest := hfollows.waiting hout
    refine ⟨fun _ ↦ hrest, fun hholds ↦ ?_, fun hmode ↦ ?_⟩
    · rw [hrest, h.object (huntaken hholds)]
    · exact hfollows.readOnly ((code.mode_next hnext).symm.trans hmode)
  · rintro ⟨v, hv, hvmode⟩
    exact htaken ⟨v, by rw [hstill v hv]; exact ⟨hv, hvmode⟩⟩

/-- An access to the object. -/
theorem access (hexcl : Excludes code Inv) (h : Refines code Inv c q) {body : Program σ ρ}
    {f : σ → σ} {k : σ → Program σ ρ} (hthread : c.threads w = ⟨l, some ⟨body, .access f k⟩⟩)
    (hholds : code.holds l) :
    Refines code Inv (c.set w l (some ⟨body, k c.object⟩) c.word (f c.object)) q := by
  have hfollows := h.follows w l _ hthread
  -- for the thread itself, one access has been made
  have hself : ∀ job, some (⟨body, k c.object⟩ : Job σ ρ) = some job →
      Follows code (f c.object) q l job := by
    rintro job ⟨⟩
    exact ⟨fun hnot ↦ absurd hholds hnot, hfollows.running, fun hmode ↦
      (hfollows.readOnly hmode).2 c.object⟩
  rcases hmode : code.mode l with - | -
  · -- a program that only reads leaves the object alone
    have hsame : f c.object = c.object := (hfollows.readOnly hmode).1 c.object
    refine ⟨h.inv_set hthread, follows_set hself fun v l job _ hv ↦ ?_, fun _ ↦
      hsame.trans (h.object (h.not_taken hexcl hthread hholds hmode))⟩
    rw [hsame]
    exact h.follows v l job hv
  · refine ⟨h.inv_set hthread, follows_set hself fun v l job hne hv ↦ ?_, fun htaken ↦
      absurd ⟨w, by rw [threads_set_self]; exact ⟨hholds, hmode⟩⟩ htaken⟩
    have hnot := h.not_holds hexcl hthread hholds hmode hne
    rw [hv] at hnot
    exact (h.follows v l job hv).of_not_holds hnot

/-- The lock is given back, and the call has taken effect. -/
theorem finish (hexcl : Excludes code Inv) (h : Refines code Inv c q) {body : Program σ ρ}
    {result : ρ} (hthread : c.threads w = ⟨l, some ⟨body, .ret result⟩⟩)
    (hholds : code.holds l) : body.run q = (result, c.object) ∧
      Refines code Inv (c.set w code.idle none (code.leave l c.word) c.object) c.object := by
  have hplace : (c.threads w).place = l := by rw [hthread]
  have hrun : (result, c.object) = body.run q := (h.follows w l _ hthread).running hholds
  refine ⟨hrun.symm, ?_, follows_set nofun fun v l' job hne hv ↦ ?_, fun _ ↦ rfl⟩
  · rw [place_set, ← hplace]
    exact hexcl.leave h.lock (by rw [hplace]; exact hholds)
  · rcases hmode : code.mode l with - | -
    · rw [h.object (h.not_taken hexcl hthread hholds hmode)]
      have hfollows := h.follows v l' job hv
      rwa [h.object (h.not_taken hexcl hthread hholds hmode)] at hfollows
    · have hnot := h.not_holds hexcl hthread hholds hmode hne
      rw [hv] at hnot
      exact (h.follows v l' job hv).of_not_holds hnot

end Refines

/-- **A lock that excludes makes calls atomic.** The calls that threads complete under the lock are
calls made one after the other, with the results they had; and as long as nobody has the lock alone,
the object is what these calls have made of it. -/
theorem serializes (hexcl : Excludes code Inv) (hinit : Inv (fun _ ↦ code.idle) word)
    {tr : List (W × Act K A σ ρ)} (h : (system code W σ ρ).Run (init code W ρ word object) tr c) :
    ∃ q, (sequential σ ρ).Run object (tr.filterMap fun a ↦ a.2.finished) q ∧
      Refines code Inv c q := by
  refine h.simulation (Refines.init hinit) ?_
  rintro c ⟨w, a⟩ d q hR hst
  cases hst with
  | call _ _ _ hthread hread => exact Or.inl ⟨rfl, hR.call hexcl hthread hread⟩
  | lock hthread hnext => exact Or.inl ⟨rfl, hR.next hexcl hthread hnext⟩
  | access hthread hholds => exact Or.inl ⟨rfl, hR.access hexcl hthread hholds⟩
  | @finish _ _ body result hthread hholds =>
    obtain ⟨hrun, hR'⟩ := hR.finish hexcl hthread hholds
    refine Or.inr ⟨(body, result), c.object, rfl, ?_, hR'⟩
    show some ((body.run q).2, (body.run q).1) = some (c.object, result)
    rw [hrun]

end

end Locking
