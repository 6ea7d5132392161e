import Mathlib.Algebra.BigOperators.Group.Finset.Basic
import UserspaceRouter.Foundations.TransitionSystem

/-!
# Programs of atomic accesses

A program that works on a store others work on too. `Program σ α` is the tree of what it may do: it
returns an `α`, or it accesses the store once, atomically, and goes on in a way that may depend on
what it found. Between two of its accesses anything may happen to the store.

* **Alone**, a program comes to a function of the store (`run`, `run_bind`, `run_job`).
* **Together**, any number of workers take turns, each turn one access (`workers`), in any order,
  and an environment changes the store in between. What is proved of a program for this use is
  `Safe`: from any store that meets the invariant, each access keeps it. Programs are verified piece
  by piece (`Safe.bind`, `Safe.frame`, `Safe.each`), and `covered_of_run` says that safe programs
  keep the invariant in every interleaving.

Two things may be used about a store that others change. *Resources*, counted in a commutative
monoid, of which the invariant speaks: a program owns some of them, and its accesses hand them to
the store or take them from it, with whatever belongs to the other workers left alone. And
*knowledge*: stores are ordered by what comes after what, everybody's accesses lead to later stores,
and what a program has once seen to be true is still true if it is true of all later stores.
-/

universe u v w

/-- A program that accesses a store `σ` and returns an `α`. -/
inductive Program (σ : Type u) (α : Type v) : Type (max u v)
  | ret (a : α)
  /-- Replace the store by a function of it, and go on from what it was before. -/
  | access (f : σ → σ) (k : σ → Program σ α)

namespace Program

variable {σ : Type u} {α : Type v} {β : Type w}

def bind : Program σ α → (α → Program σ β) → Program σ β
  | ret a, k => k a
  | access f k, k' => access f fun s ↦ (k s).bind k'

instance : Monad (Program σ) where
  pure := ret
  bind := bind

/-- One access that returns something. -/
def call (g : σ → α × σ) : Program σ α := access (fun s ↦ (g s).2) fun s ↦ ret (g s).1

/-- An access that only reads. -/
def read (g : σ → α) : Program σ α := call fun s ↦ (g s, s)

/-- An access that returns nothing. -/
def modify (f : σ → σ) : Program σ Unit := call fun s ↦ ((), f s)

/-- The loop over a list. -/
def each (body : α → Program σ Unit) : List α → Program σ Unit
  | [] => ret ()
  | a :: as => (body a).bind fun _ ↦ each body as

/-- A loop over a list that is broken off when its body returns `false`; `abort` then deals with the
elements that are left. -/
def eachUntil (body : α → Program σ Bool) (abort : List α → Program σ Unit) :
    List α → Program σ Bool
  | [] => ret true
  | a :: as => (body a).bind fun ok ↦
    if ok then eachUntil body abort as else (abort as).bind fun _ ↦ ret false

/-- A step that is made under a condition, and then the rest. -/
theorem ite_bind {c : Prop} [Decidable c] (p : Program σ Unit) (k : Program σ β) :
    (if c then p.bind fun _ ↦ k else k) = (if c then p else ret ()).bind fun _ ↦ k := by
  split_ifs <;> rfl

/-! ### Alone -/

/-- What a program does when nobody else touches the store. -/
def run : Program σ α → σ → α × σ
  | ret a, s => (a, s)
  | access f k, s => (k s).run (f s)

/-- Each access is made at a store that meets `C`, when nobody else touches the store. -/
def Along (C : σ → Prop) : Program σ α → σ → Prop
  | ret _, _ => True
  | access f k, s => C s ∧ (k s).Along C (f s)

instance decidableAlong (C : σ → Prop) [DecidablePred C] :
    ∀ (p : Program σ α) (s : σ), Decidable (p.Along C s)
  | ret _, _ => isTrue trivial
  | access f k, s => @instDecidableAnd _ _ _ (decidableAlong C (k s) (f s))

/-- The program never changes the store. -/
def ReadOnly : Program σ α → Prop
  | ret _ => True
  | access f k => (∀ s, f s = s) ∧ ∀ s, (k s).ReadOnly

/-! ### Together -/

section Safe

variable {M : Type*} [AddCommMonoid M] [Preorder σ] {I : σ → M → Prop}

/-- **A program is safe** to run after the store was `s₀`, with the resources `m`, if each of its
accesses leads to a later store and keeps the invariant, whatever the store is by then and whatever
resources `r` the others own; and if what it ends with meets `Q`: a store from its past, a result,
and resources. -/
def Safe (I : σ → M → Prop) (Q : σ → α → M → Prop) : Program σ α → σ → M → Prop
  | ret a, s₀, m => Q s₀ a m
  | access f k, s₀, m => ∀ s r, s₀ ≤ s → I s (r + m) →
      s ≤ f s ∧ ∃ m', I (f s) (r + m') ∧ Safe I Q (k s) (f s) m'

/-- The program ends with no resources. -/
def Done : σ → α → M → Prop := fun _ _ m ↦ m = 0

variable {Q : σ → α → M → Prop} {s₀ : σ} {m : M}

theorem Safe.bind {R : σ → β → M → Prop} {p : Program σ α} {k : α → Program σ β}
    (h : Safe I Q p s₀ m) (hk : ∀ s a m', s₀ ≤ s → Q s a m' → Safe I R (k a) s m') :
    Safe I R (p.bind k) s₀ m := by
  induction p generalizing s₀ m with
  | ret a => exact hk s₀ a m le_rfl h
  | access f k' ih =>
    intro s r hs hI
    obtain ⟨hle, m', hI', hk'⟩ := h s r hs hI
    exact ⟨hle, m', hI', ih s hk' fun t a n ht ↦ hk t a n (hs.trans (hle.trans ht))⟩

/-- **The frame rule.** Resources a program does not use are still there when it ends. -/
theorem Safe.frame {p : Program σ α} (h : Safe I Q p s₀ m) (r : M) :
    Safe I (fun s a m' ↦ ∃ n, m' = n + r ∧ Q s a n) p s₀ (m + r) := by
  induction p generalizing s₀ m with
  | ret a => exact ⟨m, rfl, h⟩
  | access f k ih =>
    intro s r' hs hI
    rw [← add_assoc, add_right_comm] at hI
    obtain ⟨hle, m', hI', hk⟩ := h s (r' + r) hs hI
    refine ⟨hle, m' + r, ?_, ih s hk⟩
    rwa [← add_assoc, add_right_comm]

/-- What a program does not use is there for what follows it. -/
theorem Safe.bind_frame {R : σ → β → M → Prop} {p : Program σ α} {k : α → Program σ β} {r : M}
    (h : Safe I Q p s₀ m) (hk : ∀ s a n, s₀ ≤ s → Q s a n → Safe I R (k a) s (n + r)) :
    Safe I R (p.bind k) s₀ (m + r) := by
  refine (h.frame r).bind ?_
  rintro s a - hs ⟨n, rfl, hQ⟩
  exact hk s a n hs hQ

theorem Safe.bind_done {R : σ → β → M → Prop} {p : Program σ α} {k : α → Program σ β} {r : M}
    (h : Safe I Done p s₀ m) (hk : ∀ s a, s₀ ≤ s → Safe I R (k a) s r) :
    Safe I R (p.bind k) s₀ (m + r) := by
  refine h.bind_frame ?_
  rintro s a - hs rfl
  rw [zero_add]
  exact hk s a hs

theorem safe_call {g : σ → α × σ} (h : ∀ s r, s₀ ≤ s → I s (r + m) →
    s ≤ (g s).2 ∧ ∃ m', I (g s).2 (r + m') ∧ Q (g s).2 (g s).1 m') :
    Safe I Q (call g) s₀ m := h

theorem safe_read {g : σ → α} (h : ∀ s r, s₀ ≤ s → I s (r + m) → Q s (g s) m) :
    Safe I Q (read g) s₀ m :=
  fun s r hs hI ↦ ⟨le_rfl, m, hI, h s r hs hI⟩

theorem safe_modify {Q : σ → Unit → M → Prop} {f : σ → σ} (h : ∀ s r, s₀ ≤ s → I s (r + m) →
    s ≤ f s ∧ ∃ m', I (f s) (r + m') ∧ Q (f s) () m') : Safe I Q (modify f) s₀ m := h

/-- A loop whose turns each use up the resources of one element. -/
theorem Safe.each {body : β → Program σ Unit} {own : β → M} {bs : List β}
    (h : ∀ b ∈ bs, ∀ s, s₀ ≤ s → Safe I Done (body b) s (own b)) :
    Safe I Done (Program.each body bs) s₀ (bs.map own).sum := by
  induction bs generalizing s₀ with
  | nil => exact (rfl : (0 : M) = 0)
  | cons b bs ih =>
    obtain ⟨hb, hbs⟩ := List.forall_mem_cons.1 h
    rw [List.map_cons, List.sum_cons]
    exact (hb s₀ le_rfl).bind_done fun s _ hs ↦ ih fun c hc t ht ↦ hbs c hc t (hs.trans ht)

/-- A loop that could be broken off, but never is. -/
theorem Safe.eachUntil {body : β → Program σ Bool} {abort : List β → Program σ Unit}
    {own : β → M} {bs : List β} (h : ∀ b ∈ bs, ∀ s, s₀ ≤ s →
      Safe I (fun _ ok m ↦ ok = true ∧ m = 0) (body b) s (own b)) :
    Safe I (fun _ ok m ↦ ok = true ∧ m = 0) (Program.eachUntil body abort bs) s₀
      (bs.map own).sum := by
  induction bs generalizing s₀ with
  | nil => exact ⟨rfl, rfl⟩
  | cons b bs ih =>
    obtain ⟨hb, hbs⟩ := List.forall_mem_cons.1 h
    rw [List.map_cons, List.sum_cons]
    refine (hb s₀ le_rfl).bind_frame ?_
    rintro s ok - hs ⟨rfl, rfl⟩
    rw [zero_add]
    exact ih fun c hc t ht ↦ hbs c hc t (hs.trans ht)

end Safe

/-! ### Interleavings -/

section Workers

open TransitionSystem

variable {W E : Type*} [DecidableEq W]

/-- What happens next among workers. -/
inductive Turn (W : Type*) (E : Type*) (σ : Type u)
  /-- A worker that is done starts on a new program. -/
  | start (w : W) (p : Program σ Unit)
  /-- A worker makes its next access. -/
  | act (w : W)
  /-- The environment acts. -/
  | env (e : E)

/-- What the environment does in a turn. -/
def Turn.event : Turn W E σ → Option E
  | start _ _ | act _ => none
  | env e => some e

/-- What the environment has done. -/
def events (tr : List (Turn W E σ)) : List E := tr.filterMap Turn.event

omit [DecidableEq W] in
theorem events_snoc (tr : List (Turn W E σ)) (a : Turn W E σ) :
    events (tr ++ [a]) = events tr ++ a.event.toList := by
  rw [events, List.filterMap_append]
  rcases ha : a.event with - | e <;> simp [events, ha]

/-- **Workers that share a store.** `jobs` are the programs a worker may start, and `env` is what
the environment may do to the store. -/
inductive Step (jobs : W → Program σ Unit → Prop) (env : σ → E → σ → Prop) :
    (W → Program σ Unit) × σ → Turn W E σ → (W → Program σ Unit) × σ → Prop
  | start {ps : W → Program σ Unit} {s : σ} {w : W} {p : Program σ Unit} (hret : ps w = ret ())
      (hjob : jobs w p) : Step jobs env (ps, s) (.start w p) (Function.update ps w p, s)
  | act {ps : W → Program σ Unit} {s : σ} {w : W} {f : σ → σ} {k : σ → Program σ Unit}
      (haccess : ps w = access f k) :
      Step jobs env (ps, s) (.act w) (Function.update ps w (k s), f s)
  | env {ps : W → Program σ Unit} {s t : σ} {e : E} (henv : env s e t) :
      Step jobs env (ps, s) (.env e) (ps, t)

def workers (jobs : W → Program σ Unit → Prop) (env : σ → E → σ → Prop) :
    TransitionSystem ((W → Program σ Unit) × σ) (Turn W E σ) := ⟨Step jobs env⟩

/-- All workers at rest. -/
def atRest (W : Type*) (s : σ) : (W → Program σ Unit) × σ := (fun _ ↦ ret (), s)

variable {jobs : W → Program σ Unit → Prop} {env : σ → E → σ → Prop}

/-- A worker that is left to itself runs its program to the end. -/
theorem run_acts {C : σ → Prop} (p : Program σ Unit) {ps : W → Program σ Unit} {w : W}
    (hp : ps w = p) {s : σ} (hC : p.Along C s) :
    ∃ n, ((workers jobs env).restrict fun c _ ↦ C c.2).Run (ps, s) (List.replicate n (.act w))
      (Function.update ps w (ret ()), (p.run s).2) := by
  induction p generalizing ps s with
  | ret a =>
    have hps : Function.update ps w (ret ()) = ps := by
      rw [← show ps w = ret () from hp, Function.update_eq_self]
    rw [hps]
    exact ⟨0, .nil⟩
  | access f k ih =>
    obtain ⟨n, hrun⟩ := ih s (Function.update_self w (k s) ps) hC.2
    rw [Function.update_idem] at hrun
    have hact : ((workers jobs env).restrict fun c _ ↦ C c.2).step (ps, s) (.act w)
        (Function.update ps w (k s), f s) := ⟨hC.1, .act hp⟩
    exact ⟨n + 1, (Run.single hact).trans hrun⟩

/-- A job that is run without interruption is one step of the store. -/
theorem run_job {C : σ → Prop} {p : Program σ Unit} {ps : W → Program σ Unit} {w : W}
    (hret : ps w = ret ()) (hjob : jobs w p) {s : σ} (hs : C s) (hC : p.Along C s) :
    ∃ n, ((workers jobs env).restrict fun c _ ↦ C c.2).Run (ps, s)
      (.start w p :: List.replicate n (.act w)) (ps, (p.run s).2) := by
  obtain ⟨n, hrun⟩ := run_acts p (Function.update_self w p ps) hC
  have hstart : ((workers jobs env).restrict fun c _ ↦ C c.2).step (ps, s) (.start w p)
      (Function.update ps w p, s) := ⟨hs, .start hret hjob⟩
  rw [Function.update_idem, ← hret, Function.update_eq_self] at hrun
  exact ⟨n, (Run.single hstart).trans hrun⟩

omit [DecidableEq W] in
/-- Meanwhile the environment does nothing. -/
theorem events_job (p : Program σ Unit) (w : W) (n : ℕ) :
    events (.start w p :: List.replicate n (.act w) : List (Turn W E σ)) = [] := by
  refine List.filterMap_eq_nil_iff.2 (List.forall_mem_cons.2 ⟨rfl, fun a ha ↦ ?_⟩)
  rw [List.eq_of_mem_replicate ha]
  rfl

/-- Turns of the workers in a given order; one that is done is passed over. -/
def play (ps : W → Program σ Unit) (s : σ) : List W → (W → Program σ Unit) × σ
  | [] => (ps, s)
  | w :: ws =>
    match ps w with
    | ret _ => play ps s ws
    | access f k => play (Function.update ps w (k s)) (f s) ws

/-- The program has come to its end. -/
def finished : Program σ α → Bool
  | ret _ => true
  | access _ _ => false

theorem eq_ret_of_finished {p : Program σ Unit} (h : p.finished = true) : p = ret () := by
  cases p with
  | ret a => rfl
  | access f k => cases h

/-- The order may be any. -/
theorem run_play (ps : W → Program σ Unit) (s : σ) (ws : List W) :
    ∃ tr, (workers jobs env).Run (ps, s) tr (play ps s ws) := by
  induction ws generalizing ps s with
  | nil => exact ⟨[], .nil⟩
  | cons w ws ih =>
    rcases hw : ps w with a | ⟨f, k⟩
    · rw [play, hw]
      exact ih ps s
    · rw [play, hw]
      obtain ⟨tr, hrun⟩ := ih (Function.update ps w (k s)) (f s)
      exact ⟨_, (Run.single (T := workers jobs env) (Step.act hw)).trans hrun⟩

variable [Fintype W] {M : Type*} [AddCommMonoid M] [Preorder σ] {I : σ → M → Prop}

/-- Worker by worker, a store from its past and the resources it owns: these make up the resources
there are, and each worker has what it needs for the rest of its program. -/
structure Share (I : σ → M → Prop) (c : (W → Program σ Unit) × σ) (past : W → σ) (own : W → M) :
    Prop where
  inv : I c.2 (∑ w, own w)
  le : ∀ w, past w ≤ c.2
  safe : ∀ w, Safe I Done (c.1 w) (past w) (own w)

/-- The workers can go on from here. -/
def Covered (I : σ → M → Prop) (c : (W → Program σ Unit) × σ) : Prop :=
  ∃ past own, Share I c past own

/-- One worker's share changes, and the rest stays. -/
theorem sum_update (own : W → M) (w : W) (m : M) :
    ∑ v, Function.update own w m v = (∑ v ∈ Finset.univ.erase w, own v) + m := by
  rw [← Finset.sum_erase_add _ _ (Finset.mem_univ w), Function.update_self]
  congr 1
  exact Finset.sum_congr rfl fun v hv ↦ Function.update_of_ne (Finset.ne_of_mem_erase hv) _ _

omit [DecidableEq W] in
/-- A worker at rest owns nothing. -/
theorem Share.own_eq_zero {c : (W → Program σ Unit) × σ} {past : W → σ} {own : W → M}
    (h : Share I c past own) {w : W} (hw : c.1 w = ret ()) : own w = 0 := by
  have hsafe := h.safe w
  rw [hw] at hsafe
  exact hsafe

/-- One worker moves, to a later store. -/
theorem Share.update {ps : W → Program σ Unit} {s t : σ} {past : W → σ} {own : W → M}
    (h : Share I (ps, s) past own) {w : W} {p : Program σ Unit} {m : M} (hle : s ≤ t)
    (hI : I t ((∑ v ∈ Finset.univ.erase w, own v) + m)) (hp : Safe I Done p t m) :
    Covered I (Function.update ps w p, t) := by
  refine ⟨Function.update past w t, Function.update own w m, by rwa [sum_update], fun v ↦ ?_,
    fun v ↦ ?_⟩
  · by_cases hv : v = w
    · subst hv
      simp
    · simpa [Function.update_of_ne hv] using (h.le v).trans hle
  · by_cases hv : v = w
    · subst hv
      simpa using hp
    · simpa [Function.update_of_ne hv] using h.safe v

/-- **One turn of safe workers.** -/
theorem Covered.step (hjobs : ∀ w p, jobs w p → ∀ s, Safe I Done p s 0)
    (henv : ∀ s e t r, env s e t → I s r → s ≤ t ∧ I t r) {c d : (W → Program σ Unit) × σ}
    {a : Turn W E σ} (hc : Covered I c) (h : Step jobs env c a d) : c.2 ≤ d.2 ∧ Covered I d := by
  obtain ⟨past, own, hshare⟩ := hc
  cases h with
  | @start ps s w p hret hjob =>
    refine ⟨le_rfl, hshare.update le_rfl ?_ (hjobs w p hjob s)⟩
    rw [← hshare.own_eq_zero hret, Finset.sum_erase_add _ _ (Finset.mem_univ w)]
    exact hshare.inv
  | @act ps s w f k haccess =>
    have hw : Safe I Done (ps w) (past w) (own w) := hshare.safe w
    have hI : I s (∑ v, own v) := hshare.inv
    rw [haccess] at hw
    rw [← Finset.sum_erase_add _ _ (Finset.mem_univ w)] at hI
    obtain ⟨hle, m', hI', hk⟩ := hw s _ (hshare.le w) hI
    exact ⟨hle, hshare.update hle hI' hk⟩
  | @env ps s t e hst =>
    obtain ⟨hle, hI⟩ := henv s e t _ hst hshare.inv
    exact ⟨hle, past, own, hI, fun w ↦ (hshare.le w).trans hle, hshare.safe⟩

/-- **Soundness.** Workers that run safe programs keep the invariant in every interleaving, and
lead to later stores. -/
theorem covered_of_run (hjobs : ∀ w p, jobs w p → ∀ s, Safe I Done p s 0)
    (henv : ∀ s e t r, env s e t → I s r → s ≤ t ∧ I t r) {s₀ : σ} (h₀ : I s₀ 0)
    {tr : List (Turn W E σ)} {c : (W → Program σ Unit) × σ}
    (h : (workers jobs env).Run (atRest W s₀) tr c) : s₀ ≤ c.2 ∧ Covered I c := by
  have hrest : Covered I (atRest W s₀) := by
    refine ⟨fun _ ↦ s₀, fun _ ↦ 0, ?_, fun _ ↦ le_rfl, fun w ↦ (rfl : (0 : M) = 0)⟩
    rwa [Finset.sum_const_zero]
  refine h.invariant (I := fun c ↦ s₀ ≤ c.2 ∧ Covered I c) ⟨le_rfl, hrest⟩ ?_
  rintro c a d ⟨hle, hc⟩ hst
  obtain ⟨hle', hd⟩ := hc.step hjobs henv hst
  exact ⟨hle.trans hle', hd⟩

end Workers

/-! ### One worker -/

section Follows

variable {H γ : Type*} {Rel : H → σ → γ → Prop} {Ok : σ → Prop}

/-- **A program follows an account** of what it does. The account is a value `g` that stores are
related to, given a history of what the environment has done; each access, made at a store that is
`Ok`, leads to a store that is related to some next value with the same history, and what the
program ends with meets `Q`. As the account need not change when the environment acts, it tells what
the one worker has done. -/
def Follows (Rel : H → σ → γ → Prop) (Ok : σ → Prop) (Q : α → γ → Prop) : Program σ α → γ → Prop
  | ret a, g => Q a g
  | access f k, g => ∀ h s, Ok s → Rel h s g → ∃ g', Rel h (f s) g' ∧ Follows Rel Ok Q (k s) g'

variable {Q Q' : α → γ → Prop} {g : γ}

theorem Follows.mono {p : Program σ α} (h : Follows Rel Ok Q p g) (hQ : ∀ a g', Q a g' → Q' a g') :
    Follows Rel Ok Q' p g := by
  induction p generalizing g with
  | ret a => exact hQ a g h
  | access f k ih =>
    intro past s hok hs
    obtain ⟨g', hs', hk⟩ := h past s hok hs
    exact ⟨g', hs', ih s hk⟩

theorem Follows.bind {R : β → γ → Prop} {p : Program σ α} {k : α → Program σ β}
    (h : Follows Rel Ok Q p g) (hk : ∀ a g', Q a g' → Follows Rel Ok R (k a) g') :
    Follows Rel Ok R (p.bind k) g := by
  induction p generalizing g with
  | ret a => exact hk a g h
  | access f k' ih =>
    intro past s hok hs
    obtain ⟨g', hs', hk'⟩ := h past s hok hs
    exact ⟨g', hs', ih s hk'⟩

theorem follows_call {f : σ → α × σ}
    (h : ∀ past s, Ok s → Rel past s g → ∃ g', Rel past (f s).2 g' ∧ Q (f s).1 g') :
    Follows Rel Ok Q (call f) g := h


open TransitionSystem in
variable (Ok) in
/-- **One worker.** If each of its jobs follows the account, and the environment leaves the account
alone, then so does every run. -/
theorem follows_of_run {E : Type*} {job : Program σ Unit → Prop} {env : σ → E → σ → Prop}
    {Rel : List E → σ → γ → Prop} {I : γ → Prop}
    (hjob : ∀ p, job p → ∀ g, I g → Follows Rel Ok (fun _ ↦ I) p g)
    (henv : ∀ past s e t g, env s e t → Rel past s g → Rel (past ++ [e]) t g) {s₀ : σ} {g₀ : γ}
    (h₀ : Rel [] s₀ g₀) (hI : I g₀) {tr : List (Turn Unit E σ)}
    {c : (Unit → Program σ Unit) × σ}
    (h : ((workers (fun _ ↦ job) env).restrict fun c _ ↦ Ok c.2).Run (atRest Unit s₀) tr c) :
    ∃ g, Rel (events tr) c.2 g ∧ Follows Rel Ok (fun _ ↦ I) (c.1 ()) g := by
  refine h.history (I := fun tr c ↦ ∃ g, Rel (events tr) c.2 g ∧
    Follows Rel Ok (fun _ ↦ I) (c.1 ()) g) ?_ ?_
  · exact ⟨g₀, h₀, hI⟩
  rintro tr c a d ⟨g, hrel, hfollows⟩ ⟨hok, hst⟩
  rw [events_snoc]
  cases hst with
  | @start ps s w p hret hp =>
    have hI' : Follows Rel Ok (fun _ ↦ I) (ps ()) g := hfollows
    rw [hret] at hI'
    refine ⟨g, (List.append_nil (events tr)).symm ▸ hrel, ?_⟩
    show Follows Rel Ok _ (Function.update ps () p ()) g
    rw [Function.update_self]
    exact hjob p hp g hI'
  | @act ps s w f k haccess =>
    have hw : Follows Rel Ok (fun _ ↦ I) (ps ()) g := hfollows
    rw [haccess] at hw
    obtain ⟨g', hrel', hk⟩ := hw _ s hok hrel
    refine ⟨g', (List.append_nil (events tr)).symm ▸ hrel', ?_⟩
    show Follows Rel Ok _ (Function.update ps () (k s) ()) g'
    rwa [Function.update_self]
  | @env ps s t e hst => exact ⟨g, henv _ s e t g hst hrel, hfollows⟩

end Follows

end Program
