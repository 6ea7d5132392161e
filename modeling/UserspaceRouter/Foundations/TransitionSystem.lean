import Mathlib.Algebra.BigOperators.Group.Finset.Piecewise
import Mathlib.Data.Fintype.Card
import Mathlib.Data.List.Induction
import Mathlib.Logic.Function.Basic
import Mathlib.Tactic.SplitIfs

/-!
# Transition systems, their runs, and interleavings

The one notion of execution this development uses. A system is a labelled step relation; a run is
a finite sequence of steps, recorded with its labels **oldest first**, so that "earlier in the run"
is "further left in the trace". Three constructions are all that the models need:

* `ofFun f`: a sequential component, whose step is a function. Its runs are the left folds of `f`
  (`run_ofFun_iff`), so a statement about runs is a statement about calling the code. `ofPartial f`
  is the same for a function that may fail, and `ofCalls f` for one that also returns something.
* `interleave local`: any number of workers, each running a local program, over one shared store.
  A step picks a worker and performs one atomic action of it; nothing constrains who is picked.
  Among its runs are those in which one worker acts alone (`step_solo`). Where the store keeps count
  of the workers, `population` is what it counts, and `population_update` what a step does to it.
* `restrict C`: the same system, with only those steps whose condition `C` holds in the state
  before the step. Its runs are the runs *all of whose steps* meet `C`.

Safety is proved through one rule in two forms: `Run.invariant`, for a property of states, and
`Run.history`, for a property that also speaks of the trace so far. Where some steps break a
property, `throughout_iff` turns an account of those steps into one of the runs. A system is
compared with a more abstract one by `Run.simulation`.
-/

/-- A labelled transition system on states `σ` with labels `α`. -/
structure TransitionSystem (σ α : Type*) where
  /-- `step s a t`: from `s` the system can perform `a` and be in `t`. -/
  step : σ → α → σ → Prop

namespace TransitionSystem

variable {σ α : Type*} {T : TransitionSystem σ α}

/-- `T.Run s₀ tr s`: some sequence of steps labelled `tr`, oldest first, leads from `s₀` to `s`. -/
inductive Run (T : TransitionSystem σ α) (s₀ : σ) : List α → σ → Prop
  | nil : Run T s₀ [] s₀
  | snoc {tr : List α} {s t : σ} {a : α} :
      Run T s₀ tr s → T.step s a t → Run T s₀ (tr ++ [a]) t

/-- **The invariant rule, with history.** A relation between traces and states that holds of the
empty run and is kept by every step holds of every run. -/
theorem Run.history {I : List α → σ → Prop} {s₀ : σ} (h₀ : I [] s₀)
    (hstep : ∀ tr s a t, I tr s → T.step s a t → I (tr ++ [a]) t)
    {tr : List α} {s : σ} (h : T.Run s₀ tr s) : I tr s := by
  induction h with
  | nil => exact h₀
  | snoc _ hst ih => exact hstep _ _ _ _ ih hst

/-- **The invariant rule.** -/
theorem Run.invariant {I : σ → Prop} {s₀ : σ} (h₀ : I s₀)
    (hstep : ∀ s a t, I s → T.step s a t → I t)
    {tr : List α} {s : σ} (h : T.Run s₀ tr s) : I s :=
  h.history (I := fun _ s ↦ I s) h₀ fun _ s a t ↦ hstep s a t

theorem Run.single {s t : σ} {a : α} (h : T.step s a t) : T.Run s [a] t :=
  (Run.nil : T.Run s [] s).snoc h

theorem Run.trans {s t u : σ} {tr tr' : List α} (h : T.Run s tr t) (h' : T.Run t tr' u) :
    T.Run s (tr ++ tr') u := by
  induction h' with
  | nil => rwa [List.append_nil]
  | snoc _ hst ih =>
    rw [← List.append_assoc]
    exact ih.snoc hst

/-- A system that can do more has more runs. -/
theorem Run.mono {T' : TransitionSystem σ α} (hstep : ∀ s a t, T.step s a t → T'.step s a t)
    {s t : σ} {tr : List α} (h : T.Run s tr t) : T'.Run s tr t := by
  induction h with
  | nil => exact Run.nil
  | snoc _ hst ih => exact ih.snoc (hstep _ _ _ hst)

/-- The last step of a nonempty run. -/
theorem Run.of_snoc {s₀ t : σ} {tr : List α} {a : α} (h : T.Run s₀ (tr ++ [a]) t) :
    ∃ s, T.Run s₀ tr s ∧ T.step s a t := by
  generalize htr : tr ++ [a] = tr' at h
  cases h with
  | nil => exact absurd htr (by simp)
  | @snoc tr₀ s _ a₀ hrun hst =>
    obtain ⟨rfl, ha⟩ := List.append_inj' htr rfl
    obtain rfl := List.singleton_inj.1 ha
    exact ⟨s, hrun, hst⟩

/-- A run passes through a state at every point of its trace. -/
theorem Run.of_append {s t : σ} {tr tr' : List α} (h : T.Run s (tr ++ tr') t) :
    ∃ u, T.Run s tr u ∧ T.Run u tr' t := by
  induction tr' using List.reverseRecOn generalizing t with
  | nil =>
    rw [List.append_nil] at h
    exact ⟨t, h, Run.nil⟩
  | append_singleton tr' a ih =>
    rw [← List.append_assoc] at h
    obtain ⟨u, hrun, hst⟩ := h.of_snoc
    obtain ⟨v, hv, hvu⟩ := ih hrun
    exact ⟨v, hv, hvu.snoc hst⟩

theorem Run.eq_of_nil {s t : σ} (h : T.Run s [] t) : s = t := by
  generalize htr : ([] : List α) = tr at h
  cases h with
  | nil => rfl
  | snoc _ _ => exact absurd htr (by simp)

/-- The first step of a nonempty run. -/
theorem Run.of_cons {s t : σ} {tr : List α} {a : α} (h : T.Run s (a :: tr) t) :
    ∃ u, T.step s a u ∧ T.Run u tr t := by
  have h' : T.Run s ([] ++ [a] ++ tr) t := h
  obtain ⟨u, hfirst, hrest⟩ := h'.of_append
  obtain ⟨s', hnil, hst⟩ := hfirst.of_snoc
  obtain rfl := hnil.eq_of_nil
  exact ⟨u, hst, hrest⟩

/-- **Where an invariant is lost.** If the steps that break a property are exactly those that meet
`B`, then the property holds in all states a run passes through exactly if no step of it meets
`B`. -/
theorem throughout_iff {I : σ → Prop} {B : σ → α → Prop} {s₀ : σ} (h₀ : I s₀)
    (hstep : ∀ s a t, I s → T.step s a t → (I t ↔ ¬B s a)) (tr : List α) (t : σ) :
    (∀ pre post s, tr = pre ++ post → T.Run s₀ pre s → T.Run s post t → I s) ↔
      ∀ pre a post s, tr = pre ++ a :: post → T.Run s₀ pre s → T.Run s (a :: post) t → ¬B s a := by
  constructor
  · rintro hI pre a post s rfl hpre hpost
    obtain ⟨u, hst, hrest⟩ := hpost.of_cons
    have hu := hI (pre ++ [a]) post u (by simp) (hpre.snoc hst) hrest
    exact (hstep s a u (hI pre _ s rfl hpre hpost) hst).1 hu
  · intro hno pre
    -- from the front of the run, one step at a time
    induction pre using List.reverseRecOn with
    | nil =>
      rintro post s - hpre -
      obtain rfl := hpre.eq_of_nil
      exact h₀
    | append_singleton pre a ih =>
      intro post u htr hpre hpost
      obtain ⟨s, hs, hst⟩ := hpre.of_snoc
      rw [List.append_assoc, List.singleton_append] at htr
      have hpost' : T.Run s (a :: post) t := (Run.single hst).trans hpost
      exact (hstep s a u (ih _ s htr hs hpost') hst).2 (hno pre a post s htr hs hpost')

/-! ### Refinement -/

/-- **The simulation rule.** If every step of `T` is invisible to the abstract system `T'`, or is
matched by the step that `obs` makes of it, then what a run of `T` shows is a run of `T'`. -/
theorem Run.simulation {τ β : Type*} {T' : TransitionSystem τ β} {obs : α → Option β}
    {R : σ → τ → Prop} {s₀ : σ} {q₀ : τ} (h₀ : R s₀ q₀)
    (hstep : ∀ s a t q, R s q → T.step s a t →
      (obs a = none ∧ R t q) ∨ ∃ b q', obs a = some b ∧ T'.step q b q' ∧ R t q')
    {tr : List α} {s : σ} (h : T.Run s₀ tr s) : ∃ q, T'.Run q₀ (tr.filterMap obs) q ∧ R s q := by
  induction h with
  | nil => exact ⟨q₀, Run.nil, h₀⟩
  | @snoc tr s t a _ hst ih =>
    obtain ⟨q, hrun, hR⟩ := ih
    rw [List.filterMap_append]
    rcases hstep s a t q hR hst with ⟨hnone, hR'⟩ | ⟨b, q', hsome, hst', hR'⟩
    · refine ⟨q, ?_, hR'⟩
      rwa [List.filterMap_cons_none hnone, List.filterMap_nil, List.append_nil]
    · refine ⟨q', ?_, hR'⟩
      rw [List.filterMap_cons_some hsome, List.filterMap_nil]
      exact hrun.snoc hst'

/-! ### Sequential components -/

/-- The system whose step is a function. -/
def ofFun (f : σ → α → σ) : TransitionSystem σ α where
  step s a t := f s a = t

/-- The runs of a sequential component are the left folds of its step. -/
theorem run_ofFun_iff {f : σ → α → σ} {s t : σ} {tr : List α} :
    (ofFun f).Run s tr t ↔ tr.foldl f s = t := by
  constructor
  · intro h
    induction h with
    | nil => rfl
    | snoc _ hst ih =>
      rw [List.foldl_append, ih]
      exact hst
  · rintro rfl
    induction tr using List.reverseRecOn with
    | nil => exact Run.nil
    | append_singleton tr a ih =>
      rw [List.foldl_append]
      exact ih.snoc rfl

/-- The invariant rule, read on folds. -/
theorem foldl_invariant {f : σ → α → σ} {I : σ → Prop} {s : σ} (h₀ : I s)
    (hstep : ∀ s a, I s → I (f s a)) (tr : List α) : I (tr.foldl f s) :=
  Run.invariant (T := ofFun f) h₀ (fun s a _ hs hst ↦ hst ▸ hstep s a hs) (run_ofFun_iff.2 rfl)

/-- The system whose step is a function that may fail. -/
def ofPartial (f : σ → α → Option σ) : TransitionSystem σ α where
  step s a t := f s a = some t

/-- A fold that succeeds is a run. -/
theorem run_of_foldlM {f : σ → α → Option σ} {s t : σ} {tr : List α}
    (h : tr.foldlM f s = some t) : (ofPartial f).Run s tr t := by
  induction tr generalizing s with
  | nil =>
    obtain rfl := Option.some.inj h
    exact Run.nil
  | cons a tr ih =>
    rw [List.foldlM_cons] at h
    obtain ⟨u, hstep, hrest⟩ := Option.bind_eq_some_iff.1 h
    have hfirst : (ofPartial f).Run s [a] u := .single hstep
    exact hfirst.trans (ih hrest)

/-- The system whose step is a call that may fail, and is labelled with what it returns. -/
def ofCalls {β : Type*} (f : σ → α → Option (σ × β)) : TransitionSystem σ (α × β) where
  step s a t := f s a.1 = some (t, a.2)

/-- Make the calls of a list, one after the other. -/
def calls {β : Type*} (f : σ → α → Option (σ × β)) (s : σ) : List α → Option (List (α × β) × σ)
  | [] => some ([], s)
  | a :: as => (f s a).bind fun p ↦ (calls f p.1 as).map fun q ↦ ((a, p.2) :: q.1, q.2)

/-- A list of calls that all succeed is a run. -/
theorem run_of_calls {β : Type*} {f : σ → α → Option (σ × β)} {s t : σ} {as : List α}
    {tr : List (α × β)} (h : calls f s as = some (tr, t)) : (ofCalls f).Run s tr t := by
  induction as generalizing s tr with
  | nil =>
    obtain ⟨rfl, rfl⟩ := Prod.mk.inj (Option.some.inj h)
    exact Run.nil
  | cons a as ih =>
    obtain ⟨⟨s', b⟩, hcall, hrest⟩ := Option.bind_eq_some_iff.1 h
    obtain ⟨⟨tr', t'⟩, hcalls, heq⟩ := Option.map_eq_some_iff.1 hrest
    obtain ⟨rfl, rfl⟩ := Prod.mk.inj heq
    have hfirst : (ofCalls f).Run s [(a, b)] s' := .single hcall
    exact hfirst.trans (ih hcalls)

/-! ### Conditioned runs -/

/-- The system that takes only the steps whose condition holds beforehand. -/
def restrict (T : TransitionSystem σ α) (C : σ → α → Prop) : TransitionSystem σ α where
  step s a t := C s a ∧ T.step s a t

theorem Run.of_restrict {C : σ → α → Prop} {s t : σ} {tr : List α}
    (h : (T.restrict C).Run s tr t) : T.Run s tr t :=
  h.mono fun _ _ _ ↦ And.right

/-- Calls that are made only where the condition holds. -/
theorem run_restrict_of_calls {β : Type*} {f : σ → α → Option (σ × β)} {C : σ → α → Prop}
    [∀ s a, Decidable (C s a)] {s t : σ} {as : List α} {tr : List (α × β)}
    (h : calls (fun s a ↦ if C s a then f s a else none) s as = some (tr, t)) :
    ((ofCalls f).restrict fun s a ↦ C s a.1).Run s tr t := by
  refine (run_of_calls h).mono fun s a t hst ↦ ?_
  have hst' : (if C s a.1 then f s a.1 else none) = some (t, a.2) := hst
  split_ifs at hst' with hC
  exact ⟨hC, hst'⟩

/-- The same for steps that return nothing. -/
theorem run_restrict_of_foldlM {f : σ → α → Option σ} {C : σ → α → Prop}
    [∀ s a, Decidable (C s a)] {s t : σ} {tr : List α}
    (h : tr.foldlM (fun s a ↦ if C s a then f s a else none) s = some t) :
    ((ofPartial f).restrict C).Run s tr t := by
  refine (run_of_foldlM h).mono fun s a t hst ↦ ?_
  have hst' : (if C s a then f s a else none) = some t := hst
  split_ifs at hst' with hC
  exact ⟨hC, hst'⟩

/-! ### Interleavings -/

section Interleave

variable {W L S : Type*} [DecidableEq W]

/-- Workers `W`, each in a local state `L`, over a shared store `S`. One step is one atomic action
of one worker, chosen freely; `loc l s a l' s'` says what an action does to the acting worker and
to the store. -/
def interleave (W : Type*) [DecidableEq W] {L S : Type*} (loc : L → S → α → L → S → Prop) :
    TransitionSystem ((W → L) × S) (W × α) where
  step s a t := ∃ l, loc (s.1 a.1) s.2 a.2 l t.2 ∧ t.1 = Function.update s.1 a.1 l

/-- The inversion of an interleaved step. -/
theorem step_interleave_iff {loc : L → S → α → L → S → Prop} {ls ls' : W → L} {s s' : S} {w : W}
    {a : α} : (interleave W loc).step (ls, s) (w, a) (ls', s') ↔
      ∃ l, loc (ls w) s a l s' ∧ ls' = Function.update ls w l :=
  Iff.rfl

/-- One worker is in the local state `l`, and every other one in `l₀`. -/
def solo (l₀ : L) (w : W) (l : L) (s : S) : (W → L) × S :=
  (Function.update (fun _ ↦ l₀) w l, s)

theorem solo_self (l₀ : L) (w : W) (s : S) : solo l₀ w l₀ s = (fun _ ↦ l₀, s) := by
  rw [solo, Function.update_eq_self_iff.2 rfl]

/-- What one worker can do, it can do while the others rest. -/
theorem step_solo {loc : L → S → α → L → S → Prop} {l₀ l l' : L} {w : W} {s s' : S} {a : α}
    (h : loc l s a l' s') : (interleave W loc).step (solo l₀ w l s) (w, a) (solo l₀ w l' s') := by
  refine ⟨l', ?_, (Function.update_idem _ _ _).symm⟩
  have hl : (solo l₀ w l s).1 w = l := by simp [solo]
  rw [hl]
  exact h

/-- Workers whose next step is a function of their own state and the store: the label of a step is
the worker that takes it. -/
def interleaveFun (W : Type*) [DecidableEq W] {L S : Type*} (next : L → S → Option (L × S)) :
    TransitionSystem ((W → L) × S) W where
  step s w t := ∃ l s', next (s.1 w) s.2 = some (l, s') ∧ t = (Function.update s.1 w l, s')

/-- Let the workers of a schedule take one step each. -/
def schedule (next : L → S → Option (L × S)) (s : (W → L) × S) : List W → Option ((W → L) × S)
  | [] => some s
  | w :: ws => (next (s.1 w) s.2).bind fun p ↦ schedule next (Function.update s.1 w p.1, p.2) ws

/-- A schedule is a run. -/
theorem run_of_schedule {next : L → S → Option (L × S)} {s t : (W → L) × S} {ws : List W}
    (h : schedule next s ws = some t) : (interleaveFun W next).Run s ws t := by
  induction ws generalizing s with
  | nil =>
    obtain rfl := Option.some.inj h
    exact Run.nil
  | cons w ws ih =>
    obtain ⟨⟨l, s'⟩, hnext, hrest⟩ := Option.bind_eq_some_iff.1 h
    have hfirst : (interleaveFun W next).Run s [w] (Function.update s.1 w l, s') :=
      .single ⟨l, s', hnext, rfl⟩
    exact hfirst.trans (ih hrest)

end Interleave

/-! ### Counting workers -/

section Population

variable {W L : Type*} [Fintype W] (p : L → Prop) [DecidablePred p] (ls : W → L)

/-- The number of workers whose local state has the property `p`. -/
def population : ℕ := (Finset.univ.filter fun w ↦ p (ls w)).card

/-- One worker moves: it is no longer counted where it was, and counted where it is. -/
theorem population_update [DecidableEq W] (w : W) (l : L) :
    population p (Function.update ls w l) + (if p (ls w) then 1 else 0) =
      population p ls + if p l then 1 else 0 := by
  have hothers : ∑ v ∈ Finset.univ.erase w, (if p (Function.update ls w l v) then 1 else 0) =
      ∑ v ∈ Finset.univ.erase w, if p (ls v) then 1 else 0 := by
    refine Finset.sum_congr rfl fun v hv ↦ ?_
    rw [Function.update_of_ne (Finset.ne_of_mem_erase hv)]
  rw [population, population, Finset.card_filter, Finset.card_filter,
    ← Finset.sum_erase_add _ _ (Finset.mem_univ w), hothers,
    ← Finset.sum_erase_add _ (fun v ↦ if p (ls v) then 1 else 0) (Finset.mem_univ w),
    Function.update_self]
  omega

theorem population_le_card : population p ls ≤ Fintype.card W := Finset.card_le_univ _

variable {p ls}

theorem population_pos {w : W} (h : p (ls w)) : 0 < population p ls :=
  Finset.card_pos.2 ⟨w, Finset.mem_filter.2 ⟨Finset.mem_univ w, h⟩⟩

theorem exists_of_population_pos (h : 0 < population p ls) : ∃ w, p (ls w) := by
  obtain ⟨w, hw⟩ := Finset.card_pos.1 h
  exact ⟨w, (Finset.mem_filter.1 hw).2⟩

/-- At most one worker is counted. -/
theorem eq_of_population_le_one (h : population p ls ≤ 1) {v w : W} (hv : p (ls v))
    (hw : p (ls w)) : v = w :=
  Finset.card_le_one.1 h v (Finset.mem_filter.2 ⟨Finset.mem_univ v, hv⟩) w
    (Finset.mem_filter.2 ⟨Finset.mem_univ w, hw⟩)

/-- Nobody is counted at the start. -/
theorem population_const_of_not {l₀ : L} (h : ¬p l₀) : population p (fun _ : W ↦ l₀) = 0 := by
  rw [population, Finset.card_eq_zero, Finset.filter_eq_empty_iff]
  exact fun _ _ ↦ h

end Population

end TransitionSystem
