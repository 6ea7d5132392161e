import UserspaceRouter.Foundations.TransitionSystem

/-!
# First in, first out

Two ways of saying that a component passes items on in order, without losing or doubling any.

*The conservation law.* A step labelled `a` puts `input a` into the component and takes `output a`
out of it. If what was inside, followed by what came in, is what came out, followed by what is
inside now, then the same holds of a whole run (`Run.fifo`). The law is about lists, so that each
item of the left side is one item of the right side, in the same place.

*The bounded queue.* The abstract component itself: a list of at most `cap` items, to which `push`
adds at the end and from which `pop` takes at the front. It obeys the law, and never holds more than
`cap` items (`boundedQueue_run`). A program that is to be such a queue is shown to refine it, by
`Run.simulation`.
-/

namespace TransitionSystem

variable {σ α β : Type*} {T : TransitionSystem σ α}

/-- **The conservation law, over a run.** `I` is whatever invariant the law for a step needs. -/
theorem Run.fifo {I : σ → Prop} (content : σ → List β) (input output : α → List β) {s₀ : σ}
    (h₀ : I s₀)
    (hstep : ∀ s a t, I s → T.step s a t →
      I t ∧ content s ++ input a = output a ++ content t)
    {tr : List α} {s : σ} (h : T.Run s₀ tr s) :
    content s₀ ++ tr.flatMap input = tr.flatMap output ++ content s := by
  have hboth : I s ∧ content s₀ ++ tr.flatMap input = tr.flatMap output ++ content s := by
    induction h with
    | nil => exact ⟨h₀, by simp⟩
    | @snoc tr s t a _ hst ih =>
      obtain ⟨hI, hsum⟩ := ih
      obtain ⟨hI', hlaw⟩ := hstep s a t hI hst
      refine ⟨hI', ?_⟩
      calc content s₀ ++ (tr ++ [a]).flatMap input
          = (content s₀ ++ tr.flatMap input) ++ input a := by simp
        _ = tr.flatMap output ++ (content s ++ input a) := by rw [hsum, List.append_assoc]
        _ = tr.flatMap output ++ (output a ++ content t) := by rw [hlaw]
        _ = (tr ++ [a]).flatMap output ++ content t := by simp
  exact hboth.2

/-- What happens at a queue. -/
inductive QueueEvent (β : Type*)
  /-- An item is added. -/
  | push (x : β)
  /-- An item is refused, because the queue is full. -/
  | full (x : β)
  /-- An item is taken. -/
  | pop (x : β)
  /-- There is nothing to take. -/
  | empty

namespace QueueEvent

/-- What the event adds. -/
def input : QueueEvent β → List β
  | push x => [x]
  | _ => []

/-- What the event takes. -/
def output : QueueEvent β → List β
  | pop x => [x]
  | _ => []

end QueueEvent

/-- A queue of at most `cap` items, the next one to be taken in front. -/
def boundedQueue (β : Type*) (cap : ℕ) : TransitionSystem (List β) (QueueEvent β) where
  step q e q' :=
    match e with
    | .push x => q.length < cap ∧ q' = q ++ [x]
    | .full _ => q.length = cap ∧ q' = q
    | .pop x => q = x :: q'
    | .empty => q = [] ∧ q' = q

/-- What goes through a bounded queue, from any content of it. -/
theorem boundedQueue_conserves {cap : ℕ} {tr : List (QueueEvent β)} {q₀ q : List β}
    (h : (boundedQueue β cap).Run q₀ tr q) :
    q₀ ++ tr.flatMap QueueEvent.input = tr.flatMap QueueEvent.output ++ q := by
  refine h.fifo (I := fun _ ↦ True) id QueueEvent.input QueueEvent.output trivial ?_
  intro q e q' _ hst
  refine ⟨trivial, ?_⟩
  cases e with
  | push x =>
    obtain ⟨-, rfl⟩ := hst
    rfl
  | full x =>
    obtain ⟨-, rfl⟩ := hst
    exact List.append_nil _
  | pop x =>
    have hq : q = x :: q' := hst
    rw [hq]
    exact List.append_nil _
  | empty =>
    obtain ⟨-, rfl⟩ := hst
    exact List.append_nil _

/-- **A bounded queue passes items on in order**, and holds at most `cap` of them. -/
theorem boundedQueue_run {cap : ℕ} {tr : List (QueueEvent β)} {q : List β}
    (h : (boundedQueue β cap).Run [] tr q) :
    tr.flatMap QueueEvent.input = tr.flatMap QueueEvent.output ++ q ∧ q.length ≤ cap := by
  constructor
  · exact boundedQueue_conserves h
  · refine h.invariant (I := fun q ↦ q.length ≤ cap) (Nat.zero_le _) ?_
    intro q e q' hq hst
    cases e with
    | push x =>
      obtain ⟨hlt, rfl⟩ := hst
      rw [List.length_append]
      exact hlt
    | full x =>
      obtain ⟨-, rfl⟩ := hst
      exact hq
    | pop x =>
      have hcons : q = x :: q' := hst
      rw [hcons] at hq
      exact Nat.le_of_succ_le hq
    | empty =>
      obtain ⟨-, rfl⟩ := hst
      exact hq

end TransitionSystem
