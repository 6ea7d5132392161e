import Mathlib.Algebra.Order.Group.Multiset
import UserspaceRouter.Router.Neighbor

/-!
# What waits in a neighbor table

All the packets that a neighbor table holds, whatever they wait for. The table is the owner of
these, and each call on it keeps account: what it held and was given is what it holds and gives
back.
-/

namespace UserspaceRouter

variable {P : Type*}

/-- The packets that an outcome of `resolve` gives back. -/
def Action.packets : Action P → List P
  | .forward _ packet | .drop packet => [packet]
  | .queued _ => []

namespace NeighborTable

/-- All the packets in the queues. -/
def waiting (t : NeighborTable P) : Multiset P := t.pending.total fun p ↦ (p.packets : Multiset P)

/-- The queue of one target, apart from the others. -/
theorem waiting_eq (t : NeighborTable P) (ip : Ipv4Addr) :
    t.waiting = (((t.pending.lookup ip).map (·.packets)).getD [] : List P) +
      (t.pending.erase ip).total fun p ↦ (p.packets : Multiset P) := by
  rcases h : t.pending.lookup ip with - | p
  · rw [AList.erase_of_lookup_eq_none h]
    exact (zero_add _).symm
  · exact AList.total_of_lookup _ h

/-- The queue of one target is written anew. -/
theorem waiting_write (t : NeighborTable P) (target : Ipv4Addr) (p : Pending P) :
    waiting { t with pending := t.pending.insert target p } =
      (p.packets : Multiset P) + (t.pending.erase target).total fun p ↦ (p.packets : Multiset P) :=
  AList.total_insert _ _ _ _

theorem waiting_resolve (t : NeighborTable P) (target : Ipv4Addr) (packet : P) (reqLen : ℕ)
    (now : Tick) :
    t.waiting + {packet} = (t.resolve target packet reqLen now).1.waiting +
      ((t.resolve target packet reqLen now).2.packets : Multiset P) := by
  rcases hc : t.cache.lookup target with - | e
  · have hold := t.waiting_eq target
    set entry := (t.pending.lookup target).getD ⟨[], now, 0⟩ with hentry
    have hpackets : ((t.pending.lookup target).map (·.packets)).getD [] = entry.packets := by
      rw [hentry]
      rcases t.pending.lookup target with - | p <;> rfl
    rw [hpackets] at hold
    -- a packet at the end of the queue
    have happend : t.waiting + {packet} = ((entry.packets ++ [packet] : List P) : Multiset P) +
        (t.pending.erase target).total fun p ↦ (p.packets : Multiset P) := by
      rw [hold, ← Multiset.coe_add, Multiset.coe_singleton]
      exact add_right_comm _ _ _
    simp only [resolve, hc, ← hentry]
    split_ifs
    · show _ = waiting { t with pending := t.pending.insert target entry } + {packet}
      rw [waiting_write, hold]
    · show _ = waiting { t with pending := t.pending.insert target _ } + 0
      rw [waiting_write, happend, add_zero]
    · show _ = waiting { t with pending := t.pending.insert target _ } + 0
      rw [waiting_write, happend, add_zero]
  · have hres : t.resolve target packet reqLen now = (t, .forward e.mac packet) := by
      simp only [resolve, hc]
    rw [hres]
    rfl

/-- The packets that `onArp` hands back. -/
def drained (d : Option (MacAddr × List P)) : List P := (d.map (·.2)).getD []

theorem waiting_onArp (t : NeighborTable P) (ip : Ipv4Addr) (mac : MacAddr) (now : Tick) :
    t.waiting = (t.onArp ip mac now).1.waiting + (drained (t.onArp ip mac now).2 : Multiset P) := by
  have hdrained : drained (t.onArp ip mac now).2 =
      ((t.pending.lookup ip).map (·.packets)).getD [] := by
    rcases h : t.pending.lookup ip with - | p
    · simp [onArp, h, drained]
    · rcases hp : p.packets with - | ⟨x, l⟩ <;> simp [onArp, h, drained, hp]
  rw [hdrained, t.waiting_eq ip, add_comm]
  rfl

theorem waiting_sweep (t : NeighborTable P) (now : Tick) :
    t.waiting = (t.sweep now).1.waiting + ((t.sweep now).2.2 : Multiset P) := by
  have hretry : ∀ (_ : Ipv4Addr) (p : Pending P), (p.packets : Multiset P) =
      ((retry now p).map fun p ↦ (p.packets : Multiset P)).getD 0 +
        ((if isDue now p && maxRequestAttempts ≤ p.attempts then p.packets else [] : List P) :
          Multiset P) := by
    intro _ p
    by_cases hdue : isDue now p = true
    · by_cases hmax : maxRequestAttempts ≤ p.attempts <;> simp [retry, hdue, hmax]
    · simp [retry, hdue]
  refine (AList.total_retainMap _ hretry t.pending).trans (congrArg _ ?_)
  show AList.total _ _ = ((t.abandoned now : List P) : Multiset P)
  rw [AList.total, abandoned]
  induction t.pending.entries with
  | nil => rfl
  | cons e l ih => rw [List.map_cons, List.sum_cons, ih, List.flatMap_cons, Multiset.coe_add]

/-! ### What the table gives back -/

variable {t : NeighborTable P} {now : Tick} {b : Bytes}

/-- A packet that is not queued is given back as it was. -/
theorem packets_resolve (t : NeighborTable P) (target : Ipv4Addr) (packet : P) (reqLen : ℕ)
    (now : Tick) : ∀ p ∈ (t.resolve target packet reqLen now).2.packets, p = packet := by
  rcases hc : t.cache.lookup target with - | e
  · simp only [resolve, hc]
    split_ifs <;> simp [Action.packets]
  · simp [resolve, hc, Action.packets]

theorem identity_resolve (t : NeighborTable P) (target : Ipv4Addr) (packet : P) (reqLen : ℕ)
    (now : Tick) :
    (t.resolve target packet reqLen now).1.ourMac = t.ourMac ∧
      (t.resolve target packet reqLen now).1.ourIp = t.ourIp := by
  obtain ⟨pending, hresolve⟩ := t.exists_pending_resolve target packet reqLen now
  rw [hresolve]
  exact ⟨rfl, rfl⟩

/-- `resolve` builds requests in the name of the table. -/
theorem request_of_resolve {target : Ipv4Addr} {packet : P} {reqLen : ℕ} {request : Option Bytes}
    (h : (t.resolve target packet reqLen now).2 = .queued request) (hb : b ∈ request) :
    ArpPacket.buildRequest reqLen t.ourMac t.ourIp target = some b := by
  rcases hc : t.cache.lookup target with - | e
  · simp only [resolve, hc] at h
    split_ifs at h
    · obtain rfl := Action.queued.inj h
      exact hb
    · obtain rfl := Action.queued.inj h
      cases hb
  · simp only [resolve, hc] at h
    cases h

theorem request_of_sweep (h : b ∈ (t.sweep now).2.1) :
    ∃ target, ArpPacket.buildRequest ArpPacket.frameLen t.ourMac t.ourIp target = some b := by
  obtain ⟨x, -, hx⟩ := List.mem_filterMap.1 h
  split_ifs at hx
  exact ⟨x.1, hx⟩

end NeighborTable

end UserspaceRouter
