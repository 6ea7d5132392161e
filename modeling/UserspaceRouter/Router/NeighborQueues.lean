import UserspaceRouter.Foundations.Fifo
import UserspaceRouter.Router.Neighbor

/-!
# The queues of a neighbor table

Packets that wait for an address are owned by the table: one that is lost is never freed, and one
that is handed out twice is freed twice. Seen from here a table is one queue for each target.
`resolve` adds to the queue of its target or gives the packet straight back, `onArp` empties the
queue of the address it learns, and `sweep` those of the targets it gives up on; `insert` only
touches the cache.

`handedOut` is what a call takes out of the queues, target by target; a sweep returns it with the
targets forgotten. Each target's queue obeys the conservation law of `Foundations.Fifo`
(`queued_call`), and holds at most `maxPendingPerIp` packets (`bounded_call`).
-/

namespace UserspaceRouter

open TransitionSystem

variable {P : Type*}

/-- The calls on a table. -/
inductive NeighborCall (P : Type*)
  | resolve (target : Ipv4Addr) (packet : P) (reqLen : ℕ) (now : Tick)
  | onArp (ip : Ipv4Addr) (mac : MacAddr) (now : Tick)
  | insert (ip : Ipv4Addr) (mac : MacAddr) (now : Tick)
  | sweep (now : Tick)
  | setOurIp (ip : Ipv4Addr)

/-- What the calls return. -/
inductive NeighborReturn (P : Type*)
  | action (a : Action P)
  | drained (d : Option (MacAddr × List P))
  | swept (requests : List Bytes) (dropped : List P)
  | unit

namespace NeighborTable

/-- One call. -/
def call (t : NeighborTable P) : NeighborCall P → NeighborTable P × NeighborReturn P
  | .resolve target packet reqLen now =>
    let (t, a) := t.resolve target packet reqLen now
    (t, .action a)
  | .onArp ip mac now =>
    let (t, d) := t.onArp ip mac now
    (t, .drained d)
  | .insert ip mac now => (t.insert ip mac now, .unit)
  | .sweep now =>
    let (t, requests, dropped) := t.sweep now
    (t, .swept requests dropped)
  | .setOurIp ip => (t.setOurIp ip, .unit)

/-- The packets that wait for an address. -/
def queued (t : NeighborTable P) (ip : Ipv4Addr) : List P :=
  ((t.pending.lookup ip).map (·.packets)).getD []

/-- A sweep gives up on this target. -/
def isHopeless (now : Tick) (p : Pending P) : Bool := isDue now p && maxRequestAttempts ≤ p.attempts

/-- The packets a call takes out of the queues, by target. -/
def handedOut (t : NeighborTable P) : NeighborCall P → List (Ipv4Addr × List P)
  | .onArp ip _ _ => [(ip, t.queued ip)]
  | .sweep now =>
    (t.pending.entries.filter fun e ↦ isHopeless now e.2).map fun e ↦ (e.1, e.2.packets)
  | _ => []

/-- The table, one call at a time. A label is a call, what it returns, and what it takes out of the
queues. -/
def system (P : Type*) : TransitionSystem (NeighborTable P)
    (NeighborCall P × NeighborReturn P × List (Ipv4Addr × List P)) :=
  .ofCalls fun t c ↦ some ((t.call c).1, (t.call c).2, t.handedOut c)

/-- What a step adds to the queue of `ip`. -/
def entered (ip : Ipv4Addr) (a : NeighborCall P × NeighborReturn P × List (Ipv4Addr × List P)) :
    List P :=
  match a.1, a.2.1 with
  | .resolve target packet _ _, .action (.queued _) => if target = ip then [packet] else []
  | _, _ => []

/-- What a step takes out of the queue of `ip`. -/
def departed (ip : Ipv4Addr) (a : NeighborCall P × NeighborReturn P × List (Ipv4Addr × List P)) :
    List P :=
  a.2.2.flatMap fun g ↦ if g.1 = ip then g.2 else []

/-- A call returns the packets it takes out of the queues, and nothing else; and `resolve` returns
its packet or queues it. -/
def Accounts : NeighborCall P → NeighborReturn P → List (Ipv4Addr × List P) → Prop
  | .resolve _ packet _ _, r, out => out = [] ∧ ((∃ mac, r = .action (.forward mac packet)) ∨
      (∃ request, r = .action (.queued request)) ∨ r = .action (.drop packet))
  | .onArp ip mac _, r, out => ∃ packets, out = [(ip, packets)] ∧
      r = .drained (if packets.isEmpty then none else some (mac, packets))
  | .sweep _, r, out => (out.map (·.1)).Nodup ∧ ∃ requests, r = .swept requests (out.flatMap (·.2))
  | .insert _ _ _, r, out => out = [] ∧ r = .unit
  | .setOurIp _, r, out => out = [] ∧ r = .unit

/-! ### What the calls do to a queue -/

/-- The queues after the entry of a target has been written. -/
theorem queued_write (t : NeighborTable P) (target : Ipv4Addr) (p : Pending P) (ip : Ipv4Addr) :
    queued { t with pending := t.pending.insert target p } ip =
      if ip = target then p.packets else t.queued ip := by
  show (((t.pending.insert target p).lookup ip).map _).getD [] = _
  rw [AList.lookup_insert_ite]
  split_ifs <;> rfl

/-- The queues after a packet has been put at the end of one of them. -/
theorem queued_write_append {t : NeighborTable P} {target : Ipv4Addr} {packet : P} {p : Pending P}
    (hp : p.packets = t.queued target ++ [packet]) (ip : Ipv4Addr) :
    queued { t with pending := t.pending.insert target p } ip =
      t.queued ip ++ if target = ip then [packet] else [] := by
  rw [queued_write, hp]
  by_cases hip : ip = target
  · subst hip
    simp
  · simp [hip, Ne.symm hip]

/-- **What `resolve` can do**: forward the packet, refuse it because four are waiting already, or
queue it. -/
theorem resolve_cases (t : NeighborTable P) (target : Ipv4Addr) (packet : P) (reqLen : ℕ)
    (now : Tick) :
    (∃ mac, t.resolve target packet reqLen now = (t, .forward mac packet)) ∨
    ((t.resolve target packet reqLen now).2 = .drop packet ∧
      ∀ ip, (t.resolve target packet reqLen now).1.queued ip = t.queued ip) ∨
    ((∃ request, (t.resolve target packet reqLen now).2 = .queued request) ∧
      (t.queued target).length < maxPendingPerIp ∧
      ∀ ip, (t.resolve target packet reqLen now).1.queued ip =
        t.queued ip ++ if target = ip then [packet] else []) := by
  rcases hc : t.cache.lookup target with - | e
  · set entry := (t.pending.lookup target).getD ⟨[], now, 0⟩ with hentry
    have hq : entry.packets = t.queued target := by
      rw [hentry, queued]
      rcases t.pending.lookup target with - | p <;> rfl
    by_cases hfull : maxPendingPerIp ≤ entry.packets.length
    · have hres : t.resolve target packet reqLen now =
          ({ t with pending := t.pending.insert target entry }, .drop packet) := by
        simp only [resolve, hc, ← hentry, if_pos hfull]
      rw [hres]
      refine Or.inr (Or.inl ⟨rfl, fun ip ↦ ?_⟩)
      rw [queued_write, hq]
      split_ifs with hip
      · rw [hip]
      · rfl
    · have hroom : (t.queued target).length < maxPendingPerIp := by
        rw [← hq]
        exact Nat.lt_of_not_le hfull
      refine Or.inr (Or.inr ?_)
      by_cases hfirst : entry.packets.isEmpty = true
      · have hres : t.resolve target packet reqLen now =
            ({ t with pending := t.pending.insert target ⟨entry.packets ++ [packet], now, 1⟩ },
              .queued (ArpPacket.buildRequest reqLen t.ourMac t.ourIp target)) := by
          simp only [resolve, hc, ← hentry, if_neg hfull, if_pos hfirst]
        rw [hres]
        exact ⟨⟨_, rfl⟩, hroom, queued_write_append (by rw [hq])⟩
      · have hres : t.resolve target packet reqLen now =
            ({ t with
                pending := t.pending.insert target
                  { entry with packets := entry.packets ++ [packet] } },
              .queued none) := by
          simp only [resolve, hc, ← hentry, if_neg hfull, if_neg hfirst]
        rw [hres]
        exact ⟨⟨_, rfl⟩, hroom, queued_write_append (by rw [hq])⟩
  · exact Or.inl ⟨e.mac, by simp only [resolve, hc]⟩

theorem queued_onArp (t : NeighborTable P) (ip ip' : Ipv4Addr) (mac : MacAddr) (now : Tick) :
    (t.onArp ip mac now).1.queued ip' = if ip' = ip then [] else t.queued ip' := by
  show (((t.pending.erase ip).lookup ip').map _).getD [] = _
  rw [AList.lookup_erase_ite]
  split_ifs <;> rfl

/-- A sweep empties the queue of a target it gives up on, and leaves the others alone. -/
theorem queued_sweep (t : NeighborTable P) (now : Tick) (ip : Ipv4Addr) :
    (t.sweep now).1.queued ip =
      ((t.pending.lookup ip).map fun p ↦ if isHopeless now p then [] else p.packets).getD [] := by
  show (((t.pending.retainMap fun _ p ↦ retry now p).lookup ip).map _).getD [] = _
  rw [AList.lookup_retainMap]
  rcases t.pending.lookup ip with - | p
  · rfl
  · show ((retry now p).map _).getD [] = if isHopeless now p then [] else p.packets
    unfold retry isHopeless
    by_cases hdue : isDue now p = true
    · by_cases hmax : maxRequestAttempts ≤ p.attempts <;> simp [hdue, hmax]
    · simp [hdue]

/-- What a sweep takes out of the queues, read off the pending entries. -/
theorem flatMap_handedOut_sweep (t : NeighborTable P) (now : Tick)
    (f : Ipv4Addr × List P → List P) :
    (t.handedOut (.sweep now)).flatMap f =
      t.pending.entries.flatMap fun e ↦
        if isHopeless now e.2 then f (e.1, e.2.packets) else [] := by
  show List.flatMap f (List.map _ (List.filter _ _)) = _
  rw [List.flatMap_map]
  induction t.pending.entries with
  | nil => rfl
  | cons e l ih =>
    rw [List.filter_cons, List.flatMap_cons]
    by_cases hless : isHopeless now e.2 = true
    · rw [if_pos hless, List.flatMap_cons, ih, if_pos hless]
    · rw [if_neg hless, ih, if_neg hless, List.nil_append]

theorem departed_sweep (t : NeighborTable P) (now : Tick) (ip : Ipv4Addr) :
    ((t.handedOut (.sweep now)).flatMap fun g ↦ if g.1 = ip then g.2 else []) =
      ((t.pending.lookup ip).map fun p ↦ if isHopeless now p then p.packets else []).getD [] := by
  rw [← AList.flatMap_entries_ite, flatMap_handedOut_sweep]
  congr 1
  funext e
  split_ifs <;> rfl

/-- **The conservation law of a queue**: what waits for `ip`, followed by what a call adds, is what
the call takes out, followed by what waits then. -/
theorem queued_call (t : NeighborTable P) (c : NeighborCall P) (ip : Ipv4Addr) :
    t.queued ip ++ entered ip (c, (t.call c).2, t.handedOut c) =
      departed ip (c, (t.call c).2, t.handedOut c) ++ (t.call c).1.queued ip := by
  cases c with
  | resolve target packet reqLen now =>
    obtain ⟨mac, h⟩ | ⟨h, hq⟩ | ⟨⟨request, h⟩, -, hq⟩ := resolve_cases t target packet reqLen now
    · simp only [call, h]
      simp [entered, departed, handedOut]
    · simp only [call, h, hq]
      simp [entered, departed, handedOut]
    · simp only [call, h, hq]
      simp [entered, departed, handedOut]
  | onArp ip' mac now =>
    show t.queued ip ++ [] =
      departed ip (_, _, [(ip', t.queued ip')]) ++ (t.onArp ip' mac now).1.queued ip
    rw [queued_onArp]
    by_cases hip : ip = ip'
    · subst hip
      simp [departed]
    · simp [departed, hip, Ne.symm hip]
  | insert ip' mac now =>
    show t.queued ip ++ [] = t.queued ip
    rw [List.append_nil]
  | sweep now =>
    show t.queued ip ++ [] =
      ((t.handedOut (.sweep now)).flatMap fun g ↦ if g.1 = ip then g.2 else []) ++
      (t.sweep now).1.queued ip
    rw [departed_sweep, queued_sweep, queued]
    rcases t.pending.lookup ip with - | p
    · rfl
    · by_cases hless : isHopeless now p = true <;> simp [hless]
  | setOurIp ip' =>
    show t.queued ip ++ [] = t.queued ip
    rw [List.append_nil]

/-- **A call returns what it takes out of the queues.** -/
theorem accounts_call (t : NeighborTable P) (c : NeighborCall P) :
    Accounts c (t.call c).2 (t.handedOut c) := by
  cases c with
  | resolve target packet reqLen now =>
    refine ⟨rfl, ?_⟩
    obtain ⟨mac, h⟩ | ⟨h, -⟩ | ⟨⟨request, h⟩, -⟩ := resolve_cases t target packet reqLen now
    · exact Or.inl ⟨mac, by simp only [call, h]⟩
    · exact Or.inr (Or.inr (by simp only [call, h]))
    · exact Or.inr (Or.inl ⟨request, by simp only [call, h]⟩)
  | onArp ip mac now =>
    refine ⟨t.queued ip, rfl, ?_⟩
    rcases hp : t.pending.lookup ip with - | p <;> simp [call, onArp, queued, hp]
  | insert ip mac now => exact ⟨rfl, rfl⟩
  | sweep now =>
    refine ⟨?_, t.requests now, ?_⟩
    · show (((t.pending.entries.filter _).map _).map _).Nodup
      rw [List.map_map]
      exact AList.nodupKeys_filter t.pending.nodupKeys _
    · show NeighborReturn.swept (t.requests now) (t.abandoned now) = _
      rw [flatMap_handedOut_sweep]
      rfl
  | setOurIp ip => exact ⟨rfl, rfl⟩

/-- Every queue is within its bound. -/
def Bounded (t : NeighborTable P) : Prop := ∀ ip, (t.queued ip).length ≤ maxPendingPerIp

/-- **No call makes a queue too long.** -/
theorem bounded_call {t : NeighborTable P} (h : t.Bounded) (c : NeighborCall P) :
    (t.call c).1.Bounded := by
  intro ip
  -- only `resolve` adds anything, and only to a queue with room
  have hlaw := congrArg List.length (queued_call t c ip)
  rw [List.length_append, List.length_append] at hlaw
  have hold := h ip
  suffices hadd : (t.queued ip).length + (entered ip (c, (t.call c).2, t.handedOut c)).length ≤
      maxPendingPerIp by omega
  cases c with
  | resolve target packet reqLen now =>
    obtain ⟨mac, hr⟩ | ⟨hr, -⟩ | ⟨⟨request, hr⟩, hroom, -⟩ :=
      resolve_cases t target packet reqLen now
    · simpa [call, hr, entered] using hold
    · simpa [call, hr, entered] using hold
    · simp only [call, hr, entered]
      split_ifs with hip
      · subst hip
        exact hroom
      · exact hold
  | onArp ip' mac now => exact hold
  | insert ip' mac now => exact hold
  | sweep now => exact hold
  | setOurIp ip' => exact hold

/-! ### Whole runs -/

theorem step_call (t : NeighborTable P) (c : NeighborCall P) :
    (system P).step t (c, (t.call c).2, t.handedOut c) (t.call c).1 := rfl

/-- The inversion of a step. -/
theorem eq_of_step {s t : NeighborTable P} {c : NeighborCall P} {r : NeighborReturn P}
    {out : List (Ipv4Addr × List P)} (h : (system P).step s (c, r, out) t) :
    (s.call c).1 = t ∧ (s.call c).2 = r ∧ s.handedOut c = out := by
  obtain ⟨rfl, hlabel⟩ := Prod.mk.inj (Option.some.inj h)
  exact ⟨rfl, Prod.mk.inj hlabel⟩

/-- **Nothing is lost and nothing is doubled.** In every sequence of calls on a new table, each call
returns exactly the packets it takes out of the queues, and `resolve` its own packet unless it
queues it; for each target, the packets queued for it, in order, are those that have been handed out
for it, in order, followed by those that are waiting; and these are never more than
`maxPendingPerIp`. -/
theorem nothing_lost_or_doubled {ourMac : MacAddr} {ourIp : Ipv4Addr}
    {tr : List (NeighborCall P × NeighborReturn P × List (Ipv4Addr × List P))} {t : NeighborTable P}
    (h : (system P).Run (new ourMac ourIp) tr t) :
    (∀ a ∈ tr, Accounts a.1 a.2.1 a.2.2) ∧
    ∀ ip, tr.flatMap (entered ip) = tr.flatMap (departed ip) ++ t.queued ip ∧
      (t.queued ip).length ≤ maxPendingPerIp := by
  refine ⟨?_, fun ip ↦ ⟨?_, ?_⟩⟩
  · refine h.history (I := fun tr _ ↦ ∀ a ∈ tr, Accounts a.1 a.2.1 a.2.2) (by simp) ?_
    rintro tr s ⟨c, r, out⟩ t htr hst
    obtain ⟨-, rfl, rfl⟩ := eq_of_step hst
    rw [List.forall_mem_append, List.forall_mem_singleton]
    exact ⟨htr, accounts_call s c⟩
  · have hlaw := h.fifo (I := fun _ ↦ True) (fun t ↦ t.queued ip) (entered ip) (departed ip)
      trivial ?_
    · exact hlaw
    · rintro s ⟨c, r, out⟩ t - hst
      obtain ⟨rfl, rfl, rfl⟩ := eq_of_step hst
      exact ⟨trivial, queued_call s c ip⟩
  · have hbounded : t.Bounded := by
      refine h.invariant (I := Bounded) (fun _ ↦ Nat.zero_le _) ?_
      rintro s ⟨c, r, out⟩ t hs hst
      obtain ⟨rfl, -, -⟩ := eq_of_step hst
      exact bounded_call hs c
    exact hbounded ip

/-- Two packets wait for `10.0.0.2` and one for `10.0.0.3` when the first of these answers: the two
come out in order, and the third is still waiting. -/
theorem nothing_lost_or_doubled_two_targets :
    ∃ tr t, (system ℕ).Run (new .zero 0x0a000001) tr t ∧
      tr.flatMap (departed 0x0a000002) = [7, 9] ∧ t.queued 0x0a000003 = [8] := by
  have hcalls : (calls (fun t c ↦ some ((t.call c).1, (t.call c).2, t.handedOut c))
      (new .zero 0x0a000001 : NeighborTable ℕ)
      [.resolve 0x0a000002 7 64 0, .resolve 0x0a000003 8 64 0, .resolve 0x0a000002 9 64 0,
        .onArp 0x0a000002 ⟨2, 0, 0, 0, 0, 2⟩ 5]).map (fun r ↦
      (r.1.flatMap (departed 0x0a000002), r.1.flatMap (entered 0x0a000003),
        r.1.flatMap (departed 0x0a000003))) = some ([7, 9], [8], []) := by
    decide +kernel
  obtain ⟨⟨tr, t⟩, hsome, hend⟩ := Option.map_eq_some_iff.1 hcalls
  obtain ⟨hdeparted, hend⟩ := Prod.mk.inj hend
  obtain ⟨hentered, hnone⟩ := Prod.mk.inj hend
  have hrun : (system ℕ).Run (new .zero 0x0a000001) tr t := run_of_calls hsome
  refine ⟨tr, t, hrun, hdeparted, ?_⟩
  -- what entered and has not departed is waiting
  have hlaw := ((nothing_lost_or_doubled hrun).2 0x0a000003).1
  rw [hentered, hnone, List.nil_append] at hlaw
  exact hlaw.symm

end NeighborTable

end UserspaceRouter
