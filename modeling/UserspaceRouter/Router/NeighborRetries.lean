import UserspaceRouter.Router.NeighborQueues

/-!
# Asking for a neighbor, and knowing it

A target that is not in the cache is asked for when the first packet for it is queued, and again by
sweeps, until it answers or has been asked for `maxRequestAttempts` times. The count is split
between two operations: `resolve` sets it to one on what it takes for a first miss, and `sweep` adds
to it.

`Turn` lists what a call can do to the entry of one target, together with the ticks at which it asks
for that target (`turn_call`). What a pending entry looks like (`asking_call`) and how often and at
what distance its target is asked for (`Counted.turn`) is read off that list, the second over a
`Span`: the calls from the one that finds no entry to the one that removes it.

The cache and the pending entries of a table should have no target in common. All operations but one
see to that: `insert` writes to the cache and leaves the packets waiting that are queued for the
address (`Apart.call_iff`).
-/

namespace UserspaceRouter

open TransitionSystem

variable {P : Type*}

/-- The frame is an ARP request for `ip`. -/
def asksFor (ip : Ipv4Addr) (frame : Bytes) : Bool :=
  match parseArp frame with
  | some (_, arp) => arp.isRequest && arp.targetIp == ip
  | none => false

theorem asksFor_buildRequest {bufLen : ℕ} {mac : MacAddr} {ourIp target : Ipv4Addr}
    {request : Bytes} (h : ArpPacket.buildRequest bufLen mac ourIp target = some request)
    (ip : Ipv4Addr) : asksFor ip request = decide (target = ip) := by
  unfold ArpPacket.buildRequest at h
  split_ifs at h
  obtain rfl := Option.some.inj h
  have hparse := parseArp_frame .broadcast mac
    (.mk' ArpPacket.request mac ourIp .zero target) []
  rw [List.append_nil] at hparse
  rw [asksFor, hparse]
  rfl

namespace NeighborTable

/-- The ticks at which a step asks for `ip`, one for each request it emits. -/
def asked (ip : Ipv4Addr) (a : NeighborCall P × NeighborReturn P × List (Ipv4Addr × List P)) :
    List Tick :=
  match a.1, a.2.1 with
  | .resolve _ _ _ now, .action (.queued (some request)) =>
    if asksFor ip request then [now] else []
  | .sweep now, .swept requests _ => (requests.filter (asksFor ip)).map fun _ ↦ now
  | _, _ => []

/-- What a call can do to the entry of `ip`, with the ticks at which it asks for `ip`. -/
inductive Turn (ip : Ipv4Addr) :
    NeighborCall P → Option (Pending P) → List Tick → Option (Pending P) → Prop
  | keep (c : NeighborCall P) (e : Option (Pending P)) : Turn ip c e [] e
  | create (packet : P) (reqLen : ℕ) (now : Tick) :
      Turn ip (.resolve ip packet reqLen now) none
        (if reqLen < ArpPacket.frameLen then [] else [now]) (some ⟨[packet], now, 1⟩)
  | join (c : NeighborCall P) (p : Pending P) (packet : P)
      (hroom : p.packets.length < maxPendingPerIp) :
      Turn ip c (some p) [] (some { p with packets := p.packets ++ [packet] })
  | again (p : Pending P) (now : Tick) (hdue : p.lastRequestAt + requestIntervalMs ≤ now)
      (hleft : p.attempts < maxRequestAttempts) :
      Turn ip (.sweep now) (some p) [now]
        (some { p with attempts := p.attempts + 1, lastRequestAt := now })
  | remove (c : NeighborCall P) (e : Option (Pending P)) : Turn ip c e [] none

/-! ### One call -/

theorem isDue_iff {now : Tick} {p : Pending P} :
    isDue now p = true ↔ p.lastRequestAt + requestIntervalMs ≤ now := by
  rw [isDue, Bool.not_eq_true', decide_eq_false_iff_not, Tick.elapsedSince, Nat.not_lt]
  have hsub (a b : ℕ) : 1000 ≤ a - b ↔ b + 1000 ≤ a := by omega
  exact hsub now p.lastRequestAt

/-- A request that is queued asks for its target, if there is room to build it. -/
theorem asked_queued (ip target : Ipv4Addr) (packet : P) (reqLen : ℕ) (now : Tick) (mac : MacAddr)
    (ourIp : Ipv4Addr) :
    asked ip ((.resolve target packet reqLen now : NeighborCall P),
      .action (.queued (ArpPacket.buildRequest reqLen mac ourIp target)), []) =
      if target = ip ∧ ¬reqLen < ArpPacket.frameLen then [now] else [] := by
  by_cases hlen : reqLen < ArpPacket.frameLen
  · rw [ArpPacket.buildRequest, if_pos hlen, if_neg fun h ↦ h.2 hlen]
    rfl
  · rcases hreq : ArpPacket.buildRequest reqLen mac ourIp target with - | request
    · rw [ArpPacket.buildRequest, if_neg hlen] at hreq
      exact absurd hreq (Option.some_ne_none _)
    · simp only [asked, asksFor_buildRequest hreq, decide_eq_true_eq, hlen, not_false_eq_true,
        and_true]

/-- An entry without packets is not kept in a table, see `Asking`. -/
theorem turn_resolve {t : NeighborTable P} {ip : Ipv4Addr}
    (hne : ∀ p, t.pending.lookup ip = some p → p.packets ≠ []) (target : Ipv4Addr) (packet : P)
    (reqLen : ℕ) (now : Tick) :
    Turn ip (.resolve target packet reqLen now) (t.pending.lookup ip)
      (asked ip (.resolve target packet reqLen now,
        .action (t.resolve target packet reqLen now).2, []))
      ((t.resolve target packet reqLen now).1.pending.lookup ip) := by
  rcases hc : t.cache.lookup target with - | e
  swap
  · simp only [resolve, hc]
    exact .keep _ _
  by_cases hip : target = ip
  · subst hip
    rcases hp : t.pending.lookup target with - | p
    · -- the first packet for the target
      simp only [resolve, hc, hp, Option.getD_none, List.length_nil, List.isEmpty_nil, if_true,
        List.nil_append, AList.lookup_insert, if_neg (show ¬maxPendingPerIp ≤ 0 by decide)]
      rw [asked_queued]
      simp only [true_and, ite_not]
      exact .create packet reqLen now
    · have hempty : p.packets.isEmpty = false := by
        rw [List.isEmpty_eq_false_iff]
        exact hne p hp
      by_cases hfull : maxPendingPerIp ≤ p.packets.length
      · simp only [resolve, hc, hp, Option.getD_some, if_pos hfull, AList.lookup_insert]
        exact .keep _ _
      · simp only [resolve, hc, hp, Option.getD_some, if_neg hfull, hempty, Bool.false_eq_true,
          if_false, AList.lookup_insert]
        exact .join _ p packet (Nat.lt_of_not_le hfull)
  · -- the entry of another target is written, and another target asked for
    have hlookup : (t.resolve target packet reqLen now).1.pending.lookup ip =
        t.pending.lookup ip := by
      simp only [resolve, hc]
      split_ifs <;> exact AList.lookup_insert_ne (Ne.symm hip)
    have hasked : asked ip ((.resolve target packet reqLen now : NeighborCall P),
        .action (t.resolve target packet reqLen now).2, []) = [] := by
      simp only [resolve, hc]
      split_ifs
      · rfl
      · rw [asked_queued, if_neg fun h ↦ hip h.1]
      · rfl
    rw [hlookup, hasked]
    exact .keep _ _

/-- A sweep asks once for a target it tries again. -/
theorem asked_sweep (t : NeighborTable P) (now : Tick) (ip : Ipv4Addr) :
    ((t.requests now).filter (asksFor ip)).map (fun _ ↦ now) =
      ((t.pending.lookup ip).map fun p ↦
        if isDue now p && p.attempts < maxRequestAttempts then [now] else []).getD [] := by
  rw [← AList.flatMap_entries_ite, requests]
  induction t.pending.entries with
  | nil => rfl
  | cons e l ih =>
    obtain ⟨target, p⟩ := e
    rw [List.flatMap_cons, ← ih, List.filterMap_cons]
    by_cases hretry : (isDue now p && decide (p.attempts < maxRequestAttempts)) = true
    · have hreq : ArpPacket.buildRequest ArpPacket.frameLen t.ourMac t.ourIp target =
          some (ArpPacket.frame .broadcast t.ourMac
            (.mk' ArpPacket.request t.ourMac t.ourIp .zero target)) :=
        if_neg (Nat.lt_irrefl _)
      simp only [hretry, if_true, hreq, List.filter_cons, asksFor_buildRequest hreq,
        decide_eq_true_eq]
      split_ifs <;> rfl
    · simp only [hretry, Bool.false_eq_true, if_false, ite_self, List.nil_append]

theorem turn_sweep (t : NeighborTable P) (now : Tick) (ip : Ipv4Addr) :
    Turn ip (.sweep now) (t.pending.lookup ip)
      (asked ip (.sweep now, .swept (t.requests now) (t.abandoned now), t.handedOut (.sweep now)))
      ((t.sweep now).1.pending.lookup ip) := by
  show Turn ip _ _ (((t.requests now).filter (asksFor ip)).map fun _ ↦ now)
    ((t.pending.retainMap fun _ p ↦ retry now p).lookup ip)
  rw [asked_sweep, AList.lookup_retainMap]
  rcases t.pending.lookup ip with - | p
  · exact .keep _ _
  · show Turn ip _ (some p) (if _ then [now] else []) (retry now p)
    by_cases hdue : isDue now p = true
    · by_cases hleft : p.attempts < maxRequestAttempts
      · simp only [retry, hdue, hleft, decide_true, Bool.and_self, Bool.not_true,
          Bool.false_eq_true, if_true, if_false, Nat.not_le.2 hleft]
        exact .again p now (isDue_iff.1 hdue) hleft
      · simp only [retry, hdue, hleft, decide_false, Bool.and_false, Bool.not_true,
          Bool.false_eq_true, if_false, Nat.le_of_not_lt hleft, if_true]
        exact .remove _ _
    · simp only [retry, hdue, Bool.not_false, Bool.false_and, Bool.false_eq_true, if_true,
        if_false]
      exact .keep _ _

/-- **What a call does to the entry of one target.** -/
theorem turn_call {t : NeighborTable P} (ip : Ipv4Addr)
    (hne : ∀ p, t.pending.lookup ip = some p → p.packets ≠ []) (c : NeighborCall P) :
    Turn ip c (t.pending.lookup ip) (asked ip (c, (t.call c).2, t.handedOut c))
      ((t.call c).1.pending.lookup ip) := by
  cases c with
  | resolve target packet reqLen now => exact turn_resolve hne target packet reqLen now
  | onArp ip' mac now =>
    show Turn ip _ _ [] ((t.pending.erase ip').lookup ip)
    rw [AList.lookup_erase_ite]
    split_ifs
    · exact .remove _ _
    · exact .keep _ _
  | insert ip' mac now => exact .keep _ _
  | sweep now => exact turn_sweep t now ip
  | setOurIp ip' => exact .keep _ _

/-! ### What waits -/

/-- What a pending entry looks like: somebody waits, and the target has been asked for. -/
structure EntryOk (p : Pending P) : Prop where
  packets_pos : 1 ≤ p.packets.length
  packets_le : p.packets.length ≤ maxPendingPerIp
  attempts_pos : 1 ≤ p.attempts
  attempts_le : p.attempts ≤ maxRequestAttempts

/-- All pending entries look like that. -/
def Asking (t : NeighborTable P) : Prop := ∀ ip p, t.pending.lookup ip = some p → EntryOk p

theorem EntryOk.packets_ne_nil {p : Pending P} (h : EntryOk p) : p.packets ≠ [] :=
  List.ne_nil_of_length_pos h.packets_pos

theorem Turn.entryOk {ip : Ipv4Addr} {c : NeighborCall P} {e e' : Option (Pending P)}
    {ticks : List Tick} (h : Turn ip c e ticks e') (he : ∀ p, e = some p → EntryOk p) :
    ∀ p, e' = some p → EntryOk p := by
  cases h with
  | keep => exact he
  | create packet reqLen now =>
    rintro p ⟨⟩
    have hpackets : 1 ≤ maxPendingPerIp := by decide
    have hattempts : 1 ≤ maxRequestAttempts := by decide
    exact ⟨Nat.le_refl 1, hpackets, Nat.le_refl 1, hattempts⟩
  | join _ p packet hroom =>
    rintro p' ⟨⟩
    obtain ⟨-, -, hpos, hle⟩ := he p rfl
    have hlen : (p.packets ++ [packet]).length = p.packets.length + 1 := by simp
    exact ⟨by rw [hlen]; omega, by rw [hlen]; exact hroom, hpos, hle⟩
  | again p now _ hleft =>
    rintro p' ⟨⟩
    obtain ⟨hpos, hle, -, -⟩ := he p rfl
    exact ⟨hpos, hle, Nat.le_add_left 1 _, hleft⟩
  | remove => exact fun p hp ↦ nomatch hp

theorem asking_call {t : NeighborTable P} (h : t.Asking) (c : NeighborCall P) :
    (t.call c).1.Asking := by
  intro ip
  have hturn := turn_call ip (fun p hp ↦ (h ip p hp).packets_ne_nil) c
  exact hturn.entryOk (h ip)

theorem asking_run {ourMac : MacAddr} {ourIp : Ipv4Addr}
    {tr : List (NeighborCall P × NeighborReturn P × List (Ipv4Addr × List P))} {t : NeighborTable P}
    (h : (system P).Run (new ourMac ourIp) tr t) : t.Asking := by
  refine h.invariant (fun ip p hp ↦ nomatch hp) ?_
  rintro s ⟨c, r, out⟩ t hs hst
  obtain ⟨rfl, -, -⟩ := eq_of_step hst
  exact asking_call hs c

/-- **A sweep gives up on an entry** when it has used all attempts and the last one is old. -/
theorem lookup_sweep_eq_none_iff {t : NeighborTable P} {ip : Ipv4Addr} {p : Pending P}
    (hp : t.pending.lookup ip = some p) (hok : EntryOk p) (now : Tick) :
    (t.sweep now).1.pending.lookup ip = none ↔
      p.attempts = maxRequestAttempts ∧ p.lastRequestAt + requestIntervalMs ≤ now := by
  have hlookup : (t.sweep now).1.pending.lookup ip = (t.pending.lookup ip).bind (retry now) :=
    AList.lookup_retainMap _ _ _
  rw [hlookup, hp, Option.bind_some, ← isDue_iff, retry]
  by_cases hdue : isDue now p = true
  · by_cases hused : maxRequestAttempts ≤ p.attempts
    · have heq : p.attempts = maxRequestAttempts := Nat.le_antisymm hok.attempts_le hused
      simp [hdue, heq]
    · have hne : p.attempts ≠ maxRequestAttempts := fun heq ↦ hused (Nat.le_of_eq heq.symm)
      simp [hdue, hused, hne]
  · simp [hdue]

/-! ### From the creation of an entry to its removal -/

/-- A stretch of a run that begins where nothing waits for `ip` and has something waiting for `ip`
before each of its later calls. -/
def Span (ip : Ipv4Addr) (s : NeighborTable P)
    (tr : List (NeighborCall P × NeighborReturn P × List (Ipv4Addr × List P)))
    (t : NeighborTable P) : Prop :=
  s.pending.lookup ip = none ∧ ∃ a tr' s', tr = a :: tr' ∧ (system P).step s a s' ∧
    ((system P).restrict fun u _ ↦ (u.pending.lookup ip).isSome = true).Run s' tr' t

/-- The buffer that a call offers for a request is large enough. -/
def Roomy : NeighborCall P → Prop
  | .resolve _ _ reqLen _ => ArpPacket.frameLen ≤ reqLen
  | _ => True

/-- The ticks at which a target has been asked for, compared with its entry; `roomy` is the
assumption that no request was lost for want of a buffer. -/
structure Counted (roomy : Prop) (ticks : List Tick) (e : Option (Pending P)) : Prop where
  length_le : ticks.length ≤ maxRequestAttempts
  spaced : ticks.Pairwise fun x y ↦ x + requestIntervalMs ≤ y
  length_le_attempts : ∀ p, e = some p → ticks.length ≤ p.attempts
  le_last : ∀ p, e = some p → ∀ x ∈ ticks, x ≤ p.lastRequestAt
  counted : roomy → ∀ p, e = some p →
    ticks.length = p.attempts ∧ ticks.getLast? = some p.lastRequestAt

/-- A target that is not asked for and does not wait. -/
theorem counted_none (roomy : Prop) : Counted (P := P) roomy [] none :=
  ⟨Nat.zero_le _, .nil, by simp, by simp, by simp⟩

/-- The call that creates an entry. -/
theorem Counted.first {ip : Ipv4Addr} {c : NeighborCall P} {ticks : List Tick}
    {e : Option (Pending P)} (h : Turn ip c none ticks e) : Counted (Roomy c) ticks e := by
  cases h with
  | keep => exact counted_none _
  | create packet reqLen now =>
    have hmax : 1 ≤ maxRequestAttempts := by decide
    split_ifs with hlen
    · refine ⟨Nat.zero_le _, .nil, fun _ _ ↦ Nat.zero_le _, by simp, fun hroomy ↦ ?_⟩
      exact absurd hlen (Nat.not_lt.2 hroomy)
    · refine ⟨hmax, List.pairwise_singleton _ _, ?_, ?_, fun _ ↦ ?_⟩
      · rintro p ⟨⟩
        exact Nat.le_refl 1
      · rintro p ⟨⟩ x hx
        exact Nat.le_of_eq (List.mem_singleton.1 hx)
      · rintro p ⟨⟩
        exact ⟨rfl, rfl⟩
  | remove => exact counted_none _

/-- **A later call**: it asks only if an attempt is left, and long enough after the last one. -/
theorem Counted.turn {roomy : Prop} {ip : Ipv4Addr} {c : NeighborCall P} {p : Pending P}
    {ticks new : List Tick} {e : Option (Pending P)} (h : Counted roomy ticks (some p))
    (hturn : Turn ip c (some p) new e) : Counted roomy (ticks ++ new) e := by
  obtain ⟨hlen, hspaced, hattempts, hlast, hcounted⟩ := h
  cases hturn with
  | keep =>
    rw [List.append_nil]
    exact ⟨hlen, hspaced, hattempts, hlast, hcounted⟩
  | join _ _ packet =>
    rw [List.append_nil]
    refine ⟨hlen, hspaced, ?_, ?_, fun hroomy ↦ ?_⟩ <;> rintro p' ⟨⟩
    · exact hattempts p rfl
    · exact hlast p rfl
    · exact hcounted hroomy p rfl
  | again _ now hdue hleft =>
    have hle : ticks.length + 1 ≤ p.attempts + 1 := Nat.succ_le_succ (hattempts p rfl)
    have hlen' : (ticks ++ [now]).length = ticks.length + 1 := by simp
    have hafter : ∀ x ∈ ticks, x + requestIntervalMs ≤ now := fun x hx ↦
      Nat.le_trans (Nat.add_le_add_right (hlast p rfl x hx) _) hdue
    refine ⟨?_, ?_, ?_, ?_, fun hroomy ↦ ?_⟩
    · rw [hlen']
      exact Nat.le_trans hle hleft
    · rw [List.pairwise_append]
      refine ⟨hspaced, List.pairwise_singleton _ _, fun x hx y hy ↦ ?_⟩
      rw [List.mem_singleton.1 hy]
      exact hafter x hx
    · rintro p' ⟨⟩
      rw [hlen']
      exact hle
    · rintro p' ⟨⟩ x hx
      rcases List.mem_append.1 hx with hx | hx
      · exact Nat.le_trans (Nat.le_add_right x _) (hafter x hx)
      · exact Nat.le_of_eq (List.mem_singleton.1 hx)
    · rintro p' ⟨⟩
      obtain ⟨hcount, -⟩ := hcounted hroomy p rfl
      exact ⟨by rw [hlen', hcount], List.getLast?_concat ..⟩
  | remove =>
    rw [List.append_nil]
    exact ⟨hlen, hspaced, by simp, by simp, by simp⟩

/-- **Over a whole span.** Only the call that creates the entry needs a buffer. -/
theorem Span.counted {ip : Ipv4Addr} {s t : NeighborTable P}
    {tr : List (NeighborCall P × NeighborReturn P × List (Ipv4Addr × List P))} (hs : s.Asking)
    (h : Span ip s tr t) :
    Counted (∀ a ∈ tr, Roomy a.1) (tr.flatMap (asked ip)) (t.pending.lookup ip) := by
  obtain ⟨hnone, ⟨c, r, out⟩, tr', s', rfl, hst, hrun⟩ := h
  obtain ⟨rfl, rfl, rfl⟩ := eq_of_step hst
  have hfirst := turn_call ip (fun p hp ↦ (hs ip p hp).packets_ne_nil) c
  rw [hnone] at hfirst
  set a : NeighborCall P × NeighborReturn P × List (Ipv4Addr × List P) :=
    (c, (s.call c).2, s.handedOut c)
  obtain ⟨-, hlen, hspaced, hattempts, hlast, hcounted⟩ := hrun.history
    (I := fun tr' (u : NeighborTable P) ↦ u.Asking ∧
      Counted (Roomy c) ((a :: tr').flatMap (asked ip)) (u.pending.lookup ip))
    ⟨asking_call hs c, by rw [List.flatMap_singleton]; exact .first hfirst⟩ (by
      rintro tr' u ⟨c', r', out'⟩ v ⟨hok, hu⟩ ⟨hwaits, hst'⟩
      obtain ⟨rfl, rfl, rfl⟩ := eq_of_step hst'
      have hturn := turn_call ip (fun p hp ↦ (hok ip p hp).packets_ne_nil) c'
      obtain ⟨p, hp⟩ := Option.isSome_iff_exists.1 hwaits
      rw [hp] at hu hturn
      rw [← List.cons_append, List.flatMap_append, List.flatMap_singleton]
      exact ⟨asking_call hok c', hu.turn hturn⟩)
  exact ⟨hlen, hspaced, hattempts, hlast, fun hroomy ↦ hcounted (hroomy a List.mem_cons_self)⟩

/-- **Retries are bounded and spaced.** In every sequence of calls on a new table, whatever their
ticks: a pending entry has between one and `maxPendingPerIp` packets and between one and
`maxRequestAttempts` attempts, and a sweep drops it exactly if all attempts are used and the last
one is `requestIntervalMs` old; and from the creation of an entry on, until it is removed, its
target is asked for at most `maxRequestAttempts` times, each time at least `requestIntervalMs` after
the time before. If buffers are large enough, the attempts of the entry are these requests, and its
time stamp that of the last one. -/
theorem retries_bounded_and_spaced {ourMac : MacAddr} {ourIp : Ipv4Addr}
    {tr : List (NeighborCall P × NeighborReturn P × List (Ipv4Addr × List P))} {t : NeighborTable P}
    (h : (system P).Run (new ourMac ourIp) tr t) :
    (∀ ip p, t.pending.lookup ip = some p →
      (1 ≤ p.packets.length ∧ p.packets.length ≤ maxPendingPerIp) ∧
      (1 ≤ p.attempts ∧ p.attempts ≤ maxRequestAttempts) ∧
      ∀ now, (t.sweep now).1.pending.lookup ip = none ↔
        p.attempts = maxRequestAttempts ∧ p.lastRequestAt + requestIntervalMs ≤ now) ∧
    ∀ ip pre span s, tr = pre ++ span → (system P).Run (new ourMac ourIp) pre s → Span ip s span t →
      (span.flatMap (asked ip)).length ≤ maxRequestAttempts ∧
      ((span.flatMap (asked ip)).Pairwise fun x y ↦ x + requestIntervalMs ≤ y) ∧
      ((∀ a ∈ span, Roomy a.1) → ∀ p, t.pending.lookup ip = some p →
        (span.flatMap (asked ip)).length = p.attempts ∧
        (span.flatMap (asked ip)).getLast? = some p.lastRequestAt) := by
  refine ⟨fun ip p hp ↦ ?_, fun ip pre span s _ hpre hspan ↦ ?_⟩
  · have hok := asking_run h ip p hp
    exact ⟨⟨hok.packets_pos, hok.packets_le⟩, ⟨hok.attempts_pos, hok.attempts_le⟩,
      lookup_sweep_eq_none_iff hp hok⟩
  · obtain ⟨hlen, hspaced, -, -, hcounted⟩ := hspan.counted (asking_run hpre)
    exact ⟨hlen, hspaced, hcounted⟩

/-- A packet waits for `10.0.0.2`, and sweeps ask again at the ticks 1000 and 2500, but not at the
ticks 500 and 1999. -/
theorem retries_bounded_and_spaced_three_requests :
    ∃ tr t, (system ℕ).Run (new .zero 0x0a000001) tr t ∧
      Span 0x0a000002 (new .zero 0x0a000001) tr t ∧
      tr.flatMap (asked 0x0a000002) = [0, 1000, 2500] ∧
      ((tr.flatMap (asked 0x0a000002)).Pairwise fun x y ↦ x + requestIntervalMs ≤ y) ∧
      (t.sweep 3500).1.pending.lookup 0x0a000002 = none := by
  set t₀ : NeighborTable ℕ := new .zero 0x0a000001
  have hfirst := step_call t₀ (.resolve 0x0a000002 7 64 0)
  have hwaits (t : NeighborTable ℕ) (c : NeighborCall ℕ)
      (h : (t.pending.lookup 0x0a000002).isSome = true) :
      ((system ℕ).restrict fun u _ ↦ (u.pending.lookup 0x0a000002).isSome = true).step t
        (c, (t.call c).2, t.handedOut c) (t.call c).1 := ⟨h, step_call t c⟩
  have hsecond := hwaits (t₀.call (.resolve 0x0a000002 7 64 0)).1 (.sweep 500) rfl
  have hrest := (((Run.single hsecond).snoc (hwaits _ (.sweep 1000) rfl)).snoc
    (hwaits _ (.sweep 1999) rfl)).snoc (hwaits _ (.sweep 2500) rfl)
  have hrun := (Run.single hfirst).trans hrest.of_restrict
  have hspan : Span 0x0a000002 t₀ _ _ := ⟨rfl, _, _, _, rfl, hfirst, hrest⟩
  obtain ⟨hentries, hspans⟩ := retries_bounded_and_spaced hrun
  obtain ⟨-, hspaced, -⟩ := hspans 0x0a000002 [] _ _ rfl .nil hspan
  obtain ⟨-, -, hdrop⟩ := hentries 0x0a000002 _ rfl
  refine ⟨_, _, hrun, hspan, ?_, hspaced, (hdrop 3500).2 ⟨rfl, by decide⟩⟩
  decide +kernel

/-! ### Known, or waiting -/

/-- No target is both in the cache and waiting. -/
def Apart (t : NeighborTable P) : Prop :=
  ∀ ip e p, t.cache.lookup ip = some e → t.pending.lookup ip = some p → False

/-- A packet that `resolve` forwards finds nobody waiting for the same target. -/
def InOrder (t : NeighborTable P) : Prop :=
  ∀ target packet reqLen now mac,
    (t.resolve target packet reqLen now).2 = .forward mac packet → t.queued target = []

/-- The call inserts a mapping that somebody waits for. -/
def InsertsWaiting (t : NeighborTable P) : NeighborCall P → Prop
  | .insert ip _ _ => ∃ p, t.pending.lookup ip = some p
  | _ => False

theorem apart_new (ourMac : MacAddr) (ourIp : Ipv4Addr) :
    (new ourMac ourIp : NeighborTable P).Apart := fun _ _ _ h ↦ nomatch h

theorem Apart.inOrder {t : NeighborTable P} (h : t.Apart) : t.InOrder := by
  intro target packet reqLen now mac hforward
  rcases hc : t.cache.lookup target with - | e
  · simp only [resolve, hc] at hforward
    split_ifs at hforward
  · rcases hp : t.pending.lookup target with - | p
    · rw [queued, hp]
      rfl
    · exact (h target e p hc hp).elim

/-- **One call.** The one that breaks the separation is `insert`, at a target somebody waits
for. -/
theorem Apart.call_iff {t : NeighborTable P} (h : t.Apart) (c : NeighborCall P) :
    (t.call c).1.Apart ↔ ¬t.InsertsWaiting c := by
  cases c with
  | resolve target packet reqLen now =>
    refine ⟨fun _ ↦ id, fun _ ip e p he hp ↦ ?_⟩
    have he' : t.cache.lookup ip = some e := by rwa [← cache_resolve t target packet reqLen now]
    rcases hc : t.cache.lookup target with - | e'
    · have hne : ip ≠ target := by
        rintro rfl
        exact absurd (he'.symm.trans hc) (by simp)
      refine h ip e p he' ?_
      simp only [call, resolve, hc] at hp
      split_ifs at hp <;> rwa [AList.lookup_insert_ne hne] at hp
    · simp only [call, resolve, hc] at hp
      exact h ip e p he' hp
  | onArp ip' mac now =>
    refine ⟨fun _ ↦ id, fun _ ip e p he hp ↦ ?_⟩
    have hp' : (if ip = ip' then none else t.pending.lookup ip) = some p := by
      rwa [← AList.lookup_erase_ite]
    split_ifs at hp' with hip
    have he' := lookup_cache_onArp t ip' ip mac now
    rw [if_neg hip] at he'
    exact h ip e p (he'.symm.trans he) hp'
  | insert ip' mac now =>
    constructor
    · rintro hafter ⟨p, hp⟩
      exact hafter ip' ⟨mac, now⟩ p (AList.lookup_insert _) hp
    · intro hno ip e p he hp
      have he' : (if ip = ip' then some ⟨mac, now⟩ else t.cache.lookup ip) = some e := by
        rwa [← AList.lookup_insert_ite]
      split_ifs at he' with hip
      · exact hno ⟨p, hip ▸ hp⟩
      · exact h ip e p he' hp
  | sweep now =>
    refine ⟨fun _ ↦ id, fun _ ip e p he hp ↦ ?_⟩
    have hp' : (t.pending.lookup ip).bind (retry now) = some p := by
      rwa [← AList.lookup_retainMap (fun _ p ↦ retry now p)]
    obtain ⟨p', hp', -⟩ := Option.bind_eq_some_iff.1 hp'
    exact h ip e p' (lookup_cache_of_sweep he) hp'
  | setOurIp ip' => exact ⟨fun _ ↦ id, fun _ ↦ h⟩

/-- **No target is both known and waiting**, in any state that a run passes through, and so no
packet overtakes one that waits, exactly if the run inserts no mapping that somebody waits for. -/
theorem apart_iff_no_insert_waiting (ourMac : MacAddr) (ourIp : Ipv4Addr)
    (tr : List (NeighborCall P × NeighborReturn P × List (Ipv4Addr × List P)))
    (t : NeighborTable P) :
    (∀ pre post s, tr = pre ++ post → (system P).Run (new ourMac ourIp) pre s →
      (system P).Run s post t → s.Apart ∧ s.InOrder) ↔
    ∀ pre a post s, tr = pre ++ a :: post → (system P).Run (new ourMac ourIp) pre s →
      (system P).Run s (a :: post) t → ¬s.InsertsWaiting a.1 := by
  refine Iff.trans ?_ (throughout_iff (apart_new ourMac ourIp) (B := fun s a ↦ s.InsertsWaiting a.1)
    (fun s a u hs hst ↦ by
      obtain ⟨c, r, out⟩ := a
      obtain ⟨rfl, -, -⟩ := eq_of_step hst
      exact hs.call_iff c) tr t)
  constructor
  · exact fun hall pre post s htr hpre hpost ↦ (hall pre post s htr hpre hpost).1
  · intro hapart pre post s htr hpre hpost
    have hs := hapart pre post s htr hpre hpost
    exact ⟨hs, hs.inOrder⟩

/-- Nothing is inserted: a packet waits until its target answers, and the next one is forwarded. -/
theorem apart_iff_no_insert_waiting_answer :
    ∃ tr t, (system ℕ).Run (new .zero 0x0a000001) tr t ∧ t.Apart ∧ t.InOrder ∧
      (t.resolve 0x0a000002 8 64 9).2 = .forward ⟨2, 0, 0, 0, 0, 2⟩ 8 := by
  set t₀ : NeighborTable ℕ := new .zero 0x0a000001
  have hrun := (Run.single (step_call t₀ (.resolve 0x0a000002 7 64 0))).snoc
    (step_call _ (.onArp 0x0a000002 ⟨2, 0, 0, 0, 0, 2⟩ 5))
  obtain ⟨hapart, hinOrder⟩ := (apart_iff_no_insert_waiting _ _ _ _).2
    (fun pre a post s htr _ _ hins ↦ by
      have ha := List.mem_append_right pre (List.mem_cons_self (a := a) (l := post))
      rw [← htr] at ha
      rcases List.mem_cons.1 ha with rfl | ha
      · exact hins
      · obtain rfl := List.mem_singleton.1 ha
        exact hins) _ [] _ (List.append_nil _).symm hrun .nil
  exact ⟨_, _, hrun, hapart, hinOrder, rfl⟩

/-- A packet waits for `10.0.0.2` when its mapping is inserted. The packet stays behind, and the
next one for the same target overtakes it. -/
theorem known_and_waiting_of_insert :
    ∃ tr t, (system ℕ).Run (new .zero 0x0a000001) tr t ∧ ¬t.Apart ∧
      t.queued 0x0a000002 = [7] ∧
      (t.resolve 0x0a000002 8 64 9).2 = .forward ⟨2, 0, 0, 0, 0, 2⟩ 8 := by
  set t₀ : NeighborTable ℕ := new .zero 0x0a000001
  have hrun := (Run.single (step_call t₀ (.resolve 0x0a000002 7 64 0))).snoc
    (step_call _ (.insert 0x0a000002 ⟨2, 0, 0, 0, 0, 2⟩ 5))
  exact ⟨_, _, hrun, fun happart ↦ happart 0x0a000002 _ _ rfl rfl, rfl, rfl⟩

end NeighborTable

end UserspaceRouter
