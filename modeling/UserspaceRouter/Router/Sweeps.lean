import UserspaceRouter.Router.Bridge
import UserspaceRouter.Router.Edits

/-!
# How often the router sweeps

`maybeSweep` is called in every round of the sweeper's loop and is meant to do something at most
once in `sweepIntervalMs`. It remembers the tick of the last sweep in 32 bits, where a later tick
is cut down to the largest number that fits.

`sweepCalls` are the calls in a run, each with the states before and after it. A call either sweeps
both neighbor tables and the flow table, at its tick, or does nothing at all (`maybeSweep_cases`).
The LAN ports share one table, which the loop over them sweeps once for each port; only the first of
these sweeps finds something to do (`sweep_sweep`), so the requests for LAN hosts all go out on the
first LAN port.

**When a call sweeps.** `schedule` says of the ticks of the calls, and of nothing else, which calls
ought to sweep. Up to the tick `2 ^ 32 + 248` the router sweeps on schedule, and from then on always
(`sweepDue_eq`).
-/

namespace UserspaceRouter

/-! ### Sweeping twice -/

namespace NeighborTable

variable {P : Type*}

/-- An entry that was kept is not due again at the same tick. -/
theorem isDue_of_retry {now : Tick} {p q : Pending P} (h : retry now p = some q) :
    isDue now q = false := by
  unfold retry at h
  by_cases hdue : isDue now p = true
  · rw [hdue, if_neg (by decide)] at h
    split_ifs at h
    obtain rfl := Option.some.inj h
    simp [isDue, Tick.elapsedSince, requestIntervalMs]
  · rw [Bool.not_eq_true] at hdue
    rw [hdue, if_pos (by decide)] at h
    rwa [← Option.some.inj h]

/-- **A second sweep at the same tick does nothing.** -/
theorem sweep_sweep (t : NeighborTable P) (now : Tick) :
    (t.sweep now).1.sweep now = ((t.sweep now).1, [], []) := by
  have hcacheEq : (t.sweep now).1.cache = t.cache.retain
    fun _ e ↦ Tick.elapsedSince now e.learnedAt < cacheTtlMs := rfl
  have hresolvedEq : (t.sweep now).1.resolved = t.resolved.retain
    fun _ ip ↦ ((t.sweep now).1.cache.lookup ip).isSome := rfl
  have hdue : ∀ ip p, (t.sweep now).1.pending.lookup ip = some p → isDue now p = false := by
    intro ip p hp
    rw [show (t.sweep now).1.pending = t.pending.retainMap fun _ p ↦ retry now p from rfl,
      AList.lookup_retainMap] at hp
    obtain ⟨q, -, hq⟩ := Option.bind_eq_some_iff.1 hp
    exact isDue_of_retry hq
  have hentry : ∀ e ∈ (t.sweep now).1.pending.entries, isDue now e.2 = false := fun e he ↦
    hdue e.1 e.2 (Option.mem_def.1 (AList.mem_lookup_iff.2 he))
  have hrequests : (t.sweep now).1.requests now = [] := by
    rw [requests, List.filterMap_eq_nil_iff]
    intro e he
    rw [hentry e he]
    rfl
  have habandoned : (t.sweep now).1.abandoned now = [] := by
    rw [abandoned, List.flatMap_eq_nil_iff]
    intro e he
    rw [hentry e he]
    rfl
  have hpending : (t.sweep now).1.pending.retainMap (fun _ p ↦ retry now p) =
      (t.sweep now).1.pending := by
    refine AList.retainMap_eq_self fun ip p hp ↦ ?_
    rw [retry, hdue ip p hp]
    rfl
  have hcache : (t.sweep now).1.cache.retain
      (fun _ e ↦ Tick.elapsedSince now e.learnedAt < cacheTtlMs) = (t.sweep now).1.cache := by
    refine AList.retain_eq_self fun ip e he ↦ ?_
    rw [hcacheEq, AList.lookup_retain] at he
    exact (Option.filter_eq_some_iff.1 he).2
  have hresolved : (t.sweep now).1.resolved.retain
      (fun _ ip ↦ ((t.sweep now).1.cache.lookup ip).isSome) = (t.sweep now).1.resolved := by
    refine AList.retain_eq_self fun mac ip hip ↦ ?_
    rw [hresolvedEq, AList.lookup_retain] at hip
    exact (Option.filter_eq_some_iff.1 hip).2
  rw [sweep, hrequests, habandoned]
  simp only [hpending, hcache, hresolved]

end NeighborTable

namespace App

variable {cfg : AppConfig}

/-! ### The calls in a run -/

/-- A call of `maybeSweep` sweeps: there has been no sweep, or the last one is old enough. -/
def sweepDue (s : App) (now : Tick) : Bool :=
  !(decide (s.lastSweepMs.toNat ≠ 0 ∧ now - s.lastSweepMs.toNat < sweepIntervalMs))

/-- A call of `maybeSweep`: its tick, the states before and after it, and what it sent. -/
structure SweepCall where
  now : Tick
  before : App
  after : App
  sent : List Transmission

/-- Whether the call performs a sweep. -/
def SweepCall.sweeps (c : SweepCall) : Bool := c.before.sweepDue c.now

/-- The call that an event is, if it is one. -/
def sweepCall (s : App) (t : App) (sent : List Transmission) : Event cfg → List SweepCall
  | .sweep now => [⟨now, s, t, sent⟩]
  | _ => []

/-- The calls of `maybeSweep` among the events. -/
def sweepCalls (cfg : AppConfig) (s : App) : List (Event cfg) → List SweepCall
  | [] => []
  | e :: events =>
    match s.step cfg e with
    | none => []
    | some (t, sent) => s.sweepCall t sent e ++ t.sweepCalls cfg events

/-- **What a sweep does**, from the state `s` at tick `now`. -/
structure Swept (cfg : AppConfig) (now : Tick) (s t : App) (sent : List Transmission) : Prop where
  wan : t.ports.wan = (s.ports.wan.sweep now).1
  lan : cfg.lan ≠ [] → t.ports.lan.neighbors = (s.ports.lan.neighbors.sweep now).1
  conntrack : t.firewall.conntrack = s.firewall.conntrack.sweep now
  /-- The requests for hosts on the WAN, and those for hosts on the LAN. -/
  sent_eq : sent = ((s.ports.wan.requests now).map fun req ↦ (cfg.wan.portId, .frame req)) ++
    cfg.lan.head?.toList.flatMap fun port ↦
      (s.ports.lan.neighbors.requests now).map fun req ↦ (port.portId, .frame req)
  /-- Nothing else changes, but for the tick that is stored. -/
  rest : t = { s with
    lastSweepMs := UInt32.ofNat (min now (2 ^ 32 - 1))
    ports := { lan := { s.ports.lan with neighbors := t.ports.lan.neighbors }, wan := t.ports.wan }
    firewall := { s.firewall with conntrack := t.firewall.conntrack } }

/-! ### What a call does -/

/-- After the first LAN port, there is nothing to sweep. -/
theorem foldl_sweepLan_swept (now : Tick) (t : NeighborTable Bytes) (lan : List PortInfo)
    (sent : List Transmission) :
    lan.foldl (sweepLan now) ((t.sweep now).1, sent) = ((t.sweep now).1, sent) := by
  induction lan with
  | nil => rfl
  | cons port lan ih =>
    have hfirst : sweepLan now ((t.sweep now).1, sent) port = ((t.sweep now).1, sent) := by
      simp only [sweepLan, t.sweep_sweep now, List.map_nil, List.append_nil]
    rw [List.foldl_cons, hfirst, ih]

theorem foldl_sweepLan (now : Tick) (t : NeighborTable Bytes) (lan : List PortInfo)
    (sent : List Transmission) :
    (lan ≠ [] → (lan.foldl (sweepLan now) (t, sent)).1 = (t.sweep now).1) ∧
      (lan.foldl (sweepLan now) (t, sent)).2 = sent ++ lan.head?.toList.flatMap fun port ↦
        (t.requests now).map fun req ↦ (port.portId, .frame req) := by
  rcases lan with - | ⟨port, lan⟩
  · exact ⟨fun h ↦ absurd rfl h, (List.append_nil _).symm⟩
  · have hfirst : sweepLan now (t, sent) port = ((t.sweep now).1,
        sent ++ (t.requests now).map fun req ↦ (port.portId, .frame req)) := rfl
    rw [List.foldl_cons, hfirst, foldl_sweepLan_swept]
    refine ⟨fun _ ↦ rfl, ?_⟩
    rw [List.head?_cons, Option.toList_some, List.flatMap_singleton]

/-- **A call that does not sweep does nothing, and one that does sweeps all tables.** -/
theorem maybeSweep_cases (cfg : AppConfig) (s : App) (now : Tick) :
    (s.sweepDue now = false ∧ s.maybeSweep cfg now = (s, [])) ∨
      (s.sweepDue now = true ∧
        Swept cfg now s (s.maybeSweep cfg now).1 (s.maybeSweep cfg now).2) := by
  unfold maybeSweep sweepDue
  by_cases hskip : s.lastSweepMs.toNat ≠ 0 ∧ now - s.lastSweepMs.toNat < sweepIntervalMs
  · exact Or.inl ⟨by rw [decide_eq_true hskip]; rfl, if_pos hskip⟩
  · refine Or.inr ⟨by rw [decide_eq_false hskip]; rfl, ?_⟩
    simp only [if_neg hskip]
    obtain ⟨hlan, hsent⟩ := foldl_sweepLan now s.ports.lan.neighbors cfg.lan
      ((s.ports.wan.requests now).map fun req ↦ (cfg.wan.portId, .frame req))
    exact ⟨rfl, hlan, rfl, hsent, rfl⟩

/-- No other handler stores a tick. -/
theorem Edits.lastSweepMs_eq {s t : App} (h : Edits s t) : t.lastSweepMs = s.lastSweepMs := by
  refine h.keeps (I := fun t ↦ t.lastSweepMs = s.lastSweepMs) (fun u v huv hu ↦ ?_) rfl
  cases huv <;> exact hu

/-- **An event is a call, or stores no tick.** -/
theorem sweepCall_cases {s t : App} {e : Event cfg} {sent : List Transmission}
    (h : s.step cfg e = some (t, sent)) :
    (s.sweepCall t sent e = [] ∧ t.lastSweepMs = s.lastSweepMs) ∨
      ∃ now, s.sweepCall t sent e = [⟨now, s, t, sent⟩] ∧ s.maybeSweep cfg now = (t, sent) := by
  cases e with
  | lanFrame port frame now => exact Or.inl ⟨rfl, (edits_driveLan h).lastSweepMs_eq⟩
  | wanFrame frame now =>
    obtain rfl : (s.driveWan cfg frame now).1 = t := by rw [Option.some.inj h]
    exact Or.inl ⟨rfl, (edits_driveWan s frame now).lastSweepMs_eq⟩
  | client =>
    obtain rfl : (s.driveClient cfg).1 = t := by rw [Option.some.inj h]
    exact Or.inl ⟨rfl, (edits_driveClient s).lastSweepMs_eq⟩
  | sweep now => exact Or.inr ⟨now, rfl, Option.some.inj h⟩

/-- **Every call of a run** sweeps all tables, or does nothing. -/
theorem swept_or_skipped {s : App} {events : List (Event cfg)} {c : SweepCall}
    (hc : c ∈ s.sweepCalls cfg events) :
    (c.sweeps = true → Swept cfg c.now c.before c.after c.sent) ∧
      (c.sweeps = false → c.after = c.before ∧ c.sent = []) := by
  induction events generalizing s with
  | nil => exact absurd hc List.not_mem_nil
  | cons e events ih =>
    rcases hstep : s.step cfg e with - | ⟨t, sent⟩
    · rw [sweepCalls, hstep] at hc
      exact absurd hc List.not_mem_nil
    rw [sweepCalls, hstep] at hc
    rcases List.mem_append.1 hc with hc | hc
    · obtain ⟨hnone, -⟩ | ⟨now, hcall, hsweep⟩ := sweepCall_cases hstep
      · rw [hnone] at hc
        exact absurd hc List.not_mem_nil
      · rw [hcall, List.mem_singleton] at hc
        obtain rfl := hc
        obtain ⟨hdue, heq⟩ | ⟨hdue, hswept⟩ := maybeSweep_cases cfg s now
        · refine ⟨fun hsweeps ↦ ?_, fun _ ↦ Prod.mk.inj (hsweep.symm.trans heq)⟩
          rw [SweepCall.sweeps, hdue] at hsweeps
          cases hsweeps
        · rw [hsweep] at hswept
          refine ⟨fun _ ↦ hswept, fun hsweeps ↦ ?_⟩
          rw [SweepCall.sweeps, hdue] at hsweeps
          cases hsweeps
    · exact ih hc

/-! ### The rule, and what it makes of the ticks -/

/-- One of the calls has swept, at a tick greater than `now - sweepIntervalMs`. -/
def SweptLately (past : List SweepCall) (now : Tick) : Prop :=
  ∃ c ∈ past, c.sweeps = true ∧ now < c.now + sweepIntervalMs

/-- All of the calls sweep exactly if no call shortly before has, those of `past` included. -/
def Throttled (past calls : List SweepCall) : Prop :=
  ∀ mid c rest, calls = mid ++ c :: rest → (c.sweeps = true ↔ ¬SweptLately (past ++ mid) c.now)

/-- A call at `now` ought to sweep, if `last` was the last one to do so. -/
def ought (last : Option Tick) (now : Tick) : Bool :=
  last.all fun u ↦ decide (u + sweepIntervalMs ≤ now)

/-- The ticks, each with whether a call at it ought to sweep. -/
def schedule : Option Tick → List Tick → List (Tick × Bool)
  | _, [] => []
  | last, now :: ticks =>
    (now, ought last now) :: schedule (if ought last now then some now else last) ticks

/-- The last of the calls that swept. -/
def LastSwept (last : Option Tick) (past : List SweepCall) : Prop :=
  (∀ c ∈ past, c.sweeps = true → ∃ u ∈ last, c.now ≤ u) ∧
    ∀ u ∈ last, ∃ c ∈ past, c.sweeps = true ∧ c.now = u

theorem LastSwept.ought_iff {last : Option Tick} {past : List SweepCall} (h : LastSwept last past)
    (now : Tick) : ought last now = true ↔ ¬SweptLately past now := by
  rw [ought, Option.all_eq_true]
  constructor
  · rintro hall ⟨c, hc, hsweeps, hlt⟩
    obtain ⟨u, hu, hle⟩ := h.1 c hc hsweeps
    have hold : u + sweepIntervalMs ≤ now := of_decide_eq_true (hall u hu)
    exact Nat.not_lt.2 hold (Nat.lt_of_lt_of_le hlt (Nat.add_le_add_right hle _))
  · intro hnot u hu
    obtain ⟨c, hc, hsweeps, rfl⟩ := h.2 u hu
    exact decide_eq_true (Nat.not_lt.1 fun hlt ↦ hnot ⟨c, hc, hsweeps, hlt⟩)

/-- One call more, no earlier than those before. -/
theorem LastSwept.concat {last : Option Tick} {past : List SweepCall} (h : LastSwept last past)
    {c : SweepCall} (hc : ∀ d ∈ past, d.now ≤ c.now) :
    LastSwept (if c.sweeps then some c.now else last) (past ++ [c]) := by
  rcases hsweeps : c.sweeps with - | -
  · refine ⟨fun d hd hd' ↦ ?_, fun u hu ↦ ?_⟩
    · rcases List.mem_append.1 hd with hd | hd
      · exact h.1 d hd hd'
      · rw [List.mem_singleton.1 hd, hsweeps] at hd'
        cases hd'
    · obtain ⟨d, hd, hd'⟩ := h.2 u hu
      exact ⟨d, List.mem_append_left _ hd, hd'⟩
  · refine ⟨fun d hd _ ↦ ⟨c.now, rfl, ?_⟩, fun u hu ↦ ?_⟩
    · rcases List.mem_append.1 hd with hd | hd
      · exact hc d hd
      · rw [List.mem_singleton.1 hd]
    · exact ⟨c, List.mem_append_right _ List.mem_cons_self, hsweeps, Option.some.inj hu⟩

theorem throttled_cons_iff {past calls : List SweepCall} {c : SweepCall} :
    Throttled past (c :: calls) ↔
      (c.sweeps = true ↔ ¬SweptLately past c.now) ∧ Throttled (past ++ [c]) calls := by
  constructor
  · intro h
    refine ⟨?_, fun mid d rest hcalls ↦ ?_⟩
    · have hfirst := h [] c calls rfl
      rwa [List.append_nil] at hfirst
    · have hnext := h (c :: mid) d rest (by rw [hcalls]; rfl)
      rwa [List.append_cons] at hnext
  · rintro ⟨hfirst, hnext⟩ mid d rest hcalls
    rcases List.cons_eq_append_iff.1 hcalls with ⟨rfl, hcons⟩ | ⟨mid', rfl, hcalls'⟩
    · obtain ⟨rfl, -⟩ := List.cons.inj hcons
      rwa [List.append_nil]
    · rw [List.append_cons]
      exact hnext mid' d rest hcalls'

/-- **The rule determines which calls sweep.** -/
theorem throttled_iff_schedule {past calls : List SweepCall} {last : Option Tick}
    (hlast : LastSwept last past)
    (hsorted : (past ++ calls).Pairwise fun c d ↦ c.now ≤ d.now) :
    Throttled past calls ↔
      calls.map (fun c ↦ (c.now, c.sweeps)) = schedule last (calls.map (·.now)) := by
  induction calls generalizing past last with
  | nil => exact iff_of_true (fun mid c rest h ↦ by simp at h) rfl
  | cons c calls ih =>
    have hc : ∀ d ∈ past, d.now ≤ c.now := fun d hd ↦
      (List.pairwise_append.1 hsorted).2.2 d hd c List.mem_cons_self
    rw [throttled_cons_iff, ← hlast.ought_iff c.now, ← Bool.eq_iff_iff, List.map_cons,
      List.map_cons, schedule, List.cons.injEq, Prod.mk.injEq, and_iff_right rfl]
    refine and_congr_right fun hought ↦ ?_
    rw [← hought]
    rw [List.append_cons] at hsorted
    exact ih (hlast.concat hc) hsorted

/-! ### When a call sweeps -/

/-- The number that is stored for the last sweep. -/
def Remembers (stored : UInt32) : Option Tick → Prop
  | none => stored = 0
  | some u => 1 ≤ u ∧ stored.toNat = min u (2 ^ 32 - 1)

theorem remembers_some {now : Tick} (hpos : 1 ≤ now) :
    Remembers (UInt32.ofNat (min now (2 ^ 32 - 1))) (some now) :=
  ⟨hpos, UInt32.toNat_ofNat_of_lt' (Nat.lt_of_le_of_lt (Nat.min_le_right _ _) (by decide))⟩

/-- **A call sweeps if it ought to, or if it is late.** -/
theorem sweepDue_eq {s : App} {last : Option Tick} (h : Remembers s.lastSweepMs last) {now : Tick}
    (hlast : ∀ u ∈ last, u ≤ now) :
    s.sweepDue now = (ought last now || decide (2 ^ 32 + 249 ≤ now)) := by
  rcases last with - | u
  · have hzero : s.lastSweepMs.toNat = 0 := by rw [show s.lastSweepMs = 0 from h]; rfl
    simp [sweepDue, ought, hzero]
  · obtain ⟨hpos, hstored⟩ := h
    have hle : u ≤ now := hlast u rfl
    have harith (now u stored : ℕ) (hpos : 1 ≤ u) (hle : u ≤ now)
        (hstored : stored = min u (2 ^ 32 - 1)) :
        ¬(stored ≠ 0 ∧ now - stored < 250) ↔ u + 250 ≤ now ∨ 2 ^ 32 + 249 ≤ now := by omega
    rw [Bool.eq_iff_iff, sweepDue, Bool.not_eq_true', decide_eq_false_iff_not, Bool.or_eq_true,
      ought, Option.all_some, decide_eq_true_iff, decide_eq_true_iff]
    exact harith now u _ hpos hle hstored

/-- What is stored after a call that sweeps exactly if it ought to. -/
theorem Remembers.maybeSweep (cfg : AppConfig) {s : App} {last : Option Tick}
    (h : Remembers s.lastSweepMs last) {now : Tick} (hpos : 1 ≤ now)
    (hdue : s.sweepDue now = ought last now) :
    Remembers (s.maybeSweep cfg now).1.lastSweepMs (if ought last now then some now else last) := by
  rw [← hdue]
  obtain ⟨hskip, heq⟩ | ⟨hsweep, hswept⟩ := maybeSweep_cases cfg s now
  · rw [hskip, heq]
    exact h
  · have hstored : (s.maybeSweep cfg now).1.lastSweepMs = UInt32.ofNat (min now (2 ^ 32 - 1)) :=
      congrArg lastSweepMs hswept.rest
    rw [hsweep, hstored]
    exact remembers_some hpos

/-- **The calls of a run are on schedule** exactly if the schedule leaves out no late tick. -/
theorem Remembers.on_schedule_iff {s : App} {last : Option Tick}
    (h : Remembers s.lastSweepMs last) {events : List (Event cfg)}
    (hlast : ∀ c ∈ s.sweepCalls cfg events, ∀ u ∈ last, u ≤ c.now)
    (hsorted : (s.sweepCalls cfg events).Pairwise fun c d ↦ c.now ≤ d.now)
    (hpos : ∀ c ∈ s.sweepCalls cfg events, 1 ≤ c.now) :
    (s.sweepCalls cfg events).map (fun c ↦ (c.now, c.sweeps)) =
        schedule last ((s.sweepCalls cfg events).map (·.now)) ↔
      ∀ x ∈ schedule last ((s.sweepCalls cfg events).map (·.now)),
        2 ^ 32 + 249 ≤ x.1 → x.2 = true := by
  induction events generalizing s last with
  | nil => exact iff_of_true rfl (fun x hx ↦ absurd hx List.not_mem_nil)
  | cons e events ih =>
    rcases hstep : s.step cfg e with - | ⟨t, sent⟩
    · rw [sweepCalls, hstep]
      exact iff_of_true rfl (fun x hx ↦ absurd hx List.not_mem_nil)
    rw [sweepCalls, hstep] at hlast hsorted hpos ⊢
    dsimp only at hlast hsorted hpos ⊢
    obtain ⟨hnone, hstored⟩ | ⟨now, hcall, hsweep⟩ := sweepCall_cases hstep
    · rw [hnone, List.nil_append] at hlast hsorted hpos ⊢
      exact ih (by rwa [hstored]) hlast hsorted hpos
    rw [hcall, List.singleton_append] at hlast hsorted hpos ⊢
    obtain ⟨hlastNow, hlastRest⟩ := List.forall_mem_cons.1 hlast
    obtain ⟨hposNow, hposRest⟩ := List.forall_mem_cons.1 hpos
    obtain ⟨hnow, hsorted'⟩ := List.pairwise_cons.1 hsorted
    have hfirst : s.sweepDue now = ought last now ↔
        (2 ^ 32 + 249 ≤ now → ought last now = true) := by
      rw [sweepDue_eq h hlastNow]
      rcases ought last now with - | - <;> simp
    rw [List.map_cons, List.map_cons, schedule, List.cons.injEq, Prod.mk.injEq, and_iff_right rfl,
      List.forall_mem_cons]
    show (s.sweepDue now = ought last now ∧ _) ↔
      ((2 ^ 32 + 249 ≤ now → ought last now = true) ∧ _)
    rw [← hfirst]
    refine and_congr_right fun hsame ↦ ?_
    have hremembers := h.maybeSweep cfg hposNow hsame
    rw [hsweep] at hremembers
    refine ih hremembers (fun c hc u hu ↦ ?_) hsorted' hposRest
    split_ifs at hu
    · rw [← Option.some.inj hu]
      exact hnow c hc
    · exact hlastRest c hc u hu

/-- **How sweeps are throttled.** Take any events after start-up, among them calls of `maybeSweep`
with ticks of at least 1 that do not decrease. A call that performs a sweep sweeps both neighbor
tables and the flow table at its tick, and one that does not leaves everything alone and sends
nothing. All of the calls obey the rule, to sweep exactly if no call less than `sweepIntervalMs`
before has swept, exactly if on the schedule of their ticks all those from `2 ^ 32 + 249` on are
ticks at which to sweep. -/
theorem throttled_iff (dhcp : DhcpState) (nat : NatTable) (xid : UInt32)
    {events : List (Event cfg)}
    (hsorted : (((boot cfg dhcp nat xid).sweepCalls cfg events).map (·.now)).Pairwise (· ≤ ·))
    (hpos : ∀ now ∈ ((boot cfg dhcp nat xid).sweepCalls cfg events).map (·.now), 1 ≤ now) :
    (∀ c ∈ (boot cfg dhcp nat xid).sweepCalls cfg events,
      (c.sweeps = true → Swept cfg c.now c.before c.after c.sent) ∧
        (c.sweeps = false → c.after = c.before ∧ c.sent = [])) ∧
    ((∀ past c rest, (boot cfg dhcp nat xid).sweepCalls cfg events = past ++ c :: rest →
        (c.sweeps = true ↔ ¬SweptLately past c.now)) ↔
      ∀ x ∈ schedule none (((boot cfg dhcp nat xid).sweepCalls cfg events).map (·.now)),
        2 ^ 32 + 249 ≤ x.1 → x.2 = true) := by
  refine ⟨fun c hc ↦ swept_or_skipped hc, ?_⟩
  have hnone : LastSwept none [] := ⟨fun c hc ↦ absurd hc List.not_mem_nil, nofun⟩
  have hboot : Remembers (boot cfg dhcp nat xid).lastSweepMs none := rfl
  rw [List.pairwise_map] at hsorted
  rw [List.forall_mem_map] at hpos
  rw [← hboot.on_schedule_iff (fun c _ ↦ nofun) hsorted hpos]
  exact throttled_iff_schedule hnone hsorted

/-- Calls at the ticks 1, 250 and 251, of which the second one does not sweep. -/
theorem throttled_first_second :
    (sampleBoot.sweepCalls sampleConfig [.sweep 1, .sweep 250, .sweep 251]).map
        (fun c ↦ (c.now, c.sweeps)) = [(1, true), (250, false), (251, true)] ∧
    ∀ past c rest, sampleBoot.sweepCalls sampleConfig [.sweep 1, .sweep 250, .sweep 251] =
      past ++ c :: rest → (c.sweeps = true ↔ ¬SweptLately past c.now) := by
  have hticks : (sampleBoot.sweepCalls sampleConfig [.sweep 1, .sweep 250, .sweep 251]).map
      (·.now) = [1, 250, 251] := by decide +kernel
  refine ⟨by decide +kernel, (throttled_iff _ _ _ ?_ ?_).2.2 ?_⟩
  · show ((sampleBoot.sweepCalls _ _).map _).Pairwise _
    rw [hticks]
    decide
  · show ∀ now ∈ (sampleBoot.sweepCalls _ _).map _, _
    rw [hticks]
    decide
  · show ∀ x ∈ schedule none ((sampleBoot.sweepCalls _ _).map _), _
    rw [hticks]
    decide

/-- After 49.7 days, a call sweeps one millisecond after another one has. -/
theorem not_throttled_late :
    ∃ c d, sampleBoot.sweepCalls sampleConfig [.sweep (2 ^ 32 + 249), .sweep (2 ^ 32 + 250)] =
        [c, d] ∧
      c.now = 2 ^ 32 + 249 ∧ Swept sampleConfig c.now c.before c.after c.sent ∧
      d.now = 2 ^ 32 + 250 ∧ Swept sampleConfig d.now d.before d.after d.sent ∧
      d.sweeps = true ∧ SweptLately [c] d.now := by
  have hmarks : (sampleBoot.sweepCalls sampleConfig
      [.sweep (2 ^ 32 + 249), .sweep (2 ^ 32 + 250)]).map (fun c ↦ (c.now, c.sweeps)) =
        [(2 ^ 32 + 249, true), (2 ^ 32 + 250, true)] := by decide +kernel
  obtain ⟨c, calls, hcalls, hc, hrest⟩ := List.map_eq_cons_iff.1 hmarks
  obtain ⟨d, calls, rfl, hd, hrest⟩ := List.map_eq_cons_iff.1 hrest
  obtain rfl := List.map_eq_nil_iff.1 hrest
  obtain ⟨hcnow, hcsweeps⟩ := Prod.mk.inj hc
  obtain ⟨hdnow, hdsweeps⟩ := Prod.mk.inj hd
  have hmem : ∀ e ∈ [c, d], e ∈ sampleBoot.sweepCalls sampleConfig
      [.sweep (2 ^ 32 + 249), .sweep (2 ^ 32 + 250)] := fun e he ↦ by rwa [hcalls]
  refine ⟨c, d, hcalls, hcnow, (swept_or_skipped (hmem c (by simp))).1 hcsweeps, hdnow,
    (swept_or_skipped (hmem d (by simp))).1 hdsweeps, hdsweeps, c, List.mem_cons_self, hcsweeps, ?_⟩
  rw [hcnow, hdnow]
  decide

end App

end UserspaceRouter
