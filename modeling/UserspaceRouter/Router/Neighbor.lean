import UserspaceRouter.Foundations.AssocMap
import UserspaceRouter.Net.Arp

/-!
# Neighbor resolution

A cache of learned MACs, a reverse map from MACs to the address last learned for them, and for each
address still being asked for a queue of packets that wait for the answer. The packet type is a
parameter.

`onArp` learns whatever pair it is given, and hands back the packets that were waiting for the
address. `sweep` asks again for what is pending, gives up on targets that never answered, and
forgets what has not been heard of for a while.
-/

namespace UserspaceRouter

/-- Monotonic millisecond tick. -/
abbrev Tick := ℕ

/-- Milliseconds elapsed since `earlier`, saturating at 0. -/
def Tick.elapsedSince (now earlier : Tick) : ℕ := now - earlier

/-- A cache entry plus when it was learned. -/
structure CachedEntry where
  mac : MacAddr
  learnedAt : Tick

/-- Per-target pending state: queued packets plus retransmit bookkeeping. -/
structure Pending (P : Type*) where
  packets : List P
  /-- When the most recent request for this target was sent. -/
  lastRequestAt : Tick
  /-- How many requests have been made so far. -/
  attempts : ℕ

/-- Cache, reverse map and pending queues. -/
structure NeighborTable (P : Type*) where
  ourMac : MacAddr
  ourIp : Ipv4Addr
  resolved : AList fun _ : MacAddr ↦ Ipv4Addr
  cache : AList fun _ : Ipv4Addr ↦ CachedEntry
  pending : AList fun _ : Ipv4Addr ↦ Pending P

/-- Outcome of `resolve`. -/
inductive Action (P : Type*)
  /-- Cache hit: forward the packet to `mac`. -/
  | forward (mac : MacAddr) (packet : P)
  /-- Cache miss; the packet was queued, and the first miss for a target builds a request. -/
  | queued (request : Option Bytes)
  /-- Cache miss, and the queue for this target is full. -/
  | drop (packet : P)

namespace NeighborTable

variable {P : Type*}

def maxPendingPerIp : ℕ := 4
def requestIntervalMs : ℕ := 1000
def maxRequestAttempts : ℕ := 3
def cacheTtlMs : ℕ := 5 * 60 * 1000

def new (ourMac : MacAddr) (ourIp : Ipv4Addr) : NeighborTable P := ⟨ourMac, ourIp, ∅, ∅, ∅⟩

def setOurIp (t : NeighborTable P) (ip : Ipv4Addr) : NeighborTable P := { t with ourIp := ip }

/-- The MAC cached for an address. -/
def lookup (t : NeighborTable P) (ip : Ipv4Addr) : Option MacAddr := (t.cache.lookup ip).map (·.mac)

/-- The address last learned for a MAC. -/
def reverseLookup (t : NeighborTable P) (mac : MacAddr) : Option Ipv4Addr := t.resolved.lookup mac

/-- Insert a mapping directly. Packets that wait for it are left waiting. -/
def insert (t : NeighborTable P) (ip : Ipv4Addr) (mac : MacAddr) (now : Tick) : NeighborTable P :=
  { t with cache := t.cache.insert ip ⟨mac, now⟩, resolved := t.resolved.insert mac ip }

/-- Resolve the target for a packet, queuing it on a miss; `reqLen` is the length of the buffer for
the request. -/
def resolve (t : NeighborTable P) (targetIp : Ipv4Addr) (packet : P) (reqLen : ℕ) (now : Tick) :
    NeighborTable P × Action P :=
  match t.cache.lookup targetIp with
  | some e => (t, .forward e.mac packet)
  | none =>
    let entry := (t.pending.lookup targetIp).getD ⟨[], now, 0⟩
    if maxPendingPerIp ≤ entry.packets.length then
      ({ t with pending := t.pending.insert targetIp entry }, .drop packet)
    else
      let packets := entry.packets ++ [packet]
      if entry.packets.isEmpty then
        ({ t with pending := t.pending.insert targetIp ⟨packets, now, 1⟩ },
          .queued (ArpPacket.buildRequest reqLen t.ourMac t.ourIp targetIp))
      else
        ({ t with pending := t.pending.insert targetIp { entry with packets } }, .queued none)

/-- Learn a mapping, and hand back the packets that were waiting for it with the MAC they go to. -/
def onArp (t : NeighborTable P) (ip : Ipv4Addr) (mac : MacAddr) (now : Tick) :
    NeighborTable P × Option (MacAddr × List P) :=
  let drained := (t.pending.lookup ip).map (·.packets)
  ({ t with
      cache := t.cache.insert ip ⟨mac, now⟩
      resolved := t.resolved.insert mac ip
      pending := t.pending.erase ip },
    match drained with
    | some packets => if packets.isEmpty then none else some (mac, packets)
    | none => none)

/-- It is time to ask again for this target, or to give up. -/
def isDue (now : Tick) (p : Pending P) : Bool :=
  !(Tick.elapsedSince now p.lastRequestAt < requestIntervalMs)

/-- What a sweep does to a pending entry: keep it, give up on it, or ask again. -/
def retry (now : Tick) (p : Pending P) : Option (Pending P) :=
  if !isDue now p then some p
  else if maxRequestAttempts ≤ p.attempts then none
  else some { p with attempts := p.attempts + 1, lastRequestAt := now }

/-- The requests a sweep sends. -/
def requests (t : NeighborTable P) (now : Tick) : List Bytes :=
  t.pending.entries.filterMap fun e ↦
    if isDue now e.2 && e.2.attempts < maxRequestAttempts then
      ArpPacket.buildRequest ArpPacket.frameLen t.ourMac t.ourIp e.1
    else none

/-- The packets a sweep gives up on. -/
def abandoned (t : NeighborTable P) (now : Tick) : List P :=
  t.pending.entries.flatMap fun e ↦
    if isDue now e.2 && maxRequestAttempts ≤ e.2.attempts then e.2.packets else []

/-- Drive retransmits and aging: the new table, the requests to send and the packets to drop. -/
def sweep (t : NeighborTable P) (now : Tick) : NeighborTable P × List Bytes × List P :=
  let cache := t.cache.retain fun _ e ↦ Tick.elapsedSince now e.learnedAt < cacheTtlMs
  ({ t with
      pending := t.pending.retainMap fun _ p ↦ retry now p
      cache
      resolved := t.resolved.retain fun _ ip ↦ (cache.lookup ip).isSome },
    t.requests now, t.abandoned now)

/-! ### What the cache holds -/

/-- `resolve` queues packets and changes nothing else. -/
theorem exists_pending_resolve (t : NeighborTable P) (targetIp : Ipv4Addr) (packet : P)
    (reqLen : ℕ) (now : Tick) :
    ∃ pending, (t.resolve targetIp packet reqLen now).1 = { t with pending } := by
  unfold resolve
  split
  · exact ⟨_, rfl⟩
  · simp only
    split_ifs <;> exact ⟨_, rfl⟩

theorem cache_resolve (t : NeighborTable P) (targetIp : Ipv4Addr) (packet : P) (reqLen : ℕ)
    (now : Tick) : (t.resolve targetIp packet reqLen now).1.cache = t.cache := by
  obtain ⟨pending, hresolve⟩ := t.exists_pending_resolve targetIp packet reqLen now
  rw [hresolve]

theorem lookup_cache_onArp (t : NeighborTable P) (ip ip' : Ipv4Addr) (mac : MacAddr) (now : Tick) :
    (t.onArp ip mac now).1.cache.lookup ip' =
      if ip' = ip then some ⟨mac, now⟩ else t.cache.lookup ip' :=
  AList.lookup_insert_ite _ _ _ _

/-- A sweep adds nothing to the cache. -/
theorem lookup_cache_of_sweep {t : NeighborTable P} {now : Tick} {ip : Ipv4Addr} {e : CachedEntry}
    (h : (t.sweep now).1.cache.lookup ip = some e) : t.cache.lookup ip = some e := by
  have hlookup : (t.sweep now).1.cache.lookup ip = (t.cache.lookup ip).filter _ :=
    AList.lookup_retain _ _ _
  rw [hlookup] at h
  exact (Option.filter_eq_some_iff.1 h).1

/-- Packets that were waiting go to the MAC that was learned. -/
theorem drained_onArp {t : NeighborTable P} {ip : Ipv4Addr} {mac mac' : MacAddr} {now : Tick}
    {packets : List P} (h : (t.onArp ip mac now).2 = some (mac', packets)) : mac' = mac := by
  rcases hp : t.pending.lookup ip with - | p
  · simp [onArp, hp] at h
  · simp only [onArp, hp, Option.map_some] at h
    split_ifs at h
    exact (Prod.mk.inj (Option.some.inj h)).1.symm

/-- No address is mapped to the all-zero MAC. -/
def Clean (t : NeighborTable P) : Prop := ∀ ip e, t.cache.lookup ip = some e → e.mac ≠ .zero

theorem clean_new (ourMac : MacAddr) (ourIp : Ipv4Addr) :
    (new ourMac ourIp : NeighborTable P).Clean := fun _ _ h ↦ nomatch h

theorem Clean.resolve {t : NeighborTable P} (h : t.Clean) (targetIp : Ipv4Addr) (packet : P)
    (reqLen : ℕ) (now : Tick) : (t.resolve targetIp packet reqLen now).1.Clean := by
  intro ip e he
  rw [cache_resolve] at he
  exact h ip e he

theorem Clean.sweep {t : NeighborTable P} (h : t.Clean) (now : Tick) : (t.sweep now).1.Clean :=
  fun ip e he ↦ h ip e (lookup_cache_of_sweep he)

/-- **Learning keeps the cache clean exactly if what is learned is.** -/
theorem Clean.onArp_iff {t : NeighborTable P} (h : t.Clean) (ip : Ipv4Addr) (mac : MacAddr)
    (now : Tick) : (t.onArp ip mac now).1.Clean ↔ mac ≠ .zero := by
  constructor
  · intro hclean
    exact hclean ip ⟨mac, now⟩ (by rw [lookup_cache_onArp, if_pos rfl])
  · intro hmac ip' e he
    rw [lookup_cache_onArp] at he
    split_ifs at he with hip
    · obtain rfl := Option.some.inj he
      exact hmac
    · exact h ip' e he

end NeighborTable

end UserspaceRouter
