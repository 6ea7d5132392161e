import UserspaceRouter.Router.Ports

/-!
# Packets are only carried

A neighbor table does nothing with its packets but keep them and hand them back, so what it does for
packets of one type it does for their images in another: each operation commutes with `map`. The
router keeps mbufs in its tables; read through `Mbuf.data`, they are the tables of frames that the
module `App` is about.
-/

namespace UserspaceRouter

variable {P Q : Type*} (f : P → Q)

def Pending.map (p : Pending P) : Pending Q := ⟨p.packets.map f, p.lastRequestAt, p.attempts⟩

def Action.map : Action P → Action Q
  | .forward mac packet => .forward mac (f packet)
  | .queued request => .queued request
  | .drop packet => .drop (f packet)

namespace NeighborTable

variable (t : NeighborTable P)

/-- The table with its packets replaced by their images. -/
def map : NeighborTable Q :=
  ⟨t.ourMac, t.ourIp, t.resolved, t.cache, t.pending.mapValues (Pending.map f)⟩

theorem resolve_map (target : Ipv4Addr) (packet : P) (reqLen : ℕ) (now : Tick) :
    (t.map f).resolve target (f packet) reqLen now =
      ((t.resolve target packet reqLen now).1.map f,
        (t.resolve target packet reqLen now).2.map f) := by
  have hentry : ((t.map f).pending.lookup target).getD ⟨[], now, 0⟩ =
      ((t.pending.lookup target).getD ⟨[], now, 0⟩).map f := by
    rw [show (t.map f).pending = t.pending.mapValues (Pending.map f) from rfl,
      AList.lookup_mapValues]
    rcases t.pending.lookup target with - | p <;> rfl
  rcases hcache : t.cache.lookup target with - | e
  · have hcache' : (t.map f).cache.lookup target = none := hcache
    simp only [resolve, hcache, hcache', hentry, Pending.map, List.length_map, List.isEmpty_map]
    split_ifs
    · simp only [map, AList.mapValues_insert]
      rfl
    · simp only [map, AList.mapValues_insert, Pending.map, List.map_append]
      rfl
    · simp only [map, AList.mapValues_insert, Pending.map, List.map_append]
      rfl
  · have hcache' : (t.map f).cache.lookup target = some e := hcache
    simp only [resolve, hcache, hcache']
    rfl

theorem onArp_map (ip : Ipv4Addr) (mac : MacAddr) (now : Tick) :
    (t.map f).onArp ip mac now =
      ((t.onArp ip mac now).1.map f, (t.onArp ip mac now).2.map fun d ↦ (d.1, d.2.map f)) := by
  have hlookup : (t.map f).pending.lookup ip = (t.pending.lookup ip).map (Pending.map f) :=
    AList.lookup_mapValues _ _ _
  refine Prod.ext ?_ ?_
  · simp only [onArp, map, AList.mapValues_erase]
  · simp only [onArp, hlookup]
    rcases t.pending.lookup ip with - | p
    · rfl
    · rcases hp : p.packets with - | ⟨x, l⟩ <;> simp [Pending.map, hp]

theorem retry_map (now : Tick) (p : Pending P) :
    (retry now p).map (Pending.map f) = retry now (p.map f) := by
  have hdue : isDue now (p.map f) = isDue now p := rfl
  have hattempts : (p.map f).attempts = p.attempts := rfl
  simp only [retry, hdue, hattempts]
  split_ifs <;> rfl

theorem requests_map (now : Tick) : (t.map f).requests now = t.requests now := by
  show (t.pending.entries.map _).filterMap _ = t.pending.entries.filterMap _
  rw [List.filterMap_map]
  rfl

theorem abandoned_map (now : Tick) : (t.map f).abandoned now = (t.abandoned now).map f := by
  show (t.pending.entries.map _).flatMap _ = (t.pending.entries.flatMap _).map f
  rw [List.flatMap_map, List.map_flatMap]
  refine List.flatMap_congr fun e _ ↦ ?_
  show (if _ then e.2.packets.map f else []) = (if _ then e.2.packets else []).map f
  rw [apply_ite (List.map f)]
  rfl

theorem sweep_map (now : Tick) :
    (t.map f).sweep now =
      ((t.sweep now).1.map f, (t.sweep now).2.1, (t.sweep now).2.2.map f) := by
  refine Prod.ext ?_ (Prod.ext (requests_map f t now) (abandoned_map f t now))
  simp only [sweep, map, AList.mapValues_retainMap (Pending.map f) fun _ ↦ retry_map f now]

end NeighborTable

/-- The tables of the ports, with their packets replaced by their images. -/
def Ports.map (s : Ports P) : Ports Q := ⟨⟨s.lan.dhcp, s.lan.neighbors.map f⟩, s.wan.map f⟩

end UserspaceRouter
