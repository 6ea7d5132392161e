import UserspaceRouter.Router.DhcpWorkers
import UserspaceRouter.Router.Neighbor

/-!
# ARP and DHCP on the ports

What the ports do with ARP frames and DHCP messages, processed one at a time: the LAN ports share
one DHCP state and one neighbor table, the WAN port has a neighbor table of its own. `Ports.step` is
one event, and a run of `ports` is any sequence of them.

Two things are expected of these handlers that they do not do, both for want of looking at one more
table or field.

*Addresses given back.* `handleLanArp` takes the sender of an ARP frame out of the pool, and gives
back the address the same MAC was seen with before. It asks neither whether that address is leased
nor whether it is free already, so an address can come to be free and leased at once. Under the
condition that it does ask (`StaleIsNobodys`), leases stay exclusive (`inv_run`).

*Learning the target.* Both handlers learn the target's pair as well as the sender's, on requests
too, where the target hardware address is not known and sent as zeros. The neighbor tables are free
of the all-zero MAC in exactly those runs whose ARP frames all name a target hardware address
(`clean_step_iff`).
-/

namespace UserspaceRouter

open TransitionSystem

variable {P : Type*}

/-! ### The code -/

/-- The router's identity on the LAN. -/
structure RouterId where
  serverIp : Ipv4Addr
  serverMac : MacAddr

/-- What an ARP handler sends. -/
structure ArpOutput (P : Type*) where
  /-- Packets that were waiting, with the MAC they are sent to. -/
  drained : List (MacAddr × List P)
  /-- The frame is repeated on every other LAN port. -/
  flood : Bool
  /-- The router's own answer. -/
  reply : Option Bytes

/-- Learn one of the pairs of an ARP packet, if it is to be learned. -/
def NeighborTable.learnIf (t : NeighborTable P) (c : Bool) (ip : Ipv4Addr) (mac : MacAddr)
    (now : Tick) : NeighborTable P × List (MacAddr × List P) :=
  if c then ((t.onArp ip mac now).1, (t.onArp ip mac now).2.toList) else (t, [])

/-- Learn the sender and the target of an ARP packet; an unspecified target is never learned. -/
def NeighborTable.learn (t : NeighborTable P) (sender : Bool) (arp : ArpPacket) (now : Tick) :
    NeighborTable P × List (MacAddr × List P) :=
  let (t, d₁) := t.learnIf sender arp.senderIp arp.sha now
  let (t, d₂) := t.learnIf (arp.targetIp != Ipv4Addr.unspecified) arp.targetIp arp.tha now
  (t, d₁ ++ d₂)

/-- ARP handling on the WAN port. -/
def handleWanArp (t : NeighborTable P) (frame : Bytes) (now : Tick) :
    NeighborTable P × ArpOutput P :=
  match parseArp frame with
  | none => (t, ⟨[], false, none⟩)
  | some (_, arp) =>
    let (t, drained) := t.learn (arp.senderIp != Ipv4Addr.unspecified) arp now
    (t, ⟨drained, false, none⟩)

/-- What the LAN ports share. -/
structure LanState (P : Type*) where
  dhcp : DhcpState
  neighbors : NeighborTable P

namespace LanState

/-- The address in the pool's range that the sender was seen with before, if it is another one. -/
def staleIp (s : LanState P) (arp : ArpPacket) : Option Ipv4Addr :=
  (s.neighbors.reverseLookup arp.sha).filter fun oldIp ↦
    oldIp ≠ arp.senderIp ∧ s.dhcp.pool.start ≤ oldIp ∧ oldIp ≤ s.dhcp.pool.end_

/-- What happens to the pool: the sender's address is reserved, and its former address given back.
`none` is a failed assertion. -/
def poolAfterArp (s : LanState P) (arp : ArpPacket) : Option AddressPool :=
  let pool := (s.dhcp.pool.reserve arp.senderIp).1
  match s.staleIp arp with
  | some oldIp => pool.release oldIp
  | none => some pool

/-- `FRAME_MAX`: the length of the buffer a reply is built in. -/
def frameMax : ℕ := 1518

/-- ARP handling on a LAN port. -/
def handleLanArp (router : RouterId) (s : LanState P) (frame : Bytes) (now : Tick) :
    Option (LanState P × ArpOutput P) :=
  match parseArp frame with
  | none => some (s, ⟨[], false, none⟩)
  | some (eth, arp) =>
    let (neighbors, drained) := s.neighbors.learn true arp now
    let tip := arp.targetIp
    let output : ArpOutput P :=
      if tip ≠ router.serverIp ∧ arp.isRequest ∧ eth.isBroadcast then ⟨drained, true, none⟩
      else if tip = router.serverIp ∧ arp.isRequest then
        ⟨drained, false,
          ArpPacket.buildReply frameMax router.serverMac router.serverIp arp.sha arp.senderIp⟩
      else ⟨drained, false, none⟩
    (s.poolAfterArp arp).map fun pool ↦ (⟨{ s.dhcp with pool }, neighbors⟩, output)

end LanState

/-! ### The system -/

/-- The state of the ports. -/
structure Ports (P : Type*) where
  lan : LanState P
  wan : NeighborTable P

/-- What reaches the ports. -/
inductive PortEvent (P : Type*)
  | dhcp (cfg : DhcpServerConfig) (view : DhcpView)
  | lanArp (frame : Bytes) (now : Tick)
  | wanArp (frame : Bytes) (now : Tick)
  | lanResolve (target : Ipv4Addr) (packet : P) (reqLen : ℕ) (now : Tick)
  | wanResolve (target : Ipv4Addr) (packet : P) (reqLen : ℕ) (now : Tick)
  | lanSweep (now : Tick)
  | wanSweep (now : Tick)
  | setWanIp (ip : Ipv4Addr)

/-- What the ports do about it. -/
inductive PortOutput (P : Type*)
  | nothing
  | dhcp (reply : Option Reply)
  | arp (out : ArpOutput P)
  | resolved (action : Action P)
  | swept (requests : List Bytes) (dropped : List P)

/-- Packets that were waiting for an address, with the MAC they are sent to. -/
def PortOutput.drained : PortOutput P → List (MacAddr × List P)
  | .arp out => out.drained
  | _ => []

namespace Ports

/-- One event; `none` is a failed assertion. -/
def step (router : RouterId) (s : Ports P) : PortEvent P → Option (Ports P × PortOutput P)
  | .dhcp cfg view =>
    (s.lan.dhcp.handle cfg view).map fun (dhcp, reply) ↦
      ({ s with lan := { s.lan with dhcp } }, .dhcp reply)
  | .lanArp frame now =>
    (s.lan.handleLanArp router frame now).map fun (lan, out) ↦ ({ s with lan }, .arp out)
  | .wanArp frame now =>
    let (wan, out) := handleWanArp s.wan frame now
    some ({ s with wan }, .arp out)
  | .lanResolve target packet reqLen now =>
    let (neighbors, action) := s.lan.neighbors.resolve target packet reqLen now
    some ({ s with lan := { s.lan with neighbors } }, .resolved action)
  | .wanResolve target packet reqLen now =>
    let (wan, action) := s.wan.resolve target packet reqLen now
    some ({ s with wan }, .resolved action)
  | .lanSweep now =>
    let (neighbors, requests, dropped) := s.lan.neighbors.sweep now
    some ({ s with lan := { s.lan with neighbors } }, .swept requests dropped)
  | .wanSweep now =>
    let (wan, requests, dropped) := s.wan.sweep now
    some ({ s with wan }, .swept requests dropped)
  | .setWanIp ip => some ({ s with wan := s.wan.setOurIp ip }, .nothing)

/-- The ports, one event at a time. -/
def system (P : Type*) (router : RouterId) :
    TransitionSystem (Ports P) (PortEvent P × PortOutput P) :=
  .ofCalls (step router)

/-- The state after start-up, with the DHCP state and the port's MAC address. -/
def boot (router : RouterId) (wanMac : MacAddr) (dhcp : DhcpState) : Ports P :=
  ⟨⟨dhcp, .new router.serverMac router.serverIp⟩, .new wanMac Ipv4Addr.unspecified⟩

/-! ### Exclusive leases -/

/-- The condition on an event: an address that an ARP frame gives back to the pool is leased to
nobody, and not free already. -/
def StaleIsNobodys (s : Ports P) : PortEvent P → Prop
  | .lanArp frame _ => ∀ p ∈ parseArp frame, ∀ ip ∈ s.lan.staleIp p.2,
      (∀ mac, s.lan.dhcp.leases.lookup mac ≠ some ip) ∧ ¬s.lan.dhcp.pool.IsFree ip
  | _ => True

instance (s : Ports P) (e : PortEvent P) : Decidable (s.StaleIsNobodys e) :=
  match e with
  -- the one address in question is tested, not every one there is
  | .lanArp frame _ => @decidable_of_iff _ (∀ p ∈ parseArp frame, ∀ ip ∈ s.lan.staleIp p.2,
      (∀ e ∈ s.lan.dhcp.leases.entries, e.2 ≠ ip) ∧ ¬s.lan.dhcp.pool.IsFree ip)
      (by simp only [StaleIsNobodys, AList.forall_lookup_ne_iff])
      (@Option.decidableForallMem _ _ (fun p ↦ Option.decidableForallMem (s.lan.staleIp p.2))
        (parseArp frame))
  | .dhcp .. | .wanArp .. | .lanResolve .. | .wanResolve .. | .lanSweep .. | .wanSweep ..
  | .setWanIp .. => isTrue trivial

/-- The pool after an ARP frame whose sender's former address is nobody's. -/
theorem inv_poolAfterArp {start end_ : Ipv4Addr} {s : LanState P} (h : s.dhcp.Inv start end_)
    {arp : ArpPacket} (hstale : ∀ ip, s.staleIp arp = some ip →
      (∀ mac, s.dhcp.leases.lookup mac ≠ some ip) ∧ ¬s.dhcp.pool.IsFree ip) :
    ∃ pool, s.poolAfterArp arp = some pool ∧
      DhcpState.Inv start end_ { s.dhcp with pool } := by
  have hreserve := h.reserve arp.senderIp
  unfold LanState.poolAfterArp
  rcases hold : s.staleIp arp with - | oldIp
  · exact ⟨_, rfl, hreserve⟩
  · obtain ⟨hno, hfree⟩ := hstale oldIp hold
    have hbecomes := AddressPool.becomes_reserve h.wf arp.senderIp
    have hb : s.dhcp.pool.InBounds oldIp := by
      obtain ⟨-, hcond⟩ := Option.filter_eq_some_iff.1 hold
      exact (of_decide_eq_true hcond).2
    exact hreserve.reclaim (by rw [hbecomes.inBounds_eq]; exact hb) hno
      fun hx ↦ hfree ((hbecomes.isFree_iff oldIp).1 hx).1

/-- **One event keeps leases exclusive**, and meets no failed assertion. -/
theorem inv_step {start end_ : Ipv4Addr} (router : RouterId) {s : Ports P}
    (h : s.lan.dhcp.Inv start end_) {e : PortEvent P} (he : s.StaleIsNobodys e) :
    ∃ t o, s.step router e = some (t, o) ∧ t.lan.dhcp.Inv start end_ := by
  cases e with
  | dhcp cfg view =>
    obtain ⟨dhcp, reply, hhandle⟩ := h.exists_handle cfg view
    refine ⟨_, _, by rw [step, hhandle]; rfl, h.handle hhandle⟩
  | lanArp frame now =>
    rcases hparse : parseArp frame with - | ⟨eth, arp⟩
    · exact ⟨s, _, by simp only [step, LanState.handleLanArp, hparse]; rfl, h⟩
    · obtain ⟨pool, hpool, hinv⟩ := inv_poolAfterArp h fun ip hip ↦ he (eth, arp) hparse ip hip
      exact ⟨_, _, by simp only [step, LanState.handleLanArp, hparse, hpool]; rfl, hinv⟩
  | wanArp frame now => exact ⟨_, _, rfl, h⟩
  | lanResolve target packet reqLen now => exact ⟨_, _, rfl, h⟩
  | wanResolve target packet reqLen now => exact ⟨_, _, rfl, h⟩
  | lanSweep now => exact ⟨_, _, rfl, h⟩
  | wanSweep now => exact ⟨_, _, rfl, h⟩
  | setWanIp ip => exact ⟨_, _, rfl, h⟩

/-- **Every run that meets the condition keeps leases exclusive.** -/
theorem inv_run {start end_ : Ipv4Addr} {router : RouterId} {s₀ s : Ports P}
    {tr : List (PortEvent P × PortOutput P)} (h₀ : s₀.lan.dhcp.Inv start end_)
    (h : ((system P router).restrict fun s a ↦ s.StaleIsNobodys a.1).Run s₀ tr s) :
    s.lan.dhcp.Inv start end_ := by
  refine h.invariant (I := fun s ↦ s.lan.dhcp.Inv start end_) h₀ ?_
  rintro s ⟨e, o⟩ t hs ⟨he, hst⟩
  obtain ⟨t', o', hst', ht'⟩ := inv_step router hs he
  obtain ⟨rfl, -⟩ := Prod.mk.inj (Option.some.inj (hst.symm.trans hst'))
  exact ht'

/-- **No address is leased twice**, in every run from start-up in which an address given back on the
strength of an ARP frame is leased to nobody and not free already: in every state reached, no two
clients hold the same address, and no leased address is free. -/
theorem leases_exclusive_of_staleIsNobodys {start end_ : Ipv4Addr} {reserved : List Ipv4Addr}
    {dhcp : DhcpState} (hboot : DhcpState.boot start end_ reserved = some dhcp) {router : RouterId}
    {wanMac : MacAddr} {tr : List (PortEvent P × PortOutput P)} {s : Ports P}
    (hrun : ((system P router).restrict fun s a ↦ s.StaleIsNobodys a.1).Run
      (boot router wanMac dhcp) tr s) :
    (∀ mac mac' ip, s.lan.dhcp.leases.lookup mac = some ip →
      s.lan.dhcp.leases.lookup mac' = some ip → mac = mac') ∧
    ∀ mac ip, s.lan.dhcp.leases.lookup mac = some ip → ¬s.lan.dhcp.pool.IsFree ip := by
  have hinv := inv_run (DhcpState.inv_boot hboot) hrun
  exact ⟨hinv.exclusive.inj, hinv.exclusive.not_free⟩

/-- A router at `10.0.0.254`. -/
def sampleRouter : RouterId := ⟨0x0a0000fe, sampleMac 0xfe⟩

/-- What the router starts with if its pool is `10.0.0.1` to `10.0.0.10` and keeps none of it. -/
def sampleDhcp : DhcpState := ⟨⟨0x0a000001, 0x0a00000a, [(0x0a000001, 0x0a00000a)]⟩, ∅⟩

theorem boot_sampleDhcp : DhcpState.boot 0x0a000001 0x0a00000a [] = some sampleDhcp := rfl

/-- A broadcast ARP request of a host that has, or claims to have, the address `senderIp`. -/
def sampleArp (host : UInt8) (senderIp targetIp : Ipv4Addr) : Bytes :=
  ArpPacket.frame .broadcast (sampleMac host)
    (.mk' ArpPacket.request (sampleMac host) senderIp .zero targetIp)

/-- A host with an address of its own moves from `10.0.0.5` to `10.0.0.6`, next to a host that has a
lease: its former address goes back to the pool, and the lease is still exclusive. -/
theorem leases_exclusive_host_moves :
    ∃ dhcp, DhcpState.boot 0x0a000001 0x0a00000a [] = some dhcp ∧
      ∃ tr s, ((system Unit sampleRouter).restrict fun s a ↦ s.StaleIsNobodys a.1).Run
          (boot sampleRouter (sampleMac 0xff) dhcp) tr s ∧
        s.lan.dhcp.pool.IsFree 0x0a000005 ∧ ¬s.lan.dhcp.pool.IsFree 0x0a000006 ∧
        s.lan.dhcp.leases.lookup (sampleMac 1) = some 0x0a000001 ∧
        ∀ mac, s.lan.dhcp.leases.lookup mac = some 0x0a000001 → mac = sampleMac 1 := by
  refine ⟨_, boot_sampleDhcp, ?_⟩
  have hcalls : (calls (fun s e ↦ if s.StaleIsNobodys e then step sampleRouter s e else none)
      (boot sampleRouter (sampleMac 0xff) sampleDhcp : Ports Unit)
      [.dhcp ⟨0x0a0000fe⟩ (sampleMessage 1 1),
        .lanArp (sampleArp 3 0x0a000005 0x0a0000fe) 0,
        .lanArp (sampleArp 3 0x0a000006 0x0a0000fe) 1]).map (fun r ↦
      (decide (r.2.lan.dhcp.pool.IsFree 0x0a000005), decide (r.2.lan.dhcp.pool.IsFree 0x0a000006),
        r.2.lan.dhcp.leases.lookup (sampleMac 1))) =
      some (true, false, some 0x0a000001) := by decide +kernel
  obtain ⟨⟨tr, s⟩, hsome, hend⟩ := Option.map_eq_some_iff.1 hcalls
  obtain ⟨hfive, hend⟩ := Prod.mk.inj hend
  obtain ⟨hsix, hlease⟩ := Prod.mk.inj hend
  have hrun := run_restrict_of_calls hsome
  obtain ⟨hinj, -⟩ := leases_exclusive_of_staleIsNobodys boot_sampleDhcp hrun
  exact ⟨tr, s, hrun, of_decide_eq_true hfive, of_decide_eq_false hsix, hlease,
    fun mac hmac ↦ hinj mac (sampleMac 1) _ hmac hlease⟩

/-- A host that is leased `10.0.0.1` announces it, and then probes for it from the unspecified
address: the address goes back to the pool, and the next host gets it as well. -/
theorem leased_twice :
    ∃ dhcp, DhcpState.boot 0x0a000001 0x0a00000a [] = some dhcp ∧
      ∃ tr s, (system Unit sampleRouter).Run (boot sampleRouter (sampleMac 0xff) dhcp) tr s ∧
        s.lan.dhcp.leases.lookup (sampleMac 1) = some 0x0a000001 ∧
        s.lan.dhcp.leases.lookup (sampleMac 2) = some 0x0a000001 := by
  refine ⟨_, boot_sampleDhcp, ?_⟩
  have hcalls : (calls (step sampleRouter)
      (boot sampleRouter (sampleMac 0xff) sampleDhcp : Ports Unit)
      [.dhcp ⟨0x0a0000fe⟩ (sampleMessage 1 1),
        .lanArp (sampleArp 1 0x0a000001 0x0a0000fe) 0,
        .lanArp (sampleArp 1 Ipv4Addr.unspecified 0x0a000001) 1,
        .dhcp ⟨0x0a0000fe⟩ (sampleMessage 1 2)]).map (fun r ↦
      (r.2.lan.dhcp.leases.lookup (sampleMac 1), r.2.lan.dhcp.leases.lookup (sampleMac 2))) =
      some (some 0x0a000001, some 0x0a000001) := by decide +kernel
  obtain ⟨⟨tr, s⟩, hrun, hleases⟩ := Option.map_eq_some_iff.1 hcalls
  obtain ⟨hA, hB⟩ := Prod.mk.inj hleases
  exact ⟨tr, s, run_of_calls hrun, hA, hB⟩

end Ports

/-! ### Clean neighbor tables -/

/-- The target hardware address is named, if the target is specified at all. -/
def ArpPacket.TargetKnown (a : ArpPacket) : Prop :=
  a.targetIp = Ipv4Addr.unspecified ∨ a.tha ≠ .zero

namespace NeighborTable

theorem Clean.learnIf_iff {t : NeighborTable P} (h : t.Clean) (c : Bool) (ip : Ipv4Addr)
    (mac : MacAddr) (now : Tick) :
    (t.learnIf c ip mac now).1.Clean ↔ (c = true → mac ≠ .zero) := by
  unfold learnIf
  split_ifs with hc
  · exact (h.onArp_iff ip mac now).trans (by simp [hc])
  · simp [hc, h]

/-- Packets that were waiting go to the MAC that is learned. -/
theorem drained_learnIf {t : NeighborTable P} {c : Bool} {ip : Ipv4Addr} {mac : MacAddr}
    {now : Tick} {d : MacAddr × List P} (hd : d ∈ (t.learnIf c ip mac now).2) :
    c = true ∧ d.1 = mac := by
  unfold learnIf at hd
  split_ifs at hd with hc
  · exact ⟨hc, drained_onArp (Option.mem_toList.1 hd)⟩
  · exact absurd hd List.not_mem_nil

theorem targetKnown_iff {a : ArpPacket} :
    a.TargetKnown ↔ ((a.targetIp != Ipv4Addr.unspecified) = true → a.tha ≠ .zero) := by
  rw [ArpPacket.TargetKnown, bne_iff_ne, or_iff_not_imp_left]

/-- **Learning an ARP packet whose sender is known keeps the table clean exactly if its target is
known.** -/
theorem Clean.learn_iff {t : NeighborTable P} (h : t.Clean) (sender : Bool) {arp : ArpPacket}
    (hsha : arp.sha ≠ .zero) (now : Tick) : (t.learn sender arp now).1.Clean ↔ arp.TargetKnown := by
  have hsender : (t.learnIf sender arp.senderIp arp.sha now).1.Clean :=
    (h.learnIf_iff _ _ _ _).2 fun _ ↦ hsha
  exact (hsender.learnIf_iff _ _ _ _).trans targetKnown_iff.symm

theorem drained_learn {t : NeighborTable P} {sender : Bool} {arp : ArpPacket} {now : Tick}
    (hsha : arp.sha ≠ .zero) (htarget : arp.TargetKnown) {d : MacAddr × List P}
    (hd : d ∈ (t.learn sender arp now).2) : d.1 ≠ .zero := by
  rcases List.mem_append.1 hd with hd | hd
  · rw [(drained_learnIf hd).2]
    exact hsha
  · rw [(drained_learnIf hd).2]
    exact targetKnown_iff.1 htarget (drained_learnIf hd).1

end NeighborTable

/-- The ARP packet an event brings, if any. -/
def PortEvent.arp : PortEvent P → Option ArpPacket
  | .lanArp frame _ => (parseArp frame).map (·.2)
  | .wanArp frame _ => (parseArp frame).map (·.2)
  | _ => none

namespace Ports

/-- Neither table maps an address to the all-zero MAC. -/
def Clean (s : Ports P) : Prop := s.lan.neighbors.Clean ∧ s.wan.Clean

theorem clean_boot (router : RouterId) (wanMac : MacAddr) (dhcp : DhcpState) :
    (boot router wanMac dhcp : Ports P).Clean :=
  ⟨NeighborTable.clean_new _ _, NeighborTable.clean_new _ _⟩

/-- What an ARP frame on a LAN port does to the neighbor table, and what it sends. -/
theorem handleLanArp_eq_some {router : RouterId} {s t : LanState P} {frame : Bytes} {now : Tick}
    {out : ArpOutput P} {eth : EthernetHeader} {arp : ArpPacket}
    (hparse : parseArp frame = some (eth, arp))
    (h : s.handleLanArp router frame now = some (t, out)) :
    t.neighbors = (s.neighbors.learn true arp now).1 ∧
      out.drained = (s.neighbors.learn true arp now).2 := by
  simp only [LanState.handleLanArp, hparse, Option.map_eq_some_iff] at h
  obtain ⟨pool, -, heq⟩ := h
  obtain ⟨rfl, rfl⟩ := Prod.mk.inj heq
  refine ⟨rfl, ?_⟩
  split_ifs <;> rfl

/-- **What an event does to the neighbor tables, and the packets it drains.** An ARP packet is
learned by one of the two; nothing else adds to the cache of either, or drains a packet. -/
theorem step_neighbors {router : RouterId} {s t : Ports P} {e : PortEvent P} {o : PortOutput P}
    (h : s.step router e = some (t, o)) :
    (e.arp = none ∧ (s.Clean → t.Clean) ∧ o.drained = []) ∨
    (∃ arp now, e.arp = some arp ∧ t.wan = s.wan ∧
      (t.lan.neighbors, o.drained) = s.lan.neighbors.learn true arp now) ∨
    ∃ arp sender now, e.arp = some arp ∧ t.lan = s.lan ∧
      (t.wan, o.drained) = s.wan.learn sender arp now := by
  cases e with
  | dhcp cfg view =>
    obtain ⟨⟨dhcp, reply⟩, -, heq⟩ := Option.map_eq_some_iff.1 h
    obtain ⟨rfl, rfl⟩ := Prod.mk.inj heq
    exact Or.inl ⟨rfl, id, rfl⟩
  | lanArp frame now =>
    obtain ⟨⟨lan, out⟩, hhandle, heq⟩ := Option.map_eq_some_iff.1 h
    obtain ⟨rfl, rfl⟩ := Prod.mk.inj heq
    rcases hparse : parseArp frame with - | ⟨eth, arp⟩
    · simp only [LanState.handleLanArp, hparse] at hhandle
      obtain ⟨rfl, rfl⟩ := Prod.mk.inj (Option.some.inj hhandle)
      exact Or.inl ⟨by simp [PortEvent.arp, hparse], id, rfl⟩
    · obtain ⟨hneighbors, hdrained⟩ := handleLanArp_eq_some hparse hhandle
      refine Or.inr (Or.inl ⟨arp, now, by simp [PortEvent.arp, hparse], rfl, ?_⟩)
      exact Prod.ext hneighbors hdrained
  | wanArp frame now =>
    rcases hparse : parseArp frame with - | ⟨eth, arp⟩ <;>
      simp only [step, handleWanArp, hparse] at h <;>
      obtain ⟨rfl, rfl⟩ := Prod.mk.inj (Option.some.inj h)
    · exact Or.inl ⟨by simp [PortEvent.arp, hparse], id, rfl⟩
    · exact Or.inr (Or.inr ⟨arp, _, now, by simp [PortEvent.arp, hparse], rfl, rfl⟩)
  | lanResolve target packet reqLen now =>
    obtain ⟨rfl, rfl⟩ := Prod.mk.inj (Option.some.inj h)
    exact Or.inl ⟨rfl, fun hs ↦ ⟨hs.1.resolve _ _ _ _, hs.2⟩, rfl⟩
  | wanResolve target packet reqLen now =>
    obtain ⟨rfl, rfl⟩ := Prod.mk.inj (Option.some.inj h)
    exact Or.inl ⟨rfl, fun hs ↦ ⟨hs.1, hs.2.resolve _ _ _ _⟩, rfl⟩
  | lanSweep now =>
    obtain ⟨rfl, rfl⟩ := Prod.mk.inj (Option.some.inj h)
    exact Or.inl ⟨rfl, fun hs ↦ ⟨hs.1.sweep _, hs.2⟩, rfl⟩
  | wanSweep now =>
    obtain ⟨rfl, rfl⟩ := Prod.mk.inj (Option.some.inj h)
    exact Or.inl ⟨rfl, fun hs ↦ ⟨hs.1, hs.2.sweep _⟩, rfl⟩
  | setWanIp ip =>
    obtain ⟨rfl, rfl⟩ := Prod.mk.inj (Option.some.inj h)
    exact Or.inl ⟨rfl, id, rfl⟩

section Step

variable {router : RouterId} {s t : Ports P} {e : PortEvent P} {o : PortOutput P}

/-- **One event keeps the tables clean exactly if the ARP packet it brings names its target**,
provided that the packet names its sender. -/
theorem clean_step_iff (h : s.Clean) (hsender : ∀ arp ∈ e.arp, arp.sha ≠ .zero)
    (hstep : s.step router e = some (t, o)) : t.Clean ↔ ∀ arp ∈ e.arp, arp.TargetKnown := by
  rcases step_neighbors hstep with ⟨harp, hclean, -⟩ | ⟨arp, now, harp, hwan, hlearn⟩ |
    ⟨arp, sender, now, harp, hlan, hlearn⟩
  · rw [harp]
    exact iff_of_true (hclean h) (by simp)
  · rw [harp] at hsender ⊢
    have hiff := h.1.learn_iff true (hsender arp rfl) now
    rw [← hlearn] at hiff
    rw [Clean, hwan, hiff]
    simp [h.2]
  · rw [harp] at hsender ⊢
    have hiff := h.2.learn_iff sender (hsender arp rfl) now
    rw [← hlearn] at hiff
    rw [Clean, hlan, hiff]
    simp [h.1]

/-- An event whose ARP packet names sender and target drains no packet to the all-zero MAC. -/
theorem drained_step (hsender : ∀ arp ∈ e.arp, arp.sha ≠ .zero)
    (htarget : ∀ arp ∈ e.arp, arp.TargetKnown) (hstep : s.step router e = some (t, o))
    {d : MacAddr × List P} (hd : d ∈ o.drained) : d.1 ≠ .zero := by
  rcases step_neighbors hstep with ⟨-, -, hnil⟩ | ⟨arp, now, harp, -, hlearn⟩ |
    ⟨arp, sender, now, harp, -, hlearn⟩
  · rw [hnil] at hd
    exact absurd hd List.not_mem_nil
  · have hd' : d ∈ (s.lan.neighbors.learn true arp now).2 := by rwa [← hlearn]
    exact NeighborTable.drained_learn (hsender arp harp) (htarget arp harp) hd'
  · have hd' : d ∈ (s.wan.learn sender arp now).2 := by rwa [← hlearn]
    exact NeighborTable.drained_learn (hsender arp harp) (htarget arp harp) hd'

end Step

/-- Along the run no table ever maps an address to the all-zero MAC, and no packet that was waiting
is sent there. -/
def NeverPoisoned (router : RouterId) (s₀ : Ports P)
    (tr : List (PortEvent P × PortOutput P)) : Prop :=
  (∀ pre post s, tr = pre ++ post → (system P router).Run s₀ pre s → s.Clean) ∧
    ∀ a ∈ tr, ∀ d ∈ a.2.drained, d.1 ≠ MacAddr.zero

/-- A run all of whose ARP packets name sender and target. -/
theorem clean_run {router : RouterId} {s₀ s : Ports P} {tr : List (PortEvent P × PortOutput P)}
    (h₀ : s₀.Clean) (hrun : (system P router).Run s₀ tr s)
    (hsender : ∀ a ∈ tr, ∀ arp ∈ a.1.arp, arp.sha ≠ .zero)
    (htarget : ∀ a ∈ tr, ∀ arp ∈ a.1.arp, arp.TargetKnown) :
    s.Clean ∧ ∀ a ∈ tr, ∀ d ∈ a.2.drained, d.1 ≠ MacAddr.zero := by
  induction hrun with
  | nil => exact ⟨h₀, fun _ ha ↦ absurd ha List.not_mem_nil⟩
  | @snoc tr s t a _ hst ih =>
    rw [List.forall_mem_append, List.forall_mem_singleton] at hsender htarget
    obtain ⟨hclean, hdrained⟩ := ih hsender.1 htarget.1
    refine ⟨(clean_step_iff hclean hsender.2 hst).2 htarget.2, ?_⟩
    rw [List.forall_mem_append, List.forall_mem_singleton]
    exact ⟨hdrained, fun d ↦ drained_step hsender.2 htarget.2 hst⟩

/-- **The neighbor tables are never poisoned exactly in the runs whose ARP packets all name a target
hardware address**, or have no target, for runs from clean tables whose ARP packets all name their
sender's. -/
theorem neverPoisoned_iff {router : RouterId} {s₀ s : Ports P} (h₀ : s₀.Clean)
    {tr : List (PortEvent P × PortOutput P)} (hrun : (system P router).Run s₀ tr s)
    (hsender : ∀ a ∈ tr, ∀ arp ∈ a.1.arp, arp.sha ≠ .zero) :
    NeverPoisoned router s₀ tr ↔
      ∀ a ∈ tr, ∀ arp ∈ a.1.arp, arp.targetIp = Ipv4Addr.unspecified ∨ arp.tha ≠ .zero := by
  constructor
  · rintro ⟨hclean, -⟩ a ha
    -- the tables are clean before and after the event
    obtain ⟨pre, post, rfl⟩ := List.append_of_mem ha
    obtain ⟨u, hpre, hpost⟩ := hrun.of_append
    obtain ⟨v, hst, -⟩ := hpost.of_cons
    have hu := hclean pre (a :: post) u rfl hpre
    have hv := hclean (pre ++ [a]) post v (by simp) (hpre.snoc hst)
    exact (clean_step_iff hu (hsender a ha) hst).1 hv
  · intro htarget
    refine ⟨?_, (clean_run h₀ hrun hsender htarget).2⟩
    rintro pre post s' rfl hpre
    rw [List.forall_mem_append] at hsender htarget
    exact (clean_run h₀ hpre hsender.1 htarget.1).1

/-- A packet waits for `10.0.0.7`, which answers the router; the answer names both hardware
addresses, and the packet goes to the host that answered. -/
theorem neverPoisoned_reply :
    ∃ tr s, (system ℕ sampleRouter).Run (boot sampleRouter (sampleMac 0xff) sampleDhcp) tr s ∧
      (∃ a ∈ tr, (sampleMac 7, [0]) ∈ a.2.drained) ∧
      NeverPoisoned sampleRouter (boot sampleRouter (sampleMac 0xff) sampleDhcp) tr := by
  have hcalls : (calls (step sampleRouter) (boot sampleRouter (sampleMac 0xff) sampleDhcp)
      [.lanResolve 0x0a000007 0 42 0,
        .lanArp (ArpPacket.frame sampleRouter.serverMac (sampleMac 7)
          (.mk' ArpPacket.reply (sampleMac 7) 0x0a000007 sampleRouter.serverMac
            sampleRouter.serverIp)) 1]).map (fun r ↦
      decide ((∀ a ∈ r.1, ∀ arp ∈ a.1.arp, arp.sha ≠ .zero) ∧
        (∀ a ∈ r.1, ∀ arp ∈ a.1.arp, arp.targetIp = Ipv4Addr.unspecified ∨ arp.tha ≠ .zero) ∧
        ∃ a ∈ r.1, (sampleMac 7, [0]) ∈ a.2.drained)) = some true := by decide +kernel
  obtain ⟨⟨tr, s⟩, hsome, hend⟩ := Option.map_eq_some_iff.1 hcalls
  obtain ⟨hsender, htarget, hdrained⟩ := of_decide_eq_true hend
  have hrun := run_of_calls hsome
  exact ⟨tr, s, hrun, hdrained, (neverPoisoned_iff (clean_boot _ _ _) hrun hsender).2 htarget⟩

/-- A packet waits for `10.0.0.7`, and another host asks for the same address. Its request names its
own hardware address and, like every request, has zeros for the target's: the router learns the
zeros, and the packet that was waiting goes there. -/
theorem request_poisons :
    ∃ tr s, (system ℕ sampleRouter).Run (boot sampleRouter (sampleMac 0xff) sampleDhcp) tr s ∧
      (∀ a ∈ tr, ∀ arp ∈ a.1.arp, arp.sha ≠ .zero ∧ (arp.isReply = true → arp.tha ≠ .zero) ∧
        (arp.isRequest = true → arp.tha = .zero)) ∧
      s.lan.neighbors.lookup 0x0a000007 = some .zero ∧
      ∃ a ∈ tr, (MacAddr.zero, [0]) ∈ a.2.drained := by
  have hcalls : (calls (step sampleRouter) (boot sampleRouter (sampleMac 0xff) sampleDhcp)
      [.lanResolve 0x0a000007 0 42 0,
        .lanArp (sampleArp 1 0x0a000001 0x0a000007) 1]).map (fun r ↦
      decide ((∀ a ∈ r.1, ∀ arp ∈ a.1.arp,
          arp.sha ≠ .zero ∧ (arp.isReply = true → arp.tha ≠ .zero) ∧
            (arp.isRequest = true → arp.tha = .zero)) ∧
        r.2.lan.neighbors.lookup 0x0a000007 = some .zero ∧
        ∃ a ∈ r.1, (MacAddr.zero, [0]) ∈ a.2.drained)) = some true := by decide +kernel
  obtain ⟨⟨tr, s⟩, hsome, hend⟩ := Option.map_eq_some_iff.1 hcalls
  exact ⟨tr, s, run_of_calls hsome, of_decide_eq_true hend⟩

end Ports

end UserspaceRouter
