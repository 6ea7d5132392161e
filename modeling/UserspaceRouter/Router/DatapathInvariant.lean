import Mathlib.Tactic.Abel
import UserspaceRouter.Router.Datapath
import UserspaceRouter.Router.DhcpExchange
import UserspaceRouter.Router.Waiting

/-!
# What holds while the workers run

The invariant of the workers has two parts.

*Buffers.* Every mbuf is in one place: in its mempool, with a device, in a neighbor table, or in the
hands of a worker. What the store has is `held`; the rest is owned by the workers, as a resource in
the sense of `Foundations.Program`.

*Reasons.* Whatever is queued or sent can be traced to frames that were received. `Evidence` is what
such an argument rests on: the frames that have come in, and the bindings of the NAT. Both only
grow, so a reason once found is good for ever, and a worker may act on it long after it has looked
(`Evidence.le`). `Legit` lists the reasons for sending.

Each access of the programs gets one lemma, `safe_…`, that says what it needs, what it leaves, and
what it finds out; the handlers are then put together from these without opening the state.
-/

namespace UserspaceRouter

open Program

/-! ### Evidence -/

/-- What has been received, by port, the NAT, and the WAN addresses so far. -/
structure Evidence where
  received : List (PortId × Bytes)
  nat : NatTable
  assigned : List Ipv4Addr

namespace Evidence

/-- A DHCP server on the port acknowledged the address. -/
def Acked (e : Evidence) (port : PortId) (ip : Ipv4Addr) : Prop :=
  ∃ frame view, (port, frame) ∈ e.received ∧ parseDhcp frame = some view ∧
    view.messageType = some .ack ∧ view.header.yourIp = ip

/-- More has come in, and been bound and assigned. Once the NAT has an address that was assigned, it
may get another one, but only such a one. -/
structure Later (e e' : Evidence) : Prop where
  received : ∀ x ∈ e.received, x ∈ e'.received
  nat : e.nat.Extends e'.nat
  assigned : ∀ ip ∈ e.assigned, ip ∈ e'.assigned
  wanIp : e.nat.wanIp ∈ e.assigned → e'.nat.wanIp ∈ e'.assigned

instance : Preorder Evidence where
  le := Later
  le_refl e := ⟨fun _ hx ↦ hx, .refl _, fun _ hip ↦ hip, id⟩
  le_trans _ _ _ h h' := ⟨fun x hx ↦ h'.received x (h.received x hx), h.nat.trans h'.nat,
    fun ip hip ↦ h'.assigned ip (h.assigned ip hip), h'.wanIp ∘ h.wanIp⟩

variable {e e' : Evidence}

theorem Acked.mono (h : e ≤ e') {port : PortId} {ip : Ipv4Addr} (hack : e.Acked port ip) :
    e'.Acked port ip := by
  obtain ⟨frame, view, hframe, hview⟩ := hack
  exact ⟨frame, view, h.received _ hframe, hview⟩

variable (cfg : DatapathConfig)

/-- A host on the LAN opened the flow: a frame of it with SYN set, and ACK and RST clear, has come
in. -/
def Opened (e : Evidence) (key : FlowKey) : Prop :=
  ∃ p ∈ cfg.lan, ∃ frame flags, (p.portId, frame) ∈ e.received ∧
    parseTcpTuple frame = some ⟨key.intIp, key.intPort, key.extIp, key.extPort, flags⟩ ∧
    TcpFlag.isOpening flags = true

/-- What may leave on the WAN side: a TCP frame from a LAN port, with its source endpoint replaced
by an address that was assigned to the router and the port that is bound to the endpoint. -/
def Outbound (e : Evidence) (bytes : Bytes) : Prop :=
  ∃ p ∈ cfg.lan, ∃ frame tup c ip ext, (p.portId, frame) ∈ e.received ∧
    parseTcpTuple frame = some tup ∧ classify .src frame = some c ∧ ip ∈ e.assigned ∧
    e.nat.fwd.lookup (Proto.tcp, tup.srcIp, tup.srcPort) = some ext ∧
    bytes = rewrite .src c ip ext frame

/-- What may come in from the WAN side: a TCP frame from the WAN port, with its destination endpoint
replaced by the one its port is bound to, of a flow that this host opened. -/
def Inbound (e : Evidence) (bytes : Bytes) : Prop :=
  ∃ frame tup c x, (cfg.wan.portId, frame) ∈ e.received ∧
    parseTcpTuple frame = some tup ∧ classify .dst frame = some c ∧
    e.nat.fwd.lookup (Proto.tcp, x.dstIp, x.dstPort) = some tup.dstPort ∧
    e.Opened cfg (tup.ingressKey x) ∧
    bytes = rewrite .dst c x.dstIp x.dstPort frame

/-- What may wait in a neighbor table. -/
def Held (e : Evidence) : Segment → Bytes → Prop
  | .lan => e.Inbound cfg
  | .wan => e.Outbound cfg

variable {cfg}

theorem Opened.mono (h : e ≤ e') {key : FlowKey} (hopened : e.Opened cfg key) :
    e'.Opened cfg key := by
  obtain ⟨p, hp, frame, flags, hframe, hflow⟩ := hopened
  exact ⟨p, hp, frame, flags, h.received _ hframe, hflow⟩

theorem Held.mono (h : e ≤ e') {side : Segment} {bytes : Bytes} (hheld : e.Held cfg side bytes) :
    e'.Held cfg side bytes := by
  cases side with
  | lan =>
    obtain ⟨frame, tup, c, x, hframe, htup, hc, hfwd, hopened, hbytes⟩ := hheld
    exact ⟨frame, tup, c, x, h.received _ hframe, htup, hc, h.nat.fwd_le _ _ hfwd,
      hopened.mono h, hbytes⟩
  | wan =>
    obtain ⟨p, hp, frame, tup, c, ip, ext, hframe, htup, hc, hip, hfwd, hbytes⟩ := hheld
    exact ⟨p, hp, frame, tup, c, ip, ext, h.received _ hframe, htup, hc, h.assigned ip hip,
      h.nat.fwd_le _ _ hfwd, hbytes⟩

end Evidence

/-- The ports of a side. -/
def DatapathConfig.portsOf (cfg : DatapathConfig) : Segment → List PortInfo
  | .lan => cfg.lan
  | .wan => [cfg.wan]

/-- A request that the router makes on a side. -/
def DatapathConfig.Request (cfg : DatapathConfig) (side : Segment) (bytes : Bytes) : Prop :=
  match side with
  | .lan => ∃ target, ArpPacket.buildRequest ArpPacket.frameLen cfg.router.serverMac
      cfg.router.serverIp target = some bytes
  | .wan => ∃ ip target, ArpPacket.buildRequest ArpPacket.frameLen cfg.wan.etherAddr ip target =
      some bytes

/-- **The reasons for sending** something on a port. -/
inductive Legit (cfg : DatapathConfig) (e : Evidence) : PortInfo → Payload → Prop
  /-- The router asks for an address. -/
  | request (side : Segment) {port : PortInfo} {bytes : Bytes} (hport : port ∈ cfg.portsOf side)
      (hrequest : cfg.Request side bytes) : Legit cfg e port (.frame bytes)
  /-- A packet that crosses the router. -/
  | crosses (side : Segment) {port q : PortInfo} {bytes : Bytes} (mac : MacAddr)
      (hport : port ∈ cfg.portsOf side) (hq : q ∈ cfg.portsOf side)
      (hheld : e.Held cfg side bytes) :
      Legit cfg e port (.frame (setEthernet bytes q.etherAddr mac))
  /-- The router answers for its own address on the LAN. -/
  | reply {port : PortInfo} {bytes : Bytes} (sha : MacAddr) (spa : Ipv4Addr)
      (hport : port ∈ cfg.lan) (hreply : ArpPacket.buildReply LanState.frameMax
        cfg.router.serverMac cfg.router.serverIp sha spa = some bytes) :
      Legit cfg e port (.frame bytes)
  /-- A frame from one LAN port is repeated on another one. -/
  | bridged {port q : PortInfo} {bytes : Bytes} (hport : port ∈ cfg.lan) (hq : q ∈ cfg.lan)
      (hne : port.portId ≠ q.portId) (hframe : (q.portId, bytes) ∈ e.received) :
      Legit cfg e port (.frame bytes)
  /-- The DHCP server answers a message that came in on the port. -/
  | dhcpReply {port : PortInfo} {frame : Bytes} {view : DhcpView} {reply : Reply}
      (hport : port ∈ cfg.lan) (hframe : (port.portId, frame) ∈ e.received)
      (hview : parseDhcp frame = some view) (hclient : reply.client = view.header.clientMac)
      (hxid : reply.xid = view.header.xid) : Legit cfg e port (.dhcpReply reply)
  /-- The DHCP client asks for an address for the WAN port. -/
  | dhcpMessage {message : ClientMessage} (hmac : message.mac = cfg.wan.etherAddr) :
      Legit cfg e cfg.wan (.dhcpMessage message)

theorem Legit.mono {cfg : DatapathConfig} {e e' : Evidence} (h : e ≤ e') {port : PortInfo}
    {payload : Payload} (hlegit : Legit cfg e port payload) : Legit cfg e' port payload := by
  cases hlegit with
  | request side hport hrequest => exact .request side hport hrequest
  | crosses side mac hport hq hheld => exact .crosses side mac hport hq (hheld.mono h)
  | reply sha spa hport hreply => exact .reply sha spa hport hreply
  | bridged hport hq hne hframe => exact .bridged hport hq hne (h.received _ hframe)
  | dhcpReply hport hframe hview hclient hxid =>
    exact .dhcpReply hport (h.received _ hframe) hview hclient hxid
  | dhcpMessage hmac => exact .dhcpMessage hmac

/-- The buffers of some packets. -/
def ids (ms : List Mbuf) : Multiset MbufId := (ms.map (·.id) : List MbufId)

/-- The buffers in the mempools and with the devices. -/
def Nic.held (nic : Nic) : Multiset MbufId :=
  (nic.free : Multiset MbufId) + ids (nic.rx.map (·.2)) + (nic.tx : Multiset MbufId)

namespace Datapath

/-! ### The invariant -/

def evidence (s : Datapath) : Evidence := ⟨s.nic.received, s.firewall.nat, s.assigned⟩

/-- The buffers that are somewhere in the store. -/
def held (s : Datapath) : Multiset MbufId :=
  s.nic.held + (s.neighbors .lan).waiting.map (·.id) + (s.neighbors .wan).waiting.map (·.id) +
    (s.leaked : Multiset MbufId)

/-- The bounds of the address pool. -/
def bounds (s : Datapath) : Ipv4Addr × Ipv4Addr :=
  (s.ports.lan.dhcp.pool.start, s.ports.lan.dhcp.pool.end_)

/-- An address that may be given back to the pool. -/
def Within (s : Datapath) (ip : Ipv4Addr) : Prop := s.bounds.1 ≤ ip ∧ ip ≤ s.bounds.2

/-- There is more evidence, and the pool has the same bounds. -/
instance : Preorder Datapath where
  le s t := s.evidence ≤ t.evidence ∧ t.bounds = s.bounds
  le_refl _ := ⟨le_rfl, rfl⟩
  le_trans _ _ _ h h' := ⟨h.1.trans h'.1, h'.2.trans h.2⟩

theorem Within.mono {s t : Datapath} (h : s ≤ t) {ip : Ipv4Addr} (hin : s.Within ip) :
    t.Within ip := by
  rwa [Within, h.2]

/-- What the tables and devices hold is backed by the evidence `e`. -/
structure Facts (cfg : DatapathConfig) (e : Evidence) (s : Datapath) : Prop where
  lease : ∀ l ∈ s.client.lease, e.Acked cfg.wan.portId l.ip
  assigned : ∀ ip ∈ s.assigned, e.Acked cfg.wan.portId ip
  clientMac : s.client.mac = cfg.wan.etherAddr
  flows : ∀ key ∈ s.firewall.conntrack.flows, e.Opened cfg key
  lanIdentity : (s.neighbors .lan).ourMac = cfg.router.serverMac ∧
    (s.neighbors .lan).ourIp = cfg.router.serverIp
  wanIdentity : (s.neighbors .wan).ourMac = cfg.wan.etherAddr
  waiting : ∀ side, ∀ m ∈ (s.neighbors side).waiting, e.Held cfg side m.data
  rx : ∀ x ∈ s.nic.rx, (x.1.1, x.2.data) ∈ e.received
  sent : ∀ x ∈ s.nic.sent, ∃ port, port.portId = x.1 ∧ Legit cfg e port x.2
  dhcp : s.ports.lan.dhcp.Sound
  stuck : s.poolStuck = false
  leaked : s.leaked = []

/-- **The invariant**, for a store and the buffers that the workers own. -/
structure Inv (cfg : DatapathConfig) (all : Multiset MbufId) (s : Datapath)
    (own : Multiset MbufId) : Prop where
  mbufs : s.held + own = all
  nat : s.firewall.nat.Inv
  wanIp : s.firewall.nat.wanIp = Ipv4Addr.unspecified ∨ s.firewall.nat.wanIp ∈ s.assigned
  facts : Facts cfg s.evidence s

variable {cfg : DatapathConfig} {all r m m' : Multiset MbufId} {s t s₀ : Datapath}

theorem Facts.mono {e e' : Evidence} (h : Facts cfg e s) (hle : e ≤ e') : Facts cfg e' s where
  lease l hl := (h.lease l hl).mono hle
  assigned ip hip := (h.assigned ip hip).mono hle
  clientMac := h.clientMac
  flows key hkey := (h.flows key hkey).mono hle
  lanIdentity := h.lanIdentity
  wanIdentity := h.wanIdentity
  waiting side m hm := (h.waiting side m hm).mono hle
  rx x hx := hle.received _ (h.rx x hx)
  sent x hx := by
    obtain ⟨port, hport, hlegit⟩ := h.sent x hx
    exact ⟨port, hport, hlegit.mono hle⟩
  dhcp := h.dhcp
  stuck := h.stuck
  leaked := h.leaked

/-- An access that may add to the evidence. -/
theorem Inv.grow (h : Inv cfg all s (r + m)) (hheld : t.held + m' = s.held + m)
    (hle : s.evidence ≤ t.evidence) (hbounds : t.bounds = s.bounds)
    (hnat : t.firewall.nat.Inv)
    (hwan : t.firewall.nat.wanIp = Ipv4Addr.unspecified ∨ t.firewall.nat.wanIp ∈ t.assigned)
    (hfacts : Facts cfg t.evidence s → Facts cfg t.evidence t) :
    s ≤ t ∧ Inv cfg all t (r + m') := by
  refine ⟨⟨hle, hbounds⟩, ?_, hnat, hwan, hfacts (h.facts.mono hle)⟩
  rw [add_left_comm, hheld, add_left_comm]
  exact h.mbufs

/-- An access that leaves the evidence alone. -/
theorem Inv.step (h : Inv cfg all s (r + m)) (hheld : t.held + m' = s.held + m)
    (he : t.evidence = s.evidence) (hbounds : t.bounds = s.bounds)
    (hfacts : Facts cfg s.evidence s → Facts cfg s.evidence t) :
    s ≤ t ∧ Inv cfg all t (r + m') := by
  have hnat : t.firewall.nat = s.firewall.nat := congrArg Evidence.nat he
  have hassigned : t.assigned = s.assigned := congrArg Evidence.assigned he
  refine h.grow hheld he.symm.le hbounds (hnat ▸ h.nat) ?_ (by rw [he]; exact hfacts)
  rw [hnat, hassigned]
  exact h.wanIp

/-! ### Accesses that the invariant does not speak of -/

/-- Only the forwarding database and the words of the loop change. -/
def Quiet (s t : Datapath) : Prop :=
  ∃ fdb bound lastSweepMs shutdown, t = { s with fdb, bound, lastSweepMs, shutdown }

theorem Quiet.step (h : Quiet s t) (hI : Inv cfg all s (r + m)) :
    s ≤ t ∧ Inv cfg all t (r + m) := by
  obtain ⟨fdb, bound, lastSweepMs, shutdown, rfl⟩ := h
  exact hI.step rfl rfl rfl fun hf ↦ { hf with }

theorem safe_quiet {α : Type} {g : Datapath → α × Datapath} {P : α → Prop}
    (h : ∀ s, Quiet s (g s).2) (hP : ∀ s, P (g s).1) :
    Safe (Inv cfg all) (fun _ a m' ↦ m' = m ∧ P a) (call g) s₀ m := by
  refine safe_call fun s r _ hI ↦ ?_
  obtain ⟨hle, hI'⟩ := (h s).step hI
  exact ⟨hle, m, hI', rfl, hP s⟩

/-- What follows a quiet access does not depend on it. -/
theorem safe_quiet_bind {α β : Type} {g : Datapath → α × Datapath} {k : α → Program Datapath β}
    {Q : Datapath → β → Multiset MbufId → Prop} (h : ∀ s, Quiet s (g s).2)
    (hk : ∀ s a, s₀ ≤ s → Safe (Inv cfg all) Q (k a) s m) :
    Safe (Inv cfg all) Q ((call g).bind k) s₀ m := by
  refine (safe_quiet (m := m) (P := fun _ ↦ True) h fun _ ↦ trivial).bind ?_
  rintro s a n hs ⟨rfl, -⟩
  exact hk s a hs

/-! ### Buffers and devices -/

theorem ids_cons (x : Mbuf) (ms : List Mbuf) : ids (x :: ms) = {x.id} + ids ms := by
  simp [ids]

/-- The buffers of a list, one by one. -/
theorem sum_ids (ms : List Mbuf) :
    (ms.map fun m ↦ ({m.id} : Multiset MbufId)).sum = ids ms := by
  induction ms with
  | nil => rfl
  | cons x ms ih => rw [List.map_cons, List.sum_cons, ih, ids_cons]

theorem held_setNic (s : Datapath) (nic : Nic) (h : nic.held + m' = s.nic.held + m) :
    (s.setNic nic).held + m' = s.held + m := by
  show nic.held + _ + _ + _ + m' = s.nic.held + _ + _ + _ + m
  rw [add_right_comm _ _ m', add_right_comm _ _ m', add_right_comm _ _ m', h]
  simp only [add_right_comm _ _ m]
  rfl

theorem safe_free (id : MbufId) : Safe (Inv cfg all) Done (free id) s₀ {id} := by
  refine safe_modify fun s r _ hI ↦ ?_
  have hnic : Nic.held { s.nic with free := id :: s.nic.free } + 0 = s.nic.held + {id} := by
    simp only [Nic.held, ← Multiset.cons_coe, ← Multiset.singleton_add]
    abel
  obtain ⟨hle, hI'⟩ := hI.step (held_setNic s _ hnic) rfl rfl fun hf ↦ { hf with }
  exact ⟨hle, 0, hI', rfl⟩

/-- The buffers of a mempool but one. -/
theorem coe_erase_add {l : List MbufId} {id : MbufId} (h : id ∈ l) :
    ((l.erase id : List MbufId) : Multiset MbufId) + {id} = (l : Multiset MbufId) := by
  rw [add_comm, Multiset.singleton_add, Multiset.cons_coe]
  exact Multiset.coe_eq_coe.2 (List.perm_cons_erase h).symm

theorem safe_alloc (pool : ℕ) :
    Safe (Inv cfg all) (fun _ o m ↦ m = ids (o.toList.map fun id ↦ ⟨id, []⟩)) (alloc pool) s₀
      0 := by
  refine safe_call fun s r _ hI ↦ ?_
  rcases ho : (if s.nic.allocates then s.nic.free.find? (·.pool == pool) else none) with - | id
  · simp only [ho]
    exact ⟨le_rfl, 0, hI, rfl⟩
  · simp only [ho]
    have hmem : id ∈ s.nic.free := by
      split_ifs at ho
      exact List.mem_of_find?_eq_some ho
    have hnic : Nic.held { s.nic with free := s.nic.free.erase id } + {id} = s.nic.held + 0 := by
      simp only [Nic.held, ← coe_erase_add hmem]
      abel
    obtain ⟨hle, hI'⟩ := hI.step (held_setNic s _ hnic) rfl rfl fun hf ↦ { hf with }
    exact ⟨hle, {id}, hI', rfl⟩

theorem safe_txBurst {port : PortInfo} {payload : Payload} (id : MbufId)
    (hlegit : Legit cfg s₀.evidence port payload) :
    Safe (Inv cfg all) (fun _ ok m ↦ m = if ok then 0 else {id})
      (txBurst port.portId id payload) s₀ {id} := by
  refine safe_call fun s r hs hI ↦ ?_
  by_cases haccepts : s.nic.accepts = true
  · simp only [if_pos haccepts]
    have hnic : Nic.held { s.nic with
        tx := id :: s.nic.tx, sent := s.nic.sent ++ [(port.portId, payload)] } + 0 =
        s.nic.held + {id} := by
      simp only [Nic.held, ← Multiset.cons_coe, ← Multiset.singleton_add]
      abel
    have hsent : ∀ x ∈ s.nic.sent ++ [(port.portId, payload)],
        ∃ port, port.portId = x.1 ∧ Legit cfg s.evidence port x.2 := by
      rw [List.forall_mem_append, List.forall_mem_singleton]
      exact ⟨hI.facts.sent, port, rfl, hlegit.mono hs.1⟩
    obtain ⟨hle, hI'⟩ := hI.step (held_setNic s _ hnic) rfl rfl fun hf ↦
      { hf with sent := hsent }
    exact ⟨hle, 0, hI', rfl⟩
  · simp only [if_neg haccepts]
    exact ⟨le_rfl, {id}, hI, rfl⟩

theorem safe_transmit {port : PortInfo} {payload : Payload} (id : MbufId)
    (hlegit : Legit cfg s₀.evidence port payload) :
    Safe (Inv cfg all) Done (transmit port.portId id payload) s₀ {id} := by
  refine (safe_txBurst id hlegit).bind ?_
  rintro s ok n - rfl
  cases ok with
  | true => exact (rfl : (0 : Multiset MbufId) = 0)
  | false => exact safe_free id

theorem safe_transmitFrame {port : PortInfo} {payload : Payload}
    (hlegit : Legit cfg s₀.evidence port payload) :
    Safe (Inv cfg all) Done (transmitFrame cfg port payload) s₀ 0 := by
  refine (safe_alloc _).bind ?_
  rintro s o n hs rfl
  rcases o with - | id
  · exact (rfl : (0 : Multiset MbufId) = 0)
  · show Safe _ _ (if payload.fits then _ else _) s {id}
    split_ifs
    · exact safe_transmit id (hlegit.mono hs.1)
    · exact safe_free id

/-- What a burst takes, and what it leaves. -/
theorem rxBurst_spec (q : RxQueue) (n : ℕ) (rx : List (RxQueue × Mbuf)) :
    ids (rx.map (·.2)) = ids (rxBurst q n rx).1 + ids ((rxBurst q n rx).2.map (·.2)) ∧
    (∀ m ∈ (rxBurst q n rx).1, (q, m) ∈ rx) ∧ ∀ x ∈ (rxBurst q n rx).2, x ∈ rx := by
  induction rx generalizing n with
  | nil => cases n <;> simp [rxBurst, ids]
  | cons x rx ih =>
    cases n with
    | zero => simp [rxBurst, ids]
    | succ n =>
      rw [rxBurst]
      split_ifs with hq
      · obtain ⟨hids, htaken, hleft⟩ := ih n
        refine ⟨?_, ?_, fun y hy ↦ List.mem_cons_of_mem _ (hleft y hy)⟩
        · rw [List.map_cons, ids_cons, ids_cons, hids, add_assoc]
        · rintro m (_ | ⟨_, hm⟩)
          · rw [← hq]
            exact List.mem_cons_self
          · exact List.mem_cons_of_mem _ (htaken m hm)
      · obtain ⟨hids, htaken, hleft⟩ := ih (n + 1)
        refine ⟨?_, fun m hm ↦ List.mem_cons_of_mem _ (htaken m hm), ?_⟩
        · rw [List.map_cons, List.map_cons, ids_cons, ids_cons, hids, add_left_comm]
        · rintro y (_ | ⟨_, hy⟩)
          · exact List.mem_cons_self
          · exact List.mem_cons_of_mem _ (hleft y hy)

theorem safe_receive (lcore : UInt32) (port : PortInfo) :
    Safe (Inv cfg all) (fun s ms m ↦ m = ids ms ∧
        ∀ x ∈ ms, (port.portId, x.data) ∈ s.evidence.received)
      (receive cfg lcore port) s₀ 0 := by
  unfold receive
  rcases (cfg.device port.portId).rxQueue lcore with - | q
  · exact ⟨rfl, nofun⟩
  · refine safe_call fun s r _ hI ↦ ?_
    obtain ⟨hids, htaken, hleft⟩ := rxBurst_spec (port.portId, q) burst s.nic.rx
    have hnic : Nic.held { s.nic with rx := (rxBurst (port.portId, q) burst s.nic.rx).2 } +
        ids (rxBurst (port.portId, q) burst s.nic.rx).1 = s.nic.held + 0 := by
      simp only [Nic.held, hids]
      abel
    obtain ⟨hle, hI'⟩ := hI.step (held_setNic s _ hnic) rfl rfl fun hf ↦
      { hf with rx := fun x hx ↦ hf.rx x (hleft x hx) }
    exact ⟨hle, _, hI', rfl, fun x hx ↦ hI.facts.rx _ (htaken x hx)⟩

/-! ### Neighbor tables -/

/-- One neighbor table is replaced by one that holds other buffers. -/
theorem held_setNeighbors (s : Datapath) (t : NeighborTable Mbuf) (side : Segment)
    (h : t.waiting.map (·.id) + m' = (s.neighbors side).waiting.map (·.id) + m) :
    (s.setNeighbors t side).held + m' = s.held + m := by
  cases side with
  | lan =>
    show s.nic.held + t.waiting.map (·.id) + (s.neighbors .wan).waiting.map (·.id) + s.leaked + m' =
      _
    rw [add_right_comm _ _ m', add_right_comm _ _ m', add_assoc _ (t.waiting.map _) m', h, held]
    abel
  | wan =>
    show s.nic.held + (s.neighbors .lan).waiting.map (·.id) + t.waiting.map (·.id) + s.leaked + m' =
      _
    rw [add_right_comm _ _ m', add_assoc _ (t.waiting.map _) m', h, held]
    abel

/-- A table of the same identity, with reasons for what it holds. -/
theorem Facts.setNeighbors {e : Evidence} (h : Facts cfg e s) {t : NeighborTable Mbuf}
    {side : Segment} (hmac : t.ourMac = (s.neighbors side).ourMac)
    (hip : side = .lan → t.ourIp = (s.neighbors side).ourIp)
    (hwaiting : ∀ m ∈ t.waiting, e.Held cfg side m.data) :
    Facts cfg e (s.setNeighbors t side) := by
  cases side with
  | lan =>
    refine { h with lanIdentity := ⟨hmac.trans h.lanIdentity.1, (hip rfl).trans h.lanIdentity.2⟩,
                    waiting := fun side ↦ ?_ }
    cases side with
    | lan => exact hwaiting
    | wan => exact h.waiting .wan
  | wan =>
    refine { h with wanIdentity := hmac.trans h.wanIdentity, waiting := fun side ↦ ?_ }
    cases side with
    | lan => exact h.waiting .lan
    | wan => exact hwaiting

/-- A call on a neighbor table that keeps its identity, and adds to it only what may wait there. -/
theorem Inv.setNeighbors (h : Inv cfg all s (r + m)) (side : Segment) {t : NeighborTable Mbuf}
    (hheld : t.waiting.map (·.id) + m' = (s.neighbors side).waiting.map (·.id) + m)
    (hmac : t.ourMac = (s.neighbors side).ourMac)
    (hip : side = .lan → t.ourIp = (s.neighbors side).ourIp)
    (hwaiting : ∀ x ∈ t.waiting, s.evidence.Held cfg side x.data) :
    s ≤ s.setNeighbors t side ∧ Inv cfg all (s.setNeighbors t side) (r + m') := by
  refine h.step (held_setNeighbors s t side hheld) ?_ ?_ fun hf ↦
    hf.setNeighbors hmac hip hwaiting
  · cases side <;> rfl
  · cases side <;> rfl

theorem safe_onArp (side : Segment) (ip : Ipv4Addr) (mac : MacAddr) (now : Tick) :
    Safe (Inv cfg all) (fun s d m ↦ m = ids (NeighborTable.drained d) ∧
        ∀ x ∈ NeighborTable.drained d, s.evidence.Held cfg side x.data)
      (onArp side ip mac now) s₀ 0 := by
  refine safe_call fun s r _ hI ↦ ?_
  have hwaiting := (s.neighbors side).waiting_onArp ip mac now
  have hall := hI.facts.waiting side
  rw [hwaiting] at hall
  have hheld : ((s.neighbors side).onArp ip mac now).1.waiting.map (·.id) +
      ids (NeighborTable.drained ((s.neighbors side).onArp ip mac now).2) =
      (s.neighbors side).waiting.map (·.id) + 0 := by
    rw [add_zero, hwaiting, Multiset.map_add]
    rfl
  obtain ⟨hle, hI'⟩ := hI.setNeighbors side hheld rfl (fun _ ↦ rfl) fun x hx ↦
    hall x (Multiset.mem_add.2 (Or.inl hx))
  refine ⟨hle, _, hI', rfl, fun x hx ↦ ?_⟩
  exact (hall x (Multiset.mem_add.2 (Or.inr hx))).mono hle.1

/-- What `resolve` leaves with the caller. -/
def Resolved (cfg : DatapathConfig) (side : Segment) (packet : Mbuf) :
    Action Mbuf → Multiset MbufId → Prop
  | .forward _ p, m => p = packet ∧ m = {packet.id}
  | .drop p, m => p = packet ∧ m = {packet.id}
  | .queued request, m => (∀ b ∈ request, cfg.Request side b) ∧ m = 0

/-- A request in the name of one of the tables. -/
theorem Facts.request {e : Evidence} (h : Facts cfg e s) {side : Segment} {target : Ipv4Addr}
    {b : Bytes} (hb : ArpPacket.buildRequest ArpPacket.frameLen (s.neighbors side).ourMac
      (s.neighbors side).ourIp target = some b) : cfg.Request side b := by
  cases side with
  | lan =>
    rw [h.lanIdentity.1, h.lanIdentity.2] at hb
    exact ⟨target, hb⟩
  | wan =>
    rw [h.wanIdentity] at hb
    exact ⟨_, target, hb⟩

theorem safe_resolve (side : Segment) (target : Ipv4Addr) (packet : Mbuf) (now : Tick)
    (hheld : s₀.evidence.Held cfg side packet.data) :
    Safe (Inv cfg all) (fun _ ↦ Resolved cfg side packet) (resolve side target packet now) s₀
      {packet.id} := by
  refine safe_call fun s r hs hI ↦ ?_
  have hwaiting := (s.neighbors side).waiting_resolve target packet ArpPacket.frameLen now
  have hpackets := (s.neighbors side).packets_resolve target packet ArpPacket.frameLen now
  obtain ⟨hmac, hip⟩ := (s.neighbors side).identity_resolve target packet ArpPacket.frameLen now
  have hmap : ((s.neighbors side).resolve target packet ArpPacket.frameLen now).1.waiting.map
      (·.id) + ids ((s.neighbors side).resolve target packet ArpPacket.frameLen now).2.packets =
      (s.neighbors side).waiting.map (·.id) + {packet.id} := by
    have hmap := congrArg (Multiset.map (·.id)) hwaiting
    rw [Multiset.map_add, Multiset.map_add, Multiset.map_singleton] at hmap
    exact hmap.symm
  -- whatever waits was waiting, or is the packet
  have hwaits : ∀ x ∈ ((s.neighbors side).resolve target packet ArpPacket.frameLen now).1.waiting,
      s.evidence.Held cfg side x.data := by
    intro x hx
    have hmem : x ∈ (s.neighbors side).waiting + {packet} := by
      rw [hwaiting]
      exact Multiset.mem_add.2 (Or.inl hx)
    rcases Multiset.mem_add.1 hmem with hold | hnew
    · exact hI.facts.waiting side x hold
    · rw [Multiset.mem_singleton.1 hnew]
      exact hheld.mono hs.1
  obtain ⟨hle, hI'⟩ := hI.setNeighbors side hmap hmac (fun _ ↦ hip) hwaits
  refine ⟨hle, _, hI', ?_⟩
  show Resolved cfg side packet ((s.neighbors side).resolve target packet _ now).2 _
  rcases ha : ((s.neighbors side).resolve target packet ArpPacket.frameLen now).2 with
    ⟨mac, p⟩ | request | p
  · rw [ha] at hpackets
    obtain rfl := hpackets p (by simp [Action.packets])
    exact ⟨rfl, rfl⟩
  · exact ⟨fun b hb ↦ hI.facts.request (NeighborTable.request_of_resolve ha hb), rfl⟩
  · rw [ha] at hpackets
    obtain rfl := hpackets p (by simp [Action.packets])
    exact ⟨rfl, rfl⟩

theorem safe_sweepNeighbors (side : Segment) (now : Tick) :
    Safe (Inv cfg all) (fun _ out m ↦ m = ids out.2 ∧ ∀ b ∈ out.1, cfg.Request side b)
      (sweepNeighbors side now) s₀ 0 := by
  refine safe_call fun s r _ hI ↦ ?_
  have hwaiting := (s.neighbors side).waiting_sweep now
  have hmap : ((s.neighbors side).sweep now).1.waiting.map (·.id) +
      ids ((s.neighbors side).sweep now).2.2 = (s.neighbors side).waiting.map (·.id) + 0 := by
    rw [add_zero, hwaiting, Multiset.map_add]
    rfl
  have hwaits : ∀ x ∈ ((s.neighbors side).sweep now).1.waiting,
      s.evidence.Held cfg side x.data := by
    intro x hx
    refine hI.facts.waiting side x ?_
    rw [hwaiting]
    exact Multiset.mem_add.2 (Or.inl hx)
  obtain ⟨hle, hI'⟩ := hI.setNeighbors side hmap rfl (fun _ ↦ rfl) hwaits
  refine ⟨hle, _, hI', rfl, fun b hb ↦ ?_⟩
  obtain ⟨target, hrequest⟩ := NeighborTable.request_of_sweep hb
  exact hI.facts.request hrequest

end Datapath

end UserspaceRouter
