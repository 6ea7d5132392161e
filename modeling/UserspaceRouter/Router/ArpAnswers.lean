import UserspaceRouter.Router.Bridge
import UserspaceRouter.Router.DhcpServers
import UserspaceRouter.Router.Edits

/-!
# Who has the router's address

A host that wants to send to an address of the router asks for it, and has to be answered. The
router has an address on the LAN from the start, and its DHCP client gets it one on the WAN. Each
side has an ARP handler of its own. The handler of the LAN answers (`repliesOn_handleLanArp`); the
handler of the WAN learns what there is to learn, and never answers (`repliesOn_driveWan`).

**No other reply is sent.** An ARP frame also sets packets free that were waiting for its sender,
and these go out on the same port. They are no ARP replies, since all that waits is IPv4
(`waitsIpv4_run`): it came through the firewall, and writing the Ethernet addresses into it does not
make it anything else (`l3Type_setEthernet`).

**No request fails.** The handler of the LAN gives an address back to the pool, which is asserted to
be in bounds. It is, whatever has become of the pool (`exists_poolAfterArp`).
-/

namespace UserspaceRouter

open TransitionSystem

/-! ### What waits -/

/-- The addresses of a frame are no part of its type. -/
theorem l3Type_setEthernet (frame : Bytes) (src dst : MacAddr) :
    l3Type (setEthernet frame src dst) = l3Type frame := by
  unfold setEthernet
  split_ifs with hlen
  · have hlen' : 14 ≤ frame.length := hlen
    have hmac : ∀ m : MacAddr, m.octets.length = 6 := fun _ ↦ rfl
    have hw : 6 + src.octets.length ≤ frame.length := by
      rw [hmac]
      omega
    have hw' : 0 + dst.octets.length ≤ (writeAt frame 6 src.octets).length := by
      rw [hmac, length_writeAt hw]
      omega
    refine l3Type_congr fun i hi _ ↦ ?_
    rw [byteAt_writeAt hw', if_neg (by rw [hmac]; omega), byteAt_writeAt hw,
      if_neg (by rw [hmac]; omega)]
  · rfl

/-- IPv4 is not ARP. -/
theorem parseArp_of_ipv4 {frame : Bytes} (h : l3Type frame = Ethertype.ipv4) :
    parseArp frame = none := by
  rcases harp : parseArp frame with - | ⟨header, arp⟩
  · rfl
  · obtain ⟨eth, hparse, his, -⟩ := App.parse_of_parseArp harp
    have htype : eth.ethertype = Ethertype.arp := eq_of_beq his
    rw [ethertype_of_parse hparse, h] at htype
    exact absurd htype (by decide)

namespace NeighborTable

/-- All packets that wait are IPv4. -/
def WaitsIpv4 (t : NeighborTable Bytes) : Prop :=
  ∀ ip, ∀ q ∈ t.queued ip, l3Type q = Ethertype.ipv4

theorem waitsIpv4_new (ourMac : MacAddr) (ourIp : Ipv4Addr) : (new ourMac ourIp).WaitsIpv4 :=
  fun _ _ hq ↦ absurd hq List.not_mem_nil

namespace WaitsIpv4

variable {t : NeighborTable Bytes}

/-- What waits after a call was waiting before it, or entered with it. -/
theorem call (h : t.WaitsIpv4) {c : NeighborCall Bytes} (hc : c.GivesIpv4) :
    (t.call c).1.WaitsIpv4 := by
  intro ip q hq
  have hlaw : q ∈ t.queued ip ++ entered ip (c, (t.call c).2, t.handedOut c) := by
    rw [queued_call]
    exact List.mem_append_right _ hq
  rcases List.mem_append.1 hlaw with hold | hnew
  · exact h ip q hold
  · cases c with
    | resolve target packet reqLen now =>
      unfold entered at hnew
      split at hnew
      · rename_i hcall _
        split_ifs at hnew
        · rw [List.mem_singleton.1 hnew]
          cases hcall
          exact hc
        · exact absurd hnew List.not_mem_nil
      · exact absurd hnew List.not_mem_nil
    | onArp ip' mac now => exact absurd hnew List.not_mem_nil
    | insert ip' mac now => exact absurd hnew List.not_mem_nil
    | sweep now => exact absurd hnew List.not_mem_nil
    | setOurIp ip' => exact absurd hnew List.not_mem_nil

/-- What an address sets free is IPv4. -/
theorem drained_learnIf (h : t.WaitsIpv4) {c : Bool} {ip : Ipv4Addr} {mac : MacAddr} {now : Tick}
    {d : MacAddr × List Bytes} (hd : d ∈ (t.learnIf c ip mac now).2) :
    ∀ q ∈ d.2, l3Type q = Ethertype.ipv4 := by
  unfold learnIf at hd
  split_ifs at hd
  · obtain ⟨packets, hout, hr⟩ := accounts_call t (.onArp ip mac now)
    obtain rfl : t.queued ip = packets := by
      simpa [handedOut] using hout
    have hr' : (t.onArp ip mac now).2 = if (t.queued ip).isEmpty then none
        else some (mac, t.queued ip) := NeighborReturn.drained.inj hr
    rw [hr'] at hd
    split_ifs at hd
    · exact absurd hd (by simp)
    · obtain rfl : d = (mac, t.queued ip) := by simpa using hd
      exact h ip
  · exact absurd hd List.not_mem_nil

theorem learnIf (h : t.WaitsIpv4) (c : Bool) (ip : Ipv4Addr) (mac : MacAddr) (now : Tick) :
    (t.learnIf c ip mac now).1.WaitsIpv4 := by
  unfold NeighborTable.learnIf
  split_ifs
  · exact h.call (c := .onArp ip mac now) trivial
  · exact h

/-- What an ARP packet sets free is IPv4. -/
theorem drained_learn (h : t.WaitsIpv4) {sender : Bool} {arp : ArpPacket} {now : Tick}
    {d : MacAddr × List Bytes} (hd : d ∈ (t.learn sender arp now).2) :
    ∀ q ∈ d.2, l3Type q = Ethertype.ipv4 := by
  rcases List.mem_append.1 hd with hd | hd
  · exact h.drained_learnIf hd
  · exact (h.learnIf _ _ _ _).drained_learnIf hd

end WaitsIpv4

end NeighborTable

namespace App

/-- All packets that wait, on either side, are IPv4. -/
def WaitsIpv4 (s : App) : Prop := s.ports.lan.neighbors.WaitsIpv4 ∧ s.ports.wan.WaitsIpv4

variable {cfg : AppConfig}

theorem Edits.waitsIpv4 {s t : App} (h : Edits s t) (hs : s.WaitsIpv4) : t.WaitsIpv4 := by
  refine h.keeps (fun u v huv hu ↦ ?_) hs
  cases huv with
  | fdb fdb => exact hu
  | firewall firewall => exact hu
  | client client bound => exact hu
  | dhcp dhcp => exact hu
  | lanCall hc => exact ⟨hu.1.call hc, hu.2⟩
  | wanCall hc => exact ⟨hu.1, hu.2.call hc⟩

/-- **In every run, all packets that wait are IPv4.** -/
theorem waitsIpv4_run {dhcp : DhcpState} {nat : NatTable} {xid : UInt32}
    {tr : List (Event cfg × List Transmission)} {s : App}
    (h : (system cfg).Run (boot cfg dhcp nat xid) tr s) : s.WaitsIpv4 := by
  refine h.invariant (I := WaitsIpv4) ?_ ?_
  · exact ⟨NeighborTable.waitsIpv4_new _ _, NeighborTable.waitsIpv4_new _ _⟩
  · rintro s ⟨e, out⟩ t hs hst
    rcases edits_step hst with hedits | ⟨now, u, -, hedits, heq⟩
    · exact hedits.waitsIpv4 hs
    · rw [heq]
      exact hedits.waitsIpv4 hs

/-! ### Replies -/

/-- The ARP reply in a payload. DHCP messages are UDP. -/
def arpReply : Payload → Option (EthernetHeader × ArpPacket)
  | .frame bytes => (parseArp bytes).filter (·.2.isReply)
  | .dhcpReply _ | .dhcpMessage _ => none

/-- The ARP replies that are sent on a port. -/
def repliesOn (port : PortId) (out : List Transmission) : List (EthernetHeader × ArpPacket) :=
  out.filterMap fun x ↦ if x.1 = port then arpReply x.2 else none

theorem repliesOn_append (port : PortId) (out out' : List Transmission) :
    repliesOn port (out ++ out') = repliesOn port out ++ repliesOn port out' :=
  List.filterMap_append

/-- Packets that were waiting are no replies. -/
theorem repliesOn_transmitDrained {drained : List (MacAddr × List Bytes)}
    (h : ∀ d ∈ drained, ∀ q ∈ d.2, l3Type q = Ethertype.ipv4) (port : PortInfo) (p : PortId) :
    repliesOn p (port.transmitDrained drained) = [] := by
  refine List.filterMap_eq_nil_iff.2 fun x hx ↦ ?_
  obtain ⟨d, hd, hx⟩ := List.mem_flatMap.1 hx
  obtain ⟨q, hq, rfl⟩ := List.mem_map.1 hx
  have hnone : parseArp (setEthernet q port.etherAddr d.1) = none :=
    parseArp_of_ipv4 ((l3Type_setEthernet _ _ _).trans (h d hd q hq))
  simp [arpReply, hnone]

/-- Exactly one ARP reply is sent on the port. It is addressed to the host that asked, and says that
the address asked for is at `mac`. -/
def Answered (port : PortId) (mac : MacAddr) (req : ArpPacket) (out : List Transmission) : Prop :=
  ∃ header reply, repliesOn port out = [(header, reply)] ∧ header.dst = req.sha ∧
    reply.senderIp = req.targetIp ∧ reply.sha = mac ∧
    reply.targetIp = req.senderIp ∧ reply.tha = req.sha

/-! ### Requests for an address of the router -/

/-- An Ethernet/IPv4 ARP request. -/
def IsWellFormedRequest (a : ArpPacket) : Prop :=
  a.htype = 1 ∧ a.ptype = 0x0800 ∧ a.hlen = 6 ∧ a.plen = 4 ∧ a.oper = ArpPacket.request

/-- The event brings a request for an address that the router has on that side: on a LAN port the
address of the server, and on the WAN port the one the DHCP client is bound to. With it, the port it
is received on and the MAC the router has there. -/
inductive Asks (cfg : AppConfig) (s : App) : Event cfg → PortId → MacAddr → ArpPacket → Prop
  | lan {port : {p // p ∈ cfg.lan}} {frame : Bytes} {now : Tick} {header : EthernetHeader}
      {req : ArpPacket} (hparse : parseArp frame = some (header, req))
      (hreq : IsWellFormedRequest req) (htarget : req.targetIp = cfg.router.serverIp) :
      Asks cfg s (.lanFrame port frame now) port.1.portId cfg.router.serverMac req
  | wan {frame : Bytes} {now : Tick} {header : EthernetHeader} {req : ArpPacket}
      (hparse : parseArp frame = some (header, req)) (hreq : IsWellFormedRequest req)
      (htarget : s.client.boundIp = some req.targetIp) :
      Asks cfg s (.wanFrame frame now) cfg.wan.portId cfg.wan.etherAddr req

/-- Reserving an address leaves the bounds of the pool alone. -/
theorem bounds_reserve (pool : AddressPool) (addr : Ipv4Addr) :
    (pool.reserve addr).1.start = pool.start ∧ (pool.reserve addr).1.end_ = pool.end_ := by
  unfold AddressPool.reserve
  dsimp only
  split_ifs <;> exact ⟨rfl, rfl⟩

/-- The address given back to the pool is in bounds. -/
theorem exists_poolAfterArp (s : LanState Bytes) (arp : ArpPacket) :
    ∃ pool, s.poolAfterArp arp = some pool := by
  unfold LanState.poolAfterArp
  rcases hold : s.staleIp arp with - | oldIp
  · exact ⟨_, rfl⟩
  · obtain ⟨-, hcond⟩ := Option.filter_eq_some_iff.1 hold
    obtain ⟨-, hstart, hend⟩ := of_decide_eq_true hcond
    obtain ⟨hstart', hend'⟩ := bounds_reserve s.dhcp.pool arp.senderIp
    refine ⟨_, if_pos ⟨?_, ?_⟩⟩
    · rwa [hstart']
    · rwa [hend']

/-- **The handler of the LAN answers.** -/
theorem repliesOn_handleLanArp {s : App} (h : s.WaitsIpv4) (port : PortInfo) {frame : Bytes}
    {header : EthernetHeader} {req : ArpPacket} (hparse : parseArp frame = some (header, req))
    (hreq : req.oper = ArpPacket.request) (htarget : req.targetIp = cfg.router.serverIp)
    (now : Tick) :
    ∃ t out, s.handleLanArp cfg port frame now = some (t, out) ∧ repliesOn port.portId out =
      [(⟨req.sha, cfg.router.serverMac, Ethertype.arp⟩, .mk' ArpPacket.reply cfg.router.serverMac
        cfg.router.serverIp req.sha req.senderIp)] := by
  obtain ⟨pool, hpool⟩ := exists_poolAfterArp s.ports.lan req
  have hisreq : req.isRequest = true := beq_iff_eq.2 hreq
  have hlan : s.ports.lan.handleLanArp cfg.router frame now = some
      (⟨{ s.ports.lan.dhcp with pool }, (s.ports.lan.neighbors.learn true req now).1⟩,
        ⟨(s.ports.lan.neighbors.learn true req now).2, false,
          some (ArpPacket.frame req.sha cfg.router.serverMac (.mk' ArpPacket.reply
            cfg.router.serverMac cfg.router.serverIp req.sha req.senderIp))⟩) := by
    simp only [LanState.handleLanArp, hparse, hpool, htarget, hisreq, ne_eq, not_true_eq_false,
      false_and, if_false, and_self, if_true]
    rfl
  refine ⟨_, _, by rw [handleLanArp, hlan]; rfl, ?_⟩
  have hdrained : repliesOn port.portId
      (port.transmitDrained (s.ports.lan.neighbors.learn true req now).2) = [] :=
    repliesOn_transmitDrained (fun d hd ↦ h.1.drained_learn hd) port port.portId
  have hread := parseArp_frame req.sha cfg.router.serverMac (.mk' ArpPacket.reply
    cfg.router.serverMac cfg.router.serverIp req.sha req.senderIp) []
  rw [List.append_nil] at hread
  show repliesOn port.portId (_ ++ [] ++ [_]) = _
  rw [List.append_nil, repliesOn_append, hdrained, List.nil_append]
  simp only [repliesOn, List.filterMap_cons, List.filterMap_nil, if_true, arpReply, hread]
  rfl

/-- **The handler of the WAN does not answer.** -/
theorem repliesOn_driveWan {s : App} (h : s.WaitsIpv4) {frame : Bytes} {header : EthernetHeader}
    {arp : ArpPacket} (hparse : parseArp frame = some (header, arp)) (now : Tick) (p : PortId) :
    repliesOn p (s.driveWan cfg frame now).2 = [] := by
  obtain ⟨eth, heth, harp, -⟩ := parse_of_parseArp hparse
  have hout : (s.driveWan cfg frame now).2 = cfg.wan.transmitDrained
      (s.ports.wan.learn (arp.senderIp != Ipv4Addr.unspecified) arp now).2 := by
    simp only [driveWan, heth, if_pos harp, handleWanArp, hparse]
    rfl
  rw [hout]
  exact repliesOn_transmitDrained (fun d hd ↦ h.2.drained_learn hd) _ _

/-- **A request for an address of the router is answered exactly if it is received on a LAN port**,
in every run of the router from start-up. -/
theorem asked_answered_iff_lan {dhcp : DhcpState} {nat : NatTable} {xid : UInt32}
    {tr : List (Event cfg × List Transmission)} {s : App}
    (hrun : (system cfg).Run (boot cfg dhcp nat xid) tr s) {e : Event cfg} {port : PortId}
    {mac : MacAddr} {req : ArpPacket} (hasks : Asks cfg s e port mac req) :
    ∃ t out, (system cfg).step s (e, out) t ∧ (Answered port mac req out ↔ port ∈ cfg.lanIds) := by
  have hwaits := waitsIpv4_run hrun
  cases hasks with
  | @lan p frame now header _ hparse hreq htarget =>
    obtain ⟨eth, heth, harp, -⟩ := parse_of_parseArp hparse
    have hwaits' : (s.learn eth.header.src p.1.portId).WaitsIpv4 := hwaits
    obtain ⟨t, out, hhandle, hreplies⟩ :=
      repliesOn_handleLanArp hwaits' p.1 hparse hreq.2.2.2.2 htarget now
    refine ⟨t, out, ?_, iff_of_true ⟨_, _, hreplies, rfl, htarget.symm, rfl, rfl, rfl⟩ ?_⟩
    · show s.driveLan cfg p.1 frame now = some (t, out)
      simp only [driveLan, heth, if_pos harp]
      exact hhandle
    · exact List.mem_map_of_mem p.2
  | @wan frame now header _ hparse hreq htarget =>
    refine ⟨(s.driveWan cfg frame now).1, (s.driveWan cfg frame now).2, rfl,
      iff_of_false ?_ cfg.wan_notMem⟩
    rintro ⟨header', reply, hreplies, -⟩
    rw [repliesOn_driveWan hwaits hparse] at hreplies
    exact absurd hreplies (by simp)

/-- A host on port 1 asks for the address of the server right after start-up. -/
theorem asked_answered_lan_port :
    ∃ t out, (system sampleConfig).step sampleBoot
        (.lanFrame samplePort₁ (Ports.sampleArp 3 0x0a000005 0x0a0000fe) 0, out) t ∧
      Answered 1 (sampleMac 0xfe)
        (.mk' ArpPacket.request (sampleMac 3) 0x0a000005 .zero 0x0a0000fe) out := by
  have hparse : parseArp (Ports.sampleArp 3 0x0a000005 0x0a0000fe) =
      some (⟨.broadcast, sampleMac 3, Ethertype.arp⟩,
        .mk' ArpPacket.request (sampleMac 3) 0x0a000005 .zero 0x0a0000fe) := by decide +kernel
  have hasks : Asks sampleConfig sampleBoot
      (.lanFrame samplePort₁ (Ports.sampleArp 3 0x0a000005 0x0a0000fe) 0) 1 (sampleMac 0xfe)
      (.mk' ArpPacket.request (sampleMac 3) 0x0a000005 .zero 0x0a0000fe) :=
    .lan hparse ⟨rfl, rfl, rfl, rfl, rfl⟩ rfl
  obtain ⟨t, out, hst, hiff⟩ := asked_answered_iff_lan (.nil : (system sampleConfig).Run
    (boot sampleConfig Ports.sampleDhcp ⟨0, 40000, 40010, 40000, ∅, ∅⟩ 1) [] _) hasks
  exact ⟨t, out, hst, hiff.2 (by decide)⟩

/-- The upstream server leases `203.0.113.5` to the WAN port. -/
def sampleUpstream (kind : MessageType) : Bytes :=
  ((DhcpState.sampleConfig.buildReply ⟨kind, 1, 0xcb007105, sampleMac 0xf0, false⟩
    (List.replicate 600 0)).map fun p ↦ p.1.take p.2).getD []

/-- The DHCP client goes through an exchange with the upstream server, and the router acts on the
address it got. -/
def sampleBinding : List (Event sampleConfig) :=
  [.client, .wanFrame (sampleUpstream .offer) 1, .client, .wanFrame (sampleUpstream .ack) 2,
    .client]

/-- A host upstream asks for the address that the WAN port was leased, and nothing is sent. -/
theorem asked_unanswered_wan_port :
    ∃ tr s t out, (system sampleConfig).Run sampleBoot tr s ∧
      (system sampleConfig).step s
        (.wanFrame (Ports.sampleArp 9 0xcb007101 0xcb007105) 3, out) t ∧
      Asks sampleConfig s (.wanFrame (Ports.sampleArp 9 0xcb007101 0xcb007105) 3) 0
        (sampleMac 0xf0) (.mk' ArpPacket.request (sampleMac 9) 0xcb007101 .zero 0xcb007105) ∧
      out = [] ∧ ¬Answered 0 (sampleMac 0xf0)
        (.mk' ArpPacket.request (sampleMac 9) 0xcb007101 .zero 0xcb007105) out := by
  have hcalls : (calls (step sampleConfig) sampleBoot sampleBinding).map (fun r ↦
      (r.2.client.boundIp, (r.2.driveWan sampleConfig
        (Ports.sampleArp 9 0xcb007101 0xcb007105) 3).2)) = some (some 0xcb007105, []) := by
    decide +kernel
  obtain ⟨⟨tr, s⟩, hsome, hend⟩ := Option.map_eq_some_iff.1 hcalls
  obtain ⟨hbound, hout⟩ := Prod.mk.inj hend
  have hparse : parseArp (Ports.sampleArp 9 0xcb007101 0xcb007105) =
      some (⟨.broadcast, sampleMac 9, Ethertype.arp⟩,
        .mk' ArpPacket.request (sampleMac 9) 0xcb007101 .zero 0xcb007105) := by decide +kernel
  refine ⟨tr, s, (s.driveWan sampleConfig (Ports.sampleArp 9 0xcb007101 0xcb007105) 3).1, [],
    run_of_calls hsome, congrArg some (Prod.ext rfl hout),
    .wan hparse ⟨rfl, rfl, rfl, rfl, rfl⟩ hbound, rfl, ?_⟩
  rintro ⟨header, reply, hreplies, -⟩
  exact absurd hreplies (by simp [repliesOn])

end App

end UserspaceRouter
