import UserspaceRouter.Router.FlowLife
import UserspaceRouter.Router.NatLimits
import UserspaceRouter.Router.WanAddress

/-!
# A TCP connection through the router

The way of a packet through the router, from port to port, and the way of the answers. A packet that
a LAN host sends through the router leaves on the WAN port, once, under the address of the router
and a port that is the host's from then on. Whatever the router does in the meantime, an answer to
that address and port goes to the host, on the port behind which the host was last seen, as long as
the flow is tracked, and nowhere once it is not (`tcp_goes_both_ways`).

**What it rests on.** The address of the router does not change (`wanFace_run`), and the bindings of
the NAT stay (`Firewall.tables_run`): these are the two halves of what the peer answers to. The
frames are `Translated` either way, so all bytes but the endpoint and the checksums are those that
were sent, and checksums that were correct are correct.

**What is assumed** is what a router cannot do without: it has an address, a gateway and a port to
give, and it knows the MACs of the gateway and of the host. A packet for which a MAC is not known
waits for it in the neighbor table.
-/

namespace UserspaceRouter

open TransitionSystem

/-! ### TCP frames -/

/-- A TCP frame is handled as IPv4, and not as DHCP. -/
theorem handledAs_of_parseTcpTuple {frame : Bytes} {tup : TcpTuple}
    (h : parseTcpTuple frame = some tup) :
    ∃ eth, parse frame = some eth ∧ eth.isArp = false ∧ eth.isIpv4 = true ∧
      parseDhcp frame = none := by
  simp only [parseTcpTuple, Option.bind_eq_bind, Option.bind_eq_some_iff] at h
  obtain ⟨eth, heth, ip, hip, tcp, htcp, -⟩ := h
  have hipv4 : eth.isIpv4 = true := by
    unfold EthernetView.ipv4 at hip
    split_ifs at hip with his
    exact his
  have hproto : ip.protocol = Proto.tcp := by
    unfold Ipv4View.tcp Ipv4View.isTcp at htcp
    split_ifs at htcp with his
    exact eq_of_beq his
  refine ⟨eth, heth, ?_, hipv4, ?_⟩
  · rw [EthernetView.isArp, eq_of_beq hipv4]
    rfl
  · have hudp : ip.udp = none := by
      rw [Ipv4View.udp, Ipv4View.isUdp, hproto]
      rfl
    simp only [parseDhcp, heth, hip, hudp, Option.bind_eq_bind, Option.bind_some, Option.bind_none]

namespace ConnTrack

/-- A flow is tracked after its opening packet, whatever was known of it before. -/
theorem mem_observeEgress_of_isOpening {c : ConnTrack} (hinv : c.Inv) (k : FlowKey) {flags : UInt8}
    (h : TcpFlag.isOpening flags = true) (now : Tick) :
    k ∈ (c.observeEgress k flags now).1.flows := by
  obtain ⟨⟨hsyn, hack⟩, hrst⟩ : (TcpFlag.isSet flags TcpFlag.syn = true ∧
      TcpFlag.isSet flags TcpFlag.ack = false) ∧ TcpFlag.isSet flags TcpFlag.rst = false := by
    simpa [TcpFlag.isOpening] using h
  rw [← AList.lookup_isSome, Option.isSome_iff_ne_none]
  intro hgone
  rcases hk : c.flows.lookup k with - | conn
  · rw [lookup_observeEgress, hk] at hgone
    have hclosed := Conn.fullyClosed_iff.2 (Conn.reap_eq_none_iff.1 hgone)
    rw [Conn.afterEgress_none_fullyClosed_iff, h] at hclosed
    cases hclosed
  · have hends : Ends k conn (.observeEgress k flags now) :=
      ends_of_lookup_step_eq_none hinv hk hgone
    obtain ⟨-, hrst' | ⟨hack', -⟩⟩ := hends
    · rw [hrst] at hrst'
      cases hrst'
    · rw [hack] at hack'
      cases hack'

end ConnTrack

/-! ### The two ways through the firewall -/

namespace Firewall

variable {f g : Firewall}

/-- What a call does to the flow table is one of the table's own operations, or nothing. -/
theorem inv_conntrack_call (h : f.conntrack.Inv) (c : Call) : (f.call c).1.conntrack.Inv := by
  cases c with
  | lanEgressNat frame now =>
    show (f.lanEgressNat frame now).1.conntrack.Inv
    rcases lanEgressNat_cases f frame now with ⟨heq, -⟩ | ⟨tup, -, heq⟩ |
      ⟨tup, gw, frame', x, -, -, heq⟩ <;> rw [heq]
    · exact h
    · exact ConnTrack.inv_step h _
    · exact ConnTrack.inv_step h _
  | wanIngressNat frame now =>
    show (f.wanIngressNat frame now).1.conntrack.Inv
    unfold wanIngressNat
    rcases parseTcpTuple frame with - | tup
    · exact h
    rcases translateIngress frame f.nat with ⟨frame', - | x⟩
    · exact h
    · exact ConnTrack.inv_step h (.checkIngress (tup.ingressKey x) tup.flags now)
  | sweep now => exact ConnTrack.inv_step h (.sweep now)
  | setWanIp ip => exact h
  | setGateway ip => exact h

/-- Both tables keep their invariants, and the NAT its bindings. -/
theorem tables_run {tr : List (Call × Option (Ipv4Addr × Bytes))} (hrun : callSystem.Run f tr g)
    (hnat : f.nat.Inv) (hct : f.conntrack.Inv) :
    g.nat.Inv ∧ f.nat.Extends g.nat ∧ g.conntrack.Inv := by
  refine hrun.invariant (I := fun g ↦ g.nat.Inv ∧ f.nat.Extends g.nat ∧ g.conntrack.Inv)
    ⟨hnat, .refl _, hct⟩ ?_
  rintro g ⟨c, out⟩ g' ⟨hinv, hext, hct⟩ hst
  obtain ⟨rfl, -⟩ := eq_of_step_call hst
  obtain ⟨hinv', hext'⟩ := nat_call hinv c
  exact ⟨hinv', hext.trans hext', inv_conntrack_call hct c⟩

/-- **The way out.** With an address, a gateway and a port to give, a TCP packet is recorded and
translated. -/
theorem lanEgressNat_eq_some (hinv : f.nat.Inv) (hgw : f.gateway ≠ 0)
    (hwan : f.nat.wanIp ≠ Ipv4Addr.unspecified) {frame : Bytes} {tup : TcpTuple}
    (htup : parseTcpTuple frame = some tup)
    (hport : (f.nat.egress .tcp tup.srcIp tup.srcPort).2 ≠ none) (now : Tick) :
    ∃ c ext, classify .src frame = some c ∧
      (f.nat.egress .tcp tup.srcIp tup.srcPort).1.fwd.lookup (Proto.tcp, tup.srcIp, tup.srcPort) =
        some ext ∧
      f.lanEgressNat frame now =
        (⟨(f.conntrack.observeEgress tup.egressKey tup.flags now).1,
            (f.nat.egress .tcp tup.srcIp tup.srcPort).1, f.gateway⟩,
          some (f.gateway, rewrite .src c f.nat.wanIp ext frame)) := by
  obtain ⟨x, hx⟩ := Option.ne_none_iff_exists'.1 hport
  have hsnd := translateEgress_snd htup f.nat
  obtain ⟨c, hc, -, heq⟩ := translateEgress_eq_some (x := x) (by rw [hsnd, hx])
  obtain ⟨hbound, hip⟩ := NatTable.lookup_of_egress_eq_some hinv hx
  refine ⟨c, x.newSrcPort, hc, hbound, ?_⟩
  have hgateway : f.gatewayIp = some f.gateway := if_neg hgw
  have hframe : (translateEgress frame f.nat).1 =
      rewrite .src c f.nat.wanIp x.newSrcPort frame := by
    rw [heq, hip]
  simp only [lanEgressNat, hgateway, if_neg hwan, htup, hframe, hsnd, hx, Option.map_some]

/-- **The way in.** A TCP packet to a port that is bound is translated to the endpoint that has it,
and passed on if its flow is tracked. -/
theorem wanIngressNat_snd (hinv : f.nat.Inv) (hct : f.conntrack.Inv) {frame : Bytes}
    {tup : TcpTuple} (htup : parseTcpTuple frame = some tup) {ip : Ipv4Addr} {port : UInt16}
    (hbound : f.nat.fwd.lookup (Proto.tcp, ip, port) = some tup.dstPort) (now : Tick) :
    ∃ c, classify .dst frame = some c ∧
      ((⟨ip, port, tup.srcIp, tup.srcPort⟩ : FlowKey) ∈ f.conntrack.flows →
        (f.wanIngressNat frame now).2 = some (ip, rewrite .dst c ip port frame)) ∧
      ((⟨ip, port, tup.srcIp, tup.srcPort⟩ : FlowKey) ∉ f.conntrack.flows →
        (f.wanIngressNat frame now).2 = none) := by
  obtain ⟨c, hc, hl4, hend⟩ := exists_classify_of_parseTcpTuple htup .dst
  have hport : c.port = tup.dstPort := congrArg Endpoint.port hend
  have hin : f.nat.ingress c.l4 c.port = some (ip, port) := by
    rw [hl4, hport]
    exact hinv.ingress_eq_some_iff.2 hbound
  have hcheck := ConnTrack.checkIngress_eq_true_iff hct ⟨ip, port, tup.srcIp, tup.srcPort⟩
    tup.flags now
  have hout : (f.wanIngressNat frame now).2 =
      if (f.conntrack.checkIngress ⟨ip, port, tup.srcIp, tup.srcPort⟩ tup.flags now).2 then
        some (ip, rewrite .dst c ip port frame) else none := by
    simp only [wanIngressNat, htup, translateIngress, hc, hin]
    rfl
  refine ⟨c, hc, fun hmem ↦ ?_, fun hmem ↦ ?_⟩
  · rw [hout, if_pos (hcheck.2 hmem)]
  · rw [hout, if_neg (fun hadmit ↦ hmem (hcheck.1 hadmit))]

end Firewall

namespace NeighborTable

/-- A packet for a known target goes out at once. -/
theorem resolve_of_lookup {P : Type*} {t : NeighborTable P} {target : Ipv4Addr} {mac : MacAddr}
    (h : t.lookup target = some mac) (packet : P) (reqLen : ℕ) (now : Tick) :
    t.resolve target packet reqLen now = (t, .forward mac packet) := by
  obtain ⟨e, he, rfl⟩ := Option.map_eq_some_iff.1 h
  simp only [resolve, he]

end NeighborTable

/-! ### The two ways through the router -/

namespace App

variable {cfg : AppConfig} {s t : App}

/-- The router can send a TCP packet of a LAN host to its gateway. -/
structure CanSend (cfg : AppConfig) (s : App) (frame : Bytes) (tup : TcpTuple) (mac : MacAddr) :
    Prop where
  /-- The host sends it to the router. -/
  dst : (parse frame).map (·.header.dst) = some cfg.router.serverMac
  tuple : parseTcpTuple frame = some tup
  bound : s.bound ≠ 0
  gateway : s.firewall.gateway ≠ 0
  gatewayMac : s.ports.wan.lookup s.firewall.gateway = some mac
  /-- The host's endpoint has a port, or there is one left. -/
  port : (Proto.tcp, tup.srcIp, tup.srcPort) ∈ s.firewall.nat.fwd ∨
    s.firewall.nat.bindingCount .tcp ≠
      s.firewall.nat.portHi.toNat - s.firewall.nat.portLo.toNat + 1

instance (s : App) (frame : Bytes) (tup : TcpTuple) (mac : MacAddr) :
    Decidable (CanSend cfg s frame tup mac) :=
  decidable_of_iff ((parse frame).map (·.header.dst) = some cfg.router.serverMac ∧
      parseTcpTuple frame = some tup ∧ s.bound ≠ 0 ∧ s.firewall.gateway ≠ 0 ∧
      s.ports.wan.lookup s.firewall.gateway = some mac ∧
      ((Proto.tcp, tup.srcIp, tup.srcPort) ∈ s.firewall.nat.fwd ∨
        s.firewall.nat.bindingCount .tcp ≠
          s.firewall.nat.portHi.toNat - s.firewall.nat.portLo.toNat + 1))
    ⟨fun ⟨h₁, h₂, h₃, h₄, h₅, h₆⟩ ↦ ⟨h₁, h₂, h₃, h₄, h₅, h₆⟩,
      fun ⟨h₁, h₂, h₃, h₄, h₅, h₆⟩ ↦ ⟨h₁, h₂, h₃, h₄, h₅, h₆⟩⟩

/-- The router knows how to reach a host: its MAC, and the LAN port behind which that was last
seen. The frame for it does not itself come from that MAC. -/
structure CanDeliver (cfg : AppConfig) (s : App) (frame : Bytes) (host : Ipv4Addr) (mac : MacAddr)
    (port : PortId) : Prop where
  hostMac : s.ports.lan.neighbors.lookup host = some mac
  seen : s.fdb.lookup mac = some port
  port_mem : port ∈ cfg.lanIds
  src_ne : (parse frame).map (·.header.src) ≠ some mac

instance (s : App) (frame : Bytes) (host : Ipv4Addr) (mac : MacAddr) (port : PortId) :
    Decidable (CanDeliver cfg s frame host mac port) :=
  decidable_of_iff (s.ports.lan.neighbors.lookup host = some mac ∧ s.fdb.lookup mac = some port ∧
      port ∈ cfg.lanIds ∧ (parse frame).map (·.header.src) ≠ some mac)
    ⟨fun ⟨h₁, h₂, h₃, h₄⟩ ↦ ⟨h₁, h₂, h₃, h₄⟩, fun ⟨h₁, h₂, h₃, h₄⟩ ↦ ⟨h₁, h₂, h₃, h₄⟩⟩

/-- What the firewall passes on to a gateway whose MAC is known. -/
theorem lanEgressNat_of_lookup (cfg : AppConfig) {frame packet : Bytes} {now : Tick}
    {firewall : Firewall} {gw : Ipv4Addr} {mac : MacAddr}
    (h : s.firewall.lanEgressNat frame now = (firewall, some (gw, packet)))
    (hmac : s.ports.wan.lookup gw = some mac) :
    s.lanEgressNat cfg frame now = ({ s with firewall },
      [(cfg.wan.portId, .frame (setEthernet packet cfg.wan.etherAddr mac))]) := by
  have hresolve := NeighborTable.resolve_of_lookup hmac packet ArpPacket.frameLen now
  simp only [lanEgressNat, h, hresolve]

/-- What the firewall passes on to a host that can be reached. -/
theorem wanIngressNat_of_lookup {frame packet : Bytes} {now : Tick} {firewall : Firewall}
    {host : Ipv4Addr} {mac : MacAddr} {port : PortId} {first : PortInfo}
    (h : s.firewall.wanIngressNat frame now = (firewall, some (host, packet)))
    (hfirst : cfg.lan.head? = some first) (hmac : s.ports.lan.neighbors.lookup host = some mac)
    (hseen : s.fdb.lookup mac = some port) (hport : port ∈ cfg.lanIds) :
    s.wanIngressNat cfg frame now = ({ s with firewall },
      [(port, .frame (setEthernet packet first.etherAddr mac))]) := by
  have hresolve := NeighborTable.resolve_of_lookup hmac packet ArpPacket.frameLen now
  rcases cfg.lanPortById_cases port with ⟨out, hout, rfl, -⟩ | ⟨-, hnot⟩
  · simp only [wanIngressNat, h, hfirst, hresolve, AppConfig.transmitToMacOrFloodExcept, hseen,
      hout]
    rfl
  · exact absurd hport hnot

/-- **The way out**, from port to port. -/
theorem step_of_canSend (hinv : s.firewall.nat.Inv) (hwan : s.firewall.nat.wanIp = s.bound)
    {frame : Bytes} {tup : TcpTuple} {mac : MacAddr} (h : CanSend cfg s frame tup mac)
    (p : {p // p ∈ cfg.lan}) (now : Tick) :
    ∃ t c ext, (system cfg).step s (.lanFrame p frame now,
        [(cfg.wan.portId, .frame (setEthernet (rewrite .src c s.bound ext frame)
          cfg.wan.etherAddr mac))]) t ∧
      classify .src frame = some c ∧
      t.firewall.nat.fwd.lookup (Proto.tcp, tup.srcIp, tup.srcPort) = some ext ∧
      t.firewall.conntrack =
        (s.firewall.conntrack.observeEgress tup.egressKey tup.flags now).1 := by
  obtain ⟨eth, heth, harp, hipv4, hdhcp⟩ := handledAs_of_parseTcpTuple h.tuple
  have hdst : eth.header.dst = cfg.router.serverMac := by
    have hdst := h.dst
    rw [heth] at hdst
    exact Option.some.inj hdst
  have hport : (s.firewall.nat.egress .tcp tup.srcIp tup.srcPort).2 ≠ none := by
    rw [Ne, hinv.egress_eq_none_iff, not_and_or, AList.lookup_eq_none, not_not]
    exact h.port
  have hne : s.firewall.nat.wanIp ≠ Ipv4Addr.unspecified := by
    rw [hwan]
    exact h.bound
  obtain ⟨c, ext, hc, hbound, hegress⟩ :=
    Firewall.lanEgressNat_eq_some hinv h.gateway hne h.tuple hport now
  rw [hwan] at hegress
  have hout := lanEgressNat_of_lookup cfg (s := s.learn eth.header.src p.1.portId) hegress
    h.gatewayMac
  have hstep : s.driveLan cfg p.1 frame now =
      some ((s.learn eth.header.src p.1.portId).lanEgressNat cfg frame now) := by
    simp only [driveLan, heth, harp, hipv4, handleLanIpv4, hdhcp, if_pos hdst]
    rfl
  rw [hout] at hstep
  exact ⟨_, c, ext, hstep, hc, hbound, rfl⟩

/-- **The way in**, from port to port. -/
theorem step_of_canDeliver (hinv : s.firewall.nat.Inv) (hct : s.firewall.conntrack.Inv)
    {frame : Bytes} {tup : TcpTuple} (htup : parseTcpTuple frame = some tup) {host : Ipv4Addr}
    {hostPort : UInt16}
    (hbound : s.firewall.nat.fwd.lookup (Proto.tcp, host, hostPort) = some tup.dstPort)
    {mac : MacAddr} {port : PortId} (h : CanDeliver cfg s frame host mac port) (now : Tick) :
    ∃ t out c first, (system cfg).step s (.wanFrame frame now, out) t ∧
      classify .dst frame = some c ∧ cfg.lan.head? = some first ∧
      ((⟨host, hostPort, tup.srcIp, tup.srcPort⟩ : FlowKey) ∈ s.firewall.conntrack.flows →
        out = [(port, .frame (setEthernet (rewrite .dst c host hostPort frame)
          first.etherAddr mac))]) ∧
      ((⟨host, hostPort, tup.srcIp, tup.srcPort⟩ : FlowKey) ∉ s.firewall.conntrack.flows →
        out = []) := by
  obtain ⟨eth, heth, harp, hipv4, hdhcp⟩ := handledAs_of_parseTcpTuple htup
  obtain ⟨first, hfirst⟩ : ∃ first, cfg.lan.head? = some first := by
    obtain ⟨p, hp, -⟩ := List.mem_map.1 h.port_mem
    exact Option.isSome_iff_exists.1 (List.isSome_head?.2 (List.ne_nil_of_mem hp))
  obtain ⟨c, hc, htracked, huntracked⟩ :=
    Firewall.wanIngressNat_snd hinv hct htup hbound now
  have hstep : s.driveWan cfg frame now =
      (s.learn eth.header.src cfg.wan.portId).wanIngressNat cfg frame now := by
    simp only [driveWan, heth, harp, hipv4, hdhcp]
    rfl
  -- the sender of the frame is learned, and it is not the host
  have hseen : (s.learn eth.header.src cfg.wan.portId).fdb.lookup mac = some port := by
    have hne : mac ≠ eth.header.src := by
      rintro rfl
      exact h.src_ne (by rw [heth]; rfl)
    rw [← h.seen]
    exact AList.lookup_insert_ne hne
  refine ⟨(s.driveWan cfg frame now).1, (s.driveWan cfg frame now).2, c, first, rfl, hc, hfirst,
    fun hmem ↦ ?_, fun hmem ↦ ?_⟩
  · have hpass : (s.learn eth.header.src cfg.wan.portId).firewall.wanIngressNat frame now =
        ((s.firewall.wanIngressNat frame now).1, some (host, rewrite .dst c host hostPort frame)) :=
      Prod.ext rfl (htracked hmem)
    rw [hstep, wanIngressNat_of_lookup hpass hfirst h.hostMac hseen h.port_mem]
  · have hdrop : (s.learn eth.header.src cfg.wan.portId).firewall.wanIngressNat frame now =
        ((s.firewall.wanIngressNat frame now).1, none) := Prod.ext rfl (huntracked hmem)
    rw [hstep]
    simp only [wanIngressNat, hdrop]

/-! ### There and back -/

/-- **TCP goes both ways.** In every state of a run from start-up, a TCP packet that a LAN host
sends through the router leaves on the WAN port, once, for the gateway, with the address of the
router and the external port that is bound to the host's endpoint in place of that. If it opens a
flow, the flow is tracked then. In every state that comes later, a TCP packet from the peer to that
address and port is sent once, on the port behind which the host was last seen, with the host's
endpoint in place of the router's, if the flow is tracked; if it is not, nothing is sent. -/
theorem tcp_goes_both_ways {dhcp : DhcpState} {nat : NatTable} {xid : UInt32} {lo hi : UInt16}
    (hnat : NatTable.new Ipv4Addr.unspecified lo hi = some nat)
    {tr : List (Event cfg × List Transmission)}
    (hrun : (system cfg).Run (boot cfg dhcp nat xid) tr s) {frame : Bytes} {tup : TcpTuple}
    {gwMac : MacAddr} (hsend : CanSend cfg s frame tup gwMac) (hlen : frame.length ≤ 65535)
    (p : {p // p ∈ cfg.lan}) (now : Tick) :
    ∃ t c ext frame', (system cfg).step s (.lanFrame p frame now,
        [(cfg.wan.portId, .frame (setEthernet frame' cfg.wan.etherAddr gwMac))]) t ∧
      classify .src frame = some c ∧ Translated .src c s.bound ext frame frame' ∧
      t.firewall.nat.fwd.lookup (Proto.tcp, tup.srcIp, tup.srcPort) = some ext ∧
      (TcpFlag.isOpening tup.flags = true → tup.egressKey ∈ t.firewall.conntrack.flows) ∧
      ∀ tr' u, (system cfg).Run t tr' u → ∀ answer flags mac port now',
        parseTcpTuple answer = some ⟨tup.dstIp, tup.dstPort, s.bound, ext, flags⟩ →
        answer.length ≤ 65535 → CanDeliver cfg u answer tup.srcIp mac port →
        ∃ v out c' answer' first, (system cfg).step u (.wanFrame answer now', out) v ∧
          classify .dst answer = some c' ∧
          Translated .dst c' tup.srcIp tup.srcPort answer answer' ∧
          cfg.lan.head? = some first ∧
          (tup.egressKey ∈ u.firewall.conntrack.flows →
            out = [(port, .frame (setEthernet answer' first.etherAddr mac))]) ∧
          (tup.egressKey ∉ u.firewall.conntrack.flows → out = []) := by
  obtain ⟨_, hcalls⟩ := (refines_run hrun).firewall
  obtain ⟨hinv, -, hct⟩ := Firewall.tables_run hcalls (NatTable.inv_new hnat).1 ConnTrack.inv_new
  obtain ⟨hsettled, -⟩ := wanFace_run (settled_boot (wanIp_of_new hnat)) hrun
  obtain ⟨t, c, ext, hstep, hc, hbound, hflows⟩ := step_of_canSend hinv hsettled.natIp hsend p now
  refine ⟨t, c, ext, _, hstep, hc, translated_rewrite hc hlen _ _, hbound, fun hopening ↦ ?_, ?_⟩
  · rw [hflows]
    exact ConnTrack.mem_observeEgress_of_isOpening hct _ hopening now
  intro tr' u hrun' answer flags mac port now' htup hlen' hdeliver
  -- the tables from start-up to here, and the binding from when it was made
  obtain ⟨_, hcallsT⟩ := (refines_step hstep).firewall
  obtain ⟨hinvT, -, hctT⟩ := Firewall.tables_run hcallsT hinv hct
  obtain ⟨_, hcallsU⟩ := (refines_run hrun').firewall
  obtain ⟨hinvU, hext, hctU⟩ := Firewall.tables_run hcallsU hinvT hctT
  obtain ⟨v, out, c', first, hstep', hc', hfirst, htracked, huntracked⟩ :=
    step_of_canDeliver hinvU hctU htup (hext.fwd_le _ _ hbound) hdeliver now'
  exact ⟨v, out, c', _, first, hstep', hc', translated_rewrite hc' hlen' _ _, hfirst, htracked,
    huntracked⟩

/-- The router has got its address, and has heard from its gateway and from the host `192.168.1.2`
on port 1. -/
def sampleReady : List (Event sampleConfig) :=
  sampleBinding ++ [.wanFrame (Ports.sampleArp 9 0x0a0000fe 0xcb007105) 3,
    .lanFrame samplePort₁ (Ports.sampleArp 1 0xc0a80102 0x0a0000fe) 4]

/-- The SYN of the host, sent to the router. -/
def sampleOpening : Bytes := setEthernet Firewall.sampleSyn (sampleMac 1) (sampleMac 0xfe)

def sampleTuple : TcpTuple := ⟨0xc0a80102, 1111, 0x08080808, 80, TcpFlag.syn⟩

/-- The peer's answer to the address of the router. -/
def sampleAccepting : Bytes := writeAt Firewall.sampleSynAck 30 [203, 0, 113, 5]

/-- The host opens a connection, and the answer is sent to it on port 1 and nowhere else. -/
theorem tcp_goes_both_ways_sample :
    ∃ tr s t u out out', (system sampleConfig).Run sampleBoot tr s ∧
      (system sampleConfig).step s (.lanFrame samplePort₁ sampleOpening 5, out) t ∧
      (system sampleConfig).step t (.wanFrame sampleAccepting 6, out') u ∧
      out.map Prod.fst = [0] ∧ out'.map Prod.fst = [1] := by
  have hcalls : (calls (step sampleConfig) sampleBoot sampleReady).map (fun r ↦
      (r.2.bound, decide (CanSend sampleConfig r.2 sampleOpening sampleTuple (sampleMac 9)),
        (r.2.step sampleConfig (.lanFrame samplePort₁ sampleOpening 5)).map fun r ↦
          (decide (CanDeliver sampleConfig r.1 sampleAccepting 0xc0a80102 (sampleMac 1) 1),
            decide (some (40000 : UInt16) =
              r.1.firewall.nat.fwd.lookup (Proto.tcp, 0xc0a80102, 1111))))) =
      some (0xcb007105, true, some (true, true)) := by decide +kernel
  obtain ⟨⟨tr, s⟩, hs, hend⟩ := Option.map_eq_some_iff.1 hcalls
  simp only [Prod.mk.injEq, decide_eq_true_eq] at hend
  obtain ⟨hbound, hsend, hnext⟩ := hend
  have hrun : (system sampleConfig).Run
      (boot sampleConfig Ports.sampleDhcp ⟨0, 40000, 40010, 40000, ∅, ∅⟩ 1) tr s := run_of_calls hs
  obtain ⟨t, c, ext, frame', hstep, -, -, hext, hopens, hback⟩ := tcp_goes_both_ways
    (show NatTable.new Ipv4Addr.unspecified 40000 40010 = some _ from rfl) hrun hsend
    (by decide +kernel) samplePort₁ 5
  have hstep' : s.step sampleConfig (.lanFrame samplePort₁ sampleOpening 5) = some (t, _) := hstep
  rw [hstep'] at hnext
  simp only [Option.map_some, Option.some.injEq, Prod.mk.injEq, decide_eq_true_eq] at hnext
  obtain ⟨hdeliver, hport⟩ := hnext
  obtain rfl : 40000 = ext := Option.some.inj (hport.trans hext)
  obtain ⟨u, out', c', answer', first, hstep'', -, -, -, htracked, -⟩ :=
    hback [] t .nil sampleAccepting (TcpFlag.syn ||| TcpFlag.ack) (sampleMac 1) 1 6
      (by rw [hbound]; decide +kernel) (by decide +kernel) hdeliver
  exact ⟨tr, s, t, u, _, out', hrun, hstep, hstep'', rfl, by rw [htracked (hopens rfl)]; rfl⟩

end App

end UserspaceRouter
