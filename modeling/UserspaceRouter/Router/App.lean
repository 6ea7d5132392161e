import UserspaceRouter.Router.Boundary
import UserspaceRouter.Router.DhcpClient
import UserspaceRouter.Router.Fdb
import UserspaceRouter.Router.Ports

/-!
# The router

The whole router, one received frame at a time: the LAN ports with their shared DHCP state and
neighbor table, the WAN port with its own neighbor table and DHCP client, the forwarding database,
and the firewall between the two sides. A step takes what was received and gives the state
afterwards and what was transmitted, in order.

A transmission is a frame, given by its bytes, or a DHCP message of the router's own, given by what
it is built from. Every transmission is taken to be accepted by the NIC.

## Layers

The tables are those of the earlier modules, and the router touches them only as those modules
allow: `refines_run` says that every run of the router is a run of the ports and a run of calls on
the firewall, and that the forwarding database records the frames received. What is proved of those
runs therefore holds of the router.
-/

namespace UserspaceRouter

open TransitionSystem

/-! ### Ports and transmissions -/

/-- What the router knows about a port. -/
structure PortInfo where
  portId : PortId
  etherAddr : MacAddr
deriving DecidableEq, Repr

/-- The router's configuration. The port ids are those of distinct devices, since `main` keeps the
ports in a map by id, and takes the WAN port out of it. -/
structure AppConfig where
  router : RouterId
  wan : PortInfo
  lan : List PortInfo
  nodup : (lan.map (·.portId)).Nodup
  wan_notMem : wan.portId ∉ lan.map (·.portId)

/-- What is sent. -/
inductive Payload
  | frame (bytes : Bytes)
  /-- The DHCP server's answer. -/
  | dhcpReply (reply : Reply)
  /-- The DHCP client's message. -/
  | dhcpMessage (message : ClientMessage)
deriving DecidableEq, Repr

/-- A payload, and the port it is sent on. -/
abbrev Transmission := PortId × Payload

/-- `set_ethernet`: overwrite the two addresses; a frame too short for them is left alone. -/
def setEthernet (frame : Bytes) (src dst : MacAddr) : Bytes :=
  if EthernetHeader.len ≤ frame.length then writeAt (writeAt frame 6 src.octets) 0 dst.octets
  else frame

namespace AppConfig

def lanPortById (cfg : AppConfig) (portId : PortId) : Option PortInfo :=
  cfg.lan.find? (·.portId == portId)

/-- The server identity that all LAN ports share. -/
def dhcp (cfg : AppConfig) : DhcpServerConfig := ⟨cfg.router.serverIp⟩

/-- The loop over the LAN ports that sends a copy of a frame on each of them but one. -/
def flood (cfg : AppConfig) (exceptPort : Option PortId) (bytes : Bytes) : List Transmission :=
  (cfg.lan.filter fun p ↦ some p.portId ≠ exceptPort).map fun p ↦ (p.portId, .frame bytes)

/-- Send a frame to a MAC on the LAN side: on the port it was learned on, or on all of them. -/
def transmitToMacOrFloodExcept (cfg : AppConfig) (fdb : Fdb) (mac : MacAddr) (packet : Bytes)
    (exceptPort : Option PortId) : List Transmission :=
  match fdb.lookup mac with
  | some port =>
    if some port ≠ exceptPort then
      match cfg.lanPortById port with
      | some out => [(out.portId, .frame packet)]
      -- the port is not one of the LAN
      | none => []
    else []
  | none => cfg.flood exceptPort packet

end AppConfig

/-- Packets that were waiting for a MAC go out on the port, with their addresses filled in. -/
def PortInfo.transmitDrained (port : PortInfo) (drained : List (MacAddr × List Bytes)) :
    List Transmission :=
  drained.flatMap fun d ↦
    d.2.map fun q ↦ (port.portId, .frame (setEthernet q port.etherAddr d.1))

/-! ### The handlers -/

/-- The state of the router. -/
structure App where
  fdb : Fdb
  ports : Ports Bytes
  /-- The flow table, the NAT and the WAN gateway. -/
  firewall : Firewall
  client : DhcpClient
  /-- The WAN address last acted on, or 0. -/
  bound : Ipv4Addr
  lastSweepMs : UInt32

namespace App

/-- The state after start-up. -/
def boot (cfg : AppConfig) (dhcp : DhcpState) (nat : NatTable) (xid : UInt32) : App where
  fdb := .new
  ports := .boot cfg.router cfg.wan.etherAddr dhcp
  firewall := ⟨ConnTrack.new, nat, Ipv4Addr.unspecified⟩
  client := .new cfg.wan.etherAddr xid
  bound := 0
  lastSweepMs := 0

/-- Record the sender of a frame behind the port it came in on. -/
def learn (s : App) (src : MacAddr) (port : PortId) : App := { s with fdb := s.fdb.insert src port }

/-- ARP handling on a LAN port. -/
def handleLanArp (cfg : AppConfig) (s : App) (port : PortInfo) (frame : Bytes) (now : Tick) :
    Option (App × List Transmission) :=
  (s.ports.lan.handleLanArp cfg.router frame now).map fun (lan, out) ↦
    ({ s with ports := { s.ports with lan } },
      port.transmitDrained out.drained ++
        (if out.flood then cfg.flood (some port.portId) frame else []) ++
        out.reply.toList.map fun reply ↦ (port.portId, .frame reply))

/-- LAN to WAN: through the firewall, and on to the gateway. -/
def lanEgressNat (cfg : AppConfig) (s : App) (frame : Bytes) (now : Tick) :
    App × List Transmission :=
  match s.firewall.lanEgressNat frame now with
  | (firewall, none) => ({ s with firewall }, [])
  | (firewall, some (gateway, packet)) =>
    let (wan, action) := s.ports.wan.resolve gateway packet ArpPacket.frameLen now
    ({ s with firewall, ports := { s.ports with wan } },
      match action with
      | .forward mac p => [(cfg.wan.portId, .frame (setEthernet p cfg.wan.etherAddr mac))]
      | .queued request => request.toList.map fun req ↦ (cfg.wan.portId, .frame req)
      | .drop _ => [])

/-- IPv4 handling on a LAN port: DHCP first, then what is for the router, then the bridge. -/
def handleLanIpv4 (cfg : AppConfig) (s : App) (port : PortInfo) (header : EthernetHeader)
    (frame : Bytes) (now : Tick) : Option (App × List Transmission) :=
  match parseDhcp frame with
  | some view =>
    (s.ports.lan.dhcp.handle cfg.dhcp view).map fun (dhcp, reply) ↦
      ({ s with ports := { s.ports with lan := { s.ports.lan with dhcp } } },
        reply.toList.map fun r ↦ (port.portId, .dhcpReply r))
  | none =>
    if header.dst = cfg.router.serverMac then some (s.lanEgressNat cfg frame now)
    else if header.isBroadcast then some (s, cfg.flood (some port.portId) frame)
    else
      some (s, cfg.transmitToMacOrFloodExcept s.fdb header.dst frame (some port.portId))

/-- One frame of `drive_lan`: classify it, learn its sender, route it. -/
def driveLan (cfg : AppConfig) (s : App) (port : PortInfo) (frame : Bytes) (now : Tick) :
    Option (App × List Transmission) :=
  match parse frame with
  | none => some (s, [])
  | some eth =>
    let s := s.learn eth.header.src port.portId
    if eth.isArp then s.handleLanArp cfg port frame now
    else if eth.isIpv4 then s.handleLanIpv4 cfg port eth.header frame now
    -- IPv6, VLAN, LLDP and so on drop on the floor
    else some (s, [])

/-- WAN to LAN: through the firewall, and on to the host. -/
def wanIngressNat (cfg : AppConfig) (s : App) (frame : Bytes) (now : Tick) :
    App × List Transmission :=
  match s.firewall.wanIngressNat frame now with
  | (firewall, none) => ({ s with firewall }, [])
  | (firewall, some (dstIp, packet)) =>
    match cfg.lan.head? with
    | none => ({ s with firewall }, [])
    | some anyLan =>
      let (neighbors, action) :=
        s.ports.lan.neighbors.resolve dstIp packet ArpPacket.frameLen now
      ({ s with firewall, ports := { s.ports with lan := { s.ports.lan with neighbors } } },
        match action with
        | .forward mac p =>
          cfg.transmitToMacOrFloodExcept s.fdb mac (setEthernet p anyLan.etherAddr mac) none
        | .queued request => request.toList.flatMap fun req ↦ cfg.flood none req
        | .drop _ => [])

/-- One frame of `drive_wan`. -/
def driveWan (cfg : AppConfig) (s : App) (frame : Bytes) (now : Tick) : App × List Transmission :=
  match parse frame with
  | none => (s, [])
  | some eth =>
    let s := s.learn eth.header.src cfg.wan.portId
    if eth.isArp then
      let (wan, out) := handleWanArp s.ports.wan frame now
      ({ s with ports := { s.ports with wan } }, cfg.wan.transmitDrained out.drained)
    else
      match parseDhcp frame with
      | some view => ({ s with client := s.client.onReceive view }, [])
      | none => if eth.isIpv4 then s.wanIngressNat cfg frame now else (s, [])

/-- The end of `drive_wan`: act on a WAN address that is new, or drive the DHCP client. -/
def driveClient (cfg : AppConfig) (s : App) : App × List Transmission :=
  match s.client.boundIp with
  | some wanIp =>
    if s.bound ≠ wanIp then
      let ports := { s.ports with wan := s.ports.wan.setOurIp wanIp }
      let nat := s.firewall.nat.setWanIp wanIp
      match s.client.lease.bind (·.gateway) with
      | some gw =>
        -- ask for the gateway at once, so that the first packet need not wait for it
        ({ s with bound := wanIp, ports, firewall := { s.firewall with nat, gateway := gw } },
          (ArpPacket.buildRequest ArpPacket.frameLen cfg.wan.etherAddr wanIp gw).toList.map
            fun req ↦ (cfg.wan.portId, .frame req))
      | none => ({ s with bound := wanIp, ports, firewall := { s.firewall with nat } }, [])
    else (s, [])
  | none =>
    let (client, message) := s.client.poll
    ({ s with client }, message.toList.map fun m ↦ (cfg.wan.portId, .dhcpMessage m))

def sweepIntervalMs : ℕ := 250

/-- The sweep of one LAN port. The table is shared, so each LAN port sweeps it again. -/
def sweepLan (now : Tick) (acc : NeighborTable Bytes × List Transmission) (port : PortInfo) :
    NeighborTable Bytes × List Transmission :=
  let (neighbors, requests, _) := acc.1.sweep now
  (neighbors, acc.2 ++ requests.map fun req ↦ (port.portId, .frame req))

/-- Sweep the neighbor tables and the flow table, unless that was done a moment ago. -/
def maybeSweep (cfg : AppConfig) (s : App) (now : Tick) : App × List Transmission :=
  let last := s.lastSweepMs.toNat
  if last ≠ 0 ∧ now - last < sweepIntervalMs then (s, [])
  else
    let (wan, requests, _) := s.ports.wan.sweep now
    let (neighbors, sent) := cfg.lan.foldl (sweepLan now)
      (s.ports.lan.neighbors, requests.map fun req ↦ (cfg.wan.portId, .frame req))
    ({ s with
        lastSweepMs := UInt32.ofNat (min now (2 ^ 32 - 1))
        ports := { lan := { s.ports.lan with neighbors }, wan }
        firewall := { s.firewall with conntrack := s.firewall.conntrack.sweep now } }, sent)

/-! ### The system -/

/-- What the router acts on. -/
inductive Event (cfg : AppConfig)
  | lanFrame (port : {p // p ∈ cfg.lan}) (frame : Bytes) (now : Tick)
  | wanFrame (frame : Bytes) (now : Tick)
  | client
  | sweep (now : Tick)

/-- One event; `none` is a failed assertion. -/
def step (cfg : AppConfig) (s : App) : Event cfg → Option (App × List Transmission)
  | .lanFrame port frame now => s.driveLan cfg port frame now
  | .wanFrame frame now => some (s.driveWan cfg frame now)
  | .client => some (s.driveClient cfg)
  | .sweep now => some (s.maybeSweep cfg now)

/-- The router, one event at a time. -/
def system (cfg : AppConfig) : TransitionSystem App (Event cfg × List Transmission) :=
  .ofCalls (step cfg)

/-! ### The router refines its parts -/

/-- The source of a received frame that parses, and the port it was received on. -/
def Event.sighting {cfg : AppConfig} : Event cfg → Option (MacAddr × PortId)
  | .lanFrame port frame _ => (parse frame).map fun eth ↦ (eth.header.src, port.1.portId)
  | .wanFrame frame _ => (parse frame).map fun eth ↦ (eth.header.src, cfg.wan.portId)
  | .client | .sweep _ => none

/-- What the router does to its tables, table by table: events on the ports, calls on the firewall,
and the sightings `seen` recorded in the forwarding database. -/
structure Refines (cfg : AppConfig) (seen : List (MacAddr × PortId)) (s t : App) : Prop where
  ports : ∃ tr, (Ports.system Bytes cfg.router).Run s.ports tr t.ports
  firewall : ∃ tr, Firewall.callSystem.Run s.firewall tr t.firewall
  fdb_eq : t.fdb = s.fdb.learnAll seen

namespace Refines

variable {cfg : AppConfig} {seen seen' : List (MacAddr × PortId)} {s t u : App}

theorem trans (h : Refines cfg seen s t) (h' : Refines cfg seen' t u) :
    Refines cfg (seen ++ seen') s u := by
  obtain ⟨⟨tr₁, hports⟩, ⟨tr₂, hfirewall⟩, hfdb⟩ := h
  obtain ⟨⟨tr₁', hports'⟩, ⟨tr₂', hfirewall'⟩, hfdb'⟩ := h'
  refine ⟨⟨_, hports.trans hports'⟩, ⟨_, hfirewall.trans hfirewall'⟩, ?_⟩
  rw [hfdb', hfdb, Fdb.learnAll_append]

/-- The ports and the firewall are left alone. -/
theorem of_eq (hports : t.ports = s.ports) (hfirewall : t.firewall = s.firewall)
    (hfdb : t.fdb = s.fdb.learnAll seen) : Refines cfg seen s t := by
  refine ⟨⟨[], ?_⟩, ⟨[], ?_⟩, hfdb⟩
  · rw [hports]
    exact .nil
  · rw [hfirewall]
    exact .nil

theorem refl (s : App) : Refines cfg [] s s := of_eq rfl rfl rfl

/-- One event on the ports. -/
theorem of_event (e : PortEvent Bytes) {o : PortOutput Bytes}
    (h : s.ports.step cfg.router e = some (t.ports, o)) (hfirewall : t.firewall = s.firewall)
    (hfdb : t.fdb = s.fdb) : Refines cfg [] s t := by
  refine ⟨⟨_, .single (a := (e, o)) h⟩, ⟨[], ?_⟩, hfdb⟩
  rw [hfirewall]
  exact .nil

/-- One call on the firewall. -/
theorem of_call (c : Firewall.Call) (hports : t.ports = s.ports)
    (h : t.firewall = (s.firewall.call c).1) (hfdb : t.fdb = s.fdb) : Refines cfg [] s t := by
  refine ⟨⟨[], ?_⟩, ⟨[(c, (s.firewall.call c).2)], ?_⟩, hfdb⟩
  · rw [hports]
    exact .nil
  · rw [h]
    exact .single (Firewall.step_call s.firewall c)

/-- A received frame is sighted, and then dealt with. -/
theorem learn (src : MacAddr) (port : PortId) (h : Refines cfg [] (s.learn src port) t) :
    Refines cfg [(src, port)] s t := by
  have hlearn : Refines cfg [(src, port)] s (s.learn src port) := of_eq rfl rfl rfl
  exact hlearn.trans h

end Refines

theorem refines_lanEgressNat (cfg : AppConfig) (s : App) (frame : Bytes) (now : Tick) :
    Refines cfg [] s (s.lanEgressNat cfg frame now).1 := by
  have hcall : ∀ firewall out, s.firewall.lanEgressNat frame now = (firewall, out) →
      Refines cfg [] s { s with firewall } := by
    intro firewall out h
    refine .of_call (.lanEgressNat frame now) rfl ?_ rfl
    show firewall = (s.firewall.lanEgressNat frame now).1
    rw [h]
  unfold lanEgressNat
  rcases hout : s.firewall.lanEgressNat frame now with ⟨firewall, - | ⟨gateway, packet⟩⟩
  · exact hcall _ _ hout
  · refine (hcall _ _ hout).trans ?_
    exact .of_event (.wanResolve gateway packet ArpPacket.frameLen now) rfl rfl rfl

theorem refines_wanIngressNat (cfg : AppConfig) (s : App) (frame : Bytes) (now : Tick) :
    Refines cfg [] s (s.wanIngressNat cfg frame now).1 := by
  have hcall : ∀ firewall out, s.firewall.wanIngressNat frame now = (firewall, out) →
      Refines cfg [] s { s with firewall } := by
    intro firewall out h
    refine .of_call (.wanIngressNat frame now) rfl ?_ rfl
    show firewall = (s.firewall.wanIngressNat frame now).1
    rw [h]
  unfold wanIngressNat
  rcases hout : s.firewall.wanIngressNat frame now with ⟨firewall, - | ⟨dstIp, packet⟩⟩
  · exact hcall _ _ hout
  rcases cfg.lan.head? with - | anyLan
  · exact hcall _ _ hout
  · refine (hcall _ _ hout).trans ?_
    exact .of_event (.lanResolve dstIp packet ArpPacket.frameLen now) rfl rfl rfl

theorem refines_handleLanIpv4 {cfg : AppConfig} {s t : App} {port : PortInfo}
    {header : EthernetHeader} {frame : Bytes} {now : Tick} {out : List Transmission}
    (h : s.handleLanIpv4 cfg port header frame now = some (t, out)) : Refines cfg [] s t := by
  rcases hdhcp : parseDhcp frame with - | view
  · simp only [handleLanIpv4, hdhcp] at h
    split_ifs at h
    · obtain rfl : (s.lanEgressNat cfg frame now).1 = t := by rw [Option.some.inj h]
      exact refines_lanEgressNat cfg s frame now
    · obtain ⟨rfl, -⟩ := Prod.mk.inj (Option.some.inj h)
      exact .refl _
    · obtain ⟨rfl, -⟩ := Prod.mk.inj (Option.some.inj h)
      exact .refl _
  · simp only [handleLanIpv4, hdhcp] at h
    obtain ⟨⟨dhcp, reply⟩, hhandle, heq⟩ := Option.map_eq_some_iff.1 h
    obtain ⟨rfl, -⟩ := Prod.mk.inj heq
    refine .of_event (.dhcp cfg.dhcp view) (o := .dhcp reply) ?_ rfl rfl
    simp only [Ports.step, hhandle]
    rfl

theorem refines_driveLan {cfg : AppConfig} {s t : App} {port : PortInfo} {frame : Bytes}
    {now : Tick} {out : List Transmission} (h : s.driveLan cfg port frame now = some (t, out)) :
    Refines cfg ((parse frame).map fun eth ↦ (eth.header.src, port.portId)).toList s t := by
  rcases hparse : parse frame with - | eth
  · simp only [driveLan, hparse] at h
    obtain ⟨rfl, -⟩ := Prod.mk.inj (Option.some.inj h)
    exact .refl _
  simp only [driveLan, hparse] at h
  refine .learn eth.header.src port.portId ?_
  split_ifs at h with harp hip
  · -- ARP is an event of the LAN ports
    obtain ⟨⟨lan, o⟩, hlan, heq⟩ := Option.map_eq_some_iff.1 h
    obtain ⟨rfl, -⟩ := Prod.mk.inj heq
    refine .of_event (.lanArp frame now) (o := .arp o) ?_ rfl rfl
    simp only [Ports.step, hlan]
    rfl
  · exact refines_handleLanIpv4 h
  · obtain ⟨rfl, -⟩ := Prod.mk.inj (Option.some.inj h)
    exact .refl _

theorem refines_driveWan (cfg : AppConfig) (s : App) (frame : Bytes) (now : Tick) :
    Refines cfg ((parse frame).map fun eth ↦ (eth.header.src, cfg.wan.portId)).toList s
      (s.driveWan cfg frame now).1 := by
  unfold driveWan
  rcases parse frame with - | eth
  · exact .refl _
  refine .learn eth.header.src cfg.wan.portId ?_
  by_cases harp : eth.isArp = true
  · simp only [if_pos harp]
    exact .of_event (.wanArp frame now) rfl rfl rfl
  · simp only [if_neg harp]
    rcases parseDhcp frame with - | view
    · by_cases hip : eth.isIpv4 = true
      · simp only [if_pos hip]
        exact refines_wanIngressNat cfg _ frame now
      · simp only [if_neg hip]
        exact .refl _
    · exact .of_eq rfl rfl rfl

theorem refines_driveClient (cfg : AppConfig) (s : App) :
    Refines cfg [] s (s.driveClient cfg).1 := by
  unfold driveClient
  rcases s.client.boundIp with - | wanIp
  · exact .of_eq rfl rfl rfl
  show Refines cfg [] s (if _ then _ else _ : App × List Transmission).1
  split_ifs
  · have hports : Refines cfg [] s { s with
        bound := wanIp, ports := { s.ports with wan := s.ports.wan.setOurIp wanIp } } :=
      .of_event (.setWanIp wanIp) rfl rfl rfl
    have hnat := hports.trans (.of_call (.setWanIp wanIp) (t := { s with
        bound := wanIp, ports := { s.ports with wan := s.ports.wan.setOurIp wanIp }
        firewall := { s.firewall with nat := s.firewall.nat.setWanIp wanIp } }) rfl rfl rfl)
    rcases s.client.lease.bind (·.gateway) with - | gw
    · exact hnat
    · exact hnat.trans (.of_call (.setGateway gw) rfl rfl rfl)
  · exact .refl _

/-- The sweeps of the LAN ports, one after the other, of the one table they share. -/
theorem run_sweepLan (router : RouterId) (now : Tick) (lan : List PortInfo) (s : Ports Bytes)
    (sent : List Transmission) :
    ∃ tr, (Ports.system Bytes router).Run s tr { s with lan := { s.lan with
      neighbors := (lan.foldl (sweepLan now) (s.lan.neighbors, sent)).1 } } := by
  induction lan generalizing s sent with
  | nil => exact ⟨[], .nil⟩
  | cons port lan ih =>
    obtain ⟨tr, hrun⟩ := ih { s with lan := { s.lan with
      neighbors := (s.lan.neighbors.sweep now).1 } } (sweepLan now (s.lan.neighbors, sent) port).2
    have hfirst : (Ports.system Bytes router).step s
        (.lanSweep now, .swept (s.lan.neighbors.sweep now).2.1 (s.lan.neighbors.sweep now).2.2)
        { s with lan := { s.lan with neighbors := (s.lan.neighbors.sweep now).1 } } := rfl
    exact ⟨_, (Run.single hfirst).trans hrun⟩

theorem refines_maybeSweep (cfg : AppConfig) (s : App) (now : Tick) :
    Refines cfg [] s (s.maybeSweep cfg now).1 := by
  unfold maybeSweep
  show Refines cfg [] s (if _ then _ else _ : App × List Transmission).1
  split_ifs
  · exact .refl _
  · obtain ⟨tr, hlan⟩ := run_sweepLan cfg.router now cfg.lan
      { s.ports with wan := (s.ports.wan.sweep now).1 }
      ((s.ports.wan.sweep now).2.1.map fun req ↦ (cfg.wan.portId, .frame req))
    have hwan : (Ports.system Bytes cfg.router).step s.ports
        (.wanSweep now, .swept (s.ports.wan.sweep now).2.1 (s.ports.wan.sweep now).2.2)
        { s.ports with wan := (s.ports.wan.sweep now).1 } := rfl
    exact ⟨⟨_, (Run.single hwan).trans hlan⟩,
      ⟨_, .single (Firewall.step_call s.firewall (.sweep now))⟩, rfl⟩

/-- **One event of the router** is a run of its parts, and a sighting. -/
theorem refines_step {cfg : AppConfig} {s t : App} {e : Event cfg} {out : List Transmission}
    (h : (system cfg).step s (e, out) t) : Refines cfg e.sighting.toList s t := by
  have hstep : s.step cfg e = some (t, out) := h
  cases e with
  | lanFrame port frame now => exact refines_driveLan hstep
  | wanFrame frame now =>
    obtain rfl : (s.driveWan cfg frame now).1 = t := by rw [Option.some.inj hstep]
    exact refines_driveWan cfg s frame now
  | client =>
    obtain rfl : (s.driveClient cfg).1 = t := by rw [Option.some.inj hstep]
    exact refines_driveClient cfg s
  | sweep now =>
    obtain rfl : (s.maybeSweep cfg now).1 = t := by rw [Option.some.inj hstep]
    exact refines_maybeSweep cfg s now

/-- The sightings of a run, oldest first. -/
def sightings {cfg : AppConfig} (events : List (Event cfg)) : List (MacAddr × PortId) :=
  events.filterMap Event.sighting

/-- **Every run of the router** is a run of its ports and a run of calls on its firewall, and the
forwarding database records what was sighted. -/
theorem refines_run {cfg : AppConfig} {s t : App} {tr : List (Event cfg × List Transmission)}
    (h : (system cfg).Run s tr t) : Refines cfg (sightings (tr.map (·.1))) s t := by
  refine h.history (I := fun tr t ↦ Refines cfg (sightings (tr.map (·.1))) s t) (.refl s) ?_
  rintro tr t ⟨e, out⟩ u hs hst
  have hsightings : sightings ((tr ++ [(e, out)]).map (·.1)) =
      sightings (tr.map (·.1)) ++ e.sighting.toList := by
    rcases he : e.sighting with - | x <;> simp [sightings, he]
  rw [hsightings]
  exact hs.trans (refines_step hst)

end App

end UserspaceRouter
