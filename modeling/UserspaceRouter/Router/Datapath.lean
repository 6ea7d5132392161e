import UserspaceRouter.Dpdk.Queues
import UserspaceRouter.Foundations.Program
import UserspaceRouter.Router.App

/-!
# The workers

One worker runs on each lcore, and all of them run the same loop over the same tables. `iteration`
is one turn of the loop in `AppCtx::run`: drive the WAN port, drive the LAN ports, and on one of the
lcores sweep. It is a program (`Foundations.Program`) whose accesses are the critical sections of
the code, one for each call on a table behind a lock (`Core.Locks`), each load or store of an
atomic, and each call into the driver; everything in between is local to the worker. The module
`App` has the same handlers run without interruption and over a NIC that accepts everything.

Here packets are mbufs. They are taken from a mempool, received from a queue of the NIC or queued in
a neighbor table, and whoever has one must pass it on or free it; `free`, written out in the
programs below, stands where the code lets a value of type `Mbuf` go out of scope.

What is not the program's doing is the environment's (`NicStep`): frames arrive, sent buffers are
freed, signals come, and any allocation or transmission may fail.

**A failed assertion** of the address pool would end the worker. The packet it is about is freed
when the stack is unwound; what is left of its burst are bare pointers, and these are lost
(`leaked`). The lock of the pool is left taken (`poolStuck`), as `with` gives it back only after its
closure has returned. In `DatapathSafety` it is proved that this does not happen. (The release
profile does not unwind the stack but aborts.)
-/

namespace UserspaceRouter

open Program

/-! ### Buffers and devices -/

/-- A packet buffer, by its mempool and its number in it. -/
structure MbufId where
  pool : ℕ
  index : ℕ
deriving DecidableEq, Repr

/-- `Mbuf`: a buffer, and the packet in it. -/
structure Mbuf where
  id : MbufId
  data : Bytes

/-- The room of a buffer that has just been allocated: `MBUF_DATA_ROOM` less the headroom. -/
def tailroom : ℕ := 2048

/-- Whether `append` finds room for a payload. DHCP messages are built in a buffer of `FRAME_MAX`
bytes. -/
def Payload.fits : Payload → Bool
  | .frame bytes => bytes.length ≤ tailroom
  | .dhcpReply _ | .dhcpMessage _ => true

/-- A receive queue of a port. -/
abbrev RxQueue := PortId × UInt16

/-- The mempools and the devices. -/
structure Nic where
  /-- The buffers in their mempools. -/
  free : List MbufId
  /-- What has been received and nobody has polled, with the queue it is in. -/
  rx : List (RxQueue × Mbuf)
  /-- The buffers that were given to a device to send. -/
  tx : List MbufId
  /-- What has come in, by port. -/
  received : List (PortId × Bytes)
  /-- What was given to a device to send, by port. -/
  sent : List Transmission
  /-- Whether a mempool gives out a buffer if it has one. -/
  allocates : Bool
  /-- Whether a device takes a packet. -/
  accepts : Bool

/-- `rte_eth_rx_burst`: at most `n` packets of a queue, and what is left in the queues. -/
def rxBurst (q : RxQueue) : ℕ → List (RxQueue × Mbuf) → List Mbuf × List (RxQueue × Mbuf)
  | _, [] => ([], [])
  | 0, rx => ([], rx)
  | n + 1, x :: rx =>
    if x.1 = q then (x.2 :: (rxBurst q n rx).1, (rxBurst q n rx).2)
    else ((rxBurst q (n + 1) rx).1, x :: (rxBurst q (n + 1) rx).2)

/-- `BURST`. -/
def burst : ℕ := 32

/-- The router's configuration, with its devices. -/
structure DatapathConfig extends AppConfig where
  device : PortId → Dpdk.Port
  /-- The mempool of a port: that of its NUMA socket. -/
  pool : PortId → ℕ
  sweeperLcore : UInt32

/-- The two sides of the router; each has one neighbor table. -/
inductive Segment
  | lan
  | wan
deriving DecidableEq, Repr

/-- Everything the workers share. -/
structure Datapath where
  fdb : Fdb
  ports : Ports Mbuf
  firewall : Firewall
  client : DhcpClient
  bound : Ipv4Addr
  lastSweepMs : UInt32
  /-- `SHUTDOWN`. -/
  shutdown : Bool
  /-- The log: the addresses assigned to the WAN port. -/
  assigned : List Ipv4Addr
  nic : Nic
  /-- Buffers that nobody has a pointer to any more. -/
  leaked : List MbufId
  /-- The lock of the address pool was taken by a call that did not return. -/
  poolStuck : Bool

namespace Datapath

/-! ### The accesses -/

def setNic (s : Datapath) (nic : Nic) : Datapath := { s with nic }

def setDhcp (s : Datapath) (dhcp : DhcpState) : Datapath :=
  { s with ports := { s.ports with lan := { s.ports.lan with dhcp } } }

def setFirewall (s : Datapath) (firewall : Firewall) : Datapath := { s with firewall }

def neighbors (s : Datapath) : Segment → NeighborTable Mbuf
  | .lan => s.ports.lan.neighbors
  | .wan => s.ports.wan

def setNeighbors (s : Datapath) (t : NeighborTable Mbuf) : Segment → Datapath
  | .lan => { s with ports := { s.ports with lan := { s.ports.lan with neighbors := t } } }
  | .wan => { s with ports := { s.ports with wan := t } }

/-- `Drop for Mbuf`. -/
def free (id : MbufId) : Program Datapath Unit :=
  modify fun s ↦ s.setNic { s.nic with free := id :: s.nic.free }

/-- `SharedMemPool::alloc`. -/
def alloc (pool : ℕ) : Program Datapath (Option MbufId) :=
  call fun s ↦
    match if s.nic.allocates then s.nic.free.find? (·.pool == pool) else none with
    | some id => (some id, s.setNic { s.nic with free := s.nic.free.erase id })
    | none => (none, s)

/-- `rte_eth_tx_burst`, under the lock of the transmit queue. -/
def txBurst (port : PortId) (id : MbufId) (payload : Payload) : Program Datapath Bool :=
  call fun s ↦
    if s.nic.accepts then
      (true, s.setNic
        { s.nic with tx := id :: s.nic.tx, sent := s.nic.sent ++ [(port, payload)] })
    else (false, s)

def insertFdb (src : MacAddr) (port : PortId) : Program Datapath Unit :=
  modify fun s ↦ { s with fdb := s.fdb.insert src port }

def lookupFdb (dst : MacAddr) : Program Datapath (Option PortId) := read fun s ↦ s.fdb.lookup dst

def reverseLookup (mac : MacAddr) : Program Datapath (Option Ipv4Addr) :=
  read fun s ↦ s.ports.lan.neighbors.reverseLookup mac

def onArp (side : Segment) (ip : Ipv4Addr) (mac : MacAddr) (now : Tick) :
    Program Datapath (Option (MacAddr × List Mbuf)) :=
  call fun s ↦ (((s.neighbors side).onArp ip mac now).2,
    s.setNeighbors ((s.neighbors side).onArp ip mac now).1 side)

def resolve (side : Segment) (target : Ipv4Addr) (packet : Mbuf) (now : Tick) :
    Program Datapath (Action Mbuf) :=
  call fun s ↦ (((s.neighbors side).resolve target packet ArpPacket.frameLen now).2,
    s.setNeighbors ((s.neighbors side).resolve target packet ArpPacket.frameLen now).1 side)

/-- The sweep of a neighbor table. The code sends the requests before it gives the lock back. -/
def sweepNeighbors (side : Segment) (now : Tick) : Program Datapath (List Bytes × List Mbuf) :=
  call fun s ↦ (((s.neighbors side).sweep now).2,
    s.setNeighbors ((s.neighbors side).sweep now).1 side)

def reserve (ip : Ipv4Addr) : Program Datapath Unit :=
  modify fun s ↦ s.setDhcp { s.ports.lan.dhcp with pool := (s.ports.lan.dhcp.pool.reserve ip).1 }

/-- `release` on the pool; `false` is a failed assertion. -/
def release (ip : Ipv4Addr) : Program Datapath Bool :=
  call fun s ↦
    match s.ports.lan.dhcp.pool.release ip with
    | some pool => (true, s.setDhcp { s.ports.lan.dhcp with pool })
    | none => (false, { s with poolStuck := true })

def take (n : ℕ) : Program Datapath (Option (List Ipv4Addr)) :=
  call fun s ↦ ((s.ports.lan.dhcp.pool.take n).2,
    s.setDhcp { s.ports.lan.dhcp with pool := (s.ports.lan.dhcp.pool.take n).1 })

def lookupLease (mac : MacAddr) : Program Datapath (Option Ipv4Addr) :=
  read fun s ↦ s.ports.lan.dhcp.leases.lookup mac

def insertLease (mac : MacAddr) (ip : Ipv4Addr) : Program Datapath Unit :=
  modify fun s ↦
    s.setDhcp { s.ports.lan.dhcp with leases := s.ports.lan.dhcp.leases.insert mac ip }

def removeLease (mac : MacAddr) : Program Datapath (Option Ipv4Addr) :=
  call fun s ↦ (s.ports.lan.dhcp.leases.lookup mac,
    s.setDhcp { s.ports.lan.dhcp with leases := s.ports.lan.dhcp.leases.erase mac })

def observeEgress (tup : TcpTuple) (now : Tick) : Program Datapath Unit :=
  modify fun s ↦ s.setFirewall { s.firewall with
    conntrack := (s.firewall.conntrack.observeEgress tup.egressKey tup.flags now).1 }

def checkIngress (key : FlowKey) (flags : UInt8) (now : Tick) : Program Datapath Bool :=
  call fun s ↦ ((s.firewall.conntrack.checkIngress key flags now).2, s.setFirewall { s.firewall with
    conntrack := (s.firewall.conntrack.checkIngress key flags now).1 })

/-- `translate_egress`: the frame is rewritten in place. -/
def translateOut (frame : Bytes) : Program Datapath (Option Bytes) :=
  call fun s ↦ ((translateEgress frame s.firewall.nat).2.2.map fun _ ↦
      (translateEgress frame s.firewall.nat).1,
    s.setFirewall { s.firewall with nat := (translateEgress frame s.firewall.nat).2.1 })

/-- `translate_ingress`: the frame is rewritten in place. -/
def translateIn (frame : Bytes) : Program Datapath (Option (Bytes × Ingress)) :=
  read fun s ↦ (translateIngress frame s.firewall.nat).2.map fun x ↦
    ((translateIngress frame s.firewall.nat).1, x)

/-- `set_wan_ip` on the NAT, and the line in the log about it. -/
def setWanIp (ip : Ipv4Addr) : Program Datapath Unit :=
  modify fun s ↦ { s.setFirewall { s.firewall with nat := s.firewall.nat.setWanIp ip } with
    assigned := s.assigned ++ [ip] }

/-! ### The ports -/

section Handlers

variable (cfg : DatapathConfig) (lcore : UInt32) (now : Tick)

/-- The end of `transmit_mbuf`: a buffer that the NIC rejects is taken back and freed. -/
def transmit (port : PortId) (id : MbufId) (payload : Payload) : Program Datapath Unit := do
  if ← txBurst port id payload then pure () else free id

def transmitMbuf (port : PortInfo) (m : Mbuf) : Program Datapath Unit :=
  transmit port.portId m.id (.frame m.data)

/-- Copy a frame into a new buffer, and send that. -/
def transmitFrame (port : PortInfo) (payload : Payload) : Program Datapath Unit := do
  match ← alloc (cfg.pool port.portId) with
  | none => pure ()
  | some id => if payload.fits then transmit port.portId id payload else free id

/-- A burst from the queue that the lcore polls, if it polls one. -/
def receive (port : PortInfo) : Program Datapath (List Mbuf) :=
  match (cfg.device port.portId).rxQueue lcore with
  | none => pure []
  | some q => call fun s ↦ ((rxBurst (port.portId, q) burst s.nic.rx).1,
      s.setNic { s.nic with rx := (rxBurst (port.portId, q) burst s.nic.rx).2 })

/-- The loop over the LAN ports that sends a copy of a frame on each of them but one. -/
def flood (exceptPort : Option PortId) (bytes : Bytes) : Program Datapath Unit :=
  each (fun p ↦ transmitFrame cfg p (.frame bytes))
    (cfg.lan.filter fun p ↦ some p.portId ≠ exceptPort)

def transmitToMacOrFloodExcept (mac : MacAddr) (packet : Mbuf) (exceptPort : Option PortId) :
    Program Datapath Unit := do
  match ← lookupFdb mac with
  | some port =>
    if some port ≠ exceptPort then
      match cfg.lanPortById port with
      | some out => transmitMbuf out packet
      | none => free packet.id
    else free packet.id
  | none => do
    flood cfg exceptPort packet.data
    free packet.id

/-- Learn one of the pairs of an ARP packet, and send what was waiting for it. -/
def learnArp (side : Segment) (port : PortInfo) (ip : Ipv4Addr) (mac : MacAddr) :
    Program Datapath Unit := do
  match ← onArp side ip mac now with
  | some (mac, drained) =>
    each (fun q ↦ transmitMbuf port { q with data := setEthernet q.data port.etherAddr mac })
      drained
  | none => pure ()

/-! ### The LAN side -/

/-- Give back an address of the pool that the sender of an ARP packet no longer has. -/
def releaseStale (arp : ArpPacket) : Program Datapath Bool := do
  match ← reverseLookup arp.sha with
  | none => pure true
  | some oldIp =>
    if oldIp = arp.senderIp then pure true
    else if (← read fun s ↦ s.ports.lan.dhcp.pool.start) ≤ oldIp then
      if oldIp ≤ (← read fun s ↦ s.ports.lan.dhcp.pool.end_) then release oldIp else pure true
    else pure true

/-- The end of ARP handling on a LAN port: repeat the request on the other ports, or answer it. -/
def answerArp (port : PortInfo) (frame : Bytes) (eth : EthernetHeader) (arp : ArpPacket) :
    Program Datapath Unit :=
  let tip := arp.targetIp
  if tip ≠ cfg.router.serverIp ∧ arp.isRequest ∧ eth.isBroadcast then
    flood cfg (some port.portId) frame
  else if tip = cfg.router.serverIp ∧ arp.isRequest then
    match ArpPacket.buildReply LanState.frameMax cfg.router.serverMac cfg.router.serverIp arp.sha
        arp.senderIp with
    | some reply => transmitFrame cfg port (.frame reply)
    | none => pure ()
  else pure ()

/-- `handle_lan_arp`; `false` is a failed assertion. -/
def handleLanArp (port : PortInfo) (frame : Bytes) : Program Datapath Bool :=
  match parseArp frame with
  | none => pure true
  | some (eth, arp) => do
    reserve arp.senderIp
    if ← releaseStale arp then
      learnArp now .lan port arp.senderIp arp.sha
      if arp.targetIp ≠ Ipv4Addr.unspecified then learnArp now .lan port arp.targetIp arp.tha
      answerArp cfg port frame eth arp
      pure true
    else pure false

/-- `DhcpServer::assign`. -/
def assign (mac : MacAddr) : Program Datapath (Option Ipv4Addr) := do
  match ← lookupLease mac with
  | some ip => pure (some ip)
  | none =>
    match (← take 1).bind (·.head?) with
    | none => pure none
    | some ip => do
      insertLease mac ip
      pure (some ip)

/-- `DhcpServer::handle`: the reply, if there is one, and whether the assertions held. -/
def handleDhcp (view : DhcpView) : Program Datapath (Option Reply × Bool) :=
  let mac := view.header.clientMac
  match view.messageType with
  | some .discover => do return ((← assign mac).map view.offer, true)
  | some .request =>
    if view.selectsOther cfg.dhcp then pure (none, true)
    else do return ((← assign mac).map view.ackOrNak, true)
  | some .release | some .decline => do
    match ← removeLease mac with
    | none => pure (none, true)
    | some ip => return (none, ← release ip)
  | _ => pure (none, true)

def lanEgressNat (m : Mbuf) : Program Datapath Unit := do
  match ← read fun s ↦ s.firewall.gatewayIp with
  | none => free m.id
  | some gateway =>
    if (← read fun s ↦ s.firewall.nat.wanIp) = Ipv4Addr.unspecified then free m.id
    else
      match parseTcpTuple m.data with
      | none => free m.id
      | some tup => do
        observeEgress tup now
        match ← translateOut m.data with
        | none => free m.id
        | some data =>
          match ← resolve .wan gateway { m with data } now with
          | .forward mac p =>
            transmitMbuf cfg.wan { p with data := setEthernet p.data cfg.wan.etherAddr mac }
          | .queued (some request) => transmitFrame cfg cfg.wan (.frame request)
          | .queued none => pure ()
          | .drop p => free p.id

/-- `handle_lan_ipv4`; `false` is a failed assertion. -/
def handleLanIpv4 (port : PortInfo) (header : EthernetHeader) (m : Mbuf) :
    Program Datapath Bool := do
  match parseDhcp m.data with
  | some view => do
    let (reply, ok) ← handleDhcp cfg view
    match reply with
    | some r => transmitFrame cfg port (.dhcpReply r)
    | none => pure ()
    free m.id
    pure ok
  | none =>
    if header.dst = cfg.router.serverMac then lanEgressNat cfg now m
    else if header.isBroadcast then do
      flood cfg (some port.portId) m.data
      free m.id
    else transmitToMacOrFloodExcept cfg header.dst m (some port.portId)
    pure true

/-- One frame of `drive_lan`; `false` is a failed assertion. -/
def lanFrame (port : PortInfo) (m : Mbuf) : Program Datapath Bool :=
  match parse m.data with
  | none => do
    free m.id
    pure true
  | some eth => do
    insertFdb eth.header.src port.portId
    if eth.isArp then
      let ok ← handleLanArp cfg now port m.data
      free m.id
      pure ok
    else if eth.isIpv4 then handleLanIpv4 cfg now port eth.header m
    else do
      free m.id
      pure true

/-- The rest of a burst, when its worker ends. -/
def leak (ms : List Mbuf) : Program Datapath Unit :=
  modify fun s ↦ { s with leaked := ms.map (·.id) ++ s.leaked }

def driveLan (port : PortInfo) : Program Datapath Bool := do
  let ms ← receive cfg lcore port
  eachUntil (lanFrame cfg now port) leak ms

/-! ### The WAN side -/

def handleWanArp (frame : Bytes) : Program Datapath Unit :=
  match parseArp frame with
  | none => pure ()
  | some (_, arp) => do
    if arp.senderIp ≠ Ipv4Addr.unspecified then learnArp now .wan cfg.wan arp.senderIp arp.sha
    if arp.targetIp ≠ Ipv4Addr.unspecified then learnArp now .wan cfg.wan arp.targetIp arp.tha

def wanIngressNat (m : Mbuf) : Program Datapath Unit :=
  match parseTcpTuple m.data with
  | none => free m.id
  | some tup => do
    match ← translateIn m.data with
    | none => free m.id
    | some (data, x) =>
      if ← checkIngress (tup.ingressKey x) tup.flags now then
        match cfg.lan.head? with
        | none => free m.id
        | some anyLan =>
          match ← resolve .lan x.dstIp { m with data } now with
          | .forward mac p =>
            transmitToMacOrFloodExcept cfg mac
              { p with data := setEthernet p.data anyLan.etherAddr mac } none
          | .queued (some request) => flood cfg none request
          | .queued none => pure ()
          | .drop p => free p.id
      else free m.id

/-- One frame of `drive_wan`. -/
def wanFrame (m : Mbuf) : Program Datapath Unit :=
  match parse m.data with
  | none => free m.id
  | some eth => do
    insertFdb eth.header.src cfg.wan.portId
    if eth.isArp then
      handleWanArp cfg now m.data
      free m.id
    else
      match parseDhcp m.data with
      | some view => do
        modify fun s ↦ { s with client := s.client.onReceive view }
        free m.id
      | none => if eth.isIpv4 then wanIngressNat cfg now m else free m.id

/-- The gateway of a lease that has just been bound, and a request for it. -/
def announceGateway (wanIp gw : Ipv4Addr) : Program Datapath Unit := do
  modify fun s ↦ s.setFirewall { s.firewall with gateway := gw }
  match ArpPacket.buildRequest ArpPacket.frameLen cfg.wan.etherAddr wanIp gw with
  | some request => transmitFrame cfg cfg.wan (.frame request)
  | none => pure ()

/-- The end of `drive_wan`. -/
def driveClient : Program Datapath Unit := do
  match ← read fun s ↦ s.client.boundIp with
  | some wanIp =>
    let old ← call fun s ↦ (s.bound, { s with bound := wanIp })
    if old ≠ wanIp then
      modify fun s ↦ s.setNeighbors ((s.neighbors .wan).setOurIp wanIp) .wan
      setWanIp wanIp
      match ← read fun s ↦ s.client.lease.bind (·.gateway) with
      | some gw => announceGateway cfg wanIp gw
      | none => pure ()
    else pure ()
  | none =>
    match ← call fun s ↦ (s.client.poll.2, { s with client := s.client.poll.1 }) with
    | some message => transmitFrame cfg cfg.wan (.dhcpMessage message)
    | none => pure ()

def driveWan : Program Datapath Unit := do
  let ms ← receive cfg lcore cfg.wan
  each (wanFrame cfg now) ms
  driveClient cfg

/-! ### The loop -/

/-- The sweep on behalf of one port. -/
def sweepPort (side : Segment) (port : PortInfo) : Program Datapath Unit := do
  let (requests, dropped) ← sweepNeighbors side now
  each (fun request ↦ transmitFrame cfg port (.frame request)) requests
  each (fun m ↦ free m.id) dropped

def maybeSweep : Program Datapath Unit := do
  let last ← read fun s ↦ s.lastSweepMs.toNat
  if last ≠ 0 ∧ now - last < App.sweepIntervalMs then pure ()
  else
    modify fun s ↦ { s with lastSweepMs := UInt32.ofNat (min now (2 ^ 32 - 1)) }
    sweepPort cfg now .wan cfg.wan
    each (sweepPort cfg now .lan) cfg.lan
    modify fun s ↦ s.setFirewall { s.firewall with conntrack := s.firewall.conntrack.sweep now }

/-- One turn of the loop in `AppCtx::run`. A failed assertion ends the worker, and requests a
shutdown. -/
def iteration : Program Datapath Unit := do
  if ← read fun s ↦ s.shutdown then pure ()
  else
    driveWan cfg lcore now
    if ← eachUntil (driveLan cfg lcore now) (fun _ ↦ pure ()) cfg.lan then
      if lcore = cfg.sweeperLcore then maybeSweep cfg now
    else modify fun s ↦ { s with shutdown := true }

end Handlers

/-! ### The environment -/

/-- What happens to the devices by itself. -/
inductive NicEvent
  | arrive (q : RxQueue) (frame : Bytes)
  | complete (id : MbufId)
  | reorder
  | oblige (allocates accepts : Bool)
  | signal

inductive NicStep (cfg : DatapathConfig) : Datapath → NicEvent → Datapath → Prop
  /-- A frame is received, in a buffer from the mempool of the port. -/
  | arrive {s : Datapath} {q : RxQueue} {frame : Bytes} {id : MbufId} (hfree : id ∈ s.nic.free)
      (hpool : id.pool = cfg.pool q.1) :
      NicStep cfg s (.arrive q frame) (s.setNic { s.nic with
        free := s.nic.free.erase id
        rx := s.nic.rx ++ [(q, ⟨id, frame⟩)]
        received := s.nic.received ++ [(q.1, frame)] })
  /-- A device is done with a buffer. -/
  | complete {s : Datapath} {id : MbufId} (htx : id ∈ s.nic.tx) :
      NicStep cfg s (.complete id) (s.setNic { s.nic with
        free := id :: s.nic.free
        tx := s.nic.tx.erase id })
  /-- Which buffer is allocated next is not known. -/
  | reorder {s : Datapath} {free : List MbufId} (hperm : free.Perm s.nic.free) :
      NicStep cfg s .reorder (s.setNic { s.nic with free })
  | oblige {s : Datapath} (allocates accepts : Bool) :
      NicStep cfg s (.oblige allocates accepts) (s.setNic { s.nic with allocates, accepts })
  /-- SIGINT or SIGTERM. -/
  | signal {s : Datapath} : NicStep cfg s .signal { s with shutdown := true }

/-- The devices take what they are given, the mempools of the ports have a buffer, and what was
received can be copied. -/
structure Obliging (cfg : DatapathConfig) (s : Datapath) : Prop where
  allocates : s.nic.allocates = true
  accepts : s.nic.accepts = true
  free : ∀ p ∈ cfg.wan :: cfg.lan, ∃ id ∈ s.nic.free, id.pool = cfg.pool p.portId
  short : ∀ x ∈ s.nic.rx, x.2.data.length ≤ tailroom

instance (cfg : DatapathConfig) (s : Datapath) : Decidable (s.Obliging cfg) :=
  decidable_of_iff (s.nic.allocates = true ∧ s.nic.accepts = true ∧
      (∀ p ∈ cfg.wan :: cfg.lan, ∃ id ∈ s.nic.free, id.pool = cfg.pool p.portId) ∧
      ∀ x ∈ s.nic.rx, x.2.data.length ≤ tailroom)
    ⟨fun ⟨h₁, h₂, h₃, h₄⟩ ↦ ⟨h₁, h₂, h₃, h₄⟩, fun ⟨h₁, h₂, h₃, h₄⟩ ↦ ⟨h₁, h₂, h₃, h₄⟩⟩

/-- The state after start-up, with all buffers in their mempools. -/
def boot (cfg : DatapathConfig) (dhcp : DhcpState) (nat : NatTable) (xid : UInt32)
    (mbufs : List MbufId) : Datapath where
  fdb := .new
  ports := .boot cfg.router cfg.wan.etherAddr dhcp
  firewall := ⟨ConnTrack.new, nat, Ipv4Addr.unspecified⟩
  client := .new cfg.wan.etherAddr xid
  bound := 0
  lastSweepMs := 0
  shutdown := false
  assigned := []
  nic := ⟨mbufs, [], [], [], [], true, true⟩
  leaked := []
  poolStuck := false

/-- **The workers of the router**: any number of them, each on an lcore, and each free to read any
time from the clock. -/
def system (cfg : DatapathConfig) {W : Type*} [DecidableEq W] (lcore : W → UInt32) :
    TransitionSystem ((W → Program Datapath Unit) × Datapath) (Turn W NicEvent Datapath) :=
  workers (fun w p ↦ ∃ now, p = iteration cfg (lcore w) now) (NicStep cfg)

end Datapath

end UserspaceRouter
