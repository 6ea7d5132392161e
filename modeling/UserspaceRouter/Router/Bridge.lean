import UserspaceRouter.Router.App

/-!
# The bridge

The LAN ports as one segment. The forwarding database holds, for every MAC, the port of the most
recent frame from it, LAN or WAN (`lookup_fdb_run`), and IPv4 is bridged by it as by a learning
bridge (`driveLan_of_ipv4`, `mem_transmit_iff`).

ARP is not. `handleLanArp` floods a broadcast request, answers what is asked of the router, and does
nothing more; it never looks into the forwarding database. So the unicast answer to a request that
was flooded is not passed on (`handleLanArp_unicast`).
-/

namespace UserspaceRouter

open TransitionSystem

/-! ### Where a frame is sent -/

namespace AppConfig

/-- The ids of the LAN ports. -/
def lanIds (cfg : AppConfig) : List PortId := cfg.lan.map (·.portId)

theorem mem_flood_iff {cfg : AppConfig} {exceptPort : Option PortId} {bytes : Bytes} {r : PortId}
    {payload : Payload} :
    (r, payload) ∈ cfg.flood exceptPort bytes ↔
      payload = .frame bytes ∧ r ∈ cfg.lanIds ∧ some r ≠ exceptPort := by
  simp only [flood, lanIds, List.mem_map, List.mem_filter, Prod.mk.injEq, decide_eq_true_eq]
  constructor
  · rintro ⟨p, ⟨hp, hne⟩, rfl, rfl⟩
    exact ⟨rfl, ⟨p, hp, rfl⟩, hne⟩
  · rintro ⟨rfl, ⟨p, hp, rfl⟩, hne⟩
    exact ⟨p, ⟨hp, hne⟩, rfl, rfl⟩

/-- A flood sends one copy on a port. -/
theorem nodup_flood (cfg : AppConfig) (exceptPort : Option PortId) (bytes : Bytes) :
    (cfg.flood exceptPort bytes).Nodup := by
  refine List.Nodup.of_map Prod.fst ?_
  rw [flood, List.map_map]
  exact cfg.nodup.sublist (List.filter_sublist.map _)

theorem lanPortById_cases (cfg : AppConfig) (portId : PortId) :
    (∃ out, cfg.lanPortById portId = some out ∧ out.portId = portId ∧ portId ∈ cfg.lanIds) ∨
      cfg.lanPortById portId = none ∧ portId ∉ cfg.lanIds := by
  rcases hfind : cfg.lanPortById portId with - | out
  · refine Or.inr ⟨rfl, fun hmem ↦ ?_⟩
    obtain ⟨p, hp, rfl⟩ := List.mem_map.1 hmem
    exact absurd (List.find?_eq_none.1 hfind p hp) (by simp)
  · have hid : out.portId = portId := by simpa using List.find?_some hfind
    exact Or.inl ⟨out, rfl, hid, hid ▸ List.mem_map_of_mem (List.mem_of_find?_eq_some hfind)⟩

/-- **Where a frame to a MAC is sent**: on the LAN port it was learned on, or on all of them if it
was not learned, the excepted one never. -/
theorem mem_transmit_iff {cfg : AppConfig} {fdb : Fdb} {mac : MacAddr} {packet : Bytes}
    {exceptPort : Option PortId} {r : PortId} {payload : Payload} :
    (r, payload) ∈ cfg.transmitToMacOrFloodExcept fdb mac packet exceptPort ↔
      payload = .frame packet ∧ r ∈ cfg.lanIds ∧ some r ≠ exceptPort ∧
        (fdb.lookup mac = none ∨ fdb.lookup mac = some r) := by
  unfold transmitToMacOrFloodExcept
  rcases hmac : fdb.lookup mac with - | port
  · simp [mem_flood_iff]
  · have hport : some port = none ∨ some port = some r ↔ r = port := by
      simp only [reduceCtorEq, false_or, Option.some.injEq]
      exact eq_comm
    rw [hport]
    simp only
    by_cases hne : some port ≠ exceptPort
    · rw [if_pos hne]
      obtain ⟨out, hout, rfl, hmem⟩ | ⟨hout, hnot⟩ := cfg.lanPortById_cases port
      · rw [hout]
        simp only [List.mem_singleton, Prod.mk.injEq]
        constructor
        · rintro ⟨rfl, rfl⟩
          exact ⟨rfl, hmem, hne, rfl⟩
        · rintro ⟨rfl, -, -, rfl⟩
          exact ⟨rfl, rfl⟩
      · rw [hout]
        refine iff_of_false List.not_mem_nil ?_
        rintro ⟨-, hr, -, rfl⟩
        exact hnot hr
    · rw [if_neg hne]
      refine iff_of_false List.not_mem_nil ?_
      rintro ⟨-, -, hr, rfl⟩
      exact hne hr

theorem nodup_transmit (cfg : AppConfig) (fdb : Fdb) (mac : MacAddr) (packet : Bytes)
    (exceptPort : Option PortId) :
    (cfg.transmitToMacOrFloodExcept fdb mac packet exceptPort).Nodup := by
  unfold transmitToMacOrFloodExcept
  rcases fdb.lookup mac with - | port
  · exact cfg.nodup_flood exceptPort packet
  · simp only
    split_ifs
    · rcases cfg.lanPortById port with - | out
      · exact List.nodup_nil
      · exact List.nodup_singleton _
    · exact List.nodup_nil

end AppConfig

namespace App

/-! ### What the forwarding database knows -/

variable {cfg : AppConfig}

/-- The port of the most recent frame with this source. -/
def lastSeen (events : List (Event cfg)) (mac : MacAddr) : Option PortId :=
  (sightings events).reverse.lookup mac

/-- **The forwarding database after a run** holds the port of every MAC's most recent frame. -/
theorem lookup_fdb_run {dhcp : DhcpState} {nat : NatTable} {xid : UInt32}
    {tr : List (Event cfg × List Transmission)} {s : App}
    (hrun : (system cfg).Run (boot cfg dhcp nat xid) tr s) (mac : MacAddr) :
    s.fdb.lookup mac = lastSeen (tr.map (·.1)) mac := by
  rw [(refines_run hrun).fdb_eq]
  exact Fdb.lookup_learnAll _ mac

/-! ### IPv4 -/

/-- The bridge sends a frame for `dst`, received on `p`, on the LAN port `r`: another port, and the
one the destination was last seen on, unless the frame is a broadcast or the destination was never
seen. -/
def Bridged (cfg : AppConfig) (p : PortId) (dst : MacAddr) (seen : Option PortId) (r : PortId) :
    Prop :=
  r ∈ cfg.lanIds ∧ r ≠ p ∧ (dst = .broadcast ∨ seen = none ∨ seen = some r)

/-- What a LAN port does with an IPv4 frame that is neither DHCP nor for the router. -/
theorem driveLan_of_ipv4 (s : App) (port : PortInfo) {frame : Bytes} {eth : EthernetView}
    (hparse : parse frame = some eth) (hip : eth.isIpv4 = true) (hdhcp : parseDhcp frame = none)
    (hdst : eth.header.dst ≠ cfg.router.serverMac) (now : Tick) :
    s.driveLan cfg port frame now =
      some (s.learn eth.header.src port.portId,
        if eth.header.isBroadcast then cfg.flood (some port.portId) frame
        else cfg.transmitToMacOrFloodExcept (s.learn eth.header.src port.portId).fdb eth.header.dst
          frame (some port.portId)) := by
  have harp : ¬eth.isArp = true := by
    have htype : eth.ethertype = Ethertype.ipv4 := eq_of_beq hip
    simp [EthernetView.isArp, htype, Ethertype.ipv4, Ethertype.arp]
  simp only [driveLan, hparse, if_neg harp, if_pos hip, handleLanIpv4, hdhcp, if_neg hdst]
  split_ifs <;> rfl

/-- **IPv4 is bridged as by a learning bridge.** In every run of the router from start-up, whenever
a LAN port receives an IPv4 frame that is not DHCP and not for the router's MAC: the frame is sent
with its bytes unchanged, once on each LAN port that it is bridged to, by the port its destination
was last seen on, this frame included; and nothing else is sent. In particular nothing is sent on
the port it came from or on the WAN port. -/
theorem bridges_ipv4 {dhcp : DhcpState} {nat : NatTable} {xid : UInt32}
    {tr : List (Event cfg × List Transmission)} {s : App}
    (hrun : (system cfg).Run (boot cfg dhcp nat xid) tr s) (port : {p // p ∈ cfg.lan})
    {frame : Bytes} {eth : EthernetView} (hparse : parse frame = some eth)
    (hip : eth.isIpv4 = true) (hdhcp : parseDhcp frame = none)
    (hdst : eth.header.dst ≠ cfg.router.serverMac) (now : Tick) :
    ∃ t out, (system cfg).step s (.lanFrame port frame now, out) t ∧ out.Nodup ∧
      (∀ r payload, (r, payload) ∈ out ↔ payload = .frame frame ∧
        Bridged cfg port.1.portId eth.header.dst
          (lastSeen (tr.map (·.1) ++ [.lanFrame port frame now]) eth.header.dst) r) ∧
      ∀ payload, (port.1.portId, payload) ∉ out ∧ (cfg.wan.portId, payload) ∉ out := by
  have hdrive := driveLan_of_ipv4 s port.1 hparse hip hdhcp hdst now
  set out := if eth.header.isBroadcast then cfg.flood (some port.1.portId) frame
    else cfg.transmitToMacOrFloodExcept (s.learn eth.header.src port.1.portId).fdb eth.header.dst
      frame (some port.1.portId) with hout
  have hstep : (system cfg).step s (.lanFrame port frame now, out)
      (s.learn eth.header.src port.1.portId) := hdrive
  have hseen := lookup_fdb_run (hrun.snoc hstep) eth.header.dst
  rw [List.map_append] at hseen
  have hmem : ∀ r payload, (r, payload) ∈ out ↔ payload = .frame frame ∧
      Bridged cfg port.1.portId eth.header.dst
        (lastSeen (tr.map (·.1) ++ [.lanFrame port frame now]) eth.header.dst) r := by
    intro r payload
    have hbroadcast : eth.header.isBroadcast = true ↔ eth.header.dst = .broadcast := beq_iff_eq
    rw [hout]
    split_ifs with hb
    · rw [AppConfig.mem_flood_iff, Bridged]
      simp [hbroadcast.1 hb]
    · rw [AppConfig.mem_transmit_iff, hseen, Bridged]
      simp [mt hbroadcast.2 hb]
  refine ⟨_, out, hstep, ?_, hmem, fun payload ↦ ⟨fun hr ↦ ?_, fun hr ↦ ?_⟩⟩
  · rw [hout]
    split_ifs
    · exact cfg.nodup_flood _ _
    · exact cfg.nodup_transmit _ _ _ _
  · obtain ⟨-, -, hne, -⟩ := (hmem _ _).1 hr
    exact hne rfl
  · obtain ⟨-, hlan, -⟩ := (hmem _ _).1 hr
    exact cfg.wan_notMem hlan

/-- Two LAN ports, 1 and 2, and the WAN port 0. -/
def sampleConfig : AppConfig where
  router := Ports.sampleRouter
  wan := ⟨0, sampleMac 0xf0⟩
  lan := [⟨1, sampleMac 0xf1⟩, ⟨2, sampleMac 0xf2⟩]
  nodup := by decide
  wan_notMem := by decide

def samplePort₁ : {p // p ∈ sampleConfig.lan} := ⟨⟨1, sampleMac 0xf1⟩, by decide⟩

def samplePort₂ : {p // p ∈ sampleConfig.lan} := ⟨⟨2, sampleMac 0xf2⟩, by decide⟩

def sampleBoot : App := boot sampleConfig Ports.sampleDhcp ⟨0, 40000, 40010, 40000, ∅, ∅⟩ 1

/-- The host `10.0.0.2`, on port 2, asks for `10.0.0.1`. -/
def sampleQuestion : Event sampleConfig :=
  .lanFrame samplePort₂ (Ports.sampleArp 2 0x0a000002 0x0a000001) 0

/-- A frame to the host that asked is sent on its port, and nowhere else. -/
theorem bridges_ipv4_sampleTcp :
    ∃ tr s t out, (system sampleConfig).Run sampleBoot tr s ∧
      (system sampleConfig).step s
        (.lanFrame samplePort₁ (Firewall.sampleTcp 1 TcpFlag.syn) 1, out) t ∧
      out.Nodup ∧ ∀ r payload, (r, payload) ∈ out ↔
        payload = .frame (Firewall.sampleTcp 1 TcpFlag.syn) ∧ r = samplePort₂.1.portId := by
  have hfirst : (sampleBoot.step sampleConfig sampleQuestion).isSome = true := by decide +kernel
  obtain ⟨⟨s, out₁⟩, hstep⟩ := Option.isSome_iff_exists.1 hfirst
  have hrun : (system sampleConfig).Run sampleBoot [(sampleQuestion, out₁)] s := .single hstep
  have hparse : parse (Firewall.sampleTcp 1 TcpFlag.syn) =
      some ⟨Firewall.sampleTcp 1 TcpFlag.syn, 0, Ethertype.ipv4, 14⟩ := rfl
  have hdst : (⟨Firewall.sampleTcp 1 TcpFlag.syn, 0, Ethertype.ipv4, 14⟩ :
      EthernetView).header.dst = sampleMac 2 := by decide +kernel
  have hdhcp : (parseDhcp (Firewall.sampleTcp 1 TcpFlag.syn)).isNone = true := by decide +kernel
  obtain ⟨t, out, hst, hnodup, hmem, -⟩ := bridges_ipv4 hrun samplePort₁ hparse (by decide)
    (Option.isNone_iff_eq_none.1 hdhcp) (by rw [hdst]; decide) 1
  have hseen : lastSeen ([sampleQuestion] ++
      [.lanFrame samplePort₁ (Firewall.sampleTcp 1 TcpFlag.syn) 1]) (sampleMac 2) =
      some samplePort₂.1.portId := by decide +kernel
  rw [hdst] at hmem
  refine ⟨_, s, t, out, hrun, hst, hnodup, fun r payload ↦ (hmem r payload).trans ?_⟩
  refine and_congr_right fun _ ↦ ⟨?_, ?_⟩
  · rintro ⟨-, -, hbroadcast | hnone | hsome⟩
    · exact absurd hbroadcast (by decide)
    · exact absurd (hnone.symm.trans hseen) (by simp)
    · exact Option.some.inj (hsome.symm.trans hseen)
  · rintro rfl
    exact ⟨by decide, by decide, Or.inr (Or.inr hseen)⟩

/-! ### ARP -/

theorem parse_of_parseArp {frame : Bytes} {header : EthernetHeader} {arp : ArpPacket}
    (h : parseArp frame = some (header, arp)) :
    ∃ eth, parse frame = some eth ∧ eth.isArp = true ∧ eth.header = header := by
  simp only [parseArp, Option.bind_eq_bind, Option.bind_eq_some_iff] at h
  obtain ⟨eth, heth, a, ha, heq⟩ := h
  unfold EthernetView.arp at ha
  split_ifs at ha with harp
  exact ⟨eth, heth, harp, (Prod.mk.inj (Option.some.inj heq)).1⟩

/-- An ARP frame that is neither a broadcast nor about the router is neither flooded nor
answered. -/
theorem handleLanArp_unicast {P : Type*} {router : RouterId} {s t : LanState P} {frame : Bytes}
    {now : Tick} {out : ArpOutput P} {header : EthernetHeader} {arp : ArpPacket}
    (hparse : parseArp frame = some (header, arp)) (hunicast : header.dst ≠ .broadcast)
    (htarget : arp.targetIp ≠ router.serverIp)
    (h : s.handleLanArp router frame now = some (t, out)) :
    out.flood = false ∧ out.reply = none := by
  simp only [LanState.handleLanArp, hparse, Option.map_eq_some_iff] at h
  obtain ⟨pool, -, heq⟩ := h
  obtain ⟨-, rfl⟩ := Prod.mk.inj heq
  have hbroadcast : header.isBroadcast = false := beq_eq_false_iff_ne.2 hunicast
  simp [hbroadcast, htarget]

/-- Packets that were waiting are sent on the port that learned where to. -/
theorem port_of_mem_transmitDrained {port : PortInfo} {drained : List (MacAddr × List Bytes)}
    {x : Transmission} (h : x ∈ port.transmitDrained drained) : x.1 = port.portId := by
  obtain ⟨d, -, hx⟩ := List.mem_flatMap.1 h
  obtain ⟨q, -, rfl⟩ := List.mem_map.1 hx
  rfl

/-- **A unicast ARP frame is not bridged.** In every run of the router from start-up, for every ARP
frame received on a LAN port that is not a broadcast and whose target is not the router: nothing is
sent on another LAN port, though it be the one its destination was last seen on. -/
theorem unicast_arp_not_bridged (cfg : AppConfig) (dhcp : DhcpState) (nat : NatTable)
    (xid : UInt32) :
    ∀ tr s, (system cfg).Run (boot cfg dhcp nat xid) tr s →
      ∀ port q : {p // p ∈ cfg.lan}, ∀ frame header arp now,
        parseArp frame = some (header, arp) → header.dst ≠ .broadcast →
        arp.targetIp ≠ cfg.router.serverIp → q.1.portId ≠ port.1.portId →
        lastSeen (tr.map (·.1)) header.dst = some q.1.portId →
        ∀ t out, (system cfg).step s (.lanFrame port frame now, out) t →
          ∀ payload, (q.1.portId, payload) ∉ out := by
  intro tr s _ port q frame header arp now hparse hunicast htarget hne _ t out hst payload hmem
  obtain ⟨eth, heth, harp, rfl⟩ := parse_of_parseArp hparse
  have hstep : s.driveLan cfg port.1 frame now = some (t, out) := hst
  simp only [driveLan, heth, if_pos harp] at hstep
  obtain ⟨⟨lan, o⟩, hlan, heq⟩ := Option.map_eq_some_iff.1 hstep
  obtain ⟨-, rfl⟩ := Prod.mk.inj heq
  obtain ⟨hflood, hreply⟩ := handleLanArp_unicast hparse hunicast htarget hlan
  -- what is left are packets that were waiting, and they go out on the port itself
  simp only [hflood, hreply, Bool.false_eq_true, if_false, Option.toList_none, List.map_nil,
    List.append_nil] at hmem
  exact hne (port_of_mem_transmitDrained hmem)

/-- The answer of the host `10.0.0.1`. -/
def sampleAnswer : Bytes :=
  ArpPacket.frame (sampleMac 2) (sampleMac 1)
    (.mk' ArpPacket.reply (sampleMac 1) 0x0a000001 (sampleMac 2) 0x0a000002)

/-- The request is flooded to port 1; the answer, received there, is sent nowhere. -/
theorem exists_run_sampleQuestion :
    ∃ s t out, (system sampleConfig).Run sampleBoot
        [(sampleQuestion, [(1, .frame (Ports.sampleArp 2 0x0a000002 0x0a000001))])] s ∧
      (system sampleConfig).step s (.lanFrame samplePort₁ sampleAnswer 1, out) t ∧ out = [] := by
  have hcalls : ((sampleBoot.step sampleConfig sampleQuestion).bind fun p ↦
      (p.1.step sampleConfig (.lanFrame samplePort₁ sampleAnswer 1)).map fun q ↦ (p.2, q.2)) =
      some ([(1, .frame (Ports.sampleArp 2 0x0a000002 0x0a000001))], []) := by decide +kernel
  obtain ⟨⟨s, out₁⟩, hfirst, hrest⟩ := Option.bind_eq_some_iff.1 hcalls
  obtain ⟨⟨t, out⟩, hsecond, heq⟩ := Option.map_eq_some_iff.1 hrest
  obtain ⟨rfl, rfl⟩ := Prod.mk.inj heq
  exact ⟨s, t, [], .single hfirst, hsecond, rfl⟩

/-- The answer is not passed on to the port of the host that asked. -/
theorem unicast_arp_not_bridged_sampleAnswer :
    ∃ tr s t out, (system sampleConfig).Run sampleBoot tr s ∧
      (system sampleConfig).step s (.lanFrame samplePort₁ sampleAnswer 1, out) t ∧
      lastSeen (tr.map (·.1)) (sampleMac 2) = some samplePort₂.1.portId ∧
      (samplePort₂.1.portId, .frame sampleAnswer) ∉ out := by
  obtain ⟨s, t, out, hrun, hst, -⟩ := exists_run_sampleQuestion
  have hparse : parseArp sampleAnswer = some (⟨sampleMac 2, sampleMac 1, Ethertype.arp⟩,
      .mk' ArpPacket.reply (sampleMac 1) 0x0a000001 (sampleMac 2) 0x0a000002) := by decide +kernel
  have hseen : lastSeen [sampleQuestion] (sampleMac 2) = some samplePort₂.1.portId := by
    decide +kernel
  refine ⟨_, s, t, out, hrun, hst, hseen, ?_⟩
  exact unicast_arp_not_bridged sampleConfig _ _ _ _ _ hrun samplePort₁ samplePort₂ _ _ _ _ hparse
    (by decide) (by decide) (by decide) hseen t out hst _

/-- A host asks for a host on another port: the request is flooded, and the answer, a unicast ARP
frame to the MAC last seen on the port of the host that asked, is lost. -/
theorem arp_answer_is_lost :
    ∃ tr s t out header arp, (system sampleConfig).Run sampleBoot tr s ∧
      parseArp sampleAnswer = some (header, arp) ∧ header.dst ≠ .broadcast ∧
      arp.targetIp ≠ sampleConfig.router.serverIp ∧
      lastSeen (tr.map (·.1)) header.dst = some samplePort₂.1.portId ∧
      samplePort₂.1.portId ≠ samplePort₁.1.portId ∧
      (system sampleConfig).step s (.lanFrame samplePort₁ sampleAnswer 1, out) t ∧
      (samplePort₂.1.portId, .frame sampleAnswer) ∉ out := by
  obtain ⟨s, t, out, hrun, hst, rfl⟩ := exists_run_sampleQuestion
  exact ⟨_, s, t, [], ⟨sampleMac 2, sampleMac 1, Ethertype.arp⟩,
    .mk' ArpPacket.reply (sampleMac 1) 0x0a000001 (sampleMac 2) 0x0a000002, hrun,
    by decide +kernel, by decide, by decide, by decide +kernel, by decide, hst, List.not_mem_nil⟩

end App

end UserspaceRouter
