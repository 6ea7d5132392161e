import Mathlib.Logic.Relation
import UserspaceRouter.Router.App
import UserspaceRouter.Router.NeighborQueues

/-!
# What an event changes

The handlers of the router change its state in few ways: the forwarding database, the firewall, the
DHCP client and the DHCP state are replaced, and the neighbor tables are called. `Edit` is one such
change, and every event is a sequence of them, followed by the tick of the sweep if it is one
(`edits_step`). A property that no edit changes is then one that no event changes, and nothing needs
to be known of the handlers for that.

Of the calls on the neighbor tables one thing more is recorded. The packets that are given to
`resolve` have come through the firewall, and so they are IPv4 (`l3Type_lanEgressNat`,
`l3Type_wanIngressNat`).
-/

namespace UserspaceRouter

open TransitionSystem

/-! ### The network type of a frame -/

/-- The type of what a frame carries, past a VLAN tag. -/
def l3Type (frame : Bytes) : UInt16 :=
  if u16At frame 12 = Ethertype.vlan then u16At frame 16 else u16At frame 12

theorem ethertype_of_parse {frame : Bytes} {eth : EthernetView} (h : parse frame = some eth) :
    eth.ethertype = l3Type frame := by
  simp only [parse, EthernetView.parse, EthernetView.parseAt, Option.bind_eq_bind,
    Option.bind_eq_some_iff] at h
  obtain ⟨eh, heh, ⟨ty, l3⟩, hl3, h⟩ := h
  obtain ⟨-, rfl⟩ := headerAt_eq_some_iff.1 heh
  split_ifs at h
  obtain rfl := Option.some.inj h
  show ty = l3Type frame
  have hread : (Pod.readAt frame 0 : EthernetHeader).ethertype = u16At frame 12 := rfl
  rw [EthernetView.l3Of, hread] at hl3
  rw [l3Type]
  split_ifs at hl3 ⊢ with hvlan
  · obtain ⟨tag, htag, heq⟩ := Option.map_eq_some_iff.1 hl3
    obtain ⟨-, rfl⟩ := headerAt_eq_some_iff.1 htag
    exact (Prod.mk.inj heq).1.symm
  · exact (Prod.mk.inj (Option.some.inj hl3)).1.symm

theorem l3Type_congr {frame frame' : Bytes}
    (h : ∀ i, 12 ≤ i → i < 18 → byteAt frame i = byteAt frame' i) :
    l3Type frame = l3Type frame' := by
  have htype : u16At frame 12 = u16At frame' 12 :=
    u16At_congr fun i hi hi' ↦ h i (by omega) (by omega)
  have hinner : u16At frame 16 = u16At frame' 16 :=
    u16At_congr fun i hi hi' ↦ h i (by omega) (by omega)
  rw [l3Type, l3Type, htype, hinner]

/-- A packet that is translated is IPv4, and stays it. -/
theorem l3Type_rewrite {side : Side} {frame : Bytes} {c : Classified}
    (h : classify side frame = some c) (newIp : Ipv4Addr) (newPort : UInt16) :
    l3Type (rewrite side c newIp newPort frame) = Ethertype.ipv4 := by
  obtain ⟨eth, ip, hviews⟩ := classify_inv h
  have hipv4 := hviews.ipv4_eq
  unfold EthernetView.ipv4 at hipv4
  split_ifs at hipv4 with his
  have htype : eth.ethertype = Ethertype.ipv4 := eq_of_beq his
  rw [ethertype_of_parse hviews.parse_eq] at htype
  rw [← htype]
  obtain ⟨hip, hl4, -⟩ := hviews.offsets
  have hside := ipOffset_portOffset side
  have hipc : ipCksumOffset = 10 := rfl
  refine l3Type_congr fun i hi hi' ↦ (hviews.rewrites newIp newPort).unchanged i ?_
  -- all that is written is behind the Ethernet header
  refine ⟨?_, ?_, ?_, ?_⟩ <;> omega

namespace Firewall

/-- What goes out to the gateway is IPv4. -/
theorem l3Type_lanEgressNat {f g : Firewall} {frame packet : Bytes} {now : Tick} {gw : Ipv4Addr}
    (h : f.lanEgressNat frame now = (g, some (gw, packet))) : l3Type packet = Ethertype.ipv4 := by
  unfold lanEgressNat at h
  split at h
  · exact nomatch (Prod.mk.inj h).2
  split_ifs at h with hwan
  · exact nomatch (Prod.mk.inj h).2
  split at h
  · exact nomatch (Prod.mk.inj h).2
  rcases htranslate : translateEgress frame f.nat with ⟨frame', nat, xlate⟩
  rw [htranslate] at h
  obtain ⟨x, rfl, heq⟩ := Option.map_eq_some_iff.1 (Prod.mk.inj h).2
  obtain ⟨-, rfl⟩ := Prod.mk.inj heq
  obtain ⟨c, hc, -, hrewrite⟩ := translateEgress_eq_some (by rw [htranslate])
  rw [(Prod.mk.inj (htranslate.symm.trans hrewrite)).1]
  exact l3Type_rewrite hc _ _

/-- What comes in for a host is IPv4. -/
theorem l3Type_wanIngressNat {f g : Firewall} {frame packet : Bytes} {now : Tick} {ip : Ipv4Addr}
    (h : f.wanIngressNat frame now = (g, some (ip, packet))) : l3Type packet = Ethertype.ipv4 := by
  unfold wanIngressNat at h
  split at h
  · exact nomatch (Prod.mk.inj h).2
  split at h
  · exact nomatch (Prod.mk.inj h).2
  rename_i frame' x htranslate
  obtain ⟨c, hc, -, hrewrite⟩ := translateIngress_eq_some (congrArg Prod.snd htranslate)
  have hout := (Prod.mk.inj h).2
  split_ifs at hout
  obtain ⟨-, rfl⟩ := Prod.mk.inj (Option.some.inj hout)
  rw [(Prod.mk.inj (htranslate.symm.trans hrewrite)).1]
  exact l3Type_rewrite hc _ _

end Firewall

/-! ### Edits -/

/-- If the call gives a packet to the table, it is IPv4. -/
def NeighborCall.GivesIpv4 : NeighborCall Bytes → Prop
  | .resolve _ packet _ _ => l3Type packet = Ethertype.ipv4
  | _ => True

namespace App

/-- Replace the neighbor table of the LAN. -/
def setLanNeighbors (s : App) (t : NeighborTable Bytes) : App :=
  { s with ports := { s.ports with lan := { s.ports.lan with neighbors := t } } }

/-- Replace the neighbor table of the WAN port. -/
def setWanNeighbors (s : App) (t : NeighborTable Bytes) : App :=
  { s with ports := { s.ports with wan := t } }

/-- One change of the state, other than the tick of the last sweep. -/
inductive Edit : App → App → Prop
  | fdb (s : App) (fdb : Fdb) : Edit s { s with fdb }
  | firewall (s : App) (firewall : Firewall) : Edit s { s with firewall }
  | client (s : App) (client : DhcpClient) (bound : Ipv4Addr) : Edit s { s with client, bound }
  | dhcp (s : App) (dhcp : DhcpState) :
      Edit s { s with ports := { s.ports with lan := { s.ports.lan with dhcp } } }
  | lanCall (s : App) {c : NeighborCall Bytes} (hc : c.GivesIpv4) :
      Edit s (s.setLanNeighbors (s.ports.lan.neighbors.call c).1)
  | wanCall (s : App) {c : NeighborCall Bytes} (hc : c.GivesIpv4) :
      Edit s (s.setWanNeighbors (s.ports.wan.call c).1)

/-- Any number of changes. -/
abbrev Edits : App → App → Prop := Relation.ReflTransGen Edit

/-- What every edit keeps, any number of them keeps. -/
theorem Edits.keeps {I : App → Prop} (hedit : ∀ s t, Edit s t → I s → I t) {s t : App}
    (h : Edits s t) (hs : I s) : I t := by
  induction h with
  | refl => exact hs
  | tail _ hst ih => exact hedit _ _ hst ih

/-! ### The handlers -/

variable {cfg : AppConfig}

theorem edits_lanLearnIf (s : App) (c : Bool) (ip : Ipv4Addr) (mac : MacAddr) (now : Tick) :
    Edits s (s.setLanNeighbors (s.ports.lan.neighbors.learnIf c ip mac now).1) := by
  unfold NeighborTable.learnIf
  split_ifs
  · exact .single (.lanCall s (c := .onArp ip mac now) trivial)
  · exact .refl

theorem edits_wanLearnIf (s : App) (c : Bool) (ip : Ipv4Addr) (mac : MacAddr) (now : Tick) :
    Edits s (s.setWanNeighbors (s.ports.wan.learnIf c ip mac now).1) := by
  unfold NeighborTable.learnIf
  split_ifs
  · exact .single (.wanCall s (c := .onArp ip mac now) trivial)
  · exact .refl

theorem edits_lanLearn (s : App) (sender : Bool) (arp : ArpPacket) (now : Tick) :
    Edits s (s.setLanNeighbors (s.ports.lan.neighbors.learn sender arp now).1) :=
  (edits_lanLearnIf s _ _ _ now).trans (edits_lanLearnIf _ _ _ _ now)

theorem edits_wanLearn (s : App) (sender : Bool) (arp : ArpPacket) (now : Tick) :
    Edits s (s.setWanNeighbors (s.ports.wan.learn sender arp now).1) :=
  (edits_wanLearnIf s _ _ _ now).trans (edits_wanLearnIf _ _ _ _ now)

theorem edits_lanEgressNat (s : App) (frame : Bytes) (now : Tick) :
    Edits s (s.lanEgressNat cfg frame now).1 := by
  unfold lanEgressNat
  rcases hout : s.firewall.lanEgressNat frame now with ⟨firewall, - | ⟨gateway, packet⟩⟩
  · exact .single (.firewall s firewall)
  · refine .tail (.single (.firewall s firewall)) ?_
    exact .wanCall _ (c := .resolve gateway packet ArpPacket.frameLen now)
      (Firewall.l3Type_lanEgressNat hout)

theorem edits_wanIngressNat (s : App) (frame : Bytes) (now : Tick) :
    Edits s (s.wanIngressNat cfg frame now).1 := by
  unfold wanIngressNat
  rcases hout : s.firewall.wanIngressNat frame now with ⟨firewall, - | ⟨dstIp, packet⟩⟩
  · exact .single (.firewall s firewall)
  rcases cfg.lan.head? with - | anyLan
  · exact .single (.firewall s firewall)
  · refine .tail (.single (.firewall s firewall)) ?_
    exact .lanCall _ (c := .resolve dstIp packet ArpPacket.frameLen now)
      (Firewall.l3Type_wanIngressNat hout)

theorem edits_handleLanArp {s t : App} {port : PortInfo} {frame : Bytes} {now : Tick}
    {out : List Transmission} (h : s.handleLanArp cfg port frame now = some (t, out)) :
    Edits s t := by
  obtain ⟨⟨lan, o⟩, hlan, heq⟩ := Option.map_eq_some_iff.1 h
  obtain ⟨rfl, -⟩ := Prod.mk.inj heq
  rcases hparse : parseArp frame with - | ⟨eth, arp⟩
  · simp only [LanState.handleLanArp, hparse] at hlan
    obtain ⟨rfl, -⟩ := Prod.mk.inj (Option.some.inj hlan)
    exact .refl
  · obtain ⟨hneighbors, -⟩ := Ports.handleLanArp_eq_some hparse hlan
    have heq : { s with ports := { s.ports with lan } } =
        setLanNeighbors { s with ports := { s.ports with lan := { s.ports.lan with
          dhcp := lan.dhcp } } } (s.ports.lan.neighbors.learn true arp now).1 := by
      rw [← hneighbors]
      rfl
    rw [heq]
    exact .trans (.single (.dhcp s lan.dhcp)) (edits_lanLearn _ true arp now)

theorem edits_handleLanIpv4 {s t : App} {port : PortInfo} {header : EthernetHeader} {frame : Bytes}
    {now : Tick} {out : List Transmission}
    (h : s.handleLanIpv4 cfg port header frame now = some (t, out)) : Edits s t := by
  rcases hdhcp : parseDhcp frame with - | view
  · simp only [handleLanIpv4, hdhcp] at h
    split_ifs at h
    · obtain rfl : (s.lanEgressNat cfg frame now).1 = t := by rw [Option.some.inj h]
      exact edits_lanEgressNat s frame now
    · obtain ⟨rfl, -⟩ := Prod.mk.inj (Option.some.inj h)
      exact .refl
    · obtain ⟨rfl, -⟩ := Prod.mk.inj (Option.some.inj h)
      exact .refl
  · simp only [handleLanIpv4, hdhcp] at h
    obtain ⟨⟨dhcp, reply⟩, -, heq⟩ := Option.map_eq_some_iff.1 h
    obtain ⟨rfl, -⟩ := Prod.mk.inj heq
    exact .single (.dhcp s dhcp)

theorem edits_driveLan {s t : App} {port : PortInfo} {frame : Bytes} {now : Tick}
    {out : List Transmission} (h : s.driveLan cfg port frame now = some (t, out)) : Edits s t := by
  rcases hparse : parse frame with - | eth
  · simp only [driveLan, hparse] at h
    obtain ⟨rfl, -⟩ := Prod.mk.inj (Option.some.inj h)
    exact .refl
  simp only [driveLan, hparse] at h
  refine .head (.fdb s (s.learn eth.header.src port.portId).fdb) ?_
  split_ifs at h
  · exact edits_handleLanArp h
  · exact edits_handleLanIpv4 h
  · obtain ⟨rfl, -⟩ := Prod.mk.inj (Option.some.inj h)
    exact .refl

theorem edits_handleWanArp (s : App) (frame : Bytes) (now : Tick) :
    Edits s (s.setWanNeighbors (handleWanArp s.ports.wan frame now).1) := by
  unfold handleWanArp
  rcases parseArp frame with - | ⟨eth, arp⟩
  · exact .refl
  · exact edits_wanLearn s _ arp now

theorem edits_driveWan (s : App) (frame : Bytes) (now : Tick) :
    Edits s (s.driveWan cfg frame now).1 := by
  unfold driveWan
  rcases parse frame with - | eth
  · exact .refl
  refine .head (.fdb s (s.learn eth.header.src cfg.wan.portId).fdb) ?_
  by_cases harp : eth.isArp = true
  · simp only [if_pos harp]
    exact edits_handleWanArp _ frame now
  · simp only [if_neg harp]
    rcases parseDhcp frame with - | view
    · by_cases hip : eth.isIpv4 = true
      · simp only [if_pos hip]
        exact edits_wanIngressNat _ frame now
      · simp only [if_neg hip]
        exact .refl
    · exact .single (.client _ (s.client.onReceive view) s.bound)

theorem edits_driveClient (s : App) : Edits s (s.driveClient cfg).1 := by
  unfold driveClient
  rcases s.client.boundIp with - | wanIp
  · exact .single (.client s s.client.poll.1 s.bound)
  show Edits s (if _ then _ else _ : App × List Transmission).1
  split_ifs
  · have hports : Edits s { s with
        bound := wanIp, ports := { s.ports with wan := s.ports.wan.setOurIp wanIp } } :=
      .tail (.single (.client s s.client wanIp)) (.wanCall _ (c := .setOurIp wanIp) trivial)
    rcases s.client.lease.bind (·.gateway) with - | gw
    · exact hports.tail (.firewall _ _)
    · exact hports.tail (.firewall _ _)
  · exact .refl

/-- The sweeps of the LAN ports, one after the other, of the one table they share. -/
theorem edits_sweepLan (now : Tick) (lan : List PortInfo) (s : App) (sent : List Transmission) :
    Edits s (s.setLanNeighbors (lan.foldl (sweepLan now) (s.ports.lan.neighbors, sent)).1) := by
  induction lan generalizing s sent with
  | nil => exact .refl
  | cons port lan ih =>
    refine .head (.lanCall s (c := .sweep now) trivial) ?_
    exact ih (s.setLanNeighbors (s.ports.lan.neighbors.sweep now).1)
      (sweepLan now (s.ports.lan.neighbors, sent) port).2

theorem edits_maybeSweep (cfg : AppConfig) (s : App) (now : Tick) :
    ∃ t, Edits s t ∧ (s.maybeSweep cfg now).1 =
      { t with lastSweepMs := (s.maybeSweep cfg now).1.lastSweepMs } := by
  unfold maybeSweep
  by_cases hskip : s.lastSweepMs.toNat ≠ 0 ∧ now - s.lastSweepMs.toNat < sweepIntervalMs
  · simp only [if_pos hskip]
    exact ⟨s, .refl, rfl⟩
  · simp only [if_neg hskip]
    have hwan : Edits s (s.setWanNeighbors (s.ports.wan.sweep now).1) :=
      .single (.wanCall s (c := .sweep now) trivial)
    have hlan := hwan.trans (edits_sweepLan now cfg.lan _
      ((s.ports.wan.sweep now).2.1.map fun req ↦ (cfg.wan.portId, .frame req)))
    exact ⟨_, hlan.tail (.firewall _ { s.firewall with
      conntrack := s.firewall.conntrack.sweep now }), rfl⟩

/-- **One event** is a sequence of edits, followed by the tick if it is a call of the sweeper. -/
theorem edits_step {s t : App} {e : Event cfg} {out : List Transmission}
    (h : s.step cfg e = some (t, out)) :
    Edits s t ∨
      ∃ now u, e = .sweep now ∧ Edits s u ∧ t = { u with lastSweepMs := t.lastSweepMs } := by
  cases e with
  | lanFrame port frame now => exact Or.inl (edits_driveLan h)
  | wanFrame frame now =>
    obtain rfl : (s.driveWan cfg frame now).1 = t := by rw [Option.some.inj h]
    exact Or.inl (edits_driveWan s frame now)
  | client =>
    obtain rfl : (s.driveClient cfg).1 = t := by rw [Option.some.inj h]
    exact Or.inl (edits_driveClient s)
  | sweep now =>
    obtain rfl : (s.maybeSweep cfg now).1 = t := by rw [Option.some.inj h]
    obtain ⟨u, hu, heq⟩ := edits_maybeSweep cfg s now
    exact Or.inr ⟨now, u, rfl, hu, heq⟩

end App

end UserspaceRouter
