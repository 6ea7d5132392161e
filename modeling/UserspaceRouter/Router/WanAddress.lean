import UserspaceRouter.Router.ArpAnswers
import UserspaceRouter.Router.Waiting

/-!
# The address on the WAN

The router's WAN address is kept in four places: in the lease of the DHCP client, in the word
`bound` that tells whether a lease has been acted on, in the NAT and in the neighbor table. Together
with the gateway they are what the router is on that side (`WanFace`). Few steps of the router touch
any of it (`WanFace.Step`), and `wanFace_step` says that these are all.

**Once there is a lease, it stays.** The client is polled only while it has none. A NAK takes it
back to its first state all the same, but without a poll it does not leave that state, and neither
an OFFER nor an ACK is then for it. So the address that the first ACK brings is the address of the
router for good, and the four places agree on it from the moment it is acted on.
-/

namespace UserspaceRouter

open TransitionSystem

/-- The table after a translation has the WAN address it had. -/
theorem wanIp_translateEgress (frame : Bytes) (t : NatTable) :
    (translateEgress frame t).2.1.wanIp = t.wanIp := by
  rcases table_translateEgress frame t with heq | ⟨l4, ip, port, heq⟩
  · rw [heq]
  · rw [heq, NatTable.egress]
    rcases t.fwd.lookup (l4.proto, ip, port) with - | ext
    · rcases halloc : t.allocPort l4.proto with - | ⟨t', ext⟩
      · rfl
      · obtain ⟨x, -, heq'⟩ := Option.map_eq_some_iff.1 halloc
        obtain ⟨rfl, -⟩ := Prod.mk.inj heq'
        rfl
    · rfl

theorem wanIp_of_new {ip : Ipv4Addr} {lo hi : UInt16} {nat : NatTable}
    (h : NatTable.new ip lo hi = some nat) : nat.wanIp = ip := by
  unfold NatTable.new at h
  split_ifs at h
  rw [← Option.some.inj h]

namespace Firewall

/-- The NAT keeps its address, and the firewall its gateway. -/
theorem wan_lanEgressNat (f : Firewall) (frame : Bytes) (now : Tick) :
    (f.lanEgressNat frame now).1.nat.wanIp = f.nat.wanIp ∧
      (f.lanEgressNat frame now).1.gateway = f.gateway := by
  unfold lanEgressNat
  rcases f.gatewayIp with - | gw
  · exact ⟨rfl, rfl⟩
  show (if _ then _ else _ : Firewall × Option (Ipv4Addr × Bytes)).1.nat.wanIp = _ ∧
    (if _ then _ else _ : Firewall × Option (Ipv4Addr × Bytes)).1.gateway = _
  split_ifs
  · exact ⟨rfl, rfl⟩
  · rcases parseTcpTuple frame with - | tup
    · exact ⟨rfl, rfl⟩
    · exact ⟨wanIp_translateEgress frame f.nat, rfl⟩

theorem wan_wanIngressNat (f : Firewall) (frame : Bytes) (now : Tick) :
    (f.wanIngressNat frame now).1.nat.wanIp = f.nat.wanIp ∧
      (f.wanIngressNat frame now).1.gateway = f.gateway := by
  unfold wanIngressNat
  rcases parseTcpTuple frame with - | tup
  · exact ⟨rfl, rfl⟩
  · rcases translateIngress frame f.nat with ⟨frame', - | x⟩ <;> exact ⟨rfl, rfl⟩

end Firewall

/-! ### What the router is on the WAN side -/

structure WanFace where
  client : DhcpClient
  /-- The address last acted on, or 0. -/
  bound : Ipv4Addr
  natIp : Ipv4Addr
  arpIp : Ipv4Addr
  gateway : Ipv4Addr

namespace WanFace

/-- What an event can do to it. -/
inductive Step : WanFace → WanFace → Prop
  | keep (w : WanFace) : Step w w
  | receive (w : WanFace) (view : DhcpView) : Step w { w with client := w.client.onReceive view }
  | poll (w : WanFace) (h : w.client.lease = none) : Step w { w with client := w.client.poll.1 }
  /-- The address of a lease is acted on. -/
  | bind (w : WanFace) {lease : DhcpLease} (h : w.client.lease = some lease)
      (hnew : w.bound ≠ lease.ip) :
      Step w ⟨w.client, lease.ip, lease.ip, lease.ip, lease.gateway.getD w.gateway⟩

/-- **The invariant.** A client with a lease waits for nothing, and all places have the address of
the lease, or have not been told about it yet. -/
structure Settled (w : WanFace) : Prop where
  client : w.client.lease.isSome → w.client.state = .bound ∨ w.client.state = .init
  natIp : w.natIp = w.bound
  arpIp : w.arpIp = w.bound
  unbound : w.bound = 0 → w.gateway = 0
  bound : w.bound ≠ 0 → ∃ lease, w.client.lease = some lease ∧ lease.ip = w.bound ∧
    w.gateway = lease.gateway.getD 0

variable {w w' : WanFace}

/-- A message does not take a lease away, or change it. -/
theorem Settled.receive (h : w.Settled) (view : DhcpView) :
    (∀ lease, w.client.lease = some lease → (w.client.onReceive view).lease = some lease) ∧
      ((w.client.onReceive view).lease.isSome →
        (w.client.onReceive view).state = .bound ∨ (w.client.onReceive view).state = .init) := by
  have hreceived := w.client.received view
  generalize w.client.onReceive view = c at hreceived ⊢
  -- a client that waits for an offer or an answer has no lease
  have hnone : ∀ lease, w.client.state = .selecting ∨ w.client.state = .requesting →
      w.client.lease ≠ some lease := by
    intro lease hstate hlease
    rcases h.client (by rw [hlease]; rfl) with hb | hi
    · rw [hb] at hstate
      rcases hstate with hs | hs <;> cases hs
    · rw [hi] at hstate
      rcases hstate with hs | hs <;> cases hs
  cases hreceived with
  | ignored => exact ⟨fun _ hlease ↦ hlease, h.client⟩
  | offered _ _ hstate =>
    refine ⟨fun lease hlease ↦ absurd hlease (hnone lease (Or.inl hstate)), fun hsome ↦ ?_⟩
    obtain ⟨lease, hlease⟩ := Option.isSome_iff_exists.1 hsome
    exact absurd hlease (hnone lease (Or.inl hstate))
  | acked _ _ hstate =>
    exact ⟨fun lease hlease ↦ absurd hlease (hnone lease (Or.inr hstate)), fun _ ↦ Or.inl rfl⟩
  | refused => exact ⟨fun _ hlease ↦ hlease, fun _ ↦ Or.inr rfl⟩

/-- Polling does not touch the lease. -/
theorem lease_poll (c : DhcpClient) : c.poll.1.lease = c.lease := by
  unfold DhcpClient.poll
  cases c.state <;> rfl

/-- **Every step keeps the invariant, and the lease.** -/
theorem Settled.step (h : w.Settled) (hst : Step w w') :
    w'.Settled ∧ (∀ lease, w.client.lease = some lease → w'.client.lease = some lease) ∧
      (w.bound ≠ 0 → w'.bound = w.bound ∧ w'.gateway = w.gateway) := by
  cases hst with
  | keep => exact ⟨h, fun _ hlease ↦ hlease, fun _ ↦ ⟨rfl, rfl⟩⟩
  | receive view =>
    obtain ⟨hkeeps, hclient⟩ := h.receive view
    refine ⟨⟨hclient, h.natIp, h.arpIp, h.unbound, fun hbound ↦ ?_⟩, hkeeps, fun _ ↦ ⟨rfl, rfl⟩⟩
    obtain ⟨lease, hlease, hip, hgateway⟩ := h.bound hbound
    exact ⟨lease, hkeeps lease hlease, hip, hgateway⟩
  | poll hnone =>
    have hlease : w.client.poll.1.lease = none := by rw [lease_poll, hnone]
    refine ⟨⟨fun hsome ↦ ?_, h.natIp, h.arpIp, h.unbound, fun hbound ↦ ?_⟩, fun lease hsome ↦ ?_,
      fun _ ↦ ⟨rfl, rfl⟩⟩
    · rw [hlease] at hsome
      cases hsome
    · obtain ⟨lease, hsome, -⟩ := h.bound hbound
      cases hnone.symm.trans hsome
    · cases hnone.symm.trans hsome
  | @bind lease hlease hnew =>
    -- the first address to be acted on
    have hzero : w.bound = 0 := by
      by_contra hbound
      obtain ⟨lease', hlease', hip, -⟩ := h.bound hbound
      obtain rfl := Option.some.inj (hlease.symm.trans hlease')
      exact hnew hip.symm
    have hip : lease.ip ≠ 0 := fun hip ↦ hnew (hzero.trans hip.symm)
    refine ⟨⟨h.client, rfl, rfl, fun hbound ↦ absurd hbound hip, fun _ ↦ ⟨lease, hlease, rfl, ?_⟩⟩,
      fun _ hsome ↦ hsome, fun hbound ↦ absurd hzero hbound⟩
    show lease.gateway.getD w.gateway = lease.gateway.getD 0
    rw [h.unbound hzero]

end WanFace

namespace App

variable {cfg : AppConfig} {s t : App}

def wanFace (s : App) : WanFace :=
  ⟨s.client, s.bound, s.firewall.nat.wanIp, s.ports.wan.ourIp, s.firewall.gateway⟩

/-- Nothing of it changes. -/
theorem wanFace_of_eq (hclient : t.client = s.client) (hbound : t.bound = s.bound)
    (hfirewall : t.firewall.nat.wanIp = s.firewall.nat.wanIp ∧
      t.firewall.gateway = s.firewall.gateway)
    (harp : t.ports.wan.ourIp = s.ports.wan.ourIp) : WanFace.Step s.wanFace t.wanFace := by
  have hface : t.wanFace = s.wanFace := by
    simp only [wanFace, hclient, hbound, hfirewall.1, hfirewall.2, harp]
  rw [hface]
  exact .keep _

theorem wanFace_lanEgressNat (s : App) (frame : Bytes) (now : Tick) :
    WanFace.Step s.wanFace (s.lanEgressNat cfg frame now).1.wanFace := by
  have hfirewall := s.firewall.wan_lanEgressNat frame now
  unfold lanEgressNat
  rcases hout : s.firewall.lanEgressNat frame now with ⟨firewall, - | ⟨gateway, packet⟩⟩
  · rw [hout] at hfirewall
    exact wanFace_of_eq rfl rfl hfirewall rfl
  · rw [hout] at hfirewall
    exact wanFace_of_eq rfl rfl hfirewall
      (s.ports.wan.identity_resolve gateway packet ArpPacket.frameLen now).2

theorem wanFace_wanIngressNat (s : App) (frame : Bytes) (now : Tick) :
    WanFace.Step s.wanFace (s.wanIngressNat cfg frame now).1.wanFace := by
  have hfirewall := s.firewall.wan_wanIngressNat frame now
  unfold wanIngressNat
  rcases hout : s.firewall.wanIngressNat frame now with ⟨firewall, - | ⟨dstIp, packet⟩⟩ <;>
    rw [hout] at hfirewall
  · exact wanFace_of_eq rfl rfl hfirewall rfl
  · rcases cfg.lan.head? with - | anyLan <;> exact wanFace_of_eq rfl rfl hfirewall rfl

theorem wanFace_driveLan {port : PortInfo} {frame : Bytes} {now : Tick} {out : List Transmission}
    (h : s.driveLan cfg port frame now = some (t, out)) : WanFace.Step s.wanFace t.wanFace := by
  rcases hparse : parse frame with - | eth
  · simp only [driveLan, hparse] at h
    obtain ⟨rfl, -⟩ := Prod.mk.inj (Option.some.inj h)
    exact .keep _
  simp only [driveLan, hparse] at h
  split_ifs at h
  · obtain ⟨⟨lan, o⟩, -, heq⟩ := Option.map_eq_some_iff.1 h
    obtain ⟨rfl, -⟩ := Prod.mk.inj heq
    exact .keep _
  · rcases hdhcp : parseDhcp frame with - | view
    · simp only [handleLanIpv4, hdhcp] at h
      split_ifs at h
      · obtain rfl := congrArg Prod.fst (Option.some.inj h)
        exact wanFace_lanEgressNat (s.learn eth.header.src port.portId) frame now
      · obtain ⟨rfl, -⟩ := Prod.mk.inj (Option.some.inj h)
        exact .keep _
      · obtain ⟨rfl, -⟩ := Prod.mk.inj (Option.some.inj h)
        exact .keep _
    · simp only [handleLanIpv4, hdhcp] at h
      obtain ⟨⟨dhcp, reply⟩, -, heq⟩ := Option.map_eq_some_iff.1 h
      obtain ⟨rfl, -⟩ := Prod.mk.inj heq
      exact .keep _
  · obtain ⟨rfl, -⟩ := Prod.mk.inj (Option.some.inj h)
    exact .keep _

theorem ourIp_handleWanArp (t : NeighborTable Bytes) (frame : Bytes) (now : Tick) :
    (handleWanArp t frame now).1.ourIp = t.ourIp := by
  unfold handleWanArp
  rcases parseArp frame with - | ⟨eth, arp⟩
  · rfl
  · show (t.learn _ arp now).1.ourIp = t.ourIp
    simp only [NeighborTable.learn, NeighborTable.learnIf]
    split_ifs <;> rfl

theorem wanFace_driveWan (s : App) (frame : Bytes) (now : Tick) :
    WanFace.Step s.wanFace (s.driveWan cfg frame now).1.wanFace := by
  unfold driveWan
  rcases parse frame with - | eth
  · exact .keep _
  by_cases harp : eth.isArp = true
  · simp only [if_pos harp]
    exact wanFace_of_eq rfl rfl ⟨rfl, rfl⟩ (ourIp_handleWanArp _ frame now)
  · simp only [if_neg harp]
    rcases parseDhcp frame with - | view
    · by_cases hip : eth.isIpv4 = true
      · simp only [if_pos hip]
        exact wanFace_wanIngressNat (s.learn eth.header.src cfg.wan.portId) frame now
      · simp only [if_neg hip]
        exact .keep _
    · exact .receive s.wanFace view

theorem wanFace_driveClient (s : App) :
    WanFace.Step s.wanFace (s.driveClient cfg).1.wanFace := by
  unfold driveClient
  rcases hlease : s.client.lease with - | lease
  · simp only [DhcpClient.boundIp, hlease, Option.map_none]
    exact .poll s.wanFace hlease
  · simp only [DhcpClient.boundIp, hlease, Option.map_some]
    by_cases hnew : s.bound ≠ lease.ip
    · simp only [if_pos hnew, Option.bind_some]
      have hbind := WanFace.Step.bind s.wanFace hlease hnew
      rcases hgateway : lease.gateway with - | gw <;> rw [hgateway] at hbind <;> exact hbind
    · simp only [if_neg hnew]
      exact .keep _

/-- **What an event does on the WAN side.** -/
theorem wanFace_step {e : Event cfg} {out : List Transmission}
    (h : s.step cfg e = some (t, out)) : WanFace.Step s.wanFace t.wanFace := by
  cases e with
  | lanFrame port frame now => exact wanFace_driveLan h
  | wanFrame frame now =>
    obtain rfl := congrArg Prod.fst (Option.some.inj h)
    exact wanFace_driveWan s frame now
  | client =>
    obtain rfl := congrArg Prod.fst (Option.some.inj h)
    exact wanFace_driveClient s
  | sweep now =>
    obtain rfl := congrArg Prod.fst (Option.some.inj h)
    show WanFace.Step s.wanFace (wanFace (s.maybeSweep cfg now).1)
    unfold maybeSweep
    dsimp only
    split_ifs <;> exact .keep _

/-! ### Runs -/

/-- The lease and what was made of it stay what they are. -/
theorem wanFace_run (h : s.wanFace.Settled) {tr : List (Event cfg × List Transmission)}
    (hrun : (system cfg).Run s tr t) :
    t.wanFace.Settled ∧
      (∀ lease, s.client.lease = some lease → t.client.lease = some lease) ∧
      (s.bound ≠ 0 → t.bound = s.bound ∧ t.firewall.gateway = s.firewall.gateway) := by
  refine hrun.invariant (I := fun t ↦ t.wanFace.Settled ∧
      (∀ lease, s.client.lease = some lease → t.client.lease = some lease) ∧
      (s.bound ≠ 0 → t.bound = s.bound ∧ t.firewall.gateway = s.firewall.gateway))
    ⟨h, fun _ hlease ↦ hlease, fun _ ↦ ⟨rfl, rfl⟩⟩ ?_
  rintro u ⟨e, out⟩ v ⟨hsettled, hlease, hbound⟩ hst
  obtain ⟨hsettled', hlease', hbound'⟩ := hsettled.step (wanFace_step hst)
  refine ⟨hsettled', fun lease hs ↦ hlease' lease (hlease lease hs), fun hs ↦ ?_⟩
  obtain ⟨hb, hg⟩ := hbound hs
  have hu : u.wanFace.bound ≠ 0 := by
    show u.bound ≠ 0
    rw [hb]
    exact hs
  exact ⟨(hbound' hu).1.trans hb, (hbound' hu).2.trans hg⟩

theorem settled_boot {dhcp : DhcpState} {nat : NatTable} {xid : UInt32}
    (hnat : nat.wanIp = Ipv4Addr.unspecified) : (boot cfg dhcp nat xid).wanFace.Settled where
  client h := by cases h
  natIp := hnat
  arpIp := rfl
  unbound _ := rfl
  bound h := absurd rfl h

/-- **The router has one WAN address, and keeps it.** In every state of a run from start-up, the
NAT, the neighbor table and the word `bound` have the same address; if that is an address, it is the
one of the client's lease, and the gateway is the one of the lease. Whatever comes afterwards, a
lease that the client has is never replaced or taken away, and an address that has been acted on
stays. -/
theorem wan_address_is_one_and_final {dhcp : DhcpState} {nat : NatTable} {xid : UInt32}
    {lo hi : UInt16} (hnat : NatTable.new Ipv4Addr.unspecified lo hi = some nat)
    {tr : List (Event cfg × List Transmission)}
    (h : (system cfg).Run (boot cfg dhcp nat xid) tr s) :
    (s.firewall.nat.wanIp = s.bound ∧ s.ports.wan.ourIp = s.bound) ∧
    (s.bound ≠ 0 → ∃ lease, s.client.lease = some lease ∧ lease.ip = s.bound ∧
      s.firewall.gateway = lease.gateway.getD 0) ∧
    ∀ tr' t, (system cfg).Run s tr' t →
      (∀ lease, s.client.lease = some lease → t.client.lease = some lease) ∧
      (s.bound ≠ 0 → t.bound = s.bound ∧ t.firewall.nat.wanIp = s.firewall.nat.wanIp ∧
        t.ports.wan.ourIp = s.ports.wan.ourIp ∧ t.firewall.gateway = s.firewall.gateway) := by
  obtain ⟨hsettled, -⟩ := wanFace_run (settled_boot (wanIp_of_new hnat)) h
  refine ⟨⟨hsettled.natIp, hsettled.arpIp⟩, hsettled.bound, fun tr' t hrun ↦ ?_⟩
  obtain ⟨hsettled', hlease, hbound⟩ := wanFace_run hsettled hrun
  refine ⟨hlease, fun hs ↦ ?_⟩
  obtain ⟨hb, hg⟩ := hbound hs
  have hnatIp : t.firewall.nat.wanIp = t.bound := hsettled'.natIp
  have harpIp : t.ports.wan.ourIp = t.bound := hsettled'.arpIp
  refine ⟨hb, ?_, ?_, hg⟩
  · rw [hnatIp, hb]
    exact hsettled.natIp.symm
  · rw [harpIp, hb]
    exact hsettled.arpIp.symm

/-- The upstream server takes its lease back with a NAK. The client is in its first state then, and
the router goes on under the address. -/
theorem wan_address_after_nak :
    ∃ tr s tr' t, (system sampleConfig).Run sampleBoot tr s ∧ (system sampleConfig).Run s tr' t ∧
      t.client.state = .init ∧ t.client.boundIp = some 0xcb007105 ∧
      t.firewall.nat.wanIp = 0xcb007105 ∧ t.ports.wan.ourIp = 0xcb007105 := by
  have hcalls : ((calls (step sampleConfig) sampleBoot sampleBinding).bind fun r ↦
      (calls (step sampleConfig) r.2 [.wanFrame (sampleUpstream .nak) 3, .client]).map fun r' ↦
        ((r.2.bound, r.2.client.boundIp), r'.2.client.state)) =
      some ((0xcb007105, some 0xcb007105), .init) := by decide +kernel
  obtain ⟨⟨tr, s⟩, hs, hrest⟩ := Option.bind_eq_some_iff.1 hcalls
  obtain ⟨⟨tr', t⟩, ht, hend⟩ := Option.map_eq_some_iff.1 hrest
  obtain ⟨hface, hstate⟩ := Prod.mk.inj hend
  obtain ⟨hbound, hip⟩ := Prod.mk.inj hface
  have hbound : s.bound = 0xcb007105 := hbound
  obtain ⟨lease, hlease, hleaseIp⟩ := Option.map_eq_some_iff.1 hip
  have hrun : (system sampleConfig).Run
      (boot sampleConfig Ports.sampleDhcp ⟨0, 40000, 40010, 40000, ∅, ∅⟩ 1) tr s := run_of_calls hs
  obtain ⟨⟨hnat, harp⟩, -, hlater⟩ := wan_address_is_one_and_final
    (show NatTable.new Ipv4Addr.unspecified 40000 40010 = some _ from rfl) hrun
  obtain ⟨hkeeps, hstays⟩ := hlater tr' t (run_of_calls ht)
  have hne : s.bound ≠ 0 := by
    rw [hbound]
    decide
  obtain ⟨-, hnat', harp', -⟩ := hstays hne
  refine ⟨tr, s, tr', t, hrun, run_of_calls ht, hstate, ?_, ?_, ?_⟩
  · rw [DhcpClient.boundIp, hkeeps lease hlease]
    exact congrArg some hleaseIp
  · rw [hnat', hnat, hbound]
  · rw [harp', harp, hbound]

end App

end UserspaceRouter
