import UserspaceRouter.Router.Bridge
import UserspaceRouter.Router.DatapathInvariant
import UserspaceRouter.Router.PoolRuns
import UserspaceRouter.Router.WanAddress

/-!
# Any number of workers

The programs of the workers are safe, handler by handler, and so the invariant of
`DatapathInvariant` holds in every interleaving, whatever the devices do (`le_and_covered`). Read
off it:

* **no call on the address pool fails** (`assertions_hold`), so none leaves its lock taken;
* **no buffer is lost or freed twice** (`mbufs_conserved`);
* **what leaves on the WAN port** is the router's own, or a TCP packet of a LAN host under an
  address that was assigned to the router (`wan_sends`);
* **what is sent on a LAN port** is the router's own, a frame from another LAN port, or a TCP packet
  from the WAN side of a flow that a LAN host opened (`lan_sends`).

The last two hold of every frame although the tables may change between any two steps of a handler.
-/

namespace UserspaceRouter

open Program

namespace Datapath

variable {cfg : DatapathConfig} {all m : Multiset MbufId} {s t s₀ : Datapath}

/-! ### The firewall -/

theorem safe_read_wanIp : Safe (Inv cfg all) (fun s ip m' ↦ m' = m ∧
      (ip ≠ Ipv4Addr.unspecified → s.evidence.nat.wanIp ∈ s.evidence.assigned))
    (read fun s : Datapath ↦ s.firewall.nat.wanIp) s₀ m := by
  refine safe_read fun s r _ hI ↦ ⟨rfl, fun hip ↦ ?_⟩
  exact hI.wanIp.resolve_left hip

/-- A frame of a LAN host. -/
def FromLan (cfg : DatapathConfig) (e : Evidence) (frame : Bytes) : Prop :=
  ∃ p ∈ cfg.lan, (p.portId, frame) ∈ e.received

theorem FromLan.mono {e e' : Evidence} (h : e ≤ e') {frame : Bytes} (hlan : FromLan cfg e frame) :
    FromLan cfg e' frame := by
  obtain ⟨p, hp, hframe⟩ := hlan
  exact ⟨p, hp, h.received _ hframe⟩

theorem safe_observeEgress {frame : Bytes} {tup : TcpTuple} (now : Tick)
    (hlan : FromLan cfg s₀.evidence frame) (htup : parseTcpTuple frame = some tup) :
    Safe (Inv cfg all) (fun _ _ m' ↦ m' = m) (observeEgress tup now) s₀ m := by
  refine safe_modify fun s r hs hI ↦ ?_
  obtain ⟨p, hp, hframe⟩ := hlan.mono hs.1
  have hflows : ∀ key ∈ (s.firewall.conntrack.observeEgress tup.egressKey tup.flags now).1.flows,
      s.evidence.Opened cfg key := by
    intro key hkey
    by_cases hold : key ∈ s.firewall.conntrack.flows
    · exact hI.facts.flows key hold
    · -- a new flow is that of the packet, which opens it
      obtain ⟨conn, hconn⟩ := AList.mem_iff_lookup.1 hkey
      have hstep : (s.firewall.conntrack.step
          (.observeEgress tup.egressKey tup.flags now)).flows.lookup key = some conn := hconn
      obtain ⟨flags, now', hop, hopening⟩ :=
        ConnTrack.opening_of_lookup_step_eq_some (AList.lookup_eq_none.2 hold) hstep
      obtain ⟨rfl, rfl, rfl⟩ := ConnTrack.Op.observeEgress.inj hop
      exact ⟨p, hp, frame, tup.flags, hframe, htup, hopening⟩
  obtain ⟨hle, hI'⟩ := hI.step (t := s.setFirewall { s.firewall with
      conntrack := (s.firewall.conntrack.observeEgress tup.egressKey tup.flags now).1 })
    rfl rfl rfl fun hf ↦ { hf with flows := hflows }
  exact ⟨hle, m, hI', rfl⟩

/-- A call on the flow table that opens no flow. -/
theorem step_conntrack {r : Multiset MbufId} (hI : Inv cfg all s (r + m)) (op : ConnTrack.Op)
    (hop : ∀ key flags now, op ≠ .observeEgress key flags now) :
    s ≤ s.setFirewall { s.firewall with conntrack := s.firewall.conntrack.step op } ∧
      Inv cfg all (s.setFirewall { s.firewall with conntrack := s.firewall.conntrack.step op })
        (r + m) := by
  refine hI.step rfl rfl rfl fun hf ↦ { hf with flows := fun key hkey ↦ ?_ }
  refine hf.flows key ?_
  by_contra hold
  obtain ⟨conn, hconn⟩ := AList.mem_iff_lookup.1 hkey
  obtain ⟨flags, now, heq, -⟩ :=
    ConnTrack.opening_of_lookup_step_eq_some (AList.lookup_eq_none.2 hold) hconn
  exact hop key flags now heq

theorem safe_checkIngress (key : FlowKey) (flags : UInt8) (now : Tick) :
    Safe (Inv cfg all) (fun s ok m' ↦ m' = m ∧ (ok = true → s.evidence.Opened cfg key))
      (checkIngress key flags now) s₀ m := by
  refine safe_call fun s r _ hI ↦ ?_
  obtain ⟨hle, hI'⟩ := step_conntrack hI (.checkIngress key flags now) nofun
  refine ⟨hle, m, hI', rfl, fun hok ↦ hI.facts.flows key ?_⟩
  rcases hlookup : s.firewall.conntrack.flows.lookup key with - | found
  · simp [ConnTrack.checkIngress, hlookup] at hok
  · exact AList.mem_iff_lookup.2 ⟨found, hlookup⟩

theorem safe_translateOut {frame : Bytes} {tup : TcpTuple} (hlan : FromLan cfg s₀.evidence frame)
    (htup : parseTcpTuple frame = some tup)
    (hwan : s₀.evidence.nat.wanIp ∈ s₀.evidence.assigned) :
    Safe (Inv cfg all) (fun s o m' ↦ m' = m ∧ ∀ data ∈ o, s.evidence.Held cfg .wan data)
      (translateOut frame) s₀ m := by
  refine safe_call fun s r hs hI ↦ ?_
  obtain ⟨hinv, hext⟩ := NatTable.inv_extends_step hI.nat (.translateEgress frame)
  have hwan' : s.firewall.nat.wanIp ∈ s.assigned := hs.1.wanIp hwan
  have hsame := wanIp_translateEgress frame s.firewall.nat
  have hle' : s.evidence ≤ Evidence.mk s.nic.received
      (translateEgress frame s.firewall.nat).2.1 s.assigned :=
    ⟨fun _ hx ↦ hx, hext, fun _ hip ↦ hip, fun h ↦ hsame ▸ h⟩
  obtain ⟨hle, hI'⟩ := hI.grow (t := s.setFirewall { s.firewall with
      nat := (translateEgress frame s.firewall.nat).2.1 })
    rfl hle' rfl hinv (Or.inr (hsame ▸ hwan')) fun hf ↦ { hf with }
  refine ⟨hle, m, hI', rfl, fun data hdata ↦ ?_⟩
  obtain ⟨x, hx, rfl⟩ := Option.map_eq_some_iff.1 hdata
  obtain ⟨c, hc, hegress, heq⟩ := translateEgress_eq_some hx
  obtain ⟨c', hc', hl4, hend⟩ := Firewall.exists_classify_of_parseTcpTuple htup .src
  obtain rfl : c' = c := Option.some.inj (hc'.symm.trans hc)
  obtain ⟨hip, hport⟩ := Endpoint.mk.inj hend
  obtain ⟨hfwd, hnew⟩ := NatTable.lookup_of_egress_eq_some hI.nat hegress
  obtain ⟨p, hp, hframe⟩ := hlan.mono hs.1
  refine ⟨p, hp, frame, tup, c', x.newSrcIp, x.newSrcPort, hframe, htup, hc, ?_, ?_, ?_⟩
  · rw [hnew]
    exact hwan'
  · rw [hl4, hip, hport] at hfwd
    show (translateEgress frame s.firewall.nat).2.1.fwd.lookup _ = _
    rw [heq, hl4, hip, hport]
    exact hfwd
  · rw [heq]

/-- What a translation of a WAN frame rests on. -/
def TranslatesTo (e : Evidence) (frame : Bytes) (tup : TcpTuple) (data : Bytes) (x : Ingress) :
    Prop :=
  ∃ c, classify .dst frame = some c ∧
    e.nat.fwd.lookup (Proto.tcp, x.dstIp, x.dstPort) = some tup.dstPort ∧
    data = rewrite .dst c x.dstIp x.dstPort frame

theorem safe_translateIn {frame : Bytes} {tup : TcpTuple} (htup : parseTcpTuple frame = some tup) :
    Safe (Inv cfg all) (fun s o m' ↦ m' = m ∧
        ∀ y ∈ o, TranslatesTo s.evidence frame tup y.1 y.2) (translateIn frame) s₀ m := by
  refine safe_read fun s r _ hI ↦ ⟨rfl, fun y hy ↦ ?_⟩
  obtain ⟨x, hx, rfl⟩ := Option.map_eq_some_iff.1 hy
  obtain ⟨c, hc, hingress, heq⟩ := translateIngress_eq_some hx
  obtain ⟨c', hc', hl4, hend⟩ := Firewall.exists_classify_of_parseTcpTuple htup .dst
  obtain rfl : c' = c := Option.some.inj (hc'.symm.trans hc)
  have hfwd := hI.nat.ingress_eq_some_iff.1 hingress
  rw [hl4, (Endpoint.mk.inj hend).2] at hfwd
  exact ⟨c', hc, hfwd, by rw [heq]⟩

/-! ### Sending -/

/-- A packet is freed once everything else is done. -/
theorem safe_then_free {p : Program Datapath Unit} (hp : Safe (Inv cfg all) Done p s₀ 0)
    (id : MbufId) : Safe (Inv cfg all) Done (p.bind fun _ ↦ free id) s₀ {id} := by
  have h := hp.bind_done (r := {id}) fun s _ _ ↦ safe_free id
  rwa [zero_add] at h

/-- A loop in which nothing is owned. -/
theorem safe_each_zero {β : Type} {body : β → Program Datapath Unit} {bs : List β}
    (h : ∀ b ∈ bs, ∀ s, s₀ ≤ s → Safe (Inv cfg all) Done (body b) s 0) :
    Safe (Inv cfg all) Done (each body bs) s₀ 0 := by
  have hloop : Safe (Inv cfg all) Done (each body bs) s₀
      (bs.map fun _ ↦ (0 : Multiset MbufId)).sum := Safe.each h
  rwa [List.map_const', List.sum_replicate, nsmul_zero] at hloop

theorem safe_flood {exceptPort : Option PortId} {bytes : Bytes}
    (h : ∀ p ∈ cfg.lan, some p.portId ≠ exceptPort → Legit cfg s₀.evidence p (.frame bytes)) :
    Safe (Inv cfg all) Done (flood cfg exceptPort bytes) s₀ 0 := by
  refine safe_each_zero fun p hp s hs ↦ safe_transmitFrame ?_
  obtain ⟨hmem, hne⟩ := List.mem_filter.1 hp
  exact (h p hmem (of_decide_eq_true hne)).mono hs.1

theorem safe_transmitToMacOrFloodExcept {mac : MacAddr} {packet : Mbuf}
    {exceptPort : Option PortId}
    (h : ∀ p ∈ cfg.lan, some p.portId ≠ exceptPort →
      Legit cfg s₀.evidence p (.frame packet.data)) :
    Safe (Inv cfg all) Done (transmitToMacOrFloodExcept cfg mac packet exceptPort) s₀
      {packet.id} := by
  refine safe_quiet_bind (fun _ ↦ ⟨_, _, _, _, rfl⟩) fun s found hs ↦ ?_
  rcases found with - | port
  · exact safe_then_free (safe_flood fun p hp hne ↦ (h p hp hne).mono hs.1) packet.id
  · show Safe _ _ (if some port ≠ exceptPort then _ else _) s _
    split_ifs with hne
    · rcases hout : cfg.lanPortById port with - | out
      · exact safe_free packet.id
      · have hmem : out ∈ cfg.lan := List.mem_of_find?_eq_some hout
        have hid : out.portId = port := by simpa using List.find?_some hout
        exact safe_transmit packet.id ((h out hmem (by rw [hid]; exact hne)).mono hs.1)
    · exact safe_free packet.id

theorem safe_learnArp (side : Segment) {port : PortInfo} (hport : port ∈ cfg.portsOf side)
    (ip : Ipv4Addr) (mac : MacAddr) (now : Tick) :
    Safe (Inv cfg all) Done (learnArp now side port ip mac) s₀ 0 := by
  refine (safe_onArp side ip mac now).bind ?_
  rintro s d n hs ⟨rfl, hheld⟩
  rcases d with - | ⟨mac', drained⟩
  · exact (rfl : (0 : Multiset MbufId) = 0)
  · show Safe _ _ (each _ drained) s (ids drained)
    rw [← sum_ids]
    refine Safe.each fun q hq t ht ↦ ?_
    exact safe_transmit q.id (.crosses side mac' hport hport ((hheld q hq).mono ht.1))

/-! ### The LAN side -/

/-- How a handler ends that could meet a failed assertion: it does not. -/
def Succeeds : Datapath → Bool → Multiset MbufId → Prop := fun _ ok m ↦ ok = true ∧ m = 0

theorem safe_ret_true : Safe (Inv cfg all) Succeeds (pure true) s₀ 0 := ⟨rfl, rfl⟩

/-- The tables of the DHCP server change, within the same bounds. -/
theorem Inv.setDhcp {own : Multiset MbufId} (h : Inv cfg all s own) {dhcp : DhcpState}
    (hsound : dhcp.Sound) (hstart : dhcp.pool.start = s.ports.lan.dhcp.pool.start)
    (hend : dhcp.pool.end_ = s.ports.lan.dhcp.pool.end_) :
    s ≤ s.setDhcp dhcp ∧ Inv cfg all (s.setDhcp dhcp) own := by
  rw [← add_zero own] at h ⊢
  refine h.step rfl rfl (Prod.ext hstart hend) fun hf ↦ { hf with
    dhcp := hsound, waiting := fun side ↦ ?_ }
  cases side with
  | lan => exact hf.waiting .lan
  | wan => exact hf.waiting .wan

theorem safe_reserve (ip : Ipv4Addr) :
    Safe (Inv cfg all) (fun _ _ m ↦ m = 0) (reserve ip) s₀ 0 := by
  refine safe_modify fun s r _ hI ↦ ?_
  obtain ⟨hbounded, hstart, hend⟩ := hI.facts.dhcp.bounded.reserve ip
  obtain ⟨hle, hI'⟩ := hI.setDhcp (hI.facts.dhcp.of_pool hbounded hstart hend) hstart hend
  exact ⟨hle, 0, hI', rfl⟩

/-- An address within bounds can be given back. -/
theorem safe_release {ip : Ipv4Addr} (hin : s₀.Within ip) :
    Safe (Inv cfg all) Succeeds (release ip) s₀ 0 := by
  refine safe_call fun s r hs hI ↦ ?_
  obtain ⟨pool, hpool⟩ : ∃ pool, s.ports.lan.dhcp.pool.release ip = some pool :=
    ⟨_, if_pos (hin.mono hs)⟩
  simp only [hpool]
  obtain ⟨hbounded, hstart, hend⟩ := hI.facts.dhcp.bounded.release hpool
  obtain ⟨hle, hI'⟩ := hI.setDhcp (hI.facts.dhcp.of_pool hbounded hstart hend) hstart hend
  exact ⟨hle, 0, hI', rfl, rfl⟩

theorem safe_take : Safe (Inv cfg all) (fun s o m ↦ m = 0 ∧ ∀ ip ∈ o.bind (·.head?), s.Within ip)
    (take 1) s₀ 0 := by
  refine safe_call fun s r _ hI ↦ ?_
  rcases hI.facts.dhcp.bounded.take_one_cases with ⟨htake, -⟩ |
    ⟨-, ip, out, pool, htake, hhead, hip, hbounded, hstart, hend⟩
  · simp only [htake]
    obtain ⟨hle, hI'⟩ := hI.setDhcp hI.facts.dhcp rfl rfl
    exact ⟨hle, 0, hI', rfl, nofun⟩
  · simp only [htake]
    obtain ⟨hle, hI'⟩ := hI.setDhcp (hI.facts.dhcp.of_pool hbounded hstart hend) hstart hend
    refine ⟨hle, 0, hI', rfl, fun ip' hip' ↦ ?_⟩
    obtain rfl := Option.some.inj (hhead.symm.trans hip')
    exact Within.mono hle hip

theorem safe_insertLease {ip : Ipv4Addr} (mac : MacAddr) (hin : s₀.Within ip) :
    Safe (Inv cfg all) (fun _ _ m ↦ m = 0) (insertLease mac ip) s₀ 0 := by
  refine safe_modify fun s r hs hI ↦ ?_
  have hsound : DhcpState.Sound { s.ports.lan.dhcp with
      leases := s.ports.lan.dhcp.leases.insert mac ip } := by
    refine ⟨hI.facts.dhcp.bounded, fun mac' ip' hlease ↦ ?_⟩
    rw [AList.lookup_insert_ite] at hlease
    split_ifs at hlease
    · rw [← Option.some.inj hlease]
      exact hin.mono hs
    · exact hI.facts.dhcp.inBounds mac' ip' hlease
  obtain ⟨hle, hI'⟩ := hI.setDhcp hsound rfl rfl
  exact ⟨hle, 0, hI', rfl⟩

theorem safe_removeLease (mac : MacAddr) :
    Safe (Inv cfg all) (fun s o m ↦ m = 0 ∧ ∀ ip ∈ o, s.Within ip) (removeLease mac) s₀ 0 := by
  refine safe_call fun s r _ hI ↦ ?_
  have hsound : DhcpState.Sound { s.ports.lan.dhcp with
      leases := s.ports.lan.dhcp.leases.erase mac } := by
    refine ⟨hI.facts.dhcp.bounded, fun mac' ip' hlease ↦ ?_⟩
    rw [AList.lookup_erase_ite] at hlease
    split_ifs at hlease
    exact hI.facts.dhcp.inBounds mac' ip' hlease
  obtain ⟨hle, hI'⟩ := hI.setDhcp hsound rfl rfl
  exact ⟨hle, 0, hI', rfl, fun ip hip ↦ Within.mono hle (hI.facts.dhcp.inBounds mac ip hip)⟩

/-- One of the bounds of the pool, which do not change. -/
theorem safe_read_bound (bound : Ipv4Addr × Ipv4Addr → Ipv4Addr) :
    Safe (Inv cfg all) (fun s ip m' ↦ m' = m ∧ ip = bound s.bounds)
      (read fun s : Datapath ↦ bound s.bounds) s₀ m :=
  safe_read fun _ _ _ _ ↦ ⟨rfl, rfl⟩

theorem safe_releaseStale (arp : ArpPacket) :
    Safe (Inv cfg all) Succeeds (releaseStale arp) s₀ 0 := by
  refine safe_quiet_bind (fun _ ↦ ⟨_, _, _, _, rfl⟩) fun s old _ ↦ ?_
  rcases old with - | oldIp
  · exact safe_ret_true
  show Safe _ _ (if oldIp = arp.senderIp then _ else _) s 0
  split_ifs
  · exact safe_ret_true
  refine (safe_read_bound (·.1)).bind ?_
  rintro t start n ht ⟨rfl, rfl⟩
  show Safe _ _ (if t.bounds.1 ≤ oldIp then _ else _) t 0
  split_ifs with hstart
  · refine (safe_read_bound (·.2)).bind ?_
    rintro u end_ n hu ⟨rfl, rfl⟩
    show Safe _ _ (if oldIp ≤ u.bounds.2 then _ else _) u 0
    split_ifs with hend
    · rw [← hu.2] at hstart
      exact safe_release ⟨hstart, hend⟩
    · exact safe_ret_true
  · exact safe_ret_true

theorem safe_answerArp {port : PortInfo} (hport : port ∈ cfg.lan) {frame : Bytes}
    (hframe : (port.portId, frame) ∈ s₀.evidence.received) (eth : EthernetHeader)
    (arp : ArpPacket) : Safe (Inv cfg all) Done (answerArp cfg port frame eth arp) s₀ 0 := by
  unfold answerArp
  simp only
  split_ifs
  · refine safe_flood fun p hp hne ↦ ?_
    exact .bridged hp hport (fun heq ↦ hne (congrArg some heq)) hframe
  · rcases hreply : ArpPacket.buildReply LanState.frameMax cfg.router.serverMac
      cfg.router.serverIp arp.sha arp.senderIp with - | reply
    · exact (rfl : (0 : Multiset MbufId) = 0)
    · exact safe_transmitFrame (.reply arp.sha arp.senderIp hport hreply)
  · exact (rfl : (0 : Multiset MbufId) = 0)

/-- A step that is made under a condition. -/
theorem safe_when {c : Prop} [Decidable c] {p : Program Datapath Unit} {β : Type}
    {k : Program Datapath β} {Q : Datapath → β → Multiset MbufId → Prop}
    (hp : Safe (Inv cfg all) Done p s₀ 0)
    (hk : ∀ s, s₀ ≤ s → Safe (Inv cfg all) Q k s 0) :
    Safe (Inv cfg all) Q (if c then p.bind fun _ ↦ k else k) s₀ 0 := by
  split_ifs
  · refine hp.bind ?_
    rintro s - n hs rfl
    exact hk s hs
  · exact hk s₀ le_rfl

theorem safe_handleLanArp {port : PortInfo} (hport : port ∈ cfg.lan) {frame : Bytes}
    (hframe : (port.portId, frame) ∈ s₀.evidence.received) (now : Tick) :
    Safe (Inv cfg all) Succeeds (handleLanArp cfg now port frame) s₀ 0 := by
  unfold handleLanArp
  rcases parseArp frame with - | ⟨eth, arp⟩
  · exact safe_ret_true
  refine (safe_reserve arp.senderIp).bind ?_
  rintro s - n hs rfl
  refine (safe_releaseStale arp).bind ?_
  rintro t ok n ht ⟨rfl, rfl⟩
  refine (safe_learnArp .lan hport arp.senderIp arp.sha now).bind ?_
  rintro u - n hu rfl
  refine safe_when (safe_learnArp .lan hport arp.targetIp arp.tha now) fun v hv ↦ ?_
  have hle : s₀ ≤ v := hs.trans (ht.trans (hu.trans hv))
  refine (safe_answerArp hport (hle.1.received _ hframe) eth arp).bind ?_
  rintro w - n - rfl
  exact safe_ret_true

theorem safe_assign (mac : MacAddr) :
    Safe (Inv cfg all) (fun _ _ m ↦ m = 0) (assign mac) s₀ 0 := by
  refine safe_quiet_bind (fun _ ↦ ⟨_, _, _, _, rfl⟩) fun s found _ ↦ ?_
  rcases found with - | ip
  · refine safe_take.bind ?_
    rintro t out n - ⟨rfl, hin⟩
    rcases hhead : out.bind (·.head?) with - | ip
    · simp only
      exact (rfl : (0 : Multiset MbufId) = 0)
    · simp only
      refine (safe_insertLease mac (hin ip hhead)).bind ?_
      rintro u - n - rfl
      exact (rfl : (0 : Multiset MbufId) = 0)
  · exact (rfl : (0 : Multiset MbufId) = 0)

/-- How a DHCP message is dealt with: a reply is for the client and the transaction of the
message. -/
def Handled (view : DhcpView) : Datapath → Option Reply × Bool → Multiset MbufId → Prop :=
  fun s out m ↦ Succeeds s out.2 m ∧
    ∀ reply ∈ out.1, reply.client = view.header.clientMac ∧ reply.xid = view.header.xid

/-- A reply with the address that `assign` gives. -/
theorem safe_assign_reply {view : DhcpView} {answer : Ipv4Addr → Reply}
    (hanswer : ∀ ip, (answer ip).client = view.header.clientMac ∧
      (answer ip).xid = view.header.xid) :
    Safe (Inv cfg all) (Handled view)
      ((assign view.header.clientMac).bind fun ip ↦ pure (ip.map answer, true)) s₀ 0 := by
  refine (safe_assign view.header.clientMac).bind ?_
  rintro s ip n - rfl
  refine ⟨⟨rfl, rfl⟩, fun reply hreply ↦ ?_⟩
  obtain ⟨x, -, rfl⟩ := Option.map_eq_some_iff.1 hreply
  exact hanswer x

theorem handled_none (view : DhcpView) : Handled view s (none, true) 0 := ⟨⟨rfl, rfl⟩, nofun⟩

theorem safe_giveBack (view : DhcpView) :
    Safe (Inv cfg all) (Handled view) (do
      match ← removeLease view.header.clientMac with
      | none => pure (none, true)
      | some ip => return (none, ← release ip)) s₀ 0 := by
  refine (safe_removeLease view.header.clientMac).bind ?_
  rintro s found n - ⟨rfl, hin⟩
  rcases found with - | ip
  · exact handled_none view
  · refine (safe_release (hin ip rfl)).bind ?_
    rintro t ok n - hsucceeds
    exact ⟨hsucceeds, nofun⟩

theorem safe_handleDhcp (view : DhcpView) :
    Safe (Inv cfg all) (Handled view) (handleDhcp cfg view) s₀ 0 := by
  have hoffer : ∀ ip, (view.offer ip).client = view.header.clientMac ∧
      (view.offer ip).xid = view.header.xid := fun _ ↦ ⟨rfl, rfl⟩
  have hack : ∀ ip, (view.ackOrNak ip).client = view.header.clientMac ∧
      (view.ackOrNak ip).xid = view.header.xid := by
    intro ip
    rw [DhcpView.ackOrNak]
    split_ifs <;> exact ⟨rfl, rfl⟩
  unfold handleDhcp
  rcases view.messageType with - | kind
  · exact handled_none view
  cases kind with
  | discover => exact safe_assign_reply hoffer
  | request =>
    show Safe _ _ (if view.selectsOther cfg.dhcp then _ else _) s₀ 0
    split_ifs
    · exact handled_none view
    · exact safe_assign_reply hack
  | release | decline => exact safe_giveBack view
  | offer | ack | nak | inform => exact handled_none view

/-- A packet that is to cross the router is sent, or queued with a request, or dropped. -/
theorem safe_lanEgressNat {m : Mbuf} (hlan : FromLan cfg s₀.evidence m.data) (now : Tick) :
    Safe (Inv cfg all) Done (lanEgressNat cfg now m) s₀ {m.id} := by
  refine safe_quiet_bind (fun _ ↦ ⟨_, _, _, _, rfl⟩) fun s gateway hs ↦ ?_
  rcases gateway with - | gateway
  · exact safe_free m.id
  refine safe_read_wanIp.bind ?_
  rintro t ip n ht ⟨rfl, hwan⟩
  show Safe _ _ (if ip = Ipv4Addr.unspecified then _ else _) t _
  split_ifs with hip
  · exact safe_free m.id
  rcases htup : parseTcpTuple m.data with - | tup
  · exact safe_free m.id
  have hlan' := hlan.mono (hs.trans ht).1
  refine (safe_observeEgress now hlan' htup).bind ?_
  rintro u - n hu rfl
  refine (safe_translateOut (hlan'.mono hu.1) htup (hu.1.wanIp (hwan hip))).bind ?_
  rintro v o n hv ⟨rfl, hout⟩
  rcases o with - | data
  · exact safe_free m.id
  refine (safe_resolve .wan gateway { m with data } now (hout data rfl)).bind ?_
  intro w action n hw hres
  have hwanPort : cfg.wan ∈ cfg.portsOf .wan := List.mem_singleton_self _
  cases action with
  | forward mac p =>
    obtain ⟨rfl, rfl⟩ := hres
    exact safe_transmit m.id (.crosses .wan mac hwanPort hwanPort ((hout data rfl).mono hw.1))
  | queued request =>
    obtain ⟨hrequest, rfl⟩ := hres
    rcases request with - | b
    · exact (rfl : (0 : Multiset MbufId) = 0)
    · exact safe_transmitFrame (.request .wan hwanPort (hrequest b rfl))
  | drop p =>
    obtain ⟨rfl, rfl⟩ := hres
    exact safe_free m.id

/-- A handler that meets no assertion. -/
theorem safe_then_true {p : Program Datapath Unit} (hp : Safe (Inv cfg all) Done p s₀ m) :
    Safe (Inv cfg all) Succeeds (p.bind fun _ ↦ pure true) s₀ m := by
  refine hp.bind ?_
  rintro s - n - rfl
  exact safe_ret_true

theorem safe_handleLanIpv4 {port : PortInfo} (hport : port ∈ cfg.lan) {m : Mbuf}
    (hframe : (port.portId, m.data) ∈ s₀.evidence.received) (header : EthernetHeader)
    (now : Tick) :
    Safe (Inv cfg all) Succeeds (handleLanIpv4 cfg now port header m) s₀ {m.id} := by
  have hbridged : ∀ p ∈ cfg.lan, some p.portId ≠ some port.portId →
      Legit cfg s₀.evidence p (.frame m.data) := fun p hp hne ↦
    .bridged hp hport (fun heq ↦ hne (congrArg some heq)) hframe
  unfold handleLanIpv4
  rcases hview : parseDhcp m.data with - | view
  · show Safe _ _ (if header.dst = cfg.router.serverMac then _ else _) s₀ _
    split_ifs
    · exact safe_then_true (safe_lanEgressNat ⟨port, hport, hframe⟩ now)
    · rw [← zero_add ({m.id} : Multiset MbufId)]
      exact (safe_flood hbridged).bind_done fun t _ _ ↦ safe_then_true (safe_free m.id)
    · exact safe_then_true (safe_transmitToMacOrFloodExcept hbridged)
  · rw [← zero_add ({m.id} : Multiset MbufId)]
    refine (safe_handleDhcp view).bind_frame ?_
    rintro s ⟨reply, ok⟩ n hs ⟨⟨hok, rfl⟩, hreply⟩
    obtain rfl : ok = true := hok
    rcases reply with - | reply
    · rw [zero_add]
      exact safe_then_true (safe_free m.id)
    · have hlegit : Legit cfg s.evidence port (.dhcpReply reply) :=
        .dhcpReply hport (hs.1.received _ hframe) hview (hreply reply rfl).1 (hreply reply rfl).2
      exact (safe_transmitFrame hlegit).bind_done fun t _ _ ↦ safe_then_true (safe_free m.id)

theorem safe_lanFrame {port : PortInfo} (hport : port ∈ cfg.lan) {m : Mbuf}
    (hframe : (port.portId, m.data) ∈ s₀.evidence.received) (now : Tick) :
    Safe (Inv cfg all) Succeeds (lanFrame cfg now port m) s₀ {m.id} := by
  unfold lanFrame
  rcases parse m.data with - | eth
  · exact safe_then_true (safe_free m.id)
  refine safe_quiet_bind (fun _ ↦ ⟨_, _, _, _, rfl⟩) fun s _ hs ↦ ?_
  show Safe _ _ (if eth.isArp then _ else _) s _
  split_ifs
  · rw [← zero_add ({m.id} : Multiset MbufId)]
    refine (safe_handleLanArp hport (hs.1.received _ hframe) now).bind_frame ?_
    rintro t ok n - ⟨rfl, rfl⟩
    rw [zero_add]
    exact safe_then_true (safe_free m.id)
  · exact safe_handleLanIpv4 hport (hs.1.received _ hframe) eth.header now
  · exact safe_then_true (safe_free m.id)

theorem safe_driveLan {port : PortInfo} (hport : port ∈ cfg.lan) (lcore : UInt32) (now : Tick) :
    Safe (Inv cfg all) Succeeds (driveLan cfg lcore now port) s₀ 0 := by
  refine (safe_receive lcore port).bind ?_
  rintro s ms n hs ⟨rfl, hframes⟩
  rw [← sum_ids]
  exact Safe.eachUntil fun m hm t ht ↦ safe_lanFrame hport (ht.1.received _ (hframes m hm)) now

/-! ### The WAN side -/

theorem safe_handleWanArp (frame : Bytes) (now : Tick) :
    Safe (Inv cfg all) Done (handleWanArp cfg now frame) s₀ 0 := by
  have hwan : cfg.wan ∈ cfg.portsOf .wan := List.mem_singleton_self _
  unfold handleWanArp
  rcases parseArp frame with - | ⟨eth, arp⟩
  · exact (rfl : (0 : Multiset MbufId) = 0)
  · refine safe_when (safe_learnArp .wan hwan arp.senderIp arp.sha now) fun s _ ↦ ?_
    show Safe _ _ (if arp.targetIp ≠ Ipv4Addr.unspecified then _ else _) s 0
    split_ifs
    · exact safe_learnArp .wan hwan arp.targetIp arp.tha now
    · exact (rfl : (0 : Multiset MbufId) = 0)

/-- A packet from the WAN side is sent, or queued with a request, or dropped. -/
theorem safe_wanIngressNat {m : Mbuf}
    (hframe : (cfg.wan.portId, m.data) ∈ s₀.evidence.received) (now : Tick) :
    Safe (Inv cfg all) Done (wanIngressNat cfg now m) s₀ {m.id} := by
  unfold wanIngressNat
  rcases htup : parseTcpTuple m.data with - | tup
  · exact safe_free m.id
  refine (safe_translateIn htup).bind ?_
  rintro s o n hs ⟨rfl, htranslated⟩
  rcases o with - | ⟨data, x⟩
  · exact safe_free m.id
  obtain ⟨c, hc, hfwd, hdata⟩ := htranslated _ rfl
  refine (safe_checkIngress (tup.ingressKey x) tup.flags now).bind ?_
  rintro t ok n ht ⟨rfl, hopened⟩
  cases ok with
  | false => exact safe_free m.id
  | true =>
    have hheld : t.evidence.Held cfg .lan data :=
      ⟨m.data, tup, c, x, (hs.trans ht).1.received _ hframe, htup, hc,
        ht.1.nat.fwd_le _ _ hfwd, hopened rfl, hdata⟩
    rcases hlan : cfg.lan.head? with - | anyLan
    · exact safe_free m.id
    have hany : anyLan ∈ cfg.lan := List.mem_of_head? hlan
    refine (safe_resolve .lan x.dstIp { m with data } now hheld).bind ?_
    intro u action n hu hres
    cases action with
    | forward mac p =>
      obtain ⟨rfl, rfl⟩ := hres
      refine safe_transmitToMacOrFloodExcept fun p hp _ ↦ ?_
      exact .crosses .lan mac hp hany (hheld.mono hu.1)
    | queued request =>
      obtain ⟨hrequest, rfl⟩ := hres
      rcases request with - | b
      · exact (rfl : (0 : Multiset MbufId) = 0)
      · exact safe_flood fun p hp _ ↦ .request .lan hp (hrequest b rfl)
    | drop p =>
      obtain ⟨rfl, rfl⟩ := hres
      exact safe_free m.id

/-- A lease held after a message was held before, or is what the message acknowledges. -/
theorem lease_onReceive (c : DhcpClient) (view : DhcpView) :
    (c.onReceive view).mac = c.mac ∧ ∀ l ∈ (c.onReceive view).lease,
      l ∈ c.lease ∨ view.messageType = some .ack ∧ view.header.yourIp = l.ip := by
  have hreceived := c.received view
  generalize c.onReceive view = c' at hreceived ⊢
  cases hreceived with
  | ignored | offered | refused => exact ⟨rfl, fun _ hl ↦ .inl hl⟩
  | acked hxid hkind hstate =>
    refine ⟨rfl, fun l hl ↦ .inr ⟨hkind, ?_⟩⟩
    rw [← Option.some.inj hl]

/-- The client moves, with the address of its port and leases the server acknowledged. -/
theorem Inv.setClient {own : Multiset MbufId} (h : Inv cfg all s own) {c : DhcpClient}
    (hmac : c.mac = s.client.mac)
    (hlease : ∀ l ∈ c.lease, s.evidence.Acked cfg.wan.portId l.ip) :
    s ≤ { s with client := c } ∧ Inv cfg all { s with client := c } own := by
  rw [← add_zero own] at h ⊢
  exact h.step rfl rfl rfl fun hf ↦ { hf with
    clientMac := hmac.trans hf.clientMac
    lease := hlease }

/-- The client is given a message from the WAN port. -/
theorem safe_onReceive {frame : Bytes} {view : DhcpView}
    (hframe : (cfg.wan.portId, frame) ∈ s₀.evidence.received)
    (hview : parseDhcp frame = some view) :
    Safe (Inv cfg all) Done
      (modify fun s : Datapath ↦ { s with client := s.client.onReceive view }) s₀ 0 := by
  refine safe_modify fun s r hs hI ↦ ?_
  obtain ⟨hmac, hlease⟩ := lease_onReceive s.client view
  have hacked : ∀ l ∈ (s.client.onReceive view).lease, s.evidence.Acked cfg.wan.portId l.ip := by
    intro l hl
    rcases hlease l hl with hold | ⟨hkind, hip⟩
    · exact hI.facts.lease l hold
    · exact ⟨frame, view, hs.1.received _ hframe, hview, hkind, hip⟩
  obtain ⟨hle, hI'⟩ := hI.setClient hmac hacked
  exact ⟨hle, 0, hI', rfl⟩

theorem safe_wanFrame {m : Mbuf} (hframe : (cfg.wan.portId, m.data) ∈ s₀.evidence.received)
    (now : Tick) : Safe (Inv cfg all) Done (wanFrame cfg now m) s₀ {m.id} := by
  unfold wanFrame
  rcases parse m.data with - | eth
  · exact safe_free m.id
  refine safe_quiet_bind (fun _ ↦ ⟨_, _, _, _, rfl⟩) fun s _ hs ↦ ?_
  have hframe := hs.1.received _ hframe
  cases harp : eth.isArp with
  | true =>
    rw [if_pos rfl]
    exact safe_then_free (safe_handleWanArp m.data now) m.id
  | false =>
    rw [if_neg nofun]
    rcases hview : parseDhcp m.data with - | view
    · show Safe _ _ (if eth.isIpv4 then _ else _) s _
      split_ifs
      · exact safe_wanIngressNat hframe now
      · exact safe_free m.id
    · exact safe_then_free (safe_onReceive hframe hview) m.id

theorem safe_announceGateway (wanIp gw : Ipv4Addr) :
    Safe (Inv cfg all) Done (announceGateway cfg wanIp gw) s₀ 0 := by
  have hgateway : Safe (Inv cfg all) (fun _ _ m ↦ m = 0)
      (modify fun s : Datapath ↦ s.setFirewall { s.firewall with gateway := gw }) s₀ 0 := by
    refine safe_modify fun s r _ hI ↦ ?_
    obtain ⟨hle, hI'⟩ := hI.step (t := s.setFirewall { s.firewall with gateway := gw }) rfl rfl
      rfl fun hf ↦ { hf with }
    exact ⟨hle, 0, hI', rfl⟩
  refine hgateway.bind ?_
  rintro s - n - rfl
  rcases hrequest : ArpPacket.buildRequest ArpPacket.frameLen cfg.wan.etherAddr wanIp gw with
    - | b
  · exact (rfl : (0 : Multiset MbufId) = 0)
  · exact safe_transmitFrame (.request .wan (List.mem_singleton_self _)
      ⟨wanIp, gw, hrequest⟩)

theorem safe_setWanIp {ip : Ipv4Addr} (hack : s₀.evidence.Acked cfg.wan.portId ip) :
    Safe (Inv cfg all) (fun _ _ m ↦ m = 0) (setWanIp ip) s₀ 0 := by
  refine safe_modify fun s r hs hI ↦ ?_
  have hle' : s.evidence ≤ Evidence.mk s.nic.received (s.firewall.nat.setWanIp ip)
      (s.assigned ++ [ip]) :=
    ⟨fun _ hx ↦ hx, NatTable.extends_setWanIp _ _, fun _ h ↦ List.mem_append_left _ h,
      fun _ ↦ List.mem_append_right _ (List.mem_singleton_self ip)⟩
  have hassigned : ∀ ip' ∈ s.assigned ++ [ip], s.evidence.Acked cfg.wan.portId ip' := by
    rw [List.forall_mem_append, List.forall_mem_singleton]
    exact ⟨hI.facts.assigned, hack.mono hs.1⟩
  obtain ⟨hle, hI'⟩ := hI.grow (t := { s.setFirewall { s.firewall with
      nat := s.firewall.nat.setWanIp ip } with assigned := s.assigned ++ [ip] })
    rfl hle' rfl (NatTable.inv_setWanIp hI.nat ip)
    (Or.inr (List.mem_append_right _ (List.mem_singleton_self ip))) fun hf ↦ { hf with
      assigned := fun ip' hip' ↦ (hassigned ip' hip').mono hle' }
  exact ⟨hle, 0, hI', rfl⟩

/-- The WAN neighbor table takes a new address for its requests. -/
theorem safe_setOurIp (ip : Ipv4Addr) :
    Safe (Inv cfg all) (fun _ _ m ↦ m = 0)
      (modify fun s : Datapath ↦ s.setNeighbors ((s.neighbors .wan).setOurIp ip) .wan) s₀ 0 := by
  refine safe_modify fun s r _ hI ↦ ?_
  obtain ⟨hle, hI'⟩ := hI.setNeighbors .wan (t := (s.neighbors .wan).setOurIp ip) rfl rfl
    nofun (hI.facts.waiting .wan)
  exact ⟨hle, 0, hI', rfl⟩

theorem safe_boundIp : Safe (Inv cfg all) (fun s o m ↦ m = 0 ∧
      ∀ ip ∈ o, s.evidence.Acked cfg.wan.portId ip)
    (read fun s : Datapath ↦ s.client.boundIp) s₀ 0 := by
  refine safe_read fun s r _ hI ↦ ⟨rfl, fun ip hip ↦ ?_⟩
  obtain ⟨l, hl, rfl⟩ := Option.map_eq_some_iff.1 hip
  exact hI.facts.lease l hl

theorem safe_poll : Safe (Inv cfg all) (fun _ o m ↦ m = 0 ∧
      ∀ message ∈ o, message.mac = cfg.wan.etherAddr)
    (call fun s : Datapath ↦ (s.client.poll.2, { s with client := s.client.poll.1 })) s₀ 0 := by
  refine safe_call fun s r _ hI ↦ ?_
  have hclient : s.client.poll.1.mac = s.client.mac ∧ s.client.poll.1.lease = s.client.lease ∧
      ∀ message ∈ s.client.poll.2, message.mac = s.client.mac := by
    unfold DhcpClient.poll
    rcases s.client.state with - | - | - | -
    · refine ⟨rfl, rfl, fun message h ↦ ?_⟩
      rw [← Option.some.inj h]
      exact (s.client.build_fields _).2.1
    · exact ⟨rfl, rfl, nofun⟩
    · refine ⟨rfl, rfl, fun message h ↦ ?_⟩
      rw [← Option.some.inj h]
      exact (s.client.build_fields _).2.1
    · exact ⟨rfl, rfl, nofun⟩
  obtain ⟨hmac, hlease, hmessage⟩ := hclient
  obtain ⟨hle, hI'⟩ := hI.setClient hmac (hlease ▸ hI.facts.lease)
  exact ⟨hle, 0, hI', rfl, fun message h ↦ (hmessage message h).trans hI.facts.clientMac⟩

theorem safe_driveClient : Safe (Inv cfg all) Done (driveClient cfg) s₀ 0 := by
  refine safe_boundIp.bind ?_
  rintro s o n hs ⟨rfl, hack⟩
  rcases o with - | wanIp
  · refine safe_poll.bind ?_
    rintro t o n ht ⟨rfl, hmessage⟩
    rcases o with - | message
    · exact (rfl : (0 : Multiset MbufId) = 0)
    · exact safe_transmitFrame (.dhcpMessage (hmessage message rfl))
  refine safe_quiet_bind (fun _ ↦ ⟨_, _, _, _, rfl⟩) fun t old ht ↦ ?_
  show Safe _ _ (if old ≠ wanIp then _ else _) t 0
  split_ifs
  · refine (safe_setOurIp wanIp).bind ?_
    rintro u - n hu rfl
    refine (safe_setWanIp ((hack wanIp rfl).mono (ht.trans hu).1)).bind ?_
    rintro v - n - rfl
    refine safe_quiet_bind (fun _ ↦ ⟨_, _, _, _, rfl⟩) fun w gw _ ↦ ?_
    rcases gw with - | gw
    · exact (rfl : (0 : Multiset MbufId) = 0)
    · exact safe_announceGateway wanIp gw
  · exact (rfl : (0 : Multiset MbufId) = 0)

theorem safe_driveWan (lcore : UInt32) (now : Tick) :
    Safe (Inv cfg all) Done (driveWan cfg lcore now) s₀ 0 := by
  refine (safe_receive lcore cfg.wan).bind ?_
  rintro s ms n hs ⟨rfl, hframes⟩
  have hloop : Safe (Inv cfg all) Done (each (wanFrame cfg now) ms) s (ids ms) := by
    rw [← sum_ids]
    exact Safe.each fun m hm t ht ↦ safe_wanFrame (ht.1.received _ (hframes m hm)) now
  rw [← add_zero (ids ms)]
  exact hloop.bind_done fun t _ _ ↦ safe_driveClient

/-! ### The loop -/

theorem safe_sweepPort (side : Segment) {port : PortInfo} (hport : port ∈ cfg.portsOf side)
    (now : Tick) : Safe (Inv cfg all) Done (sweepPort cfg now side port) s₀ 0 := by
  refine (safe_sweepNeighbors side now).bind ?_
  rintro s ⟨requests, dropped⟩ n - ⟨rfl, hrequests⟩
  rw [← zero_add (ids dropped)]
  refine Safe.bind_done (safe_each_zero fun b hb t _ ↦ ?_) fun t _ _ ↦ ?_
  · exact safe_transmitFrame (.request side hport (hrequests b hb))
  · rw [← sum_ids]
    exact Safe.each fun m _ u _ ↦ safe_free m.id

theorem safe_maybeSweep (now : Tick) : Safe (Inv cfg all) Done (maybeSweep cfg now) s₀ 0 := by
  refine safe_quiet_bind (fun _ ↦ ⟨_, _, _, _, rfl⟩) fun s last _ ↦ ?_
  show Safe _ _ (if last ≠ 0 ∧ now - last < App.sweepIntervalMs then _ else _) s 0
  split_ifs
  · exact (rfl : (0 : Multiset MbufId) = 0)
  refine safe_quiet_bind (fun _ ↦ ⟨_, _, _, _, rfl⟩) fun t _ _ ↦ ?_
  refine (safe_sweepPort .wan (List.mem_singleton_self _) now).bind ?_
  rintro u - n - rfl
  refine (safe_each_zero fun p hp v _ ↦ safe_sweepPort .lan hp now).bind ?_
  rintro v - n - rfl
  refine safe_modify fun w r _ hI ↦ ?_
  obtain ⟨hle, hI'⟩ := step_conntrack hI (.sweep now) nofun
  exact ⟨hle, 0, hI', rfl⟩

theorem safe_iteration (lcore : UInt32) (now : Tick) :
    Safe (Inv cfg all) Done (iteration cfg lcore now) s₀ 0 := by
  refine safe_quiet_bind (fun _ ↦ ⟨_, _, _, _, rfl⟩) fun s shutdown _ ↦ ?_
  cases shutdown with
  | true => exact (rfl : (0 : Multiset MbufId) = 0)
  | false =>
    refine (safe_driveWan lcore now).bind ?_
    rintro t - n - rfl
    have hloop : Safe (Inv cfg all) Succeeds
        (eachUntil (driveLan cfg lcore now) (fun _ ↦ pure ()) cfg.lan) t
        (cfg.lan.map fun _ ↦ (0 : Multiset MbufId)).sum :=
      Safe.eachUntil fun port hport u _ ↦ safe_driveLan hport lcore now
    rw [List.map_const', List.sum_replicate, nsmul_zero] at hloop
    refine hloop.bind ?_
    rintro u ok n - ⟨rfl, rfl⟩
    show Safe _ _ (if lcore = cfg.sweeperLcore then _ else _) u 0
    split_ifs
    · exact safe_maybeSweep now
    · exact (rfl : (0 : Multiset MbufId) = 0)

/-! ### The environment -/

/-- **What the devices do keeps the invariant.** -/
theorem Inv.nicStep {own : Multiset MbufId} {e : NicEvent} (h : Inv cfg all s own)
    (hst : NicStep cfg s e t) : s ≤ t ∧ Inv cfg all t own := by
  rw [← add_zero own] at h ⊢
  cases hst with
  | @arrive q frame id hfree hpool =>
    have hnic : Nic.held { s.nic with
        free := s.nic.free.erase id
        rx := s.nic.rx ++ [(q, ⟨id, frame⟩)]
        received := s.nic.received ++ [(q.1, frame)] } + 0 = s.nic.held + 0 := by
      have hids : ids ((s.nic.rx ++ [(q, (⟨id, frame⟩ : Mbuf))]).map (·.2)) =
          ids (s.nic.rx.map (·.2)) + {id} := by
        simp [ids, ← Multiset.coe_add]
      simp only [Nic.held, hids, ← coe_erase_add hfree]
      abel
    have hle : s.evidence ≤ Evidence.mk (s.nic.received ++ [(q.1, frame)]) s.firewall.nat
        s.assigned :=
      ⟨fun _ hx ↦ List.mem_append_left _ hx, .refl _, fun _ hip ↦ hip, fun hip ↦ hip⟩
    refine h.grow (held_setNic s _ hnic) hle rfl h.nat h.wanIp fun hf ↦ { hf with rx := ?_ }
    show ∀ x ∈ s.nic.rx ++ [(q, (⟨id, frame⟩ : Mbuf))],
      (x.1.1, x.2.data) ∈ s.nic.received ++ [(q.1, frame)]
    rw [List.forall_mem_append, List.forall_mem_singleton]
    exact ⟨hf.rx, List.mem_append_right _ (List.mem_singleton_self _)⟩
  | @complete id htx =>
    have hnic : Nic.held { s.nic with free := id :: s.nic.free, tx := s.nic.tx.erase id } + 0 =
        s.nic.held + 0 := by
      simp only [Nic.held, ← Multiset.cons_coe, ← Multiset.singleton_add, ← coe_erase_add htx]
      abel
    exact h.step (held_setNic s _ hnic) rfl rfl fun hf ↦ { hf with }
  | @reorder free hperm =>
    have hnic : Nic.held { s.nic with free } + 0 = s.nic.held + 0 := by
      simp only [Nic.held, Multiset.coe_eq_coe.2 hperm]
    exact h.step (held_setNic s _ hnic) rfl rfl fun hf ↦ { hf with }
  | oblige allocates accepts => exact h.step rfl rfl rfl fun hf ↦ { hf with }
  | signal => exact (show Quiet s _ from ⟨_, _, _, _, rfl⟩).step h

theorem inv_boot {dhcp : DhcpState} {nat : NatTable} {xid : UInt32} {mbufs : List MbufId}
    (hdhcp : dhcp.Sound) (hnat : nat.Inv) (hwan : nat.wanIp = Ipv4Addr.unspecified) :
    Inv cfg mbufs (boot cfg dhcp nat xid mbufs) 0 where
  mbufs := by
    show (mbufs : Multiset MbufId) + 0 + 0 + 0 + 0 + 0 + 0 = _
    simp only [add_zero]
  nat := hnat
  wanIp := Or.inl hwan
  facts :=
    { lease := nofun
      assigned := nofun
      clientMac := rfl
      flows := nofun
      lanIdentity := ⟨rfl, rfl⟩
      wanIdentity := rfl
      waiting := by
        rintro (_ | _) m hm <;> exact absurd hm (Multiset.notMem_zero m)
      rx := nofun
      sent := nofun
      dhcp := hdhcp
      stuck := rfl
      leaked := rfl }

section Runs

variable {W : Type*} [DecidableEq W] [Fintype W] {lcore : W → UInt32} {start end_ : Ipv4Addr}
  {reserved : List Ipv4Addr} {dhcp : DhcpState} {nat : NatTable} {lo hi : UInt16} {xid : UInt32}
  {mbufs : List MbufId} {tr : List (Turn W NicEvent Datapath)}
  {c : (W → Program Datapath Unit) × Datapath}

/-- **The invariant holds in every interleaving**, and what was known at the start still is. -/
theorem le_and_covered (hdhcp : DhcpState.boot start end_ reserved = some dhcp)
    (hnat : NatTable.new Ipv4Addr.unspecified lo hi = some nat)
    (h : (system cfg lcore).Run (atRest W (boot cfg dhcp nat xid mbufs)) tr c) :
    boot cfg dhcp nat xid mbufs ≤ c.2 ∧ Covered (Inv cfg mbufs) c := by
  have hboot : Inv cfg mbufs (boot cfg dhcp nat xid mbufs) 0 :=
    inv_boot (DhcpState.sound_boot hdhcp) (NatTable.inv_new hnat).1 (wanIp_of_new hnat)
  refine covered_of_run ?_ (fun s e t r hst hI ↦ hI.nicStep hst) hboot h
  rintro w p ⟨now, rfl⟩ s
  exact safe_iteration (lcore w) now

/-- What is sent has a reason. -/
theorem legit_of_sent (hdhcp : DhcpState.boot start end_ reserved = some dhcp)
    (hnat : NatTable.new Ipv4Addr.unspecified lo hi = some nat)
    (h : (system cfg lcore).Run (atRest W (boot cfg dhcp nat xid mbufs)) tr c) {id : PortId}
    {payload : Payload} (hsent : (id, payload) ∈ c.2.nic.sent) :
    ∃ port, port.portId = id ∧ Legit cfg c.2.evidence port payload := by
  obtain ⟨-, past, own, hshare⟩ := le_and_covered hdhcp hnat h
  exact hshare.inv.facts.sent _ hsent

/-- **No assertion of the address pool fails**, however the workers interleave: what is given back
to it is within its bounds. And unless it ends with the last of all addresses, no call that could be
made at this point overflows or is out of range. -/
theorem assertions_hold (hdhcp : DhcpState.boot start end_ reserved = some dhcp)
    (hnat : NatTable.new Ipv4Addr.unspecified lo hi = some nat)
    (h : (system cfg lcore).Run (atRest W (boot cfg dhcp nat xid mbufs)) tr c) :
    c.2.poolStuck = false ∧ (end_.toNat + 1 < 2 ^ 32 →
      (∀ ip, c.2.ports.lan.dhcp.pool.reserveChecked ip =
        some (c.2.ports.lan.dhcp.pool.reserve ip)) ∧
      (∀ n, c.2.ports.lan.dhcp.pool.takeChecked n = some (c.2.ports.lan.dhcp.pool.take n)) ∧
      ∀ ip, c.2.ports.lan.dhcp.pool.releaseChecked ip =
        c.2.ports.lan.dhcp.pool.release ip) := by
  obtain ⟨hle, past, own, hshare⟩ := le_and_covered hdhcp hnat h
  refine ⟨hshare.inv.facts.stuck, fun hend ↦ hshare.inv.facts.dhcp.bounded.checked_eq ?_⟩
  have hbounds : c.2.ports.lan.dhcp.pool.end_ = dhcp.pool.end_ := congrArg Prod.snd hle.2
  rw [hbounds, (DhcpState.pool_boot hdhcp).2.2.1]
  exact hend

/-- **No buffer is lost, and none is in two places.** However many workers there are, in whatever
order they take their turns, and whatever the devices refuse: the buffers in the mempools, with the
devices and in the neighbor tables are among those there were at the start, each counted once, and
when no worker is in the middle of its loop they are all of them. -/
theorem mbufs_conserved (hdhcp : DhcpState.boot start end_ reserved = some dhcp)
    (hnat : NatTable.new Ipv4Addr.unspecified lo hi = some nat)
    (h : (system cfg lcore).Run (atRest W (boot cfg dhcp nat xid mbufs)) tr c) :
    c.2.held ≤ (mbufs : Multiset MbufId) ∧ c.2.leaked = [] ∧
      ((∀ w, c.1 w = .ret ()) → c.2.held = (mbufs : Multiset MbufId)) := by
  obtain ⟨-, past, own, hshare⟩ := le_and_covered hdhcp hnat h
  have hmbufs := hshare.inv.mbufs
  refine ⟨?_, hshare.inv.facts.leaked, fun hrest ↦ ?_⟩
  · rw [← hmbufs]
    exact Multiset.le_add_right _ _
  · rw [← hmbufs, Finset.sum_eq_zero fun w _ ↦ hshare.own_eq_zero (hrest w), add_zero]

/-- **What leaves on the WAN port**, in any interleaving: messages of the DHCP client, requests for
a neighbor, and TCP frames that came in on a LAN port, with their source endpoint replaced by an
address that a DHCP server on the WAN acknowledged and the port that is bound to the endpoint. -/
theorem wan_sends (hdhcp : DhcpState.boot start end_ reserved = some dhcp)
    (hnat : NatTable.new Ipv4Addr.unspecified lo hi = some nat)
    (h : (system cfg lcore).Run (atRest W (boot cfg dhcp nat xid mbufs)) tr c) {payload : Payload}
    (hsent : (cfg.wan.portId, payload) ∈ c.2.nic.sent) :
    (∃ message, payload = .dhcpMessage message ∧ message.mac = cfg.wan.etherAddr) ∨
      (∃ bytes, payload = .frame bytes ∧ cfg.Request .wan bytes) ∨
      ∃ bytes mac, payload = .frame (setEthernet bytes cfg.wan.etherAddr mac) ∧
        c.2.evidence.Outbound cfg bytes ∧
        ∀ ip ∈ c.2.assigned, c.2.evidence.Acked cfg.wan.portId ip := by
  obtain ⟨-, past, own, hshare⟩ := le_and_covered hdhcp hnat h
  obtain ⟨port, hid, hlegit⟩ := legit_of_sent hdhcp hnat h hsent
  -- the reasons for sending on a LAN port do not apply
  have hwan : port ∉ cfg.lan := fun hlan ↦ cfg.wan_notMem (hid ▸ List.mem_map_of_mem hlan)
  cases hlegit with
  | @request side _ bytes hport hrequest =>
    cases side with
    | lan => exact absurd hport hwan
    | wan => exact .inr (.inl ⟨bytes, rfl, hrequest⟩)
  | @crosses side _ q bytes mac hport hq hheld =>
    cases side with
    | lan => exact absurd hport hwan
    | wan =>
      obtain rfl := List.mem_singleton.1 hq
      exact .inr (.inr ⟨bytes, mac, rfl, hheld, hshare.inv.facts.assigned⟩)
  | reply sha spa hport hreply => exact absurd hport hwan
  | bridged hport hq hne hframe => exact absurd hport hwan
  | dhcpReply hport hframe hview hclient hxid => exact absurd hport hwan
  | @dhcpMessage message hmac => exact .inl ⟨message, rfl, hmac⟩

/-- **What is sent on a LAN port**, in any interleaving: the DHCP server's answers to messages from
this port, ARP packets of the router, frames that came in on another LAN port, and TCP frames that
came in on the WAN port, of a flow that a LAN host opened, with their destination replaced by that
host's endpoint. -/
theorem lan_sends (hdhcp : DhcpState.boot start end_ reserved = some dhcp)
    (hnat : NatTable.new Ipv4Addr.unspecified lo hi = some nat)
    (h : (system cfg lcore).Run (atRest W (boot cfg dhcp nat xid mbufs)) tr c) {p : PortInfo}
    (hp : p ∈ cfg.lan) {payload : Payload} (hsent : (p.portId, payload) ∈ c.2.nic.sent) :
    (∃ frame view reply, payload = .dhcpReply reply ∧ (p.portId, frame) ∈ c.2.nic.received ∧
        parseDhcp frame = some view ∧ reply.client = view.header.clientMac ∧
        reply.xid = view.header.xid) ∨
      (∃ bytes, payload = .frame bytes ∧ (cfg.Request .lan bytes ∨
        (∃ sha spa, ArpPacket.buildReply LanState.frameMax cfg.router.serverMac
          cfg.router.serverIp sha spa = some bytes) ∨
        ∃ q ∈ cfg.lan, q.portId ≠ p.portId ∧ (q.portId, bytes) ∈ c.2.nic.received)) ∨
      ∃ bytes mac, ∃ q ∈ cfg.lan, payload = .frame (setEthernet bytes q.etherAddr mac) ∧
        c.2.evidence.Inbound cfg bytes := by
  obtain ⟨port, hid, hlegit⟩ := legit_of_sent hdhcp hnat h hsent
  -- the reasons for sending on the WAN port do not apply
  have hwan : port ≠ cfg.wan := by
    rintro rfl
    exact cfg.wan_notMem (hid ▸ List.mem_map_of_mem hp)
  cases hlegit with
  | @request side _ bytes hport hrequest =>
    cases side with
    | lan => exact .inr (.inl ⟨bytes, rfl, .inl hrequest⟩)
    | wan => exact absurd (List.mem_singleton.1 hport) hwan
  | @crosses side _ q bytes mac hport hq hheld =>
    cases side with
    | lan => exact .inr (.inr ⟨bytes, mac, q, hq, rfl, hheld⟩)
    | wan => exact absurd (List.mem_singleton.1 hport) hwan
  | @reply _ bytes sha spa hport hreply =>
    exact .inr (.inl ⟨bytes, rfl, .inr (.inl ⟨sha, spa, hreply⟩)⟩)
  | @bridged _ q bytes hport hq hne hframe =>
    exact .inr (.inl ⟨bytes, rfl, .inr (.inr ⟨q, hq, fun heq ↦ hne (hid.trans heq.symm), hframe⟩)⟩)
  | @dhcpReply _ frame view reply hport hframe hview hclient hxid =>
    exact .inl ⟨frame, view, reply, rfl, hid ▸ hframe, hview, hclient, hxid⟩
  | dhcpMessage hmac => exact absurd rfl hwan

end Runs

/-! ### A run -/

/-- A router with two LAN ports, all polled by lcore 0. -/
def sampleConfig : DatapathConfig where
  toAppConfig := App.sampleConfig
  device id := ⟨⟨id, 1, 1, false⟩, .singleOwner 0, ⟨∅, 1⟩⟩
  pool _ := 0
  sweeperLcore := 1

def sampleNat : NatTable := ⟨0, 40000, 40010, 40000, ∅, ∅⟩

/-- A broadcast IPv4 frame of a host, with nothing in it. -/
def sampleBroadcast (host : UInt8) : Bytes := List.replicate 6 0xff ++ [2, 0, 0, 0, 0, host, 8, 0]

def sampleMbufs : List MbufId := [⟨0, 0⟩, ⟨0, 1⟩, ⟨0, 2⟩, ⟨0, 3⟩, ⟨0, 4⟩, ⟨0, 5⟩]

def sampleStart : Datapath := boot sampleConfig Ports.sampleDhcp sampleNat 1 sampleMbufs

/-- The frame of a host has been received on the port of the same number. -/
def sampleArrive (s : Datapath) (host : UInt8) (id : MbufId) : Datapath :=
  s.setNic { s.nic with
    free := s.nic.free.erase id
    rx := s.nic.rx ++ [((host.toUInt16, 0), ⟨id, sampleBroadcast host⟩)]
    received := s.nic.received ++ [(host.toUInt16, sampleBroadcast host)] }

/-- A frame has been received on either LAN port. -/
def sampleArrived : Datapath := sampleArrive (sampleArrive sampleStart 1 ⟨0, 0⟩) 2 ⟨0, 1⟩

/-- Up to here, the devices do all they are asked for. -/
theorem run_sampleArrived {W : Type*} [DecidableEq W] (lcore : W → UInt32) :
    ((system sampleConfig lcore).restrict fun c _ ↦ c.2.Obliging sampleConfig).Run
      (atRest W sampleStart)
      [.env (.arrive (1, 0) (sampleBroadcast 1)), .env (.arrive (2, 0) (sampleBroadcast 2))]
      (atRest W sampleArrived) := by
  have harrive (s : Datapath) (host : UInt8) (id : MbufId) (hs : s.Obliging sampleConfig)
      (hfree : id ∈ s.nic.free) (hpool : id.pool = 0) :
      ((system sampleConfig lcore).restrict fun c _ ↦ c.2.Obliging sampleConfig).step
        (atRest W s) (.env (.arrive (host.toUInt16, 0) (sampleBroadcast host)))
        (atRest W (sampleArrive s host id)) := ⟨hs, .env (.arrive hfree hpool)⟩
  exact (TransitionSystem.Run.single (harrive sampleStart 1 ⟨0, 0⟩ (by decide) (by decide)
    rfl)).snoc (harrive _ 2 ⟨0, 1⟩ (by decide) (by decide) rfl)

/-- Two workers: one on the lcore that polls, and one on the lcore that sweeps. -/
def sampleLcore : Bool → UInt32
  | false => 0
  | true => 1

/-- Both have started on a turn of their loops. -/
def sampleStarted : Bool → Program Datapath Unit :=
  Function.update (Function.update (fun _ ↦ .ret ()) false (iteration sampleConfig 0 1)) true
    (iteration sampleConfig 1 1)

/-- They have taken nine turns each. -/
def sampleHalfway : (Bool → Program Datapath Unit) × Datapath :=
  play sampleStarted sampleArrived (List.replicate 9 [false, true]).flatten

/-- From then on the devices take nothing. -/
def sampleDone : (Bool → Program Datapath Unit) × Datapath :=
  play sampleHalfway.1
    (sampleHalfway.2.setNic { sampleHalfway.2.nic with allocates := true, accepts := false })
    (List.replicate 12 [false, true]).flatten

theorem run_sample : ∃ tr, (system sampleConfig sampleLcore).Run
    (atRest Bool sampleStart) tr sampleDone := by
  have hstarted : (system sampleConfig sampleLcore).Run (atRest Bool sampleArrived)
      [.start false (iteration sampleConfig 0 1), .start true (iteration sampleConfig 1 1)]
      (sampleStarted, sampleArrived) := by
    refine (TransitionSystem.Run.single (T := system sampleConfig sampleLcore)
      (.start rfl ⟨1, rfl⟩)).snoc (.start ?_ ⟨1, rfl⟩)
    exact Function.update_of_ne (by decide) _ _
  obtain ⟨tr, hhalfway⟩ : ∃ tr, (system sampleConfig sampleLcore).Run
    (sampleStarted, sampleArrived) tr sampleHalfway := run_play _ _ _
  have hrefuse : (system sampleConfig sampleLcore).step sampleHalfway (.env (.oblige true false))
      (sampleHalfway.1, sampleHalfway.2.setNic
        { sampleHalfway.2.nic with allocates := true, accepts := false }) :=
    .env (.oblige true false)
  obtain ⟨tr', hdone⟩ : ∃ tr, (system sampleConfig sampleLcore).Run (sampleHalfway.1,
      sampleHalfway.2.setNic { sampleHalfway.2.nic with allocates := true, accepts := false })
    tr sampleDone := run_play _ _ _
  exact ⟨_, (((run_sampleArrived sampleLcore).of_restrict.trans hstarted).trans
    (hhalfway.snoc hrefuse)).trans hdone⟩

theorem new_sampleNat : NatTable.new Ipv4Addr.unspecified 40000 40010 = some sampleNat := rfl

/-- One of the frames was not taken by the device, and its buffers are free again. -/
theorem mbufs_conserved_sample : sampleDone.2.held = (sampleMbufs : Multiset MbufId) := by
  obtain ⟨tr, hrun⟩ := run_sample
  have hfinished : ∀ w, (sampleDone.1 w).finished = true := by decide +kernel
  exact (mbufs_conserved Ports.boot_sampleDhcp new_sampleNat hrun).2.2 fun w ↦
    eq_ret_of_finished (hfinished w)

/-- No call on the pool has failed on the way, and none that comes next would overflow. -/
theorem assertions_hold_sample : sampleDone.2.poolStuck = false ∧
    ∀ n, sampleDone.2.ports.lan.dhcp.pool.takeChecked n =
      some (sampleDone.2.ports.lan.dhcp.pool.take n) := by
  obtain ⟨tr, hrun⟩ := run_sample
  obtain ⟨hstuck, hchecked⟩ := assertions_hold Ports.boot_sampleDhcp new_sampleNat hrun
  exact ⟨hstuck, (hchecked (by decide)).2.1⟩

/-- The DHCP client has sent its first message. -/
theorem wan_sends_sample : ∃ payload, ((0, payload) : Transmission) ∈ sampleDone.2.nic.sent ∧
    ∃ message, payload = .dhcpMessage message ∧ message.mac = sampleMac 0xf0 := by
  obtain ⟨tr, hrun⟩ := run_sample
  have hsent : ((0, .dhcpMessage ((DhcpClient.new (sampleMac 0xf0) 1).build .discover)) :
      Transmission) ∈ sampleDone.2.nic.sent := by decide +kernel
  rcases wan_sends Ports.boot_sampleDhcp new_sampleNat hrun hsent with
    hclient | ⟨bytes, heq, -⟩ | ⟨bytes, mac, heq, -⟩
  · exact ⟨_, hsent, hclient⟩
  · cases heq
  · cases heq

/-- The frame from port 1 has been repeated on port 2. -/
theorem lan_sends_sample :
    ((2, .frame (sampleBroadcast 1)) : Transmission) ∈ sampleDone.2.nic.sent ∧
      ∃ q ∈ sampleConfig.lan, q.portId ≠ 2 ∧
        (q.portId, sampleBroadcast 1) ∈ sampleDone.2.nic.received := by
  obtain ⟨tr, hrun⟩ := run_sample
  have hsent : ((2, .frame (sampleBroadcast 1)) : Transmission) ∈ sampleDone.2.nic.sent := by
    decide +kernel
  have hreceived : sampleDone.2.nic.received =
      [(1, sampleBroadcast 1), (2, sampleBroadcast 2)] := by decide +kernel
  refine ⟨hsent, ?_⟩
  rcases lan_sends Ports.boot_sampleDhcp new_sampleNat hrun (p := ⟨2, sampleMac 0xf2⟩) (by decide)
      hsent with
    ⟨_, _, _, heq, -⟩ | ⟨bytes, heq, ⟨target, harp⟩ | ⟨sha, spa, harp⟩ | hbridged⟩ |
      ⟨_, _, _, _, -, frame, _, _, _, hframe, -⟩
  · cases heq
  -- an ARP packet has 42 bytes
  · cases heq
    have hlen : 42 = 14 := congrArg List.length (Option.some.inj harp)
    cases hlen
  · cases heq
    have hlen : 42 = 14 := congrArg List.length (Option.some.inj harp)
    cases hlen
  · cases heq
    exact hbridged
  · -- nothing has come in on the WAN port
    have hwan : ((0, frame) : PortId × Bytes) ∈ sampleDone.2.nic.received := hframe
    rw [hreceived] at hwan
    simp at hwan

end Datapath

end UserspaceRouter
