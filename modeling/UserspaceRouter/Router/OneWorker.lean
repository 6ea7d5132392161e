import UserspaceRouter.Router.Account
import UserspaceRouter.Router.ArpAnswers
import UserspaceRouter.Router.DatapathSafety
import UserspaceRouter.Router.Reservations

/-!
# One worker is the router of `App`

The programs of `Datapath` and the handlers of `App` were written down from the same code, once with
its locks, buffers and devices and once without. A single worker relates the two: each of its
programs does what the handler of the same name says (`does_handleLanArp`, `does_lanFrame`,
`does_wanFrame` and so on), and a turn of its loop is a run of `App` (`serves_iteration`). Whatever
is proved of the runs of `App` is therefore true of a router with one worker.

The handlers of `App` can fail, where an assertion does. They do not (`App.exists_driveLan`), as the
addresses in the tables of the DHCP server are within bounds in every run (`App.sound_run`).
-/

namespace UserspaceRouter

open Program TransitionSystem

/-! ### No event fails -/

theorem LanState.sound_poolAfterArp {s : LanState Bytes} (h : s.dhcp.Sound) {arp : ArpPacket}
    {pool : AddressPool} (hpool : s.poolAfterArp arp = some pool) :
    DhcpState.Sound { s.dhcp with pool } := by
  obtain ⟨hbounded, hstart, hend⟩ := h.bounded.reserve arp.senderIp
  rcases hold : s.staleIp arp with - | oldIp
  · simp only [LanState.poolAfterArp, hold] at hpool
    obtain rfl := Option.some.inj hpool
    exact h.of_pool hbounded hstart hend
  · simp only [LanState.poolAfterArp, hold] at hpool
    obtain ⟨hbounded', hstart', hend'⟩ := hbounded.release hpool
    exact h.of_pool hbounded' (hstart'.trans hstart) (hend'.trans hend)

namespace App

variable {cfg : AppConfig} {s t : App}

/-- **The tables of the DHCP server stay sound.** -/
theorem sound_run (h : s.ports.lan.dhcp.Sound) {tr : List (Event cfg × List Transmission)}
    (hrun : (system cfg).Run s tr t) : t.ports.lan.dhcp.Sound := by
  obtain ⟨tr', hports⟩ := (refines_run hrun).ports
  refine hports.invariant (I := fun p ↦ p.lan.dhcp.Sound) h ?_
  rintro p ⟨e, o⟩ q hp hst
  rcases Ports.step_dhcp_cases hst with ⟨hdhcp, -⟩ | ⟨cfg, view, r, -, -, hhandle⟩ |
    ⟨frame, now, eth, arp, pool, out, -, -, -, hpool, hdhcp⟩
  · rw [hdhcp]
    exact hp
  · obtain ⟨dhcp, r', hhandle', hsound, -⟩ := hp.handle cfg view
    rw [hhandle'] at hhandle
    rw [← (Prod.mk.inj (Option.some.inj hhandle)).1]
    exact hsound
  · rw [hdhcp]
    exact LanState.sound_poolAfterArp hp hpool

/-- **A LAN frame never meets a failed assertion**, while the tables are sound. -/
theorem exists_driveLan (h : s.ports.lan.dhcp.Sound) (cfg : AppConfig) (port : PortInfo)
    (frame : Bytes) (now : Tick) : ∃ t out, s.driveLan cfg port frame now = some (t, out) := by
  unfold driveLan
  rcases parse frame with - | eth
  · exact ⟨_, _, rfl⟩
  show ∃ t out, (if eth.isArp then _ else _) = some (t, out)
  split_ifs
  · rcases harp : parseArp frame with - | ⟨header, arp⟩
    · exact ⟨_, _, by simp only [handleLanArp, LanState.handleLanArp, harp]; rfl⟩
    · obtain ⟨pool, hpool⟩ := exists_poolAfterArp
        (s.learn eth.header.src port.portId).ports.lan arp
      exact ⟨_, _, by simp only [handleLanArp, LanState.handleLanArp, harp, hpool]; rfl⟩
  · rcases hview : parseDhcp frame with - | view
    · simp only [handleLanIpv4, hview]
      split_ifs <;> exact ⟨_, _, rfl⟩
    · obtain ⟨dhcp, reply, hhandle, -⟩ := h.handle cfg.dhcp view
      exact ⟨_, _, by simp only [handleLanIpv4, hview, learn, hhandle]; rfl⟩
  · exact ⟨_, _, rfl⟩

theorem setNeighbors_self (a : App) (side : Segment) :
    a.setNeighbors (a.neighbors side) side = a := by
  cases side <;> rfl

/-- The frame an event is about, and the port it was received on. -/
def Event.frame : Event cfg → Option (PortId × Bytes)
  | .lanFrame port frame _ => some (port.1.portId, frame)
  | .wanFrame frame _ => some (cfg.wan.portId, frame)
  | .client | .sweep _ => none

/-- The frames handled in a run, oldest first. -/
def handled (tr : List (Event cfg × List Transmission)) : List (PortId × Bytes) :=
  tr.filterMap fun x ↦ x.1.frame

theorem handled_snoc (tr : List (Event cfg × List Transmission)) (e : Event cfg)
    (out : List Transmission) : handled (tr ++ [(e, out)]) = handled tr ++ e.frame.toList := by
  rw [handled, List.filterMap_append]
  rcases he : e.frame with - | x <;> simp [handled, he]

end App

/-! ### What fits in a buffer -/

theorem length_buildRequest {n : ℕ} {mac : MacAddr} {ip target : Ipv4Addr} {b : Bytes}
    (h : ArpPacket.buildRequest n mac ip target = some b) : b.length ≤ tailroom := by
  unfold ArpPacket.buildRequest at h
  split_ifs at h
  obtain rfl := Option.some.inj h
  rw [length_frame]
  decide

theorem length_buildReply {n : ℕ} {mac mac' : MacAddr} {ip ip' : Ipv4Addr} {b : Bytes}
    (h : ArpPacket.buildReply n mac ip mac' ip' = some b) : b.length ≤ tailroom := by
  unfold ArpPacket.buildReply at h
  split_ifs at h
  obtain rfl := Option.some.inj h
  rw [length_frame]
  decide

theorem length_setEthernet (frame : Bytes) (src dst : MacAddr) :
    (setEthernet frame src dst).length = frame.length := by
  unfold setEthernet
  split_ifs with hlen
  · have hsrc : (writeAt frame 6 src.octets).length = frame.length :=
      length_writeAt (le_trans (show 6 + 6 ≤ 14 by decide) hlen)
    rw [length_writeAt, hsrc]
    rw [hsrc]
    exact le_trans (show 0 + 6 ≤ 14 by decide) hlen
  · rfl

theorem length_translateIngress {frame : Bytes} {nat : NatTable} {x : Ingress}
    (h : (translateIngress frame nat).2 = some x) :
    (translateIngress frame nat).1.length = frame.length := by
  obtain ⟨c, hc, -, heq⟩ := translateIngress_eq_some h
  obtain ⟨eth, ip, hviews⟩ := classify_inv hc
  rw [heq]
  exact (hviews.rewrites x.dstIp x.dstPort).length_eq

namespace Datapath

section Handlers

variable {cfg : DatapathConfig} {E : Prop} {g : Account} {a : App} {out : List Transmission}
  {β : Type} {R : β → Prop} {k : β → Program Datapath β}

/-! ### ARP -/

theorem does_learnIf {P : Prop} [Decidable P] {c : Bool} (hc : c = true ↔ P) (side : Segment)
    (port : PortInfo) (ip : Ipv4Addr) (mac : MacAddr) (now : Tick) :
    Does cfg E (if P then learnArp now side port ip mac else pure ()) g (fun _ ↦ True)
      (g.app.setNeighbors ((g.app.neighbors side).learnIf c ip mac now).1 side)
      (port.transmitDrained ((g.app.neighbors side).learnIf c ip mac now).2) := by
  by_cases hP : P
  · rw [if_pos hP, hc.2 hP]
    exact does_learnArp side port ip mac now
  · rw [if_neg hP, Bool.eq_false_iff.2 fun h ↦ hP (hc.1 h)]
    show Does cfg E _ g _ (g.app.setNeighbors (g.app.neighbors side) side) []
    rw [App.setNeighbors_self]
    exact does_pure trivial

theorem transmitDrained_append (port : PortInfo) (d₁ d₂ : List (MacAddr × List Bytes)) :
    port.transmitDrained (d₁ ++ d₂) = port.transmitDrained d₁ ++ port.transmitDrained d₂ :=
  List.flatMap_append

theorem does_handleWanArp (frame : Bytes) (now : Tick) :
    Does cfg E (handleWanArp cfg now frame) g (fun _ ↦ True)
      (g.app.setNeighbors (UserspaceRouter.handleWanArp g.app.ports.wan frame now).1 .wan)
      (cfg.wan.transmitDrained
        (UserspaceRouter.handleWanArp g.app.ports.wan frame now).2.drained) := by
  unfold handleWanArp UserspaceRouter.handleWanArp
  rcases parseArp frame with - | ⟨eth, arp⟩
  · exact does_pure trivial
  show Does cfg E (if arp.senderIp ≠ Ipv4Addr.unspecified then _ else _) _ _ _
    (cfg.wan.transmitDrained (_ ++ _))
  rw [transmitDrained_append]
  erw [ite_bind]
  refine (does_learnIf bne_iff_ne .wan cfg.wan arp.senderIp arp.sha now).bind fun _ _ ↦ ?_
  exact does_learnIf bne_iff_ne .wan cfg.wan arp.targetIp arp.tha now

theorem does_reserve (ip : Ipv4Addr) :
    Does cfg E (reserve ip) g (fun _ ↦ True) (g.app.setDhcp { g.app.ports.lan.dhcp with
      pool := (g.app.ports.lan.dhcp.pool.reserve ip).1 }) [] :=
  does_modify (fun a ↦ a.setDhcp { a.ports.lan.dhcp with
    pool := (a.ports.lan.dhcp.pool.reserve ip).1 }) fun _ ↦ ⟨rfl, rfl⟩

theorem does_release {ip : Ipv4Addr} {pool : AddressPool}
    (h : g.app.ports.lan.dhcp.pool.release ip = some pool) :
    Does cfg E (release ip) g (· = true) (g.app.setDhcp { g.app.ports.lan.dhcp with pool }) [] :=
  does_call fun s hs ↦ by
    rw [← hs] at h ⊢
    have hrelease : s.ports.lan.dhcp.pool.release ip = some pool := h
    simp only [hrelease]
    exact ⟨trivial, rfl, rfl⟩

/-- The pool, after an address in its range that the sender of an ARP packet no longer has is given
back. -/
def stalePool (s : LanState Bytes) (arp : ArpPacket) : Option AddressPool :=
  match s.staleIp arp with
  | some oldIp => s.dhcp.pool.release oldIp
  | none => some s.dhcp.pool

/-- Reserving an address does not change which one is stale. -/
theorem poolAfterArp_eq (s : LanState Bytes) (arp : ArpPacket) :
    s.poolAfterArp arp = stalePool { s with dhcp := { s.dhcp with
      pool := (s.dhcp.pool.reserve arp.senderIp).1 } } arp := by
  obtain ⟨hstart, hend⟩ := App.bounds_reserve s.dhcp.pool arp.senderIp
  have hstale : LanState.staleIp { s with dhcp := { s.dhcp with
      pool := (s.dhcp.pool.reserve arp.senderIp).1 } } arp = s.staleIp arp := by
    simp only [LanState.staleIp, hstart, hend]
  rcases hold : s.staleIp arp with - | oldIp <;>
    simp only [LanState.poolAfterArp, stalePool, hstale, hold]

theorem does_releaseStale {arp : ArpPacket} {pool : AddressPool}
    (h : stalePool g.app.ports.lan arp = some pool) :
    Does cfg E (releaseStale arp) g (· = true) (g.app.setDhcp { g.app.ports.lan.dhcp with pool })
      [] := by
  have hlookup : Does cfg E (reverseLookup arp.sha) g
      (· = g.app.ports.lan.neighbors.reverseLookup arp.sha) g.app [] :=
    does_read (·.ports.lan.neighbors.reverseLookup arp.sha) fun _ ↦ rfl
  have hstart : Does cfg E (read fun s ↦ s.ports.lan.dhcp.pool.start) g
      (· = g.app.ports.lan.dhcp.pool.start) g.app [] :=
    does_read (·.ports.lan.dhcp.pool.start) fun _ ↦ rfl
  have hend : Does cfg E (read fun s ↦ s.ports.lan.dhcp.pool.end_) g
      (· = g.app.ports.lan.dhcp.pool.end_) g.app [] :=
    does_read (·.ports.lan.dhcp.pool.end_) fun _ ↦ rfl
  -- a pool that keeps what it has
  have hkeep : g.app.ports.lan.staleIp arp = none → Does cfg E (pure true) g (· = true)
      (g.app.setDhcp { g.app.ports.lan.dhcp with pool }) [] := by
    intro hstale
    rw [stalePool, hstale] at h
    obtain rfl := Option.some.inj h
    exact does_pure rfl
  refine hlookup.bind_quiet fun old hold ↦ ?_
  rcases old with - | oldIp
  · refine hkeep ?_
    rw [LanState.staleIp, ← hold]
    rfl
  have hstale : g.app.ports.lan.staleIp arp = if oldIp ≠ arp.senderIp ∧
      g.app.ports.lan.dhcp.pool.start ≤ oldIp ∧ oldIp ≤ g.app.ports.lan.dhcp.pool.end_ then
        some oldIp else none := by
    simp only [LanState.staleIp, ← hold, Option.filter_some, decide_eq_true_eq]
  show Does cfg E (if oldIp = arp.senderIp then _ else _) g _ _ _
  split_ifs with hsame
  · exact hkeep (hstale.trans (if_neg fun h ↦ h.1 hsame))
  refine hstart.bind_quiet ?_
  rintro _ rfl
  show Does cfg E (if g.app.ports.lan.dhcp.pool.start ≤ oldIp then _ else _) g _ _ _
  split_ifs with hlow
  · refine hend.bind_quiet ?_
    rintro _ rfl
    show Does cfg E (if oldIp ≤ g.app.ports.lan.dhcp.pool.end_ then _ else _) g _ _ _
    split_ifs with hhigh
    · rw [stalePool, hstale, if_pos ⟨hsame, hlow, hhigh⟩] at h
      exact does_release h
    · exact hkeep (hstale.trans (if_neg fun h ↦ hhigh h.2.2))
  · exact hkeep (hstale.trans (if_neg fun h ↦ hlow h.2.1))

/-- What is sent in answer to an ARP packet on a LAN port. -/
def arpAnswer (cfg : AppConfig) (port : PortInfo) (frame : Bytes) (eth : EthernetHeader)
    (arp : ArpPacket) : List Transmission :=
  if arp.targetIp ≠ cfg.router.serverIp ∧ arp.isRequest ∧ eth.isBroadcast then
    cfg.flood (some port.portId) frame
  else if arp.targetIp = cfg.router.serverIp ∧ arp.isRequest then
    (ArpPacket.buildReply LanState.frameMax cfg.router.serverMac cfg.router.serverIp arp.sha
      arp.senderIp).toList.map fun reply ↦ (port.portId, .frame reply)
  else []

theorem does_answerArp {port : PortInfo} (hport : port ∈ cfg.lan) {frame : Bytes}
    (hfits : E → frame.length ≤ tailroom) (eth : EthernetHeader) (arp : ArpPacket) :
    Does cfg E (answerArp cfg port frame eth arp) g (fun _ ↦ True) g.app
      (arpAnswer cfg.toAppConfig port frame eth arp) := by
  unfold answerArp arpAnswer
  dsimp only
  split_ifs
  · exact does_flood (some port.portId) hfits
  · rcases hreply : ArpPacket.buildReply LanState.frameMax cfg.router.serverMac cfg.router.serverIp
      arp.sha arp.senderIp with - | reply
    · exact does_pure trivial
    · exact does_transmitFrame (List.mem_cons_of_mem _ hport) fun _ ↦
        decide_eq_true (length_buildReply hreply)
  · exact does_pure trivial

/-- The handler of `App`, with its answer apart. -/
theorem handleLanArp_eq (cfg : AppConfig) (s : App) (port : PortInfo) {frame : Bytes}
    {eth : EthernetHeader} {arp : ArpPacket} (h : parseArp frame = some (eth, arp)) (now : Tick) :
    s.handleLanArp cfg port frame now = (s.ports.lan.poolAfterArp arp).map fun pool ↦
      ((s.setDhcp { s.ports.lan.dhcp with pool }).setNeighbors
          (s.ports.lan.neighbors.learn true arp now).1 .lan,
        port.transmitDrained (s.ports.lan.neighbors.learn true arp now).2 ++
          arpAnswer cfg port frame eth arp) := by
  simp only [App.handleLanArp, LanState.handleLanArp, h, Option.map_map, arpAnswer]
  congr 1
  funext pool
  refine Prod.ext rfl ?_
  by_cases hflood : arp.targetIp ≠ cfg.router.serverIp ∧ arp.isRequest ∧ eth.isBroadcast
  · simp [if_pos hflood]
  · simp only [Function.comp, if_neg hflood]
    by_cases hreply : arp.targetIp = cfg.router.serverIp ∧ arp.isRequest
    · simp [if_pos hreply]
    · simp [if_neg hreply]

theorem does_handleLanArp {port : PortInfo} (hport : port ∈ cfg.lan) {frame : Bytes}
    (hfits : E → frame.length ≤ tailroom) {now : Tick}
    (h : g.app.handleLanArp cfg.toAppConfig port frame now = some (a, out)) :
    Does cfg E (handleLanArp cfg now port frame) g (· = true) a out := by
  unfold handleLanArp
  rcases harp : parseArp frame with - | ⟨eth, arp⟩
  · simp only [App.handleLanArp, LanState.handleLanArp, harp, Option.map_some] at h
    obtain ⟨rfl, rfl⟩ := Prod.mk.inj (Option.some.inj h)
    exact does_pure rfl
  rw [handleLanArp_eq _ _ _ harp] at h
  obtain ⟨pool, hpool, heq⟩ := Option.map_eq_some_iff.1 h
  obtain ⟨rfl, rfl⟩ := Prod.mk.inj heq
  rw [poolAfterArp_eq] at hpool
  refine (does_reserve arp.senderIp).bind_quiet fun _ _ ↦ ?_
  refine Does.bind_quiet (does_releaseStale hpool) ?_
  rintro _ rfl
  show Does cfg E _ _ _ _ (port.transmitDrained (_ ++ _) ++ _)
  rw [transmitDrained_append, List.append_assoc]
  refine Does.bind (does_learnArp .lan port arp.senderIp arp.sha now) fun _ _ ↦ ?_
  erw [ite_bind]
  refine (does_learnIf bne_iff_ne .lan port arp.targetIp arp.tha now).bind fun _ _ ↦ ?_
  exact (does_answerArp hport hfits eth arp).then_quiet fun _ _ ↦ does_pure rfl

/-! ### The LAN side -/

theorem does_insertLease (mac : MacAddr) (ip : Ipv4Addr) :
    Does cfg E (insertLease mac ip) g (fun _ ↦ True) (g.app.setDhcp { g.app.ports.lan.dhcp with
      leases := g.app.ports.lan.dhcp.leases.insert mac ip }) [] :=
  does_modify (fun a ↦ a.setDhcp { a.ports.lan.dhcp with
    leases := a.ports.lan.dhcp.leases.insert mac ip }) fun _ ↦ ⟨rfl, rfl⟩

theorem does_assign (mac : MacAddr) :
    Does cfg E (assign mac) g (· = (g.app.ports.lan.dhcp.assign mac).2)
      (g.app.setDhcp (g.app.ports.lan.dhcp.assign mac).1) [] := by
  have hlookup : Does cfg E (lookupLease mac) g (· = g.app.ports.lan.dhcp.leases.lookup mac) g.app
      [] := does_read (·.ports.lan.dhcp.leases.lookup mac) fun _ ↦ rfl
  have htake : Does cfg E (take 1) g (· = (g.app.ports.lan.dhcp.pool.take 1).2)
      (g.app.setDhcp { g.app.ports.lan.dhcp with
        pool := (g.app.ports.lan.dhcp.pool.take 1).1 }) [] :=
    does_tables (fun a ↦ (a.ports.lan.dhcp.pool.take 1).2) (fun a ↦ a.setDhcp
      { a.ports.lan.dhcp with pool := (a.ports.lan.dhcp.pool.take 1).1 }) fun _ ↦ ⟨rfl, rfl, rfl⟩
  refine hlookup.bind_quiet fun found hfound ↦ ?_
  rcases found with - | ip
  · refine htake.bind_quiet ?_
    rintro _ rfl
    simp only [DhcpState.assign, ← hfound]
    rcases g.app.ports.lan.dhcp.pool.take 1 with ⟨pool, - | ips⟩
    · exact does_pure rfl
    · rcases hhead : ips.head? with - | ip
      · simp only [Option.bind_some, hhead]
        exact does_pure rfl
      · simp only [Option.bind_some, hhead]
        exact Does.bind_quiet (does_insertLease mac ip) fun _ _ ↦ does_pure rfl
  · simp only [DhcpState.assign, ← hfound]
    exact does_pure rfl

theorem does_handleDhcp {view : DhcpView} {dhcp : DhcpState} {reply : Option Reply}
    (h : g.app.ports.lan.dhcp.handle cfg.toAppConfig.dhcp view = some (dhcp, reply)) :
    Does cfg E (handleDhcp cfg view) g (· = (reply, true)) (g.app.setDhcp dhcp) [] := by
  -- an answer from the lease table
  have hanswer : ∀ answer : Ipv4Addr → Reply,
      some ((g.app.ports.lan.dhcp.assign view.header.clientMac).1,
        (g.app.ports.lan.dhcp.assign view.header.clientMac).2.map answer) = some (dhcp, reply) →
      Does cfg E ((assign view.header.clientMac).bind fun ip ↦ pure (ip.map answer, true)) g
        (· = (reply, true)) (g.app.setDhcp dhcp) [] := by
    intro answer heq
    obtain ⟨rfl, rfl⟩ := Prod.mk.inj (Option.some.inj heq)
    refine (does_assign view.header.clientMac).bind_quiet ?_
    rintro _ rfl
    exact does_pure rfl
  have hnone : some (g.app.ports.lan.dhcp, none) = some (dhcp, reply) →
      Does cfg E (pure (none, true)) g (· = (reply, true)) (g.app.setDhcp dhcp) [] := by
    intro heq
    obtain ⟨rfl, rfl⟩ := Prod.mk.inj (Option.some.inj heq)
    exact does_pure rfl
  have hremove : Does cfg E (removeLease view.header.clientMac) g
      (· = g.app.ports.lan.dhcp.leases.lookup view.header.clientMac)
      (g.app.setDhcp { g.app.ports.lan.dhcp with
        leases := g.app.ports.lan.dhcp.leases.erase view.header.clientMac }) [] :=
    does_tables (fun a ↦ a.ports.lan.dhcp.leases.lookup view.header.clientMac)
      (fun a ↦ a.setDhcp { a.ports.lan.dhcp with
        leases := a.ports.lan.dhcp.leases.erase view.header.clientMac })
      fun _ ↦ ⟨rfl, rfl, rfl⟩
  unfold handleDhcp
  rcases hm : view.messageType with - | m <;> simp only [DhcpState.handle, hm] at h
  · exact hnone h
  cases m with
  | discover => exact hanswer _ h
  | request =>
    show Does cfg E (if view.selectsOther cfg.dhcp = true then _ else _) g _ _ _
    split_ifs at h ⊢
    · exact hnone h
    · exact hanswer _ h
  | release | decline =>
    refine hremove.bind_quiet fun found hfound ↦ ?_
    rw [← hfound] at h
    rcases found with - | ip
    · obtain ⟨rfl, rfl⟩ := Prod.mk.inj (Option.some.inj h)
      rw [AList.erase_of_lookup_eq_none hfound.symm]
      exact does_pure rfl
    · obtain ⟨pool, hrelease, hmk⟩ := Option.map_eq_some_iff.1 h
      obtain ⟨rfl, rfl⟩ := Prod.mk.inj hmk
      refine Does.bind_quiet (does_release hrelease) ?_
      rintro _ rfl
      exact does_pure rfl
  | offer | ack | nak | inform => exact hnone h

theorem does_observeEgress (tup : TcpTuple) (now : Tick) :
    Does cfg E (observeEgress tup now) g (fun _ ↦ True) { g.app with
      firewall := { g.app.firewall with conntrack :=
        (g.app.firewall.conntrack.observeEgress tup.egressKey tup.flags now).1 } } [] :=
  does_modify (fun a ↦ { a with firewall := { a.firewall with
    conntrack := (a.firewall.conntrack.observeEgress tup.egressKey tup.flags now).1 } })
    fun _ ↦ ⟨rfl, rfl⟩

theorem does_translateOut (frame : Bytes) :
    Does cfg E (translateOut frame) g
      (· = (translateEgress frame g.app.firewall.nat).2.2.map fun _ ↦
        (translateEgress frame g.app.firewall.nat).1)
      { g.app with firewall := { g.app.firewall with
        nat := (translateEgress frame g.app.firewall.nat).2.1 } } [] :=
  does_tables (fun a ↦ (translateEgress frame a.firewall.nat).2.2.map fun _ ↦
      (translateEgress frame a.firewall.nat).1)
    (fun a ↦ { a with firewall := { a.firewall with
      nat := (translateEgress frame a.firewall.nat).2.1 } }) fun _ ↦ ⟨rfl, rfl, rfl⟩

theorem does_lanEgressNat (m : Mbuf) (now : Tick) :
    Does cfg E (lanEgressNat cfg now m) g (fun _ ↦ True)
      (g.app.lanEgressNat cfg.toAppConfig m.data now).1
      (g.app.lanEgressNat cfg.toAppConfig m.data now).2 := by
  have hgateway : Does cfg E (read fun s ↦ s.firewall.gatewayIp) g
      (· = g.app.firewall.gatewayIp) g.app [] := does_read (·.firewall.gatewayIp) fun _ ↦ rfl
  have hwanIp : Does cfg E (read fun s ↦ s.firewall.nat.wanIp) g
      (· = g.app.firewall.nat.wanIp) g.app [] := does_read (·.firewall.nat.wanIp) fun _ ↦ rfl
  refine hgateway.bind_quiet fun gateway hgw ↦ ?_
  rcases gateway with - | gateway
  · simp only [App.lanEgressNat, Firewall.lanEgressNat, ← hgw]
    exact does_free m.id
  refine hwanIp.bind_quiet ?_
  rintro _ rfl
  show Does cfg E (if g.app.firewall.nat.wanIp = Ipv4Addr.unspecified then _ else _) g _ _ _
  split_ifs with hunbound
  · simp only [App.lanEgressNat, Firewall.lanEgressNat, ← hgw, if_pos hunbound]
    exact does_free m.id
  rcases htup : parseTcpTuple m.data with - | tup
  · simp only [App.lanEgressNat, Firewall.lanEgressNat, ← hgw, if_neg hunbound, htup]
    exact does_free m.id
  refine Does.bind_quiet (does_observeEgress tup now) fun _ _ ↦ ?_
  refine Does.bind_quiet (does_translateOut m.data) fun o ho ↦ ?_
  simp only [App.lanEgressNat, Firewall.lanEgressNat, ← hgw, if_neg hunbound, htup]
  rcases htrans : translateEgress m.data g.app.firewall.nat with ⟨data, nat, - | x⟩
  · simp only [htrans, Option.map_none] at ho ⊢
    obtain rfl := ho
    exact does_free m.id
  simp only [htrans, Option.map_some] at ho ⊢
  obtain rfl := ho
  refine Does.bind_quiet (does_resolve .wan gateway { m with data } now) fun action haction ↦ ?_
  obtain ⟨wan, hres⟩ : ∃ wan, g.app.ports.wan.resolve gateway data ArpPacket.frameLen now =
      (wan, action.map (·.data)) := ⟨_, Prod.ext rfl haction.symm⟩
  have hwan : (g.app.ports.wan.resolve gateway data ArpPacket.frameLen now).1 = wan := by rw [hres]
  simp only [hres]
  show Does cfg E _ ⟨App.setNeighbors _
    (g.app.ports.wan.resolve gateway data ArpPacket.frameLen now).1 _, _, _⟩ _ _ _
  rw [hwan]
  cases action with
  | forward mac p => exact does_transmit cfg.wan.portId p.id _
  | queued request =>
    rcases request with - | req
    · exact does_pure trivial
    · refine does_transmitFrame List.mem_cons_self fun _ ↦ decide_eq_true ?_
      exact length_buildRequest (NeighborTable.request_of_resolve (congrArg Prod.snd hres) rfl)
  | drop p => exact does_free p.id

/-- A handler that meets no assertion. -/
theorem Does.then_true {p : Program Datapath Unit} (h : Does cfg E p g (fun _ ↦ True) a out) :
    Does cfg E (p.bind fun _ ↦ pure true) g (· = true) a out :=
  h.then_quiet fun _ _ ↦ does_pure rfl

theorem does_handleLanIpv4 {port : PortInfo} (hport : port ∈ cfg.lan) {header : EthernetHeader}
    {m : Mbuf} (hfits : E → m.data.length ≤ tailroom) {now : Tick}
    (h : g.app.handleLanIpv4 cfg.toAppConfig port header m.data now = some (a, out)) :
    Does cfg E (handleLanIpv4 cfg now port header m) g (· = true) a out := by
  unfold handleLanIpv4
  rcases hview : parseDhcp m.data with - | view
  · simp only [App.handleLanIpv4, hview] at h
    show Does cfg E (if header.dst = cfg.router.serverMac then _ else _) g _ _ _
    split_ifs at h ⊢
    · obtain ⟨rfl, rfl⟩ := Prod.ext_iff.1 (Option.some.inj h)
      exact (does_lanEgressNat m now).then_true
    · obtain ⟨rfl, rfl⟩ := Prod.mk.inj (Option.some.inj h)
      exact (does_flood _ hfits).then_quiet fun _ _ ↦ (does_free m.id).then_true
    · obtain ⟨rfl, rfl⟩ := Prod.mk.inj (Option.some.inj h)
      exact (does_transmitToMacOrFloodExcept header.dst hfits _).then_true
  · simp only [App.handleLanIpv4, hview] at h
    obtain ⟨⟨dhcp, reply⟩, hhandle, heq⟩ := Option.map_eq_some_iff.1 h
    obtain ⟨rfl, rfl⟩ := Prod.mk.inj heq
    refine (does_handleDhcp hhandle).bind_quiet ?_
    rintro _ rfl
    rcases reply with - | r
    · exact Does.then_true (does_free m.id)
    · have hsend : Does cfg E (transmitFrame cfg port (.dhcpReply r))
          ⟨g.app.setDhcp dhcp, g.sent, g.polled⟩ (fun _ ↦ True) (g.app.setDhcp dhcp)
          [(port.portId, .dhcpReply r)] :=
        does_transmitFrame (List.mem_cons_of_mem _ hport) fun _ ↦ rfl
      exact hsend.then_quiet fun _ _ ↦ Does.then_true (does_free m.id)

theorem does_insertFdb (src : MacAddr) (port : PortId) :
    Does cfg E (insertFdb src port) g (fun _ ↦ True) (g.app.learn src port) [] :=
  does_modify (·.learn src port) fun _ ↦ ⟨rfl, rfl⟩

/-- **A frame from the LAN.** -/
theorem does_lanFrame {port : PortInfo} (hport : port ∈ cfg.lan) {m : Mbuf}
    (hfits : E → m.data.length ≤ tailroom) {now : Tick}
    (h : g.app.driveLan cfg.toAppConfig port m.data now = some (a, out)) :
    Does cfg E (lanFrame cfg now port m) g (· = true) a out := by
  unfold lanFrame
  rcases hparse : parse m.data with - | eth
  · simp only [App.driveLan, hparse] at h
    obtain ⟨rfl, rfl⟩ := Prod.mk.inj (Option.some.inj h)
    exact (does_free m.id).then_true
  simp only [App.driveLan, hparse] at h
  refine (does_insertFdb eth.header.src port.portId).bind_quiet fun _ _ ↦ ?_
  show Does cfg E (if eth.isArp = true then _ else _) _ _ _ _
  split_ifs at h ⊢
  · refine (does_handleLanArp hport hfits h).then_quiet ?_
    rintro _ rfl
    exact (does_free m.id).then_true
  · exact does_handleLanIpv4 hport hfits h
  · obtain ⟨rfl, rfl⟩ := Prod.mk.inj (Option.some.inj h)
    exact (does_free m.id).then_true

/-! ### The WAN side -/

theorem does_wanIngressNat {m : Mbuf} (hfits : E → m.data.length ≤ tailroom) (now : Tick) :
    Does cfg E (wanIngressNat cfg now m) g (fun _ ↦ True)
      (g.app.wanIngressNat cfg.toAppConfig m.data now).1
      (g.app.wanIngressNat cfg.toAppConfig m.data now).2 := by
  have htranslate : Does cfg E (translateIn m.data) g
      (· = (translateIngress m.data g.app.firewall.nat).2.map fun x ↦
        ((translateIngress m.data g.app.firewall.nat).1, x)) g.app [] :=
    does_read (fun a ↦ (translateIngress m.data a.firewall.nat).2.map fun x ↦
      ((translateIngress m.data a.firewall.nat).1, x)) fun _ ↦ rfl
  have hcheck : ∀ key flags, Does cfg E (checkIngress key flags now) g
      (· = (g.app.firewall.conntrack.checkIngress key flags now).2)
      { g.app with firewall := { g.app.firewall with
        conntrack := (g.app.firewall.conntrack.checkIngress key flags now).1 } } [] :=
    fun key flags ↦ does_tables (fun a ↦ (a.firewall.conntrack.checkIngress key flags now).2)
      (fun a ↦ { a with firewall := { a.firewall with
        conntrack := (a.firewall.conntrack.checkIngress key flags now).1 } })
      fun _ ↦ ⟨rfl, rfl, rfl⟩
  unfold wanIngressNat
  rcases htup : parseTcpTuple m.data with - | tup
  · simp only [App.wanIngressNat, Firewall.wanIngressNat, htup]
    exact does_free m.id
  refine htranslate.bind_quiet fun o ho ↦ ?_
  simp only [App.wanIngressNat, Firewall.wanIngressNat, htup]
  rcases htrans : translateIngress m.data g.app.firewall.nat with ⟨data, - | x⟩
  · simp only [htrans, Option.map_none] at ho ⊢
    obtain rfl := ho
    exact does_free m.id
  have hlen : data.length = m.data.length := by
    have hlen := length_translateIngress (congrArg Prod.snd htrans)
    rwa [htrans] at hlen
  simp only [htrans, Option.map_some] at ho ⊢
  obtain rfl := ho
  refine (hcheck _ _).bind_quiet ?_
  rintro _ rfl
  rcases g.app.firewall.conntrack.checkIngress (tup.ingressKey x) tup.flags now with
    ⟨conntrack, - | -⟩
  · exact does_free m.id
  simp only [if_true]
  rcases cfg.lan.head? with - | anyLan
  · exact does_free m.id
  refine Does.bind_quiet (does_resolve .lan x.dstIp { m with data } now) fun action haction ↦ ?_
  obtain ⟨lan, hres⟩ : ∃ lan, g.app.ports.lan.neighbors.resolve x.dstIp data ArpPacket.frameLen
      now = (lan, action.map (·.data)) := ⟨_, Prod.ext rfl haction.symm⟩
  have hlan : (g.app.ports.lan.neighbors.resolve x.dstIp data ArpPacket.frameLen now).1 = lan := by
    rw [hres]
  simp only [hres]
  show Does cfg E _ ⟨App.setNeighbors _
    (g.app.ports.lan.neighbors.resolve x.dstIp data ArpPacket.frameLen now).1 _, _, _⟩ _ _ _
  rw [hlan]
  cases action with
  | forward mac p =>
    have hp := NeighborTable.packets_resolve g.app.ports.lan.neighbors x.dstIp data
      ArpPacket.frameLen now p.data (by rw [hres]; exact List.mem_singleton_self _)
    refine does_transmitToMacOrFloodExcept mac (fun hE ↦ ?_) none
    rw [length_setEthernet, hp, hlen]
    exact hfits hE
  | queued request =>
    rcases request with - | req
    · exact does_pure trivial
    · show Does cfg E _ _ _ _ (List.flatMap _ [req])
      rw [List.flatMap_singleton]
      refine does_flood none fun _ ↦ ?_
      exact length_buildRequest (NeighborTable.request_of_resolve (congrArg Prod.snd hres) rfl)
  | drop p => exact does_free p.id

/-- **A frame from the WAN.** -/
theorem does_wanFrame {m : Mbuf} (hfits : E → m.data.length ≤ tailroom) {now : Tick}
    (h : g.app.driveWan cfg.toAppConfig m.data now = (a, out)) :
    Does cfg E (wanFrame cfg now m) g (fun _ ↦ True) a out := by
  unfold wanFrame
  rcases hparse : parse m.data with - | eth
  · simp only [App.driveWan, hparse] at h
    obtain ⟨rfl, rfl⟩ := Prod.mk.inj h
    exact does_free m.id
  simp only [App.driveWan, hparse] at h
  refine (does_insertFdb eth.header.src cfg.wan.portId).bind_quiet fun _ _ ↦ ?_
  by_cases harp : eth.isArp = true
  · rw [if_pos harp] at h ⊢
    obtain ⟨rfl, rfl⟩ := Prod.mk.inj h
    exact Does.then_free (does_handleWanArp m.data now) m.id
  rw [if_neg harp] at h ⊢
  rcases hview : parseDhcp m.data with - | view
  · simp only [hview] at h
    show Does cfg E (if eth.isIpv4 = true then _ else _) _ _ _ _
    split_ifs at h ⊢
    · obtain ⟨rfl, rfl⟩ := Prod.ext_iff.1 h
      exact does_wanIngressNat hfits now
    · obtain ⟨rfl, rfl⟩ := Prod.mk.inj h
      exact does_free m.id
  · simp only [hview] at h
    obtain ⟨rfl, rfl⟩ := Prod.mk.inj h
    refine Does.then_free ?_ m.id
    exact does_modify (fun a ↦ { a with client := a.client.onReceive view }) fun _ ↦ ⟨rfl, rfl⟩

theorem does_announceGateway (wanIp gw : Ipv4Addr) :
    Does cfg E (announceGateway cfg wanIp gw) g (fun _ ↦ True)
      { g.app with firewall := { g.app.firewall with gateway := gw } }
      ((ArpPacket.buildRequest ArpPacket.frameLen cfg.wan.etherAddr wanIp gw).toList.map
        fun req ↦ (cfg.wan.portId, .frame req)) := by
  refine Does.bind_quiet (does_modify (fun a ↦ { a with firewall := { a.firewall with
    gateway := gw } }) fun _ ↦ ⟨rfl, rfl⟩) fun _ _ ↦ ?_
  rcases hreq : ArpPacket.buildRequest ArpPacket.frameLen cfg.wan.etherAddr wanIp gw with - | req
  · exact does_pure trivial
  · exact does_transmitFrame List.mem_cons_self fun _ ↦ decide_eq_true (length_buildRequest hreq)

/-- **The client.** -/
theorem does_driveClient :
    Does cfg E (driveClient cfg) g (fun _ ↦ True) (g.app.driveClient cfg.toAppConfig).1
      (g.app.driveClient cfg.toAppConfig).2 := by
  have hbound : Does cfg E (read fun s ↦ s.client.boundIp) g (· = g.app.client.boundIp) g.app [] :=
    does_read (·.client.boundIp) fun _ ↦ rfl
  refine hbound.bind_quiet fun found hfound ↦ ?_
  rcases found with - | wanIp
  · simp only [App.driveClient, ← hfound]
    refine Does.bind_quiet (does_tables (·.client.poll.2)
      (fun a ↦ { a with client := a.client.poll.1 }) fun _ ↦ ⟨rfl, rfl, rfl⟩) ?_
    rintro _ rfl
    rcases g.app.client.poll.2 with - | message
    · exact does_pure trivial
    · exact does_transmitFrame List.mem_cons_self fun _ ↦ rfl
  · simp only [App.driveClient, ← hfound]
    refine Does.bind_quiet (does_tables (·.bound) (fun a ↦ { a with bound := wanIp })
      fun _ ↦ ⟨rfl, rfl, rfl⟩) ?_
    rintro _ rfl
    show Does cfg E (if g.app.bound ≠ wanIp then _ else _) _ _ _ _
    split_ifs with hnew
    · refine Does.bind_quiet (does_modify (fun a ↦ a.setNeighbors
        ((a.neighbors .wan).setOurIp wanIp) .wan) fun _ ↦ ⟨rfl, rfl⟩) fun _ _ ↦ ?_
      refine Does.bind_quiet (does_modify (fun a ↦ { a with firewall := { a.firewall with
        nat := a.firewall.nat.setWanIp wanIp } }) fun _ ↦ ⟨rfl, rfl⟩) fun _ _ ↦ ?_
      refine Does.bind_quiet (does_read (·.client.lease.bind (·.gateway)) fun _ ↦ rfl) ?_
      rintro _ rfl
      show Does cfg E (match g.app.client.lease.bind (·.gateway) with
        | some gw => _
        | none => _) _ _ _ _
      rcases g.app.client.lease.bind (·.gateway) with - | gw
      · exact does_pure trivial
      · exact does_announceGateway wanIp gw
    · obtain rfl := not_not.1 hnew
      exact does_pure trivial

/-! ### Sweeps -/

theorem does_sweepPort (side : Segment) {port : PortInfo} (hport : port ∈ cfg.wan :: cfg.lan)
    (now : Tick) :
    Does cfg E (sweepPort cfg now side port) g (fun _ ↦ True)
      (g.app.setNeighbors ((g.app.neighbors side).sweep now).1 side)
      (((g.app.neighbors side).sweep now).2.1.map fun req ↦ (port.portId, .frame req)) := by
  refine (does_sweepNeighbors side now).bind_quiet ?_
  rintro ⟨requests, dropped⟩ hrequests
  obtain rfl : requests = ((g.app.neighbors side).sweep now).2.1 := hrequests
  rw [List.map_eq_flatMap]
  refine Does.then_quiet (does_each fun req hreq g' _ ↦ ?_) fun _ _ ↦ does_freeAll dropped
  obtain ⟨target, hbuild⟩ := NeighborTable.request_of_sweep hreq
  exact does_transmitFrame hport fun _ ↦ decide_eq_true (length_buildRequest hbuild)

/-- What the sweeps of the LAN ports send comes after what was sent before. -/
theorem foldl_sweepLan (now : Tick) (lan : List PortInfo) (t : NeighborTable Bytes)
    (sent : List Transmission) :
    lan.foldl (App.sweepLan now) (t, sent) = ((lan.foldl (App.sweepLan now) (t, [])).1,
      sent ++ (lan.foldl (App.sweepLan now) (t, [])).2) := by
  induction lan generalizing t sent with
  | nil => simp
  | cons port lan ih =>
    simp only [List.foldl_cons, App.sweepLan, List.nil_append]
    rw [ih, ih _ (List.map _ _), List.append_assoc]

/-- The sweeps of the LAN ports, of the table they share. -/
theorem does_sweepLan (now : Tick) {lan : List PortInfo} (hlan : ∀ p ∈ lan, p ∈ cfg.lan) :
    Does cfg E (each (sweepPort cfg now .lan) lan) g (fun _ ↦ True)
      (g.app.setNeighbors (lan.foldl (App.sweepLan now) (g.app.ports.lan.neighbors, [])).1 .lan)
      (lan.foldl (App.sweepLan now) (g.app.ports.lan.neighbors, [])).2 := by
  induction lan generalizing g with
  | nil => exact does_pure trivial
  | cons port lan ih =>
    obtain ⟨hport, hlan⟩ := List.forall_mem_cons.1 hlan
    rw [List.foldl_cons]
    simp only [App.sweepLan, List.nil_append]
    rw [foldl_sweepLan]
    exact (does_sweepPort .lan (List.mem_cons_of_mem _ hport) now).bind fun _ _ ↦ ih hlan

/-- **The sweep.** -/
theorem does_maybeSweep (now : Tick) :
    Does cfg E (maybeSweep cfg now) g (fun _ ↦ True) (g.app.maybeSweep cfg.toAppConfig now).1
      (g.app.maybeSweep cfg.toAppConfig now).2 := by
  refine Does.bind_quiet (does_read (·.lastSweepMs.toNat) fun _ ↦ rfl) ?_
  rintro _ rfl
  unfold App.maybeSweep
  show Does cfg E (if g.app.lastSweepMs.toNat ≠ 0 ∧
    now - g.app.lastSweepMs.toNat < App.sweepIntervalMs then _ else _) _ _ _ _
  dsimp only
  split_ifs
  · exact does_pure trivial
  refine Does.bind_quiet (does_modify (fun a ↦ { a with
    lastSweepMs := UInt32.ofNat (min now (2 ^ 32 - 1)) }) fun _ ↦ ⟨rfl, rfl⟩) fun _ _ ↦ ?_
  rw [foldl_sweepLan]
  refine Does.bind (does_sweepPort .wan List.mem_cons_self now) fun _ _ ↦ ?_
  refine Does.then_quiet (does_sweepLan now fun _ h ↦ h) fun _ _ ↦ ?_
  exact does_modify (fun a ↦ { a with firewall := { a.firewall with
    conntrack := a.firewall.conntrack.sweep now } }) fun _ ↦ ⟨rfl, rfl⟩

end Handlers

/-! ### Bursts -/

section Loop

variable {cfg : DatapathConfig} {E : Prop} {a₀ : App} {α β : Type} {R : α → Prop} {R' : β → Prop}
  {rest rest' rest'' : List (PortId × Bytes)} {g : Account} {a : App} {out : List Transmission}

/-- A burst takes its frames out of the queues. -/
theorem perm_rxBurst (q : RxQueue) (n : ℕ) (rx : List (RxQueue × Mbuf)) :
    (framesOf rx).Perm
      ((rxBurst q n rx).1.map (fun m ↦ (q.1, m.data)) ++ framesOf (rxBurst q n rx).2) := by
  induction rx generalizing n with
  | nil => cases n <;> rfl
  | cons x rx ih =>
    cases n with
    | zero => rfl
    | succ n =>
      rw [rxBurst]
      split_ifs with hq
      · subst hq
        exact (ih n).cons _
      · exact ((ih (n + 1)).cons _).trans List.perm_middle.symm

theorem onQueue_append (q : RxQueue) (xs ys : List (RxQueue × Bytes)) :
    onQueue q (xs ++ ys) = onQueue q xs ++ onQueue q ys := by
  rw [onQueue, List.filter_append, List.map_append, onQueue, onQueue]

theorem arrived_snoc (past : List NicEvent) (e : NicEvent) :
    arrived (past ++ [e]) = arrived past ++ e.arrival.toList := by
  rw [arrived, List.filterMap_append]
  rcases he : e.arrival with - | x <;> simp [arrived, he]

theorem onQueue_eq_nil {q : RxQueue} {frames : List (RxQueue × Bytes)}
    (h : ∀ x ∈ frames, x.1 ≠ q) : onQueue q frames = [] := by
  rw [onQueue, List.map_eq_nil_iff, List.filter_eq_nil_iff]
  exact fun x hx heq ↦ h x hx (of_decide_eq_true heq)

theorem inQueue_cons (q : RxQueue) (x : RxQueue × Mbuf) (rx : List (RxQueue × Mbuf)) :
    inQueue q (x :: rx) = onQueue q [(x.1, x.2.data)] ++ inQueue q rx :=
  onQueue_append q [(x.1, x.2.data)] _

/-- A burst takes from the front of one queue, and leaves the others alone. -/
theorem inQueue_rxBurst (q : RxQueue) (n : ℕ) (rx : List (RxQueue × Mbuf)) (q' : RxQueue) :
    onQueue q' ((rxBurst q n rx).1.map fun m ↦ (q, m.data)) ++ inQueue q' (rxBurst q n rx).2 =
      inQueue q' rx := by
  induction rx generalizing n with
  | nil => cases n <;> rfl
  | cons x rx ih =>
    cases n with
    | zero => rfl
    | succ n =>
      rw [rxBurst, inQueue_cons]
      by_cases hq : x.1 = q
      · rw [if_pos hq, hq, ← ih n, ← List.append_assoc, ← onQueue_append]
        rfl
      · rw [if_neg hq, inQueue_cons, ← ih (n + 1)]
        -- what was taken is of another queue than what was passed over
        by_cases hq' : x.1 = q'
        · have htaken : onQueue q' ((rxBurst q (n + 1) rx).1.map fun m ↦ (q, m.data)) = [] := by
            refine onQueue_eq_nil (List.forall_mem_map.2 fun m _ heq ↦ ?_)
            exact hq (hq'.trans heq.symm)
          rw [htaken, List.nil_append, List.nil_append]
        · have hpassed : onQueue q' [(x.1, x.2.data)] = [] :=
            onQueue_eq_nil (List.forall_mem_singleton.2 hq')
          rw [hpassed, List.nil_append, List.nil_append]

/-- **The account is that of a run of `App`**, but for frames that have been polled and are still to
be handled. -/
def Owes (cfg : DatapathConfig) (a₀ : App) (rest : List (PortId × Bytes)) (g : Account) : Prop :=
  ∃ tr, (App.system cfg.toAppConfig).Run a₀ tr g.app ∧ g.sent = tr.flatMap (·.2) ∧
    byPort g.polled = App.handled tr ++ rest

/-- Programs that bring the account from what is owed before to what is owed after. -/
def Serves (cfg : DatapathConfig) (E : Prop) (a₀ : App) (rest rest' : List (PortId × Bytes))
    (p : Program Datapath α) (R : α → Prop) : Prop :=
  ∀ g, Owes cfg a₀ rest g →
    Follows (Tracks E) (fun s ↦ E → s.Obliging cfg) (fun r g' ↦ R r ∧ Owes cfg a₀ rest' g') p g

theorem Serves.bind {p : Program Datapath α} {k : α → Program Datapath β}
    (h : Serves cfg E a₀ rest rest' p R)
    (hk : ∀ r, R r → Serves cfg E a₀ rest' rest'' (k r) R') :
    Serves cfg E a₀ rest rest'' (p.bind k) R' :=
  fun g hg ↦ (h g hg).bind fun r g' hr ↦ hk r hr.1 g' hr.2

theorem serves_pure {r : α} (hr : R r) : Serves cfg E a₀ rest rest (pure r) R :=
  fun _ hg ↦ ⟨hr, hg⟩

/-- **A program that does what an event does.** -/
theorem serves_event {p : Program Datapath α} (e : App.Event cfg.toAppConfig)
    (h : ∀ g, Owes cfg a₀ (e.frame.toList ++ rest) g →
      ∃ a out, g.app.step cfg.toAppConfig e = some (a, out) ∧ Does cfg E p g R a out) :
    Serves cfg E a₀ (e.frame.toList ++ rest) rest p R := by
  intro g hg
  obtain ⟨a, out, hstep, hdoes⟩ := h g hg
  obtain ⟨tr, hrun, hsent, hpolled⟩ := hg
  refine hdoes.mono ?_
  rintro r _ ⟨hr, rfl⟩
  refine ⟨hr, tr ++ [(e, out)], hrun.snoc hstep, ?_, ?_⟩
  · rw [List.flatMap_append, List.flatMap_singleton, hsent]
  · rw [hpolled, App.handled_snoc, List.append_assoc]

/-- The frames that an lcore polls from a port. -/
theorem follows_receive (lcore : UInt32) (port : PortInfo) (hg : Owes cfg a₀ [] g) :
    Follows (Tracks E) (fun s ↦ E → s.Obliging cfg)
      (fun ms g' ↦ Owes cfg a₀ (ms.map fun m ↦ (port.portId, m.data)) g' ∧
        (E → ∀ m ∈ ms, m.data.length ≤ tailroom)) (receive cfg lcore port) g := by
  obtain ⟨tr, hrun, hsent, hpolled⟩ := hg
  rw [List.append_nil] at hpolled
  unfold receive
  rcases (cfg.device port.portId).rxQueue lcore with - | q
  · exact ⟨⟨tr, hrun, hsent, by rw [hpolled]; simp⟩, fun _ _ hm ↦ by cases hm⟩
  · refine follows_call fun past s hok hs ↦ ?_
    have hperm := perm_rxBurst (port.portId, q) burst s.nic.rx
    have hpolled' : byPort (g.polled ++
        (rxBurst (port.portId, q) burst s.nic.rx).1.map fun m ↦ ((port.portId, q), m.data)) =
        App.handled tr ++
          (rxBurst (port.portId, q) burst s.nic.rx).1.map fun m ↦ (port.portId, m.data) := by
      rw [← hpolled, byPort, List.map_append, List.map_map]
      rfl
    refine ⟨⟨g.app, g.sent, g.polled ++
      (rxBurst (port.portId, q) burst s.nic.rx).1.map fun m ↦ ((port.portId, q), m.data)⟩,
      { hs with frames := ?_, order := fun q' ↦ ?_ }, ⟨tr, hrun, hsent, hpolled'⟩, fun hE m hm ↦ ?_⟩
    · rw [hpolled', ← hpolled, List.append_assoc]
      exact (hperm.symm.append_left _).trans hs.frames
    · rw [onQueue_append, List.append_assoc, ← hs.order q',
        ← inQueue_rxBurst (port.portId, q) burst s.nic.rx q']
      rfl
    · exact (hok hE).short _ ((rxBurst_spec (port.portId, q) burst s.nic.rx).2.1 m hm)

/-! ### The loop -/

theorem follows_wanFrames (now : Tick) {ms : List Mbuf}
    (hfits : E → ∀ m ∈ ms, m.data.length ≤ tailroom) :
    Serves cfg E a₀ (ms.map fun m ↦ (cfg.wan.portId, m.data)) [] (each (wanFrame cfg now) ms)
      fun _ ↦ True := by
  induction ms with
  | nil => exact serves_pure trivial
  | cons m ms ih =>
    have hframe : Serves cfg E a₀ ((m :: ms).map fun m ↦ (cfg.wan.portId, m.data))
        (ms.map fun m ↦ (cfg.wan.portId, m.data)) (wanFrame cfg now m) fun _ ↦ True :=
      serves_event (.wanFrame m.data now) fun g _ ↦ ⟨_, _, rfl,
        does_wanFrame (fun hE ↦ hfits hE m List.mem_cons_self) rfl⟩
    exact hframe.bind fun _ _ ↦ ih fun hE m' hm' ↦ hfits hE m' (List.mem_cons_of_mem _ hm')

theorem follows_lanFrames (h₀ : a₀.ports.lan.dhcp.Sound) (now : Tick) {port : PortInfo}
    (hport : port ∈ cfg.lan) {ms : List Mbuf} (hfits : E → ∀ m ∈ ms, m.data.length ≤ tailroom) :
    Serves cfg E a₀ (ms.map fun m ↦ (port.portId, m.data)) []
      (eachUntil (lanFrame cfg now port) leak ms) (· = true) := by
  induction ms with
  | nil => exact serves_pure rfl
  | cons m ms ih =>
    have hframe : Serves cfg E a₀ ((m :: ms).map fun m ↦ (port.portId, m.data))
        (ms.map fun m ↦ (port.portId, m.data)) (lanFrame cfg now port m) (· = true) := by
      refine serves_event (.lanFrame ⟨port, hport⟩ m.data now) fun g ⟨tr, hrun, _⟩ ↦ ?_
      obtain ⟨a, out, hdrive⟩ :=
        App.exists_driveLan (App.sound_run h₀ hrun) cfg.toAppConfig port m.data now
      exact ⟨a, out, hdrive, does_lanFrame hport (fun hE ↦ hfits hE m List.mem_cons_self) hdrive⟩
    refine hframe.bind ?_
    rintro _ rfl
    exact ih fun hE m' hm' ↦ hfits hE m' (List.mem_cons_of_mem _ hm')

theorem serves_driveWan (lcore : UInt32) (now : Tick) :
    Serves cfg E a₀ [] [] (driveWan cfg lcore now) fun _ ↦ True := by
  refine fun _ hg ↦ (follows_receive lcore cfg.wan hg).bind fun ms g' ⟨hg', hfits⟩ ↦ ?_
  refine (follows_wanFrames now hfits).bind (fun _ _ ↦ ?_) g' hg'
  exact serves_event .client fun g _ ↦ ⟨_, _, rfl, does_driveClient⟩

theorem serves_driveLan (h₀ : a₀.ports.lan.dhcp.Sound) (lcore : UInt32) (now : Tick)
    {port : PortInfo} (hport : port ∈ cfg.lan) :
    Serves cfg E a₀ [] [] (driveLan cfg lcore now port) (· = true) :=
  fun _ hg ↦ (follows_receive lcore port hg).bind fun _ g' ⟨hg', hfits⟩ ↦
    follows_lanFrames h₀ now hport hfits g' hg'

theorem serves_lanPorts (h₀ : a₀.ports.lan.dhcp.Sound) (lcore : UInt32) (now : Tick)
    {lan : List PortInfo} (hlan : ∀ p ∈ lan, p ∈ cfg.lan) :
    Serves cfg E a₀ [] [] (eachUntil (driveLan cfg lcore now) (fun _ ↦ pure ()) lan)
      (· = true) := by
  induction lan with
  | nil => exact serves_pure rfl
  | cons port lan ih =>
    obtain ⟨hport, hlan⟩ := List.forall_mem_cons.1 hlan
    refine (serves_driveLan h₀ lcore now hport).bind ?_
    rintro _ rfl
    exact ih hlan

/-- **A turn of the loop is a run of `App`.** -/
theorem serves_iteration (h₀ : a₀.ports.lan.dhcp.Sound) (lcore : UInt32) (now : Tick) :
    Serves cfg E a₀ [] [] (iteration cfg lcore now) fun _ ↦ True := by
  have hshutdown : Serves cfg E a₀ [] [] (read fun s ↦ s.shutdown) fun _ ↦ True :=
    fun g hg ↦ follows_call fun _ s _ hs ↦ ⟨g, hs, trivial, hg⟩
  refine hshutdown.bind fun shutdown _ ↦ ?_
  cases shutdown with
  | true => exact serves_pure trivial
  | false =>
    refine (serves_driveWan lcore now).bind fun _ _ ↦ ?_
    refine (serves_lanPorts h₀ lcore now fun _ h ↦ h).bind ?_
    rintro _ rfl
    show Serves cfg E a₀ [] [] (if lcore = cfg.sweeperLcore then _ else _) _
    split_ifs
    · exact serves_event (.sweep now) fun g _ ↦ ⟨_, _, rfl, does_maybeSweep now⟩
    · exact serves_pure trivial

/-- What the devices do is not in the account. -/
theorem Tracks.nicStep {past : List NicEvent} {s t : Datapath} {e : NicEvent}
    (hst : NicStep cfg s e t) (h : Tracks E past s g) : Tracks E (past ++ [e]) t g := by
  -- nothing arrives, and the queues are left alone
  have hquiet : e.arrival = none → ∀ q, onQueue q g.polled ++ inQueue q s.nic.rx =
      onQueue q (arrived (past ++ [e])) := fun he q ↦ by
    rw [arrived_snoc, he, Option.toList_none, List.append_nil]
    exact h.order q
  cases hst with
  | @arrive q frame id hfree hpool =>
    refine { h with frames := ?_, order := fun q' ↦ ?_ }
    · have hrx : framesOf (s.nic.rx ++ [(q, ⟨id, frame⟩)]) = framesOf s.nic.rx ++ [(q.1, frame)] :=
        List.map_append
      show (byPort g.polled ++ framesOf (s.nic.rx ++ [(q, ⟨id, frame⟩)])).Perm
        (s.nic.received ++ [(q.1, frame)])
      rw [hrx, ← List.append_assoc]
      exact h.frames.append_right _
    · show onQueue q' g.polled ++ inQueue q' (s.nic.rx ++ [(q, ⟨id, frame⟩)]) = _
      rw [arrived_snoc, onQueue_append, ← h.order q', List.append_assoc, inQueue, List.map_append,
        onQueue_append]
      rfl
  | complete htx => exact { h with order := hquiet rfl }
  | reorder hperm => exact { h with order := hquiet rfl }
  | oblige allocates accepts => exact { h with order := hquiet rfl }
  | signal => exact { h with order := hquiet rfl }

end Loop

/-! ### Runs -/

section Runs

variable {cfg : DatapathConfig} {lcore : UInt32} {start end_ : Ipv4Addr} {reserved : List Ipv4Addr}
  {dhcp : DhcpState} {nat : NatTable} {xid : UInt32} {mbufs : List MbufId}
  {tr : List (Turn Unit NicEvent Datapath)} {c : (Unit → Program Datapath Unit) × Datapath}

/-- A run, up to a moment at which the worker is not in the middle of its loop. -/
theorem tracks_of_run {E : Prop} (hdhcp : DhcpState.boot start end_ reserved = some dhcp)
    (h : ((system cfg fun _ : Unit ↦ lcore).restrict fun c _ ↦ E → c.2.Obliging cfg).Run
      (atRest Unit (boot cfg dhcp nat xid mbufs)) tr c) (hrest : c.1 () = .ret ()) :
    ∃ g, Tracks E (events tr) c.2 g ∧
      Owes cfg (App.boot cfg.toAppConfig dhcp nat xid) [] g := by
  have hboot : Tracks E [] (boot cfg dhcp nat xid mbufs)
      ⟨App.boot cfg.toAppConfig dhcp nat xid, [], []⟩ :=
    ⟨rfl, .slnil, fun _ ↦ rfl, .nil, fun _ ↦ rfl⟩
  have hrun : ((workers (fun _ : Unit ↦ fun p ↦ ∃ now, p = iteration cfg lcore now)
      (NicStep cfg)).restrict fun c _ ↦ E → c.2.Obliging cfg).Run
        (atRest Unit (boot cfg dhcp nat xid mbufs)) tr c := h
  have hjob : ∀ p, (∃ now, p = iteration cfg lcore now) → ∀ g,
      Owes cfg (App.boot cfg.toAppConfig dhcp nat xid) [] g →
      Follows (Tracks E) (fun s ↦ E → s.Obliging cfg)
        (fun _ ↦ Owes cfg (App.boot cfg.toAppConfig dhcp nat xid) []) p g := by
    rintro p ⟨now, rfl⟩ g hg
    exact (serves_iteration (DhcpState.sound_boot hdhcp) lcore now g hg).mono fun _ _ h ↦ h.2
  obtain ⟨g, htracks, hfollows⟩ := follows_of_run (fun s ↦ E → s.Obliging cfg) hjob
    (fun past s e t g hst hs ↦ hs.nicStep hst) hboot ⟨[], .nil, rfl, rfl⟩ hrun
  rw [hrest] at hfollows
  exact ⟨g, htracks, hfollows⟩

/-- **A router with one worker is the router of `App`.** Whenever the worker is at the top of its
loop, its tables are those of a run of `App` on the frames that it has polled. What it has handed to
the devices was sent in that run, in the same order; the devices and mempools may have failed to
take some of it. -/
theorem one_worker_refines_app (hdhcp : DhcpState.boot start end_ reserved = some dhcp)
    (h : (system cfg fun _ : Unit ↦ lcore).Run (atRest Unit (boot cfg dhcp nat xid mbufs)) tr c)
    (hrest : c.1 () = .ret ()) :
    ∃ tr', (App.system cfg.toAppConfig).Run (App.boot cfg.toAppConfig dhcp nat xid) tr' c.2.app ∧
      (App.handled tr' ++ framesOf c.2.nic.rx).Perm c.2.nic.received ∧
      c.2.nic.sent.Sublist (tr'.flatMap (·.2)) := by
  have hrun : ((system cfg fun _ : Unit ↦ lcore).restrict fun c _ ↦ False → c.2.Obliging cfg).Run
      (atRest Unit (boot cfg dhcp nat xid mbufs)) tr c := by
    refine h.mono ?_
    exact fun _ _ _ hst ↦ ⟨False.elim, hst⟩
  obtain ⟨g, htracks, tr', happ, hsent, hpolled⟩ := tracks_of_run hdhcp hrun hrest
  rw [List.append_nil] at hpolled
  refine ⟨tr', ?_, ?_, ?_⟩
  · rw [htracks.app]
    exact happ
  · rw [← hpolled]
    exact htracks.frames
  · rw [← hsent]
    exact htracks.sent

/-- The devices take nothing. -/
def sampleRefusing : Datapath :=
  sampleArrived.setNic { sampleArrived.nic with allocates := true, accepts := false }

/-- Both frames have been handled, although nothing could be sent. -/
theorem one_worker_refines_app_sample :
    ∃ tr s, (App.system sampleConfig.toAppConfig).Run
        (App.boot sampleConfig.toAppConfig Ports.sampleDhcp sampleNat 1) tr s ∧
      (App.handled tr).Perm [(1, sampleBroadcast 1), (2, sampleBroadcast 2)] ∧
      ((iteration sampleConfig 0 0).run sampleRefusing).2.nic.sent = [] := by
  have hrefuse : (system sampleConfig fun _ : Unit ↦ 0).step (atRest Unit sampleArrived)
      (.env (.oblige true false)) (atRest Unit sampleRefusing) := .env (.oblige true false)
  obtain ⟨n, hjob⟩ : ∃ n, ((system sampleConfig fun _ : Unit ↦ 0).restrict fun _ _ ↦ True).Run
      (atRest Unit sampleRefusing)
        (.start () (iteration sampleConfig 0 0) :: List.replicate n (.act ()))
        (atRest Unit ((iteration sampleConfig 0 0).run sampleRefusing).2) :=
    run_job (C := fun _ ↦ True) (w := ()) rfl ⟨0, rfl⟩ trivial (by decide +kernel)
  have hrun := ((run_sampleArrived fun _ : Unit ↦ 0).of_restrict.snoc hrefuse).trans
    hjob.of_restrict
  obtain ⟨tr', happ, hframes, -⟩ := one_worker_refines_app Ports.boot_sampleDhcp hrun rfl
  have hreceived : ((iteration sampleConfig 0 0).run sampleRefusing).2.nic.received =
      [(1, sampleBroadcast 1), (2, sampleBroadcast 2)] := by decide +kernel
  have hrx : framesOf ((iteration sampleConfig 0 0).run sampleRefusing).2.nic.rx = [] := by
    decide +kernel
  rw [atRest, hreceived, hrx, List.append_nil] at hframes
  exact ⟨tr', _, happ, hframes, by decide +kernel⟩

/-- **With devices that do what they are asked for**, everything that `App` sends is sent. Of each
receive queue the frames are handled in the order in which they arrive, and none is passed over:
those that were handled and those that are still in the queue are all that have arrived in it. -/
theorem one_worker_sends_everything (hdhcp : DhcpState.boot start end_ reserved = some dhcp)
    (h : ((system cfg fun _ : Unit ↦ lcore).restrict fun c _ ↦ c.2.Obliging cfg).Run
      (atRest Unit (boot cfg dhcp nat xid mbufs)) tr c)
    (hrest : c.1 () = .ret ()) :
    ∃ tr', (App.system cfg.toAppConfig).Run (App.boot cfg.toAppConfig dhcp nat xid) tr' c.2.app ∧
      (App.handled tr' ++ framesOf c.2.nic.rx).Perm c.2.nic.received ∧
      (∃ polled, byPort polled = App.handled tr' ∧ ∀ q,
        onQueue q polled ++ inQueue q c.2.nic.rx = onQueue q (arrived (events tr))) ∧
      c.2.nic.sent = tr'.flatMap (·.2) := by
  have hrun : ((system cfg fun _ : Unit ↦ lcore).restrict fun c _ ↦ True → c.2.Obliging cfg).Run
      (atRest Unit (boot cfg dhcp nat xid mbufs)) tr c := by
    refine h.mono ?_
    exact fun _ _ _ hst ↦ ⟨fun _ ↦ hst.1, hst.2⟩
  obtain ⟨g, htracks, tr', happ, hsent, hpolled⟩ := tracks_of_run hdhcp hrun hrest
  rw [List.append_nil] at hpolled
  refine ⟨tr', ?_, ?_, ⟨g.polled, hpolled, htracks.order⟩, ?_⟩
  · rw [htracks.app]
    exact happ
  · rw [← hpolled]
    exact htracks.frames
  · rw [← hsent]
    exact htracks.all trivial

/-- The DHCP client's first message has been sent, and each frame on the other port. What was in the
queue of port 1 is what has been handled there. -/
theorem one_worker_sends_everything_sample :
    ∃ tr s, (App.system sampleConfig.toAppConfig).Run
        (App.boot sampleConfig.toAppConfig Ports.sampleDhcp sampleNat 1) tr s ∧
      (∃ polled, byPort polled = App.handled tr ∧ onQueue (1, 0) polled = [sampleBroadcast 1]) ∧
      tr.flatMap (·.2) = [(0, .dhcpMessage ((DhcpClient.new (sampleMac 0xf0) 1).build .discover)),
        (2, .frame (sampleBroadcast 1)), (1, .frame (sampleBroadcast 2))] := by
  obtain ⟨n, hjob⟩ : ∃ n, ((system sampleConfig fun _ : Unit ↦ 0).restrict
      fun c _ ↦ c.2.Obliging sampleConfig).Run (atRest Unit sampleArrived)
        (.start () (iteration sampleConfig 0 0) :: List.replicate n (.act ()))
        (atRest Unit ((iteration sampleConfig 0 0).run sampleArrived).2) :=
    run_job (C := Obliging sampleConfig) (w := ()) rfl ⟨0, rfl⟩ (by decide) (by decide +kernel)
  have hrun := (run_sampleArrived fun _ : Unit ↦ 0).trans hjob
  obtain ⟨tr', happ, -, ⟨polled, hhandled, horder⟩, hsent⟩ :=
    one_worker_sends_everything Ports.boot_sampleDhcp hrun rfl
  refine ⟨tr', _, happ, ⟨polled, hhandled, ?_⟩, hsent.symm.trans (by decide +kernel)⟩
  have hqueue := horder (1, 0)
  have hempty : inQueue (1, 0) ((iteration sampleConfig 0 0).run sampleArrived).2.nic.rx = [] := by
    decide +kernel
  rw [atRest, hempty, List.append_nil, events, List.filterMap_append] at hqueue
  rw [hqueue]
  show onQueue (1, 0) (arrived (_ ++ events _)) = _
  rw [events_job, List.append_nil]
  decide +kernel

end Runs

end Datapath

end UserspaceRouter
