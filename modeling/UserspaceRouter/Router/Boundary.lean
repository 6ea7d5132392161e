import UserspaceRouter.Router.Firewall
import UserspaceRouter.Router.NatLimits

/-!
# The boundary between LAN and WAN

The two paths of the firewall as calls, made one after the other, and what they have to do with each
other's tables. Three things are expected at this boundary that the code does not do.

*A refused packet leaves no trace.* `lanEgressNat` records the packet in the flow table before it
asks for a port, and does not take the record back when there is none. The tables are as before
exactly if the flow table has no use for the packet (`Unmoved`), and each tracked flow is that of an
endpoint with a port exactly as long as this is so for every packet refused (`bound_call_iff`).

*Exhaustion means live flows.* A port is bound for good: flows end, bindings do not. What is true is
that every port has been used: there are as many bindings as ports (`Inv.egress_eq_none_iff`).

*Only traffic for the WAN address comes in.* `wanIngressNat` asks for the destination port and for
the flow, and never for the destination address (`wanIngressNat_isSome_iff`).
-/

namespace UserspaceRouter

namespace Firewall

open TransitionSystem

/-! ### Calls, one after the other -/

/-- The calls made on the firewall. -/
inductive Call
  | lanEgressNat (frame : Bytes) (now : Tick)
  | wanIngressNat (frame : Bytes) (now : Tick)
  | sweep (now : Tick)
  | setWanIp (ip : Ipv4Addr)
  | setGateway (ip : Ipv4Addr)

/-- One call: the firewall afterwards, and the frame that is passed on, with the host it is for. -/
def call (f : Firewall) : Call → Firewall × Option (Ipv4Addr × Bytes)
  | .lanEgressNat frame now => f.lanEgressNat frame now
  | .wanIngressNat frame now => f.wanIngressNat frame now
  | .sweep now => ({ f with conntrack := f.conntrack.sweep now }, none)
  | .setWanIp ip => ({ f with nat := f.nat.setWanIp ip }, none)
  | .setGateway ip => ({ f with gateway := ip }, none)

def callSystem : TransitionSystem Firewall (Call × Option (Ipv4Addr × Bytes)) :=
  .ofCalls fun f c ↦ some (f.call c)

theorem step_call (f : Firewall) (c : Call) : callSystem.step f (c, (f.call c).2) (f.call c).1 :=
  rfl

theorem eq_of_step_call {f g : Firewall} {c : Call} {out : Option (Ipv4Addr × Bytes)}
    (h : callSystem.step f (c, out) g) : (f.call c).1 = g ∧ (f.call c).2 = out :=
  Prod.mk.inj (Option.some.inj h)

/-! ### What `lan_egress_nat` can do -/

/-- `lanEgressNat` drops this TCP packet because there is no external port for it. -/
structure Refused (f : Firewall) (frame : Bytes) (tup : TcpTuple) : Prop where
  gateway : f.gatewayIp ≠ none
  wan : f.nat.wanIp ≠ Ipv4Addr.unspecified
  tuple : parseTcpTuple frame = some tup
  untranslated : (translateEgress frame f.nat).2.2 = none

instance (f : Firewall) (frame : Bytes) (tup : TcpTuple) : Decidable (Refused f frame tup) :=
  decidable_of_iff (f.gatewayIp ≠ none ∧ f.nat.wanIp ≠ Ipv4Addr.unspecified ∧
      parseTcpTuple frame = some tup ∧ (translateEgress frame f.nat).2.2 = none)
    ⟨fun ⟨h₁, h₂, h₃, h₄⟩ ↦ ⟨h₁, h₂, h₃, h₄⟩, fun ⟨h₁, h₂, h₃, h₄⟩ ↦ ⟨h₁, h₂, h₃, h₄⟩⟩

/-- For a TCP frame, `translateEgress` asks the table for the source of the tuple. -/
theorem translateEgress_snd {frame : Bytes} {tup : TcpTuple} (htup : parseTcpTuple frame = some tup)
    (t : NatTable) : (translateEgress frame t).2 = t.egress .tcp tup.srcIp tup.srcPort := by
  obtain ⟨c, hc, hl4, hend⟩ := exists_classify_of_parseTcpTuple htup .src
  have hip : c.ip = tup.srcIp := congrArg Endpoint.ip hend
  have hport : c.port = tup.srcPort := congrArg Endpoint.port hend
  simp only [translateEgress, hc]
  rw [hl4, hip, hport]
  rcases t.egress .tcp tup.srcIp tup.srcPort with ⟨t', - | x⟩ <;> rfl

/-- **What `lanEgressNat` can do**: nothing; record the packet and drop it for want of a port; or
record it, bind its source and pass it on. -/
theorem lanEgressNat_cases (f : Firewall) (frame : Bytes) (now : Tick) :
    (f.lanEgressNat frame now = (f, none) ∧ ∀ tup, ¬Refused f frame tup) ∨
    (∃ tup, Refused f frame tup ∧ f.lanEgressNat frame now =
      ({ f with conntrack := f.conntrack.step (.observeEgress tup.egressKey tup.flags now) },
        none)) ∨
    ∃ tup gw frame' x, parseTcpTuple frame = some tup ∧
      (f.nat.egress .tcp tup.srcIp tup.srcPort).2 = some x ∧ f.lanEgressNat frame now =
        ({ f with
            conntrack := f.conntrack.step (.observeEgress tup.egressKey tup.flags now)
            nat := (f.nat.egress .tcp tup.srcIp tup.srcPort).1 }, some (gw, frame')) := by
  rcases hgw : f.gatewayIp with - | gw
  · exact Or.inl ⟨by simp only [lanEgressNat, hgw], fun tup h ↦ h.gateway hgw⟩
  by_cases hwan : f.nat.wanIp = Ipv4Addr.unspecified
  · exact Or.inl ⟨by simp only [lanEgressNat, hgw, if_pos hwan], fun tup h ↦ h.wan hwan⟩
  rcases htup : parseTcpTuple frame with - | tup
  · refine Or.inl ⟨by simp only [lanEgressNat, hgw, if_neg hwan, htup], fun tup h ↦ ?_⟩
    exact Option.some_ne_none tup (h.tuple.symm.trans htup)
  have hsnd := translateEgress_snd htup f.nat
  rcases hx : (f.nat.egress .tcp tup.srcIp tup.srcPort).2 with - | x
  · have hnone : (translateEgress frame f.nat).2.2 = none := by rw [hsnd, hx]
    have hnat : (translateEgress frame f.nat).2.1 = f.nat := by
      rw [hsnd, (NatTable.egress_eq_none hx).1]
    refine Or.inr (Or.inl ⟨tup, ⟨?_, hwan, htup, hnone⟩, ?_⟩)
    · rw [hgw]
      exact Option.some_ne_none gw
    · simp only [lanEgressNat, hgw, if_neg hwan, htup, hnone, hnat]
      rfl
  · refine Or.inr (Or.inr ⟨tup, gw, (translateEgress frame f.nat).1, x, rfl, hx, ?_⟩)
    simp only [lanEgressNat, hgw, if_neg hwan, htup, hsnd, hx]
    rfl

theorem Refused.tuple_unique {f : Firewall} {frame : Bytes} {tup tup' : TcpTuple}
    (h : Refused f frame tup) (h' : Refused f frame tup') : tup = tup' :=
  Option.some.inj (h.tuple.symm.trans h'.tuple)

/-- What is refused is not translated. -/
theorem Refused.egress_eq_none {f : Firewall} {frame : Bytes} {tup tup' : TcpTuple}
    (h : Refused f frame tup) (htup : parseTcpTuple frame = some tup') :
    (f.nat.egress .tcp tup'.srcIp tup'.srcPort).2 = none := by
  rw [← translateEgress_snd htup]
  exact h.untranslated

/-- The source of a refused packet is unbound. -/
theorem Refused.unbound {f : Firewall} {frame : Bytes} {tup : TcpTuple} (h : Refused f frame tup) :
    f.nat.fwd.lookup (Proto.tcp, tup.srcIp, tup.srcPort) = none :=
  (NatTable.egress_eq_none (h.egress_eq_none h.tuple)).2

theorem nat_wanIngressNat (f : Firewall) (frame : Bytes) (now : Tick) :
    (f.wanIngressNat frame now).1.nat = f.nat := by
  unfold wanIngressNat
  rcases parseTcpTuple frame with - | tup
  · rfl
  · rcases translateIngress frame f.nat with ⟨frame', - | x⟩ <;> rfl

/-! ### A refused packet and the flow table -/

/-- The flow table has no use for an outbound packet of a flow: the packet neither opens the flow
nor moves it, and its time is the one on record. -/
def Unmoved (flags : UInt8) (now : Tick) : Option Conn → Prop
  | none => TcpFlag.isOpening flags = false
  | some c => c.fullyClosed = false ∧ c.lastSeen = now ∧
      transitionOnSend c.internal flags = c.internal ∧
      transitionOnRecv c.external flags = c.external

instance (flags : UInt8) (now : Tick) : (o : Option Conn) → Decidable (Unmoved flags now o)
  | none => inferInstanceAs (Decidable (_ = _))
  | some _ => inferInstanceAs (Decidable (_ ∧ _))

/-- **A packet leaves its flow alone exactly if the table has no use for it.** -/
theorem flowStep_egress_eq_self_iff {o : Option Conn} {flags : UInt8} {now : Tick} :
    flowStep o (.egress flags now) = o ↔ Unmoved flags now o := by
  rcases o with - | c
  · show (Conn.afterEgress none flags now).reap = none ↔ TcpFlag.isOpening flags = false
    rw [Conn.reap_eq_none_iff, ← Conn.fullyClosed_iff, Conn.afterEgress_none_fullyClosed_iff]
  · show (Conn.afterEgress (some c) flags now).reap = some c ↔ _
    rw [Conn.reap_eq_some_iff]
    constructor
    · rintro ⟨hopen, heq⟩
      rw [heq] at hopen
      exact ⟨hopen, (congrArg Conn.lastSeen heq).symm, congrArg Conn.internal heq,
        congrArg Conn.external heq⟩
    · rintro ⟨hopen, rfl, hint, hext⟩
      have heq : Conn.afterEgress (some c) flags c.lastSeen = c := by
        show Conn.mk (transitionOnSend c.internal flags) (transitionOnRecv c.external flags) _ = c
        rw [hint, hext]
      exact ⟨by rw [heq]; exact hopen, heq⟩

/-- The flow table after an outbound packet is the old one exactly if it has no use for the
packet. -/
theorem lookup_observeEgress_eq_iff (c : ConnTrack) (key : FlowKey) (flags : UInt8) (now : Tick) :
    (∀ k, (c.step (.observeEgress key flags now)).flows.lookup k = c.flows.lookup k) ↔
      Unmoved flags now (c.flows.lookup key) := by
  rw [← flowStep_egress_eq_self_iff]
  constructor
  · intro h
    have hkey := h key
    rw [ConnTrack.lookup_step] at hkey
    simpa only [ConnTrack.Op.eventAt, if_true] using hkey
  · intro h k
    rw [ConnTrack.lookup_step]
    by_cases hk : k = key
    · subst hk
      simpa only [ConnTrack.Op.eventAt, if_true] using h
    · simp only [ConnTrack.Op.eventAt, if_neg hk]

/-- Each tracked flow's internal endpoint has a binding. -/
def Bound (f : Firewall) : Prop :=
  ∀ k, k ∈ f.conntrack.flows → ∃ ext, f.nat.fwd.lookup (Proto.tcp, k.intIp, k.intPort) = some ext

/-- The condition on a call: if it refuses a packet, the flow table has no use for the packet. -/
def LeavesNoTrace (f : Firewall) : Call → Prop
  | .lanEgressNat frame now => ∀ tup, Refused f frame tup →
      Unmoved tup.flags now (f.conntrack.flows.lookup tup.egressKey)
  | _ => True

/-- A flow that a call has added is one that its packet has opened. -/
theorem mem_flows_of_step {c : ConnTrack} {k : FlowKey} {op : ConnTrack.Op}
    (h : k ∈ (c.step op).flows) :
    k ∈ c.flows ∨
      ∃ flags now, op = .observeEgress k flags now ∧ TcpFlag.isOpening flags = true := by
  by_cases hold : k ∈ c.flows
  · exact Or.inl hold
  · obtain ⟨conn, hnew⟩ := AList.mem_iff_lookup.1 h
    exact Or.inr (ConnTrack.opening_of_lookup_step_eq_some (AList.lookup_eq_none.2 hold) hnew)

/-- Tracked flows stay bound if none is opened and no binding is lost. -/
theorem Bound.of_mem {f g : Firewall} (h : Bound f)
    (hflows : ∀ k, k ∈ g.conntrack.flows → k ∈ f.conntrack.flows)
    (hnat : ∀ k ext, f.nat.fwd.lookup k = some ext → g.nat.fwd.lookup k = some ext) : Bound g := by
  intro k hk
  obtain ⟨ext, hext⟩ := h k (hflows k hk)
  exact ⟨ext, hnat _ _ hext⟩

/-- A call that observes no outbound packet opens no flow. -/
theorem Bound.step {f : Firewall} (h : Bound f) {op : ConnTrack.Op}
    (hop : ∀ k flags now, op ≠ .observeEgress k flags now) :
    Bound { f with conntrack := f.conntrack.step op } := by
  refine h.of_mem (fun k hk ↦ ?_) fun _ _ hk ↦ hk
  rcases mem_flows_of_step hk with hold | ⟨flags, now, heq, -⟩
  · exact hold
  · exact absurd heq (hop k flags now)

/-- After a refused packet, tracked flows are bound exactly if the table had no use for it. -/
theorem bound_refused_iff {f : Firewall} (h : Bound f) {frame : Bytes} {tup : TcpTuple}
    (href : Refused f frame tup) (now : Tick) :
    Bound { f with conntrack := f.conntrack.step (.observeEgress tup.egressKey tup.flags now) } ↔
      Unmoved tup.flags now (f.conntrack.flows.lookup tup.egressKey) := by
  rw [← lookup_observeEgress_eq_iff]
  -- the source is unbound, so its flow is not tracked
  have hunbound : ∀ ext, f.nat.fwd.lookup (Proto.tcp, tup.srcIp, tup.srcPort) ≠ some ext := by
    intro ext
    rw [href.unbound]
    exact (Option.some_ne_none ext).symm
  constructor
  · intro hbound
    rw [lookup_observeEgress_eq_iff]
    have hnone : f.conntrack.flows.lookup tup.egressKey = none := by
      rw [AList.lookup_eq_none]
      intro hmem
      obtain ⟨ext, hext⟩ := h _ hmem
      exact hunbound ext hext
    have hafter : tup.egressKey ∉
        (f.conntrack.step (.observeEgress tup.egressKey tup.flags now)).flows := by
      intro hmem
      obtain ⟨ext, hext⟩ := hbound _ hmem
      exact hunbound ext hext
    rw [← AList.lookup_eq_none, ConnTrack.lookup_step] at hafter
    rw [← flowStep_egress_eq_self_iff, hnone]
    rw [hnone] at hafter
    simpa only [ConnTrack.Op.eventAt, if_true] using hafter
  · intro hsame
    refine h.of_mem (fun k hk ↦ ?_) fun _ _ hk ↦ hk
    rw [AList.mem_iff_lookup] at hk ⊢
    rw [← hsame k]
    exact hk

/-- **Tracked flows stay bound through a call exactly if it leaves no trace of a packet it
refuses.** -/
theorem bound_call_iff {f : Firewall} (hnat : f.nat.Inv) (h : Bound f) (c : Call) :
    Bound (f.call c).1 ↔ LeavesNoTrace f c := by
  cases c with
  | lanEgressNat frame now =>
    show Bound (f.lanEgressNat frame now).1 ↔ ∀ tup, Refused f frame tup → _
    rcases lanEgressNat_cases f frame now with ⟨heq, hno⟩ | ⟨tup, href, heq⟩ |
      ⟨tup, gw, frame', x, htup, hx, heq⟩
    · rw [heq]
      exact iff_of_true h fun tup href ↦ absurd href (hno tup)
    · rw [heq, bound_refused_iff h href now]
      constructor
      · intro hunmoved tup' href'
        obtain rfl := href.tuple_unique href'
        exact hunmoved
      · exact fun hall ↦ hall tup href
    · rw [heq]
      refine iff_of_true (fun k hk ↦ ?_) fun tup' href ↦ ?_
      · rcases mem_flows_of_step hk with hold | ⟨flags, now', hop, -⟩
        · obtain ⟨ext, hext⟩ := h k hold
          exact ⟨ext, (NatTable.extends_egress hnat _ _ _).fwd_le _ _ hext⟩
        · obtain ⟨rfl, -, -⟩ := ConnTrack.Op.observeEgress.inj hop
          exact ⟨x.newSrcPort, (NatTable.lookup_of_egress_eq_some hnat hx).1⟩
      · exact absurd (hx.symm.trans (href.egress_eq_none htup)) (Option.some_ne_none x)
  | wanIngressNat frame now =>
    refine iff_of_true ?_ trivial
    show Bound (f.wanIngressNat frame now).1
    unfold wanIngressNat
    rcases parseTcpTuple frame with - | tup
    · exact h
    rcases translateIngress frame f.nat with ⟨frame', - | x⟩
    · exact h
    have hcheck : ∀ k flags now', ConnTrack.Op.checkIngress (tup.ingressKey x) tup.flags now ≠
        .observeEgress k flags now' := by simp
    exact h.step hcheck
  | sweep now =>
    have hsweep : ∀ k flags now', ConnTrack.Op.sweep now ≠ .observeEgress k flags now' := by simp
    exact iff_of_true (h.step hsweep) trivial
  | setWanIp ip => exact iff_of_true (h.of_mem (fun _ hk ↦ hk) fun _ _ hk ↦ hk) trivial
  | setGateway ip => exact iff_of_true (h.of_mem (fun _ hk ↦ hk) fun _ _ hk ↦ hk) trivial

/-- What a call does to the NAT. -/
theorem nat_call {f : Firewall} (h : f.nat.Inv) (c : Call) :
    (f.call c).1.nat.Inv ∧ f.nat.Extends (f.call c).1.nat := by
  cases c with
  | lanEgressNat frame now =>
    show (f.lanEgressNat frame now).1.nat.Inv ∧ f.nat.Extends (f.lanEgressNat frame now).1.nat
    rcases lanEgressNat_cases f frame now with ⟨heq, -⟩ | ⟨tup, -, heq⟩ |
      ⟨tup, gw, frame', x, -, -, heq⟩ <;> rw [heq]
    · exact ⟨h, .refl _⟩
    · exact ⟨h, .refl _⟩
    · exact ⟨NatTable.inv_egress h _ _ _, NatTable.extends_egress h _ _ _⟩
  | wanIngressNat frame now =>
    show (f.wanIngressNat frame now).1.nat.Inv ∧ f.nat.Extends (f.wanIngressNat frame now).1.nat
    rw [nat_wanIngressNat]
    exact ⟨h, .refl _⟩
  | sweep now => exact ⟨h, .refl _⟩
  | setWanIp ip => exact ⟨NatTable.inv_setWanIp h ip, NatTable.extends_setWanIp _ ip⟩
  | setGateway ip => exact ⟨h, .refl _⟩

/-- **When a refused packet leaves no trace.** In every state, whenever `lanEgressNat` refuses a TCP
packet for want of a port, the NAT is as before, and the flow table is as before exactly if it has
no use for the packet. And in every run from an empty flow table and a fresh NAT all of whose calls
meet that condition, each tracked flow's internal endpoint has a binding in the state reached, and
the next call keeps it so exactly if it meets the condition too. -/
theorem refused_leaves_no_trace_iff (f : Firewall) :
    (∀ frame tup now, Refused f frame tup →
      ((∀ k, (f.lanEgressNat frame now).1.conntrack.flows.lookup k =
            f.conntrack.flows.lookup k) ∧ (f.lanEgressNat frame now).1.nat = f.nat ↔
        Unmoved tup.flags now (f.conntrack.flows.lookup tup.egressKey))) ∧
    ∀ wanIp gateway lo hi nat tr, NatTable.new wanIp lo hi = some nat →
      (callSystem.restrict fun f a ↦ LeavesNoTrace f a.1).Run ⟨ConnTrack.new, nat, gateway⟩ tr f →
      Bound f ∧ ∀ c, Bound (f.call c).1 ↔ LeavesNoTrace f c := by
  constructor
  · intro frame tup now href
    rw [← lookup_observeEgress_eq_iff]
    rcases lanEgressNat_cases f frame now with ⟨-, hno⟩ | ⟨tup', href', heq⟩ |
      ⟨tup', gw, frame', x, htup, hx, -⟩
    · exact absurd href (hno tup)
    · obtain rfl := href.tuple_unique href'
      rw [heq]
      exact and_iff_left rfl
    · exact absurd (hx.symm.trans (href.egress_eq_none htup)) (Option.some_ne_none x)
  · intro wanIp gateway lo hi nat tr hnat hrun
    obtain ⟨hinv, hbound⟩ : f.nat.Inv ∧ Bound f := by
      refine hrun.invariant (I := fun f ↦ f.nat.Inv ∧ Bound f) ⟨(NatTable.inv_new hnat).1, ?_⟩ ?_
      · exact fun k hk ↦ absurd hk (AList.notMem_empty k)
      · rintro f ⟨c, out⟩ g ⟨hinv, hbound⟩ ⟨hcond, hst⟩
        obtain ⟨rfl, -⟩ := eq_of_step_call hst
        exact ⟨(nat_call hinv c).1, (bound_call_iff hinv hbound c).2 hcond⟩
    exact ⟨hbound, bound_call_iff hinv hbound⟩

/-- A TCP packet `192.168.1.host:1111 → 8.8.8.8:80` with the given flags. -/
def sampleTcp (host flags : UInt8) : Bytes :=
  [0x02, 0, 0, 0, 0, 2, 0x02, 0, 0, 0, 0, 1, 0x08, 0x00,
    0x45, 0, 0, 40, 0, 0, 0, 0, 64, 6, 0, 0, 192, 168, 1, host, 8, 8, 8, 8,
    0x04, 0x57, 0, 80, 0, 0, 0, 0, 0, 0, 0, 0, 0x50, flags, 0, 0, 0, 0, 0, 0]

/-- The tuple of such a packet. -/
def sampleTuple (host : Ipv4Addr) (flags : UInt8) : TcpTuple :=
  ⟨0xc0a80100 + host, 1111, 0x08080808, 80, flags⟩

/-- A firewall with one external port. -/
def onePort : Firewall := ⟨ConnTrack.new, ⟨0xcb007101, 40000, 40000, 40000, ∅, ∅⟩, 1⟩

theorem new_onePort : NatTable.new 0xcb007101 40000 40000 = some onePort.nat := rfl

/-- A host has taken the only port. An ACK out of nowhere, from another host, is refused and leaves
no trace. -/
theorem refused_ack_leaves_no_trace :
    ∃ tr f frame tup now,
      (callSystem.restrict fun f a ↦ LeavesNoTrace f a.1).Run onePort tr f ∧ Refused f frame tup ∧
      (∀ k, (f.lanEgressNat frame now).1.conntrack.flows.lookup k = f.conntrack.flows.lookup k) ∧
      (f.lanEgressNat frame now).1.nat = f.nat ∧ Bound f := by
  have hfirst : LeavesNoTrace onePort (.lanEgressNat (sampleTcp 2 TcpFlag.syn) 0) :=
    fun tup h ↦ absurd h.untranslated (by decide +kernel)
  have hrun : (callSystem.restrict fun f a ↦ LeavesNoTrace f a.1).Run onePort _ _ :=
    .single ⟨hfirst, step_call onePort (.lanEgressNat (sampleTcp 2 TcpFlag.syn) 0)⟩
  have href : Refused (onePort.call (.lanEgressNat (sampleTcp 2 TcpFlag.syn) 0)).1
      (sampleTcp 3 TcpFlag.ack) (sampleTuple 3 TcpFlag.ack) := by decide +kernel
  obtain ⟨hstate, hruns⟩ := refused_leaves_no_trace_iff
    (onePort.call (.lanEgressNat (sampleTcp 2 TcpFlag.syn) 0)).1
  obtain ⟨hbound, -⟩ := hruns _ _ _ _ _ _ new_onePort hrun
  have hnone : (onePort.call (.lanEgressNat (sampleTcp 2 TcpFlag.syn) 0)).1.conntrack.flows.lookup
      (sampleTuple 3 TcpFlag.ack).egressKey = none := by decide +kernel
  have hunmoved : Unmoved TcpFlag.ack 1 ((onePort.call (.lanEgressNat (sampleTcp 2 TcpFlag.syn)
      0)).1.conntrack.flows.lookup (sampleTuple 3 TcpFlag.ack).egressKey) := by
    rw [hnone]
    decide
  obtain ⟨hsame, hnat⟩ := (hstate _ _ 1 href).2 hunmoved
  exact ⟨_, _, _, _, 1, hrun, href, hsame, hnat, hbound⟩

/-- A host has taken the only port. The SYN of another host is refused, and its flow is tracked all
the same, although its source has no binding. -/
theorem refused_syn_is_tracked :
    ∃ tr f, callSystem.Run onePort tr f ∧ ∃ frame tup now, Refused f frame tup ∧
      tup.egressKey ∉ f.conntrack.flows ∧
      tup.egressKey ∈ (f.lanEgressNat frame now).1.conntrack.flows ∧
      (f.lanEgressNat frame now).1.nat.fwd.lookup (Proto.tcp, tup.srcIp, tup.srcPort) = none :=
  ⟨_, _, .single (step_call onePort (.lanEgressNat (sampleTcp 2 TcpFlag.syn) 0)),
    sampleTcp 3 TcpFlag.syn, sampleTuple 3 TcpFlag.syn, 1, by decide +kernel⟩

/-! ### Exhaustion -/

/-- In the run a TCP packet of this endpoint has been translated. -/
def WasTranslated (tr : List (Call × Option (Ipv4Addr × Bytes))) (e : Endpoint) : Prop :=
  ∃ frame now out tup, (Call.lanEgressNat frame now, some out) ∈ tr ∧
    parseTcpTuple frame = some tup ∧ tup.endpoint .src = e

/-- A binding that a call has added is that of the packet it has translated. -/
theorem lookup_fwd_call {f : Firewall} (h : f.nat.Inv) {c : Call} {proto : UInt8} {ip : Ipv4Addr}
    {port ext : UInt16} (hk : (f.call c).1.nat.fwd.lookup (proto, ip, port) = some ext) :
    f.nat.fwd.lookup (proto, ip, port) = some ext ∨
      WasTranslated [(c, (f.call c).2)] ⟨ip, port⟩ := by
  cases c with
  | lanEgressNat frame now =>
    change (f.lanEgressNat frame now).1.nat.fwd.lookup _ = _ at hk
    show _ ∨ WasTranslated [(_, (f.lanEgressNat frame now).2)] _
    rcases lanEgressNat_cases f frame now with ⟨heq, -⟩ | ⟨tup, -, heq⟩ |
      ⟨tup, gw, frame', x, htup, hx, heq⟩ <;> rw [heq] at hk ⊢
    · exact Or.inl hk
    · exact Or.inl hk
    · obtain ⟨ext', -, hegress⟩ | ⟨-, -, hegress⟩ | ⟨ext', next, -, -, -, -, hegress⟩ :=
        NatTable.egress_cases h .tcp tup.srcIp tup.srcPort <;> rw [hegress] at hk
      · exact Or.inl hk
      · exact Or.inl hk
      · have hk' : (f.nat.fwd.insert (Proto.tcp, tup.srcIp, tup.srcPort) ext').lookup
            (proto, ip, port) = some ext := hk
        rw [AList.lookup_insert_ite] at hk'
        split_ifs at hk' with heq'
        · obtain ⟨-, rfl, rfl⟩ : proto = Proto.tcp ∧ ip = tup.srcIp ∧ port = tup.srcPort := by
            simpa using heq'
          exact Or.inr ⟨frame, now, (gw, frame'), tup, List.mem_singleton.2 rfl, htup, rfl⟩
        · exact Or.inl hk'
  | wanIngressNat frame now =>
    change (f.wanIngressNat frame now).1.nat.fwd.lookup _ = _ at hk
    rw [nat_wanIngressNat] at hk
    exact Or.inl hk
  | sweep now => exact Or.inl hk
  | setWanIp ip => exact Or.inl hk
  | setGateway ip => exact Or.inl hk

/-- What a run's calls say about the NAT: every binding goes back to a packet that was
translated. -/
structure Translations (lo hi : UInt16) (tr : List (Call × Option (Ipv4Addr × Bytes)))
    (f : Firewall) : Prop where
  inv : f.nat.Inv
  portLo_eq : f.nat.portLo = lo
  portHi_eq : f.nat.portHi = hi
  bound : ∀ proto ip port ext, f.nat.fwd.lookup (proto, ip, port) = some ext →
    WasTranslated tr ⟨ip, port⟩

theorem translations_run {wanIp gateway : Ipv4Addr} {lo hi : UInt16} {nat : NatTable}
    (hnat : NatTable.new wanIp lo hi = some nat) {tr : List (Call × Option (Ipv4Addr × Bytes))}
    {f : Firewall} (hrun : callSystem.Run ⟨ConnTrack.new, nat, gateway⟩ tr f) :
    Translations lo hi tr f := by
  obtain ⟨hinv, hlo, hhi⟩ := NatTable.inv_new hnat
  refine hrun.history (I := Translations lo hi) ⟨hinv, hlo, hhi, fun proto ip port ext hk ↦ ?_⟩ ?_
  · unfold NatTable.new at hnat
    split_ifs at hnat
    obtain rfl := Option.some.inj hnat
    exact absurd hk (by simp)
  · rintro tr f ⟨c, out⟩ g ⟨hinv, hlo, hhi, hbound⟩ hst
    obtain ⟨rfl, rfl⟩ := eq_of_step_call hst
    obtain ⟨hinv', hext⟩ := nat_call hinv c
    refine ⟨hinv', hext.portLo_eq.trans hlo, hext.portHi_eq.trans hhi, ?_⟩
    intro proto ip port ext hk
    rcases lookup_fwd_call hinv hk with hold | ⟨frame, now, out, tup, hmem, htup, hend⟩
    · obtain ⟨frame, now, out, tup, hmem, htup, hend⟩ := hbound proto ip port ext hold
      exact ⟨frame, now, out, tup, List.mem_append_left _ hmem, htup, hend⟩
    · exact ⟨frame, now, out, tup, List.mem_append_right _ hmem, htup, hend⟩

/-- **Exhaustion means that every port has been used.** In every run from an empty flow table and a
fresh NAT of `n` ports, `lanEgressNat` refuses a TCP packet for want of a port only when `n`
distinct internal endpoints have had a packet translated earlier in the run; each of them still
holds its port. -/
theorem exists_endpoints_of_refused {wanIp gateway : Ipv4Addr} {lo hi : UInt16} {nat : NatTable}
    (hnat : NatTable.new wanIp lo hi = some nat) {tr : List (Call × Option (Ipv4Addr × Bytes))}
    {f : Firewall} (hrun : callSystem.Run ⟨ConnTrack.new, nat, gateway⟩ tr f) {frame : Bytes}
    {tup : TcpTuple} (href : Refused f frame tup) :
    ∃ es : List Endpoint, es.Nodup ∧ es.length = hi.toNat - lo.toNat + 1 ∧
      ∀ e ∈ es, WasTranslated tr e ∧
        ∃ ext, f.nat.fwd.lookup (Proto.tcp, e.ip, e.port) = some ext := by
  obtain ⟨hinv, hlo, hhi, hbound⟩ := translations_run hnat hrun
  obtain ⟨-, hcount⟩ := (hinv.egress_eq_none_iff .tcp tup.srcIp tup.srcPort).1
    (href.egress_eq_none href.tuple)
  obtain ⟨es, hnodup, hlen, hes⟩ := f.nat.exists_endpoints .tcp
  refine ⟨es, hnodup, by rw [hlen, hcount, hlo, hhi], fun e he ↦ ?_⟩
  obtain ⟨ext, hext⟩ := hes e he
  exact ⟨hbound _ _ _ ext hext, ext, hext⟩

/-- A host has taken the only port when another host's packet is refused. -/
theorem exists_endpoints_onePort :
    ∃ tr f frame tup, callSystem.Run onePort tr f ∧ Refused f frame tup ∧
      ∃ e, WasTranslated tr e ∧ ∃ ext, f.nat.fwd.lookup (Proto.tcp, e.ip, e.port) = some ext := by
  have hrun := Run.single (step_call onePort (.lanEgressNat (sampleTcp 2 TcpFlag.syn) 0))
  have href : Refused (onePort.call (.lanEgressNat (sampleTcp 2 TcpFlag.syn) 0)).1
      (sampleTcp 3 TcpFlag.syn) (sampleTuple 3 TcpFlag.syn) := by decide +kernel
  obtain ⟨es, -, hlen, hes⟩ := exists_endpoints_of_refused new_onePort hrun href
  obtain ⟨e, rfl⟩ := List.length_eq_one_iff.1 hlen
  exact ⟨_, _, _, _, hrun, href, e, hes e (List.mem_singleton.2 rfl)⟩

/-- Two runs after which a packet is refused although no flow is tracked: a host opens a flow and
resets it, and its port stays bound; and a host sends an ACK out of nowhere, which opens no flow and
is bound all the same. -/
theorem refused_without_flows :
    (∃ tr f, callSystem.Run onePort tr f ∧
      tr.map (·.1) = [.lanEgressNat (sampleTcp 2 TcpFlag.syn) 0,
        .lanEgressNat (sampleTcp 2 TcpFlag.rst) 1] ∧
      f.conntrack.flows.entries = [] ∧ ∃ frame tup, Refused f frame tup) ∧
    ∃ tr f, callSystem.Run onePort tr f ∧
      tr.map (·.1) = [.lanEgressNat (sampleTcp 2 TcpFlag.ack) 0] ∧
      f.conntrack.flows.entries = [] ∧ ∃ frame tup, Refused f frame tup := by
  constructor
  · have hsyn := Run.single (step_call onePort (.lanEgressNat (sampleTcp 2 TcpFlag.syn) 0))
    exact ⟨_, _, hsyn.snoc (step_call _ (.lanEgressNat (sampleTcp 2 TcpFlag.rst) 1)), rfl,
      by decide +kernel, sampleTcp 3 TcpFlag.ack, sampleTuple 3 TcpFlag.ack, by decide +kernel⟩
  · exact ⟨_, _, .single (step_call onePort (.lanEgressNat (sampleTcp 2 TcpFlag.ack) 0)), rfl,
      by decide +kernel, sampleTcp 3 TcpFlag.ack, sampleTuple 3 TcpFlag.ack, by decide +kernel⟩

/-! ### Whose packets come in -/

/-- **What comes in**: a TCP packet to a bound port, from the peer of a tracked flow of the endpoint
that the port is bound to. -/
theorem wanIngressNat_isSome_iff {f : Firewall} (hct : f.conntrack.Inv) (frame : Bytes)
    (now : Tick) :
    (f.wanIngressNat frame now).2.isSome = true ↔
      ∃ tup e, parseTcpTuple frame = some tup ∧
        f.nat.rev.lookup (Proto.tcp, tup.dstPort) = some e ∧
        (⟨e.ip, e.port, tup.srcIp, tup.srcPort⟩ : FlowKey) ∈ f.conntrack.flows := by
  rcases htup : parseTcpTuple frame with - | tup
  · simp [wanIngressNat, htup]
  obtain ⟨c, hc, hl4, hend⟩ := exists_classify_of_parseTcpTuple htup .dst
  have hport : c.port = tup.dstPort := congrArg Endpoint.port hend
  have hin : f.nat.ingress c.l4 c.port =
      (f.nat.rev.lookup (Proto.tcp, tup.dstPort)).map fun e ↦ (e.ip, e.port) := by
    rw [hl4, hport]
    rfl
  rcases hrev : f.nat.rev.lookup (Proto.tcp, tup.dstPort) with - | e
  · rw [hrev] at hin
    simp [wanIngressNat, htup, translateIngress, hc, hin, hrev]
  · rw [hrev] at hin
    have hcheck := ConnTrack.checkIngress_eq_true_iff hct ⟨e.ip, e.port, tup.srcIp, tup.srcPort⟩
      tup.flags now
    simp only [wanIngressNat, htup, translateIngress, hc, hin, Option.map_some]
    show (if (f.conntrack.checkIngress ⟨e.ip, e.port, tup.srcIp, tup.srcPort⟩ tup.flags now).2 then
      some _ else none).isSome = true ↔ _
    constructor
    · intro h
      split_ifs at h with hadmit
      · exact ⟨tup, e, rfl, hrev, hcheck.1 hadmit⟩
      · exact absurd h (by simp)
    · rintro ⟨tup', e', htup', hrev', hmem⟩
      obtain rfl := Option.some.inj htup'
      obtain rfl := Option.some.inj (hrev.symm.trans hrev')
      rw [if_pos (hcheck.2 hmem)]
      rfl

/-- **When only traffic for the WAN address comes in.** In every state that any number of workers
reach from an empty flow table and a fresh NAT, for every frame: `wanIngressNat` passes it on only
if it is addressed to the current WAN address, exactly if this holds of the frame whenever its
destination port is bound and its source is the peer of a tracked flow of the endpoint it is bound
to. -/
theorem comes_in_for_wanIp_iff {W : Type*} [DecidableEq W] {wanIp gateway : Ipv4Addr}
    {lo hi : UInt16} {nat : NatTable} (hnat : NatTable.new wanIp lo hi = some nat)
    {tr : List (W × Event)} {s : (W → Pc) × Firewall}
    (hrun : (system W).Run (init W nat gateway) tr s) (frame : Bytes) (now : Tick) :
    ((s.2.wanIngressNat frame now).2.isSome = true →
        ∃ tup, parseTcpTuple frame = some tup ∧ tup.dstIp = s.2.nat.wanIp) ↔
      ∀ tup e, parseTcpTuple frame = some tup →
        s.2.nat.rev.lookup (Proto.tcp, tup.dstPort) = some e →
        (⟨e.ip, e.port, tup.srcIp, tup.srcPort⟩ : FlowKey) ∈ s.2.conntrack.flows →
        tup.dstIp = s.2.nat.wanIp := by
  have hhist := history_run (NatTable.inv_new hnat).1 hrun
  have hinv : s.2.conntrack.Inv := by
    rw [hhist.conntrack_eq]
    exact ConnTrack.inv_run _
  rw [wanIngressNat_isSome_iff hinv]
  constructor
  · intro h tup e htup hrev hflow
    obtain ⟨tup', htup', hwan⟩ := h ⟨tup, e, htup, hrev, hflow⟩
    obtain rfl := Option.some.inj (htup.symm.trans htup')
    exact hwan
  · rintro h ⟨tup, e, htup, hrev, hflow⟩
    exact ⟨tup, htup, h tup e htup hrev hflow⟩

/-- One worker has sent out the SYN of a host. -/
theorem run_sampleSyn :
    ∃ tr, (system Unit).Run (init Unit onePort.nat 1) tr
      (fun _ ↦ .idle, (onePort.lanEgressNat sampleSyn 0).1) := by
  obtain ⟨tr, s, e, hrun, hstep, -⟩ := run_lanEgressNat onePort sampleSyn 0 ()
  have hrun' := hrun.snoc hstep
  rw [solo_self, solo_self] at hrun'
  exact ⟨_, hrun'⟩

/-- The answer to a SYN that was sent out comes in, and it is for the WAN address. -/
theorem comes_in_sampleSynAck :
    ∃ tr s, (system Unit).Run (init Unit onePort.nat 1) tr s ∧
      (s.2.wanIngressNat sampleSynAck 1).2.isSome = true ∧
      ∃ tup, parseTcpTuple sampleSynAck = some tup ∧ tup.dstIp = s.2.nat.wanIp := by
  obtain ⟨tr, hrun⟩ := run_sampleSyn
  have hin : ((onePort.lanEgressNat sampleSyn 0).1.wanIngressNat sampleSynAck 1).2.isSome =
      true := by decide +kernel
  refine ⟨tr, _, hrun, hin, (comes_in_for_wanIp_iff new_onePort hrun sampleSynAck 1).2 ?_ hin⟩
  intro tup e htup _ _
  obtain rfl : _ = tup := Option.some.inj
    ((by decide +kernel : parseTcpTuple sampleSynAck =
      some ⟨0x08080808, 80, 0xcb007101, 40000, TcpFlag.syn ||| TcpFlag.ack⟩).symm.trans htup)
  decide +kernel

/-- The same answer, sent to `198.51.100.7` instead. -/
def strayedSynAck : Bytes :=
  [0x02, 0, 0, 0, 0, 2, 0x02, 0, 0, 0, 0, 3, 0x08, 0x00,
    0x45, 0, 0, 40, 0, 0, 0, 0, 64, 6, 0, 0, 8, 8, 8, 8, 198, 51, 100, 7,
    0, 80, 0x9c, 0x40, 0, 0, 0, 0, 0, 0, 0, 0, 0x50, 0x12, 0, 0, 0, 0, 0, 0]

/-- It comes in all the same. -/
theorem comes_in_strayedSynAck :
    ∃ tr s, (system Unit).Run (init Unit onePort.nat 1) tr s ∧
      (s.2.wanIngressNat strayedSynAck 1).2.isSome = true ∧
      ∃ tup, parseTcpTuple strayedSynAck = some tup ∧ tup.dstIp ≠ s.2.nat.wanIp := by
  obtain ⟨tr, hrun⟩ := run_sampleSyn
  exact ⟨tr, _, hrun, by decide +kernel,
    ⟨0x08080808, 80, 0xc6336407, 40000, TcpFlag.syn ||| TcpFlag.ack⟩, by decide +kernel⟩

end Firewall

end UserspaceRouter
