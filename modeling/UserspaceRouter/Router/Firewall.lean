import UserspaceRouter.Router.Conntrack
import UserspaceRouter.Router.TranslateValid

/-!
# The firewall: connection tracking and NAT together

The two paths across the router. Outbound, `lanEgressNat` records the packet in the flow table and
then translates it; inbound, `wanIngressNat` translates first, since only the translation tells
which internal endpoint the packet is for, and then asks the flow table. Each table has its own
lock, taken and released within one step, so packets of several workers interleave between the
steps.

## Two levels

`lanEgressNat` and `wanIngressNat` are the code, run without interruption. `Pc.next` is the same
code cut at its lock operations: a worker's program counter holds what the code keeps in local
variables between two of them. `system W` lets any number of workers take such steps in any order,
together with sweeps and changes of the WAN address and gateway. `run_lanEgressNat` and
`run_wanIngressNat` connect the levels: an uninterrupted call is one of the runs of the system.

## Safety

The argument is a history invariant (`History`). The flow table is the result of the table
operations in the trace, whoever performed them; the bijection of the NAT only grows, so a
translation done before somebody else's steps is still right after them; and every observed packet
was a LAN frame of its flow. What an admitted packet then shows is read off the flow table's own
history (`ConnTrack.exists_opening_of_mem_run`).
-/

namespace UserspaceRouter

/-! ### The code -/

/-- The state the workers share: each component behind a lock, or atomic, of its own. -/
structure Firewall where
  conntrack : ConnTrack
  nat : NatTable
  /-- The WAN gateway, `0` until the lease names one. -/
  gateway : Ipv4Addr

/-- The TCP 5-tuple of a frame and its flag byte. -/
structure TcpTuple where
  srcIp : Ipv4Addr
  srcPort : UInt16
  dstIp : Ipv4Addr
  dstPort : UInt16
  flags : UInt8
deriving DecidableEq, Repr

/-- `parse_tcp_tuple`: `none` for a frame that is not IPv4 with TCP. -/
def parseTcpTuple (frame : Bytes) : Option TcpTuple := do
  let eth ← parse frame
  let ip ← eth.ipv4
  let tcp ← ip.tcp
  some ⟨ip.header.src, tcp.srcPort, ip.header.dst, tcp.dstPort, tcp.header.flags⟩

namespace TcpTuple

/-- The flow of an outbound packet: the source is the internal endpoint. -/
def egressKey (t : TcpTuple) : FlowKey := ⟨t.srcIp, t.srcPort, t.dstIp, t.dstPort⟩

/-- One of the two endpoints. -/
def endpoint (t : TcpTuple) : Side → Endpoint
  | .src => ⟨t.srcIp, t.srcPort⟩
  | .dst => ⟨t.dstIp, t.dstPort⟩

/-- The flow of an inbound packet that was translated to the internal endpoint `x`. -/
def ingressKey (t : TcpTuple) (x : Ingress) : FlowKey := ⟨x.dstIp, x.dstPort, t.srcIp, t.srcPort⟩

end TcpTuple

namespace Firewall

open TransitionSystem

/-- `WanPortCtx::gateway_ip`. -/
def gatewayIp (f : Firewall) : Option Ipv4Addr :=
  if f.gateway = 0 then none else some f.gateway

/-- The LAN → WAN path up to the neighbor table: the frame to send, with the gateway it is for. -/
def lanEgressNat (f : Firewall) (frame : Bytes) (now : Tick) :
    Firewall × Option (Ipv4Addr × Bytes) :=
  match f.gatewayIp with
  | none => (f, none)
  | some gw =>
    if f.nat.wanIp = Ipv4Addr.unspecified then (f, none)
    else
      match parseTcpTuple frame with
      | none => (f, none)
      | some tup =>
        let conntrack := (f.conntrack.observeEgress tup.egressKey tup.flags now).1
        let (frame', nat, xlate) := translateEgress frame f.nat
        ({ f with conntrack, nat }, xlate.map fun _ ↦ (gw, frame'))

/-- The WAN → LAN path up to LAN delivery: the frame, with the internal host it is for. -/
def wanIngressNat (f : Firewall) (frame : Bytes) (now : Tick) :
    Firewall × Option (Ipv4Addr × Bytes) :=
  match parseTcpTuple frame with
  | none => (f, none)
  | some tup =>
    match translateIngress frame f.nat with
    | (_, none) => (f, none)
    | (frame', some x) =>
      let (conntrack, admitted) := f.conntrack.checkIngress (tup.ingressKey x) tup.flags now
      ({ f with conntrack }, if admitted then some (x.dstIp, frame') else none)

/-! ### The code, cut at its lock operations -/

/-- Where a worker is, with the local variables it still needs. -/
inductive Pc
  | idle
  | egressEntered (frame : Bytes) (now : Tick)
  | egressGateway (frame : Bytes) (gw : Ipv4Addr) (now : Tick)
  | egressBound (frame : Bytes) (gw : Ipv4Addr) (now : Tick)
  | egressObserved (frame : Bytes) (gw : Ipv4Addr)
  | ingressEntered (frame : Bytes) (now : Tick)
  | ingressTranslated (frame frame' : Bytes) (x : Ingress) (now : Tick)

/-- What a step shows to the outside. -/
inductive Event
  | lanFrame (frame : Bytes) (now : Tick)
  | wanFrame (frame : Bytes) (now : Tick)
  | sweep (now : Tick)
  | setWanIp (ip : Ipv4Addr)
  | setGateway (ip : Ipv4Addr)
  | proceed
  | drop
  /-- `observe_egress` on the flow `key`, for the LAN frame `frame`. -/
  | observed (frame : Bytes) (key : FlowKey) (flags : UInt8) (now : Tick)
  /-- The translated LAN frame goes to the gateway. -/
  | sent (gw : Ipv4Addr) (frame' : Bytes)
  /-- `check_ingress` admits the WAN frame `frame`, and `frame'` goes to LAN delivery. -/
  | admitted (frame frame' : Bytes) (key : FlowKey) (flags : UInt8) (now : Tick)
  /-- `check_ingress` refuses the WAN frame `frame`. -/
  | refused (frame : Bytes) (key : FlowKey) (flags : UInt8) (now : Tick)

/-- The next atomic step of a worker that is handling a frame. -/
def Pc.next (pc : Pc) (f : Firewall) : Option (Event × Pc × Firewall) :=
  match pc with
  | idle => none
  | egressEntered frame now =>
    match f.gatewayIp with
    | none => some (.drop, .idle, f)
    | some gw => some (.proceed, .egressGateway frame gw now, f)
  | egressGateway frame gw now =>
    if f.nat.wanIp = Ipv4Addr.unspecified then some (.drop, .idle, f)
    else some (.proceed, .egressBound frame gw now, f)
  | egressBound frame gw now =>
    match parseTcpTuple frame with
    | none => some (.drop, .idle, f)
    | some tup =>
      some (.observed frame tup.egressKey tup.flags now, .egressObserved frame gw,
        { f with conntrack := (f.conntrack.observeEgress tup.egressKey tup.flags now).1 })
  | egressObserved frame gw =>
    match translateEgress frame f.nat with
    | (_, nat, none) => some (.drop, .idle, { f with nat })
    | (frame', nat, some _) => some (.sent gw frame', .idle, { f with nat })
  | ingressEntered frame now =>
    match parseTcpTuple frame with
    | none => some (.drop, .idle, f)
    | some _ =>
      match translateIngress frame f.nat with
      | (_, none) => some (.drop, .idle, f)
      | (frame', some x) => some (.proceed, .ingressTranslated frame frame' x now, f)
  | ingressTranslated frame frame' x now =>
    -- the tuple was read from the frame before it was translated
    match parseTcpTuple frame with
    | none => none
    | some tup =>
      match f.conntrack.checkIngress (tup.ingressKey x) tup.flags now with
      | (conntrack, true) =>
        some (.admitted frame frame' (tup.ingressKey x) tup.flags now, .idle, { f with conntrack })
      | (conntrack, false) =>
        some (.refused frame (tup.ingressKey x) tup.flags now, .idle, { f with conntrack })

/-- What a worker can do: begin with a frame or with an administrative call, or take the next step
of what it is doing. -/
inductive Local : Pc → Firewall → Event → Pc → Firewall → Prop
  | lanFrame {f frame now} : Local .idle f (.lanFrame frame now) (.egressEntered frame now) f
  | wanFrame {f frame now} : Local .idle f (.wanFrame frame now) (.ingressEntered frame now) f
  | sweep {f now} : Local .idle f (.sweep now) .idle { f with conntrack := f.conntrack.sweep now }
  | setWanIp {f ip} : Local .idle f (.setWanIp ip) .idle { f with nat := f.nat.setWanIp ip }
  | setGateway {f ip} : Local .idle f (.setGateway ip) .idle { f with gateway := ip }
  | next {pc f e pc' f'} : pc.next f = some (e, pc', f') → Local pc f e pc' f'

/-- Any number of workers over one firewall. -/
def system (W : Type*) [DecidableEq W] : TransitionSystem ((W → Pc) × Firewall) (W × Event) :=
  .interleave W Local

/-- The state after start-up: every worker idle, the flow table empty, the NAT fresh. -/
def init (W : Type*) (nat : NatTable) (gateway : Ipv4Addr) : (W → Pc) × Firewall :=
  (fun _ ↦ .idle, ⟨ConnTrack.new, nat, gateway⟩)

/-! ### What a step does to the tables -/

/-- The flow table operation a step performs, if any. -/
def Event.op : Event → Option ConnTrack.Op
  | .sweep now => some (.sweep now)
  | .observed _ key flags now => some (.observeEgress key flags now)
  | .admitted _ _ key flags now => some (.checkIngress key flags now)
  | .refused _ key flags now => some (.checkIngress key flags now)
  | _ => none

/-- The frame of an outbound packet is one of its flow. -/
def Event.FrameOfFlow : Event → Prop
  | .observed frame key flags _ =>
    parseTcpTuple frame = some ⟨key.intIp, key.intPort, key.extIp, key.extPort, flags⟩
  | _ => True

/-- The WAN frame `frame` has been translated to `frame'`, for the endpoint `x` that is bound to the
frame's destination port. -/
def TranslatedTo (t : NatTable) (frame frame' : Bytes) (x : Ingress) : Prop :=
  ∃ tup c, parseTcpTuple frame = some tup ∧
    t.fwd.lookup (Proto.tcp, x.dstIp, x.dstPort) = some tup.dstPort ∧
    classify .dst frame' = some c ∧ c.l4 = .tcp ∧ c.ip = x.dstIp ∧ c.port = x.dstPort

theorem TranslatedTo.mono {t t' : NatTable} {frame frame' : Bytes} {x : Ingress}
    (h : TranslatedTo t frame frame' x) (hext : t.Extends t') : TranslatedTo t' frame frame' x := by
  obtain ⟨tup, c, htup, hfwd, hc⟩ := h
  exact ⟨tup, c, htup, hext.fwd_le _ _ hfwd, hc⟩

/-- A TCP frame classifies, on either side, with the endpoint of its tuple. -/
theorem exists_classify_of_parseTcpTuple {frame : Bytes} {tup : TcpTuple}
    (htup : parseTcpTuple frame = some tup) (side : Side) :
    ∃ c, classify side frame = some c ∧ c.l4 = .tcp ∧
      (⟨c.ip, c.port⟩ : Endpoint) = tup.endpoint side := by
  simp only [parseTcpTuple, Option.bind_eq_bind, Option.bind_eq_some_iff] at htup
  obtain ⟨eth, heth, ip, hip, t, ht, htup⟩ := htup
  obtain rfl := Option.some.inj htup
  have hproto : L4.fromProto ip.protocol = some .tcp := by
    unfold Ipv4View.tcp Ipv4View.isTcp at ht
    split_ifs at ht with his
    rw [eq_of_beq his]
    rfl
  refine ⟨⟨ip.headerOffset, t.headerOffset, .tcp, side.addr ip.header, side.tcpPort t⟩, ?_, rfl, ?_⟩
  · simp only [classify, heth, hip, hproto, Side.l4Fields, ht, Option.bind_eq_bind,
      Option.bind_some, Option.map_some]
  · cases side <;> rfl

/-- A translated WAN frame of TCP is translated to the endpoint bound to its destination port. -/
theorem translatedTo_of_translateIngress {t : NatTable} (ht : t.Inv) {frame frame' : Bytes}
    {tup : TcpTuple} {x : Ingress} (htup : parseTcpTuple frame = some tup)
    (h : translateIngress frame t = (frame', some x)) : TranslatedTo t frame frame' x := by
  obtain ⟨c, hc, hi, heq⟩ := translateIngress_eq_some (by rw [h] : _ = some x)
  obtain ⟨c', hc', hl4, hend⟩ := exists_classify_of_parseTcpTuple htup .dst
  obtain rfl : c' = c := Option.some.inj (hc'.symm.trans hc)
  have hport : c'.port = tup.dstPort := congrArg Endpoint.port hend
  obtain ⟨eth, ip, hv⟩ := classify_inv hc
  have hfwd := ht.ingress_eq_some_iff.1 hi
  rw [hl4, hport] at hfwd
  have hframe : frame' = rewrite .dst c' x.dstIp x.dstPort frame :=
    (Prod.mk.inj (h.symm.trans heq)).1
  rw [hframe]
  exact ⟨tup, _, htup, hfwd, hv.classify_rewritten (hv.rewrites _ _), hl4, rfl, rfl⟩

/-- What the steps of a worker do, step by step: the flow table changes by the operation the event
names, the NAT keeps its invariant and its bindings, a worker holds a translated frame only with
the endpoint it is bound to, and an observed frame is one of its flow. -/
structure Effect (f : Firewall) (e : Event) (pc' : Pc) (f' : Firewall) : Prop where
  conntrack_eq : f'.conntrack = e.op.elim f.conntrack f.conntrack.step
  nat_inv : f'.nat.Inv
  nat_extends : f.nat.Extends f'.nat
  translated : ∀ frame frame' x now, pc' = .ingressTranslated frame frame' x now →
    TranslatedTo f'.nat frame frame' x
  frameOfFlow : e.FrameOfFlow

/-- The common case: the event names no operation and the tables are left alone. -/
theorem effect_refl {f : Firewall} (hf : f.nat.Inv) {e : Event} {pc' : Pc} (hop : e.op = none)
    (hflow : e.FrameOfFlow)
    (hpc : ∀ frame frame' x now, pc' ≠ .ingressTranslated frame frame' x now) :
    Effect f e pc' f where
  conntrack_eq := by rw [hop]; rfl
  nat_inv := hf
  nat_extends := NatTable.Extends.refl _
  translated frame frame' x now h := absurd h (hpc frame frame' x now)
  frameOfFlow := hflow

/-- **What a step of a worker does.** -/
theorem effect_next {pc pc' : Pc} {f f' : Firewall} {e : Event} (hf : f.nat.Inv)
    (h : pc.next f = some (e, pc', f')) : Effect f e pc' f' := by
  cases pc with
  | idle => exact absurd h (by simp [Pc.next])
  | egressEntered frame now =>
    rw [Pc.next] at h
    split at h <;> obtain ⟨rfl, rfl, rfl⟩ := by simpa using h
    · exact effect_refl hf rfl trivial (by simp)
    · exact effect_refl hf rfl trivial (by simp)
  | egressGateway frame gw now =>
    rw [Pc.next] at h
    split at h <;> obtain ⟨rfl, rfl, rfl⟩ := by simpa using h
    · exact effect_refl hf rfl trivial (by simp)
    · exact effect_refl hf rfl trivial (by simp)
  | egressBound frame gw now =>
    rw [Pc.next] at h
    split at h
    · obtain ⟨rfl, rfl, rfl⟩ := by simpa using h
      exact effect_refl hf rfl trivial (by simp)
    · next tup htup =>
      obtain ⟨rfl, rfl, rfl⟩ := by simpa using h
      exact ⟨rfl, hf, NatTable.Extends.refl _, by simp, htup⟩
  | egressObserved frame gw =>
    have htable : (translateEgress frame f.nat).2.1.Inv ∧
        f.nat.Extends (translateEgress frame f.nat).2.1 :=
      NatTable.inv_extends_step hf (.translateEgress frame)
    rw [Pc.next] at h
    split at h
    · next frame' nat hx =>
      obtain ⟨rfl, rfl, rfl⟩ := by simpa using h
      rw [hx] at htable
      exact ⟨rfl, htable.1, htable.2, by simp, trivial⟩
    · next frame' nat x hx =>
      obtain ⟨rfl, rfl, rfl⟩ := by simpa using h
      rw [hx] at htable
      exact ⟨rfl, htable.1, htable.2, by simp, trivial⟩
  | ingressEntered frame now =>
    rw [Pc.next] at h
    split at h
    · obtain ⟨rfl, rfl, rfl⟩ := by simpa using h
      exact effect_refl hf rfl trivial (by simp)
    · next tup htup =>
      split at h
      · obtain ⟨rfl, rfl, rfl⟩ := by simpa using h
        exact effect_refl hf rfl trivial (by simp)
      · next frame' x hx =>
        obtain ⟨rfl, rfl, rfl⟩ := by simpa using h
        refine ⟨rfl, hf, NatTable.Extends.refl _, ?_, trivial⟩
        intro fr fr' y n heq
        obtain ⟨rfl, rfl, rfl, rfl⟩ := by simpa using heq
        exact translatedTo_of_translateIngress hf htup hx
  | ingressTranslated frame frame' x now =>
    rw [Pc.next] at h
    split at h
    · exact absurd h (by simp)
    · next tup htup =>
      split at h
      · next conntrack hcheck =>
        obtain ⟨rfl, rfl, rfl⟩ := by simpa using h
        exact ⟨by simp [Event.op, ConnTrack.step, hcheck], hf, NatTable.Extends.refl _, by simp,
          trivial⟩
      · next conntrack hcheck =>
        obtain ⟨rfl, rfl, rfl⟩ := by simpa using h
        exact ⟨by simp [Event.op, ConnTrack.step, hcheck], hf, NatTable.Extends.refl _, by simp,
          trivial⟩

/-- **What an action of a worker does.** -/
theorem effect_local {pc pc' : Pc} {f f' : Firewall} {e : Event} (hf : f.nat.Inv)
    (h : Local pc f e pc' f') : Effect f e pc' f' := by
  cases h with
  | lanFrame => exact effect_refl hf rfl trivial (by simp)
  | wanFrame => exact effect_refl hf rfl trivial (by simp)
  | sweep => exact ⟨rfl, hf, NatTable.Extends.refl _, by simp, trivial⟩
  | setWanIp =>
    exact ⟨rfl, NatTable.inv_setWanIp hf _, NatTable.extends_setWanIp _ _, by simp, trivial⟩
  | setGateway => exact ⟨rfl, hf, NatTable.Extends.refl _, by simp, trivial⟩
  | next h => exact effect_next hf h

/-- A worker admits only the frame it has translated, after asking for its flow. -/
theorem admitted_inv {pc pc' : Pc} {f f' : Firewall} {frame frame' : Bytes} {key : FlowKey}
    {flags : UInt8} {now : Tick} (h : Local pc f (.admitted frame frame' key flags now) pc' f') :
    ∃ tup x, pc = .ingressTranslated frame frame' x now ∧ parseTcpTuple frame = some tup ∧
      key = tup.ingressKey x ∧ flags = tup.flags ∧
      (f.conntrack.checkIngress key flags now).2 = true := by
  cases h with
  | next h =>
    cases pc with
    | idle => exact absurd h (by simp [Pc.next])
    | egressEntered fr n => rw [Pc.next] at h; split at h <;> simp at h
    | egressGateway fr gw n => rw [Pc.next] at h; split at h <;> simp at h
    | egressBound fr gw n => rw [Pc.next] at h; split at h <;> simp at h
    | egressObserved fr gw => rw [Pc.next] at h; split at h <;> simp at h
    | ingressEntered fr n =>
      rw [Pc.next] at h
      split at h
      · simp at h
      · split at h <;> simp at h
    | ingressTranslated fr fr' x n =>
      rw [Pc.next] at h
      split at h
      · simp at h
      · next tup htup =>
        split at h
        · next conntrack hcheck =>
          simp only [Option.some.injEq, Prod.mk.injEq, Event.admitted.injEq] at h
          obtain ⟨⟨rfl, rfl, rfl, rfl, rfl⟩, -, -⟩ := h
          exact ⟨tup, x, rfl, htup, rfl, rfl, by rw [hcheck]⟩
        · simp at h

/-! ### An uninterrupted call is a run -/

section Sequential

variable {W : Type*} [DecidableEq W]

theorem step_alone {w : W} {pc pc' : Pc} {f f' : Firewall} {e : Event} (h : Local pc f e pc' f') :
    (system W).step (solo .idle w pc f) (w, e) (solo .idle w pc' f') :=
  step_solo h

/-- What an event hands to the WAN side. -/
def Event.toWan : Event → Option (Ipv4Addr × Bytes)
  | .sent gw frame' => some (gw, frame')
  | _ => none

/-- What an event hands to LAN delivery. -/
def Event.toLan : Event → Option (Ipv4Addr × Bytes)
  | .admitted _ frame' key _ _ => some (key.intIp, frame')
  | _ => none

/-- **`lan_egress_nat` is a run.** Its last event hands over what the call hands over. -/
theorem run_lanEgressNat (f : Firewall) (frame : Bytes) (now : Tick) (w : W) :
    ∃ tr s e, (system W).Run (solo .idle w .idle f) tr s ∧
      (system W).step s (w, e) (solo .idle w .idle (f.lanEgressNat frame now).1) ∧
      (f.lanEgressNat frame now).2 = e.toWan := by
  have hstart : (system W).Run (solo .idle w .idle f) [(w, .lanFrame frame now)]
      (solo .idle w (.egressEntered frame now) f) := .single (step_alone .lanFrame)
  unfold lanEgressNat
  rcases hgw : f.gatewayIp with - | gw
  · exact ⟨_, _, .drop, hstart, step_alone (.next (by simp [Pc.next, hgw])), rfl⟩
  have hgateway := hstart.snoc (t := solo .idle w (.egressGateway frame gw now) f)
    (a := (w, .proceed)) (step_alone (.next (by simp [Pc.next, hgw])))
  by_cases hwan : f.nat.wanIp = Ipv4Addr.unspecified
  · refine ⟨_, _, .drop, hgateway, step_alone (.next ?_), ?_⟩
    · simp [Pc.next, hwan]
    · simp [hwan, Event.toWan]
  have hbound := hgateway.snoc (t := solo .idle w (.egressBound frame gw now) f)
    (a := (w, .proceed)) (step_alone (.next (by simp [Pc.next, hwan])))
  simp only [if_neg hwan]
  rcases htup : parseTcpTuple frame with - | tup
  · exact ⟨_, _, .drop, hbound, step_alone (.next (by simp [Pc.next, htup])), rfl⟩
  have hobserved := hbound.snoc (a := (w, .observed frame tup.egressKey tup.flags now))
    (t := solo .idle w (.egressObserved frame gw)
      { f with conntrack := (f.conntrack.observeEgress tup.egressKey tup.flags now).1 })
    (step_alone (.next (by simp only [Pc.next, htup])))
  rcases hx : translateEgress frame f.nat with ⟨frame', nat, - | x⟩
  · exact ⟨_, _, .drop, hobserved, step_alone (.next (by simp only [Pc.next, hx])), rfl⟩
  · exact ⟨_, _, .sent gw frame', hobserved, step_alone (.next (by simp only [Pc.next, hx])), rfl⟩

/-- **`wan_ingress_nat` is a run.** Its last event hands over what the call hands over. -/
theorem run_wanIngressNat (f : Firewall) (frame : Bytes) (now : Tick) (w : W) :
    ∃ tr s e, (system W).Run (solo .idle w .idle f) tr s ∧
      (system W).step s (w, e) (solo .idle w .idle (f.wanIngressNat frame now).1) ∧
      (f.wanIngressNat frame now).2 = e.toLan := by
  have hstart : (system W).Run (solo .idle w .idle f) [(w, .wanFrame frame now)]
      (solo .idle w (.ingressEntered frame now) f) := .single (step_alone .wanFrame)
  unfold wanIngressNat
  rcases htup : parseTcpTuple frame with - | tup
  · exact ⟨_, _, .drop, hstart, step_alone (.next (by simp [Pc.next, htup])), rfl⟩
  rcases hx : translateIngress frame f.nat with ⟨frame', - | x⟩
  · exact ⟨_, _, .drop, hstart, step_alone (.next (by simp [Pc.next, htup, hx])), rfl⟩
  have htranslated := hstart.snoc (t := solo .idle w (.ingressTranslated frame frame' x now) f)
    (a := (w, .proceed)) (step_alone (.next (by simp only [Pc.next, htup, hx])))
  rcases hcheck : f.conntrack.checkIngress (tup.ingressKey x) tup.flags now with ⟨ct, - | -⟩
  · refine ⟨_, _, .refused frame (tup.ingressKey x) tup.flags now, htranslated,
      step_alone (.next (by simp only [Pc.next, htup, hcheck])), ?_⟩
    simp only [hcheck]
    rfl
  · refine ⟨_, _, .admitted frame frame' (tup.ingressKey x) tup.flags now, htranslated,
      step_alone (.next (by simp only [Pc.next, htup, hcheck])), ?_⟩
    simp only [hcheck]
    rfl

end Sequential

/-! ### The history invariant -/

section Safety

variable {W : Type*}

/-- The flow table operations of a trace. -/
def ops (tr : List (W × Event)) : List ConnTrack.Op := tr.filterMap fun a ↦ a.2.op

/-- What a run's trace says about the state it reaches. -/
structure History (tr : List (W × Event)) (s : (W → Pc) × Firewall) : Prop where
  conntrack_eq : s.2.conntrack = ConnTrack.new.run (ops tr)
  nat_inv : s.2.nat.Inv
  translated : ∀ w frame frame' x now, s.1 w = .ingressTranslated frame frame' x now →
    TranslatedTo s.2.nat frame frame' x
  frameOfFlow : ∀ a ∈ tr, a.2.FrameOfFlow

theorem history_init {nat : NatTable} (h : nat.Inv) (gateway : Ipv4Addr) :
    History [] (init W nat gateway) where
  conntrack_eq := rfl
  nat_inv := h
  translated w frame frame' x now hpc := absurd hpc (by simp [init])
  frameOfFlow := by simp

/-- **One step keeps the history invariant**, whichever worker takes it. -/
theorem history_step [DecidableEq W] {tr : List (W × Event)} {s t : (W → Pc) × Firewall}
    {a : W × Event} (h : History tr s) (hstep : (system W).step s a t) : History (tr ++ [a]) t := by
  obtain ⟨ls, f⟩ := s
  obtain ⟨ls', f'⟩ := t
  obtain ⟨w, e⟩ := a
  obtain ⟨pc', hloc, rfl⟩ := TransitionSystem.step_interleave_iff.1 hstep
  have heff := effect_local h.nat_inv hloc
  refine ⟨?_, heff.nat_inv, ?_, ?_⟩
  · have hops : ops (tr ++ [(w, e)]) = ops tr ++ e.op.toList := by
      rcases he : e.op with - | op <;> simp [ops, he]
    show f'.conntrack = _
    rw [hops, ConnTrack.run, List.foldl_append, heff.conntrack_eq]
    have hold : f.conntrack = (ops tr).foldl ConnTrack.step ConnTrack.new := h.conntrack_eq
    rw [← hold]
    rcases e.op with - | op <;> rfl
  · intro w' frame frame' x now hpc
    by_cases hw : w' = w
    · subst hw
      have hpc' : pc' = .ingressTranslated frame frame' x now := by
        simpa [Function.update_self] using hpc
      exact heff.translated frame frame' x now hpc'
    · have hpc' : ls w' = .ingressTranslated frame frame' x now := by
        simpa [Function.update_of_ne hw] using hpc
      exact (h.translated w' frame frame' x now hpc').mono heff.nat_extends
  · intro b hb
    rcases List.mem_append.1 hb with hb | hb
    · exact h.frameOfFlow b hb
    · rw [List.mem_singleton.1 hb]
      exact heff.frameOfFlow

/-- **Every run keeps the history invariant.** -/
theorem history_run [DecidableEq W] {nat : NatTable} (hnat : nat.Inv) {gateway : Ipv4Addr}
    {tr : List (W × Event)} {s : (W → Pc) × Firewall}
    (h : (system W).Run (init W nat gateway) tr s) : History tr s :=
  h.history (history_init hnat gateway) fun _ _ _ _ ↦ history_step

/-- A packet of the flow `k` with RST set, observed or admitted. -/
def Event.RstOn (k : FlowKey) : Event → Prop
  | .observed _ key flags _ => key = k ∧ TcpFlag.isSet flags TcpFlag.rst = true
  | .admitted _ _ key flags _ => key = k ∧ TcpFlag.isSet flags TcpFlag.rst = true
  | _ => False

/-- The opening of a stored flow, found in the trace. -/
theorem History.exists_opening {tr : List (W × Event)} {s : (W → Pc) × Firewall}
    (h : History tr s) {key : FlowKey} (hkey : key ∈ s.2.conntrack.flows) :
    ∃ pre w frame flags now mid, tr = pre ++ (w, .observed frame key flags now) :: mid ∧
      parseTcpTuple frame = some ⟨key.intIp, key.intPort, key.extIp, key.extPort, flags⟩ ∧
      TcpFlag.isOpening flags = true ∧ ∀ a ∈ mid, ¬a.2.RstOn key := by
  rw [h.conntrack_eq] at hkey
  obtain ⟨pre, flags, now, post, hops, hopening, hpost⟩ :=
    ConnTrack.exists_opening_of_mem_run hkey
  obtain ⟨trPre, rest, rfl, rfl, hrest⟩ := List.filterMap_eq_append_iff.1 hops
  obtain ⟨quiet, ⟨w, e⟩, mid, rfl, -, he, rfl⟩ := List.filterMap_eq_cons_iff.1 hrest
  -- only `observed` performs an `observe_egress`
  obtain ⟨frame, rfl⟩ : ∃ frame, e = .observed frame key flags now := by
    cases e <;> simp [Event.op] at he
    obtain ⟨rfl, rfl, rfl⟩ := he
    exact ⟨_, rfl⟩
  refine ⟨trPre ++ quiet, w, frame, flags, now, mid, by simp, ?_, hopening, ?_⟩
  · exact h.frameOfFlow (w, .observed frame key flags now) (by simp)
  · rintro ⟨w', e'⟩ hmem hrst
    cases e' with
    | observed fr k fl n =>
      refine hpost (.observeEgress k fl n) (List.mem_filterMap.2 ⟨_, hmem, rfl⟩) hrst
    | admitted fr fr' k fl n =>
      exact hpost (.checkIngress k fl n) (List.mem_filterMap.2 ⟨_, hmem, rfl⟩) hrst
    | _ => exact hrst

/-- **Firewall safety.** In every run of any number of workers from an empty flow table and a fresh
NAT, whenever a WAN frame is admitted for the flow `key`: the frame is a TCP packet from the
external endpoint of `key` to the external port bound to its internal endpoint, what is delivered is
addressed to that internal endpoint, and earlier in the run a LAN frame of the flow with SYN set and
ACK and RST clear was observed, with no RST of the flow observed or admitted since. -/
theorem admitted_was_opened [DecidableEq W] {wanIp gateway : Ipv4Addr} {lo hi : UInt16}
    {nat : NatTable} (hnat : NatTable.new wanIp lo hi = some nat) {tr : List (W × Event)}
    {s t : (W → Pc) × Firewall} (hrun : (system W).Run (init W nat gateway) tr s) {w : W}
    {frame frame' : Bytes} {key : FlowKey} {flags : UInt8} {now : Tick}
    (hstep : (system W).step s (w, .admitted frame frame' key flags now) t) :
    (∃ dstIp dstPort,
      parseTcpTuple frame = some ⟨key.extIp, key.extPort, dstIp, dstPort, flags⟩ ∧
      s.2.nat.fwd.lookup (Proto.tcp, key.intIp, key.intPort) = some dstPort) ∧
    (∃ c, classify .dst frame' = some c ∧ c.l4 = .tcp ∧ c.ip = key.intIp ∧ c.port = key.intPort) ∧
    ∃ pre w₀ frame₀ flags₀ now₀ mid, tr = pre ++ (w₀, .observed frame₀ key flags₀ now₀) :: mid ∧
      parseTcpTuple frame₀ = some ⟨key.intIp, key.intPort, key.extIp, key.extPort, flags₀⟩ ∧
      TcpFlag.isSet flags₀ TcpFlag.syn = true ∧ TcpFlag.isSet flags₀ TcpFlag.ack = false ∧
      TcpFlag.isSet flags₀ TcpFlag.rst = false ∧ ∀ a ∈ mid, ¬a.2.RstOn key := by
  have hhist := history_run (NatTable.inv_new hnat).1 hrun
  obtain ⟨ls, f⟩ := s
  obtain ⟨ls', f'⟩ := t
  obtain ⟨pc', hloc, -⟩ := TransitionSystem.step_interleave_iff.1 hstep
  obtain ⟨tup, x, hpc, htup, rfl, rfl, hadmit⟩ := admitted_inv hloc
  obtain ⟨tup', c, htup', hfwd, hc⟩ := hhist.translated w frame frame' x now hpc
  obtain rfl : tup' = tup := Option.some.inj (htup'.symm.trans htup)
  have hinv : f.conntrack.Inv := by
    have heq : f.conntrack = ConnTrack.new.run (ops tr) := hhist.conntrack_eq
    rw [heq]
    exact ConnTrack.inv_run _
  have hkey := (ConnTrack.checkIngress_eq_true_iff hinv _ _ _).1 hadmit
  obtain ⟨pre, w₀, frame₀, flags₀, now₀, mid, htr, hframe₀, hopening, hmid⟩ :=
    hhist.exists_opening hkey
  refine ⟨⟨tup'.dstIp, tup'.dstPort, htup, hfwd⟩, ⟨c, hc⟩,
    pre, w₀, frame₀, flags₀, now₀, mid, htr, hframe₀, ?_⟩
  obtain ⟨⟨hsyn, hack⟩, hrst⟩ : (TcpFlag.isSet flags₀ TcpFlag.syn = true ∧
      TcpFlag.isSet flags₀ TcpFlag.ack = false) ∧ TcpFlag.isSet flags₀ TcpFlag.rst = false := by
    simpa [TcpFlag.isOpening] using hopening
  exact ⟨hsyn, hack, hrst, hmid⟩

/-- The SYN `192.168.1.2:1111 → 8.8.8.8:80` of a LAN host. -/
def sampleSyn : Bytes :=
  [0x02, 0, 0, 0, 0, 2, 0x02, 0, 0, 0, 0, 1, 0x08, 0x00,
    0x45, 0, 0, 40, 0, 0, 0, 0, 64, 6, 0, 0, 192, 168, 1, 2, 8, 8, 8, 8,
    0x04, 0x57, 0, 80, 0, 0, 0, 0, 0, 0, 0, 0, 0x50, 0x02, 0, 0, 0, 0, 0, 0]

/-- The peer's answer `8.8.8.8:80 → 203.0.113.1:40000`, with SYN and ACK. -/
def sampleSynAck : Bytes :=
  [0x02, 0, 0, 0, 0, 2, 0x02, 0, 0, 0, 0, 3, 0x08, 0x00,
    0x45, 0, 0, 40, 0, 0, 0, 0, 64, 6, 0, 0, 8, 8, 8, 8, 203, 0, 113, 1,
    0, 80, 0x9c, 0x40, 0, 0, 0, 0, 0, 0, 0, 0, 0x50, 0x12, 0, 0, 0, 0, 0, 0]

/-- One worker forwards the SYN and then its answer: the answer is admitted, for a host that has
opened the flow. -/
theorem admitted_sampleSynAck :
    ∃ nat, NatTable.new 0xcb007101 40000 40010 = some nat ∧
      ∃ tr s frame frame' key flags now t, (system Unit).Run (init Unit nat 1) tr s ∧
        (system Unit).step s ((), .admitted frame frame' key flags now) t ∧
        ∃ w frame₀ flags₀ now₀, (w, .observed frame₀ key flags₀ now₀) ∈ tr ∧
          TcpFlag.isSet flags₀ TcpFlag.syn = true := by
  have hnat : NatTable.new 0xcb007101 40000 40010 =
      some ⟨0xcb007101, 40000, 40010, 40000, ∅, ∅⟩ := rfl
  refine ⟨_, hnat, ?_⟩
  set f₀ : Firewall := ⟨ConnTrack.new, ⟨0xcb007101, 40000, 40010, 40000, ∅, ∅⟩, 1⟩ with hf₀
  obtain ⟨tr₁, s₁, e₁, hrun₁, hstep₁, -⟩ := run_lanEgressNat f₀ sampleSyn 0 ()
  obtain ⟨tr₂, s₂, e₂, hrun₂, hstep₂, hlan⟩ :=
    run_wanIngressNat (f₀.lanEgressNat sampleSyn 0).1 sampleSynAck 1 ()
  have hrun := (hrun₁.snoc hstep₁).trans hrun₂
  rw [solo_self] at hrun
  have hdelivered : ((f₀.lanEgressNat sampleSyn 0).1.wanIngressNat sampleSynAck 1).2.isSome := by
    decide +kernel
  rw [hlan] at hdelivered
  -- LAN delivery is the admitted event
  cases e₂ with
  | admitted frame frame' key flags now =>
    obtain ⟨-, -, pre, w₀, frame₀, flags₀, now₀, mid, htr, -, hsyn, -⟩ :=
      admitted_was_opened hnat hrun hstep₂
    exact ⟨_, _, frame, frame', key, flags, now, _, hrun, hstep₂, w₀, frame₀, flags₀, now₀,
      by simp [htr], hsyn⟩
  | _ => exact absurd hdelivered (by simp [Event.toLan])

end Safety

end Firewall

end UserspaceRouter
