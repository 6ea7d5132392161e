import UserspaceRouter.Foundations.AssocMap
import UserspaceRouter.Foundations.TransitionSystem
import UserspaceRouter.Router.Neighbor

/-!
# Stateful TCP connection tracking

The firewall's table of flows. Every flow pairs two copies of the eleven-state TCP machine, one per
endpoint: an outbound packet advances the internal endpoint by the *send* transitions and the
external one by the *receive* transitions, an inbound packet the other way round.

## One flow at a time

The table's operations are keyed, and a sweep judges every entry by itself, so the whole table is
the product of independent per-flow machines. `flowStep` is that machine, on the entry a key holds
(if any), and `lookup_step` says that a table operation is `flowStep` at the keys it concerns and
nothing elsewhere. Every fact about runs of the table below is a fact about `flowStep`, proved by
cases on the four flag bits the transitions read, and lifted through `lookup_step` once.

## What is stored

`Conn.Live` is the invariant of stored flows: not both endpoints closed (such entries are removed
in the call that produces them) and no endpoint listening (nothing ever enters `Listen`). It makes
the "already fully closed" branch of `checkIngress` dead, so admission is exactly presence.
-/

namespace UserspaceRouter

/-- 5-tuple keying a TCP flow; the protocol is implicit. -/
structure FlowKey where
  intIp : Ipv4Addr
  intPort : UInt16
  extIp : Ipv4Addr
  extPort : UInt16
deriving DecidableEq, Repr

/-- The eleven TCP connection states of RFC 9293. -/
inductive TcpState
  | closed
  | listen
  | synSent
  | synReceived
  | established
  | finWait1
  | finWait2
  | closeWait
  | closing
  | lastAck
  | timeWait
deriving DecidableEq, Repr

/-- Idle timeout, in milliseconds, of a flow with an endpoint in this state. -/
def TcpState.idleTimeoutMs : TcpState → ℕ
  | closed => 10000
  | listen => 60000
  | synSent | synReceived => 60000
  | established => 24 * 60 * 60000
  | finWait1 | finWait2 => 60000
  | closeWait => 60000
  | closing => 60000
  | lastAck => 30000
  | timeWait => 120000

/-- Per-flow state: both peers' states plus a `lastSeen` for aging. -/
structure Conn where
  internal : TcpState
  external : TcpState
  lastSeen : Tick
deriving DecidableEq, Repr

namespace Conn

/-- A flow is fully closed once both endpoints reach `closed`. -/
def fullyClosed (c : Conn) : Bool :=
  c.internal == TcpState.closed && c.external == TcpState.closed

/-- The longer of the two endpoints' timeouts. -/
def idleTimeoutMs (c : Conn) : ℕ :=
  max c.internal.idleTimeoutMs c.external.idleTimeoutMs

end Conn

/-- Advance the state of the peer that *sent* a packet with these flags. -/
def transitionOnSend (state : TcpState) (flags : UInt8) : TcpState :=
  let syn := TcpFlag.isSet flags TcpFlag.syn
  let ack := TcpFlag.isSet flags TcpFlag.ack
  let fin := TcpFlag.isSet flags TcpFlag.fin
  let rst := TcpFlag.isSet flags TcpFlag.rst
  -- RST is unambiguous: the sender forcibly closes
  if rst then .closed
  else
    match state with
    | .closed => if syn && !ack then .synSent else state
    | .listen => if syn && ack then .synReceived else state
    | .synReceived => if syn && ack then .synReceived else state
    | .established => if fin then .finWait1 else state
    | .closeWait => if fin then .lastAck else state
    | _ => state

/-- Advance the state of the peer that *received* a packet with these flags. -/
def transitionOnRecv (state : TcpState) (flags : UInt8) : TcpState :=
  let syn := TcpFlag.isSet flags TcpFlag.syn
  let ack := TcpFlag.isSet flags TcpFlag.ack
  let fin := TcpFlag.isSet flags TcpFlag.fin
  let rst := TcpFlag.isSet flags TcpFlag.rst
  if rst then .closed
  else
    match state with
    | .closed => if syn && !ack then .synReceived else state
    | .listen => if syn && !ack then .synReceived else state
    | .synSent =>
      if syn && ack then .established
      -- simultaneous open
      else if syn then .synReceived
      else state
    | .synReceived => if ack && !fin then .established else state
    | .established => if fin then .closeWait else state
    | .finWait1 =>
      if fin && ack then .timeWait
      else if fin then .closing
      else if ack then .finWait2
      else state
    | .finWait2 => if fin then .timeWait else state
    | .closing => if ack then .timeWait else state
    | .lastAck => if ack then .closed else state
    | _ => state

/-- The table of flows. -/
structure ConnTrack where
  flows : AList fun _ : FlowKey ↦ Conn

namespace ConnTrack

/-- `ConnTrack::new`. -/
def new : ConnTrack := ⟨∅⟩

/-- Store `conn` under `key`, unless it is fully closed: then the entry is reaped at once. -/
def store (c : ConnTrack) (key : FlowKey) (conn : Conn) : ConnTrack :=
  let flows := c.flows.insert key conn
  ⟨if conn.fullyClosed then flows.erase key else flows⟩

/-- Observe an outbound (LAN → WAN) TCP packet: the internal endpoint is the sender, the external
one the receiver. A flow seen for the first time starts from `(closed, closed)`. -/
def observeEgress (c : ConnTrack) (key : FlowKey) (flags : UInt8) (now : Tick) :
    ConnTrack × (TcpState × TcpState) :=
  let found := (c.flows.lookup key).getD ⟨.closed, .closed, now⟩
  let conn : Conn :=
    { internal := transitionOnSend found.internal flags
      external := transitionOnRecv found.external flags
      lastSeen := now }
  (c.store key conn, (conn.internal, conn.external))

/-- Check an inbound (WAN → LAN) TCP packet against the table: `true` admits it. -/
def checkIngress (c : ConnTrack) (key : FlowKey) (flags : UInt8) (now : Tick) :
    ConnTrack × Bool :=
  match c.flows.lookup key with
  | none => (c, false)
  | some found =>
    if found.fullyClosed then (c, false)
    else
      let conn : Conn :=
        { external := transitionOnSend found.external flags
          internal := transitionOnRecv found.internal flags
          lastSeen := now }
      (c.store key conn, true)

/-- Drop flows whose `lastSeen` is older than their timeout. -/
def sweep (c : ConnTrack) (now : Tick) : ConnTrack :=
  ⟨c.flows.retain fun _ conn ↦ Tick.elapsedSince now conn.lastSeen < conn.idleTimeoutMs⟩

/-- The calls made on a table. -/
inductive Op
  | observeEgress (key : FlowKey) (flags : UInt8) (now : Tick)
  | checkIngress (key : FlowKey) (flags : UInt8) (now : Tick)
  | sweep (now : Tick)
deriving DecidableEq, Repr

/-- The table after a call. -/
def step (c : ConnTrack) : Op → ConnTrack
  | .observeEgress key flags now => (c.observeEgress key flags now).1
  | .checkIngress key flags now => (c.checkIngress key flags now).1
  | .sweep now => c.sweep now

/-- The table after a sequence of calls, oldest first. -/
def run (c : ConnTrack) (ops : List Op) : ConnTrack := ops.foldl step c

end ConnTrack

/-! ### The machine of a single flow -/

namespace Conn

/-- The entry after an outbound packet, before it is judged for reaping. -/
def afterEgress (o : Option Conn) (flags : UInt8) (now : Tick) : Conn :=
  let found := o.getD ⟨.closed, .closed, now⟩
  ⟨transitionOnSend found.internal flags, transitionOnRecv found.external flags, now⟩

/-- The entry after an admitted inbound packet, before it is judged for reaping. -/
def afterIngress (c : Conn) (flags : UInt8) (now : Tick) : Conn :=
  ⟨transitionOnRecv c.internal flags, transitionOnSend c.external flags, now⟩

/-- What the table keeps of an entry: nothing, once it is fully closed. -/
def reap (c : Conn) : Option Conn := if c.fullyClosed then none else some c

end Conn

/-- What can happen to one flow. -/
inductive FlowEvent
  | egress (flags : UInt8) (now : Tick)
  | ingress (flags : UInt8) (now : Tick)
  | sweep (now : Tick)

/-- One step of a single flow, on the entry its key holds. -/
def flowStep (o : Option Conn) : FlowEvent → Option Conn
  | .egress flags now => (Conn.afterEgress o flags now).reap
  | .ingress flags now =>
    o.bind fun c ↦ if c.fullyClosed then some c else (c.afterIngress flags now).reap
  | .sweep now => o.filter fun c ↦ Tick.elapsedSince now c.lastSeen < c.idleTimeoutMs

namespace ConnTrack

/-- What an operation does at a key: a packet concerns its own flow only, a sweep all of them. -/
def Op.eventAt (k : FlowKey) : Op → Option FlowEvent
  | .observeEgress key flags now => if k = key then some (.egress flags now) else none
  | .checkIngress key flags now => if k = key then some (.ingress flags now) else none
  | .sweep now => some (.sweep now)

theorem lookup_store (c : ConnTrack) (key k : FlowKey) (conn : Conn) :
    (c.store key conn).flows.lookup k = if k = key then conn.reap else c.flows.lookup k := by
  show (if conn.fullyClosed then (c.flows.insert key conn).erase key
    else c.flows.insert key conn).lookup k = _
  by_cases hc : conn.fullyClosed = true
  · rw [if_pos hc, AList.lookup_erase_ite, AList.lookup_insert_ite, Conn.reap, if_pos hc]
    split_ifs <;> rfl
  · rw [if_neg hc, AList.lookup_insert_ite, Conn.reap, if_neg hc]

/-- **The table is the product of its flows.** An operation acts on the entry of a key as the
single-flow machine does, at the keys it concerns, and leaves every other entry alone. -/
theorem lookup_step (c : ConnTrack) (op : Op) (k : FlowKey) :
    (c.step op).flows.lookup k =
      match op.eventAt k with
      | some e => flowStep (c.flows.lookup k) e
      | none => c.flows.lookup k := by
  cases op with
  | observeEgress key flags now =>
    show (c.store key (Conn.afterEgress (c.flows.lookup key) flags now)).flows.lookup k = _
    rw [lookup_store]
    by_cases hk : k = key
    · subst hk
      simp [Op.eventAt, flowStep]
    · simp [Op.eventAt, hk]
  | checkIngress key flags now =>
    by_cases hk : k = key
    · subst hk
      simp only [step, checkIngress, Op.eventAt, if_true, flowStep]
      rcases h : c.flows.lookup k with - | found
      · simpa using h
      · by_cases hc : found.fullyClosed = true
        · simpa [hc] using h
        · simpa [hc, Conn.afterIngress] using lookup_store c k k _
    · simp only [step, checkIngress, Op.eventAt, if_neg hk]
      rcases c.flows.lookup key with - | found
      · rfl
      · by_cases hc : found.fullyClosed = true
        · simp [hc]
        · simpa [hc, hk] using lookup_store c key k _
  | sweep now =>
    exact AList.lookup_retain _ _ _

end ConnTrack

/-! ### What a packet can do to an endpoint -/

/-- The three bits of a flag byte that decide whether a flow opens or closes. -/
def TcpFlag.isOpening (flags : UInt8) : Bool :=
  isSet flags syn && !isSet flags ack && !isSet flags rst

/-- Sending never makes an endpoint listen. -/
theorem transitionOnSend_ne_listen {s : TcpState} (hs : s ≠ .listen) (flags : UInt8) :
    transitionOnSend s flags ≠ .listen := by
  unfold transitionOnSend
  cases s <;> first | exact absurd rfl hs | (dsimp only; split_ifs <;> decide)

/-- Receiving never makes an endpoint listen. -/
theorem transitionOnRecv_ne_listen {s : TcpState} (hs : s ≠ .listen) (flags : UInt8) :
    transitionOnRecv s flags ≠ .listen := by
  unfold transitionOnRecv
  cases s <;> first | exact absurd rfl hs | (dsimp only; split_ifs <;> decide)

/-- RST closes the sender. -/
theorem transitionOnSend_of_rst {flags : UInt8} (h : TcpFlag.isSet flags TcpFlag.rst = true)
    (s : TcpState) : transitionOnSend s flags = .closed := by
  simp [transitionOnSend, h]

/-- RST closes the receiver. -/
theorem transitionOnRecv_of_rst {flags : UInt8} (h : TcpFlag.isSet flags TcpFlag.rst = true)
    (s : TcpState) : transitionOnRecv s flags = .closed := by
  simp [transitionOnRecv, h]

/-- Without RST, only a closed endpoint is closed after sending. -/
theorem eq_closed_of_transitionOnSend {flags : UInt8} {s : TcpState}
    (hrst : TcpFlag.isSet flags TcpFlag.rst = false) (h : transitionOnSend s flags = .closed) :
    s = .closed := by
  unfold transitionOnSend at h
  cases s <;> simp only [hrst, Bool.false_eq_true, if_false] at h <;>
    first | rfl | (split_ifs at h) | exact absurd h (by decide)

/-- Without RST, an endpoint is closed after receiving only if it was, or if an ACK released it
from `lastAck`. -/
theorem eq_closed_or_of_transitionOnRecv {flags : UInt8} {s : TcpState}
    (hrst : TcpFlag.isSet flags TcpFlag.rst = false) (h : transitionOnRecv s flags = .closed) :
    s = .closed ∨ TcpFlag.isSet flags TcpFlag.ack = true := by
  unfold transitionOnRecv at h
  cases s <;> simp only [hrst, Bool.false_eq_true, if_false] at h <;>
    first
    | exact Or.inl rfl
    | (split_ifs at h with hack; exact Or.inr hack)
    | (split_ifs at h)
    | exact absurd h (by decide)

/-- A closed sender stays closed exactly at the flags that open nothing. -/
theorem transitionOnSend_closed_eq_closed_iff {flags : UInt8} :
    transitionOnSend .closed flags = .closed ↔ TcpFlag.isOpening flags = false := by
  unfold transitionOnSend TcpFlag.isOpening
  rcases h₁ : TcpFlag.isSet flags TcpFlag.syn <;> rcases h₂ : TcpFlag.isSet flags TcpFlag.ack <;>
    rcases h₃ : TcpFlag.isSet flags TcpFlag.rst <;> simp

theorem transitionOnRecv_closed_eq_closed_iff {flags : UInt8} :
    transitionOnRecv .closed flags = .closed ↔ TcpFlag.isOpening flags = false := by
  unfold transitionOnRecv TcpFlag.isOpening
  rcases h₁ : TcpFlag.isSet flags TcpFlag.syn <;> rcases h₂ : TcpFlag.isSet flags TcpFlag.ack <;>
    rcases h₃ : TcpFlag.isSet flags TcpFlag.rst <;> simp

/-! ### The invariant of stored flows -/

namespace Conn

/-- What every stored flow satisfies: some endpoint is open, and none is listening. -/
structure Live (c : Conn) : Prop where
  not_fullyClosed : c.fullyClosed = false
  internal_ne : c.internal ≠ .listen
  external_ne : c.external ≠ .listen

theorem fullyClosed_iff {c : Conn} :
    c.fullyClosed = true ↔ c.internal = .closed ∧ c.external = .closed := by
  simp [fullyClosed]

theorem reap_eq_some_iff {c c' : Conn} : c.reap = some c' ↔ c.fullyClosed = false ∧ c = c' := by
  unfold reap
  split_ifs with h <;> simp [h]

theorem reap_eq_none_iff {c : Conn} :
    c.reap = none ↔ c.internal = .closed ∧ c.external = .closed := by
  rw [← fullyClosed_iff]
  unfold reap
  split_ifs with h <;> simp [h]

theorem afterEgress_none_fullyClosed_iff (flags : UInt8) (now : Tick) :
    (afterEgress none flags now).fullyClosed = true ↔ TcpFlag.isOpening flags = false := by
  rw [fullyClosed_iff]
  show transitionOnSend .closed flags = .closed ∧ transitionOnRecv .closed flags = .closed ↔ _
  rw [transitionOnSend_closed_eq_closed_iff, transitionOnRecv_closed_eq_closed_iff, and_self]

end Conn

/-- The entry a key holds, if any, is live. -/
def LiveEntry (o : Option Conn) : Prop := ∀ c, o = some c → c.Live

theorem liveEntry_none : LiveEntry none := by
  intro c h
  exact absurd h (by simp)

/-- **One step keeps stored flows live.** -/
theorem liveEntry_flowStep {o : Option Conn} (h : LiveEntry o) (e : FlowEvent) :
    LiveEntry (flowStep o e) := by
  intro c' hc'
  cases e with
  | egress flags now =>
    obtain ⟨hopen, rfl⟩ := Conn.reap_eq_some_iff.1 hc'
    -- a flow seen for the first time starts closed at both ends
    have hfound : (o.getD ⟨.closed, .closed, now⟩).internal ≠ .listen ∧
        (o.getD ⟨.closed, .closed, now⟩).external ≠ .listen := by
      rcases o with - | c
      · simp
      · exact ⟨(h c rfl).internal_ne, (h c rfl).external_ne⟩
    exact ⟨hopen, transitionOnSend_ne_listen hfound.1 flags,
      transitionOnRecv_ne_listen hfound.2 flags⟩
  | ingress flags now =>
    obtain ⟨c, rfl, hreap⟩ := Option.bind_eq_some_iff.1 hc'
    rw [if_neg (by simp [(h c rfl).not_fullyClosed])] at hreap
    obtain ⟨hopen, rfl⟩ := Conn.reap_eq_some_iff.1 hreap
    exact ⟨hopen, transitionOnRecv_ne_listen (h c rfl).internal_ne flags,
      transitionOnSend_ne_listen (h c rfl).external_ne flags⟩
  | sweep now =>
    exact h c' (Option.filter_eq_some_iff.1 hc').1

namespace ConnTrack

/-- Every stored flow is live. -/
def Inv (c : ConnTrack) : Prop := ∀ k, LiveEntry (c.flows.lookup k)

theorem inv_new : new.Inv := fun _ ↦ liveEntry_none

/-- **One call keeps the invariant**, at every key. -/
theorem inv_step {c : ConnTrack} (h : c.Inv) (op : Op) : (c.step op).Inv := by
  intro k
  rw [lookup_step]
  rcases op.eventAt k with - | e
  · exact h k
  · exact liveEntry_flowStep (h k) e

/-- **Every run keeps the invariant.** -/
theorem inv_run (ops : List Op) : (new.run ops).Inv :=
  TransitionSystem.foldl_invariant inv_new (fun _ op h ↦ inv_step h op) ops

/-! ### Admission, appearance and disappearance -/

/-- Admission is presence. -/
theorem checkIngress_eq_true_iff {c : ConnTrack} (h : c.Inv) (k : FlowKey) (flags : UInt8)
    (now : Tick) : (c.checkIngress k flags now).2 = true ↔ k ∈ c.flows := by
  rw [AList.mem_iff_lookup]
  unfold checkIngress
  rcases hk : c.flows.lookup k with - | found
  · simp
  · simp [(h k found hk).not_fullyClosed]

/-- A refused packet changes nothing, in any state of the table. -/
theorem checkIngress_eq_self_of_refused {c : ConnTrack} {k : FlowKey} {flags : UInt8} {now : Tick}
    (h : (c.checkIngress k flags now).2 = false) : (c.checkIngress k flags now).1 = c := by
  unfold checkIngress at h ⊢
  rcases hk : c.flows.lookup k with - | found
  · rfl
  · by_cases hc : found.fullyClosed = true
    · simp [hc]
    · simp [hk, hc] at h

/-- An absent flow is opened only by its own outbound packet, and only at opening flags. -/
theorem flowStep_none_eq_some {e : FlowEvent} {c' : Conn} (h : flowStep none e = some c') :
    ∃ flags now, e = .egress flags now ∧ TcpFlag.isOpening flags = true := by
  cases e with
  | egress flags now =>
    refine ⟨flags, now, rfl, ?_⟩
    obtain ⟨hopen, rfl⟩ := Conn.reap_eq_some_iff.1 h
    rw [← Bool.not_eq_false, ← Conn.afterEgress_none_fullyClosed_iff flags now, hopen]
    simp
  | ingress flags now => exact absurd h (by simp [flowStep])
  | sweep now => exact absurd h (by simp [flowStep])

/-- A packet leaves the flow `c` closed at both ends, having been sent by the endpoint in state
`sender` to the endpoint in state `receiver`. -/
theorem rst_or_ack_of_both_closed {sender receiver : TcpState} {flags : UInt8}
    (hlive : ¬(sender = .closed ∧ receiver = .closed))
    (hs : transitionOnSend sender flags = .closed)
    (hr : transitionOnRecv receiver flags = .closed) :
    TcpFlag.isSet flags TcpFlag.rst = true ∨ TcpFlag.isSet flags TcpFlag.ack = true := by
  rcases hrst : TcpFlag.isSet flags TcpFlag.rst with - | -
  · have hsender := eq_closed_of_transitionOnSend hrst hs
    rcases eq_closed_or_of_transitionOnRecv hrst hr with hreceiver | hack
    · exact absurd ⟨hsender, hreceiver⟩ hlive
    · exact Or.inr hack
  · exact Or.inl rfl

/-- The ways a stored flow ends, as a condition on the operation and the stored entry. -/
def Ends (k : FlowKey) (c : Conn) : Op → Prop
  | .observeEgress key flags _ => key = k ∧
    (TcpFlag.isSet flags TcpFlag.rst = true ∨
      (TcpFlag.isSet flags TcpFlag.ack = true ∧
        transitionOnSend c.internal flags = .closed ∧ transitionOnRecv c.external flags = .closed))
  | .checkIngress key flags _ => key = k ∧
    (TcpFlag.isSet flags TcpFlag.rst = true ∨
      (TcpFlag.isSet flags TcpFlag.ack = true ∧
        transitionOnRecv c.internal flags = .closed ∧ transitionOnSend c.external flags = .closed))
  | .sweep now =>
    max c.internal.idleTimeoutMs c.external.idleTimeoutMs ≤ Tick.elapsedSince now c.lastSeen

/-- **A stored flow ends in one of the three ways only.** -/
theorem ends_of_lookup_step_eq_none {c : ConnTrack} (hinv : c.Inv) {k : FlowKey} {conn : Conn}
    {op : Op} (hk : c.flows.lookup k = some conn) (hgone : (c.step op).flows.lookup k = none) :
    Ends k conn op := by
  have hlive := hinv k conn hk
  have hopen : ¬(conn.internal = .closed ∧ conn.external = .closed) := by
    rw [← Conn.fullyClosed_iff, hlive.not_fullyClosed]
    simp
  rw [lookup_step, hk] at hgone
  cases op with
  | observeEgress key flags now =>
    by_cases hkey : k = key
    · rw [Op.eventAt, if_pos hkey] at hgone
      obtain ⟨hs, hr⟩ := Conn.reap_eq_none_iff.1 hgone
      refine ⟨hkey.symm, ?_⟩
      rcases rst_or_ack_of_both_closed hopen hs hr with hrst | hack
      · exact Or.inl hrst
      · exact Or.inr ⟨hack, hs, hr⟩
    · rw [Op.eventAt, if_neg hkey] at hgone
      exact absurd hgone (by simp)
  | checkIngress key flags now =>
    by_cases hkey : k = key
    · rw [Op.eventAt, if_pos hkey] at hgone
      have hreap : (conn.afterIngress flags now).reap = none := by
        simpa [flowStep, hlive.not_fullyClosed] using hgone
      obtain ⟨hr, hs⟩ := Conn.reap_eq_none_iff.1 hreap
      refine ⟨hkey.symm, ?_⟩
      rcases rst_or_ack_of_both_closed (fun h ↦ hopen h.symm) hs hr with hrst | hack
      · exact Or.inl hrst
      · exact Or.inr ⟨hack, hr, hs⟩
    · rw [Op.eventAt, if_neg hkey] at hgone
      exact absurd hgone (by simp)
  | sweep now =>
    have h : ¬Tick.elapsedSince now conn.lastSeen < conn.idleTimeoutMs := by
      simpa [Op.eventAt, flowStep] using hgone
    exact Nat.le_of_not_lt h

/-- **A flow appears only at its own opening packet.** -/
theorem opening_of_lookup_step_eq_some {c : ConnTrack} {k : FlowKey} {conn : Conn} {op : Op}
    (hk : c.flows.lookup k = none) (hnew : (c.step op).flows.lookup k = some conn) :
    ∃ flags now, op = .observeEgress k flags now ∧ TcpFlag.isOpening flags = true := by
  rw [lookup_step, hk] at hnew
  rcases he : op.eventAt k with - | e
  · rw [he] at hnew
    exact absurd hnew (by simp)
  · rw [he] at hnew
    obtain ⟨flags, now, rfl, hopening⟩ := flowStep_none_eq_some hnew
    refine ⟨flags, now, ?_, hopening⟩
    cases op with
    | observeEgress key flags' now' =>
      by_cases hkey : k = key
      · rw [Op.eventAt, if_pos hkey] at he
        obtain ⟨rfl, rfl⟩ := FlowEvent.egress.inj (Option.some.inj he)
        rw [hkey]
      · rw [Op.eventAt, if_neg hkey] at he
        exact absurd he (by simp)
    | checkIngress key flags' now' =>
      exfalso
      by_cases hkey : k = key
      · rw [Op.eventAt, if_pos hkey] at he
        exact absurd (Option.some.inj he) (by simp)
      · rw [Op.eventAt, if_neg hkey] at he
        exact absurd he (by simp)
    | sweep now' =>
      exact absurd (Option.some.inj he) (by simp)

/-! ### The history of a stored flow -/

/-- A packet of the flow `k` with RST set. -/
def Op.RstOn (k : FlowKey) : Op → Prop
  | .observeEgress key flags _ => key = k ∧ TcpFlag.isSet flags TcpFlag.rst = true
  | .checkIngress key flags _ => key = k ∧ TcpFlag.isSet flags TcpFlag.rst = true
  | .sweep _ => False

/-- RST ends a flow at once. -/
theorem lookup_step_of_rstOn {c : ConnTrack} (hinv : c.Inv) {k : FlowKey} {op : Op}
    (h : op.RstOn k) : (c.step op).flows.lookup k = none := by
  rw [lookup_step]
  cases op with
  | observeEgress key flags now =>
    obtain ⟨rfl, hrst⟩ := h
    rw [Op.eventAt, if_pos rfl]
    exact Conn.reap_eq_none_iff.2
      ⟨transitionOnSend_of_rst hrst _, transitionOnRecv_of_rst hrst _⟩
  | checkIngress key flags now =>
    obtain ⟨rfl, hrst⟩ := h
    rw [Op.eventAt, if_pos rfl]
    rcases hk : c.flows.lookup key with - | conn
    · rfl
    · have hreap : (conn.afterIngress flags now).reap = none := Conn.reap_eq_none_iff.2
        ⟨transitionOnRecv_of_rst hrst _, transitionOnSend_of_rst hrst _⟩
      simpa [flowStep, (hinv key conn hk).not_fullyClosed] using hreap
  | sweep now => exact absurd h id

theorem run_concat (c : ConnTrack) (ops : List Op) (op : Op) :
    c.run (ops ++ [op]) = (c.run ops).step op := by
  rw [run, run, List.foldl_append]
  rfl

/-- The life of a flow so far. After the calls `pre` the flow `k` was absent, the outbound packet
that came next created it, and it has been stored ever since, throughout the calls `post`. -/
structure Life (k : FlowKey) (pre : List Op) (flags : UInt8) (now : Tick) (post : List Op) :
    Prop where
  absent : k ∉ (new.run pre).flows
  stored : ∀ mid, mid <+: post → k ∈ (new.run (pre ++ .observeEgress k flags now :: mid)).flows

namespace Life

variable {k : FlowKey} {pre post : List Op} {flags : UInt8} {now : Tick}

/-- A flow that is still there after one more call has lived through it. -/
theorem concat (h : Life k pre flags now post) {op : Op}
    (hk : k ∈ (new.run (pre ++ .observeEgress k flags now :: (post ++ [op]))).flows) :
    Life k pre flags now (post ++ [op]) := by
  refine ⟨h.absent, fun mid hmid ↦ ?_⟩
  rcases List.prefix_concat_iff.1 hmid with rfl | hpre
  · exact hk
  · exact h.stored mid hpre

/-- What has been lived through so far. -/
theorem of_prefix (h : Life k pre flags now post) {mid : List Op} (hmid : mid <+: post) :
    Life k pre flags now mid :=
  ⟨h.absent, fun mid' hmid' ↦ h.stored mid' (hmid'.trans hmid)⟩

/-- The packet that created the flow was an opening one. -/
theorem isOpening (h : Life k pre flags now post) : TcpFlag.isOpening flags = true := by
  have hstored := h.stored [] List.nil_prefix
  rw [run_concat] at hstored
  obtain ⟨conn, hnew⟩ := AList.mem_iff_lookup.1 hstored
  obtain ⟨flags', now', hop, hopening⟩ :=
    opening_of_lookup_step_eq_some (AList.lookup_eq_none.2 h.absent) hnew
  rw [(Op.observeEgress.inj hop).2.1]
  exact hopening

/-- No packet of a living flow had RST set. -/
theorem not_rstOn (h : Life k pre flags now post) {op : Op} (hop : op ∈ post) : ¬op.RstOn k := by
  intro hrst
  obtain ⟨mid, rest, rfl⟩ := List.append_of_mem hop
  have hstored := h.stored (mid ++ [op]) ⟨rest, by simp⟩
  have hsplit : pre ++ Op.observeEgress k flags now :: (mid ++ [op]) =
      (pre ++ .observeEgress k flags now :: mid) ++ [op] := by simp
  rw [hsplit, run_concat] at hstored
  exact absurd hstored (AList.lookup_eq_none.1 (lookup_step_of_rstOn (inv_run _) hrst))

end Life

/-- **Every stored flow has a life**: the calls split at the packet that created it. -/
theorem exists_life {ops : List Op} {k : FlowKey} (hk : k ∈ (new.run ops).flows) :
    ∃ pre flags now post, ops = pre ++ .observeEgress k flags now :: post ∧
      Life k pre flags now post := by
  induction ops using List.reverseRecOn with
  | nil => exact absurd hk (AList.notMem_empty k)
  | append_singleton ops op ih =>
    by_cases hold : k ∈ (new.run ops).flows
    · obtain ⟨pre, flags, now, post, rfl, hlife⟩ := ih hold
      have hsplit : pre ++ Op.observeEgress k flags now :: post ++ [op] =
          pre ++ .observeEgress k flags now :: (post ++ [op]) := by simp
      rw [hsplit] at hk ⊢
      exact ⟨pre, flags, now, post ++ [op], rfl, hlife.concat hk⟩
    · have hnow := hk
      rw [run_concat] at hnow
      obtain ⟨conn, hnew⟩ := AList.mem_iff_lookup.1 hnow
      obtain ⟨flags, now, rfl, -⟩ :=
        opening_of_lookup_step_eq_some (AList.lookup_eq_none.2 hold) hnew
      refine ⟨ops, flags, now, [], rfl, hold, fun mid hmid ↦ ?_⟩
      rwa [List.prefix_nil.1 hmid]

/-- **A stored flow was opened.** It goes back to an outbound packet of its own with SYN set and ACK
and RST clear, and there has been no packet of the flow with RST since. -/
theorem exists_opening_of_mem_run {ops : List Op} {k : FlowKey} (hk : k ∈ (new.run ops).flows) :
    ∃ pre flags now post, ops = pre ++ .observeEgress k flags now :: post ∧
      TcpFlag.isOpening flags = true ∧ ∀ op ∈ post, ¬op.RstOn k := by
  obtain ⟨pre, flags, now, post, hops, hlife⟩ := exists_life hk
  exact ⟨pre, flags, now, post, hops, hlife.isOpening, fun _ ↦ hlife.not_rstOn⟩

/-- **Admission, exactly.** After any sequence of calls from the empty table: no stored flow is
closed at both ends and no endpoint listens; an inbound packet is admitted exactly when its flow is
stored, and a refused one changes nothing; and at any further call, a flow appears only at an
outbound packet of its own with SYN set and ACK and RST clear, and disappears only in one of the
ways `Ends` lists: RST, an ACK that leaves both endpoints closed, or a sweep past its timeout. -/
theorem admission_exact (ops : List Op) :
    (∀ k conn, (new.run ops).flows.lookup k = some conn →
      ¬(conn.internal = .closed ∧ conn.external = .closed) ∧
        conn.internal ≠ .listen ∧ conn.external ≠ .listen) ∧
    (∀ k flags now,
      (((new.run ops).checkIngress k flags now).2 = true ↔ k ∈ (new.run ops).flows) ∧
      (((new.run ops).checkIngress k flags now).2 = false →
        ((new.run ops).checkIngress k flags now).1 = new.run ops)) ∧
    (∀ k op, k ∉ (new.run ops).flows → k ∈ ((new.run ops).step op).flows →
      ∃ flags now, op = .observeEgress k flags now ∧ TcpFlag.isSet flags TcpFlag.syn = true ∧
        TcpFlag.isSet flags TcpFlag.ack = false ∧ TcpFlag.isSet flags TcpFlag.rst = false) ∧
    (∀ k op conn, (new.run ops).flows.lookup k = some conn →
      k ∉ ((new.run ops).step op).flows → Ends k conn op) := by
  have hinv := inv_run ops
  refine ⟨?_, ?_, ?_, ?_⟩
  · intro k conn hk
    have hlive := hinv k conn hk
    refine ⟨fun hclosed ↦ ?_, hlive.internal_ne, hlive.external_ne⟩
    rw [← Conn.fullyClosed_iff, hlive.not_fullyClosed] at hclosed
    exact absurd hclosed (by simp)
  · intro k flags now
    exact ⟨checkIngress_eq_true_iff hinv k flags now, checkIngress_eq_self_of_refused⟩
  · intro k op habsent hpresent
    obtain ⟨conn, hnew⟩ := AList.mem_iff_lookup.1 hpresent
    obtain ⟨flags, now, hop, hopening⟩ :=
      opening_of_lookup_step_eq_some (AList.lookup_eq_none.2 habsent) hnew
    refine ⟨flags, now, hop, ?_⟩
    simpa [TcpFlag.isOpening, and_assoc] using hopening
  · intro k op conn hk hgone
    exact ends_of_lookup_step_eq_none hinv hk (AList.lookup_eq_none.2 hgone)

/-- A flow of the host `10.0.0.2`, for concrete runs. -/
def sampleFlow : FlowKey := ⟨0x0a000002, 50000, 0x08080808, 443⟩

/-- A flow of the same port of that host, to another peer. -/
def sampleFlow' : FlowKey := ⟨0x0a000002, 50000, 0x09090909, 443⟩

end ConnTrack

end UserspaceRouter
