import Mathlib.Order.Interval.Set.LinearOrder
import UserspaceRouter.Net.DhcpOptions

/-!
# Descending through a frame

From the bytes of a frame the code walks down the protocol stack, one view at a time, and hands out
parts of the frame by their offsets. Here the accessors of the views are modelled as they are run:
with the slice expressions that panic when an offset is out of order, and with the `expect` that
reads a header a second time after the parse has accepted it. (Sums of offsets are `checked_add`, or
add the constants 14 and 4 to offset 0.)

An `Extent` is what all views have in common: the buffer, where the fixed header starts and how long
it is, and where the payload starts and ends. What a descent does to it is said once, in
`Extent.Carries`: the child starts where the parent's payload starts, its own payload lies inside
the parent's, and its fixed header inside the buffer (`descend_carries`).

The last point is weaker than one would like. IPv4, TCP and UDP keep their fixed header inside the
parent's payload as well, but DHCP and DNS only look at the buffer: behind a datagram that is too
short for the message, the padding of the frame is read as its header.
-/

namespace UserspaceRouter

open PullIterator

/-- `&buf[a..b]`, which panics unless the offsets are in order and inside the buffer. -/
def sliceChecked (buf : Bytes) (a b : ℕ) : Option Bytes :=
  if a ≤ b ∧ b ≤ buf.length then some (slice buf a b) else none

/-! ### DNS -/

/-- The fixed 12-byte DNS header. -/
structure DnsHeader where
  id : UInt16
  flags : UInt16
  qdcount : UInt16
  ancount : UInt16
  nscount : UInt16
  arcount : UInt16

/-- `DnsHeader::LEN`. -/
def DnsHeader.len : ℕ := 12

instance : Pod DnsHeader where
  size := DnsHeader.len
  readAt buf off :=
    { id := u16At buf off
      flags := u16At buf (off + 2)
      qdcount := u16At buf (off + 4)
      ancount := u16At buf (off + 6)
      nscount := u16At buf (off + 8)
      arcount := u16At buf (off + 10) }

/-- A view of a DNS message: the fixed header plus the question and record body. -/
structure DnsView where
  buf : Bytes
  start : ℕ
  bodyStart : ℕ
  end_ : ℕ

namespace DnsView

def parseAt (buf : Bytes) (start e : ℕ) : Option DnsView := do
  let _ ← headerAt DnsHeader buf start
  some { buf, start, bodyStart := min (start + DnsHeader.len) e, end_ := e }

def headerChecked (v : DnsView) : Option DnsHeader := headerAt DnsHeader v.buf v.start

/-- Raw bytes following the header. -/
def bodyChecked (v : DnsView) : Option Bytes := sliceChecked v.buf v.bodyStart v.end_

end DnsView

/-- `port::DNS`. -/
def dnsPort : UInt16 := 53

namespace TcpView

/-- True if either endpoint is the DNS port. -/
def isDns (v : TcpView) : Bool := v.srcPort == dnsPort || v.dstPort == dnsPort

def dns (v : TcpView) : Option DnsView :=
  if v.isDns then DnsView.parseAt v.buf v.payloadStart v.end_ else none

end TcpView

namespace UdpView

/-- True if either endpoint is the DNS port. -/
def isDns (v : UdpView) : Bool := v.srcPort == dnsPort || v.dstPort == dnsPort

def dns (v : UdpView) : Option DnsView :=
  if v.isDns then DnsView.parseAt v.buf v.payloadStart v.end_ else none

end UdpView

/-! ### The accessors, as they are run

Each has the value of the accessor without a check, as long as the header is where the parse found
it. -/

namespace EthernetView

def headerChecked (v : EthernetView) : Option EthernetHeader :=
  headerAt EthernetHeader v.buf v.start

def payloadChecked (v : EthernetView) : Option Bytes := sliceChecked v.buf v.l3Start v.buf.length

end EthernetView

namespace Ipv4View

def headerChecked (v : Ipv4View) : Option Ipv4Header := headerAt Ipv4Header v.buf v.start

def protocolChecked (v : Ipv4View) : Option UInt8 := v.headerChecked.map (·.protocol)

def isTcpChecked (v : Ipv4View) : Option Bool := v.protocolChecked.map (· == Proto.tcp)

def isUdpChecked (v : Ipv4View) : Option Bool := v.protocolChecked.map (· == Proto.udp)

def payloadChecked (v : Ipv4View) : Option Bytes := sliceChecked v.buf v.l4Start v.end_

def tcpChecked (v : Ipv4View) : Option (Option TcpView) :=
  v.isTcpChecked.map fun isTcp ↦ if isTcp then TcpView.parseAt v.buf v.l4Start v.end_ else none

def udpChecked (v : Ipv4View) : Option (Option UdpView) :=
  v.isUdpChecked.map fun isUdp ↦ if isUdp then UdpView.parseAt v.buf v.l4Start v.end_ else none

theorem tcpChecked_eq {v : Ipv4View} (h : v.headerChecked = some v.header) :
    v.tcpChecked = some v.tcp := by
  rw [tcpChecked, isTcpChecked, protocolChecked, h]
  rfl

theorem udpChecked_eq {v : Ipv4View} (h : v.headerChecked = some v.header) :
    v.udpChecked = some v.udp := by
  rw [udpChecked, isUdpChecked, protocolChecked, h]
  rfl

end Ipv4View

namespace TcpView

def headerChecked (v : TcpView) : Option TcpHeader := headerAt TcpHeader v.buf v.start

def srcPortChecked (v : TcpView) : Option UInt16 := v.headerChecked.map (·.srcPort)

def dstPortChecked (v : TcpView) : Option UInt16 := v.headerChecked.map (·.dstPort)

def payloadChecked (v : TcpView) : Option Bytes := sliceChecked v.buf v.payloadStart v.end_

/-- True if either endpoint is the DNS port. -/
def isDnsChecked (v : TcpView) : Option Bool := do
  let src ← v.srcPortChecked
  let dst ← v.dstPortChecked
  some (src == dnsPort || dst == dnsPort)

def dnsChecked (v : TcpView) : Option (Option DnsView) :=
  v.isDnsChecked.map fun isDns ↦
    if isDns then DnsView.parseAt v.buf v.payloadStart v.end_ else none

theorem dnsChecked_eq {v : TcpView} (h : v.headerChecked = some v.header) :
    v.dnsChecked = some v.dns := by
  rw [dnsChecked, isDnsChecked, srcPortChecked, dstPortChecked, h]
  rfl

end TcpView

namespace UdpView

def headerChecked (v : UdpView) : Option UdpHeader := headerAt UdpHeader v.buf v.start

def srcPortChecked (v : UdpView) : Option UInt16 := v.headerChecked.map (·.srcPort)

def dstPortChecked (v : UdpView) : Option UInt16 := v.headerChecked.map (·.dstPort)

def payloadChecked (v : UdpView) : Option Bytes := sliceChecked v.buf v.payloadStart v.end_

/-- True if either endpoint is a DHCP/BOOTP port. -/
def isDhcpChecked (v : UdpView) : Option Bool := do
  let isBootp (p : UInt16) : Bool := p == 67 || p == 68
  let src ← v.srcPortChecked
  let dst ← v.dstPortChecked
  some (isBootp src || isBootp dst)

/-- True if either endpoint is the DNS port. -/
def isDnsChecked (v : UdpView) : Option Bool := do
  let src ← v.srcPortChecked
  let dst ← v.dstPortChecked
  some (src == dnsPort || dst == dnsPort)

def dhcpChecked (v : UdpView) : Option (Option DhcpView) :=
  v.isDhcpChecked.map fun isDhcp ↦
    if isDhcp then DhcpView.parseAt v.buf v.payloadStart v.end_ else none

def dnsChecked (v : UdpView) : Option (Option DnsView) :=
  v.isDnsChecked.map fun isDns ↦
    if isDns then DnsView.parseAt v.buf v.payloadStart v.end_ else none

theorem dhcpChecked_eq {v : UdpView} (h : v.headerChecked = some v.header) :
    v.dhcpChecked = some v.dhcp := by
  rw [dhcpChecked, isDhcpChecked, srcPortChecked, dstPortChecked, h]
  rfl

theorem dnsChecked_eq {v : UdpView} (h : v.headerChecked = some v.header) :
    v.dnsChecked = some v.dns := by
  rw [dnsChecked, isDnsChecked, srcPortChecked, dstPortChecked, h]
  rfl

end UdpView

/-- A message of a given type: `Offer`, `Request` or `Lease`. -/
structure DhcpMessage where
  header : DhcpHeader
  options : Bytes

namespace DhcpMessage

/-- `parse`: the message, unless its type is another one. -/
def parseChecked (kind : MessageType) (header : DhcpHeader) (options : Bytes) :
    Option (Option DhcpMessage) :=
  (Options.readChecked options DhcpOption.messageType
    fun v ↦ v.head?.bind MessageType.fromU8).map fun t ↦
      t.bind fun t ↦ if t = kind then some ⟨header, options⟩ else none

/-- The first `hlen` bytes of `chaddr`. -/
def clientHardwareAddrChecked (m : DhcpMessage) : Option Bytes :=
  sliceChecked m.header.chaddr 0 (min m.header.hlen.toNat m.header.chaddr.length)

end DhcpMessage

namespace DhcpView

def headerChecked (v : DhcpView) : Option DhcpHeader := headerAt DhcpHeader v.buf v.start

def optionsChecked (v : DhcpView) : Option Bytes := sliceChecked v.buf v.optionsStart v.end_

/-- A typed getter, on the options of the view. -/
def readChecked {α : Type*} (v : DhcpView) (code : UInt8) (decode : Bytes → Option α) :
    Option (Option α) :=
  v.optionsChecked.bind fun options ↦ Options.readChecked options code decode

def messageTypeChecked (v : DhcpView) : Option (Option MessageType) :=
  v.readChecked DhcpOption.messageType fun value ↦ value.head?.bind MessageType.fromU8

def serverIdChecked (v : DhcpView) : Option (Option Ipv4Addr) :=
  v.readChecked DhcpOption.serverId Options.optIpv4

def requestedIpChecked (v : DhcpView) : Option (Option Ipv4Addr) :=
  v.readChecked DhcpOption.requestedIp Options.optIpv4

def subnetMaskChecked (v : DhcpView) : Option (Option Ipv4Addr) :=
  v.readChecked DhcpOption.subnetMask Options.optIpv4

def leaseTimeChecked (v : DhcpView) : Option (Option UInt32) :=
  v.readChecked DhcpOption.leaseTime Options.optSeconds

def renewalTimeChecked (v : DhcpView) : Option (Option UInt32) :=
  v.readChecked DhcpOption.renewalTime Options.optSeconds

def rebindingTimeChecked (v : DhcpView) : Option (Option UInt32) :=
  v.readChecked DhcpOption.rebindingTime Options.optSeconds

/-- The bytes that the iterator over the default gateways is given. -/
def routersChecked (v : DhcpView) : Option Bytes :=
  (v.readChecked DhcpOption.router some).map fun value ↦ value.getD []

/-- The bytes that the iterator over the name servers is given. -/
def dnsServersChecked (v : DhcpView) : Option Bytes :=
  (v.readChecked DhcpOption.dnsServer some).map fun value ↦ value.getD []

/-- Interpret the message as one of a given type. -/
def messageChecked (v : DhcpView) (kind : MessageType) : Option (Option DhcpMessage) := do
  let header ← v.headerChecked
  let options ← v.optionsChecked
  DhcpMessage.parseChecked kind header options

def offerChecked (v : DhcpView) : Option (Option DhcpMessage) := v.messageChecked .offer

def requestChecked (v : DhcpView) : Option (Option DhcpMessage) := v.messageChecked .request

def leaseChecked (v : DhcpView) : Option (Option DhcpMessage) := v.messageChecked .ack

end DhcpView

/-! ### Views and descents -/

/-- Whatever a descent can reach. -/
inductive View
  | ethernet (v : EthernetView)
  | ipv4 (v : Ipv4View)
  | arp (p : ArpPacket)
  | tcp (v : TcpView)
  | udp (v : UdpView)
  | dns (v : DnsView)
  | dhcp (v : DhcpView)

/-- The methods that lead from one view to the next. -/
inductive Descent
  | ipv4
  | arp
  | tcp
  | udp
  | dns
  | dhcp
deriving DecidableEq

namespace View

/-- One descent: it panics, or there is no such layer, or this is its view. -/
def descend : View → Descent → Option (Option View)
  | ethernet v, .ipv4 => some (v.ipv4.map ipv4)
  | ethernet v, .arp => some (v.arp.map arp)
  | ipv4 v, .tcp => v.tcpChecked.map fun c ↦ c.map tcp
  | ipv4 v, .udp => v.udpChecked.map fun c ↦ c.map udp
  | tcp v, .dns => v.dnsChecked.map fun c ↦ c.map dns
  | udp v, .dns => v.dnsChecked.map fun c ↦ c.map dns
  | udp v, .dhcp => v.dhcpChecked.map fun c ↦ c.map dhcp
  -- the views have no other methods
  | _, _ => some none

/-- A chain of descents, up to the first that finds no such layer. -/
def follow (v : View) : List Descent → Option (Option View)
  | [] => some (some v)
  | d :: ds =>
    match v.descend d with
    | none => none
    | some none => some none
    | some (some w) => w.follow ds

/-- The view is of a message, and not of a packet that carries one. -/
def isMessage : View → Bool
  | dns _ | dhcp _ => true
  | _ => false

end View

/-- A chain of descents from the bytes of a frame. -/
def descendFrom (frame : Bytes) (ds : List Descent) : Option (Option View) :=
  match parse frame with
  | none => some none
  | some eth => (View.ethernet eth).follow ds

/-! ### Where the views lie -/

/-- The positions of a view. -/
structure Extent where
  buf : Bytes
  start : ℕ
  /-- The length of the fixed header, without options. -/
  fixedLen : ℕ
  payloadStart : ℕ
  end_ : ℕ

/-- The extent of a view. An ARP packet is handed out as such, without offsets. -/
def View.extent : View → Option Extent
  | ethernet v => some ⟨v.buf, v.start, EthernetHeader.len, v.l3Start, v.buf.length⟩
  | ipv4 v => some ⟨v.buf, v.start, Ipv4Header.minLen, v.l4Start, v.end_⟩
  | arp _ => none
  | tcp v => some ⟨v.buf, v.start, TcpHeader.minLen, v.payloadStart, v.end_⟩
  | udp v => some ⟨v.buf, v.start, UdpHeader.len, v.payloadStart, v.end_⟩
  | dns v => some ⟨v.buf, v.start, DnsHeader.len, v.bodyStart, v.end_⟩
  | dhcp v => some ⟨v.buf, v.start, DhcpHeader.len, v.optionsStart, v.end_⟩

namespace Extent

/-- The positions of the fixed header. -/
def header (e : Extent) : Set ℕ := Set.Ico e.start (e.start + e.fixedLen)

/-- The positions of the payload, the options or the body. -/
def payload (e : Extent) : Set ℕ := Set.Ico e.payloadStart e.end_

/-- The offsets are in order and inside the frame. -/
structure Valid (frame : Bytes) (e : Extent) : Prop where
  buf_eq : e.buf = frame
  header_le : e.start + e.fixedLen ≤ frame.length
  start_le : e.start ≤ e.payloadStart
  payload_le : e.payloadStart ≤ e.end_
  end_le : e.end_ ≤ frame.length

namespace Valid

variable {frame : Bytes} {e : Extent}

/-- The header can be read again. -/
theorem headerAt_eq {T : Type} [Pod T] (h : e.Valid frame) (hsize : Pod.size T = e.fixedLen) :
    headerAt T e.buf e.start = some (Pod.readAt e.buf e.start) := by
  refine headerAt_eq_some_iff.2 ⟨?_, rfl⟩
  rw [hsize, h.buf_eq]
  exact h.header_le

/-- The payload can be cut out. -/
theorem sliceChecked_eq (h : e.Valid frame) :
    sliceChecked e.buf e.payloadStart e.end_ = some (slice e.buf e.payloadStart e.end_) :=
  if_pos ⟨h.payload_le, h.buf_eq ▸ h.end_le⟩

end Valid

/-- What a descent from `p` to `c` guarantees. -/
structure Carries (p c : Extent) : Prop where
  buf_eq : c.buf = p.buf
  start_eq : c.start = p.payloadStart
  header_le : c.start + c.fixedLen ≤ p.buf.length
  start_le : c.start ≤ c.payloadStart
  payload_le : c.payloadStart ≤ c.end_
  end_le : c.end_ ≤ p.end_

theorem Carries.valid {frame : Bytes} {p c : Extent} (h : p.Carries c) (hp : p.Valid frame) :
    c.Valid frame :=
  ⟨h.buf_eq.trans hp.buf_eq, hp.buf_eq ▸ h.header_le, h.start_le, h.payload_le,
    h.end_le.trans hp.end_le⟩

end Extent

section Parsed

variable {buf : Bytes} {s₀ n₀ start e : ℕ}

theorem carries_ipv4 {v : Ipv4View} (h : Ipv4View.parseAt buf start = some v) :
    Extent.Carries ⟨buf, s₀, n₀, start, buf.length⟩
        ⟨v.buf, v.start, Ipv4Header.minLen, v.l4Start, v.end_⟩ ∧
      v.start + Ipv4Header.minLen ≤ buf.length := by
  simp only [Ipv4View.parseAt, Option.bind_eq_bind, Option.bind_eq_some_iff] at h
  obtain ⟨ih, hih, h⟩ := h
  obtain ⟨hsize, -⟩ := headerAt_eq_some_iff.1 hih
  have hfit : start + Ipv4Header.minLen ≤ buf.length := hsize
  split_ifs at h with hmin hl4 htotal
  · obtain rfl := Option.some.inj h
    exact ⟨⟨rfl, rfl, hfit, Nat.le_add_right _ _, Nat.le_max_right _ _,
      Nat.max_le.2 ⟨htotal.2, Nat.le_of_not_lt hl4⟩⟩, hfit⟩
  · obtain rfl := Option.some.inj h
    exact ⟨⟨rfl, rfl, hfit, Nat.le_add_right _ _, Nat.le_max_right _ _,
      Nat.max_le.2 ⟨Nat.le_refl _, Nat.le_of_not_lt hl4⟩⟩, hfit⟩

theorem carries_tcp {v : TcpView} (h : TcpView.parseAt buf start e = some v) :
    Extent.Carries ⟨buf, s₀, n₀, start, e⟩
        ⟨v.buf, v.start, TcpHeader.minLen, v.payloadStart, v.end_⟩ ∧
      v.start + TcpHeader.minLen ≤ e := by
  simp only [TcpView.parseAt, Option.bind_eq_bind, Option.bind_eq_some_iff] at h
  obtain ⟨th, hth, h⟩ := h
  obtain ⟨hsize, -⟩ := headerAt_eq_some_iff.1 hth
  split_ifs at h with hmin hfits
  obtain rfl := Option.some.inj h
  have hmin' := Nat.le_of_not_lt hmin
  refine ⟨⟨rfl, rfl, hsize, Nat.le_add_right _ _, ?_, Nat.le_refl _⟩, ?_⟩
  · show start + th.headerLen ≤ e
    omega
  · show start + TcpHeader.minLen ≤ e
    omega

theorem carries_udp {v : UdpView} (h : UdpView.parseAt buf start e = some v) :
    Extent.Carries ⟨buf, s₀, n₀, start, e⟩
        ⟨v.buf, v.start, UdpHeader.len, v.payloadStart, v.end_⟩ ∧
      v.start + UdpHeader.len ≤ e := by
  simp only [UdpView.parseAt, Option.bind_eq_bind, Option.bind_eq_some_iff] at h
  obtain ⟨uh, huh, h⟩ := h
  obtain ⟨hsize, -⟩ := headerAt_eq_some_iff.1 huh
  split_ifs at h with hfits hsane
  · have hle : start + UdpHeader.len ≤ e := by omega
    obtain rfl := Option.some.inj h
    exact ⟨⟨rfl, rfl, hsize, Nat.le_add_right _ _, Nat.le_max_right _ _,
      Nat.max_le.2 ⟨hsane.2, hle⟩⟩, hle⟩
  · have hle : start + UdpHeader.len ≤ e := by omega
    obtain rfl := Option.some.inj h
    exact ⟨⟨rfl, rfl, hsize, Nat.le_add_right _ _, Nat.le_max_right _ _,
      Nat.max_le.2 ⟨Nat.le_refl _, hle⟩⟩, hle⟩

/-- A header whose payload start is clamped to the end of its parent's payload. -/
theorem carries_clamped {len : ℕ} (hle : start ≤ e) (hsize : start + len ≤ buf.length) :
    Extent.Carries ⟨buf, s₀, n₀, start, e⟩ ⟨buf, start, len, min (start + len) e, e⟩ :=
  ⟨rfl, rfl, hsize, Nat.le_min.2 ⟨Nat.le_add_right _ _, hle⟩, Nat.min_le_right _ _,
    Nat.le_refl _⟩

theorem carries_dns {v : DnsView} (hle : start ≤ e) (h : DnsView.parseAt buf start e = some v) :
    Extent.Carries ⟨buf, s₀, n₀, start, e⟩
      ⟨v.buf, v.start, DnsHeader.len, v.bodyStart, v.end_⟩ := by
  simp only [DnsView.parseAt, Option.bind_eq_bind, Option.bind_eq_some_iff] at h
  obtain ⟨dh, hdh, h⟩ := h
  obtain ⟨hsize, -⟩ := headerAt_eq_some_iff.1 hdh
  obtain rfl := Option.some.inj h
  exact carries_clamped hle hsize

theorem carries_dhcp {v : DhcpView} (hle : start ≤ e)
    (h : DhcpView.parseAt buf start e = some v) :
    Extent.Carries ⟨buf, s₀, n₀, start, e⟩
      ⟨v.buf, v.start, DhcpHeader.len, v.optionsStart, v.end_⟩ := by
  simp only [DhcpView.parseAt, Option.bind_eq_bind, Option.bind_eq_some_iff] at h
  obtain ⟨dh, hdh, h⟩ := h
  obtain ⟨hsize, -⟩ := headerAt_eq_some_iff.1 hdh
  obtain rfl := Option.some.inj h
  exact carries_clamped hle hsize

end Parsed

theorem valid_ethernet {frame : Bytes} {eth : EthernetView} (h : parse frame = some eth) :
    Extent.Valid frame ⟨eth.buf, eth.start, EthernetHeader.len, eth.l3Start, eth.buf.length⟩ := by
  obtain ⟨hbuf, hstart, hl3, hle⟩ := EthernetView.bounds_of_parse h
  refine ⟨hbuf, ?_, ?_, ?_, ?_⟩
  · show eth.start + EthernetHeader.len ≤ frame.length
    omega
  · show eth.start ≤ eth.l3Start
    omega
  · show eth.l3Start ≤ eth.buf.length
    rwa [hbuf]
  · show eth.buf.length ≤ frame.length
    rw [hbuf]

namespace View

/-- The offsets of the view are in order. -/
def Valid (frame : Bytes) (v : View) : Prop := ∀ e, v.extent = some e → e.Valid frame

/-- **One descent** does not panic, ... -/
theorem isSome_descend {frame : Bytes} {v : View} (h : v.Valid frame) (d : Descent) :
    (v.descend d).isSome := by
  cases v with
  | ipv4 v =>
    have hheader : v.headerChecked = some v.header := (h _ rfl).headerAt_eq rfl
    cases d <;> simp [descend, Ipv4View.tcpChecked_eq hheader, Ipv4View.udpChecked_eq hheader]
  | tcp v =>
    have hheader : v.headerChecked = some v.header := (h _ rfl).headerAt_eq rfl
    cases d <;> simp [descend, TcpView.dnsChecked_eq hheader]
  | udp v =>
    have hheader : v.headerChecked = some v.header := (h _ rfl).headerAt_eq rfl
    cases d <;> simp [descend, UdpView.dnsChecked_eq hheader, UdpView.dhcpChecked_eq hheader]
  | _ => cases d <;> rfl

/-- The view that a method returned, out of the way it was returned. -/
theorem exists_of_map {α : Type*} {f : α → View} {w : View} {c : Option (Option α)} {c' : Option α}
    (h : c.map (fun c ↦ c.map f) = some (some w)) (hc : c = some c') :
    ∃ a, c' = some a ∧ f a = w := by
  subst hc
  exact Option.map_eq_some_iff.1 (Option.some.inj h)

/-- ... and where it finds a layer, that is carried by the view it started from. -/
theorem descend_carries {frame : Bytes} {v w : View} {d : Descent} (h : v.Valid frame)
    (hw : v.descend d = some (some w)) :
    ∃ p, v.extent = some p ∧ ∀ c, w.extent = some c →
      p.Carries c ∧ (w.isMessage = false → c.start + c.fixedLen ≤ p.end_) := by
  cases v with
  | ethernet v =>
    refine ⟨_, rfl, ?_⟩
    cases d with
    | ipv4 =>
      obtain ⟨ip, hip, rfl⟩ := Option.map_eq_some_iff.1 (Option.some.inj hw)
      rintro c ⟨⟩
      obtain ⟨hc, hle⟩ := carries_ipv4 (Option.ite_none_right_eq_some.1 hip).2
      exact ⟨hc, fun _ ↦ hle⟩
    | arp =>
      obtain ⟨p, -, rfl⟩ := Option.map_eq_some_iff.1 (Option.some.inj hw)
      rintro c ⟨⟩
    | _ => exact nomatch hw
  | ipv4 v =>
    have hheader : v.headerChecked = some v.header := (h _ rfl).headerAt_eq rfl
    refine ⟨_, rfl, ?_⟩
    cases d with
    | tcp =>
      obtain ⟨t, ht, rfl⟩ := exists_of_map hw (Ipv4View.tcpChecked_eq hheader)
      rintro c ⟨⟩
      obtain ⟨hc, hle⟩ := carries_tcp (Option.ite_none_right_eq_some.1 ht).2
      exact ⟨hc, fun _ ↦ hle⟩
    | udp =>
      obtain ⟨u, hu, rfl⟩ := exists_of_map hw (Ipv4View.udpChecked_eq hheader)
      rintro c ⟨⟩
      obtain ⟨hc, hle⟩ := carries_udp (Option.ite_none_right_eq_some.1 hu).2
      exact ⟨hc, fun _ ↦ hle⟩
    | _ => exact nomatch hw
  | tcp v =>
    have hheader : v.headerChecked = some v.header := (h _ rfl).headerAt_eq rfl
    refine ⟨_, rfl, ?_⟩
    cases d with
    | dns =>
      obtain ⟨m, hm, rfl⟩ := exists_of_map hw (TcpView.dnsChecked_eq hheader)
      rintro c ⟨⟩
      have hat := (Option.ite_none_right_eq_some.1 hm).2
      exact ⟨carries_dns (h _ rfl).payload_le hat, fun hno ↦ nomatch hno⟩
    | _ => exact nomatch hw
  | udp v =>
    have hheader : v.headerChecked = some v.header := (h _ rfl).headerAt_eq rfl
    refine ⟨_, rfl, ?_⟩
    cases d with
    | dns =>
      obtain ⟨m, hm, rfl⟩ := exists_of_map hw (UdpView.dnsChecked_eq hheader)
      rintro c ⟨⟩
      have hat := (Option.ite_none_right_eq_some.1 hm).2
      exact ⟨carries_dns (h _ rfl).payload_le hat, fun hno ↦ nomatch hno⟩
    | dhcp =>
      obtain ⟨m, hm, rfl⟩ := exists_of_map hw (UdpView.dhcpChecked_eq hheader)
      rintro c ⟨⟩
      have hat := (Option.ite_none_right_eq_some.1 hm).2
      exact ⟨carries_dhcp (h _ rfl).payload_le hat, fun hno ↦ nomatch hno⟩
    | _ => exact nomatch hw
  | _ => cases d <;> exact nomatch hw

theorem Valid.descend {frame : Bytes} {v w : View} {d : Descent} (h : v.Valid frame)
    (hw : v.descend d = some (some w)) : w.Valid frame := by
  intro c hc
  obtain ⟨p, hp, hcarries⟩ := descend_carries h hw
  exact (hcarries c hc).1.valid (h p hp)

/-- **A chain of descents.** -/
theorem Valid.follow {frame : Bytes} {v : View} (h : v.Valid frame) (ds : List Descent) :
    ∃ r, v.follow ds = some r ∧ ∀ w, r = some w → w.Valid frame := by
  induction ds generalizing v with
  | nil =>
    refine ⟨some v, rfl, ?_⟩
    rintro w ⟨⟩
    exact h
  | cons d ds ih =>
    obtain ⟨r, hr⟩ := Option.isSome_iff_exists.1 (isSome_descend h d)
    rw [View.follow, hr]
    cases r with
    | none => exact ⟨none, rfl, fun w hw ↦ nomatch hw⟩
    | some w => exact ih (h.descend hr)

end View

/-- **From the bytes of a frame**, every chain of descents returns, and what it reaches has its
offsets in order. -/
theorem valid_descendFrom (frame : Bytes) (ds : List Descent) :
    ∃ r, descendFrom frame ds = some r ∧ ∀ v, r = some v → v.Valid frame := by
  unfold descendFrom
  cases heth : parse frame with
  | none => exact ⟨none, rfl, fun w hw ↦ nomatch hw⟩
  | some eth =>
    have hvalid : (View.ethernet eth).Valid frame := by
      rintro e ⟨⟩
      exact valid_ethernet heth
    exact hvalid.follow ds

/-! ### Every accessor returns -/

/-- The accessors of a DHCP view return, and its iterators come to an end. -/
structure DhcpView.Returns (v : DhcpView) : Prop where
  header : v.headerChecked.isSome
  options : v.optionsChecked.isSome
  optionsIter : ∀ options, v.optionsChecked = some options →
    ∃ opts, Yields OptionsIter.advance options opts
  messageType : v.messageTypeChecked.isSome
  serverId : v.serverIdChecked.isSome
  requestedIp : v.requestedIpChecked.isSome
  subnetMask : v.subnetMaskChecked.isSome
  leaseTime : v.leaseTimeChecked.isSome
  renewalTime : v.renewalTimeChecked.isSome
  rebindingTime : v.rebindingTimeChecked.isSome
  routers : ∃ bytes addrs, v.routersChecked = some bytes ∧ Yields Ipv4ListIter.advance bytes addrs
  dnsServers : ∃ bytes addrs, v.dnsServersChecked = some bytes ∧
    Yields Ipv4ListIter.advance bytes addrs
  offer : ∃ m, v.offerChecked = some m ∧ ∀ o, m = some o → o.clientHardwareAddrChecked.isSome
  request : ∃ m, v.requestChecked = some m ∧ ∀ r, m = some r → r.clientHardwareAddrChecked.isSome
  lease : ∃ m, v.leaseChecked = some m ∧ ∀ l, m = some l → l.clientHardwareAddrChecked.isSome

/-- Every accessor of the view returns. (Those of an ARP packet read its fields.) -/
def View.Returns : View → Prop
  | ethernet v => v.headerChecked.isSome ∧ v.payloadChecked.isSome
  | ipv4 v => v.headerChecked.isSome ∧ v.protocolChecked.isSome ∧ v.isTcpChecked.isSome ∧
      v.isUdpChecked.isSome ∧ v.payloadChecked.isSome
  | arp _ => True
  | tcp v => v.headerChecked.isSome ∧ v.srcPortChecked.isSome ∧ v.dstPortChecked.isSome ∧
      v.isDnsChecked.isSome ∧ v.payloadChecked.isSome
  | udp v => v.headerChecked.isSome ∧ v.srcPortChecked.isSome ∧ v.dstPortChecked.isSome ∧
      v.isDhcpChecked.isSome ∧ v.isDnsChecked.isSome ∧ v.payloadChecked.isSome
  | dns v => v.headerChecked.isSome ∧ v.bodyChecked.isSome
  | dhcp v => v.Returns

theorem DhcpMessage.isSome_clientHardwareAddrChecked (m : DhcpMessage) :
    m.clientHardwareAddrChecked.isSome := by
  rw [clientHardwareAddrChecked, sliceChecked, if_pos ⟨Nat.zero_le _, Nat.min_le_right _ _⟩]
  rfl

namespace DhcpView

variable {v : DhcpView}

theorem isSome_readChecked (hoptions : v.optionsChecked = some v.options) {α : Type*}
    (code : UInt8) (decode : Bytes → Option α) : (v.readChecked code decode).isSome := by
  rw [readChecked, hoptions, Option.bind_some, Options.readChecked_eq]
  rfl

theorem exists_addrs (hoptions : v.optionsChecked = some v.options) (code : UInt8) :
    ∃ bytes addrs, (v.readChecked code some).map (fun value ↦ value.getD []) = some bytes ∧
      Yields Ipv4ListIter.advance bytes addrs := by
  obtain ⟨value, hvalue⟩ := Option.isSome_iff_exists.1 (isSome_readChecked hoptions code some)
  exact ⟨value.getD [], _, by rw [hvalue]; rfl, yields_advance_ipv4List _⟩

theorem exists_message (hheader : v.headerChecked = some v.header)
    (hoptions : v.optionsChecked = some v.options) (kind : MessageType) :
    ∃ m, v.messageChecked kind = some m ∧ ∀ a, m = some a → a.clientHardwareAddrChecked.isSome := by
  have hsome : (v.messageChecked kind).isSome := by
    rw [messageChecked, hheader, hoptions, Option.bind_eq_bind, Option.bind_some,
      Option.bind_eq_bind, Option.bind_some, DhcpMessage.parseChecked, Options.readChecked_eq]
    rfl
  obtain ⟨m, hm⟩ := Option.isSome_iff_exists.1 hsome
  exact ⟨m, hm, fun a _ ↦ a.isSome_clientHardwareAddrChecked⟩

theorem returns (hheader : v.headerChecked = some v.header)
    (hoptions : v.optionsChecked = some v.options) : v.Returns where
  header := by rw [hheader]; rfl
  options := by rw [hoptions]; rfl
  optionsIter options _ := by
    obtain ⟨opts, hopts, -⟩ := OptionsIter.exists_yields_advance options
    exact ⟨opts, hopts⟩
  messageType := isSome_readChecked hoptions _ _
  serverId := isSome_readChecked hoptions _ _
  requestedIp := isSome_readChecked hoptions _ _
  subnetMask := isSome_readChecked hoptions _ _
  leaseTime := isSome_readChecked hoptions _ _
  renewalTime := isSome_readChecked hoptions _ _
  rebindingTime := isSome_readChecked hoptions _ _
  routers := exists_addrs hoptions _
  dnsServers := exists_addrs hoptions _
  offer := exists_message hheader hoptions _
  request := exists_message hheader hoptions _
  lease := exists_message hheader hoptions _

end DhcpView

/-- The accessors of a view whose offsets are in order. -/
theorem View.Valid.returns {frame : Bytes} {v : View} (h : v.Valid frame) : v.Returns := by
  cases v with
  | ethernet v =>
    have hheader : v.headerChecked = some v.header := (h _ rfl).headerAt_eq rfl
    have hpayload : v.payloadChecked = some _ := (h _ rfl).sliceChecked_eq
    simp [View.Returns, hheader, hpayload]
  | ipv4 v =>
    have hheader : v.headerChecked = some v.header := (h _ rfl).headerAt_eq rfl
    have hpayload : v.payloadChecked = some _ := (h _ rfl).sliceChecked_eq
    simp [View.Returns, Ipv4View.isTcpChecked, Ipv4View.isUdpChecked, Ipv4View.protocolChecked,
      hheader, hpayload]
  | arp p => exact trivial
  | tcp v =>
    have hheader : v.headerChecked = some v.header := (h _ rfl).headerAt_eq rfl
    have hpayload : v.payloadChecked = some _ := (h _ rfl).sliceChecked_eq
    simp [View.Returns, TcpView.isDnsChecked, TcpView.srcPortChecked, TcpView.dstPortChecked,
      hheader, hpayload]
  | udp v =>
    have hheader : v.headerChecked = some v.header := (h _ rfl).headerAt_eq rfl
    have hpayload : v.payloadChecked = some _ := (h _ rfl).sliceChecked_eq
    simp [View.Returns, UdpView.isDhcpChecked, UdpView.isDnsChecked, UdpView.srcPortChecked,
      UdpView.dstPortChecked, hheader, hpayload]
  | dns v =>
    have hheader : v.headerChecked = some _ := (h _ rfl).headerAt_eq rfl
    have hbody : v.bodyChecked = some _ := (h _ rfl).sliceChecked_eq
    simp [View.Returns, hheader, hbody]
  | dhcp v => exact v.returns ((h _ rfl).headerAt_eq rfl) (h _ rfl).sliceChecked_eq

/-- **Parsing never panics.** From any bytes, every chain of descents returns; and of every view it
reaches, every accessor returns, every iterator comes to an end, and the offsets are in order and
inside the frame. -/
theorem parsing_never_panics (frame : Bytes) (ds : List Descent) :
    ∃ r, descendFrom frame ds = some r ∧ ∀ v, r = some v → v.Returns ∧
      ∀ e, v.extent = some e →
        e.start ≤ e.payloadStart ∧ e.payloadStart ≤ e.end_ ∧ e.end_ ≤ frame.length := by
  obtain ⟨r, hr, hvalid⟩ := valid_descendFrom frame ds
  refine ⟨r, hr, fun v hv ↦ ⟨(hvalid v hv).returns, fun e he ↦ ?_⟩⟩
  have h := hvalid v hv e he
  exact ⟨h.start_le, h.payload_le, h.end_le⟩

/-! ### Inside the layer that carries it -/

theorem View.fixedLen_pos {v : View} {e : Extent} (h : v.extent = some e) : 0 < e.fixedLen := by
  cases v <;> cases h <;> exact of_decide_eq_true rfl

/-- **Each layer stays inside the one that carries it**, its fixed header and its payload, except
that the fixed header of a DHCP or DNS message has to fit into the payload that carries it. -/
theorem inside_parent_iff {frame : Bytes} {ds : List Descent} {d : Descent} {v w : View}
    {p c : Extent} (hv : descendFrom frame ds = some (some v)) (hw : v.descend d = some (some w))
    (hp : v.extent = some p) (hc : w.extent = some c) :
    (c.header ⊆ p.payload ∧ c.payload ⊆ p.payload) ↔
      (w.isMessage = true → c.fixedLen ≤ p.end_ - p.payloadStart) := by
  obtain ⟨r, hr, hvalid⟩ := valid_descendFrom frame ds
  have hv' := hvalid v (Option.some.inj (hr.symm.trans hv))
  obtain ⟨p', hp', hcarries⟩ := View.descend_carries hv' hw
  obtain rfl := Option.some.inj (hp.symm.trans hp')
  obtain ⟨hcarry, hfits⟩ := hcarries c hc
  have hpos := View.fixedLen_pos hc
  have hpayload : c.payload ⊆ p.payload :=
    Set.Ico_subset_Ico (hcarry.start_eq ▸ hcarry.start_le) hcarry.end_le
  have hheader : c.header ⊆ p.payload ↔ c.start + c.fixedLen ≤ p.end_ := by
    rw [Extent.header, Extent.payload, Set.Ico_subset_Ico_iff (by omega), hcarry.start_eq]
    exact and_iff_right (Nat.le_refl _)
  rw [hheader, and_iff_left hpayload, hcarry.start_eq]
  have hle := (hv' p hp).payload_le
  cases hm : w.isMessage with
  | true =>
    rw [Nat.le_sub_iff_add_le' hle]
    exact ⟨fun h _ ↦ h, fun h ↦ h rfl⟩
  | false =>
    have hin := hfits hm
    rw [hcarry.start_eq] at hin
    exact ⟨fun _ h ↦ absurd h Bool.false_ne_true, fun _ ↦ hin⟩

/-- A datagram for `port` in a frame that is padded with `n` bytes. -/
def paddedDatagram (port udpLen : UInt8) (n : ℕ) : Bytes :=
  List.replicate 12 0 ++ [8, 0] ++
    [0x45, 0, 0, 20 + udpLen, 0, 0, 0, 0, 64, 17, 0, 0, 10, 0, 0, 2, 10, 0, 0, 1] ++
      [0, 40, 0, port, 0, udpLen, 0, 0] ++ List.replicate n 7

/-- A DNS message of twelve bytes, followed by ten bytes of padding. -/
theorem inside_parent_iff_dns :
    ∃ v w p c, descendFrom (paddedDatagram 53 20 22) [.ipv4, .udp] = some (some v) ∧
      v.descend .dns = some (some w) ∧ v.extent = some p ∧ w.extent = some c ∧
      c.header ⊆ p.payload ∧ p.payload = Set.Ico 42 54 := by
  have hv : descendFrom (paddedDatagram 53 20 22) [.ipv4, .udp] =
      some (some (.udp ⟨paddedDatagram 53 20 22, 34, 42, 54⟩)) := rfl
  have hw : (View.udp ⟨paddedDatagram 53 20 22, 34, 42, 54⟩).descend .dns =
      some (some (.dns ⟨paddedDatagram 53 20 22, 42, 54, 54⟩)) := rfl
  have hin := (inside_parent_iff hv hw rfl rfl).2 fun _ ↦ by decide
  exact ⟨_, _, _, _, hv, hw, rfl, rfl, hin.1, rfl⟩

/-- A datagram without a payload, in a frame that is padded to the minimal length: there is a DNS
view, and all of its header is padding. -/
theorem header_in_padding :
    ∃ v w p c, descendFrom (paddedDatagram 53 8 18) [.ipv4, .udp] = some (some v) ∧
      v.descend .dns = some (some w) ∧ v.extent = some p ∧ w.extent = some c ∧
      p.payload = ∅ ∧ ¬c.header ⊆ p.payload := by
  have hv : descendFrom (paddedDatagram 53 8 18) [.ipv4, .udp] =
      some (some (.udp ⟨paddedDatagram 53 8 18, 34, 42, 42⟩)) := rfl
  have hw : (View.udp ⟨paddedDatagram 53 8 18, 34, 42, 42⟩).descend .dns =
      some (some (.dns ⟨paddedDatagram 53 8 18, 42, 42, 42⟩)) := rfl
  have hempty : Set.Ico 42 42 = (∅ : Set ℕ) := Set.Ico_self 42
  refine ⟨_, _, _, _, hv, hw, rfl, rfl, hempty, fun hin ↦ ?_⟩
  have hmem : 42 ∈ Set.Ico 42 42 := hin ⟨by decide, by decide⟩
  rw [hempty] at hmem
  exact hmem

end UserspaceRouter
