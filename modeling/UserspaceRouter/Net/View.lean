import UserspaceRouter.Net.Headers

/-!
# Layered interpretation of a packet buffer

The `*View` types of the parser: each is the buffer together with the offsets its parse validated,
and each descent (`ipv4`, `arp`, `tcp`, `udp`) is a bounds check followed by a reading in place.
A view's `header` reads at the validated offset.

The only facts later modules use about the parser are the two inversion lemmas: `ipv4View_bounds`
for a descent from a frame to its IPv4 packet, and `tcpView_bounds`, `udpView_bounds` for the step
to the transport header. They say where every offset lies, in terms of the buffer's length.
-/

namespace UserspaceRouter

/-! ### Ethernet -/

/-- A view of an Ethernet II frame, with any single 802.1Q VLAN tag resolved. -/
structure EthernetView where
  buf : Bytes
  start : ℕ
  /-- Ethertype after stripping a VLAN tag (the inner type if tagged). -/
  ethertype : UInt16
  /-- Offset where the L3 payload begins. -/
  l3Start : ℕ

/-- A view of an IPv4 packet. `end_` bounds the L4 region. -/
structure Ipv4View where
  buf : Bytes
  start : ℕ
  l4Start : ℕ
  end_ : ℕ

/-- A view of a TCP segment. -/
structure TcpView where
  buf : Bytes
  start : ℕ
  payloadStart : ℕ
  end_ : ℕ

/-- A view of a UDP datagram. `end_` is clamped by the UDP length field. -/
structure UdpView where
  buf : Bytes
  start : ℕ
  payloadStart : ℕ
  end_ : ℕ

namespace EthernetView

/-- The ethertype and offset of the payload, past the VLAN tag of a tagged frame. -/
def l3Of (buf : Bytes) (eth : EthernetHeader) (l3Start : ℕ) : Option (UInt16 × ℕ) :=
  if eth.ethertype = Ethertype.vlan then
    (headerAt VlanTag buf l3Start).map fun tag ↦ (tag.innerEthertype, l3Start + VlanTag.len)
  else
    some (eth.ethertype, l3Start)

def parseAt (buf : Bytes) (start : ℕ) : Option EthernetView := do
  let eth ← headerAt EthernetHeader buf start
  let (ethertype, l3Start) ← l3Of buf eth (start + EthernetHeader.len)
  if l3Start > buf.length then none
  else some { buf, start, ethertype, l3Start }

def parse (buf : Bytes) : Option EthernetView := parseAt buf 0

def header (v : EthernetView) : EthernetHeader := Pod.readAt v.buf v.start

def isIpv4 (v : EthernetView) : Bool := v.ethertype == Ethertype.ipv4

def isArp (v : EthernetView) : Bool := v.ethertype == Ethertype.arp

end EthernetView

/-- Entry point: interpret `buf` as an Ethernet frame. -/
def parse (buf : Bytes) : Option EthernetView := EthernetView.parse buf

/-! ### IPv4 -/

namespace Ipv4View

def parseAt (buf : Bytes) (start : ℕ) : Option Ipv4View := do
  let ip ← headerAt Ipv4Header buf start
  let hlen := ip.headerLen
  if hlen < Ipv4Header.minLen then none
  else
    let l4Start := start + hlen
    if l4Start > buf.length then none
    else
      -- the length declared in the header, or the buffer's end if it is absent or implausible
      let total := ip.totalLen.toNat
      let e := if hlen ≤ total ∧ start + total ≤ buf.length then start + total else buf.length
      some { buf, start, l4Start, end_ := max e l4Start }

def header (v : Ipv4View) : Ipv4Header := Pod.readAt v.buf v.start

def headerOffset (v : Ipv4View) : ℕ := v.start

def protocol (v : Ipv4View) : UInt8 := v.header.protocol

def isTcp (v : Ipv4View) : Bool := v.protocol == Proto.tcp

def isUdp (v : Ipv4View) : Bool := v.protocol == Proto.udp

end Ipv4View

namespace EthernetView

/-- Descend into IPv4 if this frame carries it. -/
def ipv4 (v : EthernetView) : Option Ipv4View :=
  if v.isIpv4 then Ipv4View.parseAt v.buf v.l3Start else none

/-- Interpret the payload as an ARP packet if this frame carries one. -/
def arp (v : EthernetView) : Option ArpPacket :=
  if v.isArp then headerAt ArpPacket v.buf v.l3Start else none

end EthernetView

/-! ### TCP and UDP -/

namespace TcpView

def parseAt (buf : Bytes) (start e : ℕ) : Option TcpView := do
  let tcp ← headerAt TcpHeader buf start
  let hlen := tcp.headerLen
  if hlen < TcpHeader.minLen then none
  else
    let payloadStart := start + hlen
    if payloadStart > e ∨ payloadStart > buf.length then none
    else some { buf, start, payloadStart, end_ := e }

def header (v : TcpView) : TcpHeader := Pod.readAt v.buf v.start

def headerOffset (v : TcpView) : ℕ := v.start

def srcPort (v : TcpView) : UInt16 := v.header.srcPort

def dstPort (v : TcpView) : UInt16 := v.header.dstPort

end TcpView

namespace UdpView

def parseAt (buf : Bytes) (start e : ℕ) : Option UdpView := do
  let udp ← headerAt UdpHeader buf start
  let payloadStart := start + UdpHeader.len
  if payloadStart > e ∨ payloadStart > buf.length then none
  else
    -- the UDP length when it is sane, else the IP-derived end
    let declared := udp.length.toNat
    let e' := if UdpHeader.len ≤ declared ∧ start + declared ≤ e then start + declared else e
    some { buf, start, payloadStart, end_ := max e' payloadStart }

def header (v : UdpView) : UdpHeader := Pod.readAt v.buf v.start

def headerOffset (v : UdpView) : ℕ := v.start

def srcPort (v : UdpView) : UInt16 := v.header.srcPort

def dstPort (v : UdpView) : UInt16 := v.header.dstPort

end UdpView

namespace Ipv4View

def tcp (v : Ipv4View) : Option TcpView :=
  if v.isTcp then TcpView.parseAt v.buf v.l4Start v.end_ else none

def udp (v : Ipv4View) : Option UdpView :=
  if v.isUdp then UdpView.parseAt v.buf v.l4Start v.end_ else none

end Ipv4View

/-! ### Where the offsets lie -/

/-- What a successful descent from a frame to its IPv4 packet validates. The header length is the
one the header itself declares. -/
structure Ipv4View.Bounds (frame : Bytes) (v : Ipv4View) : Prop where
  buf_eq : v.buf = frame
  eth_le : EthernetHeader.len ≤ v.start
  hlen_ge : Ipv4Header.minLen ≤ v.header.headerLen
  l4Start_eq : v.l4Start = v.start + v.header.headerLen
  l4Start_le : v.l4Start ≤ v.end_
  end_le : v.end_ ≤ frame.length

theorem EthernetView.bounds_of_parse {frame : Bytes} {eth : EthernetView}
    (h : parse frame = some eth) :
    eth.buf = frame ∧ eth.start = 0 ∧ EthernetHeader.len ≤ eth.l3Start ∧
      eth.l3Start ≤ frame.length := by
  simp only [parse, EthernetView.parse, EthernetView.parseAt, Option.bind_eq_bind,
    Option.bind_eq_some_iff] at h
  obtain ⟨eh, -, ⟨ty, l3⟩, hl3, h⟩ := h
  have hle : EthernetHeader.len ≤ l3 := by
    unfold l3Of at hl3
    split_ifs at hl3
    · obtain ⟨tag, -, htag⟩ := Option.map_eq_some_iff.1 hl3
      obtain ⟨-, rfl⟩ := Prod.mk.inj htag
      omega
    · obtain ⟨-, rfl⟩ := Prod.mk.inj (Option.some.inj hl3)
      omega
  split_ifs at h with hlen
  obtain rfl := Option.some.inj h
  exact ⟨rfl, rfl, hle, Nat.le_of_not_lt hlen⟩

/-- The inversion of a descent to IPv4. -/
theorem ipv4View_bounds {frame : Bytes} {eth : EthernetView} {ip : Ipv4View}
    (h : parse frame = some eth) (hip : eth.ipv4 = some ip) : ip.Bounds frame := by
  obtain ⟨hbuf, -, hl3, -⟩ := EthernetView.bounds_of_parse h
  unfold EthernetView.ipv4 at hip
  split_ifs at hip
  simp only [Ipv4View.parseAt, Option.bind_eq_bind, Option.bind_eq_some_iff] at hip
  obtain ⟨ih, hih, hip⟩ := hip
  obtain ⟨-, rfl⟩ := headerAt_eq_some_iff.1 hih
  split_ifs at hip with h₁ h₂ <;> obtain rfl := Option.some.inj hip <;>
    refine ⟨hbuf, hl3, Nat.le_of_not_lt h₁, rfl, Nat.le_max_right _ _, ?_⟩ <;>
    rw [hbuf] at * <;> simp only [Nat.max_le] <;> omega

theorem Ipv4View.start_of_parseAt {buf : Bytes} {start : ℕ} {ip : Ipv4View}
    (h : Ipv4View.parseAt buf start = some ip) : ip.start = start := by
  simp only [Ipv4View.parseAt, Option.bind_eq_bind, Option.bind_eq_some_iff] at h
  obtain ⟨ih, -, h⟩ := h
  split_ifs at h <;> obtain rfl := Option.some.inj h <;> rfl

/-- The inversion of a descent to TCP: the fixed header lies inside the L4 region. -/
theorem tcpView_bounds {frame : Bytes} {ip : Ipv4View} {t : TcpView} (hip : ip.Bounds frame)
    (h : ip.tcp = some t) :
    t.buf = frame ∧ t.start = ip.l4Start ∧ t.end_ = ip.end_ ∧
      t.start + TcpHeader.minLen ≤ t.end_ := by
  unfold Ipv4View.tcp at h
  split_ifs at h
  simp only [TcpView.parseAt, Option.bind_eq_bind, Option.bind_eq_some_iff] at h
  obtain ⟨th, -, h⟩ := h
  split_ifs at h with h₁ h₂
  obtain rfl := Option.some.inj h
  refine ⟨hip.buf_eq, rfl, rfl, ?_⟩
  show ip.l4Start + TcpHeader.minLen ≤ ip.end_
  omega

/-- The inversion of a descent to UDP. -/
theorem udpView_bounds {frame : Bytes} {ip : Ipv4View} {u : UdpView} (hip : ip.Bounds frame)
    (h : ip.udp = some u) :
    u.buf = frame ∧ u.start = ip.l4Start ∧ u.start + UdpHeader.len ≤ u.end_ ∧
      u.end_ ≤ ip.end_ := by
  unfold Ipv4View.udp at h
  split_ifs at h
  simp only [UdpView.parseAt, Option.bind_eq_bind, Option.bind_eq_some_iff] at h
  obtain ⟨uh, -, h⟩ := h
  split_ifs at h with h₁ h₂ <;> obtain rfl := Option.some.inj h <;>
    refine ⟨hip.buf_eq, rfl, Nat.le_max_right _ _, ?_⟩ <;>
    simp only [Nat.max_le] <;> omega

/-! ### What a parse depends on

A rewrite of a packet in place keeps every view at its offsets, as long as it leaves alone the few
bytes the parse reads: the headers below the IPv4 header, and in the IPv4, TCP and UDP headers the
lengths and the protocol. -/

section Congr

variable {frame frame' : Bytes}

theorem MacAddr.readAt_congr {off : ℕ}
    (h : ∀ i, off ≤ i → i < off + 6 → byteAt frame i = byteAt frame' i) :
    MacAddr.readAt frame off = MacAddr.readAt frame' off := by
  rw [MacAddr.readAt, MacAddr.readAt, h off (by omega) (by omega),
    h (off + 1) (by omega) (by omega), h (off + 2) (by omega) (by omega),
    h (off + 3) (by omega) (by omega), h (off + 4) (by omega) (by omega),
    h (off + 5) (by omega) (by omega)]

/-- Frames of one length that agree below the L3 payload parse alike. -/
theorem EthernetView.parse_congr {eth : EthernetView} (hlen : frame'.length = frame.length)
    (hparse : UserspaceRouter.parse frame = some eth)
    (h : ∀ i, i < eth.l3Start → byteAt frame i = byteAt frame' i) :
    UserspaceRouter.parse frame' = some { eth with buf := frame' } := by
  simp only [UserspaceRouter.parse, EthernetView.parse, EthernetView.parseAt, Option.bind_eq_bind,
    Option.bind_eq_some_iff] at hparse ⊢
  obtain ⟨eh, heh, ⟨ty, l3⟩, hl3, hfit⟩ := hparse
  obtain ⟨hsize, hread⟩ := headerAt_eq_some_iff.1 heh
  split_ifs at hfit with hle
  obtain rfl := Option.some.inj hfit
  have hagree : ∀ i, i < l3 → byteAt frame i = byteAt frame' i := h
  -- the payload starts behind the Ethernet header, and behind the VLAN tag if there is one
  have hl3' : l3Of frame' eh (0 + EthernetHeader.len) = some (ty, l3) ∧ 14 ≤ l3 := by
    unfold l3Of at hl3 ⊢
    split_ifs at hl3 ⊢ with hvlan
    · obtain ⟨tag, htag, hpair⟩ := Option.map_eq_some_iff.1 hl3
      obtain ⟨hty, rfl⟩ := Prod.mk.inj hpair
      obtain ⟨htsize, htread⟩ := headerAt_eq_some_iff.1 htag
      refine ⟨Option.map_eq_some_iff.2 ⟨tag, headerAt_eq_some_iff.2 ⟨hlen ▸ htsize, ?_⟩, hpair⟩,
        by decide⟩
      rw [← htread]
      have htagged : ∀ i, i < 18 → byteAt frame i = byteAt frame' i := hagree
      show VlanTag.mk (u16At frame' 14) (u16At frame' 16) =
        VlanTag.mk (u16At frame 14) (u16At frame 16)
      rw [u16At_congr fun i _ hi ↦ (htagged i (by omega)).symm,
        u16At_congr fun i _ hi ↦ (htagged i (by omega)).symm]
    · obtain ⟨rfl, rfl⟩ := Prod.mk.inj (Option.some.inj hl3)
      exact ⟨rfl, by decide⟩
  refine ⟨eh, headerAt_eq_some_iff.2 ⟨hlen ▸ hsize, ?_⟩, (ty, l3), hl3'.1, ?_⟩
  · rw [← hread]
    show EthernetHeader.mk _ _ _ = EthernetHeader.mk _ _ _
    rw [MacAddr.readAt_congr fun i _ hi ↦ (hagree i (by omega)).symm,
      MacAddr.readAt_congr fun i _ hi ↦ (hagree i (by omega)).symm,
      u16At_congr fun i _ hi ↦ (hagree i (by omega)).symm]
  · rw [if_neg (by rwa [hlen])]

/-- IPv4 packets that agree on header length and total length parse alike. -/
theorem Ipv4View.parseAt_congr {start : ℕ} {ip : Ipv4View} (hlen : frame'.length = frame.length)
    (hparse : Ipv4View.parseAt frame start = some ip)
    (hihl : byteAt frame' start = byteAt frame start)
    (htotal : u16At frame' (start + 2) = u16At frame (start + 2)) :
    Ipv4View.parseAt frame' start = some { ip with buf := frame' } := by
  simp only [Ipv4View.parseAt, Option.bind_eq_bind, Option.bind_eq_some_iff] at hparse ⊢
  obtain ⟨ih, hih, hrest⟩ := hparse
  obtain ⟨hsize, rfl⟩ := headerAt_eq_some_iff.1 hih
  refine ⟨Pod.readAt frame' start, headerAt_eq_some_iff.2 ⟨hlen ▸ hsize, rfl⟩, ?_⟩
  have hh : (Pod.readAt frame' start : Ipv4Header).headerLen =
      (Pod.readAt frame start : Ipv4Header).headerLen := by
    show (byteAt frame' start &&& 0x0f).toNat * 4 = (byteAt frame start &&& 0x0f).toNat * 4
    rw [hihl]
  have ht : (Pod.readAt frame' start : Ipv4Header).totalLen =
      (Pod.readAt frame start : Ipv4Header).totalLen := htotal
  rw [hh, ht, hlen]
  split_ifs at hrest ⊢ with h₁ h₂ h₃ <;> obtain rfl := Option.some.inj hrest <;> rfl

/-- TCP segments that agree on the data offset parse alike. -/
theorem TcpView.parseAt_congr {start e : ℕ} {t : TcpView} (hlen : frame'.length = frame.length)
    (hparse : TcpView.parseAt frame start e = some t)
    (hoff : byteAt frame' (start + 12) = byteAt frame (start + 12)) :
    TcpView.parseAt frame' start e = some { t with buf := frame' } := by
  simp only [TcpView.parseAt, Option.bind_eq_bind, Option.bind_eq_some_iff] at hparse ⊢
  obtain ⟨th, hth, hrest⟩ := hparse
  obtain ⟨hsize, rfl⟩ := headerAt_eq_some_iff.1 hth
  refine ⟨Pod.readAt frame' start, headerAt_eq_some_iff.2 ⟨hlen ▸ hsize, rfl⟩, ?_⟩
  have hh : (Pod.readAt frame' start : TcpHeader).headerLen =
      (Pod.readAt frame start : TcpHeader).headerLen := by
    show (byteAt frame' (start + 12) >>> 4).toNat * 4 = (byteAt frame (start + 12) >>> 4).toNat * 4
    rw [hoff]
  rw [hh, hlen]
  split_ifs at hrest ⊢ with h₁ h₂
  obtain rfl := Option.some.inj hrest
  rfl

/-- UDP datagrams that agree on the length field parse alike. -/
theorem UdpView.parseAt_congr {start e : ℕ} {u : UdpView} (hlen : frame'.length = frame.length)
    (hparse : UdpView.parseAt frame start e = some u)
    (hfield : u16At frame' (start + 4) = u16At frame (start + 4)) :
    UdpView.parseAt frame' start e = some { u with buf := frame' } := by
  simp only [UdpView.parseAt, Option.bind_eq_bind, Option.bind_eq_some_iff] at hparse ⊢
  obtain ⟨uh, huh, hrest⟩ := hparse
  obtain ⟨hsize, rfl⟩ := headerAt_eq_some_iff.1 huh
  refine ⟨Pod.readAt frame' start, headerAt_eq_some_iff.2 ⟨hlen ▸ hsize, rfl⟩, ?_⟩
  have hf : (Pod.readAt frame' start : UdpHeader).length =
      (Pod.readAt frame start : UdpHeader).length := hfield
  rw [hf, hlen]
  split_ifs at hrest ⊢ with h₁ h₂ <;> obtain rfl := Option.some.inj hrest <;> rfl

end Congr

end UserspaceRouter
