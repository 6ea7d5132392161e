import UserspaceRouter.Net.Wire

/-!
# The fixed headers: Ethernet, IPv4, TCP, UDP and ARP

Each header is the record of its fields in wire order, read from a buffer at the offsets its
`#[repr(C)]` layout fixes. Fields that pack several values in one byte (version and header length,
data offset and reserved bits) are kept packed, and unpacked by the accessors the code uses.
-/

namespace UserspaceRouter

/-- An IPv4 address, as the big-endian number of its four octets: this is the order `Ipv4Addr`
compares by. -/
abbrev Ipv4Addr := UInt32

/-- `Ipv4Addr::UNSPECIFIED`, `0.0.0.0`. -/
def Ipv4Addr.unspecified : Ipv4Addr := 0

/-- `Ipv4Addr::octets`. -/
abbrev Ipv4Addr.octets (a : Ipv4Addr) : Bytes := u32ToBeBytes a

/-- The bytes of an address field are the octets of its value. -/
theorem slice_eq_octets {buf : Bytes} {off : ℕ} (h : off + 4 ≤ buf.length) :
    slice buf off (off + 4) = Ipv4Addr.octets (u32At buf off) :=
  slice_eq_u32ToBeBytes h

/-- A 48-bit MAC address, octet by octet. -/
structure MacAddr where
  o₀ : UInt8
  o₁ : UInt8
  o₂ : UInt8
  o₃ : UInt8
  o₄ : UInt8
  o₅ : UInt8
deriving DecidableEq, Repr

namespace MacAddr

/-- All-ones destination MAC: the Ethernet broadcast address. -/
def broadcast : MacAddr := ⟨0xff, 0xff, 0xff, 0xff, 0xff, 0xff⟩

/-- The all-zero MAC, `UNKNOWN_HARDWARE_ADDR`: the target hardware address of an ARP request. -/
def zero : MacAddr := ⟨0, 0, 0, 0, 0, 0⟩

/-- The octets in transmission order. -/
def octets (m : MacAddr) : Bytes := [m.o₀, m.o₁, m.o₂, m.o₃, m.o₄, m.o₅]

/-- The MAC whose first octet is at `off`. -/
def readAt (buf : Bytes) (off : ℕ) : MacAddr :=
  ⟨byteAt buf off, byteAt buf (off + 1), byteAt buf (off + 2), byteAt buf (off + 3),
    byteAt buf (off + 4), byteAt buf (off + 5)⟩

end MacAddr

/-! ### Ethernet -/

namespace Ethertype

def ipv4 : UInt16 := 0x0800
def arp : UInt16 := 0x0806
def vlan : UInt16 := 0x8100

end Ethertype

/-- Ethernet II header: `dst | src | ethertype`. -/
structure EthernetHeader where
  dst : MacAddr
  src : MacAddr
  ethertype : UInt16
deriving DecidableEq, Repr

namespace EthernetHeader

/-- `EthernetHeader::LEN`. -/
def len : ℕ := 14

instance : Pod EthernetHeader where
  size := len
  readAt buf off := ⟨.readAt buf off, .readAt buf (off + 6), u16At buf (off + 12)⟩

def isBroadcast (h : EthernetHeader) : Bool := h.dst == MacAddr.broadcast

end EthernetHeader

/-- 802.1Q VLAN tag, between `src` and the inner ethertype. -/
structure VlanTag where
  tci : UInt16
  innerEthertype : UInt16

namespace VlanTag

/-- `VlanTag::LEN`. -/
def len : ℕ := 4

instance : Pod VlanTag where
  size := len
  readAt buf off := ⟨u16At buf off, u16At buf (off + 2)⟩

end VlanTag

/-! ### IPv4 -/

namespace Proto

def tcp : UInt8 := 6
def udp : UInt8 := 17

end Proto

/-- Fixed 20-byte IPv4 header. -/
structure Ipv4Header where
  versionIhl : UInt8
  dscpEcn : UInt8
  totalLen : UInt16
  identification : UInt16
  flagsFragment : UInt16
  ttl : UInt8
  protocol : UInt8
  checksum : UInt16
  src : Ipv4Addr
  dst : Ipv4Addr

namespace Ipv4Header

/-- `Ipv4Header::MIN_LEN`: the fixed header, without options. -/
def minLen : ℕ := 20

instance : Pod Ipv4Header where
  size := minLen
  readAt buf off :=
    { versionIhl := byteAt buf off
      dscpEcn := byteAt buf (off + 1)
      totalLen := u16At buf (off + 2)
      identification := u16At buf (off + 4)
      flagsFragment := u16At buf (off + 6)
      ttl := byteAt buf (off + 8)
      protocol := byteAt buf (off + 9)
      checksum := u16At buf (off + 10)
      src := u32At buf (off + 12)
      dst := u32At buf (off + 16) }

/-- Internet Header Length, in 32-bit words. -/
def ihl (h : Ipv4Header) : UInt8 := h.versionIhl &&& 0x0f

/-- Total header length in bytes; where the L4 payload begins. -/
def headerLen (h : Ipv4Header) : ℕ := h.ihl.toNat * 4

/-- Fragment offset in 8-byte units. -/
def fragmentOffset (h : Ipv4Header) : UInt16 := h.flagsFragment &&& 0x1fff

end Ipv4Header

/-! ### TCP and UDP -/

namespace TcpFlag

def fin : UInt8 := 0x01
def syn : UInt8 := 0x02
def rst : UInt8 := 0x04
def ack : UInt8 := 0x10

/-- `flags & f != 0`. -/
def isSet (flags f : UInt8) : Bool := flags &&& f != 0

end TcpFlag

/-- Fixed 20-byte TCP header. -/
structure TcpHeader where
  srcPort : UInt16
  dstPort : UInt16
  seq : UInt32
  ack : UInt32
  dataOffsetReserved : UInt8
  flags : UInt8
  window : UInt16
  checksum : UInt16
  urgentPtr : UInt16

namespace TcpHeader

/-- `TcpHeader::MIN_LEN`. -/
def minLen : ℕ := 20

instance : Pod TcpHeader where
  size := minLen
  readAt buf off :=
    { srcPort := u16At buf off
      dstPort := u16At buf (off + 2)
      seq := u32At buf (off + 4)
      ack := u32At buf (off + 8)
      dataOffsetReserved := byteAt buf (off + 12)
      flags := byteAt buf (off + 13)
      window := u16At buf (off + 14)
      checksum := u16At buf (off + 16)
      urgentPtr := u16At buf (off + 18) }

/-- Data offset in 32-bit words. -/
def dataOffset (h : TcpHeader) : UInt8 := h.dataOffsetReserved >>> 4

/-- Header length in bytes; where the payload begins. -/
def headerLen (h : TcpHeader) : ℕ := h.dataOffset.toNat * 4

end TcpHeader

/-- Fixed 8-byte UDP header. -/
structure UdpHeader where
  srcPort : UInt16
  dstPort : UInt16
  length : UInt16
  checksum : UInt16

namespace UdpHeader

/-- `UdpHeader::LEN`. -/
def len : ℕ := 8

instance : Pod UdpHeader where
  size := len
  readAt buf off := ⟨u16At buf off, u16At buf (off + 2), u16At buf (off + 4), u16At buf (off + 6)⟩

end UdpHeader

/-! ### ARP -/

/-- ARP packet, fixed at 28 bytes for 6-byte MACs and 4-byte IPv4 addresses. -/
structure ArpPacket where
  htype : UInt16
  ptype : UInt16
  hlen : UInt8
  plen : UInt8
  oper : UInt16
  /-- Sender hardware address. -/
  sha : MacAddr
  /-- Sender protocol address. -/
  senderIp : Ipv4Addr
  /-- Target hardware address. -/
  tha : MacAddr
  /-- Target protocol address. -/
  targetIp : Ipv4Addr
deriving DecidableEq, Repr

namespace ArpPacket

/-- `ArpPacket::LEN`. -/
def len : ℕ := 28

instance : Pod ArpPacket where
  size := len
  readAt buf off :=
    { htype := u16At buf off
      ptype := u16At buf (off + 2)
      hlen := byteAt buf (off + 4)
      plen := byteAt buf (off + 5)
      oper := u16At buf (off + 6)
      sha := .readAt buf (off + 8)
      senderIp := u32At buf (off + 14)
      tha := .readAt buf (off + 18)
      targetIp := u32At buf (off + 24) }

/-- `oper::REQUEST`. -/
def request : UInt16 := 1

/-- `oper::REPLY`. -/
def reply : UInt16 := 2

def isRequest (a : ArpPacket) : Bool := a.oper == request

def isReply (a : ArpPacket) : Bool := a.oper == reply

end ArpPacket

end UserspaceRouter
