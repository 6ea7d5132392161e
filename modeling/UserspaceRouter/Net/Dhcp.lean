import UserspaceRouter.Net.View

/-!
# DHCP messages

The fixed BOOTP header and the options behind it. Options are read by an iterator that skips
padding, stops at the end marker, and stops as well at an option whose length byte is missing or
runs past the buffer; every typed getter is a scan for the first option of its code.
-/

namespace UserspaceRouter

/-! ### The header -/

/-- The fixed 240-byte DHCPv4 header, without its server name and boot file. -/
structure DhcpHeader where
  op : UInt8
  htype : UInt8
  hlen : UInt8
  hops : UInt8
  xid : UInt32
  secs : UInt16
  flags : UInt16
  ciaddr : Ipv4Addr
  yiaddr : Ipv4Addr
  siaddr : Ipv4Addr
  giaddr : Ipv4Addr
  /-- Client hardware address, 16 bytes. -/
  chaddr : Bytes
  magicCookie : UInt32

namespace DhcpHeader

/-- `DhcpHeader::LEN`. -/
def len : ℕ := 240

instance : Pod DhcpHeader where
  size := len
  readAt buf off :=
    { op := byteAt buf off
      htype := byteAt buf (off + 1)
      hlen := byteAt buf (off + 2)
      hops := byteAt buf (off + 3)
      xid := u32At buf (off + 4)
      secs := u16At buf (off + 8)
      flags := u16At buf (off + 10)
      ciaddr := u32At buf (off + 12)
      yiaddr := u32At buf (off + 16)
      siaddr := u32At buf (off + 20)
      giaddr := u32At buf (off + 24)
      chaddr := slice buf (off + 28) (off + 44)
      magicCookie := u32At buf (off + 236) }

/-- `BROADCAST_FLAG`: the top bit of the flags. -/
def broadcastFlag : UInt16 := 0x8000

def broadcast (h : DhcpHeader) : Bool := h.flags &&& broadcastFlag != 0

def clientIp (h : DhcpHeader) : Ipv4Addr := h.ciaddr

def yourIp (h : DhcpHeader) : Ipv4Addr := h.yiaddr

/-- `client_mac`: the first six bytes of `chaddr` as a MAC. -/
def clientMac (h : DhcpHeader) : MacAddr := .readAt h.chaddr 0

end DhcpHeader

/-! ### Options -/

namespace DhcpOption

def pad : UInt8 := 0
def subnetMask : UInt8 := 1
def router : UInt8 := 3
def requestedIp : UInt8 := 50
def leaseTime : UInt8 := 51
def messageType : UInt8 := 53
def serverId : UInt8 := 54
def end_ : UInt8 := 255

end DhcpOption

/-- `OptionsIter::next`: the next option, and the bytes behind it. -/
def OptionsIter.next : Bytes → Option ((UInt8 × Bytes) × Bytes)
  | [] => none
  | code :: rest =>
    if code = DhcpOption.pad then OptionsIter.next rest
    else if code = DhcpOption.end_ then none
    else
      match rest with
      | [] => none
      | len :: rest =>
        if rest.length < len.toNat then none
        else some ((code, rest.take len.toNat), rest.drop len.toNat)

/-- The iterator consumes at least one byte per option. -/
theorem OptionsIter.length_next {buf tail : Bytes} {o : UInt8 × Bytes}
    (h : OptionsIter.next buf = some (o, tail)) : tail.length < buf.length := by
  induction buf with
  | nil => exact absurd h (by simp [OptionsIter.next])
  | cons code rest ih =>
    rw [OptionsIter.next.eq_def] at h
    simp only at h
    split_ifs at h with hpad hend
    · exact Nat.lt_succ_of_lt (ih h)
    · rcases rest with - | ⟨n, rest⟩
      · exact absurd h (by simp)
      · simp only at h
        split_ifs at h with hlen
        obtain ⟨-, rfl⟩ := Prod.mk.inj (Option.some.inj h)
        simp only [List.length_drop, List.length_cons]
        omega

namespace Options

/-- First value for `code`, if present. -/
def get (bytes : Bytes) (code : UInt8) : Option Bytes :=
  match _h : OptionsIter.next bytes with
  | none => none
  | some ((c, v), tail) => if c = code then some v else get tail code
termination_by bytes.length
decreasing_by exact OptionsIter.length_next _h

/-- `opt_ipv4`: a value of exactly four bytes, as an address. -/
def optIpv4 : Bytes → Option Ipv4Addr
  | [a, b, c, d] => some (u32FromBeBytes a b c d)
  | _ => none

/-- `opt_seconds`: a value of exactly four bytes, as a number of seconds. -/
def optSeconds : Bytes → Option UInt32
  | [a, b, c, d] => some (u32FromBeBytes a b c d)
  | _ => none

/-- `Ipv4ListIter`: the addresses of a concatenated list; up to three bytes left over are
ignored. -/
def ipv4List : Bytes → List Ipv4Addr
  | a :: b :: c :: d :: tail => u32FromBeBytes a b c d :: ipv4List tail
  | _ => []

end Options

/-- The DHCP message type (option 53), as a closed set. -/
inductive MessageType
  | discover
  | offer
  | request
  | decline
  | ack
  | nak
  | release
  | inform
deriving DecidableEq, Repr

/-- Map the option-53 byte to a variant. -/
def MessageType.fromU8 (v : UInt8) : Option MessageType :=
  if v = 1 then some discover
  else if v = 2 then some offer
  else if v = 3 then some request
  else if v = 4 then some decline
  else if v = 5 then some ack
  else if v = 6 then some nak
  else if v = 7 then some release
  else if v = 8 then some inform
  else none

namespace Options

def messageType (bytes : Bytes) : Option MessageType := do
  let v ← get bytes DhcpOption.messageType
  MessageType.fromU8 (← v.head?)

def serverId (bytes : Bytes) : Option Ipv4Addr := do
  optIpv4 (← get bytes DhcpOption.serverId)

def requestedIp (bytes : Bytes) : Option Ipv4Addr := do
  optIpv4 (← get bytes DhcpOption.requestedIp)

def subnetMask (bytes : Bytes) : Option Ipv4Addr := do
  optIpv4 (← get bytes DhcpOption.subnetMask)

def leaseTime (bytes : Bytes) : Option UInt32 := do
  optSeconds (← get bytes DhcpOption.leaseTime)

/-- Default gateways. -/
def routers (bytes : Bytes) : List Ipv4Addr :=
  ipv4List ((get bytes DhcpOption.router).getD [])

end Options

/-! ### The view -/

/-- A view of a DHCPv4 message: the fixed header plus its options region. -/
structure DhcpView where
  buf : Bytes
  start : ℕ
  optionsStart : ℕ
  end_ : ℕ

namespace DhcpView

def parseAt (buf : Bytes) (start e : ℕ) : Option DhcpView := do
  let _ ← headerAt DhcpHeader buf start
  some { buf, start, optionsStart := min (start + DhcpHeader.len) e, end_ := e }

def header (v : DhcpView) : DhcpHeader := Pod.readAt v.buf v.start

/-- Raw options bytes. -/
def options (v : DhcpView) : Bytes := slice v.buf v.optionsStart v.end_

def messageType (v : DhcpView) : Option MessageType := Options.messageType v.options

end DhcpView

namespace UdpView

/-- True if either endpoint is a DHCP/BOOTP port. -/
def isDhcp (v : UdpView) : Bool :=
  let isBootp (p : UInt16) : Bool := p == 67 || p == 68
  isBootp v.srcPort || isBootp v.dstPort

def dhcp (v : UdpView) : Option DhcpView :=
  if v.isDhcp then DhcpView.parseAt v.buf v.payloadStart v.end_ else none

end UdpView

/-- The DHCP message a frame carries, if it carries one. -/
def parseDhcp (frame : Bytes) : Option DhcpView := do
  let eth ← parse frame
  let ip ← eth.ipv4
  let udp ← ip.udp
  udp.dhcp

end UserspaceRouter
