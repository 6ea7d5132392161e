import Mathlib.Tactic.Set
import UserspaceRouter.Net.View

/-!
# ARP frames

The two frames the router builds, a broadcast request and a unicast reply. A builder writes into the
caller's buffer and fails if the frame does not fit; here it returns the bytes it writes.

What is built reads back as the packet that was meant (`parseArp_frame`), whatever follows it in the
buffer.
-/

namespace UserspaceRouter

namespace ArpPacket

/-- Total length of an Ethernet-framed ARP message. -/
def frameLen : ℕ := EthernetHeader.len + len

/-- `init_ethernet_ipv4` and the address setters: a well-formed Ethernet/IPv4 packet. -/
def mk' (oper : UInt16) (sha : MacAddr) (senderIp : Ipv4Addr) (tha : MacAddr)
    (targetIp : Ipv4Addr) : ArpPacket :=
  ⟨1, 0x0800, 6, 4, oper, sha, senderIp, tha, targetIp⟩

/-- The 28 bytes of a packet. -/
def octets (a : ArpPacket) : Bytes :=
  u16ToBeBytes a.htype ++ u16ToBeBytes a.ptype ++ [a.hlen, a.plen] ++ u16ToBeBytes a.oper ++
    a.sha.octets ++ a.senderIp.octets ++ a.tha.octets ++ a.targetIp.octets

/-- The packet in an untagged Ethernet frame. -/
def frame (dst src : MacAddr) (a : ArpPacket) : Bytes :=
  dst.octets ++ src.octets ++ u16ToBeBytes Ethertype.arp ++ a.octets

/-- A "who has `targetIp`?" broadcast request. -/
def buildRequest (bufLen : ℕ) (senderMac : MacAddr) (senderIp targetIp : Ipv4Addr) : Option Bytes :=
  if bufLen < frameLen then none
  else
    some (frame .broadcast senderMac (mk' request senderMac senderIp .zero targetIp))

/-- A unicast reply "`senderIp` is at `senderMac`", addressed to the requester. -/
def buildReply (bufLen : ℕ) (senderMac : MacAddr) (senderIp : Ipv4Addr) (targetMac : MacAddr)
    (targetIp : Ipv4Addr) : Option Bytes :=
  if bufLen < frameLen then none
  else some (frame targetMac senderMac (mk' reply senderMac senderIp targetMac targetIp))

end ArpPacket

/-- The Ethernet header and ARP packet of a frame, if it carries one. -/
def parseArp (frame : Bytes) : Option (EthernetHeader × ArpPacket) := do
  let eth ← parse frame
  let arp ← eth.arp
  some (eth.header, arp)

theorem length_frame (dst src : MacAddr) (a : ArpPacket) :
    (ArpPacket.frame dst src a).length = ArpPacket.frameLen := rfl

theorem readAt_ethernet_frame (dst src : MacAddr) (a : ArpPacket) (rest : Bytes) :
    (Pod.readAt (ArpPacket.frame dst src a ++ rest) 0 : EthernetHeader) =
      ⟨dst, src, Ethertype.arp⟩ := by
  have htype : u16At (ArpPacket.frame dst src a ++ rest) (0 + 12) = Ethertype.arp :=
    u16FromBeBytes_toBeBytes Ethertype.arp
  show EthernetHeader.mk dst src (u16At _ (0 + 12)) = _
  rw [htype]

theorem readAt_arp_frame (dst src : MacAddr) (a : ArpPacket) (rest : Bytes) :
    (Pod.readAt (ArpPacket.frame dst src a ++ rest) EthernetHeader.len : ArpPacket) = a := by
  have hskip : EthernetHeader.len = 14 := rfl
  have hmac : ∀ m : MacAddr, m.octets.length = 6 := fun _ ↦ rfl
  simp (disch := simp -implicitDefEqProofs [hmac]) only [Pod.readAt, ArpPacket.frame,
    ArpPacket.octets, MacAddr.readAt, hskip, List.append_assoc, byteAt_append_right,
    u16At_append_right, u32At_append_right, hmac, length_u16ToBeBytes, length_u32ToBeBytes,
    List.length_cons, List.length_nil, u16At_toBeBytes, u32At_toBeBytes, Nat.reduceAdd,
    Nat.reduceSub]
  rfl

/-- **What is built reads back.** -/
theorem parseArp_frame (dst src : MacAddr) (a : ArpPacket) (rest : Bytes) :
    parseArp (ArpPacket.frame dst src a ++ rest) = some (⟨dst, src, Ethertype.arp⟩, a) := by
  have hlen : (ArpPacket.frame dst src a ++ rest).length = 42 + rest.length := by
    rw [List.length_append, length_frame]
    rfl
  have heth : headerAt EthernetHeader (ArpPacket.frame dst src a ++ rest) 0 =
      some ⟨dst, src, Ethertype.arp⟩ := by
    refine headerAt_eq_some_iff.2 ⟨?_, readAt_ethernet_frame dst src a rest⟩
    rw [hlen]
    show 14 ≤ 42 + rest.length
    omega
  have harp : headerAt ArpPacket (ArpPacket.frame dst src a ++ rest) EthernetHeader.len =
      some a := by
    refine headerAt_eq_some_iff.2 ⟨?_, readAt_arp_frame dst src a rest⟩
    rw [hlen]
    show 42 ≤ 42 + rest.length
    omega
  have hparse : parse (ArpPacket.frame dst src a ++ rest) =
      some ⟨ArpPacket.frame dst src a ++ rest, 0, Ethertype.arp, EthernetHeader.len⟩ := by
    have hnot : ¬EthernetHeader.len > (ArpPacket.frame dst src a ++ rest).length := by
      rw [hlen]
      show ¬14 > 42 + rest.length
      omega
    have hl3 : EthernetView.l3Of (ArpPacket.frame dst src a ++ rest) ⟨dst, src, Ethertype.arp⟩
        (0 + EthernetHeader.len) = some (Ethertype.arp, EthernetHeader.len) := rfl
    simp only [parse, EthernetView.parse, EthernetView.parseAt, heth, Option.bind_eq_bind,
      Option.bind_some, hl3, if_neg hnot]
  rw [parseArp, hparse]
  show ((headerAt ArpPacket (ArpPacket.frame dst src a ++ rest) EthernetHeader.len).bind fun arp ↦
    some ((Pod.readAt (ArpPacket.frame dst src a ++ rest) 0 : EthernetHeader), arp)) = _
  rw [harp, readAt_ethernet_frame]
  rfl

end UserspaceRouter
