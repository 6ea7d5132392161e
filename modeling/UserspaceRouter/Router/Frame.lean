import UserspaceRouter.Net.Arp
import UserspaceRouter.Net.Checksum

/-!
# Building a UDP datagram

`build_udp_ipv4` writes an untagged Ethernet frame with an IPv4 header without options and a UDP
header around a payload, and fills in both checksums. It writes into the caller's buffer, whatever
that holds, and returns the length of the frame.

`build_eq` says what ends up in the buffer: the headers with the checksums in place, then the
payload, then what was there before. The parser finds the datagram again, whatever follows it
(`udp_of_datagram`).
-/

namespace UserspaceRouter

/-! ### Headers as bytes -/

/-- The 14 bytes of an Ethernet header. -/
def EthernetHeader.octets (h : EthernetHeader) : Bytes :=
  h.dst.octets ++ h.src.octets ++ u16ToBeBytes h.ethertype

/-- The 20 bytes of an IPv4 header. -/
def Ipv4Header.octets (h : Ipv4Header) : Bytes :=
  [h.versionIhl, h.dscpEcn] ++ u16ToBeBytes h.totalLen ++ u16ToBeBytes h.identification ++
    u16ToBeBytes h.flagsFragment ++ [h.ttl, h.protocol] ++ u16ToBeBytes h.checksum ++
    h.src.octets ++ h.dst.octets

/-- The 8 bytes of a UDP header. -/
def UdpHeader.octets (h : UdpHeader) : Bytes :=
  u16ToBeBytes h.srcPort ++ u16ToBeBytes h.dstPort ++ u16ToBeBytes h.length ++
    u16ToBeBytes h.checksum

@[simp] theorem EthernetHeader.length_octets (h : EthernetHeader) : h.octets.length = 14 := rfl

@[simp] theorem Ipv4Header.length_octets (h : Ipv4Header) : h.octets.length = 20 := rfl

@[simp] theorem UdpHeader.length_octets (h : UdpHeader) : h.octets.length = 8 := rfl

theorem EthernetHeader.readAt_octets (h : EthernetHeader) (rest : Bytes) :
    (Pod.readAt (h.octets ++ rest) 0 : EthernetHeader) = h := by
  have htype : u16At (h.octets ++ rest) (0 + 12) = h.ethertype :=
    u16FromBeBytes_toBeBytes h.ethertype
  show EthernetHeader.mk h.dst h.src (u16At _ (0 + 12)) = h
  rw [htype]

theorem Ipv4Header.readAt_octets (h : Ipv4Header) (pre rest : Bytes) :
    (Pod.readAt (pre ++ (h.octets ++ rest)) pre.length : Ipv4Header) = h := by
  -- behind `pre`, then field by field
  simp (disch := simp) only [Pod.readAt, byteAt_append_right, u16At_append_right,
    u32At_append_right, Nat.sub_self, Nat.add_sub_cancel_left]
  simp (disch := simp -implicitDefEqProofs) only [octets, List.append_assoc, byteAt_append_right,
    u16At_append_right, u32At_append_right, length_u16ToBeBytes, length_u32ToBeBytes,
    List.length_cons, List.length_nil, u16At_toBeBytes, u32At_toBeBytes, Nat.reduceAdd,
    Nat.reduceSub]
  rfl

theorem UdpHeader.readAt_octets (h : UdpHeader) (pre rest : Bytes) :
    (Pod.readAt (pre ++ (h.octets ++ rest)) pre.length : UdpHeader) = h := by
  simp (disch := simp) only [Pod.readAt, u16At_append_right, Nat.sub_self, Nat.add_sub_cancel_left]
  simp (disch := simp -implicitDefEqProofs) only [octets, List.append_assoc, u16At_append_right,
    length_u16ToBeBytes, u16At_toBeBytes, Nat.reduceSub]

/-! ### The builder -/

/-- Addressing for a UDP/IPv4 datagram. -/
structure UdpV4 where
  srcMac : MacAddr
  dstMac : MacAddr
  srcIp : Ipv4Addr
  dstIp : Ipv4Addr
  srcPort : UInt16
  dstPort : UInt16
  ttl : UInt8

namespace Frame

/-- `DEFAULT_TTL`. -/
def defaultTtl : UInt8 := 64

/-- Total frame length for a datagram with `payloadLen` bytes of payload. -/
def frameLen (payloadLen : ℕ) : ℕ :=
  EthernetHeader.len + Ipv4Header.minLen + UdpHeader.len + payloadLen

/-- The Ethernet header of the datagram. -/
def ethernet (p : UdpV4) : EthernetHeader := ⟨p.dstMac, p.srcMac, Ethertype.ipv4⟩

/-- The IPv4 header: version 4, no options, and zero in the fields that are not set. -/
def ipv4 (p : UdpV4) (payloadLen : ℕ) (checksum : UInt16) : Ipv4Header where
  versionIhl := ((4 : UInt8) <<< 4) ||| (5 &&& 0x0f)
  dscpEcn := 0
  totalLen := UInt16.ofNat (Ipv4Header.minLen + (UdpHeader.len + payloadLen))
  identification := 0
  flagsFragment := 0
  ttl := p.ttl
  protocol := Proto.udp
  checksum
  src := p.srcIp
  dst := p.dstIp

/-- The UDP header. -/
def udp (p : UdpV4) (payloadLen : ℕ) (checksum : UInt16) : UdpHeader :=
  ⟨p.srcPort, p.dstPort, UInt16.ofNat (UdpHeader.len + payloadLen), checksum⟩

/-- Build the full frame into `buf`: the buffer afterwards and the frame's length, or `none` if the
buffer is too small. -/
def buildUdpIpv4 (buf : Bytes) (p : UdpV4) (payload : Bytes) : Option (Bytes × ℕ) :=
  let total := frameLen payload.length
  if buf.length < total then none
  else
    let udpLen := UdpHeader.len + payload.length
    -- the header span is zeroed, then the fields are set
    let buf := writeAt buf 0 ((ethernet p).octets ++ (ipv4 p payload.length 0).octets ++
      (udp p payload.length 0).octets)
    let buf := writeAt buf 42 payload
    -- the checksum fields are zero here
    let ipCksum := Checksum.ipv4Header (slice buf 14 34)
    let buf := writeAt buf (14 + 10) (u16ToBeBytes ipCksum)
    let udpCksum := Checksum.udpIpv4 p.srcIp.octets p.dstIp.octets (slice buf 34 (34 + udpLen))
    some (writeAt buf (34 + 6) (u16ToBeBytes udpCksum), total)

/-- The bytes of a datagram with the given checksums. -/
def datagram (p : UdpV4) (ipSum udpSum : UInt16) (payload : Bytes) : Bytes :=
  (ethernet p).octets ++ (ipv4 p payload.length ipSum).octets ++
    (udp p payload.length udpSum).octets ++ payload

theorem length_datagram (p : UdpV4) (ipSum udpSum : UInt16) (payload : Bytes) :
    (datagram p ipSum udpSum payload).length = frameLen payload.length := by
  simp only [datagram, List.length_append, EthernetHeader.length_octets,
    Ipv4Header.length_octets, UdpHeader.length_octets]
  rfl

/-- A write inside a list, at a known place. -/
theorem writeAt_append {pre old bs rest : Bytes} {off : ℕ} (hoff : off = pre.length)
    (hlen : bs.length = old.length) :
    writeAt (pre ++ (old ++ rest)) off bs = pre ++ (bs ++ rest) := by
  subst hoff
  rw [writeAt, List.take_left, hlen, ← List.drop_drop, List.drop_left, List.drop_left,
    List.append_assoc]

/-- The checksum field of an IPv4 header, and what is around it. -/
theorem exists_octets_ipv4 (p : UdpV4) (n : ℕ) : ∃ pre post : Bytes, pre.length = 10 ∧
    ∀ c, (ipv4 p n c).octets = pre ++ (u16ToBeBytes c ++ post) := by
  set ip := ipv4 p n 0
  exact ⟨[ip.versionIhl, ip.dscpEcn] ++ u16ToBeBytes ip.totalLen ++
    u16ToBeBytes ip.identification ++ u16ToBeBytes ip.flagsFragment ++ [ip.ttl, ip.protocol],
    ip.src.octets ++ ip.dst.octets, rfl, fun _ ↦ rfl⟩

/-- The checksum field of a UDP header, and what is before it. -/
theorem exists_octets_udp (p : UdpV4) (n : ℕ) : ∃ pre : Bytes, pre.length = 6 ∧
    ∀ c, (udp p n c).octets = pre ++ u16ToBeBytes c := by
  set ud := udp p n 0
  exact ⟨u16ToBeBytes ud.srcPort ++ u16ToBeBytes ud.dstPort ++ u16ToBeBytes ud.length, rfl,
    fun _ ↦ rfl⟩

/-- Setting the IPv4 checksum of a datagram. -/
theorem writeAt_ipSum (p : UdpV4) (payload rest : Bytes) (a a' b : UInt16) :
    writeAt (datagram p a b payload ++ rest) (14 + 10) (u16ToBeBytes a') =
      datagram p a' b payload ++ rest := by
  obtain ⟨pre, post, hlen, hoctets⟩ := exists_octets_ipv4 p payload.length
  have hsplit (c : UInt16) : datagram p c b payload ++ rest = ((ethernet p).octets ++ pre) ++
      (u16ToBeBytes c ++ (post ++ (udp p payload.length b).octets ++ payload ++ rest)) := by
    simp only [datagram, hoctets, List.append_assoc]
  rw [hsplit, hsplit]
  refine writeAt_append ?_ rfl
  rw [List.length_append, hlen, EthernetHeader.length_octets]

/-- Setting the UDP checksum of a datagram. -/
theorem writeAt_udpSum (p : UdpV4) (payload rest : Bytes) (a b b' : UInt16) :
    writeAt (datagram p a b payload ++ rest) (34 + 6) (u16ToBeBytes b') =
      datagram p a b' payload ++ rest := by
  obtain ⟨pre, hlen, hoctets⟩ := exists_octets_udp p payload.length
  have hsplit (c : UInt16) : datagram p a c payload ++ rest =
      ((ethernet p).octets ++ (ipv4 p payload.length a).octets ++ pre) ++
        (u16ToBeBytes c ++ (payload ++ rest)) := by
    simp only [datagram, hoctets, List.append_assoc]
  rw [hsplit, hsplit]
  refine writeAt_append ?_ rfl
  rw [List.length_append, List.length_append, hlen, EthernetHeader.length_octets,
    Ipv4Header.length_octets]

/-- The IPv4 checksum of the datagram: of its IPv4 header with a zero checksum field. -/
def ipSum (p : UdpV4) (payload : Bytes) : UInt16 :=
  Checksum.ipv4Header (ipv4 p payload.length 0).octets

/-- The UDP checksum of the datagram, of its UDP header with a zero checksum field, its payload and
the two addresses. -/
def udpSum (p : UdpV4) (payload : Bytes) : UInt16 :=
  Checksum.udpIpv4 p.srcIp.octets p.dstIp.octets ((udp p payload.length 0).octets ++ payload)

theorem slice_ipv4 (p : UdpV4) (payload rest : Bytes) (a b : UInt16) :
    slice (datagram p a b payload ++ rest) 14 34 = (ipv4 p payload.length a).octets := by
  have hip := Ipv4Header.length_octets (ipv4 p payload.length a)
  have hsplit : datagram p a b payload ++ rest = (ethernet p).octets ++
      ((ipv4 p payload.length a).octets ++
        ((udp p payload.length b).octets ++ payload ++ rest)) := by
    simp only [datagram, List.append_assoc]
  rw [hsplit]
  refine (slice_append_right (a := 14) (b := 34) (by simp) (by simp)).trans ?_
  rw [slice, EthernetHeader.length_octets, List.drop_zero]
  exact List.take_left' hip

theorem slice_udp (p : UdpV4) (payload rest : Bytes) (a b : UInt16) :
    slice (datagram p a b payload ++ rest) 34 (34 + (UdpHeader.len + payload.length)) =
      (udp p payload.length b).octets ++ payload := by
  have hheaders : ((ethernet p).octets ++ (ipv4 p payload.length a).octets).length = 34 := rfl
  have hudp : ((udp p payload.length b).octets ++ payload).length =
      UdpHeader.len + payload.length := by
    rw [List.length_append]
    rfl
  have hsplit : datagram p a b payload ++ rest =
      ((ethernet p).octets ++ (ipv4 p payload.length a).octets) ++
        (((udp p payload.length b).octets ++ payload) ++ rest) := by
    simp only [datagram, List.append_assoc]
  rw [hsplit, slice_append_right (Nat.le_of_eq hheaders) (by rw [hheaders]; omega), hheaders,
    Nat.sub_self, Nat.add_sub_cancel_left, slice, List.drop_zero]
  exact List.take_left' hudp

/-- **What is built**: the datagram with its checksums, and behind it what was there before. -/
theorem build_eq (buf : Bytes) (p : UdpV4) (payload : Bytes)
    (h : frameLen payload.length ≤ buf.length) :
    buildUdpIpv4 buf p payload =
      some (datagram p (ipSum p payload) (udpSum p payload) payload ++
        buf.drop (frameLen payload.length), frameLen payload.length) := by
  have hlen : frameLen payload.length = 42 + payload.length := rfl
  set headers : Bytes := (ethernet p).octets ++ (ipv4 p payload.length 0).octets ++
    (udp p payload.length 0).octets with hheaders
  have hheadersLen : headers.length = 42 := rfl
  have hfirst : writeAt (writeAt buf 0 headers) 42 payload =
      datagram p 0 0 payload ++ buf.drop (frameLen payload.length) := by
    have hwrite : writeAt buf 0 headers = headers ++ buf.drop 42 := by
      rw [writeAt, hheadersLen]
      simp
    rw [hwrite, writeAt, List.take_left' hheadersLen, ← List.drop_drop,
      List.drop_left' hheadersLen, List.drop_drop, hlen]
    rfl
  simp only [buildUdpIpv4, if_neg (Nat.not_lt.2 h), ← hheaders, hfirst, slice_ipv4, writeAt_ipSum,
    slice_udp, writeAt_udpSum]
  rfl

theorem build_eq_none_iff (buf : Bytes) (p : UdpV4) (payload : Bytes) :
    buildUdpIpv4 buf p payload = none ↔ buf.length < frameLen payload.length := by
  simp only [buildUdpIpv4]
  split_ifs with h <;> simp [h]

/-- A frame that was built, as it is sent. -/
theorem take_of_build {out out' payload : Bytes} {p : UdpV4} {n : ℕ}
    (h : buildUdpIpv4 out p payload = some (out', n)) :
    out'.take n = datagram p (ipSum p payload) (udpSum p payload) payload := by
  have hroom : frameLen payload.length ≤ out.length := by
    by_contra hroom
    rw [(build_eq_none_iff out p payload).2 (Nat.lt_of_not_le hroom)] at h
    exact absurd h (by simp)
  rw [build_eq out p payload hroom] at h
  obtain ⟨rfl, rfl⟩ := Prod.mk.inj (Option.some.inj h)
  exact List.take_left' (length_datagram ..)

/-- A frame without its source MAC. -/
def apartFromSource (frame : Bytes) : Bytes := frame.take 6 ++ frame.drop 12

theorem apartFromSource_datagram (p : UdpV4) (a b : UInt16) (payload : Bytes) :
    apartFromSource (datagram p a b payload) =
      p.dstMac.octets ++ (u16ToBeBytes Ethertype.ipv4 ++ ((ipv4 p payload.length a).octets ++
        ((udp p payload.length b).octets ++ payload))) := by
  simp only [datagram, ethernet, EthernetHeader.octets, List.append_assoc]
  rfl

/-- **The source MAC is nowhere but in its field**, no checksum covers it, and of the buffer only
the length matters. -/
theorem apartFromSource_build {buf buf' : Bytes} (h : buf.length = buf'.length) (p : UdpV4)
    (m : MacAddr) (payload : Bytes) :
    (buildUdpIpv4 buf { p with srcMac := m } payload).map
        (fun f ↦ apartFromSource (f.1.take f.2)) =
      (buildUdpIpv4 buf' p payload).map fun f ↦ apartFromSource (f.1.take f.2) := by
  by_cases hroom : frameLen payload.length ≤ buf.length
  · rw [build_eq _ _ _ hroom, build_eq _ _ _ (h ▸ hroom), Option.map_some, Option.map_some,
      List.take_left' (length_datagram ..), List.take_left' (length_datagram ..),
      apartFromSource_datagram, apartFromSource_datagram]
    rfl
  · have hfull := Nat.lt_of_not_le hroom
    rw [(build_eq_none_iff _ _ _).2 hfull, (build_eq_none_iff _ _ _).2 (h ▸ hfull)]

/-! ### Reading a datagram back -/

section Parse

variable (p : UdpV4) (a b : UInt16) (payload rest : Bytes)

/-- The Ethernet layer of a datagram: an untagged IPv4 frame. -/
theorem parse_datagram : parse (datagram p a b payload ++ rest) =
    some ⟨datagram p a b payload ++ rest, 0, Ethertype.ipv4, 14⟩ := by
  set buf := datagram p a b payload ++ rest with hbuf
  have hlen : 42 ≤ buf.length := by
    rw [hbuf, List.length_append, length_datagram]
    exact Nat.le_trans (Nat.le_add_right 42 payload.length) (Nat.le_add_right _ _)
  have heth : headerAt EthernetHeader buf 0 = some (ethernet p) := by
    refine headerAt_eq_some_iff.2 ⟨Nat.le_trans (by decide) hlen, ?_⟩
    rw [hbuf, datagram, List.append_assoc, List.append_assoc, List.append_assoc]
    exact EthernetHeader.readAt_octets _ _
  have hnot : ¬14 > buf.length := by omega
  have hl3 : EthernetView.l3Of buf (ethernet p) (0 + EthernetHeader.len) =
      some (Ethertype.ipv4, 14) := rfl
  simp only [parse, EthernetView.parse, EthernetView.parseAt, heth, Option.bind_eq_bind,
    Option.bind_some, hl3, if_neg hnot]

/-- The IPv4 layer, which the total length bounds. -/
theorem ipv4_datagram (h : payload.length ≤ 65507) :
    Ipv4View.parseAt (datagram p a b payload ++ rest) 14 =
      some ⟨datagram p a b payload ++ rest, 14, 34, 42 + payload.length⟩ ∧
    (Pod.readAt (datagram p a b payload ++ rest) 14 : Ipv4Header) =
      ipv4 p payload.length a := by
  set buf := datagram p a b payload ++ rest with hbuf
  have hlen : 42 + payload.length ≤ buf.length := by
    rw [hbuf, List.length_append, length_datagram]
    exact Nat.le_add_right _ _
  have hread : (Pod.readAt buf 14 : Ipv4Header) = ipv4 p payload.length a := by
    rw [hbuf, datagram, List.append_assoc, List.append_assoc, List.append_assoc]
    exact Ipv4Header.readAt_octets _ (ethernet p).octets _
  have hip : headerAt Ipv4Header buf 14 = some (ipv4 p payload.length a) := by
    refine headerAt_eq_some_iff.2 ⟨?_, hread⟩
    show 14 + 20 ≤ buf.length
    omega
  have hhlen : (ipv4 p payload.length a).headerLen = 20 := by
    show ((((4 : UInt8) <<< 4) ||| (5 &&& 0x0f)) &&& 0x0f).toNat * 4 = 20
    decide
  have htotal : (ipv4 p payload.length a).totalLen.toNat = 28 + payload.length := by
    show (UInt16.ofNat (20 + (8 + payload.length))).toNat = _
    rw [UInt16.toNat_ofNat']
    omega
  refine ⟨?_, hread⟩
  have hsane : 20 ≤ 28 + payload.length ∧ 14 + (28 + payload.length) ≤ buf.length := by omega
  have hend : max (14 + (28 + payload.length)) 34 = 42 + payload.length := by omega
  simp only [Ipv4View.parseAt, hip, Option.bind_eq_bind, Option.bind_some, hhlen, htotal]
  rw [if_neg (by decide), if_neg (by omega), if_pos hsane, hend]

/-- The UDP layer, which the UDP length bounds. -/
theorem udp_datagram (h : payload.length ≤ 65507) :
    UdpView.parseAt (datagram p a b payload ++ rest) 34 (42 + payload.length) =
      some ⟨datagram p a b payload ++ rest, 34, 42, 42 + payload.length⟩ ∧
    (Pod.readAt (datagram p a b payload ++ rest) 34 : UdpHeader) =
      udp p payload.length b := by
  set buf := datagram p a b payload ++ rest with hbuf
  have hlen : 42 + payload.length ≤ buf.length := by
    rw [hbuf, List.length_append, length_datagram]
    exact Nat.le_add_right _ _
  have hread : (Pod.readAt buf 34 : UdpHeader) = udp p payload.length b := by
    rw [hbuf, datagram, List.append_assoc, List.append_assoc]
    exact UdpHeader.readAt_octets _ ((ethernet p).octets ++ (ipv4 p payload.length a).octets) _
  have hudp : headerAt UdpHeader buf 34 = some (udp p payload.length b) := by
    refine headerAt_eq_some_iff.2 ⟨?_, hread⟩
    show 34 + 8 ≤ buf.length
    omega
  have hlength : (udp p payload.length b).length.toNat = 8 + payload.length := by
    show (UInt16.ofNat (8 + payload.length)).toNat = _
    rw [UInt16.toNat_ofNat']
    omega
  refine ⟨?_, hread⟩
  have hfits : ¬(34 + UdpHeader.len > 42 + payload.length ∨ 34 + UdpHeader.len > buf.length) := by
    show ¬(42 > 42 + payload.length ∨ 42 > buf.length)
    omega
  have hsane : UdpHeader.len ≤ 8 + payload.length ∧
      34 + (8 + payload.length) ≤ 42 + payload.length :=
    ⟨Nat.le_add_right 8 _, by omega⟩
  have hend : max (34 + (8 + payload.length)) (34 + UdpHeader.len) = 42 + payload.length := by
    show max (34 + (8 + payload.length)) 42 = _
    omega
  simp only [UdpView.parseAt, hudp, Option.bind_eq_bind, Option.bind_some, hlength]
  rw [if_neg hfits, if_pos hsane, hend]
  rfl

/-- **A datagram reads back**: the parser descends to the UDP view of exactly the payload, and finds
the headers that were meant. -/
theorem udp_of_datagram (h : payload.length ≤ 65507) :
    ∃ eth ip, parse (datagram p a b payload ++ rest) = some eth ∧
      eth.header = ethernet p ∧ eth.ipv4 = some ip ∧ ip.header = ipv4 p payload.length a ∧
      ip.udp =
        some ⟨datagram p a b payload ++ rest, 34, 42, 42 + payload.length⟩ ∧
      (Pod.readAt (datagram p a b payload ++ rest) 34 : UdpHeader) =
        udp p payload.length b := by
  obtain ⟨hip, hiph⟩ := ipv4_datagram p a b payload rest h
  obtain ⟨hudp, hudph⟩ := udp_datagram p a b payload rest h
  refine ⟨_, _, parse_datagram p a b payload rest, ?_, hip, hiph, ?_, hudph⟩
  · show Pod.readAt (datagram p a b payload ++ rest) 0 = _
    rw [datagram, List.append_assoc, List.append_assoc, List.append_assoc]
    exact EthernetHeader.readAt_octets _ _
  · rw [Ipv4View.udp, Ipv4View.isUdp, Ipv4View.protocol, Ipv4View.header, hiph]
    exact hudp

end Parse

end Frame

end UserspaceRouter
