import UserspaceRouter.Net.Descent
import UserspaceRouter.Router.Frame

/-!
# Datagrams, built in place and read back

`Frame.buildUdpIpv4` says what is built. Here the code is followed into the caller's buffer: the
span of the headers is zeroed, each header is taken as a reference into the buffer and some of its
fields are set, and after the zeroing there are three early exits. None of them is ever taken: the
length is checked before anything is written (`buildInPlace_eq`). So a buffer that is too small is
left alone.

What is built then passes its own checksums (`checksum_ipv4`, `finish_udp`): the words that a
checksum is taken of and the checksum itself add up to all ones.
-/

namespace UserspaceRouter

open OnesComplement Checksum

namespace Frame

/-! ### Building in place -/

/-- `build_udp_ipv4` with the buffer it leaves. -/
def buildInPlace (buf : Bytes) (p : UdpV4) (payload : Bytes) : Bytes × Option ℕ :=
  let total := frameLen payload.length
  if buf.length < total then (buf, none)
  else
    let buf := writeAt buf 0 (List.replicate 42 0)
    let udpLen := UdpHeader.len + payload.length
    let ipLen := Ipv4Header.minLen + udpLen
    match headerAt EthernetHeader buf 0 with
    | none => (buf, none)
    | some eth =>
      let eth := { eth with dst := p.dstMac, src := p.srcMac, ethertype := Ethertype.ipv4 }
      let buf := writeAt buf 0 eth.octets
      match headerAt Ipv4Header buf 14 with
      | none => (buf, none)
      | some ip =>
        let ip := { ip with
          versionIhl := ((4 : UInt8) <<< 4) ||| (5 &&& 0x0f)
          totalLen := UInt16.ofNat ipLen
          ttl := p.ttl
          protocol := Proto.udp
          src := p.srcIp
          dst := p.dstIp }
        let buf := writeAt buf 14 ip.octets
        match headerAt UdpHeader buf 34 with
        | none => (buf, none)
        | some udp =>
          let udp := { udp with
            srcPort := p.srcPort
            dstPort := p.dstPort
            length := UInt16.ofNat udpLen }
          let buf := writeAt buf 34 udp.octets
          let buf := writeAt buf 42 payload
          let ipCksum := Checksum.ipv4Header (slice buf 14 34)
          let buf := writeAt buf (14 + 10) (u16ToBeBytes ipCksum)
          let udpCksum :=
            Checksum.udpIpv4 p.srcIp.octets p.dstIp.octets (slice buf 34 (34 + udpLen))
          (writeAt buf (34 + 6) (u16ToBeBytes udpCksum), some total)

section Zeroed

/-- The Ethernet header in a zeroed buffer. -/
def zeroEthernet : EthernetHeader := ⟨.zero, .zero, 0⟩

/-- The IPv4 header in a zeroed buffer. -/
def zeroIpv4 : Ipv4Header := ⟨0, 0, 0, 0, 0, 0, 0, 0, 0, 0⟩

/-- The UDP header in a zeroed buffer. -/
def zeroUdp : UdpHeader := ⟨0, 0, 0, 0⟩

theorem replicate_zero : List.replicate 42 (0 : UInt8) =
    zeroEthernet.octets ++ (zeroIpv4.octets ++ zeroUdp.octets) := by
  decide

variable (eth eth' : EthernetHeader) (ip ip' : Ipv4Header) (udp udp' : UdpHeader) (rest : Bytes)

theorem headerAt_ethernet :
    headerAt EthernetHeader (eth.octets ++ (ip.octets ++ (udp.octets ++ rest))) 0 = some eth := by
  refine headerAt_eq_some_iff.2 ⟨?_, EthernetHeader.readAt_octets _ _⟩
  simp [Pod.size, EthernetHeader.len]

theorem headerAt_ipv4 :
    headerAt Ipv4Header (eth.octets ++ (ip.octets ++ (udp.octets ++ rest))) 14 = some ip := by
  refine headerAt_eq_some_iff.2 ⟨?_, Ipv4Header.readAt_octets ip eth.octets _⟩
  simp only [Pod.size, Ipv4Header.minLen, List.length_append, EthernetHeader.length_octets,
    Ipv4Header.length_octets]
  omega

theorem headerAt_udp :
    headerAt UdpHeader (eth.octets ++ (ip.octets ++ (udp.octets ++ rest))) 34 = some udp := by
  rw [← List.append_assoc]
  refine headerAt_eq_some_iff.2 ⟨?_, UdpHeader.readAt_octets udp (eth.octets ++ ip.octets) _⟩
  simp only [Pod.size, UdpHeader.len, List.length_append, EthernetHeader.length_octets,
    Ipv4Header.length_octets, UdpHeader.length_octets]
  omega

theorem writeAt_ethernet :
    writeAt (eth.octets ++ (ip.octets ++ (udp.octets ++ rest))) 0 eth'.octets =
      eth'.octets ++ (ip.octets ++ (udp.octets ++ rest)) := by
  rw [writeAt, List.take_zero, List.nil_append, Nat.zero_add,
    List.drop_left' (show eth.octets.length = eth'.octets.length from rfl)]

theorem writeAt_ipv4 :
    writeAt (eth.octets ++ (ip.octets ++ (udp.octets ++ rest))) 14 ip'.octets =
      eth.octets ++ (ip'.octets ++ (udp.octets ++ rest)) :=
  writeAt_append rfl rfl

theorem writeAt_udp :
    writeAt (eth.octets ++ (ip.octets ++ (udp.octets ++ rest))) 34 udp'.octets =
      eth.octets ++ (ip.octets ++ (udp'.octets ++ rest)) := by
  rw [← List.append_assoc, ← List.append_assoc eth.octets]
  exact writeAt_append rfl rfl

end Zeroed

/-- The headers that are set are the headers that are meant, and no early exit is taken. -/
theorem buildInPlace_eq (buf : Bytes) (p : UdpV4) (payload : Bytes) :
    buildInPlace buf p payload =
      match buildUdpIpv4 buf p payload with
      | none => (buf, none)
      | some (buf, n) => (buf, some n) := by
  by_cases hshort : buf.length < frameLen payload.length
  · rw [(build_eq_none_iff buf p payload).2 hshort, buildInPlace, if_pos hshort]
  · have hwrite (bs : Bytes) (hbs : bs.length = 42) : writeAt buf 0 bs = bs ++ buf.drop 42 := by
      rw [writeAt, hbs]
      rfl
    have hzeros : writeAt buf 0 (List.replicate 42 0) =
        zeroEthernet.octets ++ (zeroIpv4.octets ++ (zeroUdp.octets ++ buf.drop 42)) := by
      rw [hwrite _ List.length_replicate, replicate_zero, List.append_assoc, List.append_assoc]
    have hheaders : writeAt buf 0 ((ethernet p).octets ++ (ipv4 p payload.length 0).octets ++
          (Frame.udp p payload.length 0).octets) =
        (ethernet p).octets ++ ((ipv4 p payload.length 0).octets ++
          ((Frame.udp p payload.length 0).octets ++ buf.drop 42)) := by
      rw [hwrite _ rfl, List.append_assoc, List.append_assoc]
    simp only [buildInPlace, buildUdpIpv4, if_neg hshort, hzeros, hheaders, headerAt_ethernet,
      headerAt_ipv4, headerAt_udp, writeAt_ethernet, writeAt_ipv4, writeAt_udp]
    rfl

/-! ### The checksums of a datagram -/

section Sums

variable (p : UdpV4) (payload : Bytes)

/-- The checksum field adds to the words of the UDP header and payload. -/
theorem wordSum_udp (c : UInt16) :
    wordSum ((udp p payload.length c).octets ++ payload) =
      wordSum ((udp p payload.length 0).octets ++ payload) + c.toNat := by
  obtain ⟨pre, hlen, hoctets⟩ := exists_octets_udp p payload.length
  rw [hoctets, hoctets, List.append_assoc, List.append_assoc]
  exact wordSum_field (by rw [hlen]; exact ⟨3, rfl⟩) c payload

/-- **The IPv4 header verifies.** -/
theorem checksum_ipv4 : checksum (ipv4 p payload.length (ipSum p payload)).octets = 0 := by
  obtain ⟨pre, post, hlen, hoctets⟩ := exists_octets_ipv4 p payload.length
  have hfits : (pre ++ (u16ToBeBytes 0 ++ post)).length ≤ 65535 := by
    rw [← hoctets, Ipv4Header.length_octets]
    decide
  rw [ipSum, Checksum.ipv4Header, hoctets, hoctets]
  exact checksum_field (by rw [hlen]; exact ⟨5, rfl⟩) hfits

/-- The sum that the UDP checksum is taken of. -/
theorem toNat_l4Sum_udp (h : payload.length ≤ 65507) (c : UInt16) :
    (l4Sum p.srcIp.octets p.dstIp.octets Proto.udp
        ((udp p payload.length c).octets ++ payload)).toNat =
      (l4Sum p.srcIp.octets p.dstIp.octets Proto.udp
        ((udp p payload.length 0).octets ++ payload)).toNat + c.toNat := by
  have hlen (c : UInt16) : ((udp p payload.length c).octets ++ payload).length =
      8 + payload.length := by
    rw [List.length_append, UdpHeader.length_octets]
  have hfits (c : UInt16) : ((udp p payload.length c).octets ++ payload).length ≤ 65535 := by
    rw [hlen]
    omega
  rw [toNat_l4Sum _ rfl rfl (hfits c), toNat_l4Sum _ rfl rfl (hfits 0), hlen, hlen, wordSum_udp]
  omega

/-- **The UDP checksum is not zero, and verifies.** -/
theorem finish_udp (h : payload.length ≤ 65507) :
    udpSum p payload ≠ 0 ∧
      finish (l4Sum p.srcIp.octets p.dstIp.octets Proto.udp
        ((udp p payload.length (udpSum p payload)).octets ++ payload)) = 0 := by
  set acc := l4Sum p.srcIp.octets p.dstIp.octets Proto.udp
    ((udp p payload.length 0).octets ++ payload) with hacc
  have hrep : Represents 65535 (finish acc).toNat acc.toNat := (follows_finish acc).represents
  have hnorm : (udpSum p payload).toNat = OnesComplement.norm 65535 (finish acc).toNat :=
    toNat_ite_zero (finish acc)
  have hpos : 0 < (udpSum p payload).toNat := by
    rw [hnorm, OnesComplement.norm]
    split_ifs <;> omega
  refine ⟨fun h0 ↦ ?_, ?_⟩
  · rw [h0] at hpos
    exact absurd hpos (by decide)
  · rw [finish_eq_zero_iff, toNat_l4Sum_udp p payload h, hnorm]
    have hle : OnesComplement.norm 65535 (finish acc).toNat ≤ 65535 := by
      rw [← hnorm]
      have := (udpSum p payload).toNat_lt
      omega
    exact (hrep.norm (by omega)).endAround_add hle (by omega)

end Sums

/-! ### The round trip -/

theorem slice_payload (p : UdpV4) (payload rest : Bytes) (a b : UInt16) :
    slice (datagram p a b payload ++ rest) 42 (42 + payload.length) = payload := by
  have hheaders : ((ethernet p).octets ++ (ipv4 p payload.length a).octets ++
      (udp p payload.length b).octets).length = 42 := rfl
  rw [datagram, List.append_assoc, slice_append_right (Nat.le_of_eq hheaders)
    (by rw [hheaders]; omega), hheaders, Nat.sub_self, Nat.add_sub_cancel_left, slice,
    List.drop_zero, List.take_left]

/-- The bytes parse to a datagram with this addressing and payload, and it verifies. -/
def ReadsBack (p : UdpV4) (payload frame : Bytes) : Prop :=
  ∃ eth ip udp, parse frame = some eth ∧ eth.ipv4 = some ip ∧ ip.udp = some udp ∧
    eth.header.dst = p.dstMac ∧ eth.header.src = p.srcMac ∧
    ip.header.src = p.srcIp ∧ ip.header.dst = p.dstIp ∧ ip.header.ttl = p.ttl ∧
    udp.srcPort = p.srcPort ∧ udp.dstPort = p.dstPort ∧ udp.payloadChecked = some payload ∧
    checksum (slice frame ip.start ip.l4Start) = 0 ∧
    udp.header.checksum ≠ 0 ∧
    finish (l4Sum (Ipv4Addr.octets ip.header.src) (Ipv4Addr.octets ip.header.dst) Proto.udp
      (slice frame udp.start udp.end_)) = 0

/-- **The views of a datagram.** -/
structure Views (p : UdpV4) (a b : UInt16) (payload frame : Bytes) : Prop where
  parse_eq : parse frame = some ⟨frame, 0, Ethertype.ipv4, 14⟩
  ipv4_eq : (⟨frame, 0, Ethertype.ipv4, 14⟩ : EthernetView).ipv4 =
    some ⟨frame, 14, 34, 42 + payload.length⟩
  udp_eq : (⟨frame, 14, 34, 42 + payload.length⟩ : Ipv4View).udp =
    some ⟨frame, 34, 42, 42 + payload.length⟩
  ethernetHeader : (Pod.readAt frame 0 : EthernetHeader) = ethernet p
  ipv4Header : (Pod.readAt frame 14 : Ipv4Header) = ipv4 p payload.length a
  udpHeader : (Pod.readAt frame 34 : UdpHeader) = udp p payload.length b
  slice_ipv4 : slice frame 14 34 = (ipv4 p payload.length a).octets
  slice_udp : slice frame 34 (42 + payload.length) = (udp p payload.length b).octets ++ payload

theorem views_datagram (p : UdpV4) (a b : UInt16) {payload : Bytes} (h : payload.length ≤ 65507)
    (rest : Bytes) : Views p a b payload (datagram p a b payload ++ rest) := by
  obtain ⟨hip, hiph⟩ := ipv4_datagram p a b payload rest h
  obtain ⟨hudp, hudph⟩ := udp_datagram p a b payload rest h
  refine ⟨parse_datagram p a b payload rest, hip, ?_, ?_, hiph, hudph,
    slice_ipv4 p payload rest a b, ?_⟩
  · rw [Ipv4View.udp, Ipv4View.isUdp, Ipv4View.protocol, Ipv4View.header, hiph]
    exact hudp
  · rw [datagram, List.append_assoc, List.append_assoc, List.append_assoc]
    exact EthernetHeader.readAt_octets _ _
  · have hend : 34 + (UdpHeader.len + payload.length) = 42 + payload.length := by
      show 34 + (8 + payload.length) = 42 + payload.length
      omega
    rw [← hend]
    exact slice_udp p payload rest a b

theorem readsBack_datagram (p : UdpV4) {payload : Bytes} (h : payload.length ≤ 65507)
    (rest : Bytes) :
    ReadsBack p payload (datagram p (ipSum p payload) (udpSum p payload) payload ++ rest) := by
  have hviews := views_datagram p (ipSum p payload) (udpSum p payload) h rest
  have hpayload := slice_payload p payload rest (ipSum p payload) (udpSum p payload)
  obtain ⟨hne, hverifies⟩ := finish_udp p payload h
  set frame := datagram p (ipSum p payload) (udpSum p payload) payload ++ rest with hframe
  have hlen : 42 + payload.length ≤ frame.length := by
    rw [hframe, List.length_append, length_datagram]
    exact Nat.le_add_right _ _
  set ip : Ipv4View := ⟨frame, 14, 34, 42 + payload.length⟩
  set udp : UdpView := ⟨frame, 34, 42, 42 + payload.length⟩
  have hiph : ip.header = ipv4 p payload.length (ipSum p payload) := hviews.ipv4Header
  have hudph : udp.header = Frame.udp p payload.length (udpSum p payload) := hviews.udpHeader
  refine ⟨_, ip, udp, hviews.parse_eq, hviews.ipv4_eq, hviews.udp_eq,
    ?_, ?_, ?_, ?_, ?_, ?_, ?_, ?_, ?_, ?_, ?_⟩
  · exact congrArg EthernetHeader.dst hviews.ethernetHeader
  · exact congrArg EthernetHeader.src hviews.ethernetHeader
  · exact congrArg Ipv4Header.src hiph
  · exact congrArg Ipv4Header.dst hiph
  · exact congrArg Ipv4Header.ttl hiph
  · exact congrArg UdpHeader.srcPort hudph
  · exact congrArg UdpHeader.dstPort hudph
  · rw [UdpView.payloadChecked, sliceChecked, if_pos ⟨Nat.le_add_right _ _, hlen⟩, hpayload]
  · rw [show slice frame ip.start ip.l4Start = _ from hviews.slice_ipv4]
    exact checksum_ipv4 p payload
  · rw [hudph]
    exact hne
  · rw [show slice frame udp.start udp.end_ = _ from hviews.slice_udp, hiph]
    exact hverifies

/-- **Built UDP frames parse back.** For a payload that a datagram can carry: a buffer that is too
short is refused and left as it is; any other one holds the frame afterwards, and behind it what it
held before, and the frame parses, whatever follows it, to the addressing and the payload that were
given, with checksums that verify. -/
theorem built_frames_parse_back (buf : Bytes) (p : UdpV4) {payload : Bytes}
    (h : payload.length ≤ 65507) :
    ((buildInPlace buf p payload).2 = none ↔ buf.length < 42 + payload.length) ∧
    ((buildInPlace buf p payload).2 = none → (buildInPlace buf p payload).1 = buf) ∧
    ∀ n, (buildInPlace buf p payload).2 = some n →
      n = 42 + payload.length ∧ (buildInPlace buf p payload).1.length = buf.length ∧
      (buildInPlace buf p payload).1.drop n = buf.drop n ∧
      ∀ padding, ReadsBack p payload ((buildInPlace buf p payload).1.take n ++ padding) := by
  have hlen : frameLen payload.length = 42 + payload.length := rfl
  rw [buildInPlace_eq]
  by_cases hshort : buf.length < 42 + payload.length
  · rw [(build_eq_none_iff buf p payload).2 hshort]
    exact ⟨⟨fun _ ↦ hshort, fun _ ↦ rfl⟩, fun _ ↦ rfl, fun n hn ↦ nomatch hn⟩
  · have hroom := Nat.le_of_not_lt hshort
    rw [build_eq buf p payload hroom]
    refine ⟨⟨fun hnone ↦ absurd hnone (by simp), fun hlt ↦ absurd hlt hshort⟩,
      fun hnone ↦ absurd hnone (by simp), fun n hn ↦ ?_⟩
    obtain rfl := Option.some.inj hn
    have hdatagram := length_datagram p (ipSum p payload) (udpSum p payload) payload
    refine ⟨hlen, ?_, List.drop_left' hdatagram, fun padding ↦ ?_⟩
    · dsimp only
      rw [List.length_append, hdatagram, List.length_drop, hlen]
      omega
    · dsimp only
      rw [List.take_left' hdatagram]
      exact readsBack_datagram p h padding

/-- An odd payload in a buffer with room for more, read back with ten bytes of padding. -/
theorem built_frames_parse_back_odd :
    ∃ n, (buildInPlace (List.replicate 64 7)
        ⟨⟨2, 0, 0, 0, 0, 1⟩, ⟨2, 0, 0, 0, 0, 2⟩, 0x0a000001, 0x0a000002, 1234, 53, 64⟩
        [0xde, 0xad, 0xbe]).2 = some n ∧ n = 45 ∧
      ReadsBack ⟨⟨2, 0, 0, 0, 0, 1⟩, ⟨2, 0, 0, 0, 0, 2⟩, 0x0a000001, 0x0a000002, 1234, 53, 64⟩
        [0xde, 0xad, 0xbe]
        ((buildInPlace (List.replicate 64 7)
          ⟨⟨2, 0, 0, 0, 0, 1⟩, ⟨2, 0, 0, 0, 0, 2⟩, 0x0a000001, 0x0a000002, 1234, 53, 64⟩
          [0xde, 0xad, 0xbe]).1.take n ++ List.replicate 10 0) := by
  set p : UdpV4 :=
    ⟨⟨2, 0, 0, 0, 0, 1⟩, ⟨2, 0, 0, 0, 0, 2⟩, 0x0a000001, 0x0a000002, 1234, 53, 64⟩
  have hpayload : ([0xde, 0xad, 0xbe] : Bytes).length ≤ 65507 := by decide
  obtain ⟨hnone, -, hsome⟩ := built_frames_parse_back (List.replicate 64 7) p hpayload
  cases hn : (buildInPlace (List.replicate 64 7) p [0xde, 0xad, 0xbe]).2 with
  | none => exact absurd (hnone.1 hn) (by decide)
  | some n =>
    obtain ⟨hlen, -, -, hreads⟩ := hsome n hn
    exact ⟨n, rfl, hlen, hreads _⟩

end Frame

end UserspaceRouter
