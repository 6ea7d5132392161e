import UserspaceRouter.Net.DhcpOptions
import UserspaceRouter.Router.DhcpServers
import UserspaceRouter.Router.FrameRoundTrip
import UserspaceRouter.Router.TranslateValid

/-!
# What a reply of the server says

From the message that comes in to the frame that goes out: the message decides the reply
(`answer_of_handle`), the reply decides header, options and addressing, and the frame is parsed
again layer by layer. Nothing is assumed about the tables, which may be in any state: an address
that `assign` returns is the one that the lease table has for the client afterwards
(`lookup_assign`).

A frame carries the checksums that a computation from scratch gives
(`Frame.ipv4ChecksumOk_of_views`, `Frame.l4ChecksumOk_of_views`), for with the fields zeroed it is
the frame that they were computed of.
-/

namespace UserspaceRouter

/-! ### The checksums of a frame -/

namespace Frame

section Checksums

variable {p : UdpV4} {payload frame : Bytes}

theorem ipv4ChecksumOk_of_views {b : UInt16} (h : Views p (ipSum p payload) b payload frame) :
    Ipv4ChecksumOk frame := by
  refine ⟨ipSum p payload, ?_⟩
  have hzeroed : zeroed frame 14 34 ipCksumOffset = (ipv4 p payload.length 0).octets := by
    obtain ⟨pre, post, hlen, hoctets⟩ := exists_octets_ipv4 p payload.length
    rw [zeroed, h.slice_ipv4, hoctets, hoctets]
    exact writeAt_append hlen.symm rfl
  have hsums : Ipv4View.checksums ⟨frame, 14, 34, 42 + payload.length⟩ =
      (ipSum p payload, ipSum p payload) :=
    Prod.ext (congrArg Ipv4Header.checksum h.ipv4Header) (congrArg Checksum.ipv4Header hzeroed)
  rw [ipv4Checksums, h.parse_eq, Option.bind_eq_bind, Option.bind_some, h.ipv4_eq,
    Option.bind_eq_bind, Option.bind_some, hsums]

theorem l4ChecksumOk_of_views {a : UInt16} (h : Views p a (udpSum p payload) payload frame) :
    L4ChecksumOk frame := by
  refine ⟨udpSum p payload, ?_⟩
  set ip : Ipv4View := ⟨frame, 14, 34, 42 + payload.length⟩
  set udp : UdpView := ⟨frame, 34, 42, 42 + payload.length⟩
  have hiph : ip.header = ipv4 p payload.length a := h.ipv4Header
  have hzeroed : zeroed frame 34 (42 + payload.length) udpCksumOffset =
      (Frame.udp p payload.length 0).octets ++ payload := by
    obtain ⟨pre, hlen, hoctets⟩ := exists_octets_udp p payload.length
    rw [zeroed, h.slice_udp, hoctets, hoctets, List.append_assoc, List.append_assoc]
    exact writeAt_append hlen.symm rfl
  have hsum : ip.udpChecksum udp = udpSum p payload := by
    rw [Ipv4View.udpChecksum, hiph, udpSum, ← hzeroed]
    rfl
  have hproto : L4.fromProto ip.protocol = some .udp := by
    rw [Ipv4View.protocol, hiph]
    rfl
  have hstored : udp.header.checksum = udpSum p payload :=
    congrArg UdpHeader.checksum h.udpHeader
  rw [l4Checksums, h.parse_eq, Option.bind_eq_bind, Option.bind_some, h.ipv4_eq,
    Option.bind_eq_bind, Option.bind_some, hproto, Option.bind_eq_bind, Option.bind_some,
    Ipv4View.l4Checksums, h.udp_eq, Option.map_some, hstored, hsum]

end Checksums

end Frame

/-! ### The reply to a message -/

namespace DhcpState

variable {s s' : DhcpState}

/-- An address that is assigned is leased. -/
theorem lookup_assign {mac : MacAddr} {ip : Ipv4Addr} (h : s.assign mac = (s', some ip)) :
    s'.leases.lookup mac = some ip := by
  rcases hlease : s.leases.lookup mac with - | ip'
  · simp only [assign, hlease] at h
    split at h
    · exact absurd (Prod.mk.inj h).2 (by simp)
    · split at h
      · exact absurd (Prod.mk.inj h).2 (by simp)
      · obtain ⟨rfl, hip⟩ := Prod.mk.inj h
        rw [← hip]
        exact AList.lookup_insert _
  · simp only [assign, hlease] at h
    obtain ⟨rfl, hip⟩ := Prod.mk.inj h
    exact hlease.trans hip

/-- **What `handle` can answer**, with the address that it assigned. -/
theorem answer_of_handle {cfg : DhcpServerConfig} {view : DhcpView} {r : Reply}
    (h : s.handle cfg view = some (s', some r)) :
    ∃ ip, s.assign view.header.clientMac = (s', some ip) ∧
      (r = view.offer ip ∨ r = view.ackOrNak ip) := by
  have hhandling := handling s cfg view
  rw [h] at hhandling
  generalize hres : some (s', some r) = res at hhandling
  cases hhandling with
  | assign _ hanswer =>
    obtain ⟨hs, hreply⟩ := Prod.mk.inj (Option.some.inj hres)
    obtain ⟨ip, hip, rfl⟩ := Option.map_eq_some_iff.1 hreply.symm
    refine ⟨ip, Prod.ext hs.symm hip, ?_⟩
    rcases hanswer with ⟨-, rfl⟩ | ⟨-, -, rfl⟩
    · exact Or.inl rfl
    · exact Or.inr rfl
  | ignore _ => exact absurd (Prod.mk.inj (Option.some.inj hres)).2 (by simp)
  | giveBack _ _ _ =>
    obtain ⟨pool, -, heq⟩ := Option.map_eq_some_iff.1 hres.symm
    exact absurd (Prod.mk.inj heq).2 (by simp)

end DhcpState

/-- A reply to `request`, for which `ip` was assigned. -/
structure Reply.Answers (r : Reply) (request : DhcpView) (ip : Ipv4Addr) : Prop where
  xid_eq : r.xid = request.header.xid
  client_eq : r.client = request.header.clientMac
  kinds : r.kind = .offer ∨ r.kind = .ack ∨ r.kind = .nak
  lease : r.kind ≠ .nak → r.yiaddr = ip ∧ r.broadcast = request.header.broadcast
  nak : r.kind = .nak → r.yiaddr = Ipv4Addr.unspecified

theorem DhcpView.answers_offer (view : DhcpView) (ip : Ipv4Addr) :
    (view.offer ip).Answers view ip :=
  ⟨rfl, rfl, Or.inl rfl, fun _ ↦ ⟨rfl, rfl⟩, fun h ↦ nomatch h⟩

theorem DhcpView.answers_ackOrNak (view : DhcpView) (ip : Ipv4Addr) :
    (view.ackOrNak ip).Answers view ip := by
  rw [ackOrNak]
  split_ifs
  · exact ⟨rfl, rfl, Or.inr (Or.inl rfl), fun _ ↦ ⟨rfl, rfl⟩, fun h ↦ nomatch h⟩
  · exact ⟨rfl, rfl, Or.inr (Or.inr rfl), fun h ↦ absurd rfl h, fun _ ↦ rfl⟩

/-! ### The frame of a reply -/

namespace DhcpReplyConfig

variable {cfg : DhcpReplyConfig} {r : Reply}

/-- A reply that is laid out is a datagram, with the addressing of the reply. -/
theorem views_buildReply {out out' : Bytes} {n : ℕ} (h : cfg.buildReply r out = some (out', n)) :
    ∃ payload, Frame.Views (cfg.params r) (Frame.ipSum (cfg.params r) payload)
      (Frame.udpSum (cfg.params r) payload) payload (out'.take n) := by
  rw [buildReply, Option.bind_eq_bind, Option.bind_eq_some_iff] at h
  obtain ⟨payload, hpayload, hbuild⟩ := h
  have hlen : payload.length ≤ payloadMax := by
    rw [buildPayload_eq] at hpayload
    split_ifs at hpayload with hfit
    obtain rfl := Option.some.inj hpayload
    exact length_payload_le (cfg.clientMac_header r).2 hfit
  rw [Frame.take_of_build hbuild]
  have hviews := Frame.views_datagram (cfg.params r) (Frame.ipSum (cfg.params r) payload)
    (Frame.udpSum (cfg.params r) payload) (Nat.le_trans hlen (by decide)) []
  rw [List.append_nil] at hviews
  exact ⟨payload, hviews⟩

/-- The lists of addresses in a reply with a lease. -/
theorem lists_of_get {options : Bytes} (hkind : r.kind ≠ .nak)
    (hget : ∀ code, Options.get options code =
      ((cfg.options r).find? fun o ↦ o.1 = code).map Prod.snd) :
    Options.routers options = [cfg.gateway] ∧ Options.dnsServers options = cfg.dns := by
  have hrouter := Options.ipv4List_flatMap_octets [cfg.gateway]
  rw [Options.routers, Options.dnsServers, hget, hget, DhcpReplyConfig.options, if_neg hkind]
  refine ⟨hrouter, ?_⟩
  rcases hdns : cfg.dns with - | ⟨d, ds⟩
  · rfl
  · exact Options.ipv4List_flatMap_octets (d :: ds)

/-- A reply is broadcast if it is a NAK or the client asked for it. -/
theorem params_eq_ite {request : DhcpView} {ip : Ipv4Addr} (h : r.Answers request ip) :
    ((cfg.params r).dstIp, (cfg.params r).dstMac) =
      if r.kind = .nak ∨ request.header.broadcast = true then (broadcastIp, MacAddr.broadcast)
      else (r.yiaddr, r.client) := by
  by_cases hkind : r.kind = .nak
  · simp [params, hkind]
  · have hbroadcast := (h.lease hkind).2
    rcases hflag : request.header.broadcast with - | - <;> rw [hflag] at hbroadcast <;>
      simp [params, hkind, hbroadcast]

end DhcpReplyConfig

/-- **What a frame of the server says**, layer by layer. -/
structure SaysReply (cfg : DhcpReplyConfig) (request : DhcpView) (s s' : DhcpState)
    (frame : Bytes) (eth : EthernetView) (ip : Ipv4View) (udp : UdpView) (reply : DhcpView) :
    Prop where
  parse_eq : parse frame = some eth
  ipv4_eq : eth.ipv4 = some ip
  udp_eq : ip.udp = some udp
  dhcp_eq : udp.dhcp = some reply
  op_eq : reply.header.op = DhcpHeader.bootReply
  hasMagicCookie : reply.header.hasMagicCookie = true
  xid_eq : reply.header.xid = request.header.xid
  hlen_eq : reply.header.hlen = 6
  chaddr_eq : reply.header.chaddr = request.header.clientMac.octets ++ List.replicate 10 0
  srcPort_eq : udp.srcPort = 67
  dstPort_eq : udp.dstPort = 68
  src_eq : ip.header.src = cfg.serverIp
  serverId_eq : Options.serverId reply.options = some cfg.serverIp
  kinds : reply.messageType = some .offer ∨ reply.messageType = some .ack ∨
    reply.messageType = some .nak
  /-- An OFFER or ACK is about the address the client was assigned. -/
  lease : reply.messageType ≠ some .nak →
    s.assign request.header.clientMac = (s', some reply.header.yourIp) ∧
    s'.leases.lookup request.header.clientMac = some reply.header.yourIp ∧
    Options.leaseTime reply.options = some cfg.leaseSecs ∧
    Options.subnetMask reply.options = some cfg.subnetMask ∧
    Options.routers reply.options = [cfg.gateway] ∧
    Options.dnsServers reply.options = cfg.dns
  nak : reply.messageType = some .nak → reply.header.yourIp = Ipv4Addr.unspecified
  destination : (ip.header.dst, eth.header.dst) =
    if reply.messageType = some .nak ∨ request.header.broadcast = true then
      (broadcastIp, MacAddr.broadcast)
    else (reply.header.yourIp, request.header.clientMac)
  ipv4ChecksumOk : Ipv4ChecksumOk frame
  l4ChecksumOk : L4ChecksumOk frame

/-- **Server replies decode to what was meant**, for any tables, any message and any buffer. -/
theorem DhcpState.replies_decode {s s' : DhcpState} {cfg : DhcpReplyConfig} {request : DhcpView}
    {out out' : Bytes} {n : ℕ} (h : s.handleInto cfg request out = some (s', some (out', n))) :
    ∃ eth ip udp reply, SaysReply cfg request s s' (out'.take n) eth ip udp reply := by
  obtain ⟨⟨t, a⟩, hhandle, heq⟩ := Option.map_eq_some_iff.1 h
  obtain ⟨rfl, hlayout⟩ := Prod.mk.inj heq
  obtain ⟨r, rfl, hbuild⟩ := Option.bind_eq_some_iff.1 hlayout
  obtain ⟨ip, hassign, hr⟩ := answer_of_handle hhandle
  have hanswers : r.Answers request ip := by
    rcases hr with rfl | rfl
    · exact request.answers_offer ip
    · exact request.answers_ackOrNak ip
  obtain ⟨payload, hviews⟩ := DhcpReplyConfig.views_buildReply hbuild
  obtain ⟨reply, hparse, hreads⟩ := parseDhcp_buildReply hbuild
  obtain ⟨reply', hparse', hheader, hget⟩ := exists_view_of_buildReply hbuild
  obtain rfl : reply = reply' := Option.some.inj (hparse.symm.trans hparse')
  simp only [parseDhcp, hviews.parse_eq, hviews.ipv4_eq, hviews.udp_eq, Option.bind_eq_bind,
    Option.bind_some] at hparse
  have hkind (k : MessageType) : reply.messageType = some k ↔ r.kind = k := by
    rw [hreads.messageType_eq, Option.some.injEq]
  refine ⟨_, _, _, reply, hviews.parse_eq, hviews.ipv4_eq, hviews.udp_eq, hparse, hreads.op_eq,
    hreads.hasMagicCookie, hreads.xid_eq.trans hanswers.xid_eq, ?_, ?_, ?_, ?_, ?_,
    hreads.serverId_eq, ?_, ?_, ?_, ?_, Frame.ipv4ChecksumOk_of_views hviews,
    Frame.l4ChecksumOk_of_views hviews⟩
  · rw [hheader]
    rfl
  · rw [hheader, ← hanswers.client_eq]
    rfl
  · exact congrArg UdpHeader.srcPort hviews.udpHeader
  · exact congrArg UdpHeader.dstPort hviews.udpHeader
  · exact congrArg Ipv4Header.src hviews.ipv4Header
  · simp only [hkind]
    exact hanswers.kinds
  · intro hne
    have hne' : r.kind ≠ .nak := fun hnak ↦ hne ((hkind .nak).2 hnak)
    obtain ⟨hmask, -, htime⟩ := hreads.lease_eq hne'
    rw [hreads.yourIp_eq, (hanswers.lease hne').1]
    exact ⟨hassign, lookup_assign hassign, htime, hmask, DhcpReplyConfig.lists_of_get hne' hget⟩
  · intro hnak
    rw [hreads.yourIp_eq]
    exact hanswers.nak ((hkind .nak).1 hnak)
  · simp only [hkind]
    rw [hreads.yourIp_eq, ← hanswers.client_eq, ← DhcpReplyConfig.params_eq_ite hanswers]
    exact Prod.ext (congrArg Ipv4Header.dst hviews.ipv4Header)
      (congrArg EthernetHeader.dst hviews.ethernetHeader)

/-- The first DISCOVER of a host: the frame offers it the first address that is free. -/
theorem DhcpState.replies_decode_discover :
    ∃ s' out' n, handleInto ⟨⟨0x0a000001, 0x0a00000a, [(0x0a000002, 0x0a00000a)]⟩, ∅⟩
        sampleConfig (sampleMessage 1 1) (List.replicate 600 0) = some (s', some (out', n)) ∧
      s'.leases.lookup (sampleMac 1) = some 0x0a000002 ∧
      ∃ eth ip udp reply, SaysReply sampleConfig (sampleMessage 1 1)
        ⟨⟨0x0a000001, 0x0a00000a, [(0x0a000002, 0x0a00000a)]⟩, ∅⟩ s' (out'.take n)
        eth ip udp reply := by
  have hsome : (handleInto ⟨⟨0x0a000001, 0x0a00000a, [(0x0a000002, 0x0a00000a)]⟩, ∅⟩
      sampleConfig (sampleMessage 1 1) (List.replicate 600 0)).map (fun r ↦
        (r.1.leases.lookup (sampleMac 1), r.2.isSome)) = some (some 0x0a000002, true) := by
    decide +kernel
  obtain ⟨⟨s', f⟩, hhandle, hend⟩ := Option.map_eq_some_iff.1 hsome
  obtain ⟨hlease, hf⟩ := Prod.mk.inj hend
  obtain ⟨⟨out', n⟩, rfl⟩ := Option.isSome_iff_exists.1 hf
  exact ⟨s', out', n, hhandle, hlease, replies_decode hhandle⟩

end UserspaceRouter
