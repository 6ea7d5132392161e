import UserspaceRouter.Foundations.AssocMap
import UserspaceRouter.Net.Arp

/-!
# Two ARP responders

Requests for the router's own addresses can be answered by `router::arp::respond`, which is given a
frame and the list of addresses, and by `net::arp::handle`, which is given a packet and one address
and also learns the sender. Both end in `build_reply`, here with the buffer it writes into.

They differ in one check: `handle` ignores a packet that is not an Ethernet/IPv4 one, and `respond`
does not ask. So on a request that names another hardware or protocol type, or other address
lengths, `respond` answers to what it takes for addresses; on all other packets the two send the
same bytes (`sentBytes_respond`, `sentBytes_handle`).
-/

namespace UserspaceRouter

namespace ArpPacket

/-- A well-formed Ethernet/IPv4 ARP packet. -/
def isEthernetIpv4 (a : ArpPacket) : Bool :=
  a.htype == 1 && a.ptype == 0x0800 && a.hlen == 6 && a.plen == 4

/-- `build_reply`, with the buffer afterwards. The Ethernet header is written before there is known
to be room for the packet. -/
def buildReplyInPlace (buf : Bytes) (senderMac : MacAddr) (senderIp : Ipv4Addr)
    (targetMac : MacAddr) (targetIp : Ipv4Addr) : Bytes × Option ℕ :=
  if buf.length < EthernetHeader.len then (buf, none)
  else
    let buf := writeAt buf 0 (targetMac.octets ++ senderMac.octets ++ u16ToBeBytes Ethertype.arp)
    if buf.length - EthernetHeader.len < len then (buf, none)
    else
      let arp := mk' reply senderMac senderIp targetMac targetIp
      (writeAt buf EthernetHeader.len arp.octets, some frameLen)

theorem buildReplyInPlace_eq {buf : Bytes} (h : frameLen ≤ buf.length) (senderMac : MacAddr)
    (senderIp : Ipv4Addr) (targetMac : MacAddr) (targetIp : Ipv4Addr) :
    buildReplyInPlace buf senderMac senderIp targetMac targetIp =
      (frame targetMac senderMac (mk' reply senderMac senderIp targetMac targetIp) ++
        buf.drop frameLen, some frameLen) := by
  have hframe : 42 ≤ buf.length := h
  set eth := targetMac.octets ++ senderMac.octets ++ u16ToBeBytes Ethertype.arp with heth
  set arp := mk' reply senderMac senderIp targetMac targetIp with harp
  have hlen : eth.length = 14 := rfl
  have hwrite : (writeAt buf 0 eth).length = buf.length :=
    length_writeAt (by rw [hlen]; omega)
  have hroom : ¬buf.length < EthernetHeader.len := by
    show ¬buf.length < 14
    omega
  have hroom' : ¬buf.length - EthernetHeader.len < len := by
    show ¬buf.length - 14 < 28
    omega
  have hboth : writeAt (writeAt buf 0 eth) EthernetHeader.len arp.octets =
      writeAt buf 0 (eth ++ arp.octets) :=
    writeAt_writeAt_append (Nat.zero_le _) eth arp.octets
  simp only [buildReplyInPlace, if_neg hroom, ← heth, hwrite, if_neg hroom', ← harp, hboth]
  rfl

end ArpPacket

/-- The bytes that are sent, of a buffer and the length of what was built into it. -/
def sentBytes (r : Bytes × Option ℕ) : Option Bytes := r.2.map r.1.take

/-! ### `router::arp::respond` -/

/-- If `frame` is an ARP request for one of `owned`, build the reply into `out`. -/
def respond (ourMac : MacAddr) (owned : List Ipv4Addr) (frame out : Bytes) : Bytes × Option ℕ :=
  match parseArp frame with
  | none => (out, none)
  | some (_, pkt) =>
    if !pkt.isRequest then (out, none)
    else
      let target := pkt.targetIp
      if !owned.contains target then (out, none)
      -- we are `target`; reply to the requester
      else ArpPacket.buildReplyInPlace out ourMac target pkt.sha pkt.senderIp

/-! ### `net::arp::handle` -/

/-- `NeighborCache`: IPv4 to MAC, learned from observed traffic. -/
abbrev NeighborCache := AList fun _ : Ipv4Addr ↦ MacAddr

/-- Record the sender's mapping. -/
def NeighborCache.learnFrom (cache : NeighborCache) (arp : ArpPacket) : NeighborCache :=
  cache.insert arp.senderIp arp.sha

/-- What the caller of `handle` should do. -/
inductive ArpAction
  | sendReply (len : ℕ)
  | nothing
deriving DecidableEq, Repr

/-- The length of the reply to transmit. -/
def ArpAction.replyLen : ArpAction → Option ℕ
  | sendReply len => some len
  | nothing => none

/-- Process one inbound ARP packet: the cache and the buffer afterwards, and what to do. -/
def ArpPacket.handle (ourMac : MacAddr) (ourIp : Ipv4Addr) (cache : NeighborCache)
    (inArp : ArpPacket) (out : Bytes) : NeighborCache × Bytes × ArpAction :=
  if !inArp.isEthernetIpv4 then (cache, out, .nothing)
  else
    let cache := cache.learnFrom inArp
    if inArp.isRequest && inArp.targetIp == ourIp then
      match buildReplyInPlace out ourMac ourIp inArp.sha inArp.senderIp with
      | (out, some len) => (cache, out, .sendReply len)
      | (out, none) => (cache, out, .nothing)
    else (cache, out, .nothing)

/-! ### What each of them sends -/

section Sends

variable {frame out : Bytes} {header : EthernetHeader} {pkt : ArpPacket} {ourMac : MacAddr}

/-- The reply that says who has `ip`. -/
def ArpPacket.replyTo (pkt : ArpPacket) (ourMac : MacAddr) (ip : Ipv4Addr) : Bytes :=
  ArpPacket.frame pkt.sha ourMac (mk' reply ourMac ip pkt.sha pkt.senderIp)

theorem sentBytes_buildReplyInPlace (hout : ArpPacket.frameLen ≤ out.length) (pkt : ArpPacket)
    (ourMac : MacAddr) (ip : Ipv4Addr) :
    sentBytes (ArpPacket.buildReplyInPlace out ourMac ip pkt.sha pkt.senderIp) =
      some (pkt.replyTo ourMac ip) := by
  rw [ArpPacket.buildReplyInPlace_eq hout, sentBytes, Option.map_some]
  exact congrArg some (List.take_left' (length_frame _ _ _))

/-- **What `respond` sends**, for any list of addresses. -/
theorem sentBytes_respond (hparse : parseArp frame = some (header, pkt))
    (hout : ArpPacket.frameLen ≤ out.length) (owned : List Ipv4Addr) :
    sentBytes (respond ourMac owned frame out) =
      if pkt.isRequest = true ∧ pkt.targetIp ∈ owned then some (pkt.replyTo ourMac pkt.targetIp)
      else none := by
  rw [respond, hparse]
  dsimp only
  rcases hreq : pkt.isRequest with - | -
  · simp [sentBytes]
  · by_cases hmem : pkt.targetIp ∈ owned
    · have hcontains : owned.contains pkt.targetIp = true := List.contains_iff_mem.2 hmem
      simp only [hcontains, Bool.not_true, Bool.false_eq_true, if_false, hmem, and_self, if_true]
      exact sentBytes_buildReplyInPlace hout pkt ourMac pkt.targetIp
    · have hcontains : owned.contains pkt.targetIp = false :=
        Bool.eq_false_iff.2 fun h ↦ hmem (List.contains_iff_mem.1 h)
      simp only [hcontains, Bool.not_true, Bool.not_false, Bool.false_eq_true, if_false, if_true,
        hmem, and_false]
      rfl

/-- **What `handle` sends.** -/
theorem sentBytes_handle (hout : ArpPacket.frameLen ≤ out.length) (cache : NeighborCache)
    (ourIp : Ipv4Addr) :
    sentBytes ((ArpPacket.handle ourMac ourIp cache pkt out).2.1,
        (ArpPacket.handle ourMac ourIp cache pkt out).2.2.replyLen) =
      if pkt.isEthernetIpv4 = true ∧ pkt.isRequest = true ∧ pkt.targetIp = ourIp then
        some (pkt.replyTo ourMac ourIp)
      else none := by
  have hbuilt := ArpPacket.buildReplyInPlace_eq hout ourMac ourIp pkt.sha pkt.senderIp
  have hsent := sentBytes_buildReplyInPlace hout pkt ourMac ourIp
  rw [hbuilt] at hsent
  rw [ArpPacket.handle]
  rcases hwf : pkt.isEthernetIpv4 with - | -
  · simp [sentBytes, ArpAction.replyLen]
  · by_cases hfor : pkt.isRequest = true ∧ pkt.targetIp = ourIp
    · have hcond : (pkt.isRequest && pkt.targetIp == ourIp) = true := by simp [hfor]
      simp only [Bool.not_true, Bool.false_eq_true, if_false, hcond, if_true, hbuilt, true_and,
        if_pos hfor]
      exact hsent
    · have hcond : (pkt.isRequest && pkt.targetIp == ourIp) = false := by
        simpa using hfor
      simp only [Bool.not_true, Bool.false_eq_true, if_false, hcond, true_and, if_neg hfor]
      rfl

end Sends

/-- **Where the responders agree.** Given a frame that carries an ARP packet, one address and room
for a reply, they send the same or both nothing exactly if the packet is a well-formed Ethernet/IPv4
one or not a request for the address. -/
theorem responders_agree_iff {frame : Bytes} {header : EthernetHeader} {pkt : ArpPacket}
    (hparse : parseArp frame = some (header, pkt)) (ourMac : MacAddr) (ourIp : Ipv4Addr)
    (cache : NeighborCache) {out : Bytes} (hout : out.length = ArpPacket.frameLen) :
    sentBytes (respond ourMac [ourIp] frame out) =
        sentBytes ((ArpPacket.handle ourMac ourIp cache pkt out).2.1,
          (ArpPacket.handle ourMac ourIp cache pkt out).2.2.replyLen) ↔
      (pkt.isRequest = true → pkt.targetIp = ourIp → pkt.isEthernetIpv4 = true) := by
  have hroom := Nat.le_of_eq hout.symm
  rw [sentBytes_respond hparse hroom, sentBytes_handle hroom]
  simp only [List.mem_singleton]
  by_cases hfor : pkt.isRequest = true ∧ pkt.targetIp = ourIp
  · obtain ⟨hreq, rfl⟩ := hfor
    rcases hwf : pkt.isEthernetIpv4 with - | - <;> simp [hreq]
  · rw [if_neg hfor, if_neg fun h ↦ hfor h.2]
    exact ⟨fun _ hreq htarget ↦ absurd ⟨hreq, htarget⟩ hfor, fun _ ↦ rfl⟩

/-- A request from `10.0.0.2` for `10.0.0.1`, of the given hardware type. -/
def sampleRequest (htype : UInt16) : ArpPacket :=
  ⟨htype, 0x0800, 6, 4, ArpPacket.request, ⟨2, 0, 0, 0, 0, 2⟩, 0x0a000002, .zero, 0x0a000001⟩

/-- The frame it comes in. -/
def sampleRequestFrame (htype : UInt16) : Bytes :=
  (sampleRequest htype).frame .broadcast ⟨2, 0, 0, 0, 0, 2⟩

theorem parseArp_sampleRequestFrame (htype : UInt16) :
    parseArp (sampleRequestFrame htype) =
      some (⟨.broadcast, ⟨2, 0, 0, 0, 0, 2⟩, Ethertype.arp⟩, sampleRequest htype) := by
  have hparse := parseArp_frame .broadcast ⟨2, 0, 0, 0, 0, 2⟩ (sampleRequest htype) []
  rwa [List.append_nil] at hparse

/-- An ordinary request is answered by both with the same bytes. -/
theorem responders_agree_on_ethernet :
    sentBytes (respond ⟨2, 0, 0, 0, 0, 1⟩ [0x0a000001] (sampleRequestFrame 1)
        (List.replicate 42 0)) =
      sentBytes ((ArpPacket.handle ⟨2, 0, 0, 0, 0, 1⟩ 0x0a000001 ∅ (sampleRequest 1)
        (List.replicate 42 0)).2.1, (ArpPacket.handle ⟨2, 0, 0, 0, 0, 1⟩ 0x0a000001 ∅
          (sampleRequest 1) (List.replicate 42 0)).2.2.replyLen) :=
  (responders_agree_iff (parseArp_sampleRequestFrame 1) ⟨2, 0, 0, 0, 0, 1⟩ 0x0a000001 ∅
    List.length_replicate).2 fun _ _ ↦ rfl

/-- A request of hardware type 6 (IEEE 802 networks) is answered by one of them only. -/
theorem respond_answers_other_hardware :
    ∃ frame header pkt, parseArp frame = some (header, pkt) ∧
      (respond ⟨2, 0, 0, 0, 0, 1⟩ [0x0a000001] frame (List.replicate 42 0)).2 = some 42 ∧
      ∀ cache, ArpPacket.handle ⟨2, 0, 0, 0, 0, 1⟩ 0x0a000001 cache pkt (List.replicate 42 0) =
        (cache, List.replicate 42 0, .nothing) := by
  refine ⟨sampleRequestFrame 6, _, sampleRequest 6, parseArp_sampleRequestFrame 6, ?_,
    fun cache ↦ rfl⟩
  decide +kernel

end UserspaceRouter
