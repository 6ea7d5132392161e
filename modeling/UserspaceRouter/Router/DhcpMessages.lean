import UserspaceRouter.Net.DhcpBuild
import UserspaceRouter.Router.Dhcp
import UserspaceRouter.Router.DhcpClient
import UserspaceRouter.Router.Frame

/-!
# DHCP messages as frames

The server's replies and the client's messages, laid out as Ethernet frames by the code and found
again by the parser. `handleInto` and `pollInto` are `DhcpServer::handle` and `DhcpClient::poll`
with the caller's buffer: the tables of the server change before the reply is laid out, whether or
not it can be; the client moves on only if its message was.

Either side of the exchange needs one fact about the other's frames. A reply that could be laid out
parses to its header and its options (`parseDhcp_buildReply`), and so does a client's message
(`parseDhcp_layout`), which always fits. What a reply needs to fit is decided by the number of DNS
servers alone, and sixty are the most a reply that carries a lease has room for
(`exists_buildReply`).
-/

namespace UserspaceRouter

/-- `DhcpServerConfig` with the fields that only the layout of a reply reads. -/
structure DhcpReplyConfig extends DhcpServerConfig where
  /-- MAC of the interface that sources replies. -/
  serverMac : MacAddr
  gateway : Ipv4Addr
  subnetMask : Ipv4Addr
  dns : List Ipv4Addr
  leaseSecs : UInt32

/-- `SERVER_PORT`. -/
def serverPort : UInt16 := 67

/-- `CLIENT_PORT`. -/
def clientPort : UInt16 := 68

/-- `PAYLOAD_MAX`: scratch size for a built payload. -/
def payloadMax : ℕ := 512

/-- `BROADCAST_IP`. -/
def broadcastIp : Ipv4Addr := 0xffffffff

/-- The scratch region of the options. -/
def optionsScratch : Bytes := List.replicate (payloadMax - DhcpHeader.len) 0

/-- `PARAM_REQUEST_LIST`: the options the client asks the server to include. -/
def paramRequestList : Bytes :=
  [DhcpOption.subnetMask, DhcpOption.router, DhcpOption.dnsServer, DhcpOption.leaseTime]

/-! ### The server's replies -/

namespace DhcpReplyConfig

/-- The fixed header of a reply. -/
def header (cfg : DhcpReplyConfig) (r : Reply) : DhcpHeader :=
  ((((DhcpHeader.zero.initEthernet DhcpHeader.bootReply).setXid r.xid).setYourIp
    r.yiaddr).setServerIp cfg.serverIp).setClientHardwareAddr r.client.octets

open OptionsWriter in
/-- `DhcpServer::build_payload`; `none` if an option does not fit. -/
def buildPayload (cfg : DhcpReplyConfig) (r : Reply) : Option Bytes := do
  let w := OptionsWriter.new optionsScratch
  let w ← ok (w.messageType r.kind)
  let w ← ok (w.ipv4 DhcpOption.serverId cfg.serverIp)
  let w ←
    if r.kind = .nak then some w
    else do
      let w ← ok (w.seconds DhcpOption.leaseTime cfg.leaseSecs)
      let w ← ok (w.ipv4 DhcpOption.subnetMask cfg.subnetMask)
      let w ← ok (w.ipv4 DhcpOption.router cfg.gateway)
      if cfg.dns.isEmpty then some w else ok (w.ipv4List DhcpOption.dnsServer cfg.dns)
  let w ← ok w.end_
  some ((cfg.header r).octets ++ w.written)

/-- The addressing of a reply: broadcast for a NAK or if the client asked for it. -/
def params (cfg : DhcpReplyConfig) (r : Reply) : UdpV4 where
  srcMac := cfg.serverMac
  dstMac := if r.broadcast || r.kind == .nak then MacAddr.broadcast else r.client
  srcIp := cfg.serverIp
  dstIp := if r.broadcast || r.kind == .nak then broadcastIp else r.yiaddr
  srcPort := serverPort
  dstPort := clientPort
  ttl := Frame.defaultTtl

/-- `DhcpServer::build_reply`: the buffer afterwards and the frame's length. -/
def buildReply (cfg : DhcpReplyConfig) (r : Reply) (out : Bytes) : Option (Bytes × ℕ) := do
  let payload ← cfg.buildPayload r
  Frame.buildUdpIpv4 out (cfg.params r) payload

/-- The options of a reply. A NAK has no lease to describe. -/
def options (cfg : DhcpReplyConfig) (r : Reply) : List (UInt8 × Bytes) :=
  [(DhcpOption.messageType, [r.kind.toU8]), (DhcpOption.serverId, cfg.serverIp.octets)] ++
    if r.kind = .nak then []
    else
      [(DhcpOption.leaseTime, u32ToBeBytes cfg.leaseSecs),
        (DhcpOption.subnetMask, cfg.subnetMask.octets), (DhcpOption.router, cfg.gateway.octets)] ++
      if cfg.dns.isEmpty then []
      else [(DhcpOption.dnsServer, cfg.dns.flatMap Ipv4Addr.octets)]

end DhcpReplyConfig

/-- `DhcpServer::handle`, with the caller's buffer for the reply. -/
def DhcpState.handleInto (s : DhcpState) (cfg : DhcpReplyConfig) (view : DhcpView) (out : Bytes) :
    Option (DhcpState × Option (Bytes × ℕ)) :=
  (s.handle cfg.toDhcpServerConfig view).map fun p ↦ (p.1, p.2.bind (cfg.buildReply · out))

/-! ### The client's messages -/

namespace ClientMessage

/-- The fixed header of a message. -/
def header (m : ClientMessage) : DhcpHeader :=
  (((DhcpHeader.zero.initEthernet DhcpHeader.bootRequest).setXid m.xid).setBroadcast
    true).setClientHardwareAddr m.mac.octets

open OptionsWriter in
/-- The payload `DhcpClient::build` writes; `none` if an option does not fit. -/
def buildPayload (m : ClientMessage) : Option Bytes := do
  let w := OptionsWriter.new optionsScratch
  let w ← ok (w.messageType m.kind)
  let w ←
    if m.kind ≠ .request then some w
    else do
      let w ← m.requestedIp.elim (some w) fun ip ↦ ok (w.ipv4 DhcpOption.requestedIp ip)
      m.serverId.elim (some w) fun sid ↦ ok (w.ipv4 DhcpOption.serverId sid)
  let w ← ok (w.option DhcpOption.parameterRequestList paramRequestList)
  let w ← ok w.end_
  some (m.header.octets ++ w.written)

/-- The client has no address yet: `0.0.0.0:68` to `255.255.255.255:67`. -/
def params (m : ClientMessage) : UdpV4 where
  srcMac := m.mac
  dstMac := MacAddr.broadcast
  srcIp := Ipv4Addr.unspecified
  dstIp := broadcastIp
  srcPort := clientPort
  dstPort := serverPort
  ttl := Frame.defaultTtl

/-- `DhcpClient::build`: the buffer afterwards and the frame's length. -/
def layout (m : ClientMessage) (out : Bytes) : Option (Bytes × ℕ) := do
  let payload ← m.buildPayload
  Frame.buildUdpIpv4 out m.params payload

/-- The options of a message. Only a REQUEST names an address and a server. -/
def options (m : ClientMessage) : List (UInt8 × Bytes) :=
  (DhcpOption.messageType, [m.kind.toU8]) ::
    (if m.kind ≠ .request then []
      else (m.requestedIp.map fun ip ↦ (DhcpOption.requestedIp, ip.octets)).toList ++
        (m.serverId.map fun sid ↦ (DhcpOption.serverId, sid.octets)).toList) ++
    [(DhcpOption.parameterRequestList, paramRequestList)]

end ClientMessage

/-- `DhcpClient::poll`, with the caller's buffer. A message that cannot be laid out leaves the
client where it is. -/
def DhcpClient.pollInto (c : DhcpClient) (out : Bytes) : DhcpClient × Option (Bytes × ℕ) :=
  match c.poll with
  | (c', some m) => (m.layout out).elim (c, none) fun f ↦ (c', some f)
  | (c', none) => (c', none)

/-- **The branches of `pollInto`.** -/
inductive DhcpClient.Polled (c : DhcpClient) (out : Bytes) :
    DhcpClient × Option (Bytes × ℕ) → Prop
  | silent : Polled c out (c, none)
  | discover {f : Bytes × ℕ} : c.state = .init → (c.build .discover).layout out = some f →
      Polled c out ({ c with state := .selecting }, some f)
  | request {f : Bytes × ℕ} : c.state = .requesting → (c.build .request).layout out = some f →
      Polled c out (c, some f)

theorem DhcpClient.polled (c : DhcpClient) (out : Bytes) : Polled c out (c.pollInto out) := by
  rcases hstate : c.state with - | - | - | -
  · rcases hlayout : (c.build .discover).layout out with - | f
    · simp only [pollInto, poll, hstate, hlayout, Option.elim_none]
      exact .silent
    · simp only [pollInto, poll, hstate, hlayout, Option.elim_some]
      exact .discover hstate hlayout
  · simp only [pollInto, poll, hstate]
    exact .silent
  · rcases hlayout : (c.build .request).layout out with - | f
    · simp only [pollInto, poll, hstate, hlayout, Option.elim_none]
      exact .silent
    · simp only [pollInto, poll, hstate, hlayout, Option.elim_some]
      exact .request hstate hlayout
  · simp only [pollInto, poll, hstate]
    exact .silent

/-! ### What is laid out -/

theorem length_optionsScratch : optionsScratch.length = 272 := by
  rw [optionsScratch, List.length_replicate]
  rfl

open OptionsWriter in
/-- Options and end marker behind a header, in the scratch region. -/
theorem map_writeAll_optionsScratch (header : Bytes) (opts : List (UInt8 × Bytes)) :
    (((new optionsScratch).writeAll opts).bind fun w ↦ (ok w.end_).bind fun w ↦
        some (header ++ w.written)) =
      if Fit opts 271 then some (header ++ (Options.encode opts ++ [DhcpOption.end_]))
      else none := by
  have hend := writeAll_end opts optionsScratch (by rw [length_optionsScratch]; decide)
  rw [length_optionsScratch] at hend
  rcases hw : ((new optionsScratch).writeAll opts).bind fun w ↦ ok w.end_ with - | w
  · rw [hw] at hend
    rw [← Option.bind_assoc, hw]
    split_ifs at hend ⊢ with hfit
    · exact absurd hend (by simp)
    · rfl
  · rw [hw] at hend
    rw [← Option.bind_assoc, hw]
    split_ifs at hend ⊢ with hfit
    · rw [Option.bind_some, Option.some.inj hend]
    · exact absurd hend (by simp)

/-- The chain of calls of `build_payload` writes the options of the reply. -/
theorem DhcpReplyConfig.buildPayload_eq (cfg : DhcpReplyConfig) (r : Reply) :
    cfg.buildPayload r =
      if OptionsWriter.Fit (cfg.options r) 271 then
        some ((cfg.header r).octets ++ (Options.encode (cfg.options r) ++ [DhcpOption.end_]))
      else none := by
  rw [← map_writeAll_optionsScratch]
  by_cases hkind : r.kind = .nak <;> rcases hdns : cfg.dns.isEmpty with - | - <;>
    simp [buildPayload, options, hkind, hdns, OptionsWriter.messageType, OptionsWriter.ipv4,
      OptionsWriter.seconds, OptionsWriter.ipv4List_eq_option, Option.bind_assoc]

theorem ClientMessage.buildPayload_eq (m : ClientMessage) :
    m.buildPayload =
      if OptionsWriter.Fit m.options 271 then
        some (m.header.octets ++ (Options.encode m.options ++ [DhcpOption.end_]))
      else none := by
  rw [← map_writeAll_optionsScratch]
  by_cases hkind : m.kind = .request <;> rcases hip : m.requestedIp with - | ip <;>
    rcases hsid : m.serverId with - | sid <;>
    simp [buildPayload, options, hkind, hip, hsid, OptionsWriter.messageType, OptionsWriter.ipv4,
      Option.bind_assoc]

/-! ### Reading a message back -/

/-- A datagram between the DHCP ports, with a DHCP header and options as its payload. -/
theorem parseDhcp_datagram (p : UdpV4) (a b : UInt16) {h : DhcpHeader} (hc : h.chaddr.length = 16)
    (opts rest : Bytes) (hport : p.srcPort = serverPort ∨ p.srcPort = clientPort)
    (hlen : opts.length ≤ 65000) :
    ∃ view, parseDhcp (Frame.datagram p a b (h.octets ++ opts) ++ rest) = some view ∧
      view.header = h ∧ view.options = opts := by
  have hoctets : h.octets.length = 240 := DhcpHeader.length_octets hc
  have hpayload : (h.octets ++ opts).length = 240 + opts.length := by
    rw [List.length_append, hoctets]
  obtain ⟨eth, ip, hparse, -, hip, -, hudp, hports⟩ :=
    Frame.udp_of_datagram p a b (h.octets ++ opts) rest (by omega)
  rw [hpayload] at hudp
  set buf := Frame.datagram p a b (h.octets ++ opts) ++ rest with hbuf
  obtain ⟨headers, hheaders, hsplit⟩ : ∃ headers : Bytes, headers.length = 42 ∧
      buf = headers ++ (h.octets ++ (opts ++ rest)) := by
    refine ⟨(Frame.ethernet p).octets ++ (Frame.ipv4 p (h.octets ++ opts).length a).octets ++
      (Frame.udp p (h.octets ++ opts).length b).octets, rfl, ?_⟩
    simp only [hbuf, Frame.datagram, List.append_assoc]
  have hread : (Pod.readAt buf 42 : DhcpHeader) = h := by
    rw [hsplit, ← hheaders]
    exact DhcpHeader.readAt_octets hc headers (opts ++ rest)
  have hsize : 42 + 240 ≤ buf.length := by
    rw [hsplit, List.length_append, List.length_append, hoctets, hheaders]
    omega
  have hfront : (headers ++ h.octets).length = 42 + 240 := by
    rw [List.length_append, hoctets, hheaders]
  have hoptions : slice buf (42 + 240) (42 + (240 + opts.length)) = opts := by
    rw [hsplit, ← List.append_assoc, slice_append_right (by omega) (by omega), hfront,
      Nat.sub_self, ← Nat.add_assoc, Nat.add_sub_cancel_left, slice, List.drop_zero,
      List.take_left]
  have hdhcp : (⟨buf, 34, 42, 42 + (240 + opts.length)⟩ : UdpView).isDhcp = true := by
    have hsrc : (⟨buf, 34, 42, 42 + (240 + opts.length)⟩ : UdpView).srcPort = p.srcPort :=
      congrArg UdpHeader.srcPort hports
    simp only [UdpView.isDhcp, hsrc]
    rcases hport with hport | hport <;> rw [hport] <;> rfl
  have hheader : headerAt DhcpHeader buf 42 = some h := headerAt_eq_some_iff.2 ⟨hsize, hread⟩
  have hstart : min (42 + DhcpHeader.len) (42 + (240 + opts.length)) = 42 + 240 := by
    show min (42 + 240) _ = _
    omega
  refine ⟨⟨buf, 42, 42 + 240, 42 + (240 + opts.length)⟩, ?_, hread, hoptions⟩
  simp only [parseDhcp, hparse, hip, hudp, UdpView.dhcp, hdhcp, if_true, DhcpView.parseAt, hheader,
    hstart, Option.bind_eq_bind, Option.bind_some]

/-- A frame built around a header and options that can be written parses to a view in which every
getter finds what was written. -/
theorem parseDhcp_build {p : UdpV4} {h : DhcpHeader} {opts : List (UInt8 × Bytes)}
    {out out' : Bytes} {n : ℕ} (hc : h.chaddr.length = 16)
    (hport : p.srcPort = serverPort ∨ p.srcPort = clientPort)
    (hcode : ∀ o ∈ opts, o.1 ≠ DhcpOption.pad ∧ o.1 ≠ DhcpOption.end_)
    (hfit : OptionsWriter.Fit opts 271)
    (hbuild : Frame.buildUdpIpv4 out p (h.octets ++ (Options.encode opts ++ [DhcpOption.end_])) =
      some (out', n)) :
    ∃ view, parseDhcp (out'.take n) = some view ∧ view.header = h ∧
      ∀ code, Options.get view.options code = (opts.find? fun o ↦ o.1 = code).map Prod.snd := by
  set payload := h.octets ++ (Options.encode opts ++ [DhcpOption.end_]) with hpayload
  rw [Frame.take_of_build hbuild]
  have hlen : (Options.encode opts ++ [DhcpOption.end_]).length ≤ 65000 := by
    have := hfit.2
    rw [List.length_append, List.length_singleton]
    omega
  obtain ⟨view, hparse, hheader, hoptions⟩ := parseDhcp_datagram p (Frame.ipSum p payload)
    (Frame.udpSum p payload) hc (Options.encode opts ++ [DhcpOption.end_]) [] hport hlen
  rw [List.append_nil] at hparse
  refine ⟨view, hparse, hheader, fun code ↦ ?_⟩
  rw [hoptions]
  exact Options.get_encode (fun o ho ↦ ⟨(hcode o ho).1, (hcode o ho).2, hfit.1 o ho⟩) code []

/-- **What a client reads in a reply.** -/
structure DhcpView.ReadsReply (view : DhcpView) (cfg : DhcpReplyConfig) (r : Reply) : Prop where
  op_eq : view.header.op = DhcpHeader.bootReply
  hasMagicCookie : view.header.hasMagicCookie = true
  xid_eq : view.header.xid = r.xid
  yourIp_eq : view.header.yourIp = r.yiaddr
  clientMac_eq : view.header.clientMac = r.client
  messageType_eq : view.messageType = some r.kind
  serverId_eq : Options.serverId view.options = some cfg.serverIp
  lease_eq : r.kind ≠ .nak → Options.subnetMask view.options = some cfg.subnetMask ∧
    (Options.routers view.options).head? = some cfg.gateway ∧
    Options.leaseTime view.options = some cfg.leaseSecs

/-- **What a server reads in a client's message.** -/
structure DhcpView.ReadsMessage (view : DhcpView) (m : ClientMessage) : Prop where
  op_eq : view.header.op = DhcpHeader.bootRequest
  xid_eq : view.header.xid = m.xid
  clientMac_eq : view.header.clientMac = m.mac
  messageType_eq : view.messageType = some m.kind
  request_eq : m.kind = .request → Options.requestedIp view.options = m.requestedIp ∧
    Options.serverId view.options = m.serverId

theorem DhcpReplyConfig.code_options (cfg : DhcpReplyConfig) (r : Reply) :
    ∀ o ∈ cfg.options r, o.1 ≠ DhcpOption.pad ∧ o.1 ≠ DhcpOption.end_ := by
  intro o ho
  simp only [options] at ho
  split_ifs at ho <;>
    simp only [List.cons_append, List.nil_append, List.append_nil, List.mem_cons,
      List.not_mem_nil, or_false] at ho <;>
    rcases ho with rfl | rfl | rfl | rfl | rfl | rfl <;> dsimp only <;> decide

theorem ClientMessage.code_options (m : ClientMessage) :
    ∀ o ∈ m.options, o.1 ≠ DhcpOption.pad ∧ o.1 ≠ DhcpOption.end_ := by
  intro o ho
  simp only [options] at ho
  rcases hip : m.requestedIp with - | ip <;> rcases hsid : m.serverId with - | sid <;>
    rw [hip, hsid] at ho <;> split_ifs at ho <;>
    simp only [Option.map_some, Option.map_none, Option.toList_some, Option.toList_none,
      List.cons_append, List.nil_append, List.mem_cons, List.not_mem_nil, or_false] at ho <;>
    rcases ho with rfl | rfl | rfl | rfl <;> dsimp only <;> decide

theorem DhcpReplyConfig.clientMac_header (cfg : DhcpReplyConfig) (r : Reply) :
    (cfg.header r).clientMac = r.client ∧ (cfg.header r).chaddr.length = 16 :=
  DhcpHeader.clientMac_setClientHardwareAddr rfl r.client

theorem ClientMessage.clientMac_header (m : ClientMessage) :
    m.header.clientMac = m.mac ∧ m.header.chaddr.length = 16 :=
  DhcpHeader.clientMac_setClientHardwareAddr rfl m.mac

/-- A reply that could be laid out parses to its header and its options. -/
theorem exists_view_of_buildReply {cfg : DhcpReplyConfig} {r : Reply} {out out' : Bytes} {n : ℕ}
    (h : cfg.buildReply r out = some (out', n)) :
    ∃ view, parseDhcp (out'.take n) = some view ∧ view.header = cfg.header r ∧
      ∀ code, Options.get view.options code =
        ((cfg.options r).find? fun o ↦ o.1 = code).map Prod.snd := by
  rw [DhcpReplyConfig.buildReply, Option.bind_eq_bind, Option.bind_eq_some_iff] at h
  obtain ⟨payload, hpayload, hbuild⟩ := h
  rw [DhcpReplyConfig.buildPayload_eq] at hpayload
  split_ifs at hpayload with hfit
  obtain rfl := Option.some.inj hpayload
  exact parseDhcp_build (cfg.clientMac_header r).2 (Or.inl rfl) (cfg.code_options r) hfit hbuild

/-- **A reply reads back.** -/
theorem parseDhcp_buildReply {cfg : DhcpReplyConfig} {r : Reply} {out out' : Bytes} {n : ℕ}
    (h : cfg.buildReply r out = some (out', n)) :
    ∃ view, parseDhcp (out'.take n) = some view ∧ view.ReadsReply cfg r := by
  obtain ⟨view, hparse, hheader, hget⟩ := exists_view_of_buildReply h
  refine ⟨view, hparse, ?_, ?_, ?_, ?_, ?_, ?_, ?_, ?_⟩
  · rw [hheader]
    rfl
  · rw [hheader]
    rfl
  · rw [hheader]
    rfl
  · rw [hheader]
    rfl
  · rw [hheader]
    exact (cfg.clientMac_header r).1
  · rw [DhcpView.messageType, Options.messageType, hget]
    exact MessageType.fromU8_toU8 r.kind
  · rw [Options.serverId, hget]
    exact Options.optIpv4_octets cfg.serverIp
  · intro hkind
    rw [Options.subnetMask, Options.routers, Options.leaseTime, hget, hget, hget,
      DhcpReplyConfig.options, if_neg hkind]
    exact ⟨Options.optIpv4_octets cfg.subnetMask, Options.head?_ipv4List_octets cfg.gateway,
      Options.optSeconds_toBeBytes cfg.leaseSecs⟩

/-- **A client's message reads back.** -/
theorem parseDhcp_layout {m : ClientMessage} {out out' : Bytes} {n : ℕ}
    (h : m.layout out = some (out', n)) :
    ∃ view, parseDhcp (out'.take n) = some view ∧ view.ReadsMessage m := by
  rw [ClientMessage.layout, Option.bind_eq_bind, Option.bind_eq_some_iff] at h
  obtain ⟨payload, hpayload, hbuild⟩ := h
  rw [ClientMessage.buildPayload_eq] at hpayload
  split_ifs at hpayload with hfit
  obtain rfl := Option.some.inj hpayload
  obtain ⟨hmac, hchaddr⟩ := m.clientMac_header
  obtain ⟨view, hparse, hheader, hget⟩ := parseDhcp_build hchaddr (Or.inr rfl) m.code_options hfit
    hbuild
  refine ⟨view, hparse, ?_, ?_, ?_, ?_, ?_⟩
  · rw [hheader]
    rfl
  · rw [hheader]
    rfl
  · rw [hheader]
    exact hmac
  · rw [DhcpView.messageType, Options.messageType, hget]
    exact MessageType.fromU8_toU8 m.kind
  · intro hkind
    rw [Options.requestedIp, Options.serverId, hget, hget, ClientMessage.options,
      if_neg (not_not.2 hkind)]
    rcases m.requestedIp with - | ip <;> rcases m.serverId with - | sid
    · exact ⟨rfl, rfl⟩
    · exact ⟨rfl, Options.optIpv4_octets sid⟩
    · exact ⟨Options.optIpv4_octets ip, rfl⟩
    · exact ⟨Options.optIpv4_octets ip, Options.optIpv4_octets sid⟩

/-! ### Room for a message -/

/-- A payload that could be built fits in any buffer with room for the largest. -/
theorem exists_buildUdpIpv4 {out payload : Bytes} (p : UdpV4)
    (hroom : Frame.frameLen payloadMax ≤ out.length) (hpayload : payload.length ≤ payloadMax) :
    ∃ f, Frame.buildUdpIpv4 out p payload = some f :=
  ⟨_, Frame.build_eq out p payload (Nat.le_trans (Nat.add_le_add_left hpayload _) hroom)⟩

theorem length_payload_le {h : DhcpHeader} (hc : h.chaddr.length = 16)
    {opts : List (UInt8 × Bytes)} (hfit : OptionsWriter.Fit opts 271) :
    (h.octets ++ (Options.encode opts ++ [DhcpOption.end_])).length ≤ payloadMax := by
  have hoctets : h.octets.length = 240 := DhcpHeader.length_octets hc
  have hopts := hfit.2
  rw [List.length_append, List.length_append, hoctets, List.length_singleton]
  show _ ≤ 512
  omega

/-- Sixty DNS servers are the most that fit. -/
theorem DhcpReplyConfig.fit_options {cfg : DhcpReplyConfig} (hdns : cfg.dns.length ≤ 60)
    (r : Reply) : OptionsWriter.Fit (cfg.options r) 271 := by
  have hlen := OptionsWriter.length_flatMap_octets cfg.dns
  by_cases hkind : r.kind = .nak
  · simp [OptionsWriter.Fit, Options.encode, options, hkind]
  · rcases hempty : cfg.dns.isEmpty with - | -
    · simp [OptionsWriter.Fit, Options.encode, options, hkind, hempty]
      omega
    · simp [OptionsWriter.Fit, Options.encode, options, hkind, hempty]

theorem ClientMessage.fit_options (m : ClientMessage) : OptionsWriter.Fit m.options 271 := by
  by_cases hkind : m.kind = .request <;> rcases hip : m.requestedIp with - | ip <;>
    rcases hsid : m.serverId with - | sid <;>
    simp [OptionsWriter.Fit, Options.encode, options, hkind, hip, hsid, paramRequestList]

/-- **A reply fits** with up to sixty DNS servers. -/
theorem exists_buildReply {cfg : DhcpReplyConfig} (hdns : cfg.dns.length ≤ 60) (r : Reply)
    {out : Bytes} (hroom : Frame.frameLen payloadMax ≤ out.length) :
    ∃ f, cfg.buildReply r out = some f := by
  have hfit := DhcpReplyConfig.fit_options hdns r
  rw [DhcpReplyConfig.buildReply, cfg.buildPayload_eq, if_pos hfit]
  exact exists_buildUdpIpv4 _ hroom (length_payload_le (cfg.clientMac_header r).2 hfit)

/-- **A client's message fits.** -/
theorem exists_layout (m : ClientMessage) {out : Bytes}
    (hroom : Frame.frameLen payloadMax ≤ out.length) : ∃ f, m.layout out = some f := by
  rw [ClientMessage.layout, m.buildPayload_eq, if_pos m.fit_options]
  exact exists_buildUdpIpv4 _ hroom (length_payload_le m.clientMac_header.2 m.fit_options)

/-- **Replies of different servers differ in the source MAC only.** -/
theorem apartFromSource_buildReply (cfg : DhcpReplyConfig) (m m' : MacAddr) (r : Reply)
    {out out' : Bytes} (h : out.length = out'.length) :
    (DhcpReplyConfig.buildReply { cfg with serverMac := m } r out).map
        (fun f ↦ Frame.apartFromSource (f.1.take f.2)) =
      (DhcpReplyConfig.buildReply { cfg with serverMac := m' } r out').map
        fun f ↦ Frame.apartFromSource (f.1.take f.2) := by
  have hpayload : DhcpReplyConfig.buildPayload { cfg with serverMac := m } r =
      DhcpReplyConfig.buildPayload { cfg with serverMac := m' } r := by
    simp only [DhcpReplyConfig.buildPayload, DhcpReplyConfig.header]
  rw [DhcpReplyConfig.buildReply, DhcpReplyConfig.buildReply, hpayload]
  rcases DhcpReplyConfig.buildPayload { cfg with serverMac := m' } r with - | payload
  · rw [Option.bind_eq_bind, Option.bind_none, Option.bind_none]
  · exact Frame.apartFromSource_build h
      (DhcpReplyConfig.params { cfg with serverMac := m' } r) m payload

end UserspaceRouter
