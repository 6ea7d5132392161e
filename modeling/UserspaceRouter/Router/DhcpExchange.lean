import UserspaceRouter.Router.DhcpServers

/-!
# The exchange of a client with the bridged servers

DISCOVER, OFFER, REQUEST, ACK, with the client on one side and any of the servers on the other, and
every message laid out as a frame by one side and parsed by the other. In between, the servers
handle whatever other clients send.

The exchange goes through whenever the DISCOVER is answered (`Exchange.completes`): what the other
side needs is written into the frames, and other clients cannot touch the lease that the DISCOVER
made. So all depends on whether the client can be given an address (`CanServe`). A pool with a free
address has one to give, with one exception: the size of the range of all addresses wraps to zero,
and a pool that is that one range looks empty.

The tables may have been through anything before: messages, and addresses reserved for hosts that do
not use DHCP or given back, also while they were leased or free. Nothing is assumed of them but that
ranges and leases are within the bounds of the pool (`Sound`), which every operation keeps.
-/

namespace UserspaceRouter

open TransitionSystem

/-! ### Tables that have been through anything -/

/-- What happens to the tables. -/
inductive TableOp
  | message (c : DhcpCall)
  | reserve (ip : Ipv4Addr)
  | release (ip : Ipv4Addr)

namespace DhcpState

/-- One operation; `none` is the failed assertion of `release`. -/
def apply (cfg : DhcpReplyConfig) (s : DhcpState) : TableOp → Option DhcpState
  | .message c => (s.serve cfg c).map Prod.fst
  | .reserve ip => some { s with pool := (s.pool.reserve ip).1 }
  | .release ip => (s.pool.release ip).map fun pool ↦ { s with pool }

end DhcpState

/-- The tables, under any sequence of operations. -/
def dhcpTables (cfg : DhcpReplyConfig) : TransitionSystem DhcpState TableOp :=
  .ofPartial (DhcpState.apply cfg)

namespace DhcpState

/-- **Ranges and leases are within bounds.** -/
structure Sound (s : DhcpState) : Prop where
  bounded : s.pool.Bounded
  inBounds : ∀ mac ip, s.leases.lookup mac = some ip → s.pool.InBounds ip

/-- The client has an address, or there is one to give it: a free range that is not the range of all
addresses. -/
def CanServe (s : DhcpState) (mac : MacAddr) : Prop :=
  (∃ ip, s.leases.lookup mac = some ip) ∨
    ∃ i ∈ s.pool.intervals, i ≠ AddressPool.allAddresses

variable {s s' : DhcpState} {mac : MacAddr}

theorem sound_boot {start end_ : Ipv4Addr} {reserved : List Ipv4Addr}
    (h : boot start end_ reserved = some s) : s.Sound := by
  obtain ⟨hwf, -, -, hleases⟩ := pool_boot h
  refine ⟨hwf.bounded, fun mac ip hlease ↦ ?_⟩
  rw [hleases] at hlease
  exact absurd hlease (by simp)

/-- A pool that keeps its bounds keeps the leases within them. -/
theorem Sound.of_pool (h : s.Sound) {pool : AddressPool} (hpool : pool.Bounded)
    (hstart : pool.start = s.pool.start) (hend : pool.end_ = s.pool.end_) :
    Sound { s with pool } := by
  refine ⟨hpool, fun mac ip hlease ↦ ?_⟩
  rw [AddressPool.InBounds, hstart, hend]
  exact h.inBounds mac ip hlease

/-- **What `assign` does**: it fails exactly if it cannot serve the client, and then changes
nothing; else the client has a lease afterwards, and nobody else's has changed. -/
theorem Sound.assign_cases (h : s.Sound) (mac : MacAddr) :
    (s.assign mac = (s, none) ∧ ¬s.CanServe mac) ∨
      ∃ s' ip, s.assign mac = (s', some ip) ∧ s.CanServe mac ∧ s'.Sound ∧
        s'.leases.lookup mac = some ip ∧
        ∀ mac', mac' ≠ mac → s'.leases.lookup mac' = s.leases.lookup mac' := by
  rcases hlease : s.leases.lookup mac with - | ip
  · rcases h.bounded.take_one_cases with ⟨htake, hall⟩ | ⟨hsome, ip, out, pool, htake, hhead,
      hip, hbounded, hstart, hend⟩
    · refine Or.inl ⟨by simp only [assign, hlease, htake], ?_⟩
      rintro (⟨ip, hip⟩ | ⟨i, hi, hne⟩)
      · exact absurd (hlease.symm.trans hip) (by simp)
      · exact hne (hall i hi)
    · refine Or.inr ⟨⟨pool, s.leases.insert mac ip⟩, ip, ?_, Or.inr hsome, ⟨hbounded, ?_⟩,
        AList.lookup_insert _, fun mac' hne ↦ AList.lookup_insert_ne hne⟩
      · simp only [assign, hlease, htake, hhead]
      · intro mac' ip' hlease'
        rw [AddressPool.InBounds, hstart, hend]
        rw [AList.lookup_insert_ite] at hlease'
        split_ifs at hlease' with hmac
        · exact Option.some.inj hlease' ▸ hip
        · exact h.inBounds mac' ip' hlease'
  · exact Or.inr ⟨s, ip, by simp only [assign, hlease], Or.inl ⟨ip, hlease⟩, h, hlease,
      fun _ _ ↦ rfl⟩

/-- **What a message does**: it is handled, and nobody's lease changes but the sender's. -/
theorem Sound.handle (h : s.Sound) (cfg : DhcpServerConfig) (view : DhcpView) :
    ∃ s' r, s.handle cfg view = some (s', r) ∧ s'.Sound ∧
      ∀ mac, mac ≠ view.header.clientMac → s'.leases.lookup mac = s.leases.lookup mac := by
  have hhandling := handling s cfg view
  generalize s.handle cfg view = res at hhandling ⊢
  cases hhandling with
  | assign _ _ =>
    rcases h.assign_cases view.header.clientMac with ⟨heq, -⟩ |
      ⟨s', ip, heq, -, hsound, -, hothers⟩ <;> rw [heq]
    · exact ⟨s, _, rfl, h, fun _ _ ↦ rfl⟩
    · exact ⟨s', _, rfl, hsound, hothers⟩
  | ignore _ => exact ⟨s, _, rfl, h, fun _ _ ↦ rfl⟩
  | @giveBack ip _ _ hlease =>
    have hip := h.inBounds _ _ hlease
    obtain ⟨pool, hrelease⟩ : ∃ pool, s.pool.release ip = some pool := ⟨_, if_pos hip⟩
    obtain ⟨hbounded, hstart, hend⟩ := h.bounded.release hrelease
    rw [hrelease]
    refine ⟨_, _, rfl, ⟨hbounded, fun mac' ip' hlease' ↦ ?_⟩,
      fun mac' hne ↦ AList.lookup_erase_ne hne⟩
    rw [AddressPool.InBounds, hstart, hend]
    rw [AList.lookup_erase_ite] at hlease'
    split_ifs at hlease' with hmac
    exact h.inBounds mac' ip' hlease'

theorem Sound.serve (h : s.Sound) (cfg : DhcpReplyConfig) (c : DhcpCall) :
    ∃ s' frame, s.serve cfg c = some (s', frame) ∧ s'.Sound ∧
      ∀ mac, mac ≠ c.view.header.clientMac → s'.leases.lookup mac = s.leases.lookup mac := by
  obtain ⟨s', r, hhandle, hsound, hothers⟩ := h.handle cfg.toDhcpServerConfig c.view
  exact ⟨s', _, serve_eq_some_iff.2 ⟨r, hhandle, rfl⟩, hsound, hothers⟩

/-- **Every operation keeps the tables sound.** -/
theorem Sound.apply (h : s.Sound) {cfg : DhcpReplyConfig} {op : TableOp}
    (happly : s.apply cfg op = some s') : s'.Sound := by
  cases op with
  | message c =>
    obtain ⟨t, frame, hserve, hsound, -⟩ := h.serve cfg c
    rw [DhcpState.apply, hserve] at happly
    exact Option.some.inj happly ▸ hsound
  | reserve ip =>
    obtain ⟨hbounded, hstart, hend⟩ := h.bounded.reserve ip
    exact Option.some.inj happly ▸ h.of_pool hbounded hstart hend
  | release ip =>
    obtain ⟨pool, hrelease, rfl⟩ := Option.map_eq_some_iff.1 happly
    obtain ⟨hbounded, hstart, hend⟩ := h.bounded.release hrelease
    exact h.of_pool hbounded hstart hend

theorem Sound.run (h : s.Sound) {cfg : DhcpReplyConfig} {tr : List TableOp}
    (hrun : (dhcpTables cfg).Run s tr s') : s'.Sound :=
  hrun.invariant h fun _ _ _ h hstep ↦ h.apply hstep

/-! ### Messages of other clients -/

/-- The servers handle a list of messages. -/
def serveAll (cfg : DhcpReplyConfig) (s : DhcpState) (cs : List DhcpCall) : Option DhcpState :=
  cs.foldlM (fun s c ↦ (s.serve cfg c).map Prod.fst) s

/-- **Others do not touch a client's lease.** -/
theorem Sound.serveAll (h : s.Sound) (cfg : DhcpReplyConfig) {cs : List DhcpCall}
    (hcs : ∀ c ∈ cs, c.view.header.clientMac ≠ mac) :
    ∃ s', s.serveAll cfg cs = some s' ∧ s'.Sound ∧
      s'.leases.lookup mac = s.leases.lookup mac := by
  induction cs generalizing s with
  | nil => exact ⟨s, rfl, h, rfl⟩
  | cons c cs ih =>
    obtain ⟨hc, hcs⟩ := List.forall_mem_cons.1 hcs
    obtain ⟨t, frame, hserve, hsound, hothers⟩ := h.serve cfg c
    obtain ⟨s', hrest, hsound', hlookup⟩ := ih hsound hcs
    refine ⟨s', ?_, hsound', hlookup.trans (hothers mac hc.symm)⟩
    rw [DhcpState.serveAll, List.foldlM_cons, hserve]
    exact hrest

end DhcpState

/-! ### The exchange -/

/-- The client sends its next message, and whoever receives it parses it. -/
def DhcpClient.send (c : DhcpClient) (out : Bytes) : Option (DhcpClient × DhcpView) :=
  let p := c.pollInto out
  (p.2.bind fun f ↦ parseDhcp (f.1.take f.2)).map fun view ↦ (p.1, view)

/-- A server answers a message, and the client parses the answer. -/
def DhcpState.answer (cfg : DhcpReplyConfig) (s : DhcpState) (c : DhcpCall) :
    Option (DhcpState × DhcpView) :=
  (s.serve cfg c).bind fun p ↦ (p.2.bind parseDhcp).map fun view ↦ (p.1, view)

/-- An exchange: the client, the servers that its two messages reach, what the servers handle
between these messages and after them, and the buffers. -/
structure Exchange where
  mac : MacAddr
  xid : UInt32
  /-- The server that takes the DISCOVER. -/
  first : MacAddr
  /-- The server that takes the REQUEST. -/
  second : MacAddr
  between : List DhcpCall
  after : List DhcpCall
  discoverBuf : Bytes
  offerBuf : Bytes
  requestBuf : Bytes
  ackBuf : Bytes

namespace Exchange

/-- The exchange, step by step: the tables and the client at its end, and the address offered. -/
def run (e : Exchange) (cfg : DhcpReplyConfig) (s : DhcpState) :
    Option (DhcpState × DhcpClient × Ipv4Addr) := do
  let (c, discover) ← (DhcpClient.new e.mac e.xid).send e.discoverBuf
  let (s, offer) ← s.answer cfg ⟨e.first, discover, e.offerBuf⟩
  let s ← s.serveAll cfg e.between
  let (c, request) ← (c.onReceive offer).send e.requestBuf
  let (s, ack) ← s.answer cfg ⟨e.second, request, e.ackBuf⟩
  let s ← s.serveAll cfg e.after
  some (s, c.onReceive ack, offer.header.yourIp)

/-- The other messages are of other clients, and every buffer has room for a frame. -/
structure Valid (e : Exchange) : Prop where
  between_ne : ∀ c ∈ e.between, c.view.header.clientMac ≠ e.mac
  after_ne : ∀ c ∈ e.after, c.view.header.clientMac ≠ e.mac
  discoverBuf_room : Frame.frameLen payloadMax ≤ e.discoverBuf.length
  offerBuf_room : Frame.frameLen payloadMax ≤ e.offerBuf.length
  requestBuf_room : Frame.frameLen payloadMax ≤ e.requestBuf.length
  ackBuf_room : Frame.frameLen payloadMax ≤ e.ackBuf.length

/-- **The exchange completes**: the client is bound to the address it was offered, which the servers
hold for it, and has learned the configuration. -/
def Completes (e : Exchange) (cfg : DhcpReplyConfig) (s : DhcpState) : Prop :=
  ∃ s' c ip, e.run cfg s = some (s', c, ip) ∧ c.state = .bound ∧
    c.lease = some ⟨ip, some cfg.subnetMask, some cfg.gateway, some cfg.serverIp,
      some cfg.leaseSecs⟩ ∧
    s'.leases.lookup e.mac = some ip

end Exchange

/-- A message that is polled is sent. -/
theorem DhcpClient.exists_send {c c' : DhcpClient} {m : ClientMessage}
    (hpoll : c.poll = (c', some m)) {out : Bytes}
    (hroom : Frame.frameLen payloadMax ≤ out.length) :
    ∃ view, c.send out = some (c', view) ∧ view.ReadsMessage m := by
  obtain ⟨⟨out', n⟩, hlayout⟩ := exists_layout m hroom
  obtain ⟨view, hparse, hreads⟩ := parseDhcp_layout hlayout
  have hinto : c.pollInto out = (c', some (out', n)) := by
    simp only [DhcpClient.pollInto, hpoll, hlayout, Option.elim_some]
  refine ⟨view, ?_, hreads⟩
  simp only [DhcpClient.send, hinto, Option.bind_some, hparse, Option.map_some]

namespace DhcpState

variable {s s' : DhcpState} {cfg : DhcpReplyConfig} {c : DhcpCall}

/-- **A reply that is meant is sent.** -/
theorem exists_serve_of_handle {a : Reply}
    (hhandle : s.handle cfg.toDhcpServerConfig c.view = some (s', some a))
    (hdns : cfg.dns.length ≤ 60) (hroom : Frame.frameLen payloadMax ≤ c.out.length) :
    ∃ f view, s.serve cfg c = some (s', some f) ∧ parseDhcp f = some view ∧
      view.ReadsReply { cfg with serverMac := c.server } a := by
  have hdns' : ({ cfg with serverMac := c.server } : DhcpReplyConfig).dns.length ≤ 60 := hdns
  obtain ⟨⟨out', n⟩, hbuild⟩ := exists_buildReply hdns' a hroom
  obtain ⟨view, hparse, hreads⟩ := parseDhcp_buildReply hbuild
  exact ⟨out'.take n, view, serve_eq_some_iff.2 ⟨_, hhandle, by
    rw [Option.bind_some, hbuild]; rfl⟩, hparse, hreads⟩

theorem exists_answer {a : Reply}
    (hhandle : s.handle cfg.toDhcpServerConfig c.view = some (s', some a))
    (hdns : cfg.dns.length ≤ 60) (hroom : Frame.frameLen payloadMax ≤ c.out.length) :
    ∃ view, s.answer cfg c = some (s', view) ∧
      view.ReadsReply { cfg with serverMac := c.server } a := by
  obtain ⟨f, view, hserve, hparse, hreads⟩ := exists_serve_of_handle hhandle hdns hroom
  refine ⟨view, ?_, hreads⟩
  simp only [answer, hserve, Option.bind_some, hparse, Option.map_some]

theorem answer_eq_none (hhandle : s.handle cfg.toDhcpServerConfig c.view = some (s', none)) :
    s.answer cfg c = none := by
  have hserve : s.serve cfg c = some (s', none) := serve_eq_some_iff.2 ⟨_, hhandle, rfl⟩
  simp only [answer, hserve, Option.bind_some, Option.bind_none, Option.map_none]

/-- A DISCOVER is answered if the client can be served. -/
theorem handle_of_discover {view : DhcpView} (cfg : DhcpServerConfig)
    (h : view.messageType = some .discover) :
    s.handle cfg view = some ((s.assign view.header.clientMac).1,
      (s.assign view.header.clientMac).2.map view.offer) := by
  simp only [DhcpState.handle, h]

/-- A REQUEST for the leased address, that names no other server, is acknowledged. -/
theorem handle_of_request {view : DhcpView} {cfg : DhcpServerConfig} {ip : Ipv4Addr}
    (h : view.messageType = some .request) (hserver : view.selectsOther cfg = false)
    (hlease : s.leases.lookup view.header.clientMac = some ip) (hip : view.requested = ip) :
    s.handle cfg view = some (s, some ⟨.ack, view.header.xid, ip, view.header.clientMac,
      view.header.broadcast⟩) := by
  have hassign : s.assign view.header.clientMac = (s, some ip) := by simp only [assign, hlease]
  simp only [DhcpState.handle, h, hserver, hassign, DhcpView.ackOrNak, if_pos hip, Option.map_some]
  rfl

end DhcpState

namespace Exchange

variable {e : Exchange} {cfg : DhcpReplyConfig} {s : DhcpState}

/-- The client sends its DISCOVER. -/
theorem exists_discover (he : e.Valid) :
    ∃ view, (DhcpClient.new e.mac e.xid).send e.discoverBuf =
        some (⟨e.mac, e.xid, .selecting, none, none, none⟩, view) ∧
      view.ReadsMessage ⟨.discover, e.xid, e.mac, none, none⟩ :=
  DhcpClient.exists_send rfl he.discoverBuf_room

/-- **A DISCOVER that cannot be served is the end.** -/
theorem not_completes (he : e.Valid) (hs : s.Sound) (hno : ¬s.CanServe e.mac) :
    ¬e.Completes cfg s := by
  obtain ⟨discover, hsend, hreads⟩ := exists_discover he
  have hmac : discover.header.clientMac = e.mac := hreads.clientMac_eq
  have hhandle : s.handle cfg.toDhcpServerConfig discover = some (s, none) := by
    rcases hs.assign_cases e.mac with ⟨heq, -⟩ | ⟨-, -, -, hcan, -⟩
    · rw [DhcpState.handle_of_discover _ hreads.messageType_eq, hmac, heq]
      rfl
    · exact absurd hcan hno
  have hnone : s.answer cfg ⟨e.first, discover, e.offerBuf⟩ = none :=
    DhcpState.answer_eq_none hhandle
  rintro ⟨s', c, ip, hrun, -⟩
  simp only [run, hsend, hnone, Option.bind_eq_bind, Option.bind_some, Option.bind_none] at hrun
  exact absurd hrun (by simp)

/-- The client, once it has accepted the OFFER of an address. -/
def requesting (e : Exchange) (cfg : DhcpReplyConfig) (ip : Ipv4Addr) : DhcpClient :=
  ⟨e.mac, e.xid, .requesting, some ip, some cfg.serverIp, none⟩

/-- **The first half**: the DISCOVER makes a lease, and the client accepts the OFFER of it. -/
theorem exists_offer (hdns : cfg.dns.length ≤ 60) (he : e.Valid) (hs : s.Sound)
    (hcan : s.CanServe e.mac) :
    ∃ c discover s' offer ip, (DhcpClient.new e.mac e.xid).send e.discoverBuf = some (c, discover) ∧
      s.answer cfg ⟨e.first, discover, e.offerBuf⟩ = some (s', offer) ∧
      offer.header.yourIp = ip ∧ c.onReceive offer = e.requesting cfg ip ∧
      s'.Sound ∧ s'.leases.lookup e.mac = some ip := by
  obtain ⟨discover, hsend, hdiscover⟩ := exists_discover he
  have hmac : discover.header.clientMac = e.mac := hdiscover.clientMac_eq
  obtain ⟨s', ip, hassign, hsound, hlease⟩ : ∃ s' ip, s.assign e.mac = (s', some ip) ∧
      s'.Sound ∧ s'.leases.lookup e.mac = some ip := by
    rcases hs.assign_cases e.mac with ⟨-, hno⟩ | ⟨s', ip, heq, -, hsound, hlease, -⟩
    · exact absurd hcan hno
    · exact ⟨s', ip, heq, hsound, hlease⟩
  have hhandle : s.handle cfg.toDhcpServerConfig discover =
      some (s', some (discover.offer ip)) := by
    rw [DhcpState.handle_of_discover _ hdiscover.messageType_eq, hmac, hassign]
    rfl
  obtain ⟨offer, hanswer, hoffer⟩ := DhcpState.exists_answer
    (c := ⟨e.first, discover, e.offerBuf⟩) hhandle hdns he.offerBuf_room
  have hip : offer.header.yourIp = ip := hoffer.yourIp_eq
  have hxid : offer.header.xid = e.xid := hoffer.xid_eq.trans hdiscover.xid_eq
  refine ⟨_, discover, s', offer, ip, hsend, hanswer, hip, ?_, hsound, hlease⟩
  rw [DhcpClient.onReceive_of_offer hxid hoffer.messageType_eq rfl, hip, hoffer.serverId_eq,
    requesting]

/-- **The second half**: the REQUEST names the address and the server, any server that has the lease
in its table acknowledges it, and the client is bound. -/
theorem exists_ack (hdns : cfg.dns.length ≤ 60) (he : e.Valid) {ip : Ipv4Addr}
    (hlease : s.leases.lookup e.mac = some ip) :
    ∃ request ack, (e.requesting cfg ip).send e.requestBuf = some (e.requesting cfg ip, request) ∧
      s.answer cfg ⟨e.second, request, e.ackBuf⟩ = some (s, ack) ∧
      (e.requesting cfg ip).onReceive ack = { e.requesting cfg ip with
        lease := some ⟨ip, some cfg.subnetMask, some cfg.gateway, some cfg.serverIp,
          some cfg.leaseSecs⟩
        state := .bound } := by
  obtain ⟨request, hsend, hrequest⟩ := DhcpClient.exists_send (c := e.requesting cfg ip)
    (m := ⟨.request, e.xid, e.mac, some ip, some cfg.serverIp⟩) rfl he.requestBuf_room
  obtain ⟨hwants, hserver⟩ := hrequest.request_eq rfl
  have hmac : request.header.clientMac = e.mac := hrequest.clientMac_eq
  have hother : request.selectsOther cfg.toDhcpServerConfig = false := by
    simp [DhcpView.selectsOther, hserver]
  have hhandle := DhcpState.handle_of_request hrequest.messageType_eq hother (hmac ▸ hlease)
    (by rw [DhcpView.requested, hwants]; rfl)
  obtain ⟨ack, hanswer, hack⟩ := DhcpState.exists_answer
    (c := ⟨e.second, request, e.ackBuf⟩) hhandle hdns he.ackBuf_room
  obtain ⟨hmask, hgateway, hsecs⟩ := hack.lease_eq (by simp)
  have hxid : ack.header.xid = (e.requesting cfg ip).xid := hack.xid_eq.trans hrequest.xid_eq
  refine ⟨request, ack, hsend, hanswer, ?_⟩
  rw [DhcpClient.onReceive_of_ack hxid hack.messageType_eq rfl, hack.yourIp_eq,
    hack.serverId_eq, hmask, hgateway, hsecs]

/-- **A DISCOVER that can be served is the beginning of an exchange that completes.** -/
theorem completes (hdns : cfg.dns.length ≤ 60) (he : e.Valid) (hs : s.Sound)
    (hcan : s.CanServe e.mac) : e.Completes cfg s := by
  obtain ⟨c, discover, s₁, offer, ip, hdiscover, hanswer₁, hip, hreceive, hsound₁, hlease₁⟩ :=
    exists_offer hdns he hs hcan
  -- others come and go, and the lease stays
  obtain ⟨s₂, hbetween, hsound₂, hlookup₂⟩ := hsound₁.serveAll cfg he.between_ne
  have hlease₂ := hlookup₂.trans hlease₁
  obtain ⟨request, ack, hrequest, hanswer₂, hbound⟩ := exists_ack hdns he hlease₂
  obtain ⟨s₃, hafter, -, hlookup₃⟩ := hsound₂.serveAll cfg he.after_ne
  refine ⟨s₃, (e.requesting cfg ip).onReceive ack, ip, ?_, ?_, ?_, hlookup₃.trans hlease₂⟩
  · simp only [run, hdiscover, hanswer₁, hbetween, hreceive, hrequest, hanswer₂, hafter,
      Option.bind_eq_bind, Option.bind_some, hip]
  · rw [hbound]
  · rw [hbound]

/-- **The exchange completes exactly if the client has a lease or some free range is not the range
of all addresses**, whatever the tables have been through, whichever servers take the two messages,
and whatever other clients send in between and afterwards. -/
theorem completes_iff_canServe {start end_ : Ipv4Addr} {reserved : List Ipv4Addr} {s₀ : DhcpState}
    (hboot : DhcpState.boot start end_ reserved = some s₀) (hdns : cfg.dns.length ≤ 60)
    {tr : List TableOp} (hrun : (dhcpTables cfg).Run s₀ tr s) (he : e.Valid) :
    e.Completes cfg s ↔ (∃ ip, s.leases.lookup e.mac = some ip) ∨
      ∃ i ∈ s.pool.intervals, i ≠ AddressPool.allAddresses := by
  have hsound : s.Sound := (DhcpState.sound_boot hboot).run hrun
  constructor
  · intro hcompletes
    by_contra hno
    exact not_completes he hsound hno hcompletes
  · exact completes hdns he hsound

/-- A host sends its DISCOVER to one server and its REQUEST to another, while a second host gets an
address and gives it back. -/
def sample : Exchange where
  mac := sampleMac 1
  xid := 0x12345678
  first := sampleMac 0xfe
  second := sampleMac 0xfd
  between := [⟨sampleMac 0xfd, sampleMessage 1 2, List.replicate 1518 0⟩]
  after := [⟨sampleMac 0xfe, sampleMessage 7 2, List.replicate 1518 0⟩]
  discoverBuf := List.replicate 1518 0
  offerBuf := List.replicate 1518 0
  requestBuf := List.replicate 1518 0
  ackBuf := List.replicate 1518 0

theorem valid_sample : sample.Valid := by
  have hroom : Frame.frameLen payloadMax ≤ (List.replicate 1518 (0 : UInt8)).length := by
    rw [List.length_replicate]
    decide
  exact ⟨by decide +kernel, by decide +kernel, hroom, hroom, hroom, hroom⟩

/-- It gets an address of `10.0.0.2` to `10.0.0.10`. -/
theorem completes_sample :
    ∃ s₀, DhcpState.boot 0x0a000001 0x0a00000a [0x0a000001] = some s₀ ∧
      sample.Completes DhcpState.sampleConfig s₀ := by
  have hboot : DhcpState.boot 0x0a000001 0x0a00000a [0x0a000001] =
      some ⟨⟨0x0a000001, 0x0a00000a, [(0x0a000002, 0x0a00000a)]⟩, ∅⟩ := rfl
  exact ⟨_, hboot, (completes_iff_canServe hboot (by decide) .nil valid_sample).2
    (Or.inr ⟨(0x0a000002, 0x0a00000a), by decide, by decide⟩)⟩

/-- From a pool of all addresses, every one of which is free, it gets none. -/
theorem not_completes_sample :
    ∃ s₀, DhcpState.boot 0 0xffffffff [] = some s₀ ∧ (∀ ip, s₀.pool.IsFree ip) ∧ sample.Valid ∧
      ¬sample.Completes DhcpState.sampleConfig s₀ := by
  have hboot : DhcpState.boot 0 0xffffffff [] =
      some ⟨⟨0, 0xffffffff, [AddressPool.allAddresses]⟩, ∅⟩ := rfl
  refine ⟨_, hboot, fun ip ↦ ⟨_, List.mem_singleton_self _, ?_, ?_⟩, valid_sample,
    not_completes valid_sample (DhcpState.sound_boot hboot) ?_⟩
  · exact UInt32.le_iff_toNat_le.2 (Nat.zero_le _)
  · exact UInt32.le_iff_toNat_le.2 (Nat.le_of_lt_succ ip.toNat_lt)
  · rintro (⟨ip, hip⟩ | ⟨i, hi, hne⟩)
    · exact absurd hip (by simp)
    · exact hne (List.mem_singleton.1 hi)

end Exchange

end UserspaceRouter
