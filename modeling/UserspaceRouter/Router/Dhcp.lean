import UserspaceRouter.Foundations.AssocMap
import UserspaceRouter.Net.Dhcp
import UserspaceRouter.Router.Pool

/-!
# The LAN DHCP server

Servers on all LAN ports share one address pool and one lease table, and act as a single bridged
server. `handle` processes one message without interruption. A message that allocates goes through
`assign`: the address already leased to the client if there is one, else the next free address of
the pool, which is then recorded.

A reply is represented by what `build_reply` is called with; laying it out as a frame has no effect
on the tables.
-/

namespace UserspaceRouter

/-- `LeaseTable`: the address leased to each client. -/
abbrev LeaseTable := AList fun _ : MacAddr ↦ Ipv4Addr

/-- What the servers share: the pool and the leases, each behind a lock of its own. -/
structure DhcpState where
  pool : AddressPool
  leases : LeaseTable

/-- The server identity of `DhcpServerConfig`. -/
structure DhcpServerConfig where
  serverIp : Ipv4Addr

/-- What `build_reply` is called with. -/
structure Reply where
  kind : MessageType
  xid : UInt32
  yiaddr : Ipv4Addr
  client : MacAddr
  broadcast : Bool
deriving DecidableEq, Repr

namespace DhcpState

/-- The state after start-up: a fresh pool, less the addresses the router keeps for itself, and no
leases. -/
def boot (start end_ : Ipv4Addr) (reserved : List Ipv4Addr) : Option DhcpState :=
  (AddressPool.new start end_).map fun pool ↦ ⟨pool.reserveAll reserved, ∅⟩

/-- The address bound to `mac`, allocating the next free pool address on first contact. -/
def assign (s : DhcpState) (mac : MacAddr) : DhcpState × Option Ipv4Addr :=
  match s.leases.lookup mac with
  | some ip => (s, some ip)
  | none =>
    match s.pool.take 1 with
    | (pool, none) => ({ s with pool }, none)
    | (pool, some out) =>
      match out.head? with
      | none => ({ s with pool }, none)
      | some ip => (⟨pool, s.leases.insert mac ip⟩, some ip)

end DhcpState

namespace DhcpView

/-- The client is selecting another server. -/
def selectsOther (view : DhcpView) (cfg : DhcpServerConfig) : Bool :=
  match Options.serverId view.options with
  | some sid => sid != cfg.serverIp
  | none => false

/-- The answer to a DISCOVER from a client that has been assigned `ip`. -/
def offer (view : DhcpView) (ip : Ipv4Addr) : Reply :=
  ⟨.offer, view.header.xid, ip, view.header.clientMac, view.header.broadcast⟩

/-- The address a REQUEST is about. -/
def requested (view : DhcpView) : Ipv4Addr :=
  (Options.requestedIp view.options).getD view.header.clientIp

/-- The answer to a REQUEST from a client that has been assigned `ip`. -/
def ackOrNak (view : DhcpView) (ip : Ipv4Addr) : Reply :=
  if view.requested = ip then
    ⟨.ack, view.header.xid, ip, view.header.clientMac, view.header.broadcast⟩
  else
    -- the client wants something we won't give it
    ⟨.nak, view.header.xid, Ipv4Addr.unspecified, view.header.clientMac, true⟩

end DhcpView

namespace DhcpState

/-- `DhcpServer::handle`; `none` is the failed assertion of `release`. -/
def handle (s : DhcpState) (cfg : DhcpServerConfig) (view : DhcpView) :
    Option (DhcpState × Option Reply) :=
  let mac := view.header.clientMac
  match view.messageType with
  | some .discover =>
    let (s, ip) := s.assign mac
    some (s, ip.map view.offer)
  | some .request =>
    if view.selectsOther cfg then some (s, none)
    else
      let (s, ip) := s.assign mac
      some (s, ip.map view.ackOrNak)
  | some .release | some .decline =>
    match s.leases.lookup mac with
    | none => some (s, none)
    | some ip => (s.pool.release ip).map fun pool ↦ (⟨pool, s.leases.erase mac⟩, none)
  | _ => some (s, none)

/-- The pool after start-up. -/
theorem pool_boot {start end_ : Ipv4Addr} {reserved : List Ipv4Addr} {s : DhcpState}
    (h : boot start end_ reserved = some s) :
    s.pool.Wf ∧ s.pool.start = start ∧ s.pool.end_ = end_ ∧ s.leases = ∅ := by
  obtain ⟨pool, hnew, rfl⟩ := Option.map_eq_some_iff.1 h
  obtain ⟨hwf, hstart, hend⟩ := AddressPool.wf_new hnew
  obtain ⟨hwf', hstart', hend'⟩ := AddressPool.wf_reserveAll hwf reserved
  exact ⟨hwf', hstart'.trans hstart, hend'.trans hend, rfl⟩

/-- **What `assign` can do**: confirm a lease, find nothing to lease, or lease a free address. -/
theorem assign_cases {s : DhcpState} (h : s.pool.Wf) (mac : MacAddr) :
    (∃ ip, s.leases.lookup mac = some ip ∧ s.assign mac = (s, some ip)) ∨
    s.assign mac = (s, none) ∨
    ∃ ip pool, s.leases.lookup mac = none ∧ s.pool.IsFree ip ∧
      s.pool.Becomes pool (fun x ↦ s.pool.IsFree x ∧ x ≠ ip) ∧
      s.assign mac = (⟨pool, s.leases.insert mac ip⟩, some ip) := by
  rcases hlease : s.leases.lookup mac with - | ip
  · rcases AddressPool.take_one_cases h with ⟨htake, -⟩ | ⟨ip, pool, htake, hfree, hbecomes⟩
    · exact Or.inr (Or.inl (by simp only [assign, hlease, htake]))
    · exact Or.inr (Or.inr ⟨ip, pool, rfl, hfree, hbecomes, by simp [assign, hlease, htake]⟩)
  · exact Or.inl ⟨ip, rfl, by simp only [assign, hlease]⟩

/-- The address that a message makes `handle` give back to the pool. -/
def givesBack (s : DhcpState) (view : DhcpView) : Option Ipv4Addr :=
  match view.messageType with
  | some .release | some .decline => s.leases.lookup view.header.clientMac
  | _ => none

/-- **The branches of `handle`**: a message that allocates and is then answered, one that is
ignored, and one that gives a lease back. -/
inductive Handling (s : DhcpState) (cfg : DhcpServerConfig) (view : DhcpView) :
    Option (DhcpState × Option Reply) → Prop
  | assign {answer : Ipv4Addr → Reply} : s.givesBack view = none →
      (view.messageType = some .discover ∧ answer = view.offer ∨
        view.messageType = some .request ∧ view.selectsOther cfg = false ∧
          answer = view.ackOrNak) →
      Handling s cfg view (some ((s.assign view.header.clientMac).1,
        (s.assign view.header.clientMac).2.map answer))
  | ignore : s.givesBack view = none → Handling s cfg view (some (s, none))
  | giveBack {ip : Ipv4Addr} : s.givesBack view = some ip →
      (view.messageType = some .release ∨ view.messageType = some .decline) →
      s.leases.lookup view.header.clientMac = some ip →
      Handling s cfg view ((s.pool.release ip).map fun pool ↦
        (⟨pool, s.leases.erase view.header.clientMac⟩, none))

theorem handling (s : DhcpState) (cfg : DhcpServerConfig) (view : DhcpView) :
    Handling s cfg view (s.handle cfg view) := by
  have hremove : s.givesBack view = s.leases.lookup view.header.clientMac →
      (view.messageType = some .release ∨ view.messageType = some .decline) →
      Handling s cfg view (match s.leases.lookup view.header.clientMac with
        | none => some (s, none)
        | some ip => (s.pool.release ip).map fun pool ↦
          (⟨pool, s.leases.erase view.header.clientMac⟩, none)) := by
    intro hback hm
    rcases hlease : s.leases.lookup view.header.clientMac with - | ip <;> rw [hlease] at hback
    · exact .ignore hback
    · exact .giveBack hback hm hlease
  rcases hm : view.messageType with - | m <;> simp only [handle, hm]
  · exact .ignore (by simp only [givesBack, hm])
  cases m with
  | discover => exact .assign (by simp only [givesBack, hm]) (Or.inl ⟨hm, rfl⟩)
  | request =>
    have hback : s.givesBack view = none := by simp only [givesBack, hm]
    rcases hother : view.selectsOther cfg with - | -
    · exact .assign hback (Or.inr ⟨hm, hother, rfl⟩)
    · exact .ignore hback
  | release => exact hremove (by simp only [givesBack, hm]) (Or.inl hm)
  | decline => exact hremove (by simp only [givesBack, hm]) (Or.inr hm)
  | offer | ack | nak | inform => exact .ignore (by simp only [givesBack, hm])

/-- **What `handle` can do**: answer from the lease table or not at all, lease a free address, or
give an address back. -/
inductive Handled (s : DhcpState) (view : DhcpView) : DhcpState → Option Reply → Prop
  | keep {r : Option Reply} : s.givesBack view = none →
      (∀ a ∈ r, a.kind ≠ .nak → s.leases.lookup view.header.clientMac = some a.yiaddr) →
      Handled s view s r
  | take {ip : Ipv4Addr} {pool : AddressPool} {r : Option Reply} : s.givesBack view = none →
      s.pool.IsFree ip → s.pool.Becomes pool (fun x ↦ s.pool.IsFree x ∧ x ≠ ip) →
      (∀ a ∈ r, a.kind ≠ .nak → a.yiaddr = ip) →
      Handled s view ⟨pool, s.leases.insert view.header.clientMac ip⟩ r
  | release {ip : Ipv4Addr} {pool : AddressPool} : s.givesBack view = some ip →
      s.leases.lookup view.header.clientMac = some ip → s.pool.release ip = some pool →
      Handled s view ⟨pool, s.leases.erase view.header.clientMac⟩ none

/-- A message that allocates, whatever the answer to it is. -/
theorem handled_assign {s : DhcpState} (h : s.pool.Wf) {view : DhcpView}
    (hkeep : s.givesBack view = none) {answer : Ipv4Addr → Reply}
    (hanswer : ∀ ip, (answer ip).kind ≠ .nak → (answer ip).yiaddr = ip) :
    Handled s view (s.assign view.header.clientMac).1
      ((s.assign view.header.clientMac).2.map answer) := by
  rcases assign_cases h view.header.clientMac with ⟨ip, hlease, heq⟩ | heq |
    ⟨ip, pool, -, hfree, hbecomes, heq⟩ <;> rw [heq]
  · refine .keep hkeep ?_
    intro a ha hkind
    obtain rfl : answer ip = a := Option.some.inj ha
    rw [hlease, hanswer ip hkind]
  · exact .keep hkeep (by simp)
  · refine .take hkeep hfree hbecomes ?_
    intro a ha hkind
    obtain rfl : answer ip = a := Option.some.inj ha
    exact hanswer ip hkind

theorem yiaddr_ackOrNak (view : DhcpView) (ip : Ipv4Addr) (h : (view.ackOrNak ip).kind ≠ .nak) :
    (view.ackOrNak ip).yiaddr = ip := by
  unfold DhcpView.ackOrNak at h ⊢
  split_ifs at h ⊢
  · rfl
  · exact absurd rfl h

theorem handled_handle {s s' : DhcpState} (hwf : s.pool.Wf) {cfg : DhcpServerConfig}
    {view : DhcpView} {r : Option Reply} (h : s.handle cfg view = some (s', r)) :
    Handled s view s' r := by
  have hhandling := handling s cfg view
  rw [h] at hhandling
  generalize hres : some (s', r) = res at hhandling
  cases hhandling with
  | assign hback hanswer =>
    obtain ⟨rfl, rfl⟩ := Prod.mk.inj (Option.some.inj hres)
    refine handled_assign hwf hback ?_
    rcases hanswer with ⟨-, rfl⟩ | ⟨-, -, rfl⟩
    · exact fun _ _ ↦ rfl
    · exact yiaddr_ackOrNak view
  | ignore hback =>
    obtain ⟨rfl, rfl⟩ := Prod.mk.inj (Option.some.inj hres)
    exact .keep hback (by simp)
  | giveBack hback _ hlease =>
    obtain ⟨pool, hrelease, heq⟩ := Option.map_eq_some_iff.1 hres.symm
    obtain ⟨rfl, rfl⟩ := Prod.mk.inj heq
    exact .release hback hlease hrelease

/-- **What `handle` can answer**: an OFFER, an ACK of the address the client wants, or a NAK. -/
theorem reply_of_handle {s s' : DhcpState} {cfg : DhcpServerConfig} {view : DhcpView} {a : Reply}
    (h : s.handle cfg view = some (s', some a)) :
    a.client = view.header.clientMac ∧
      (a.kind = .offer ∨ a.kind = .ack ∧ view.requested = a.yiaddr ∨ a.kind = .nak) := by
  have hhandling := handling s cfg view
  rw [h] at hhandling
  generalize hres : some (s', some a) = res at hhandling
  cases hhandling with
  | assign _ hanswer =>
    obtain ⟨-, hreply⟩ := Prod.mk.inj (Option.some.inj hres)
    obtain ⟨ip, -, rfl⟩ := Option.map_eq_some_iff.1 hreply.symm
    rcases hanswer with ⟨-, rfl⟩ | ⟨-, -, rfl⟩
    · exact ⟨rfl, Or.inl rfl⟩
    · unfold DhcpView.ackOrNak
      split_ifs with hreq
      · exact ⟨rfl, Or.inr (Or.inl ⟨rfl, hreq⟩)⟩
      · exact ⟨rfl, Or.inr (Or.inr rfl)⟩
  | ignore _ => exact absurd (Prod.mk.inj (Option.some.inj hres)).2 (by simp)
  | giveBack _ _ _ =>
    obtain ⟨pool, -, heq⟩ := Option.map_eq_some_iff.1 hres.symm
    exact absurd (Prod.mk.inj heq).2 (by simp)

end DhcpState

end UserspaceRouter
