import UserspaceRouter.Net.Dhcp

/-!
# The WAN DHCP client

A client that drives the exchange DISCOVER, OFFER, REQUEST, ACK. `poll` gives the next message to
send and `onReceive` feeds it a message that was received; the client counts no time, so it repeats
a REQUEST at every poll until it is answered, and a DISCOVER never.

A message is represented by what `build` writes into it; laying it out as a frame has no effect on
the client.
-/

namespace UserspaceRouter

/-- Where the client is in the exchange. -/
inductive ClientState
  | init
  | selecting
  | requesting
  | bound
deriving DecidableEq, Repr

/-- The configuration the client learned from the server's ACK. -/
structure DhcpLease where
  ip : Ipv4Addr
  subnetMask : Option Ipv4Addr
  gateway : Option Ipv4Addr
  serverId : Option Ipv4Addr
  leaseSecs : Option UInt32
deriving DecidableEq, Repr

structure DhcpClient where
  mac : MacAddr
  xid : UInt32
  state : ClientState
  offeredIp : Option Ipv4Addr
  serverId : Option Ipv4Addr
  lease : Option DhcpLease
deriving DecidableEq, Repr

/-- What `build` writes into a message, always broadcast from the unspecified address. -/
structure ClientMessage where
  kind : MessageType
  xid : UInt32
  mac : MacAddr
  requestedIp : Option Ipv4Addr
  serverId : Option Ipv4Addr
deriving DecidableEq, Repr

namespace DhcpClient

def new (mac : MacAddr) (xid : UInt32) : DhcpClient := ⟨mac, xid, .init, none, none, none⟩

def boundIp (c : DhcpClient) : Option Ipv4Addr := c.lease.map (·.ip)

/-- The offered address and the server are named in a REQUEST only. -/
def build (c : DhcpClient) (kind : MessageType) : ClientMessage :=
  if kind = .request then ⟨kind, c.xid, c.mac, c.offeredIp, c.serverId⟩
  else ⟨kind, c.xid, c.mac, none, none⟩

/-- Every message is of the client's transaction and from its MAC. -/
theorem build_fields (c : DhcpClient) (kind : MessageType) :
    (c.build kind).kind = kind ∧ (c.build kind).mac = c.mac ∧ (c.build kind).xid = c.xid := by
  rw [build]
  split_ifs <;> exact ⟨rfl, rfl, rfl⟩

/-- The next message to send, if there is one. -/
def poll (c : DhcpClient) : DhcpClient × Option ClientMessage :=
  match c.state with
  | .init => ({ c with state := .selecting }, some (c.build .discover))
  | .requesting => (c, some (c.build .request))
  | .selecting | .bound => (c, none)

/-- Feed a received message to the state machine. -/
def onReceive (c : DhcpClient) (view : DhcpView) : DhcpClient :=
  let header := view.header
  if header.xid ≠ c.xid then c
  else
    match view.messageType with
    | some .offer =>
      if c.state = .selecting then
        { c with
          offeredIp := some header.yourIp
          serverId := Options.serverId view.options
          state := .requesting }
      else c
    | some .ack =>
      if c.state = .requesting then
        { c with
          lease := some
            { ip := header.yourIp
              subnetMask := Options.subnetMask view.options
              gateway := (Options.routers view.options).head?
              serverId := Options.serverId view.options
              leaseSecs := Options.leaseTime view.options }
          state := .bound }
      else c
    | some .nak => { c with offeredIp := none, serverId := none, state := .init }
    | _ => c

/-! ### What a message can do -/

section Receive

variable {c : DhcpClient} {view : DhcpView}

theorem onReceive_of_offer (hxid : view.header.xid = c.xid)
    (hkind : view.messageType = some .offer) (hstate : c.state = .selecting) :
    c.onReceive view = { c with
      offeredIp := some view.header.yourIp
      serverId := Options.serverId view.options
      state := .requesting } := by
  simp only [onReceive, if_neg (not_not.2 hxid), hkind, if_pos hstate]

theorem onReceive_of_ack (hxid : view.header.xid = c.xid)
    (hkind : view.messageType = some .ack) (hstate : c.state = .requesting) :
    c.onReceive view = { c with
      lease := some ⟨view.header.yourIp, Options.subnetMask view.options,
        (Options.routers view.options).head?, Options.serverId view.options,
        Options.leaseTime view.options⟩
      state := .bound } := by
  simp only [onReceive, if_neg (not_not.2 hxid), hkind, if_pos hstate]

theorem onReceive_of_nak (hxid : view.header.xid = c.xid)
    (hkind : view.messageType = some .nak) :
    c.onReceive view = { c with offeredIp := none, serverId := none, state := .init } := by
  simp only [onReceive, if_neg (not_not.2 hxid), hkind]

/-- **The branches of `onReceive`.** -/
inductive Received (c : DhcpClient) (view : DhcpView) : DhcpClient → Prop
  | ignored : Received c view c
  | offered : view.header.xid = c.xid → view.messageType = some .offer → c.state = .selecting →
      Received c view { c with
        offeredIp := some view.header.yourIp
        serverId := Options.serverId view.options
        state := .requesting }
  | acked : view.header.xid = c.xid → view.messageType = some .ack → c.state = .requesting →
      Received c view { c with
        lease := some ⟨view.header.yourIp, Options.subnetMask view.options,
          (Options.routers view.options).head?, Options.serverId view.options,
          Options.leaseTime view.options⟩
        state := .bound }
  | refused : view.header.xid = c.xid → view.messageType = some .nak →
      Received c view { c with offeredIp := none, serverId := none, state := .init }

theorem received (c : DhcpClient) (view : DhcpView) : Received c view (c.onReceive view) := by
  by_cases hxid : view.header.xid = c.xid
  · rcases hm : view.messageType with - | m
    · simp only [onReceive, if_neg (not_not.2 hxid), hm]
      exact .ignored
    cases m with
    | offer =>
      by_cases hstate : c.state = .selecting
      · rw [onReceive_of_offer hxid hm hstate]
        exact .offered hxid hm hstate
      · simp only [onReceive, if_neg (not_not.2 hxid), hm, if_neg hstate]
        exact .ignored
    | ack =>
      by_cases hstate : c.state = .requesting
      · rw [onReceive_of_ack hxid hm hstate]
        exact .acked hxid hm hstate
      · simp only [onReceive, if_neg (not_not.2 hxid), hm, if_neg hstate]
        exact .ignored
    | nak =>
      rw [onReceive_of_nak hxid hm]
      exact .refused hxid hm
    | discover | request | decline | release | inform =>
      simp only [onReceive, if_neg (not_not.2 hxid), hm]
      exact .ignored
  · simp only [onReceive, if_pos (show view.header.xid ≠ c.xid from hxid)]
    exact .ignored

end Receive

end DhcpClient

end UserspaceRouter
