import UserspaceRouter.Router.DhcpMessages
import UserspaceRouter.Router.DhcpWorkers

/-!
# The bridged DHCP servers

One server per LAN port, all with the same configuration but for the MAC of their port, over one
pool and one lease table. A call of `handle` runs without interruption here; what happens when calls
overlap is the subject of the workers.

Addresses are neither made nor lost: what is free and what is leased always add up to what was free
at start-up (`Conserved`), because a call either leaves the tables alone, moves an address from the
pool to the sender's lease, or moves it back. What a call answers is read off the frame that is
sent, as the client would read it. Which server takes a message shows in the source MAC of the reply
and nowhere else (`serve_congr`).
-/

namespace UserspaceRouter

open TransitionSystem

/-- A message handed to one of the servers, with the buffer for the reply. -/
structure DhcpCall where
  /-- The MAC of the server's port. -/
  server : MacAddr
  view : DhcpView
  out : Bytes

namespace DhcpState

/-- One message, handled by the server it reaches: the tables afterwards and the frame sent. -/
def serve (cfg : DhcpReplyConfig) (s : DhcpState) (c : DhcpCall) :
    Option (DhcpState × Option Bytes) :=
  (s.handleInto { cfg with serverMac := c.server } c.view c.out).map fun p ↦
    (p.1, p.2.map fun f ↦ f.1.take f.2)

/-- The address is leased to somebody. -/
def Leased (s : DhcpState) (ip : Ipv4Addr) : Prop := ∃ mac, s.leases.lookup mac = some ip

/-- **Conservation**: the free and the leased addresses are those of `s₀`. -/
def Conserved (s₀ s : DhcpState) : Prop :=
  ∀ ip, s.pool.IsFree ip ∨ s.Leased ip ↔ s₀.pool.IsFree ip

end DhcpState

/-- The servers: any message, to any of them, one at a time. -/
def dhcpServers (cfg : DhcpReplyConfig) :
    TransitionSystem DhcpState (DhcpCall × Option Bytes) :=
  .ofCalls (DhcpState.serve cfg)

namespace DhcpState

variable {start end_ : Ipv4Addr} {s s' : DhcpState} {cfg : DhcpReplyConfig} {c : DhcpCall}
  {frame : Option Bytes}

/-- A call is a call of `handle`, whose reply is laid out if it can be. -/
theorem serve_eq_some_iff : s.serve cfg c = some (s', frame) ↔
    ∃ r, s.handle cfg.toDhcpServerConfig c.view = some (s', r) ∧
      frame = (r.bind fun a ↦
        DhcpReplyConfig.buildReply { cfg with serverMac := c.server } a c.out).map
          fun f ↦ f.1.take f.2 := by
  simp only [serve, handleInto, Option.map_map, Option.map_eq_some_iff, Function.comp,
    Prod.mk.injEq]
  constructor
  · rintro ⟨⟨t, r⟩, hhandle, rfl, rfl⟩
    exact ⟨r, hhandle, rfl⟩
  · rintro ⟨r, hhandle, rfl⟩
    exact ⟨(s', r), hhandle, rfl, rfl⟩

/-- **A frame that is sent reads as the reply that was meant.** -/
theorem exists_reply_of_serve {f : Bytes} (h : s.serve cfg c = some (s', some f)) :
    ∃ a view, s.handle cfg.toDhcpServerConfig c.view = some (s', some a) ∧
      parseDhcp f = some view ∧ view.ReadsReply { cfg with serverMac := c.server } a := by
  obtain ⟨r, hhandle, hframe⟩ := serve_eq_some_iff.1 h
  obtain ⟨⟨out', n⟩, hbuild, rfl⟩ := Option.map_eq_some_iff.1 hframe.symm
  obtain ⟨a, rfl, hreply⟩ := Option.bind_eq_some_iff.1 hbuild
  obtain ⟨view, hparse, hreads⟩ := parseDhcp_buildReply hreply
  exact ⟨a, view, hhandle, hparse, hreads⟩

/-! ### The invariant -/

theorem Inv.serve (h : s.Inv start end_) (hserve : s.serve cfg c = some (s', frame)) :
    s'.Inv start end_ := by
  obtain ⟨r, hhandle, -⟩ := serve_eq_some_iff.1 hserve
  exact h.handle hhandle

theorem Inv.exists_serve (h : s.Inv start end_) (cfg : DhcpReplyConfig) (c : DhcpCall) :
    ∃ s' frame, s.serve cfg c = some (s', frame) := by
  obtain ⟨s', r, hhandle⟩ := h.exists_handle cfg.toDhcpServerConfig c.view
  exact ⟨s', _, serve_eq_some_iff.2 ⟨r, hhandle, rfl⟩⟩

theorem Inv.run (h : s.Inv start end_) {tr : List (DhcpCall × Option Bytes)}
    (hrun : (dhcpServers cfg).Run s tr s') : s'.Inv start end_ :=
  hrun.invariant h fun _ _ _ ↦ Inv.serve

/-! ### Conservation -/

/-- A new lease: the address leaves the free ones and is leased. -/
theorem leased_insert {pool : AddressPool} {mac : MacAddr} {ip : Ipv4Addr}
    (hnone : s.leases.lookup mac = none) (x : Ipv4Addr) :
    Leased ⟨pool, s.leases.insert mac ip⟩ x ↔ s.Leased x ∨ x = ip := by
  constructor
  · rintro ⟨mac', h⟩
    rw [AList.lookup_insert_ite] at h
    split_ifs at h with hmac
    · exact Or.inr (Option.some.inj h).symm
    · exact Or.inl ⟨mac', h⟩
  · rintro (⟨mac', h⟩ | rfl)
    · have hne : mac' ≠ mac := by
        rintro rfl
        exact absurd (h.symm.trans hnone) (by simp)
      exact ⟨mac', by rwa [AList.lookup_insert_ite, if_neg hne]⟩
    · exact ⟨mac, by rw [AList.lookup_insert_ite, if_pos rfl]⟩

/-- A lease given back: nobody has the address any more. -/
theorem leased_erase {pool : AddressPool} {mac : MacAddr} {ip : Ipv4Addr}
    (h : s.Inv start end_) (hlease : s.leases.lookup mac = some ip) (x : Ipv4Addr) :
    Leased ⟨pool, s.leases.erase mac⟩ x ↔ s.Leased x ∧ x ≠ ip := by
  constructor
  · rintro ⟨mac', h'⟩
    rw [AList.lookup_erase_ite] at h'
    split_ifs at h' with hmac
    refine ⟨⟨mac', h'⟩, ?_⟩
    rintro rfl
    exact hmac (h.exclusive.inj mac' mac x h' hlease)
  · rintro ⟨⟨mac', h'⟩, hne⟩
    have hmac : mac' ≠ mac := by
      rintro rfl
      exact hne (Option.some.inj (h'.symm.trans hlease))
    exact ⟨mac', by rwa [AList.lookup_erase_ite, if_neg hmac]⟩

/-- **What a call does to the tables**: nothing; or it takes a free address for the sender, who had
none; or it gives the sender's address back, at its Release or Decline. -/
inductive Changes (s : DhcpState) (view : DhcpView) : DhcpState → Prop
  | keep : Changes s view s
  | take {ip : Ipv4Addr} {pool : AddressPool} : s.leases.lookup view.header.clientMac = none →
      s.pool.IsFree ip → s.pool.Becomes pool (fun x ↦ s.pool.IsFree x ∧ x ≠ ip) →
      Changes s view ⟨pool, s.leases.insert view.header.clientMac ip⟩
  | giveBack {ip : Ipv4Addr} {pool : AddressPool} :
      (view.messageType = some .release ∨ view.messageType = some .decline) →
      s.leases.lookup view.header.clientMac = some ip →
      s.pool.Becomes pool (fun x ↦ s.pool.IsFree x ∨ x = ip) →
      Changes s view ⟨pool, s.leases.erase view.header.clientMac⟩

theorem Inv.changes (h : s.Inv start end_) {cfg : DhcpServerConfig} {view : DhcpView}
    {r : Option Reply} (hhandle : s.handle cfg view = some (s', r)) : Changes s view s' := by
  have hhandling := handling s cfg view
  rw [hhandle] at hhandling
  generalize hres : some (s', r) = res at hhandling
  cases hhandling with
  | assign _ _ =>
    obtain ⟨rfl, -⟩ := Prod.mk.inj (Option.some.inj hres)
    rcases assign_cases h.wf view.header.clientMac with ⟨ip, -, heq⟩ | heq |
      ⟨ip, pool, hnone, hfree, hbecomes, heq⟩ <;> rw [heq]
    · exact .keep
    · exact .keep
    · exact .take hnone hfree hbecomes
  | ignore _ =>
    obtain ⟨rfl, -⟩ := Prod.mk.inj (Option.some.inj hres)
    exact .keep
  | giveBack _ hm hlease =>
    obtain ⟨pool, hrelease, heq⟩ := Option.map_eq_some_iff.1 hres.symm
    obtain ⟨rfl, -⟩ := Prod.mk.inj heq
    exact .giveBack hm hlease (AddressPool.becomes_release h.wf
      (h.exclusive.bound_of_owned _ _ hlease) (h.exclusive.not_free _ _ hlease) hrelease)

/-- **One call conserves the addresses.** -/
theorem Conserved.step {s₀ : DhcpState} {view : DhcpView} (hc : Conserved s₀ s)
    (h : s.Inv start end_) (hchanges : Changes s view s') : Conserved s₀ s' := by
  intro x
  rw [← hc x]
  cases hchanges with
  | keep => exact Iff.rfl
  | @take ip pool hnone hfree hbecomes =>
    rw [hbecomes.isFree_iff, leased_insert hnone]
    rcases eq_or_ne x ip with rfl | hne
    · simp [hfree]
    · simp [hne]
  | @giveBack ip pool _ hlease hbecomes =>
    rw [hbecomes.isFree_iff, leased_erase h hlease]
    rcases eq_or_ne x ip with rfl | hne
    · simp [show s.Leased x from ⟨_, hlease⟩]
    · simp [hne]

theorem conserved_boot {reserved : List Ipv4Addr} (h : boot start end_ reserved = some s) :
    Conserved s s := by
  obtain ⟨-, -, -, hleases⟩ := pool_boot h
  intro ip
  refine ⟨?_, Or.inl⟩
  rintro (hfree | ⟨mac, hlease⟩)
  · exact hfree
  · rw [hleases] at hlease
    exact absurd hlease (by simp)

/-- **Every run conserves the addresses.** -/
theorem Conserved.run {s₀ : DhcpState} {tr : List (DhcpCall × Option Bytes)}
    (hc : Conserved s₀ s) (h : s.Inv start end_) (hrun : (dhcpServers cfg).Run s tr s') :
    Conserved s₀ s' := by
  refine (hrun.invariant (I := fun s ↦ Conserved s₀ s ∧ s.Inv start end_) ⟨hc, h⟩ ?_).1
  rintro s ⟨c, frame⟩ t ⟨hc, h⟩ hstep
  obtain ⟨r, hhandle, -⟩ := serve_eq_some_iff.1 hstep
  exact ⟨hc.step h (h.changes hhandle), h.handle hhandle⟩

/-! ### Which server it was -/

/-- The same message and as much room for the reply, whichever the server. -/
def SameMessage (c c' : DhcpCall) : Prop := c.view = c'.view ∧ c.out.length = c'.out.length

/-- The same reply, whichever the server. -/
def SameReply (f f' : Option Bytes) : Prop :=
  f.map Frame.apartFromSource = f'.map Frame.apartFromSource

/-- **One message, two servers.** -/
theorem serve_congr {c' : DhcpCall} {t t' : DhcpState} {f f' : Option Bytes}
    (hsame : SameMessage c c') (h : s.serve cfg c = some (t, f))
    (h' : s.serve cfg c' = some (t', f')) : t = t' ∧ SameReply f f' := by
  obtain ⟨r, hhandle, rfl⟩ := serve_eq_some_iff.1 h
  obtain ⟨r', hhandle', rfl⟩ := serve_eq_some_iff.1 h'
  rw [hsame.1, hhandle', Option.some.injEq, Prod.mk.injEq] at hhandle
  obtain ⟨rfl, rfl⟩ := hhandle
  refine ⟨rfl, ?_⟩
  rw [SameReply, Option.map_map, Option.map_map, Function.comp_def]
  rcases r' with - | a
  · rw [Option.bind_none, Option.bind_none]
  · rw [Option.bind_some, Option.bind_some]
    exact apartFromSource_buildReply cfg c.server c'.server a hsame.2

/-- **Two runs on the same messages**, handled by other servers. -/
theorem run_congr {tr tr' : List (DhcpCall × Option Bytes)} {t t' : DhcpState}
    (hsame : List.Forall₂ (fun a a' ↦ SameMessage a.1 a'.1) tr tr')
    (h : (dhcpServers cfg).Run s tr t) (h' : (dhcpServers cfg).Run s tr' t') :
    t = t' ∧ List.Forall₂ (fun a a' ↦ SameReply a.2 a'.2) tr tr' := by
  induction hsame generalizing s with
  | nil => exact ⟨h.eq_of_nil.symm.trans h'.eq_of_nil, .nil⟩
  | cons hmessage _ ih =>
    obtain ⟨u, hstep, hrest⟩ := h.of_cons
    obtain ⟨u', hstep', hrest'⟩ := h'.of_cons
    obtain ⟨rfl, hreply⟩ := serve_congr hmessage hstep hstep'
    obtain ⟨rfl, hreplies⟩ := ih hrest hrest'
    exact ⟨rfl, .cons hreply hreplies⟩

/-! ### Bookkeeping -/

/-- **The rule of the lease table**: a lease changes only for the sender of the message, from none
to an address taken out of the pool, or to none at a Release or Decline. -/
def LeaseRule (s : DhcpState) (view : DhcpView) (s' : DhcpState) : Prop :=
  ∀ mac, s'.leases.lookup mac = s.leases.lookup mac ∨
    mac = view.header.clientMac ∧
      (s.leases.lookup mac = none ∧
          (∃ ip, s'.leases.lookup mac = some ip ∧ s.pool.IsFree ip ∧ ¬s'.pool.IsFree ip) ∨
        s'.leases.lookup mac = none ∧
          (view.messageType = some .release ∨ view.messageType = some .decline))

theorem Changes.leaseRule {view : DhcpView} (h : Changes s view s') : LeaseRule s view s' := by
  intro mac
  cases h with
  | keep => exact Or.inl rfl
  | @take ip pool hnone hfree hbecomes =>
    show (s.leases.insert view.header.clientMac ip).lookup mac = _ ∨ _
    rcases eq_or_ne mac view.header.clientMac with rfl | hmac
    · refine Or.inr ⟨rfl, Or.inl ⟨hnone, ip, AList.lookup_insert _, hfree, ?_⟩⟩
      rw [hbecomes.isFree_iff]
      exact fun h ↦ h.2 rfl
    · exact Or.inl (AList.lookup_insert_ne hmac)
  | @giveBack ip pool hm hlease hbecomes =>
    show (s.leases.erase view.header.clientMac).lookup mac = _ ∨ _
    rcases eq_or_ne mac view.header.clientMac with rfl | hmac
    · exact Or.inr ⟨rfl, Or.inr ⟨AList.lookup_erase _ _, hm⟩⟩
    · exact Or.inl (AList.lookup_erase_ne hmac)

/-- **The rule of the replies**: one is to the sender, and is a NAK, or an OFFER or ACK of the
address the sender has a lease of, which for an ACK is the address it asked for. -/
def ReplyRule (view : DhcpView) (s' : DhcpState) (frame : Bytes) : Prop :=
  ∃ reply, parseDhcp frame = some reply ∧ reply.header.clientMac = view.header.clientMac ∧
    (reply.messageType = some .nak ∨
      s'.leases.lookup view.header.clientMac = some reply.header.yourIp ∧
        (reply.messageType = some .offer ∨
          reply.messageType = some .ack ∧ view.requested = reply.header.yourIp))

/-- The address in a reply that is not a NAK. -/
theorem Inv.lookup_of_reply (h : s.Inv start end_) {cfg : DhcpServerConfig} {view : DhcpView}
    {a : Reply} (hhandle : s.handle cfg view = some (s', some a)) (hkind : a.kind ≠ .nak) :
    s'.leases.lookup view.header.clientMac = some a.yiaddr := by
  have hhandled := handled_handle h.wf hhandle
  generalize hr : some a = r at hhandled
  cases hhandled with
  | keep _ hreply => exact hreply a hr.symm hkind
  | take _ _ _ hreply =>
    rw [hreply a hr.symm hkind]
    exact AList.lookup_insert _
  | release _ _ _ => exact absurd hr (by simp)

theorem Inv.replyRule (h : s.Inv start end_) {f : Bytes}
    (hserve : s.serve cfg c = some (s', some f)) : ReplyRule c.view s' f := by
  obtain ⟨a, view, hhandle, hparse, hreads⟩ := exists_reply_of_serve hserve
  obtain ⟨hclient, hkinds⟩ := reply_of_handle hhandle
  refine ⟨view, hparse, hreads.clientMac_eq.trans hclient, ?_⟩
  rw [hreads.messageType_eq, hreads.yourIp_eq]
  rcases hkinds with hkind | ⟨hkind, hrequested⟩ | hkind
  · exact Or.inr ⟨h.lookup_of_reply hhandle (by simp [hkind]), Or.inl (by rw [hkind])⟩
  · exact Or.inr ⟨h.lookup_of_reply hhandle (by simp [hkind]),
      Or.inr ⟨by rw [hkind], hrequested⟩⟩
  · exact Or.inl (by rw [hkind])

/-- **The servers keep their books.** After any messages, handled one at a time by any of the
servers: the free and the leased addresses are disjoint and add up to what was free at start-up; the
next message, whatever it is, is handled, and by the rules of leases and replies; and had other
servers handled the messages, the tables would be the same and so would the replies, apart from the
source MAC. -/
theorem servers_keep_books {reserved : List Ipv4Addr} {s₀ : DhcpState}
    (hboot : boot start end_ reserved = some s₀) (cfg : DhcpReplyConfig)
    {tr : List (DhcpCall × Option Bytes)} (hrun : (dhcpServers cfg).Run s₀ tr s) :
    (∀ ip, s.pool.IsFree ip → ¬s.Leased ip) ∧ Conserved s₀ s ∧
    (∀ c, ∃ s' frame, s.serve cfg c = some (s', frame)) ∧
    (∀ c s' frame, s.serve cfg c = some (s', frame) →
      LeaseRule s c.view s' ∧ ∀ f ∈ frame, ReplyRule c.view s' f) ∧
    ∀ tr' s', (dhcpServers cfg).Run s₀ tr' s' →
      List.Forall₂ (fun a a' ↦ SameMessage a.1 a'.1) tr tr' →
      s = s' ∧ List.Forall₂ (fun a a' ↦ SameReply a.2 a'.2) tr tr' := by
  have hinv : s.Inv start end_ := (inv_boot hboot).run hrun
  refine ⟨?_, (conserved_boot hboot).run (inv_boot hboot) hrun, hinv.exists_serve cfg, ?_, ?_⟩
  · rintro ip hfree ⟨mac, hlease⟩
    exact hinv.exclusive.not_free mac ip hlease hfree
  · intro c s' frame hserve
    obtain ⟨r, hhandle, -⟩ := serve_eq_some_iff.1 hserve
    refine ⟨(hinv.changes hhandle).leaseRule, ?_⟩
    rintro f rfl
    exact hinv.replyRule hserve
  · exact fun tr' s' hrun' hsame ↦ run_congr hsame hrun hrun'

/-- The configuration of the servers in `10.0.0.0/24`, with one DNS server. -/
def sampleConfig : DhcpReplyConfig where
  serverIp := 0x0a0000fe
  serverMac := sampleMac 0xfe
  gateway := 0x0a0000fe
  subnetMask := 0xffffff00
  dns := [0x08080808]
  leaseSecs := 3600

/-- A host gets an OFFER from one server and releases the address to another: it is free again. -/
theorem servers_keep_books_release :
    ∃ s₀, boot 0x0a000001 0x0a00000a [0x0a000001] = some s₀ ∧
      ∃ tr s, (dhcpServers sampleConfig).Run s₀ tr s ∧ tr.map (fun a ↦ a.2.isSome) = [true, false] ∧
        s.leases.lookup (sampleMac 1) = none ∧ s.pool.IsFree 0x0a000002 ∧ Conserved s₀ s := by
  have hboot : boot 0x0a000001 0x0a00000a [0x0a000001] =
      some ⟨⟨0x0a000001, 0x0a00000a, [(0x0a000002, 0x0a00000a)]⟩, ∅⟩ := rfl
  refine ⟨_, hboot, ?_⟩
  have hcalls : (calls (serve sampleConfig)
      ⟨⟨0x0a000001, 0x0a00000a, [(0x0a000002, 0x0a00000a)]⟩, ∅⟩
      [⟨sampleMac 0xfe, sampleMessage 1 1, List.replicate 600 0⟩,
        ⟨sampleMac 0xfd, sampleMessage 7 1, List.replicate 600 0⟩]).map (fun r ↦
      (r.1.map (fun a ↦ a.2.isSome), r.2.leases.lookup (sampleMac 1),
        decide (r.2.pool.IsFree 0x0a000002))) = some ([true, false], none, true) := by
    decide +kernel
  obtain ⟨⟨tr, s⟩, hsome, hend⟩ := Option.map_eq_some_iff.1 hcalls
  obtain ⟨hreplies, hend⟩ := Prod.mk.inj hend
  obtain ⟨hlease, hfree⟩ := Prod.mk.inj hend
  have hrun := run_of_calls hsome
  exact ⟨tr, s, hrun, hreplies, hlease, of_decide_eq_true hfree,
    (servers_keep_books hboot sampleConfig hrun).2.1⟩

end DhcpState

end UserspaceRouter
