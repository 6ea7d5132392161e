import UserspaceRouter.Router.DhcpExchange

/-!
# The WAN DHCP client over whole runs

The client alone, polled at any time and fed any messages.

**State and lease.** The lease is set when the client becomes bound and never cleared. The two agree
until a NAK finds the client bound, and no longer (`Agrees.receive_iff`). From then on the client is
at the beginning but still reports an address, for which reason it is not polled any more.

**What binds the client.** The client keeps the address and the server of the OFFER it accepts, and
names them in its REQUESTs. An ACK is compared with neither: its transaction id and its type are all
that is looked at. `ClientHistory` records, next to the client, the OFFER that was accepted and the
frames sent since, so that one can say what the client asked for.
-/

namespace UserspaceRouter

/-- What happens to a client. -/
inductive ClientEvent
  | poll (out : Bytes)
  | receive (view : DhcpView)

namespace DhcpClient

def event (c : DhcpClient) : ClientEvent → DhcpClient
  | .poll out => (c.pollInto out).1
  | .receive view => c.onReceive view

/-- The client after a list of events. -/
def after (c : DhcpClient) (evs : List ClientEvent) : DhcpClient := evs.foldl event c

theorem after_concat (c : DhcpClient) (evs : List ClientEvent) (e : ClientEvent) :
    c.after (evs ++ [e]) = (c.after evs).event e :=
  List.foldl_concat ..

/-! ### State and lease -/

/-- The client has a lease, and so reports an address, exactly if it is bound. -/
def Agrees (c : DhcpClient) : Prop :=
  (c.lease.isSome ↔ c.state = .bound) ∧ (c.boundIp.isSome ↔ c.state = .bound)

instance (c : DhcpClient) : Decidable c.Agrees := inferInstanceAs (Decidable (_ ∧ _))

theorem agrees_iff (c : DhcpClient) : c.Agrees ↔ (c.lease.isSome ↔ c.state = .bound) := by
  rw [Agrees, boundIp, Option.isSome_map, and_self]

/-- A NAK of the client's transaction, while it is bound. -/
def LateNak (c : DhcpClient) (view : DhcpView) : Prop :=
  c.state = .bound ∧ view.header.xid = c.xid ∧ view.messageType = some .nak

theorem Agrees.poll {c : DhcpClient} (h : c.Agrees) (out : Bytes) : (c.pollInto out).1.Agrees := by
  have hpolled := c.polled out
  generalize c.pollInto out = p at hpolled ⊢
  cases hpolled with
  | silent => exact h
  | discover hinit _ =>
    rw [agrees_iff, hinit] at h
    rw [agrees_iff]
    exact ⟨fun hlease ↦ absurd (h.1 hlease) (by simp), fun hstate ↦ absurd hstate (by simp)⟩
  | request _ _ => exact h

/-- **One message keeps state and lease in agreement exactly if it is no late NAK.** -/
theorem Agrees.receive_iff {c : DhcpClient} (h : c.Agrees) (view : DhcpView) :
    (c.onReceive view).Agrees ↔ ¬c.LateNak view := by
  rw [agrees_iff] at h
  by_cases hlate : c.LateNak view
  · -- the lease stays, the state does not
    obtain ⟨hbound, hxid, hkind⟩ := hlate
    rw [onReceive_of_nak hxid hkind, agrees_iff]
    have hlease := h.2 hbound
    exact ⟨fun hagrees ↦ absurd (hagrees.1 hlease) (by simp), fun hno ↦
      absurd ⟨hbound, hxid, hkind⟩ hno⟩
  · refine ⟨fun _ ↦ hlate, fun _ ↦ ?_⟩
    have hreceived := received c view
    generalize c.onReceive view = c' at hreceived ⊢
    rw [agrees_iff]
    cases hreceived with
    | ignored => exact h
    | offered _ _ hstate =>
      rw [hstate] at h
      exact ⟨fun hlease ↦ absurd (h.1 hlease) (by simp), fun hstate ↦ absurd hstate (by simp)⟩
    | acked _ _ _ => exact ⟨fun _ ↦ rfl, fun _ ↦ rfl⟩
    | refused hxid hkind =>
      have hstate : c.state ≠ .bound := fun hbound ↦ hlate ⟨hbound, hxid, hkind⟩
      exact ⟨fun hlease ↦ absurd (h.1 hlease) hstate, fun hstate ↦ absurd hstate (by simp)⟩

/-- **State and lease agree all along exactly if no NAK comes while the client is bound.** -/
theorem agrees_iff_no_late_nak (mac : MacAddr) (xid : UInt32) (evs : List ClientEvent) :
    (∀ pre, pre <+: evs → ((new mac xid).after pre).Agrees) ↔
      ∀ pre view, pre ++ [.receive view] <+: evs → ¬((new mac xid).after pre).LateNak view := by
  constructor
  · intro hagrees pre view hpre
    have hnow := hagrees pre ((List.prefix_append pre _).trans hpre)
    rw [← hnow.receive_iff view]
    have hnext := hagrees (pre ++ [.receive view]) hpre
    rwa [after_concat] at hnext
  · intro hlate pre hpre
    -- by induction on the part of the run that is over
    induction pre using List.reverseRecOn with
    | nil => exact (agrees_iff _).2 (by simp [after, new])
    | append_singleton pre e ih =>
      have hnow := ih ((List.prefix_append pre _).trans hpre)
      rw [after_concat]
      cases e with
      | poll out => exact hnow.poll out
      | receive view => exact (hnow.receive_iff view).2 (hlate pre view hpre)

/-- The client sends its DISCOVER, and gets an OFFER and an ACK. -/
def sampleRun : List ClientEvent :=
  [.poll (List.replicate 600 0), .receive (sampleMessage 2 1), .receive (sampleMessage 5 1)]

/-- Without a NAK, state and lease agree. -/
theorem agrees_sampleRun :
    ((new (sampleMac 1) 0).after sampleRun).state = .bound ∧
      ∀ pre, pre <+: sampleRun → ((new (sampleMac 1) 0).after pre).Agrees := by
  refine ⟨by decide +kernel, (agrees_iff_no_late_nak _ _ _).2 fun pre view hpre hlate ↦ ?_⟩
  have hmem : .receive view ∈ sampleRun := hpre.subset (by simp)
  have hkind : view.messageType = some .offer ∨ view.messageType = some .ack := by
    simp only [sampleRun, List.mem_cons, reduceCtorEq, ClientEvent.receive.injEq, List.not_mem_nil,
      or_false, false_or] at hmem
    rcases hmem with rfl | rfl
    · exact Or.inl (by decide +kernel)
    · exact Or.inr (by decide +kernel)
  rcases hkind with hkind | hkind <;> exact absurd (hkind.symm.trans hlate.2.2) (by simp)

/-- A NAK afterwards: the client is back at the beginning, and still reports an address. -/
theorem not_agrees_after_late_nak :
    ¬((new (sampleMac 1) 0).after (sampleRun ++ [.receive (sampleMessage 6 1)])).Agrees ∧
      ((new (sampleMac 1) 0).after (sampleRun ++ [.receive (sampleMessage 6 1)])).state = .init ∧
      ((new (sampleMac 1) 0).after (sampleRun ++ [.receive (sampleMessage 6 1)])).boundIp =
        some 0 := by
  decide +kernel

/-! ### What binds the client -/

/-- The message binds the client. -/
def Binds (c : DhcpClient) (view : DhcpView) : Prop :=
  c.state ≠ .bound ∧ (c.onReceive view).state = .bound

instance (c : DhcpClient) (view : DhcpView) : Decidable (c.Binds view) :=
  inferInstanceAs (Decidable (_ ∧ _))

/-- Only an ACK of the client's transaction binds it, and only if it is requesting. -/
theorem Binds.acked {c : DhcpClient} {view : DhcpView} (hbinds : c.Binds view) :
    view.header.xid = c.xid ∧ c.state = .requesting ∧
      (c.onReceive view).boundIp = some view.header.yourIp := by
  obtain ⟨hbefore, hafter⟩ := hbinds
  have hreceived := c.received view
  generalize c.onReceive view = c' at hreceived hafter ⊢
  cases hreceived with
  | ignored => exact absurd hafter hbefore
  | offered _ _ _ => exact absurd hafter (by simp)
  | acked hxid _ hstate => exact ⟨hxid, hstate, rfl⟩
  | refused _ _ => exact absurd hafter (by simp)

end DhcpClient

/-- A client, the OFFER it accepted last, and the frames it has sent since. -/
structure ClientHistory where
  client : DhcpClient
  accepted : Option DhcpView
  sent : List Bytes

namespace ClientHistory

def new (mac : MacAddr) (xid : UInt32) : ClientHistory := ⟨DhcpClient.new mac xid, none, []⟩

/-- One event. An OFFER is accepted if it takes a client that is selecting to its REQUEST. -/
def event (h : ClientHistory) : ClientEvent → ClientHistory
  | .poll out =>
    let p := h.client.pollInto out
    ⟨p.1, h.accepted, h.sent ++ (p.2.map fun f ↦ f.1.take f.2).toList⟩
  | .receive view =>
    let c := h.client.onReceive view
    if h.client.state = .selecting ∧ c.state = .requesting then ⟨c, some view, []⟩
    else ⟨c, h.accepted, h.sent⟩

/-- The history of a list of events. -/
def after (h : ClientHistory) (evs : List ClientEvent) : ClientHistory := evs.foldl event h

/-- The history records the client, and does not interfere with it. -/
theorem client_after (h : ClientHistory) (evs : List ClientEvent) :
    (h.after evs).client = h.client.after evs := by
  induction evs using List.reverseRecOn with
  | nil => rfl
  | append_singleton evs e ih =>
    rw [DhcpClient.after_concat, ← ih, after, List.foldl_concat, ← after]
    cases e with
    | poll out => rfl
    | receive view =>
      simp only [event, DhcpClient.event]
      split_ifs <;> rfl

/-- The frame is a REQUEST for the address. -/
def IsRequestFor (ip : Ipv4Addr) (frame : Bytes) : Prop :=
  ∃ request, parseDhcp frame = some request ∧ request.messageType = some .request ∧
    Options.requestedIp request.options = some ip

/-- **A client that is requesting remembers the OFFER it accepted**, and has asked for nothing else
since. -/
structure Remembers (h : ClientHistory) (offer : DhcpView) : Prop where
  accepted_eq : h.accepted = some offer
  offeredIp_eq : h.client.offeredIp = some offer.header.yourIp
  serverId_eq : h.client.serverId = Options.serverId offer.options
  sent_for : ∀ frame ∈ h.sent, IsRequestFor offer.header.yourIp frame

theorem exists_remembers_poll {h : ClientHistory} {out : Bytes}
    (ih : h.client.state = .requesting → ∃ offer, h.Remembers offer)
    (hstate : (h.event (.poll out)).client.state = .requesting) :
    ∃ offer, (h.event (.poll out)).Remembers offer := by
  have hpolled := h.client.polled out
  simp only [event] at hstate ⊢
  generalize h.client.pollInto out = p at hpolled hstate ⊢
  cases hpolled with
  | silent =>
    obtain ⟨offer, hoffer⟩ := ih hstate
    refine ⟨offer, hoffer.1, hoffer.2, hoffer.3, ?_⟩
    rw [Option.map_none, Option.toList_none, List.append_nil]
    exact hoffer.sent_for
  | discover _ _ => exact absurd hstate (by simp)
  | @request f hreq hlayout =>
    obtain ⟨offer, hoffer⟩ := ih hreq
    refine ⟨offer, hoffer.1, hoffer.2, hoffer.3, fun frame hframe ↦ ?_⟩
    rcases List.mem_append.1 hframe with hframe | hframe
    · exact hoffer.sent_for frame hframe
    · -- the new frame names the address the client was offered
      obtain ⟨view, hparse, hreads⟩ := parseDhcp_layout hlayout
      obtain rfl : f.1.take f.2 = frame := Option.some.inj (Option.mem_toList.1 hframe)
      exact ⟨view, hparse, hreads.messageType_eq,
        (hreads.request_eq rfl).1.trans hoffer.offeredIp_eq⟩

theorem exists_remembers_receive {h : ClientHistory} {view : DhcpView}
    (ih : h.client.state = .requesting → ∃ offer, h.Remembers offer)
    (hstate : (h.event (.receive view)).client.state = .requesting) :
    ∃ offer, (h.event (.receive view)).Remembers offer := by
  have hreceived := h.client.received view
  simp only [event] at hstate ⊢
  generalize h.client.onReceive view = c at hreceived hstate ⊢
  cases hreceived with
  | ignored =>
    have hnot : ¬(h.client.state = .selecting ∧ h.client.state = .requesting) := by
      rintro ⟨hsel, hreq⟩
      exact absurd (hsel.symm.trans hreq) (by simp)
    rw [if_neg hnot] at hstate ⊢
    obtain ⟨offer, hoffer⟩ := ih hstate
    exact ⟨offer, hoffer.1, hoffer.2, hoffer.3, hoffer.4⟩
  | offered _ _ hsel =>
    rw [if_pos ⟨hsel, rfl⟩]
    exact ⟨view, rfl, rfl, rfl, by simp⟩
  | acked _ _ _ =>
    rw [if_neg (by simp)] at hstate
    exact absurd hstate (by simp)
  | refused _ _ =>
    rw [if_neg (by simp)] at hstate
    exact absurd hstate (by simp)

theorem exists_remembers (mac : MacAddr) (xid : UInt32) (evs : List ClientEvent)
    (hstate : ((new mac xid).after evs).client.state = .requesting) :
    ∃ offer, ((new mac xid).after evs).Remembers offer := by
  induction evs using List.reverseRecOn with
  | nil => exact absurd hstate (by simp [after, new, DhcpClient.new])
  | append_singleton evs e ih =>
    rw [after, List.foldl_concat, ← after] at hstate ⊢
    cases e with
    | poll out => exact exists_remembers_poll ih hstate
    | receive view => exact exists_remembers_receive ih hstate

/-- **The client asked for what the message binds it to**: the message is a BOOTREPLY with the magic
cookie, of the client's transaction and to its MAC, from the server of the OFFER it accepted, and
the address it is bound to is the one offered, for which it has sent a REQUEST. -/
def AskedFor (h : ClientHistory) (view : DhcpView) : Prop :=
  view.header.op = DhcpHeader.bootReply ∧ view.header.hasMagicCookie = true ∧
    view.header.xid = h.client.xid ∧ view.header.clientMac = h.client.mac ∧
    ∃ offer ip, h.accepted = some offer ∧
      Options.serverId view.options = Options.serverId offer.options ∧
      (h.client.onReceive view).boundIp = some ip ∧ ip = offer.header.yourIp ∧
      ∃ frame ∈ h.sent, IsRequestFor ip frame

/-- The message passes the checks that `on_receive` leaves out, against what the client has stored,
and the client has sent its REQUEST. -/
def PassesChecks (h : ClientHistory) (view : DhcpView) : Prop :=
  view.header.op = DhcpHeader.bootReply ∧ view.header.hasMagicCookie = true ∧
    view.header.clientMac = h.client.mac ∧
    Options.serverId view.options = h.client.serverId ∧
    h.client.offeredIp = some view.header.yourIp ∧ h.sent ≠ []

instance (h : ClientHistory) (view : DhcpView) : Decidable (h.PassesChecks view) :=
  inferInstanceAs (Decidable (_ ∧ _))

/-- **The client was bound to what it asked for exactly if the message passes the checks that are
not made.** -/
theorem askedFor_iff_passesChecks (mac : MacAddr) (xid : UInt32) (evs : List ClientEvent)
    {view : DhcpView} (hbinds : ((DhcpClient.new mac xid).after evs).Binds view) :
    ((new mac xid).after evs).AskedFor view ↔ ((new mac xid).after evs).PassesChecks view := by
  have hclient : (DhcpClient.new mac xid).after evs = ((new mac xid).after evs).client :=
    (client_after (new mac xid) evs).symm
  rw [hclient] at hbinds
  obtain ⟨hxid, hstate, hip⟩ := hbinds.acked
  obtain ⟨offer, hoffer⟩ := exists_remembers mac xid evs hstate
  generalize (new mac xid).after evs = h at hxid hip hoffer
  constructor
  · rintro ⟨hop, hcookie, -, hmac, offer', ip, haccepted, hserver, hip', rfl, frame, hframe, -⟩
    obtain rfl : offer' = offer := Option.some.inj (haccepted.symm.trans hoffer.accepted_eq)
    refine ⟨hop, hcookie, hmac, hserver.trans hoffer.serverId_eq.symm, ?_, ?_⟩
    · rw [hoffer.offeredIp_eq, ← hip', hip]
    · exact List.ne_nil_of_mem hframe
  · rintro ⟨hop, hcookie, hmac, hserver, hoffered, hsent⟩
    have heq : view.header.yourIp = offer.header.yourIp :=
      Option.some.inj (hoffered.symm.trans hoffer.offeredIp_eq)
    obtain ⟨frame, hframe⟩ := List.exists_mem_of_ne_nil _ hsent
    refine ⟨hop, hcookie, hxid, hmac, offer, view.header.yourIp, hoffer.accepted_eq,
      hserver.trans hoffer.serverId_eq, hip, heq, frame, hframe, ?_⟩
    rw [heq]
    exact hoffer.sent_for frame hframe

/-- A message with the given header and options. -/
def sampleView (h : DhcpHeader) (opts : List (UInt8 × Bytes)) : DhcpView where
  buf := h.octets ++ (Options.encode opts ++ [DhcpOption.end_])
  start := 0
  optionsStart := 240
  end_ := 240 + ((Options.encode opts).length + 1)

/-- A reply of the sample servers. -/
def sampleReply (kind : MessageType) : DhcpView :=
  let r : Reply := ⟨kind, 7, 0x0a000002, sampleMac 1, true⟩
  sampleView (DhcpState.sampleConfig.header r) (DhcpState.sampleConfig.options r)

/-- The client accepts an OFFER of `10.0.0.2` and sends its REQUEST. -/
def sampleRequest : List ClientEvent :=
  [.poll (List.replicate 600 0), .receive (sampleReply .offer), .poll (List.replicate 600 0)]

/-- The ACK of the same server binds it to what it asked for. -/
theorem askedFor_sampleReply :
    ((new (sampleMac 1) 7).after sampleRequest).AskedFor (sampleReply .ack) := by
  have hbinds : ((DhcpClient.new (sampleMac 1) 7).after sampleRequest).Binds
      (sampleReply .ack) := by
    decide +kernel
  exact (askedFor_iff_passesChecks _ _ _ hbinds).2 (by decide +kernel)

/-- A BOOTREQUEST without cookie, to another MAC, of another server and for another address. -/
def sampleForged : DhcpView :=
  sampleView { DhcpHeader.zero with op := 1, xid := 7, yiaddr := 0x0a090909 }
    [(DhcpOption.messageType, [MessageType.ack.toU8]),
      (DhcpOption.serverId, Ipv4Addr.octets 0x0a0000aa)]

/-- It binds the client as well. -/
theorem binds_sampleForged :
    ((DhcpClient.new (sampleMac 1) 7).after sampleRequest).Binds sampleForged ∧
      ¬((new (sampleMac 1) 7).after sampleRequest).AskedFor sampleForged ∧
      sampleForged.header.op ≠ DhcpHeader.bootReply ∧
      sampleForged.header.hasMagicCookie = false ∧ sampleForged.header.clientMac ≠ sampleMac 1 ∧
      Options.serverId sampleForged.options ≠ some 0x0a0000fe ∧
      (((DhcpClient.new (sampleMac 1) 7).after sampleRequest).onReceive sampleForged).boundIp =
        some 0x0a090909 := by
  have hop : sampleForged.header.op ≠ DhcpHeader.bootReply := by decide +kernel
  refine ⟨by decide +kernel, fun h ↦ hop h.1, hop, ?_⟩
  decide +kernel

end ClientHistory

end UserspaceRouter
