import UserspaceRouter.Router.DhcpClientRuns

/-!
# The WAN exchange over a channel that loses messages

The client, a server, and the frames in flight between them. A frame may arrive at any time and in
any order, or be lost. Of the server nothing is known but that it answers every DISCOVER of the
client with an OFFER (`Answering`); the code's own server is one (`answering_onFrame`).

The client sends a REQUEST at every poll until it is answered, so it recovers from the loss of a
REQUEST or of an ACK. A DISCOVER it sends once. While it is selecting, its only hope is a frame in
flight: its DISCOVER, or the OFFER that answers it (`Live`). If neither of these is lost while the
client is selecting, there is always a frame in flight or one to be polled. If the last of them is,
nothing ever happens again (`Stuck.run`).
-/

namespace UserspaceRouter

open TransitionSystem

/-! ### Frames -/

/-- A DISCOVER of the client. -/
def IsDiscover (mac : MacAddr) (xid : UInt32) (frame : Bytes) : Prop :=
  ∃ view ∈ parseDhcp frame, view.messageType = some .discover ∧ view.header.clientMac = mac ∧
    view.header.xid = xid

/-- A REQUEST of the client. -/
def IsRequest (mac : MacAddr) (xid : UInt32) (frame : Bytes) : Prop :=
  ∃ view ∈ parseDhcp frame, view.messageType = some .request ∧ view.header.clientMac = mac ∧
    view.header.xid = xid

/-- An OFFER of the client's transaction. -/
def IsOffer (xid : UInt32) (frame : Bytes) : Prop :=
  ∃ view ∈ parseDhcp frame, view.messageType = some .offer ∧ view.header.xid = xid

instance (mac : MacAddr) (xid : UInt32) (frame : Bytes) : Decidable (IsDiscover mac xid frame) :=
  inferInstanceAs (Decidable (∃ view ∈ parseDhcp frame, _))

instance (xid : UInt32) (frame : Bytes) : Decidable (IsOffer xid frame) :=
  inferInstanceAs (Decidable (∃ view ∈ parseDhcp frame, _))

/-! ### The system -/

variable {σ : Type*}

/-- The two parties, and the frames in flight in either direction. -/
structure Wan (σ : Type*) where
  client : DhcpClient
  server : σ
  toServer : List Bytes
  toClient : List Bytes

inductive WanEvent
  | poll (out : Bytes)
  | reachServer (frame : Bytes)
  | reachClient (frame : Bytes)
  | loseToServer (frame : Bytes)
  | loseToClient (frame : Bytes)

namespace Wan

def boot (mac : MacAddr) (xid : UInt32) (s : σ) : Wan σ := ⟨DhcpClient.new mac xid, s, [], []⟩

/-- The client takes in a frame, if it is a DHCP message. -/
def takeIn (c : DhcpClient) (frame : Bytes) : DhcpClient :=
  (parseDhcp frame).elim c c.onReceive

/-- One event, with a server that turns a frame into a state and perhaps a frame. -/
def step (srv : σ → Bytes → σ × Option Bytes) (w : Wan σ) : WanEvent → Option (Wan σ)
  | .poll out =>
    let p := w.client.pollInto out
    some { w with
      client := p.1
      toServer := w.toServer ++ (p.2.map fun f ↦ f.1.take f.2).toList }
  | .reachServer frame =>
    if frame ∈ w.toServer then
      let p := srv w.server frame
      some { w with
        server := p.1
        toServer := w.toServer.erase frame
        toClient := w.toClient ++ p.2.toList }
    else none
  | .reachClient frame =>
    if frame ∈ w.toClient then
      some { w with
        client := takeIn w.client frame
        toClient := w.toClient.erase frame }
    else none
  | .loseToServer frame =>
    if frame ∈ w.toServer then some { w with toServer := w.toServer.erase frame } else none
  | .loseToClient frame =>
    if frame ∈ w.toClient then some { w with toClient := w.toClient.erase frame } else none

end Wan

/-- The exchange over the lossy channel. -/
def wanSystem (srv : σ → Bytes → σ × Option Bytes) : TransitionSystem (Wan σ) WanEvent :=
  .ofPartial (Wan.step srv)

/-- **A server that answers**: from the states of interest, which the client's messages do not lead
out of, it answers every DISCOVER of the client with an OFFER. -/
structure Answering (srv : σ → Bytes → σ × Option Bytes) (mac : MacAddr) (xid : UInt32)
    (good : σ → Prop) : Prop where
  keeps : ∀ s frame, good s → IsDiscover mac xid frame ∨ IsRequest mac xid frame →
    good (srv s frame).1
  offers : ∀ s frame, good s → IsDiscover mac xid frame →
    ∃ reply, (srv s frame).2 = some reply ∧ IsOffer xid reply

namespace Wan

/-- **Progress**: while the client has no lease, a frame is in flight or the next poll gives one. -/
def Progress (w : Wan σ) : Prop :=
  w.client.lease = none → w.toServer ≠ [] ∨ w.toClient ≠ [] ∨
    ∀ out : Bytes, Frame.frameLen payloadMax ≤ out.length → (w.client.pollInto out).2.isSome

/-- The condition on an event: it does not lose a DISCOVER or an OFFER of a client that is
selecting. -/
def KeepsOffer (w : Wan σ) : WanEvent → Prop
  | .loseToServer frame =>
    w.client.state = .selecting → ¬IsDiscover w.client.mac w.client.xid frame
  | .loseToClient frame => w.client.state = .selecting → ¬IsOffer w.client.xid frame
  | _ => True

instance (w : Wan σ) : ∀ e, Decidable (w.KeepsOffer e)
  | .loseToServer _ => inferInstanceAs (Decidable (_ → ¬_))
  | .loseToClient _ => inferInstanceAs (Decidable (_ → ¬_))
  | .poll _ => inferInstanceAs (Decidable True)
  | .reachServer _ => inferInstanceAs (Decidable True)
  | .reachClient _ => inferInstanceAs (Decidable True)

/-- **The invariant.** A client that is selecting without a lease has its DISCOVER in flight, or an
OFFER. -/
structure Live (mac : MacAddr) (xid : UInt32) (good : σ → Prop) (w : Wan σ) : Prop where
  mac_eq : w.client.mac = mac
  xid_eq : w.client.xid = xid
  good_server : good w.server
  fromClient : ∀ frame ∈ w.toServer, IsDiscover mac xid frame ∨ IsRequest mac xid frame
  lease_of_bound : w.client.state = .bound → w.client.lease ≠ none
  hope : w.client.lease = none → w.client.state = .selecting →
    (∃ frame ∈ w.toServer, IsDiscover mac xid frame) ∨ ∃ frame ∈ w.toClient, IsOffer xid frame

variable {mac : MacAddr} {xid : UInt32} {good : σ → Prop} {w w' : Wan σ}

theorem live_boot {s : σ} (h : good s) : (boot mac xid s).Live mac xid good :=
  ⟨rfl, rfl, h, by simp [boot], by simp [boot, DhcpClient.new], by simp [boot, DhcpClient.new]⟩

theorem Live.progress (h : w.Live mac xid good) : w.Progress := by
  intro hlease
  rcases hstate : w.client.state with - | - | - | -
  · refine Or.inr (Or.inr fun out hroom ↦ ?_)
    obtain ⟨f, hlayout⟩ := exists_layout (w.client.build .discover) hroom
    simp [DhcpClient.pollInto, DhcpClient.poll, hstate, hlayout]
  · rcases h.hope hlease hstate with ⟨frame, hframe, -⟩ | ⟨frame, hframe, -⟩
    · exact Or.inl (List.ne_nil_of_mem hframe)
    · exact Or.inr (Or.inl (List.ne_nil_of_mem hframe))
  · refine Or.inr (Or.inr fun out hroom ↦ ?_)
    obtain ⟨f, hlayout⟩ := exists_layout (w.client.build .request) hroom
    simp [DhcpClient.pollInto, DhcpClient.poll, hstate, hlayout]
  · exact absurd hlease (h.lease_of_bound hstate)

/-! ### One event -/

/-- A frame the client lays out is read as its message. -/
theorem exists_view_of_layout {c : DhcpClient} {kind : MessageType} {out : Bytes} {f : Bytes × ℕ}
    (h : (c.build kind).layout out = some f) :
    ∃ view ∈ parseDhcp (f.1.take f.2), view.messageType = some kind ∧
      view.header.clientMac = c.mac ∧ view.header.xid = c.xid := by
  obtain ⟨view, hparse, hreads⟩ := parseDhcp_layout h
  obtain ⟨hkind, hmac, hxid⟩ := c.build_fields kind
  refine ⟨view, hparse, ?_, hreads.clientMac_eq.trans hmac, hreads.xid_eq.trans hxid⟩
  rw [hreads.messageType_eq, hkind]

/-- A frame of some kind is still in flight when one that is not of that kind is gone. -/
theorem exists_mem_erase {P : Bytes → Prop} {frames : List Bytes} {frame : Bytes}
    (h : ∃ frame' ∈ frames, P frame') (hnot : ¬P frame) :
    ∃ frame' ∈ frames.erase frame, P frame' := by
  obtain ⟨frame', hframe', hP⟩ := h
  have hne : frame' ≠ frame := by
    rintro rfl
    exact hnot hP
  exact ⟨frame', (List.mem_erase_of_ne hne).2 hframe', hP⟩

/-- A poll puts the client's message in flight, and nothing else changes. -/
theorem Live.poll {srv : σ → Bytes → σ × Option Bytes} (h : w.Live mac xid good) {out : Bytes}
    (hstep : w.step srv (.poll out) = some w') : w'.Live mac xid good := by
  obtain rfl := Option.some.inj hstep
  have hpolled := w.client.polled out
  generalize w.client.pollInto out = p at hpolled
  -- a frame more in flight takes no hope away
  have hgrow : ∀ frames, (∃ frame ∈ w.toServer, IsDiscover mac xid frame) →
      ∃ frame ∈ w.toServer ++ frames, IsDiscover mac xid frame := by
    rintro frames ⟨frame, hframe, hdiscover⟩
    exact ⟨frame, List.mem_append_left _ hframe, hdiscover⟩
  have hsent : ∀ frame, IsDiscover mac xid frame ∨ IsRequest mac xid frame →
      ∀ frame' ∈ w.toServer ++ [frame], IsDiscover mac xid frame' ∨ IsRequest mac xid frame' := by
    intro frame hnew frame' hframe'
    rcases List.mem_append.1 hframe' with hframe' | hframe'
    · exact h.fromClient frame' hframe'
    · rwa [List.mem_singleton.1 hframe']
  cases hpolled with
  | silent =>
    refine ⟨h.mac_eq, h.xid_eq, h.good_server, ?_, h.lease_of_bound, fun hlease hstate ↦
      (h.hope hlease hstate).imp_left (hgrow _)⟩
    simpa using h.fromClient
  | @discover f _ hlayout =>
    have hdiscover : IsDiscover mac xid (f.1.take f.2) := by
      rw [← h.mac_eq, ← h.xid_eq]
      exact exists_view_of_layout hlayout
    exact ⟨h.mac_eq, h.xid_eq, h.good_server, hsent _ (Or.inl hdiscover),
      fun hstate ↦ absurd hstate (by simp), fun _ _ ↦ Or.inl ⟨_, by simp, hdiscover⟩⟩
  | @request f _ hlayout =>
    have hrequest : IsRequest mac xid (f.1.take f.2) := by
      rw [← h.mac_eq, ← h.xid_eq]
      exact exists_view_of_layout hlayout
    exact ⟨h.mac_eq, h.xid_eq, h.good_server, hsent _ (Or.inr hrequest), h.lease_of_bound,
      fun hlease hstate ↦ (h.hope hlease hstate).imp_left (hgrow _)⟩

/-- A DISCOVER that reaches the server turns into an OFFER. -/
theorem Live.reachServer {srv : σ → Bytes → σ × Option Bytes} (hsrv : Answering srv mac xid good)
    (h : w.Live mac xid good) {frame : Bytes}
    (hstep : w.step srv (.reachServer frame) = some w') : w'.Live mac xid good := by
  rw [step] at hstep
  split_ifs at hstep with hframe
  obtain rfl := Option.some.inj hstep
  refine ⟨h.mac_eq, h.xid_eq, hsrv.keeps _ _ h.good_server (h.fromClient frame hframe),
    fun frame' hframe' ↦ h.fromClient frame' (List.mem_of_mem_erase hframe'), h.lease_of_bound,
    fun hlease hstate ↦ ?_⟩
  by_cases hdiscover : IsDiscover mac xid frame
  · obtain ⟨reply, hreply, hoffer⟩ := hsrv.offers w.server frame h.good_server hdiscover
    exact Or.inr ⟨reply, List.mem_append_right _ (by simp [hreply]), hoffer⟩
  · refine (h.hope hlease hstate).imp (exists_mem_erase · hdiscover) ?_
    rintro ⟨frame', hframe', hoffer⟩
    exact ⟨frame', List.mem_append_left _ hframe', hoffer⟩

/-- An OFFER that reaches a client that is selecting ends that. -/
theorem takeIn_of_isOffer {c : DhcpClient} {frame : Bytes} (hoffer : IsOffer c.xid frame)
    (hstate : c.state = .selecting) : (takeIn c frame).state = .requesting := by
  obtain ⟨view, hparse, hkind, hxid⟩ := hoffer
  rw [takeIn, Option.mem_def.1 hparse, Option.elim_some,
    DhcpClient.onReceive_of_offer hxid hkind hstate]

/-- What a frame can do to the client, as far as the lease goes. -/
theorem takeIn_cases (c : DhcpClient) (frame : Bytes) :
    (takeIn c frame).mac = c.mac ∧ (takeIn c frame).xid = c.xid ∧
      ((takeIn c frame).lease = c.lease ∧
          ((takeIn c frame).state = c.state ∨ (takeIn c frame).state = .requesting ∨
            (takeIn c frame).state = .init) ∨
        (takeIn c frame).lease ≠ none) := by
  rw [takeIn]
  rcases parseDhcp frame with - | view
  · exact ⟨rfl, rfl, Or.inl ⟨rfl, Or.inl rfl⟩⟩
  · rw [Option.elim_some]
    have hreceived := c.received view
    generalize c.onReceive view = c' at hreceived ⊢
    cases hreceived with
    | ignored => exact ⟨rfl, rfl, Or.inl ⟨rfl, Or.inl rfl⟩⟩
    | offered _ _ _ => exact ⟨rfl, rfl, Or.inl ⟨rfl, Or.inr (Or.inl rfl)⟩⟩
    | acked _ _ _ => exact ⟨rfl, rfl, Or.inr (by simp)⟩
    | refused _ _ => exact ⟨rfl, rfl, Or.inl ⟨rfl, Or.inr (Or.inr rfl)⟩⟩

theorem Live.reachClient {srv : σ → Bytes → σ × Option Bytes} (h : w.Live mac xid good)
    {frame : Bytes} (hstep : w.step srv (.reachClient frame) = some w') :
    w'.Live mac xid good := by
  rw [step] at hstep
  split_ifs at hstep with hframe
  obtain rfl := Option.some.inj hstep
  obtain ⟨hmac, hxid, hcases⟩ := takeIn_cases w.client frame
  refine ⟨hmac.trans h.mac_eq, hxid.trans h.xid_eq, h.good_server, h.fromClient,
    fun hbound ↦ ?_, fun hlease hstate ↦ ?_⟩
  · rcases hcases with ⟨hlease, hstate | hstate | hstate⟩ | hlease
    · rw [hlease]
      exact h.lease_of_bound (hstate.symm.trans hbound)
    · exact absurd (hstate.symm.trans hbound) (by simp)
    · exact absurd (hstate.symm.trans hbound) (by simp)
    · exact hlease
  · rcases hcases with ⟨hlease', hstate' | hstate' | hstate'⟩ | hlease'
    · -- still selecting: the frame was no OFFER, and what was hoped for is still in flight
      have hselecting : w.client.state = .selecting := hstate'.symm.trans hstate
      have hnot : ¬IsOffer xid frame := by
        intro hoffer
        have hrequesting := takeIn_of_isOffer (h.xid_eq.symm ▸ hoffer) hselecting
        exact absurd (hrequesting.symm.trans hstate) (by simp)
      exact (h.hope (hlease'.symm.trans hlease) hselecting).imp_right (exists_mem_erase · hnot)
    · exact absurd (hstate'.symm.trans hstate) (by simp)
    · exact absurd (hstate'.symm.trans hstate) (by simp)
    · exact absurd hlease hlease'

theorem Live.loseToServer {srv : σ → Bytes → σ × Option Bytes} (h : w.Live mac xid good)
    {frame : Bytes} (hkeeps : w.KeepsOffer (.loseToServer frame))
    (hstep : w.step srv (.loseToServer frame) = some w') : w'.Live mac xid good := by
  rw [step] at hstep
  split_ifs at hstep with hframe
  obtain rfl := Option.some.inj hstep
  refine ⟨h.mac_eq, h.xid_eq, h.good_server,
    fun frame' hframe' ↦ h.fromClient frame' (List.mem_of_mem_erase hframe'), h.lease_of_bound,
    fun hlease hstate ↦ ?_⟩
  have hlost := hkeeps hstate
  rw [h.mac_eq, h.xid_eq] at hlost
  exact (h.hope hlease hstate).imp_left (exists_mem_erase · hlost)

theorem Live.loseToClient {srv : σ → Bytes → σ × Option Bytes} (h : w.Live mac xid good)
    {frame : Bytes} (hkeeps : w.KeepsOffer (.loseToClient frame))
    (hstep : w.step srv (.loseToClient frame) = some w') : w'.Live mac xid good := by
  rw [step] at hstep
  split_ifs at hstep with hframe
  obtain rfl := Option.some.inj hstep
  refine ⟨h.mac_eq, h.xid_eq, h.good_server, h.fromClient, h.lease_of_bound,
    fun hlease hstate ↦ ?_⟩
  have hlost := hkeeps hstate
  rw [h.xid_eq] at hlost
  exact (h.hope hlease hstate).imp_right (exists_mem_erase · hlost)

/-- **One event keeps the invariant**, if it meets the condition. -/
theorem Live.step {srv : σ → Bytes → σ × Option Bytes} (hsrv : Answering srv mac xid good)
    (h : w.Live mac xid good) {e : WanEvent} (hkeeps : w.KeepsOffer e)
    (hstep : w.step srv e = some w') : w'.Live mac xid good := by
  cases e with
  | poll out => exact h.poll hstep
  | reachServer frame => exact h.reachServer hsrv hstep
  | reachClient frame => exact h.reachClient hstep
  | loseToServer frame => exact h.loseToServer hkeeps hstep
  | loseToClient frame => exact h.loseToClient hkeeps hstep

end Wan

/-! ### The code's own server -/

namespace DhcpState

/-- A server of the code, as a party to the exchange. -/
def onFrame (cfg : DhcpReplyConfig) (out : Bytes) (s : DhcpState) (frame : Bytes) :
    DhcpState × Option Bytes :=
  (parseDhcp frame).elim (s, none) fun view ↦
    (s.serve cfg ⟨cfg.serverMac, view, out⟩).getD (s, none)

/-- A client that can be served can still be served after a message of its own that gives nothing
back. -/
theorem Sound.canServe_handle {s s' : DhcpState} (h : s.Sound) {cfg : DhcpServerConfig}
    {view : DhcpView} {r : Option Reply} (hcan : s.CanServe view.header.clientMac)
    (hback : s.givesBack view = none) (hhandle : s.handle cfg view = some (s', r)) :
    s'.CanServe view.header.clientMac := by
  have hhandling := handling s cfg view
  rw [hhandle] at hhandling
  generalize hres : some (s', r) = res at hhandling
  cases hhandling with
  | assign _ _ =>
    obtain ⟨rfl, -⟩ := Prod.mk.inj (Option.some.inj hres)
    rcases h.assign_cases view.header.clientMac with ⟨-, hno⟩ | ⟨s', ip, heq, -, -, hlease, -⟩
    · exact absurd hcan hno
    · rw [heq]
      exact Or.inl ⟨ip, hlease⟩
  | ignore _ =>
    obtain ⟨rfl, -⟩ := Prod.mk.inj (Option.some.inj hres)
    exact hcan
  | giveBack hback' _ _ => exact absurd (hback.symm.trans hback') (by simp)

/-- **The code's server answers**, as long as the client can be served. -/
theorem answering_onFrame {cfg : DhcpReplyConfig} (hdns : cfg.dns.length ≤ 60) {out : Bytes}
    (hroom : Frame.frameLen payloadMax ≤ out.length) (mac : MacAddr) (xid : UInt32) :
    Answering (onFrame cfg out) mac xid fun s ↦ s.Sound ∧ s.CanServe mac where
  keeps := by
    rintro s frame ⟨hsound, hcan⟩ hframe
    obtain ⟨view, hparse, hmac, hback⟩ : ∃ view, parseDhcp frame = some view ∧
        view.header.clientMac = mac ∧ s.givesBack view = none := by
      rcases hframe with ⟨view, hparse, hkind, hmac, -⟩ | ⟨view, hparse, hkind, hmac, -⟩ <;>
        exact ⟨view, hparse, hmac, by simp only [givesBack, hkind]⟩
    obtain ⟨s', r, hhandle, hsound', -⟩ := hsound.handle cfg.toDhcpServerConfig view
    have hserve := (serve_eq_some_iff (c := ⟨cfg.serverMac, view, out⟩)).2 ⟨r, hhandle, rfl⟩
    subst hmac
    simp only [onFrame, hparse, Option.elim_some, hserve, Option.getD_some]
    exact ⟨hsound', hsound.canServe_handle hcan hback hhandle⟩
  offers := by
    rintro s frame ⟨hsound, hcan⟩ ⟨view, hparse, hkind, rfl, rfl⟩
    have hhandle := handle_of_discover (s := s) cfg.toDhcpServerConfig hkind
    rcases hsound.assign_cases view.header.clientMac with ⟨-, hno⟩ | ⟨s', ip, heq, -⟩
    · exact absurd hcan hno
    · rw [heq] at hhandle
      obtain ⟨f, reply, hserve, hreply, hreads⟩ := exists_serve_of_handle
        (c := ⟨cfg.serverMac, view, out⟩) hhandle hdns hroom
      refine ⟨f, ?_, reply, hreply, hreads.messageType_eq, hreads.xid_eq⟩
      simp only [onFrame, Option.mem_def.1 hparse, Option.elim_some, hserve, Option.getD_some]

end DhcpState

/-! ### Loss -/

namespace Wan

variable {mac : MacAddr} {xid : UInt32} {good : σ → Prop} {w : Wan σ}

/-- **The exchange does not stop for want of a message**, as long as no DISCOVER and no OFFER is
lost while the client is selecting: in every state of such a run, a client without a lease has a
message in flight or one to send. -/
theorem progress_of_keepsOffer {srv : σ → Bytes → σ × Option Bytes}
    (hsrv : Answering srv mac xid good) {s₀ : σ} (hgood : good s₀) {tr : List WanEvent}
    (hrun : ((wanSystem srv).restrict KeepsOffer).Run (boot mac xid s₀) tr w) : w.Progress := by
  refine (hrun.invariant (I := Live mac xid good) (live_boot hgood) ?_).progress
  rintro w e w' h ⟨hkeeps, hstep⟩
  exact h.step hsrv hkeeps hstep

/-- The client is selecting, and nothing is in flight. -/
def Stuck (w : Wan σ) : Prop :=
  w.client.state = .selecting ∧ w.client.lease = none ∧ w.toServer = [] ∧ w.toClient = []

theorem Stuck.pollInto (h : w.Stuck) (out : Bytes) : w.client.pollInto out = (w.client, none) := by
  simp only [DhcpClient.pollInto, DhcpClient.poll, h.1]

theorem Stuck.not_progress (h : w.Stuck) : ¬w.Progress := by
  intro hprogress
  rcases hprogress h.2.1 with hserver | hclient | hpoll
  · exact hserver h.2.2.1
  · exact hclient h.2.2.2
  · have hsome := hpoll (List.replicate (Frame.frameLen payloadMax) 0) (by simp)
    rw [h.pollInto] at hsome
    exact absurd hsome (by simp)

/-- **Stuck is stuck**: nothing can happen but polls, which do nothing. -/
theorem Stuck.run {srv : σ → Bytes → σ × Option Bytes} (h : w.Stuck) {tr : List WanEvent}
    {w' : Wan σ} (hrun : (wanSystem srv).Run w tr w') : w' = w := by
  refine hrun.invariant (I := fun w' ↦ w' = w) rfl ?_
  rintro w₁ e w₂ rfl hstep
  have hstep' : w₁.step srv e = some w₂ := hstep
  cases e with
  | poll out =>
    rw [step, h.pollInto] at hstep'
    simp only [Option.map_none, Option.toList_none, List.append_nil] at hstep'
    exact (Option.some.inj hstep').symm
  | reachServer frame | loseToServer frame =>
    rw [step, h.2.2.1] at hstep'
    exact absurd hstep' (by simp)
  | reachClient frame | loseToClient frame =>
    rw [step, h.2.2.2] at hstep'
    exact absurd hstep' (by simp)

/-! ### A run of the code's server -/

/-- A buffer for a frame. -/
def sampleBuf : Bytes := List.replicate 1518 0

/-- The tables of the server at start-up. -/
def sampleTables : DhcpState := ⟨⟨0x0a000001, 0x0a00000a, [(0x0a000002, 0x0a00000a)]⟩, ∅⟩

/-- The frame a client sends. -/
def sampleFrame (c : DhcpClient) : Bytes :=
  ((c.pollInto sampleBuf).2.map fun f ↦ f.1.take f.2).getD []

def sampleDiscover : Bytes := sampleFrame (DhcpClient.new (sampleMac 1) 7)

/-- The server's answer to the DISCOVER. -/
def sampleOffer : Bytes :=
  (sampleTables.onFrame DhcpState.sampleConfig sampleBuf sampleDiscover).2.getD []

/-- The client, once it has accepted the OFFER. -/
def sampleRequesting : DhcpClient :=
  ⟨sampleMac 1, 7, .requesting, some 0x0a000002, some 0x0a0000fe, none⟩

/-- A REQUEST is lost: nothing is in flight, and the client sends another one. -/
theorem progress_after_lost_request :
    ∃ tr w, ((wanSystem (DhcpState.onFrame DhcpState.sampleConfig sampleBuf)).restrict
        KeepsOffer).Run (boot (sampleMac 1) 7 sampleTables) tr w ∧
      w.client = sampleRequesting ∧ w.toServer = [] ∧ w.toClient = [] ∧ w.Progress := by
  have hfold : (List.foldlM (fun (w : Wan DhcpState) e ↦ if w.KeepsOffer e then
        w.step (DhcpState.onFrame DhcpState.sampleConfig sampleBuf) e else none)
      (boot (sampleMac 1) 7 sampleTables)
      [WanEvent.poll sampleBuf, .reachServer sampleDiscover, .reachClient sampleOffer,
        .poll sampleBuf, .loseToServer (sampleFrame sampleRequesting)]).map
      (fun w ↦ (w.client, w.toServer, w.toClient)) = some (sampleRequesting, [], []) := by
    decide +kernel
  obtain ⟨w, hsome, hend⟩ := Option.map_eq_some_iff.1 hfold
  obtain ⟨hclient, hend⟩ := Prod.mk.inj hend
  obtain ⟨hserver, htoClient⟩ := Prod.mk.inj hend
  have hrun := run_restrict_of_foldlM hsome
  have hboot : DhcpState.boot 0x0a000001 0x0a00000a [0x0a000001] = some sampleTables := rfl
  have hroom : Frame.frameLen payloadMax ≤ sampleBuf.length := by
    rw [sampleBuf, List.length_replicate]
    decide
  refine ⟨_, w, hrun, hclient, hserver, htoClient, progress_of_keepsOffer
    (DhcpState.answering_onFrame (by decide) hroom _ _) ⟨DhcpState.sound_boot hboot, ?_⟩ hrun⟩
  exact Or.inr ⟨(0x0a000002, 0x0a00000a), List.mem_singleton_self _, by decide⟩

/-- The DISCOVER is lost: nothing is in flight, the client has nothing to send, and nothing will
ever change. -/
theorem stuck_after_lost_discover :
    ∃ tr w, (wanSystem (DhcpState.onFrame DhcpState.sampleConfig sampleBuf)).Run
        (boot (sampleMac 1) 7 sampleTables) tr w ∧
      ¬w.Progress ∧ ∀ tr' w', (wanSystem (DhcpState.onFrame DhcpState.sampleConfig sampleBuf)).Run
        w tr' w' → w' = w := by
  have hfold : (List.foldlM (Wan.step (DhcpState.onFrame DhcpState.sampleConfig sampleBuf))
      (boot (sampleMac 1) 7 sampleTables)
      [.poll sampleBuf, .loseToServer sampleDiscover]).map
      (fun w ↦ (w.client.state, w.client.lease, w.toServer, w.toClient)) =
      some (.selecting, none, [], []) := by
    decide +kernel
  obtain ⟨w, hsome, hend⟩ := Option.map_eq_some_iff.1 hfold
  have hstuck : w.Stuck := by
    simp only [Prod.mk.injEq] at hend
    exact hend
  exact ⟨_, w, run_of_foldlM hsome, hstuck.not_progress, fun _ _ ↦ hstuck.run⟩

end Wan

end UserspaceRouter
