import Mathlib.Data.List.Infix
import UserspaceRouter.Router.Conntrack

/-!
# The life of a flow

What its packets do to the two endpoints of a flow, between the packet that creates the entry and
the call that removes it. `ConnTrack.Life` says which stretch of a run that is, and `Life.history`
is the rule by which everything below is proved: a relation between the calls since the flow was
created and its entry, kept by every call that leaves the flow stored.

## Three questions about timeouts

An endpoint in `established` gives its flow 24 hours, every other state two minutes or less, so each
of them asks when an endpoint is `established`.

* **A flow the peer never answered.** The peer's endpoint is advanced by what the internal host
  sends, as if it had been received: it becomes `established` at the first outbound ACK without FIN,
  and stays so until an outbound FIN.
* **A flow closed from both sides.** A FIN takes an endpoint out of `established`, but not out of
  the handshake states: the endpoint that ignored it there enters `established` later, when the
  handshake completes.
* **A new handshake on a torn-down flow.** Only a `closed` endpoint reacts to the new SYN, and never
  are both closed in a stored entry: the handshake ends in `(established, established)` exactly when
  the flow was absent.
-/

namespace UserspaceRouter

/-! ### The history of one flow -/

namespace FlowEvent

/-- The flags of an outbound packet. -/
def sent : FlowEvent → Option UInt8
  | .egress flags _ => some flags
  | .ingress _ _ => none
  | .sweep _ => none

/-- The flags of an inbound packet. -/
def received : FlowEvent → Option UInt8
  | .egress _ _ => none
  | .ingress flags _ => some flags
  | .sweep _ => none

end FlowEvent

namespace Conn

/-- The entry a packet created. -/
def opened (now : Tick) : Conn := ⟨.synSent, .synReceived, now⟩

/-- What an event makes of a stored entry that it leaves stored. -/
def after (c : Conn) : FlowEvent → Conn
  | .egress flags now => afterEgress (some c) flags now
  | .ingress flags now => c.afterIngress flags now
  | .sweep _ => c

end Conn

/-- A stored entry that an event leaves stored. -/
theorem flowStep_some_eq_some {c c' : Conn} {e : FlowEvent} (hopen : c.fullyClosed = false)
    (h : flowStep (some c) e = some c') : c' = c.after e := by
  cases e with
  | egress flags now => exact (Conn.reap_eq_some_iff.1 h).2.symm
  | ingress flags now =>
    have hreap : (c.afterIngress flags now).reap = some c' := by
      simpa [flowStep, hopen] using h
    exact (Conn.reap_eq_some_iff.1 hreap).2.symm
  | sweep now =>
    have hkept : (some c).filter (fun c ↦ Tick.elapsedSince now c.lastSeen < c.idleTimeoutMs) =
        some c' := h
    exact (Option.some.inj (Option.filter_eq_some_iff.1 hkept).1).symm

namespace ConnTrack

/-- What a sequence of calls does to one flow. -/
def eventsAt (k : FlowKey) (ops : List Op) : List FlowEvent := ops.filterMap (Op.eventAt k)

/-- The flags of the outbound packets of a flow, oldest first. -/
def sentOn (k : FlowKey) (ops : List Op) : List UInt8 := (eventsAt k ops).filterMap FlowEvent.sent

/-- The flags of the inbound packets of a flow, oldest first. While the flow is stored, all of them
are admitted (`Life.admits`). -/
def receivedOn (k : FlowKey) (ops : List Op) : List UInt8 :=
  (eventsAt k ops).filterMap FlowEvent.received

/-- What a call makes of a stored entry that it leaves stored. -/
def Op.afterAt (k : FlowKey) (c : Conn) (op : Op) : Conn := (op.eventAt k).elim c c.after

/-- The states of a flow, without touching it. -/
def states (c : ConnTrack) (key : FlowKey) : Option (TcpState × TcpState) :=
  (c.flows.lookup key).map fun conn ↦ (conn.internal, conn.external)

theorem eventsAt_concat (k : FlowKey) (ops : List Op) (op : Op) :
    eventsAt k (ops ++ [op]) = eventsAt k ops ++ (op.eventAt k).toList := by
  rw [eventsAt, List.filterMap_append, eventsAt]
  rcases he : op.eventAt k with - | e
  · rw [List.filterMap_cons_none he]
    rfl
  · rw [List.filterMap_cons_some he]
    rfl

theorem sentOn_concat (k : FlowKey) (ops : List Op) (op : Op) :
    sentOn k (ops ++ [op]) = sentOn k ops ++ ((op.eventAt k).bind FlowEvent.sent).toList := by
  rw [sentOn, eventsAt_concat, List.filterMap_append, sentOn]
  rcases op.eventAt k with - | (- | - | -) <;> rfl

theorem receivedOn_concat (k : FlowKey) (ops : List Op) (op : Op) :
    receivedOn k (ops ++ [op]) =
      receivedOn k ops ++ ((op.eventAt k).bind FlowEvent.received).toList := by
  rw [receivedOn, eventsAt_concat, List.filterMap_append, receivedOn]
  rcases op.eventAt k with - | (- | - | -) <;> rfl

namespace Life

variable {k : FlowKey} {pre post : List Op} {flags : UInt8} {now : Tick}

/-- The entry at the moment of creation. -/
theorem lookup_opened (h : Life k pre flags now post) :
    (new.run (pre ++ [.observeEgress k flags now])).flows.lookup k = some (.opened now) := by
  have hopening := h.isOpening
  rw [run_concat, lookup_step, Op.eventAt, if_pos rfl, AList.lookup_eq_none.2 h.absent]
  obtain ⟨⟨hsyn, hack⟩, hrst⟩ : (TcpFlag.isSet flags TcpFlag.syn = true ∧
      TcpFlag.isSet flags TcpFlag.ack = false) ∧ TcpFlag.isSet flags TcpFlag.rst = false := by
    simpa [TcpFlag.isOpening] using hopening
  refine Conn.reap_eq_some_iff.2 ⟨?_, ?_⟩ <;>
    simp [Conn.afterEgress, Conn.opened, Conn.fullyClosed, transitionOnSend, transitionOnRecv,
      hsyn, hack, hrst]

/-- The entry after one more call that leaves the flow stored. -/
theorem lookup_concat {op : Op} (h : Life k pre flags now (post ++ [op])) {c : Conn}
    (hc : (new.run (pre ++ .observeEgress k flags now :: post)).flows.lookup k = some c) :
    (new.run (pre ++ .observeEgress k flags now :: (post ++ [op]))).flows.lookup k =
      some (op.afterAt k c) := by
  obtain ⟨c', hc'⟩ := AList.mem_iff_lookup.1 (h.stored _ (List.prefix_refl _))
  have hsplit : pre ++ Op.observeEgress k flags now :: (post ++ [op]) =
      (pre ++ .observeEgress k flags now :: post) ++ [op] := by simp
  have hstep := hc'
  rw [hsplit, run_concat, lookup_step, hc] at hstep
  rw [hc', Op.afterAt]
  rcases he : op.eventAt k with - | e
  · rw [he] at hstep
    exact hstep.symm
  · rw [he] at hstep
    exact congrArg some (flowStep_some_eq_some (inv_run _ k c hc).not_fullyClosed hstep)

/-- **The history rule of one flow.** A relation between the calls since the flow was created and
its entry holds throughout its life if it holds at creation and every call keeps it. -/
theorem history {I : List Op → Conn → Prop} (h : Life k pre flags now post)
    (h₀ : I [] (.opened now))
    (hstep : ∀ mid op c, mid ++ [op] <+: post →
      (new.run (pre ++ .observeEgress k flags now :: mid)).flows.lookup k = some c → I mid c →
      (op.afterAt k c).fullyClosed = false → I (mid ++ [op]) (op.afterAt k c))
    {conn : Conn}
    (hconn : (new.run (pre ++ .observeEgress k flags now :: post)).flows.lookup k = some conn) :
    I post conn := by
  induction post using List.reverseRecOn generalizing conn with
  | nil =>
    obtain rfl := Option.some.inj (h.lookup_opened.symm.trans hconn)
    exact h₀
  | append_singleton post op ih =>
    have hpre := List.prefix_append post [op]
    obtain ⟨c, hc⟩ := AList.mem_iff_lookup.1 (h.stored post hpre)
    obtain rfl := Option.some.inj ((h.lookup_concat hc).symm.trans hconn)
    refine hstep post op c (List.prefix_refl _) hc ?_ (inv_run _ k _ hconn).not_fullyClosed
    exact ih (h.of_prefix hpre) (fun mid op c hmid ↦ hstep mid op c (hmid.trans hpre)) hc

/-- A living flow admits every inbound packet. -/
theorem admits (h : Life k pre flags now post) (flags' : UInt8) (now' : Tick) :
    ((new.run (pre ++ .observeEgress k flags now :: post)).checkIngress k flags' now').2 = true :=
  (checkIngress_eq_true_iff (inv_run _) k flags' now').2 (h.stored post (List.prefix_refl _))

end Life

end ConnTrack

/-! ### Flows the peer has not answered -/

/-- An acknowledgement that does not close anything. -/
def TcpFlag.ackWithoutFin (flags : UInt8) : Bool := isSet flags ack && !isSet flags fin

/-- The packets from the first acknowledgement without FIN on. -/
def fromFirstAck (sent : List UInt8) : List UInt8 :=
  sent.dropWhile fun flags ↦ !TcpFlag.ackWithoutFin flags

/-- The state of the peer of a host that has sent the packets `sent` after its opening one, with
nothing coming back. -/
def unansweredPeer (sent : List UInt8) : TcpState :=
  if fromFirstAck sent = [] then .synReceived
  else if ∃ flags ∈ fromFirstAck sent, TcpFlag.isSet flags TcpFlag.fin = true then .closeWait
  else .established

/-- One more outbound packet is one more thing received by the peer. -/
theorem unansweredPeer_concat (sent : List UInt8) {flags : UInt8}
    (hrst : TcpFlag.isSet flags TcpFlag.rst = false) :
    unansweredPeer (sent ++ [flags]) = transitionOnRecv (unansweredPeer sent) flags := by
  have hdrop : fromFirstAck (sent ++ [flags]) =
      if fromFirstAck sent = [] then (if TcpFlag.ackWithoutFin flags then [flags] else [])
      else fromFirstAck sent ++ [flags] := by
    rw [fromFirstAck, List.dropWhile_append]
    rcases h : List.dropWhile (fun flags ↦ !TcpFlag.ackWithoutFin flags) sent with - | ⟨f, fs⟩
    · rcases hf : TcpFlag.ackWithoutFin flags with - | - <;> simp [fromFirstAck, h, hf]
    · simp [fromFirstAck, h]
  unfold unansweredPeer
  rw [hdrop]
  by_cases hnil : fromFirstAck sent = []
  · -- still waiting for the acknowledgement that would complete the handshake
    rcases hf : TcpFlag.ackWithoutFin flags with - | -
    · simp only [TcpFlag.ackWithoutFin] at hf
      simp [hnil, transitionOnRecv, hrst, hf]
    · obtain ⟨hack, hfin⟩ : TcpFlag.isSet flags TcpFlag.ack = true ∧
          TcpFlag.isSet flags TcpFlag.fin = false := by simpa [TcpFlag.ackWithoutFin] using hf
      simp [hnil, transitionOnRecv, hrst, hack, hfin]
  · by_cases hclosed : ∃ f ∈ fromFirstAck sent, TcpFlag.isSet f TcpFlag.fin = true
    · simp [hnil, hclosed, transitionOnRecv, hrst]
    · simp [hnil, hclosed, transitionOnRecv, hrst]

/-- A packet that does not close both endpoints is not a reset. -/
theorem rst_eq_false_of_afterEgress {o : Option Conn} {flags : UInt8} {now : Tick}
    (h : (Conn.afterEgress o flags now).fullyClosed = false) :
    TcpFlag.isSet flags TcpFlag.rst = false := by
  rcases hrst : TcpFlag.isSet flags TcpFlag.rst with - | -
  · rfl
  · simp [Conn.afterEgress, Conn.fullyClosed, transitionOnSend_of_rst hrst,
      transitionOnRecv_of_rst hrst] at h

theorem unansweredPeer_timeout_le_iff (sent : List UInt8) :
    (unansweredPeer sent).idleTimeoutMs ≤ 60000 ↔
      (fromFirstAck sent ≠ [] →
        ∃ flags ∈ fromFirstAck sent, TcpFlag.isSet flags TcpFlag.fin = true) := by
  unfold unansweredPeer
  split_ifs with hnil hfin
  · simp [TcpState.idleTimeoutMs, hnil]
  · exact ⟨fun _ _ ↦ hfin, fun _ ↦ by decide⟩
  · exact ⟨fun h ↦ absurd h (by decide), fun h ↦ absurd (h hnil) hfin⟩

namespace ConnTrack

/-- **An unanswered flow**: its own endpoint waits in `synSent`, and the peer's is where the packets
sent to it would have taken it. -/
theorem Life.unanswered {k : FlowKey} {pre post : List Op} {flags : UInt8} {now : Tick}
    {conn : Conn} (h : Life k pre flags now post)
    (hconn : (new.run (pre ++ .observeEgress k flags now :: post)).flows.lookup k = some conn)
    (hun : receivedOn k post = []) :
    conn.internal = .synSent ∧ conn.external = unansweredPeer (sentOn k post) := by
  refine h.history (I := fun post c ↦ receivedOn k post = [] →
    c.internal = .synSent ∧ c.external = unansweredPeer (sentOn k post)) ?_ ?_ hconn hun
  · intro _
    exact ⟨rfl, rfl⟩
  · intro mid op c _ _ ih hopen hun
    rw [receivedOn_concat, List.append_eq_nil_iff] at hun
    obtain ⟨hint, hext⟩ := ih hun.1
    rw [sentOn_concat]
    rw [Op.afterAt] at hopen ⊢
    rcases he : op.eventAt k with - | (⟨flags, now⟩ | ⟨flags, now⟩ | now)
    · simpa using ⟨hint, hext⟩
    · rw [he] at hopen
      have hrst := rst_eq_false_of_afterEgress hopen
      refine ⟨?_, ?_⟩
      · show transitionOnSend c.internal flags = _
        simp [hint, transitionOnSend, hrst]
      · show transitionOnRecv c.external flags = _
        rw [hext]
        exact (unansweredPeer_concat _ hrst).symm
    · rw [he] at hun
      exact absurd hun.2 (by simp [FlowEvent.received])
    · simpa [FlowEvent.sent] using ⟨hint, hext⟩

/-- A sweep removes a flow whose timeout has passed. -/
theorem notMem_sweep {c : ConnTrack} {k : FlowKey} {conn : Conn} {now : Tick}
    (hk : c.flows.lookup k = some conn)
    (hidle : conn.idleTimeoutMs ≤ Tick.elapsedSince now conn.lastSeen) :
    k ∉ (c.sweep now).flows := by
  rw [← AList.lookup_eq_none]
  have hsweep := lookup_step c (.sweep now) k
  rw [hk] at hsweep
  rw [show c.sweep now = c.step (.sweep now) from rfl, hsweep]
  simpa [Op.eventAt, flowStep] using hidle

/-- **Unanswered flows time out fast, unless the host acknowledges what it never got.** Take a flow
on which no inbound packet was admitted since it was created. Its timeout is 60 s, and a sweep
removes it 60 s after its last packet, exactly if the internal host has sent no ACK without FIN on
it since, or has sent a FIN from the first of them on. -/
theorem unanswered_timeout_iff {k : FlowKey} {pre post : List Op} {flags : UInt8} {now : Tick}
    {conn : Conn} (hlife : Life k pre flags now post)
    (hconn : (new.run (pre ++ .observeEgress k flags now :: post)).flows.lookup k = some conn)
    (hunanswered : receivedOn k post = []) :
    (conn.idleTimeoutMs ≤ 60000 ∧ ∀ t, 60000 ≤ Tick.elapsedSince t conn.lastSeen →
        k ∉ ((new.run (pre ++ .observeEgress k flags now :: post)).sweep t).flows) ↔
      (fromFirstAck (sentOn k post) ≠ [] →
        ∃ f ∈ fromFirstAck (sentOn k post), TcpFlag.isSet f TcpFlag.fin = true) := by
  obtain ⟨hint, hext⟩ := hlife.unanswered hconn hunanswered
  have htimeout : conn.idleTimeoutMs ≤ 60000 ↔
      (unansweredPeer (sentOn k post)).idleTimeoutMs ≤ 60000 := by
    rw [Conn.idleTimeoutMs, hint, hext, Nat.max_le]
    exact ⟨And.right, fun h ↦ ⟨Nat.le_refl _, h⟩⟩
  rw [← unansweredPeer_timeout_le_iff, ← htimeout]
  exact ⟨And.left, fun hle ↦ ⟨hle, fun t ht ↦ notMem_sweep hconn (Nat.le_trans hle ht)⟩⟩

instance (k : FlowKey) (pre : List Op) (flags : UInt8) (now : Tick) (post : List Op) :
    Decidable (Life k pre flags now post) :=
  decidable_of_iff (k ∉ (new.run pre).flows ∧
      ∀ mid ∈ post.inits, k ∈ (new.run (pre ++ .observeEgress k flags now :: mid)).flows)
    ⟨fun h ↦ ⟨h.1, fun mid hmid ↦ h.2 mid ((List.mem_inits _ _).2 hmid)⟩,
      fun h ↦ ⟨h.absent, fun mid hmid ↦ h.stored mid ((List.mem_inits _ _).1 hmid)⟩⟩

/-- A SYN and an ACK, with nothing coming back, hold an entry for 24 hours. -/
theorem unanswered_ack_lingers :
    Life sampleFlow [] 0x02 0 [.observeEgress sampleFlow 0x10 0] ∧
      receivedOn sampleFlow [.observeEgress sampleFlow 0x10 0] = [] ∧
      (new.run [.observeEgress sampleFlow 0x02 0, .observeEgress sampleFlow 0x10 0]).flows.lookup
        sampleFlow = some ⟨.synSent, .established, 0⟩ ∧
      (⟨.synSent, .established, 0⟩ : Conn).idleTimeoutMs = 86400000 ∧
      sampleFlow ∈ ((new.run [.observeEgress sampleFlow 0x02 0,
        .observeEgress sampleFlow 0x10 0]).sweep 86399999).flows := by
  decide +kernel

/-- The host that also closes, FIN after ACK, is forgotten after 60 s. -/
theorem unanswered_ack_fin_times_out :
    sampleFlow ∉ ((new.run [.observeEgress sampleFlow 0x02 0, .observeEgress sampleFlow 0x10 0,
      .observeEgress sampleFlow 0x11 5]).sweep 60005).flows := by
  have hlife : Life sampleFlow [] 0x02 0
      [.observeEgress sampleFlow 0x10 0, .observeEgress sampleFlow 0x11 5] := by decide +kernel
  have hconn : (new.run [.observeEgress sampleFlow 0x02 0, .observeEgress sampleFlow 0x10 0,
      .observeEgress sampleFlow 0x11 5]).flows.lookup sampleFlow =
        some ⟨.synSent, .closeWait, 5⟩ := by decide +kernel
  exact ((unanswered_timeout_iff hlife hconn (by decide)).2 (by decide)).2 60005 (by decide)

end ConnTrack

/-! ### Flows closed from both sides -/

/-- The packet completes the handshake at the endpoint in state `s` that receives it: a SYN+ACK that
answers its SYN, or an ACK without FIN of its own SYN+ACK. -/
def TcpState.CompletedBy (s : TcpState) (flags : UInt8) : Prop :=
  TcpFlag.isSet flags TcpFlag.rst = false ∧ TcpFlag.isSet flags TcpFlag.ack = true ∧
    (s = .synSent ∧ TcpFlag.isSet flags TcpFlag.syn = true ∨
      s = .synReceived ∧ TcpFlag.isSet flags TcpFlag.fin = false)

instance (s : TcpState) (flags : UInt8) : Decidable (s.CompletedBy flags) :=
  inferInstanceAs (Decidable (_ ∧ _ ∧ (_ ∧ _ ∨ _ ∧ _)))

/-- Receiving takes an endpoint into `established` only by completing the handshake, and keeps it
there until a FIN or a RST. -/
theorem transitionOnRecv_eq_established_iff {s : TcpState} {flags : UInt8} :
    transitionOnRecv s flags = .established ↔ s.CompletedBy flags ∨
      s = .established ∧ TcpFlag.isSet flags TcpFlag.fin = false ∧
        TcpFlag.isSet flags TcpFlag.rst = false := by
  unfold transitionOnRecv TcpState.CompletedBy
  rcases TcpFlag.isSet flags TcpFlag.syn with - | - <;>
    rcases TcpFlag.isSet flags TcpFlag.ack with - | - <;>
    rcases TcpFlag.isSet flags TcpFlag.fin with - | - <;>
    rcases TcpFlag.isSet flags TcpFlag.rst with - | - <;> cases s <;> decide

/-- Sending never takes an endpoint into `established`. -/
theorem transitionOnSend_eq_established_iff {s : TcpState} {flags : UInt8} :
    transitionOnSend s flags = .established ↔ s = .established ∧
      TcpFlag.isSet flags TcpFlag.fin = false ∧ TcpFlag.isSet flags TcpFlag.rst = false := by
  unfold transitionOnSend
  rcases TcpFlag.isSet flags TcpFlag.syn with - | - <;>
    rcases TcpFlag.isSet flags TcpFlag.ack with - | - <;>
    rcases TcpFlag.isSet flags TcpFlag.fin with - | - <;>
    rcases TcpFlag.isSet flags TcpFlag.rst with - | - <;> cases s <;> decide

namespace Conn

/-- One endpoint at least counts as connected. -/
def HasEstablished (c : Conn) : Prop := c.internal = .established ∨ c.external = .established

/-- The event completes the handshake at the endpoint that receives it. -/
def CompletedBy (c : Conn) : FlowEvent → Prop
  | .egress flags _ => c.external.CompletedBy flags
  | .ingress flags _ => c.internal.CompletedBy flags
  | .sweep _ => False

instance (c : Conn) : DecidablePred c.CompletedBy
  | .egress flags _ => inferInstanceAs (Decidable (c.external.CompletedBy flags))
  | .ingress flags _ => inferInstanceAs (Decidable (c.internal.CompletedBy flags))
  | .sweep _ => inferInstanceAs (Decidable False)

/-- Only `established` has a timeout above two minutes. -/
theorem idleTimeoutMs_le_of_not_hasEstablished {c : Conn} (h : ¬c.HasEstablished) :
    c.idleTimeoutMs ≤ 120000 := by
  have hstate : ∀ s : TcpState, s ≠ .established → s.idleTimeoutMs ≤ 120000 := by
    intro s hs
    cases s <;> first | exact absurd rfl hs | decide
  exact Nat.max_le.2 ⟨hstate _ fun hint ↦ h (Or.inl hint), hstate _ fun hext ↦ h (Or.inr hext)⟩

theorem hasEstablished_of_completedBy {c : Conn} {e : FlowEvent} (h : c.CompletedBy e) :
    (c.after e).HasEstablished := by
  cases e with
  | egress flags now => exact Or.inr (transitionOnRecv_eq_established_iff.2 (Or.inl h))
  | ingress flags now => exact Or.inl (transitionOnRecv_eq_established_iff.2 (Or.inl h))
  | sweep now => exact absurd h id

end Conn

/-- The event carries a FIN, in either direction. -/
def FlowEvent.HasFin (e : FlowEvent) : Prop :=
  ∃ flags, (e.sent = some flags ∨ e.received = some flags) ∧
    TcpFlag.isSet flags TcpFlag.fin = true

/-- **How an endpoint comes to be `established`**: the event completed its handshake, or it already
was and the event has no FIN. -/
theorem Conn.hasEstablished_after {c : Conn} {e : FlowEvent} (h : (c.after e).HasEstablished) :
    c.CompletedBy e ∨ c.HasEstablished ∧ ¬e.HasFin := by
  cases e with
  | egress flags now =>
    have hfin (hf : TcpFlag.isSet flags TcpFlag.fin = false) :
        ¬(FlowEvent.egress flags now).HasFin := by
      rintro ⟨_, hflags, hset⟩
      simp_all [FlowEvent.sent, FlowEvent.received]
    rcases h with hint | hext
    · obtain ⟨hs, hf, -⟩ := transitionOnSend_eq_established_iff.1 hint
      exact Or.inr ⟨Or.inl hs, hfin hf⟩
    · rcases transitionOnRecv_eq_established_iff.1 hext with hcomp | ⟨hs, hf, -⟩
      · exact Or.inl hcomp
      · exact Or.inr ⟨Or.inr hs, hfin hf⟩
  | ingress flags now =>
    have hfin (hf : TcpFlag.isSet flags TcpFlag.fin = false) :
        ¬(FlowEvent.ingress flags now).HasFin := by
      rintro ⟨_, hflags, hset⟩
      simp_all [FlowEvent.sent, FlowEvent.received]
    rcases h with hint | hext
    · rcases transitionOnRecv_eq_established_iff.1 hint with hcomp | ⟨hs, hf, -⟩
      · exact Or.inl hcomp
      · exact Or.inr ⟨Or.inl hs, hfin hf⟩
    · obtain ⟨hs, hf, -⟩ := transitionOnSend_eq_established_iff.1 hext
      exact Or.inr ⟨Or.inr hs, hfin hf⟩
  | sweep now => exact Or.inr ⟨h, by simp [FlowEvent.HasFin, FlowEvent.sent, FlowEvent.received]⟩

namespace ConnTrack

/-- A FIN went out and a FIN came in on the flow. -/
def FinsSeen (k : FlowKey) (ops : List Op) : Prop :=
  (∃ f ∈ sentOn k ops, TcpFlag.isSet f TcpFlag.fin = true) ∧
    ∃ f ∈ receivedOn k ops, TcpFlag.isSet f TcpFlag.fin = true

instance (k : FlowKey) (ops : List Op) : Decidable (FinsSeen k ops) :=
  inferInstanceAs (Decidable (_ ∧ _))

/-- The call is a packet of the flow that completes the handshake at the endpoint receiving it. -/
def Op.Completes (k : FlowKey) (c : Conn) (op : Op) : Prop :=
  ∃ e, op.eventAt k = some e ∧ c.CompletedBy e

instance (k : FlowKey) (c : Conn) (op : Op) : Decidable (op.Completes k c) :=
  decidable_of_iff (∃ e ∈ op.eventAt k, c.CompletedBy e) Iff.rfl

/-- A call that carries no FIN of the flow adds nothing to what was seen. -/
theorem FinsSeen.of_concat {k : FlowKey} {ops : List Op} {op : Op}
    (h : FinsSeen k (ops ++ [op])) (hop : ∀ e, op.eventAt k = some e → ¬e.HasFin) :
    FinsSeen k ops := by
  obtain ⟨⟨f, hf, hfin⟩, ⟨g, hg, hgin⟩⟩ := h
  rw [sentOn_concat, List.mem_append, Option.mem_toList, Option.bind_eq_some_iff] at hf
  rw [receivedOn_concat, List.mem_append, Option.mem_toList, Option.bind_eq_some_iff] at hg
  refine ⟨?_, ?_⟩
  · rcases hf with hf | ⟨e, he, hsent⟩
    · exact ⟨f, hf, hfin⟩
    · exact absurd ⟨f, Or.inl hsent, hfin⟩ (hop e he)
  · rcases hg with hg | ⟨e, he, hreceived⟩
    · exact ⟨g, hg, hgin⟩
    · exact absurd ⟨g, Or.inr hreceived, hgin⟩ (hop e he)

/-- **An endpoint that is `established` once both FINs were seen** was so before, when they had been
seen already, or the call completed its handshake. -/
theorem FinsSeen.of_hasEstablished {k : FlowKey} {ops : List Op} {op : Op} {c : Conn}
    (h : FinsSeen k (ops ++ [op])) (hnot : ¬op.Completes k c)
    (hest : (op.afterAt k c).HasEstablished) : FinsSeen k ops ∧ c.HasEstablished := by
  rw [Op.afterAt] at hest
  rcases he : op.eventAt k with - | e
  · rw [he] at hest
    exact ⟨h.of_concat (by simp [he]), hest⟩
  · rw [he] at hest
    rcases Conn.hasEstablished_after hest with hcomp | ⟨hbefore, hnofin⟩
    · exact absurd ⟨e, he, hcomp⟩ hnot
    · refine ⟨h.of_concat fun e' he' ↦ ?_, hbefore⟩
      rwa [← Option.some.inj (he.symm.trans he')]

/-- **A flow closed from both sides is forgotten soon, unless a handshake completes on it later.**
Over the life of a flow: once a FIN was sent and a FIN was admitted on it, no endpoint is ever
`established` and the timeout is at most two minutes, exactly if no packet completes the handshake
at an endpoint when, that packet included, both FINs have been seen. -/
theorem both_closed_iff {k : FlowKey} {pre post : List Op} {flags : UInt8} {now : Tick}
    (hlife : Life k pre flags now post) :
    (∀ mid conn, mid <+: post →
        (new.run (pre ++ .observeEgress k flags now :: mid)).flows.lookup k = some conn →
        FinsSeen k (.observeEgress k flags now :: mid) →
        conn.internal ≠ .established ∧ conn.external ≠ .established ∧
          conn.idleTimeoutMs ≤ 120000) ↔
      ∀ mid op conn, mid ++ [op] <+: post →
        (new.run (pre ++ .observeEgress k flags now :: mid)).flows.lookup k = some conn →
        FinsSeen k (.observeEgress k flags now :: (mid ++ [op])) → ¬op.Completes k conn := by
  constructor
  · rintro h mid op conn hmid hconn hfins ⟨e, he, hcomp⟩
    have hnext := (hlife.of_prefix hmid).lookup_concat hconn
    have hest : (op.afterAt k conn).HasEstablished := by
      rw [Op.afterAt, he]
      exact Conn.hasEstablished_of_completedBy hcomp
    obtain ⟨hint, hext, -⟩ := h (mid ++ [op]) _ hmid hnext hfins
    exact hest.elim hint hext
  · intro h mid conn hmid hconn hfins
    have hclosed : ¬conn.HasEstablished := by
      refine (hlife.of_prefix hmid).history (I := fun mid c ↦
        FinsSeen k (.observeEgress k flags now :: mid) → ¬c.HasEstablished) ?_ ?_ hconn hfins
      · rintro - (hint | hext)
        · exact absurd hint (by simp [Conn.opened])
        · exact absurd hext (by simp [Conn.opened])
      · intro mid' op c hmid' hc ih hopen hfins' hest
        -- the condition excludes a packet that completed a handshake
        have hnot := h mid' op c (hmid'.trans hmid) hc hfins'
        have hsofar : FinsSeen k ((.observeEgress k flags now :: mid') ++ [op]) := hfins'
        obtain ⟨hbefore, hest'⟩ := hsofar.of_hasEstablished hnot hest
        exact ih hbefore hest'
    exact ⟨fun hint ↦ hclosed (Or.inl hint), fun hext ↦ hclosed (Or.inr hext),
      Conn.idleTimeoutMs_le_of_not_hasEstablished hclosed⟩

/-- A host that closes with its first packet after the SYN+ACK, and acknowledges the peer's FIN:
both sides have closed, and the entry stays for 24 hours. -/
theorem both_closed_lingers :
    Life sampleFlow [] 0x02 0 [.checkIngress sampleFlow 0x12 1, .observeEgress sampleFlow 0x11 2,
        .checkIngress sampleFlow 0x11 3, .observeEgress sampleFlow 0x10 4] ∧
      FinsSeen sampleFlow [.checkIngress sampleFlow 0x12 1, .observeEgress sampleFlow 0x11 2,
        .checkIngress sampleFlow 0x11 3, .observeEgress sampleFlow 0x10 4] ∧
      (new.run [.observeEgress sampleFlow 0x02 0, .checkIngress sampleFlow 0x12 1,
        .observeEgress sampleFlow 0x11 2, .checkIngress sampleFlow 0x11 3,
        .observeEgress sampleFlow 0x10 4]).flows.lookup sampleFlow =
          some ⟨.timeWait, .established, 4⟩ ∧
      (⟨.timeWait, .established, 4⟩ : Conn).idleTimeoutMs = 86400000 := by
  decide +kernel

/-- An orderly close after a complete handshake: the entry is gone from `established` for good. -/
theorem both_closed_orderly :
    (⟨.timeWait, .closed, 5⟩ : Conn).idleTimeoutMs ≤ 120000 ∧
      (new.run [.observeEgress sampleFlow 0x02 0, .checkIngress sampleFlow 0x12 1,
        .observeEgress sampleFlow 0x10 2, .observeEgress sampleFlow 0x11 3,
        .checkIngress sampleFlow 0x11 4, .observeEgress sampleFlow 0x10 5]).flows.lookup
          sampleFlow = some ⟨.timeWait, .closed, 5⟩ := by
  set post : List Op := [.checkIngress sampleFlow 0x12 1, .observeEgress sampleFlow 0x10 2,
    .observeEgress sampleFlow 0x11 3, .checkIngress sampleFlow 0x11 4,
    .observeEgress sampleFlow 0x10 5] with hpost
  have hlife : Life sampleFlow [] 0x02 0 post := by decide +kernel
  have hcheck : ∀ p ∈ post.inits, ∀ op ∈ p.getLast?,
      ∀ conn ∈ (new.run (.observeEgress sampleFlow 0x02 0 :: p.dropLast)).flows.lookup sampleFlow,
        FinsSeen sampleFlow (.observeEgress sampleFlow 0x02 0 :: p) →
          ¬op.Completes sampleFlow conn := by
    decide +kernel
  have hconn : (new.run (.observeEgress sampleFlow 0x02 0 :: post)).flows.lookup sampleFlow =
      some ⟨.timeWait, .closed, 5⟩ := by decide +kernel
  refine ⟨?_, hconn⟩
  refine ((both_closed_iff hlife).2 ?_ post _ (List.prefix_refl _) hconn (by decide)).2.2
  intro mid op conn hmid hmid' hfins
  exact hcheck (mid ++ [op]) ((List.mem_inits _ _).2 hmid) op (by simp) conn (by simpa using hmid')
    hfins

end ConnTrack

/-! ### A new handshake on an old flow -/

/-- The flags of the three packets of a handshake: SYN, SYN+ACK and ACK, all without FIN and RST. -/
structure Handshake (f₁ f₂ f₃ : UInt8) : Prop where
  syn : TcpFlag.isSet f₁ TcpFlag.syn = true ∧ TcpFlag.isSet f₁ TcpFlag.ack = false
  synAck : TcpFlag.isSet f₂ TcpFlag.syn = true ∧ TcpFlag.isSet f₂ TcpFlag.ack = true
  ack : TcpFlag.isSet f₃ TcpFlag.syn = false ∧ TcpFlag.isSet f₃ TcpFlag.ack = true
  fin : TcpFlag.isSet f₁ TcpFlag.fin = false ∧ TcpFlag.isSet f₂ TcpFlag.fin = false ∧
    TcpFlag.isSet f₃ TcpFlag.fin = false
  rst : TcpFlag.isSet f₁ TcpFlag.rst = false ∧ TcpFlag.isSet f₂ TcpFlag.rst = false ∧
    TcpFlag.isSet f₃ TcpFlag.rst = false

/-- The old connection has been torn down at this endpoint. -/
def TcpState.TornDown (s : TcpState) : Prop := s = .closed ∨ s = .timeWait ∨ s = .lastAck

section Handshake

variable {f₁ f₂ f₃ : UInt8} {s : TcpState}

/-- The internal endpoint sends the SYN, receives the SYN+ACK and sends the ACK. Only from `closed`
does that connect it. -/
theorem Handshake.internal_eq_established_iff (h : Handshake f₁ f₂ f₃) (hs : s.TornDown) :
    transitionOnSend (transitionOnRecv (transitionOnSend s f₁) f₂) f₃ = .established ↔
      s = .closed := by
  rcases hs with rfl | rfl | rfl <;>
    simp [transitionOnSend, transitionOnRecv, h.syn, h.synAck, h.ack, h.fin, h.rst]

/-- The external endpoint receives the SYN, sends the SYN+ACK and receives the ACK. -/
theorem Handshake.external_eq_established_iff (h : Handshake f₁ f₂ f₃) (hs : s.TornDown) :
    transitionOnRecv (transitionOnSend (transitionOnRecv s f₁) f₂) f₃ = .established ↔
      s = .closed := by
  rcases hs with rfl | rfl | rfl <;>
    simp [transitionOnSend, transitionOnRecv, h.syn, h.synAck, h.ack, h.fin, h.rst]

/-- The external endpoint is not closed by the SYN, nor by its own SYN+ACK: the entry stays stored
up to the last packet. -/
theorem Handshake.external_ne_closed (h : Handshake f₁ f₂ f₃) (hs : s.TornDown) :
    transitionOnRecv s f₁ ≠ .closed ∧ transitionOnSend (transitionOnRecv s f₁) f₂ ≠ .closed := by
  rcases hs with rfl | rfl | rfl <;>
    simp [transitionOnSend, transitionOnRecv, h.syn, h.synAck, h.rst]

end Handshake

theorem Conn.reap_of_external_ne {c : Conn} (h : c.external ≠ .closed) : c.reap = some c :=
  Conn.reap_eq_some_iff.2 ⟨by simp [Conn.fullyClosed, h], rfl⟩

namespace ConnTrack

theorem lookup_observeEgress (c : ConnTrack) (k : FlowKey) (flags : UInt8) (now : Tick) :
    (c.observeEgress k flags now).1.flows.lookup k =
      (Conn.afterEgress (c.flows.lookup k) flags now).reap := by
  have h := lookup_step c (.observeEgress k flags now) k
  rwa [Op.eventAt, if_pos rfl] at h

theorem lookup_checkIngress {c : ConnTrack} {k : FlowKey} {conn : Conn}
    (hk : c.flows.lookup k = some conn) (hopen : conn.fullyClosed = false) (flags : UInt8)
    (now : Tick) :
    (c.checkIngress k flags now).1.flows.lookup k = (conn.afterIngress flags now).reap := by
  have h := lookup_step c (.checkIngress k flags now) k
  rw [Op.eventAt, if_pos rfl, hk] at h
  exact h.trans (by simp [flowStep, hopen])

/-- What a SYN finds on a flow that is absent or torn down: an absent flow counts as closed at both
ends, a stored one never is. -/
theorem exists_found_of_tornDown {ops : List Op} {k : FlowKey}
    (hdown : k ∉ (new.run ops).flows ∨ ∃ conn, (new.run ops).flows.lookup k = some conn ∧
      conn.internal.TornDown ∧ conn.external.TornDown) (flags : UInt8) (now : Tick) :
    ∃ found : Conn, Conn.afterEgress ((new.run ops).flows.lookup k) flags now =
        ⟨transitionOnSend found.internal flags, transitionOnRecv found.external flags, now⟩ ∧
      found.internal.TornDown ∧ found.external.TornDown ∧
      (found.internal = .closed ∧ found.external = .closed ↔ k ∉ (new.run ops).flows) := by
  rcases hdown with hk | ⟨conn, hk, hint, hext⟩
  · refine ⟨⟨.closed, .closed, now⟩, ?_, Or.inl rfl, Or.inl rfl, by simpa using hk⟩
    rw [AList.lookup_eq_none.2 hk]
    rfl
  · refine ⟨conn, by rw [hk]; rfl, hint, hext, ?_⟩
    have hmem : k ∈ (new.run ops).flows := AList.mem_iff_lookup.2 ⟨conn, hk⟩
    rw [← Conn.fullyClosed_iff, (inv_run ops k conn hk).not_fullyClosed]
    simpa using hmem

/-- **A new handshake starts from scratch only on an absent flow.** In every reachable table in
which `k` is absent, or stored with both endpoints in `closed`, `timeWait` or `lastAck`: outbound
SYN, inbound SYN+ACK and outbound ACK are accepted and lead to `(established, established)` exactly
if `k` is absent. -/
theorem rehandshake_iff {ops : List Op} {k : FlowKey} {f₁ f₂ f₃ : UInt8}
    (hflags : Handshake f₁ f₂ f₃)
    (hdown : k ∉ (new.run ops).flows ∨ ∃ conn, (new.run ops).flows.lookup k = some conn ∧
      conn.internal.TornDown ∧ conn.external.TornDown) (t₁ t₂ t₃ : Tick) :
    let afterSyn := (new.run ops).observeEgress k f₁ t₁
    let afterSynAck := afterSyn.1.checkIngress k f₂ t₂
    let afterAck := afterSynAck.1.observeEgress k f₃ t₃
    (afterSynAck.2 = true ∧ afterAck.2 = (.established, .established) ∧
        afterAck.1.states k = some (.established, .established)) ↔
      k ∉ (new.run ops).flows := by
  intro afterSyn afterSynAck afterAck
  obtain ⟨found, hfound, hint, hext, habsent⟩ := exists_found_of_tornDown hdown f₁ t₁
  obtain ⟨hne₁, hne₂⟩ := hflags.external_ne_closed hext
  set c₁ : Conn := ⟨transitionOnSend found.internal f₁, transitionOnRecv found.external f₁, t₁⟩
  set c₃ : Conn := Conn.afterEgress (some (c₁.afterIngress f₂ t₂)) f₃ t₃ with hc₃
  have h₁ : afterSyn.1.flows.lookup k = some c₁ := by
    rw [lookup_observeEgress, hfound]
    exact Conn.reap_of_external_ne hne₁
  have h₂ : afterSynAck.1.flows.lookup k = some (c₁.afterIngress f₂ t₂) := by
    rw [lookup_checkIngress h₁ (by simp [Conn.fullyClosed, c₁, hne₁])]
    exact Conn.reap_of_external_ne hne₂
  have haccepted : afterSynAck.2 = true :=
    (checkIngress_eq_true_iff (inv_step (inv_run ops) (.observeEgress k f₁ t₁)) k f₂ t₂).2
      (AList.mem_iff_lookup.2 ⟨c₁, h₁⟩)
  have h₃ : afterAck.1.flows.lookup k = c₃.reap := by
    rw [lookup_observeEgress, h₂]
  have hstates : afterAck.2 = (c₃.internal, c₃.external) := by
    show (_, _) = _
    rw [h₂]
    rfl
  have hboth : c₃.internal = .established ∧ c₃.external = .established ↔
      k ∉ (new.run ops).flows := by
    rw [← habsent]
    exact and_congr (hflags.internal_eq_established_iff hint)
      (hflags.external_eq_established_iff hext)
  rw [← hboth, hstates, states, h₃]
  constructor
  · rintro ⟨-, heq, -⟩
    exact Prod.mk.inj heq
  · rintro ⟨hi, he⟩
    refine ⟨haccepted, by rw [hi, he], ?_⟩
    rw [Conn.reap_of_external_ne (by simp [he]), Option.map_some, hi, he]

/-- An orderly close leaves `(timeWait, closed)`; the next handshake on the same ports then ends
with the internal endpoint still in `timeWait`. -/
theorem rehandshake_stuck :
    (new.run [.observeEgress sampleFlow 0x02 0, .checkIngress sampleFlow 0x12 1,
        .observeEgress sampleFlow 0x10 2, .observeEgress sampleFlow 0x11 3,
        .checkIngress sampleFlow 0x11 4, .observeEgress sampleFlow 0x10 5]).states sampleFlow =
          some (.timeWait, .closed) ∧
      (new.run [.observeEgress sampleFlow 0x02 0, .checkIngress sampleFlow 0x12 1,
        .observeEgress sampleFlow 0x10 2, .observeEgress sampleFlow 0x11 3,
        .checkIngress sampleFlow 0x11 4, .observeEgress sampleFlow 0x10 5,
        .observeEgress sampleFlow 0x02 6, .checkIngress sampleFlow 0x12 7,
        .observeEgress sampleFlow 0x10 8]).states sampleFlow = some (.timeWait, .established) := by
  decide +kernel

/-- The handshake of a flow seen for the first time. -/
theorem rehandshake_fresh :
    ((((new.observeEgress sampleFlow 0x02 0).1.checkIngress sampleFlow 0x12 1).1.observeEgress
      sampleFlow 0x10 2).1.states sampleFlow) = some (.established, .established) := by
  have hflags : Handshake 0x02 0x12 0x10 :=
    ⟨by decide, by decide, by decide, by decide, by decide⟩
  have habsent : sampleFlow ∉ (new.run []).flows := by decide
  exact ((rehandshake_iff hflags (Or.inl habsent) 0 1 2).2 habsent).2.2

end ConnTrack

end UserspaceRouter
