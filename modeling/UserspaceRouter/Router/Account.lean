import UserspaceRouter.Router.Datapath
import UserspaceRouter.Router.NeighborMap

/-!
# The account of a single worker

With a single worker nobody else touches the tables. Its account (`Account`) is what it has made of
them, what it has sent and which frames it has polled; none of this changes by itself, whatever the
devices do in the meantime. `Does` says what a program adds to the account, and this module has the
rules for it, up to the programs that send. The handlers follow in `OneWorker`.

Devices refuse packets and mempools run dry. The tables do not depend on that. What is handed to the
devices is then only some of what is sent by the account, in the same order; if the devices take
everything (`Obliging`), it is all of it. Both are proved at once: `E` is the assumption that the
devices do.
-/

namespace UserspaceRouter

open Program

/-! ### The tables -/

namespace App

def setDhcp (a : App) (dhcp : DhcpState) : App :=
  { a with ports := { a.ports with lan := { a.ports.lan with dhcp } } }

def neighbors (a : App) : Segment → NeighborTable Bytes
  | .lan => a.ports.lan.neighbors
  | .wan => a.ports.wan

def setNeighbors (a : App) (t : NeighborTable Bytes) : Segment → App
  | .lan => { a with ports := { a.ports with lan := { a.ports.lan with neighbors := t } } }
  | .wan => { a with ports := { a.ports with wan := t } }

end App

namespace Datapath

/-- The tables, with frames for the mbufs in them. -/
def app (s : Datapath) : App :=
  ⟨s.fdb, s.ports.map (·.data), s.firewall, s.client, s.bound, s.lastSweepMs⟩

theorem neighbors_app (s : Datapath) (side : Segment) :
    s.app.neighbors side = (s.neighbors side).map (·.data) := by
  cases side <;> rfl

theorem app_setNeighbors (s : Datapath) (t : NeighborTable Mbuf) (side : Segment) :
    (s.setNeighbors t side).app = s.app.setNeighbors (t.map (·.data)) side := by
  cases side <;> rfl

theorem nic_setNeighbors (s : Datapath) (t : NeighborTable Mbuf) (side : Segment) :
    (s.setNeighbors t side).nic = s.nic := by
  cases side <;> rfl

/-! ### The account -/

/-- What the worker has done. -/
structure Account where
  app : App
  sent : List Transmission
  /-- The frames it has polled, with the queue of each. -/
  polled : List (RxQueue × Bytes)

/-- The frames in the receive queues. -/
def framesOf (rx : List (RxQueue × Mbuf)) : List (PortId × Bytes) :=
  rx.map fun x ↦ (x.1.1, x.2.data)

/-- Frames with their ports. -/
def byPort (frames : List (RxQueue × Bytes)) : List (PortId × Bytes) :=
  frames.map fun x ↦ (x.1.1, x.2)

/-- The frames of one queue. -/
def onQueue (q : RxQueue) (frames : List (RxQueue × Bytes)) : List Bytes :=
  (frames.filter (·.1 = q)).map (·.2)

/-- What is in a receive queue. -/
def inQueue (q : RxQueue) (rx : List (RxQueue × Mbuf)) : List Bytes :=
  onQueue q (rx.map fun x ↦ (x.1, x.2.data))

/-- The frame that arrives in an event, and the queue it arrives in. -/
def NicEvent.arrival : NicEvent → Option (RxQueue × Bytes)
  | .arrive q frame => some (q, frame)
  | .complete _ | .reorder | .oblige _ _ | .signal => none

/-- The frames that have arrived, oldest first. -/
def arrived (past : List NicEvent) : List (RxQueue × Bytes) := past.filterMap NicEvent.arrival

/-- The account is right, after what the devices have done. -/
structure Tracks (E : Prop) (past : List NicEvent) (s : Datapath) (g : Account) : Prop where
  app : s.app = g.app
  sent : s.nic.sent.Sublist g.sent
  all : E → s.nic.sent = g.sent
  frames : (byPort g.polled ++ framesOf s.nic.rx).Perm s.nic.received
  /-- Frames are polled in the order in which they arrive. -/
  order : ∀ q, onQueue q g.polled ++ inQueue q s.nic.rx = onQueue q (arrived past)

section Rules

variable {cfg : DatapathConfig} {E : Prop} {α β : Type} {g : Account} {a a' : App}
  {out out' : List Transmission} {R : α → Prop} {R' : β → Prop}

/-- **What a program does**: it leads to the tables `a` and sends `out`. -/
def Does (cfg : DatapathConfig) (E : Prop) (p : Program Datapath α) (g : Account) (R : α → Prop)
    (a : App) (out : List Transmission) : Prop :=
  Follows (Tracks E) (fun s ↦ E → s.Obliging cfg)
    (fun r g' ↦ R r ∧ g' = ⟨a, g.sent ++ out, g.polled⟩) p g

theorem does_pure {r : α} (hr : R r) : Does cfg E (pure r) g R g.app [] := by
  refine ⟨hr, ?_⟩
  rw [List.append_nil]

theorem Does.bind {p : Program Datapath α} {k : α → Program Datapath β}
    (h : Does cfg E p g R a out)
    (hk : ∀ r, R r → Does cfg E (k r) ⟨a, g.sent ++ out, g.polled⟩ R' a' out') :
    Does cfg E (p.bind k) g R' a' (out ++ out') := by
  refine Follows.bind h ?_
  rintro r _ ⟨hr, rfl⟩
  refine (hk r hr).mono ?_
  rintro r' _ ⟨hr', rfl⟩
  exact ⟨hr', by rw [List.append_assoc]⟩

/-- After a program that sends nothing. -/
theorem Does.bind_quiet {p : Program Datapath α} {k : α → Program Datapath β}
    (h : Does cfg E p g R a [])
    (hk : ∀ r, R r → Does cfg E (k r) { g with app := a } R' a' out') :
    Does cfg E (p.bind k) g R' a' out' := by
  have hbind : Does cfg E (p.bind k) g R' a' ([] ++ out') := by
    refine h.bind fun r hr ↦ ?_
    rw [List.append_nil]
    exact hk r hr
  exact hbind

/-- Before a program that sends nothing. -/
theorem Does.then_quiet {p : Program Datapath α} {k : α → Program Datapath β}
    (h : Does cfg E p g R a out)
    (hk : ∀ r, R r → Does cfg E (k r) ⟨a, g.sent ++ out, g.polled⟩ R' a' []) :
    Does cfg E (p.bind k) g R' a' out := by
  rw [← List.append_nil out]
  exact h.bind hk

/-- One access that does not concern the devices. -/
theorem does_call {f : Datapath → α × Datapath} (h : ∀ s : Datapath, s.app = g.app →
      R (f s).1 ∧ (f s).2.app = a ∧ (f s).2.nic = s.nic) :
    Does cfg E (call f) g R a [] := by
  refine follows_call fun _ s _ hs ↦ ?_
  obtain ⟨hr, happ, hnic⟩ := h s hs.app
  refine ⟨⟨a, g.sent ++ [], g.polled⟩, ⟨happ, ?_, ?_, ?_, ?_⟩, hr, rfl⟩
  · rw [hnic, List.append_nil]
    exact hs.sent
  · rw [hnic, List.append_nil]
    exact hs.all
  · rw [hnic]
    exact hs.frames
  · rw [hnic]
    exact hs.order

/-- One access, as a function of the tables. -/
theorem does_tables {f : Datapath → α × Datapath} (r : App → α) (F : App → App)
    (h : ∀ s, (f s).1 = r s.app ∧ (f s).2.app = F s.app ∧ (f s).2.nic = s.nic) :
    Does cfg E (call f) g (· = r g.app) (F g.app) [] := by
  refine does_call fun s hs ↦ ?_
  rw [← hs]
  exact h s

theorem does_read {f : Datapath → α} (r : App → α) (h : ∀ s, f s = r s.app) :
    Does cfg E (read f) g (· = r g.app) g.app [] :=
  does_tables r (fun a ↦ a) fun s ↦ ⟨h s, rfl, rfl⟩

theorem does_modify {f : Datapath → Datapath} (F : App → App)
    (h : ∀ s, (f s).app = F s.app ∧ (f s).nic = s.nic) :
    Does cfg E (modify f) g (fun _ ↦ True) (F g.app) [] := by
  refine does_call fun s hs ↦ ?_
  rw [← hs]
  exact ⟨trivial, h s⟩

/-- A loop whose turns leave the tables alone. -/
theorem does_each {body : β → Program Datapath Unit} {bs : List β} {out : β → List Transmission}
    (h : ∀ b ∈ bs, ∀ g' : Account, g'.app = g.app →
      Does cfg E (body b) g' (fun _ ↦ True) g'.app (out b)) :
    Does cfg E (each body bs) g (fun _ ↦ True) g.app (bs.flatMap out) := by
  induction bs generalizing g with
  | nil => exact does_pure trivial
  | cons b bs ih =>
    obtain ⟨hb, hbs⟩ := List.forall_mem_cons.1 h
    rw [List.flatMap_cons]
    exact (hb g rfl).bind fun _ _ ↦ ih hbs

/-! ### Devices -/

theorem does_free (id : MbufId) : Does cfg E (free id) g (fun _ ↦ True) g.app [] := by
  refine follows_call fun _ s _ hs ↦ ⟨⟨g.app, g.sent ++ [], g.polled⟩, ?_, trivial, rfl⟩
  rw [List.append_nil]
  exact { hs with }

theorem does_freeAll (ms : List Mbuf) :
    Does cfg E (each (fun m ↦ free m.id) ms) g (fun _ ↦ True) g.app [] := by
  have hfree : Does cfg E (each (fun m : Mbuf ↦ free m.id) ms) g (fun _ ↦ True) g.app
      (ms.flatMap fun _ ↦ []) := does_each fun m _ g' _ ↦ does_free m.id
  rwa [List.flatMap_eq_nil_iff.2 fun _ _ ↦ rfl] at hfree

/-- Something is handed to a device, or would have been. -/
theorem Tracks.send {past : List NicEvent} {s t : Datapath} (h : Tracks E past s g)
    {x : Transmission}
    (hsent : t.nic.sent = s.nic.sent ++ [x] ∨ t.nic.sent = s.nic.sent ∧ ¬E)
    (happ : t.app = s.app) (hrx : t.nic.rx = s.nic.rx)
    (hreceived : t.nic.received = s.nic.received) :
    Tracks E past t ⟨g.app, g.sent ++ [x], g.polled⟩ := by
  refine ⟨happ.trans h.app, ?_, fun hE ↦ ?_, ?_, ?_⟩
  · rcases hsent with hsent | ⟨hsent, -⟩ <;> rw [hsent]
    · exact h.sent.append (List.Sublist.refl [x])
    · exact h.sent.trans (List.sublist_append_left _ _)
  · rcases hsent with hsent | ⟨-, hnot⟩
    · rw [hsent, h.all hE]
    · exact absurd hE hnot
  · rw [hrx, hreceived]
    exact h.frames
  · rw [hrx]
    exact h.order

theorem does_transmit (port : PortId) (id : MbufId) (payload : Payload) :
    Does cfg E (transmit port id payload) g (fun _ ↦ True) g.app [(port, payload)] := by
  have htx : Does cfg E (txBurst port id payload) g (fun _ ↦ True) g.app [(port, payload)] := by
    refine follows_call fun _ s hok hs ↦ ⟨⟨g.app, g.sent ++ [(port, payload)], g.polled⟩, ?_,
      trivial, rfl⟩
    cases haccepts : s.nic.accepts with
    | true =>
      simp only [haccepts]
      exact hs.send (.inl rfl) rfl rfl rfl
    | false =>
      simp only [haccepts]
      refine hs.send (.inr ⟨rfl, fun hE ↦ ?_⟩) rfl rfl rfl
      exact absurd ((hok hE).accepts.symm.trans haccepts) (by decide)
  refine htx.then_quiet fun accepted _ ↦ ?_
  cases accepted with
  | true => exact does_pure trivial
  | false => exact does_free id

theorem does_transmitFrame {port : PortInfo} (hport : port ∈ cfg.wan :: cfg.lan)
    {payload : Payload} (hfits : E → payload.fits = true) :
    Does cfg E (transmitFrame cfg port payload) g (fun _ ↦ True) g.app
      [(port.portId, payload)] := by
  -- what is not sent for want of a buffer is accounted for at once
  have halloc : Follows (Tracks E) (fun s ↦ E → s.Obliging cfg)
      (fun o g' ↦
        g' = if o.isSome then g else ⟨g.app, g.sent ++ [(port.portId, payload)], g.polled⟩)
      (alloc (cfg.pool port.portId)) g := by
    refine follows_call fun _ s hok hs ↦ ?_
    rcases ho : (if s.nic.allocates then s.nic.free.find? (·.pool == cfg.pool port.portId)
      else none) with - | id
    · simp only [ho]
      refine ⟨_, hs.send (.inr ⟨rfl, fun hE ↦ ?_⟩) rfl rfl rfl, rfl⟩
      obtain ⟨id, hid, hpool⟩ := (hok hE).free port hport
      rw [if_pos (hok hE).allocates] at ho
      exact absurd (beq_iff_eq.2 hpool) (List.find?_eq_none.1 ho id hid)
    · simp only [ho]
      exact ⟨g, { hs with }, rfl⟩
  refine Follows.bind halloc fun o g' hg' ↦ ?_
  cases o with
  | none => exact ⟨trivial, hg'⟩
  | some id =>
    obtain rfl : g' = g := hg'
    show Follows _ _ _ (if payload.fits = true then _ else _) _
    split_ifs with hfit
    · exact does_transmit port.portId id payload
    · refine follows_call fun _ s _ hs ↦ ⟨_, ?_, trivial, rfl⟩
      exact hs.send (.inr ⟨rfl, fun hE ↦ hfit (hfits hE)⟩) rfl rfl rfl

/-! ### Tables -/

theorem does_onArp (side : Segment) (ip : Ipv4Addr) (mac : MacAddr) (now : Tick) :
    Does cfg E (onArp side ip mac now) g
      (fun d ↦ d.map (fun d ↦ (d.1, d.2.map (·.data))) =
        ((g.app.neighbors side).onArp ip mac now).2)
      (g.app.setNeighbors ((g.app.neighbors side).onArp ip mac now).1 side) [] := by
  refine does_call fun s hs ↦ ?_
  have hmap := (s.neighbors side).onArp_map (·.data) ip mac now
  rw [← neighbors_app, hs] at hmap
  rw [hmap, ← hs]
  exact ⟨rfl, app_setNeighbors _ _ _, nic_setNeighbors _ _ _⟩

theorem does_resolve (side : Segment) (target : Ipv4Addr) (packet : Mbuf) (now : Tick) :
    Does cfg E (resolve side target packet now) g
      (fun action ↦ action.map (·.data) =
        ((g.app.neighbors side).resolve target packet.data ArpPacket.frameLen now).2)
      (g.app.setNeighbors
        ((g.app.neighbors side).resolve target packet.data ArpPacket.frameLen now).1 side) [] := by
  refine does_call fun s hs ↦ ?_
  have hmap := (s.neighbors side).resolve_map (·.data) target packet ArpPacket.frameLen now
  rw [← neighbors_app, hs] at hmap
  rw [hmap, ← hs]
  exact ⟨rfl, app_setNeighbors _ _ _, nic_setNeighbors _ _ _⟩

theorem does_sweepNeighbors (side : Segment) (now : Tick) :
    Does cfg E (sweepNeighbors side now) g
      (fun swept ↦ swept.1 = ((g.app.neighbors side).sweep now).2.1)
      (g.app.setNeighbors ((g.app.neighbors side).sweep now).1 side) [] := by
  refine does_call fun s hs ↦ ?_
  have hmap := (s.neighbors side).sweep_map (·.data) now
  rw [← neighbors_app, hs] at hmap
  rw [hmap, ← hs]
  exact ⟨rfl, app_setNeighbors _ _ _, nic_setNeighbors _ _ _⟩

/-! ### Sending -/

theorem does_flood (exceptPort : Option PortId) {bytes : Bytes}
    (hfits : E → bytes.length ≤ tailroom) :
    Does cfg E (flood cfg exceptPort bytes) g (fun _ ↦ True) g.app
      (cfg.toAppConfig.flood exceptPort bytes) := by
  rw [AppConfig.flood, ← List.flatMap_pure_eq_map]
  refine does_each fun p hp g' _ ↦ does_transmitFrame ?_ fun hE ↦ decide_eq_true (hfits hE)
  exact List.mem_cons_of_mem _ (List.mem_of_mem_filter hp)

/-- A program after which a packet is freed. -/
theorem Does.then_free {p : Program Datapath Unit} (h : Does cfg E p g (fun _ ↦ True) a out)
    (id : MbufId) : Does cfg E (p.bind fun _ ↦ free id) g (fun _ ↦ True) a out :=
  h.then_quiet fun _ _ ↦ does_free id

theorem does_transmitToMacOrFloodExcept (mac : MacAddr) {packet : Mbuf}
    (hfits : E → packet.data.length ≤ tailroom) (exceptPort : Option PortId) :
    Does cfg E (transmitToMacOrFloodExcept cfg mac packet exceptPort) g (fun _ ↦ True) g.app
      (cfg.toAppConfig.transmitToMacOrFloodExcept g.app.fdb mac packet.data exceptPort) := by
  have hlookup : Does cfg E (lookupFdb mac) g (· = g.app.fdb.lookup mac) g.app [] :=
    does_read (·.fdb.lookup mac) fun _ ↦ rfl
  refine hlookup.bind_quiet fun found hfound ↦ ?_
  unfold AppConfig.transmitToMacOrFloodExcept
  rw [← hfound]
  cases found with
  | none => exact (does_flood exceptPort hfits).then_free packet.id
  | some port =>
    show Does cfg E (if some port ≠ exceptPort then _ else _) _ _ _
      (if some port ≠ exceptPort then _ else _)
    split_ifs
    · rcases cfg.lanPortById port with - | out
      · exact does_free packet.id
      · exact does_transmit out.portId packet.id (.frame packet.data)
    · exact does_free packet.id

theorem does_learnArp (side : Segment) (port : PortInfo) (ip : Ipv4Addr) (mac : MacAddr)
    (now : Tick) :
    Does cfg E (learnArp now side port ip mac) g (fun _ ↦ True)
      (g.app.setNeighbors ((g.app.neighbors side).onArp ip mac now).1 side)
      (port.transmitDrained ((g.app.neighbors side).onArp ip mac now).2.toList) := by
  refine (does_onArp side ip mac now).bind_quiet fun d hd ↦ ?_
  rw [← hd]
  cases d with
  | none => exact does_pure trivial
  | some d =>
    obtain ⟨mac', drained⟩ := d
    have hout : port.transmitDrained [(mac', drained.map (·.data))] = drained.flatMap fun q ↦
        [(port.portId, .frame (setEthernet q.data port.etherAddr mac'))] := by
      rw [← List.map_eq_flatMap]
      simp [PortInfo.transmitDrained]
    show Does cfg E _ _ _ _ (port.transmitDrained [(mac', drained.map (·.data))])
    rw [hout]
    exact does_each fun q _ g' _ ↦ does_transmit port.portId q.id _

end Rules

end Datapath

end UserspaceRouter
