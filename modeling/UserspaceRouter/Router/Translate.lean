import UserspaceRouter.Foundations.TransitionSystem
import UserspaceRouter.Net.Checksum
import UserspaceRouter.Net.View
import UserspaceRouter.Router.Nat

/-!
# Translating packets

`translateEgress` and `translateIngress` on raw frames: classify the packet through the views, ask
the table for the rewrite, overwrite one IPv4 address and one port in place and fix the two
checksums incrementally. The two directions differ only in which endpoint of the packet they
translate; `Side` is that difference, and each direction is the common code at its own side.

The four fields a rewrite writes lie in the frame in a fixed order (`FieldOrder`): IPv4 checksum,
address, port, L4 checksum. `rewrites_applyRewrite` says what is in them afterwards and that every
other byte is the old one; `classify_inv` gives the order for a classified packet.

The last section is the table over whole runs of calls, of which the two translations are the
interesting ones: through a run the table stays a bijection and only grows.
-/

namespace UserspaceRouter

/-! ### The code -/

/-- Which endpoint of a packet is translated: the source on egress, the destination on ingress. -/
inductive Side
  | src
  | dst
deriving DecidableEq, Repr

namespace Side

/-- Address field offset within the IPv4 header. -/
def ipOffset : Side → ℕ
  | src => 12
  | dst => 16

/-- Port field offset within a TCP or UDP header. -/
def portOffset : Side → ℕ
  | src => 0
  | dst => 2

def addr : Side → Ipv4Header → Ipv4Addr
  | src => Ipv4Header.src
  | dst => Ipv4Header.dst

def tcpPort : Side → TcpView → UInt16
  | src => TcpView.srcPort
  | dst => TcpView.dstPort

def udpPort : Side → UdpView → UInt16
  | src => UdpView.srcPort
  | dst => UdpView.dstPort

/-- The offset of the transport header and the port to translate. -/
def l4Fields (side : Side) (ip : Ipv4View) : L4 → Option (ℕ × UInt16)
  | .tcp => ip.tcp.map fun t ↦ (t.headerOffset, side.tcpPort t)
  | .udp => ip.udp.map fun u ↦ (u.headerOffset, side.udpPort u)

end Side

/-- Checksum field offset within the IPv4 header. -/
def ipCksumOffset : ℕ := 10

/-- Checksum field offset within the TCP header. -/
def tcpCksumOffset : ℕ := 16

/-- Checksum field offset within the UDP header. -/
def udpCksumOffset : ℕ := 6

/-- UDP checksum value meaning "not computed". -/
def udpCksumDisabled : UInt16 := 0

/-- What phase 1 of a translation captures. -/
structure Classified where
  ipOff : ℕ
  l4Off : ℕ
  l4 : L4
  ip : Ipv4Addr
  port : UInt16
deriving DecidableEq, Repr

/-- Phase 1: classify the packet with immutable views. -/
def classify (side : Side) (frame : Bytes) : Option Classified := do
  let eth ← parse frame
  let ip ← eth.ipv4
  let l4 ← L4.fromProto ip.protocol
  let (l4Off, port) ← side.l4Fields ip l4
  some { ipOff := ip.headerOffset, l4Off, l4, ip := side.addr ip.header, port }

/-- Checksum field offset, and whether this is UDP (for the zero-checksum rules). -/
def l4ChecksumField (l4 : L4) (l4Off : ℕ) : ℕ × Bool :=
  match l4 with
  | .tcp => (l4Off + tcpCksumOffset, false)
  | .udp => (l4Off + udpCksumOffset, true)

/-- The L4 checksum after the address and the port have changed. It covers the pseudo-header and
the port. A zero UDP checksum is left alone; a computed zero is stored as `0xffff`. -/
def updateL4Checksum (isUdp : Bool) (oldIp newIp oldPort newPort : Bytes) (l4c : UInt16) : UInt16 :=
  if !(isUdp && l4c == udpCksumDisabled) then
    let updated := Checksum.update l4c oldIp newIp
    let updated := Checksum.update updated oldPort newPort
    if isUdp && updated == udpCksumDisabled then 0xffff else updated
  else l4c

/-- Overwrite one IPv4 address field and one L4 port, then fix both checksums incrementally. -/
def applyRewrite (frame : Bytes) (ipField ipcOff l4Port l4cOff : ℕ) (isUdp : Bool)
    (oldIp newIp oldPort newPort : Bytes) : Bytes :=
  let frame := writeAt frame ipField newIp
  let ipc := u16At frame ipcOff
  let ipc := Checksum.update ipc oldIp newIp
  let frame := writeAt frame ipcOff (u16ToBeBytes ipc)
  let frame := writeAt frame l4Port newPort
  let l4c := u16At frame l4cOff
  if !(isUdp && l4c == udpCksumDisabled) then
    writeAt frame l4cOff
      (u16ToBeBytes (updateL4Checksum isUdp oldIp newIp oldPort newPort l4c))
  else frame

/-- Phase 3: rewrite the endpoint of a classified packet. -/
def rewrite (side : Side) (c : Classified) (newIp : Ipv4Addr) (newPort : UInt16) (frame : Bytes) :
    Bytes :=
  let (l4cOff, isUdp) := l4ChecksumField c.l4 c.l4Off
  applyRewrite frame (c.ipOff + side.ipOffset) (c.ipOff + ipCksumOffset)
    (c.l4Off + side.portOffset) l4cOff isUdp (Ipv4Addr.octets c.ip) (Ipv4Addr.octets newIp)
    (u16ToBeBytes c.port) (u16ToBeBytes newPort)

/-- Apply source NAT to an egress frame: the frame and the table afterwards, and the rewrite. -/
def translateEgress (frame : Bytes) (t : NatTable) : Bytes × NatTable × Option Egress :=
  match classify .src frame with
  | none => (frame, t, none)
  | some c =>
    match t.egress c.l4 c.ip c.port with
    | (t', none) => (frame, t', none)
    | (t', some x) => (rewrite .src c x.newSrcIp x.newSrcPort frame, t', some x)

/-- Reverse source NAT for an ingress frame. The table is only read. -/
def translateIngress (frame : Bytes) (t : NatTable) : Bytes × Option Ingress :=
  match classify .dst frame with
  | none => (frame, none)
  | some c =>
    match t.ingress c.l4 c.port with
    | none => (frame, none)
    | some (newIp, newPort) => (rewrite .dst c newIp newPort frame, some ⟨newIp, newPort⟩)

/-! ### What a classified packet looks like -/

/-- Length of the fixed transport header. -/
def L4.headerLen : L4 → ℕ
  | tcp => TcpHeader.minLen
  | udp => UdpHeader.len

/-- Checksum field offset within the transport header. -/
def L4.cksumOffset : L4 → ℕ
  | tcp => tcpCksumOffset
  | udp => udpCksumOffset

def L4.isUdp : L4 → Bool
  | tcp => false
  | udp => true

theorem l4ChecksumField_eq (l4 : L4) (l4Off : ℕ) :
    l4ChecksumField l4 l4Off = (l4Off + l4.cksumOffset, l4.isUdp) := by
  cases l4 <;> rfl

/-- The views behind a classification, and where its offsets lie. -/
structure Classified.Views (side : Side) (frame : Bytes) (c : Classified) (eth : EthernetView)
    (ip : Ipv4View) : Prop where
  parse_eq : parse frame = some eth
  ipv4_eq : eth.ipv4 = some ip
  bounds : ip.Bounds frame
  proto_eq : L4.fromProto ip.protocol = some c.l4
  ipOff_eq : c.ipOff = ip.start
  l4Off_eq : c.l4Off = ip.l4Start
  fits : c.l4Off + c.l4.headerLen ≤ ip.end_
  l4Fields_eq : side.l4Fields ip c.l4 = some (c.l4Off, c.port)
  ip_eq : c.ip = u32At frame (c.ipOff + side.ipOffset)
  port_eq : c.port = u16At frame (c.l4Off + side.portOffset)

/-- **The inversion of a classification.** -/
theorem classify_inv {side : Side} {frame : Bytes} {c : Classified}
    (h : classify side frame = some c) : ∃ eth ip, c.Views side frame eth ip := by
  simp only [classify, Option.bind_eq_bind, Option.bind_eq_some_iff] at h
  obtain ⟨eth, heth, ip, hip, l4, hl4, ⟨l4Off, port⟩, hfields, hc⟩ := h
  obtain rfl := Option.some.inj hc
  have hb := ipv4View_bounds heth hip
  have hip_eq : side.addr ip.header = u32At frame (ip.start + side.ipOffset) := by
    rw [← hb.buf_eq]
    cases side <;> rfl
  cases l4 with
  | tcp =>
    obtain ⟨t, ht, hpair⟩ := Option.map_eq_some_iff.1 hfields
    obtain ⟨rfl, rfl⟩ := Prod.mk.inj hpair
    obtain ⟨hbuf, hstart, hend, hfits⟩ := tcpView_bounds hb ht
    refine ⟨eth, ip, heth, hip, hb, hl4, rfl, hstart, hend ▸ hfits, hfields, hip_eq, ?_⟩
    rw [← hbuf]
    cases side <;> rfl
  | udp =>
    obtain ⟨u, hu, hpair⟩ := Option.map_eq_some_iff.1 hfields
    obtain ⟨rfl, rfl⟩ := Prod.mk.inj hpair
    obtain ⟨hbuf, hstart, hfits, hend⟩ := udpView_bounds hb hu
    refine ⟨eth, ip, heth, hip, hb, hl4, rfl, hstart, Nat.le_trans hfits hend, hfields, hip_eq, ?_⟩
    rw [← hbuf]
    cases side <;> rfl

/-! ### What a rewrite writes -/

/-- The four fields of a rewrite, in the order in which they lie in the frame. -/
structure FieldOrder (frame : Bytes) (ipField ipcOff l4Port l4cOff : ℕ) : Prop where
  ipc_le : ipcOff + 2 ≤ ipField
  ip_le : ipField + 4 ≤ l4Port
  port_le : l4Port + 2 ≤ l4cOff
  l4c_le : l4cOff + 2 ≤ frame.length

/-- `i` is a byte of none of the four fields. -/
def Untouched (ipField ipcOff l4Port l4cOff i : ℕ) : Prop :=
  ¬(ipField ≤ i ∧ i < ipField + 4) ∧ ¬(ipcOff ≤ i ∧ i < ipcOff + 2) ∧
    ¬(l4Port ≤ i ∧ i < l4Port + 2) ∧ ¬(l4cOff ≤ i ∧ i < l4cOff + 2)

/-- `frame'` is `frame` with the four fields overwritten. -/
structure Rewrites (frame frame' : Bytes) (ipField ipcOff l4Port l4cOff : ℕ) (newIp : Ipv4Addr)
    (ipc newPort l4c : UInt16) : Prop where
  length_eq : frame'.length = frame.length
  unchanged : ∀ i, Untouched ipField ipcOff l4Port l4cOff i → byteAt frame' i = byteAt frame i
  ip_eq : u32At frame' ipField = newIp
  ipc_eq : u16At frame' ipcOff = ipc
  port_eq : u16At frame' l4Port = newPort
  l4c_eq : u16At frame' l4cOff = l4c

section Rewrites

variable {frame frame' : Bytes} {ipField ipcOff l4Port l4cOff : ℕ}

/-- The first three writes of a rewrite: the transport checksum is still the old one. -/
theorem rewrites_endpoint (hord : FieldOrder frame ipField ipcOff l4Port l4cOff)
    (newIp : Ipv4Addr) (ipc newPort : UInt16) :
    Rewrites frame
      (writeAt (writeAt (writeAt frame ipField (Ipv4Addr.octets newIp)) ipcOff (u16ToBeBytes ipc))
        l4Port (u16ToBeBytes newPort))
      ipField ipcOff l4Port l4cOff newIp ipc newPort (u16At frame l4cOff) := by
  obtain ⟨h₁, h₂, h₃, h₄⟩ := hord
  -- each write lies inside the frame, and leaves the fields of the other ones alone
  have hw₁ : ipField + (Ipv4Addr.octets newIp).length ≤ frame.length := by
    rw [length_u32ToBeBytes]
    omega
  set f₁ := writeAt frame ipField (Ipv4Addr.octets newIp) with hf₁
  have hlen₁ : f₁.length = frame.length := length_writeAt hw₁
  have hw₂ : ipcOff + (u16ToBeBytes ipc).length ≤ f₁.length := by
    rw [length_u16ToBeBytes]
    omega
  set f₂ := writeAt f₁ ipcOff (u16ToBeBytes ipc) with hf₂
  have hlen₂ : f₂.length = frame.length := (length_writeAt hw₂).trans hlen₁
  have hw₃ : l4Port + (u16ToBeBytes newPort).length ≤ f₂.length := by
    rw [length_u16ToBeBytes]
    omega
  refine ⟨(length_writeAt hw₃).trans hlen₂, ?_, ?_, ?_, u16At_writeAt newPort (by omega), ?_⟩
  · rintro i ⟨hi₁, hi₂, hi₃, -⟩
    rw [byteAt_writeAt hw₃, if_neg (by rwa [length_u16ToBeBytes]), hf₂, byteAt_writeAt hw₂,
      if_neg (by rwa [length_u16ToBeBytes]), hf₁, byteAt_writeAt hw₁,
      if_neg (by rwa [length_u32ToBeBytes])]
  · rw [u32At_writeAt_of_disjoint hw₃ (Or.inl h₂), hf₂,
      u32At_writeAt_of_disjoint hw₂ (by rw [length_u16ToBeBytes]; omega), hf₁]
    exact u32At_writeAt newIp (by omega)
  · rw [u16At_writeAt_of_disjoint hw₃ (by omega), hf₂]
    exact u16At_writeAt ipc (by omega)
  · rw [u16At_writeAt_of_disjoint hw₃ (by rw [length_u16ToBeBytes]; omega), hf₂,
      u16At_writeAt_of_disjoint hw₂ (by rw [length_u16ToBeBytes]; omega), hf₁,
      u16At_writeAt_of_disjoint hw₁ (by rw [length_u32ToBeBytes]; omega)]

/-- The last write of a rewrite: it changes the transport checksum only. -/
theorem Rewrites.writeL4Checksum (hord : FieldOrder frame ipField ipcOff l4Port l4cOff)
    {newIp : Ipv4Addr} {ipc newPort old : UInt16}
    (h : Rewrites frame frame' ipField ipcOff l4Port l4cOff newIp ipc newPort old) (l4c : UInt16) :
    Rewrites frame (writeAt frame' l4cOff (u16ToBeBytes l4c)) ipField ipcOff l4Port l4cOff newIp ipc
      newPort l4c := by
  obtain ⟨h₁, h₂, h₃, h₄⟩ := hord
  have hlen := h.length_eq
  have hw : l4cOff + (u16ToBeBytes l4c).length ≤ frame'.length := by
    rw [length_u16ToBeBytes]
    omega
  refine ⟨(length_writeAt hw).trans hlen, ?_, ?_, ?_, ?_, u16At_writeAt l4c (by omega)⟩
  · intro i hi
    rw [byteAt_writeAt hw, if_neg (by rw [length_u16ToBeBytes]; exact hi.2.2.2)]
    exact h.unchanged i hi
  · rw [u32At_writeAt_of_disjoint hw (by omega)]
    exact h.ip_eq
  · rw [u16At_writeAt_of_disjoint hw (by omega)]
    exact h.ipc_eq
  · rw [u16At_writeAt_of_disjoint hw (by omega)]
    exact h.port_eq

/-- **What `apply_rewrite` writes.** -/
theorem rewrites_applyRewrite (hord : FieldOrder frame ipField ipcOff l4Port l4cOff) (isUdp : Bool)
    (oldIp oldPort : Bytes) (newIp : Ipv4Addr) (newPort : UInt16) :
    Rewrites frame
      (applyRewrite frame ipField ipcOff l4Port l4cOff isUdp oldIp (Ipv4Addr.octets newIp) oldPort
        (u16ToBeBytes newPort))
      ipField ipcOff l4Port l4cOff newIp
      (Checksum.update (u16At frame ipcOff) oldIp (Ipv4Addr.octets newIp)) newPort
      (updateL4Checksum isUdp oldIp (Ipv4Addr.octets newIp) oldPort (u16ToBeBytes newPort)
        (u16At frame l4cOff)) := by
  have hip : ipField + (Ipv4Addr.octets newIp).length ≤ frame.length := by
    obtain ⟨h₁, h₂, h₃, h₄⟩ := hord
    rw [length_u32ToBeBytes]
    omega
  -- the stored checksums are read after earlier writes, which have left them alone
  have hipc : u16At (writeAt frame ipField (Ipv4Addr.octets newIp)) ipcOff = u16At frame ipcOff :=
    u16At_writeAt_of_disjoint hip (Or.inl hord.ipc_le)
  have hthree := rewrites_endpoint hord newIp
    (Checksum.update (u16At frame ipcOff) oldIp (Ipv4Addr.octets newIp)) newPort
  simp only [applyRewrite, hipc, hthree.l4c_eq]
  rw [updateL4Checksum]
  split_ifs with hudp
  · exact hthree.writeL4Checksum hord _
  · exact hthree

end Rewrites

theorem ipOffset_portOffset (side : Side) :
    (side.ipOffset = 12 ∧ side.portOffset = 0) ∨ (side.ipOffset = 16 ∧ side.portOffset = 2) := by
  cases side
  · exact Or.inl ⟨rfl, rfl⟩
  · exact Or.inr ⟨rfl, rfl⟩

theorem cksumOffset_headerLen (l4 : L4) :
    (l4.cksumOffset = 16 ∧ l4.headerLen = 20) ∨ (l4.cksumOffset = 6 ∧ l4.headerLen = 8) := by
  cases l4
  · exact Or.inl ⟨rfl, rfl⟩
  · exact Or.inr ⟨rfl, rfl⟩

/-- Where the parts of a classified packet lie, as numbers. -/
theorem Classified.Views.offsets {side : Side} {frame : Bytes} {c : Classified}
    {eth : EthernetView} {ip : Ipv4View} (h : c.Views side frame eth ip) :
    14 ≤ c.ipOff ∧ c.ipOff + 20 ≤ c.l4Off ∧ c.l4Off + c.l4.headerLen ≤ frame.length := by
  have h₁ : 14 ≤ ip.start := h.bounds.eth_le
  have h₂ : 20 ≤ ip.header.headerLen := h.bounds.hlen_ge
  have h₃ := h.bounds.l4Start_eq
  have h₄ := h.bounds.end_le
  have h₅ := h.fits
  rw [h.ipOff_eq, h.l4Off_eq] at *
  omega

/-- The fields of a classified packet are in order. -/
theorem Classified.Views.fieldOrder {side : Side} {frame : Bytes} {c : Classified}
    {eth : EthernetView} {ip : Ipv4View} (h : c.Views side frame eth ip) :
    FieldOrder frame (c.ipOff + side.ipOffset) (c.ipOff + ipCksumOffset) (c.l4Off + side.portOffset)
      (c.l4Off + c.l4.cksumOffset) := by
  obtain ⟨h₁, h₂, h₃⟩ := h.offsets
  have hside := ipOffset_portOffset side
  have hl4 := cksumOffset_headerLen c.l4
  have hipc : ipCksumOffset = 10 := rfl
  constructor <;> omega

/-- **What a translation writes into a classified packet.** -/
theorem Classified.Views.rewrites {side : Side} {frame : Bytes} {c : Classified}
    {eth : EthernetView} {ip : Ipv4View} (h : c.Views side frame eth ip) (newIp : Ipv4Addr)
    (newPort : UInt16) :
    Rewrites frame (rewrite side c newIp newPort frame)
      (c.ipOff + side.ipOffset) (c.ipOff + ipCksumOffset) (c.l4Off + side.portOffset)
      (c.l4Off + c.l4.cksumOffset) newIp
      (Checksum.update (u16At frame (c.ipOff + ipCksumOffset)) (Ipv4Addr.octets c.ip)
        (Ipv4Addr.octets newIp))
      newPort
      (updateL4Checksum c.l4.isUdp (Ipv4Addr.octets c.ip) (Ipv4Addr.octets newIp)
        (u16ToBeBytes c.port) (u16ToBeBytes newPort)
        (u16At frame (c.l4Off + c.l4.cksumOffset))) := by
  rw [rewrite, l4ChecksumField_eq]
  exact rewrites_applyRewrite h.fieldOrder _ _ _ _ _

/-! ### What the translations return -/

/-- The inversion of an egress translation that succeeds. -/
theorem translateEgress_eq_some {frame : Bytes} {t : NatTable} {x : Egress}
    (h : (translateEgress frame t).2.2 = some x) :
    ∃ c, classify .src frame = some c ∧ (t.egress c.l4 c.ip c.port).2 = some x ∧
      translateEgress frame t =
        (rewrite .src c x.newSrcIp x.newSrcPort frame, (t.egress c.l4 c.ip c.port).1, some x) := by
  unfold translateEgress at h ⊢
  rcases hc : classify .src frame with - | c
  · rw [hc] at h
    exact absurd h (by simp)
  · rw [hc] at h
    refine ⟨c, rfl, ?_⟩
    rcases he : t.egress c.l4 c.ip c.port with ⟨t', - | x'⟩
    · simp only [he] at h
      exact absurd h (by simp)
    · simp only [he] at h
      obtain rfl := Option.some.inj h
      simp only [he]
      exact ⟨trivial, trivial⟩

/-- The inversion of an ingress translation that succeeds. -/
theorem translateIngress_eq_some {frame : Bytes} {t : NatTable} {x : Ingress}
    (h : (translateIngress frame t).2 = some x) :
    ∃ c, classify .dst frame = some c ∧ t.ingress c.l4 c.port = some (x.dstIp, x.dstPort) ∧
      translateIngress frame t = (rewrite .dst c x.dstIp x.dstPort frame, some x) := by
  unfold translateIngress at h ⊢
  rcases hc : classify .dst frame with - | c
  · rw [hc] at h
    exact absurd h (by simp)
  · rw [hc] at h
    refine ⟨c, rfl, ?_⟩
    rcases hi : t.ingress c.l4 c.port with - | ⟨newIp, newPort⟩
    · simp only [hi] at h
      exact absurd h (by simp)
    · simp only [hi] at h
      obtain rfl := Option.some.inj h
      simp only [hi]
      exact ⟨trivial, trivial⟩

/-- The table after an egress translation is the old one, or the one after a call of `egress`. -/
theorem table_translateEgress (frame : Bytes) (t : NatTable) :
    (translateEgress frame t).2.1 = t ∨
      ∃ l4 ip port, (translateEgress frame t).2.1 = (t.egress l4 ip port).1 := by
  unfold translateEgress
  rcases classify .src frame with - | c
  · exact Or.inl rfl
  · refine Or.inr ⟨c.l4, c.ip, c.port, ?_⟩
    rcases he : t.egress c.l4 c.ip c.port with ⟨t', - | x⟩ <;> simp only [he]

/-! ### The table over runs of calls -/

namespace NatTable

/-- The calls made on a table. -/
inductive Op
  | egress (l4 : L4) (ip : Ipv4Addr) (port : UInt16)
  | ingress (l4 : L4) (port : UInt16)
  | setWanIp (ip : Ipv4Addr)
  | translateEgress (frame : Bytes)
  | translateIngress (frame : Bytes)
deriving DecidableEq, Repr

/-- The table after a call. `ingress` and `translateIngress` take the table by shared reference. -/
def step (t : NatTable) : Op → NatTable
  | .egress l4 ip port => (t.egress l4 ip port).1
  | .ingress _ _ => t
  | .setWanIp ip => t.setWanIp ip
  | .translateEgress frame => (UserspaceRouter.translateEgress frame t).2.1
  | .translateIngress _ => t

/-- The table after a sequence of calls, oldest first. -/
def run (t : NatTable) (ops : List Op) : NatTable := ops.foldl step t

/-- A call keeps the invariant and only adds bindings. -/
theorem inv_extends_step {t : NatTable} (h : t.Inv) (op : Op) :
    (t.step op).Inv ∧ t.Extends (t.step op) := by
  cases op with
  | egress l4 ip port => exact ⟨inv_egress h l4 ip port, extends_egress h l4 ip port⟩
  | ingress l4 port => exact ⟨h, Extends.refl t⟩
  | setWanIp ip => exact ⟨inv_setWanIp h ip, extends_setWanIp t ip⟩
  | translateEgress frame =>
    rcases table_translateEgress frame t with heq | ⟨l4, ip, port, heq⟩
    · rw [step, heq]
      exact ⟨h, Extends.refl t⟩
    · rw [step, heq]
      exact ⟨inv_egress h l4 ip port, extends_egress h l4 ip port⟩
  | translateIngress frame => exact ⟨h, Extends.refl t⟩

/-- **A run keeps the invariant and only adds bindings.** -/
theorem inv_extends_run {t : NatTable} (h : t.Inv) (ops : List Op) :
    (t.run ops).Inv ∧ t.Extends (t.run ops) := by
  refine TransitionSystem.foldl_invariant (I := fun t' ↦ t'.Inv ∧ t.Extends t')
    ⟨h, Extends.refl t⟩ (fun t' op ht ↦ ?_) ops
  obtain ⟨hinv, hext⟩ := inv_extends_step ht.1 op
  exact ⟨hinv, ht.2.trans hext⟩

/-- The invariant of the tables the code can build. -/
theorem inv_run_of_new {wanIp : Ipv4Addr} {lo hi : UInt16} {t : NatTable}
    (h : new wanIp lo hi = some t) (ops : List Op) : (t.run ops).Inv :=
  (inv_extends_run (inv_new h).1 ops).1

/-- **The NAT table is a growing bijection.** For a table built by `new` and any sequence `ops` of
calls on it: the two maps are inverse to each other, every external port and the cursor are ports of
the pool, distinct endpoints of a protocol have distinct ports; every binding is there, unchanged,
after any further calls `later`, and `ingress` on its port gives the endpoint back; and the port
`egress` hands out is such a binding, at the table's WAN address: `ingress` on it returns the
endpoint in every later state. -/
theorem bindings_bijective_and_stable {wanIp : Ipv4Addr} {lo hi : UInt16} {t₀ : NatTable}
    (h₀ : new wanIp lo hi = some t₀) (ops : List Op) :
    (∀ proto ip port ext, (t₀.run ops).fwd.lookup (proto, ip, port) = some ext ↔
      (t₀.run ops).rev.lookup (proto, ext) = some ⟨ip, port⟩) ∧
    (∀ k ext, (t₀.run ops).fwd.lookup k = some ext → lo ≤ ext ∧ ext ≤ hi) ∧
    (∀ proto ext e, (t₀.run ops).rev.lookup (proto, ext) = some e → lo ≤ ext ∧ ext ≤ hi) ∧
    (lo ≤ (t₀.run ops).nextPort ∧ (t₀.run ops).nextPort ≤ hi) ∧
    (∀ proto ip port ip' port' ext, (t₀.run ops).fwd.lookup (proto, ip, port) = some ext →
      (t₀.run ops).fwd.lookup (proto, ip', port') = some ext → ip = ip' ∧ port = port') ∧
    (∀ later k ext, (t₀.run ops).fwd.lookup k = some ext →
      (t₀.run (ops ++ later)).fwd.lookup k = some ext) ∧
    (∀ later x e, (t₀.run ops).rev.lookup x = some e →
      (t₀.run (ops ++ later)).rev.lookup x = some e) ∧
    (∀ later l4 ip port ext, (t₀.run ops).fwd.lookup (l4.proto, ip, port) = some ext →
      (t₀.run (ops ++ later)).ingress l4 ext = some (ip, port)) ∧
    (∀ l4 ip port x, ((t₀.run ops).egress l4 ip port).2 = some x →
      x.newSrcIp = (t₀.run ops).wanIp ∧
      (t₀.run (ops ++ [.egress l4 ip port])).fwd.lookup (l4.proto, ip, port) =
        some x.newSrcPort ∧
      ∀ later, (t₀.run (ops ++ [.egress l4 ip port] ++ later)).ingress l4 x.newSrcPort =
        some (ip, port)) := by
  obtain ⟨hnew, hlo, hhi⟩ := inv_new h₀
  obtain ⟨hinv, hext⟩ := inv_extends_run hnew ops
  -- the pool of the run is the pool of `new`
  have hrange : ∀ p, (t₀.run ops).InRange p → lo ≤ p ∧ p ≤ hi := fun p hp ↦ by
    rw [← hlo, ← hhi, ← hext.portLo_eq, ← hext.portHi_eq]
    exact hp
  have hlater : ∀ pre later, (t₀.run pre).Extends (t₀.run (pre ++ later)) := fun pre later ↦ by
    rw [run, run, List.foldl_append]
    exact (inv_extends_run (inv_run_of_new h₀ pre) later).2
  have hback : ∀ pre later l4 ip port ext,
      (t₀.run pre).fwd.lookup (l4.proto, ip, port) = some ext →
      (t₀.run (pre ++ later)).ingress l4 ext = some (ip, port) := fun pre later l4 ip port ext hk ↦
    (inv_run_of_new h₀ (pre ++ later)).ingress_eq_some_iff.2 ((hlater pre later).fwd_le _ _ hk)
  refine ⟨hinv.inverse, fun k ext hk ↦ hrange ext (hinv.range k ext hk),
    fun proto ext e he ↦ hrange ext (hinv.rev_range he), hrange _ hinv.next,
    fun proto ip port ip' port' ext hk hk' ↦ hinv.endpoint_unique hk hk',
    fun later ↦ (hlater ops later).fwd_le, fun later ↦ (hlater ops later).rev_le, hback ops, ?_⟩
  intro l4 ip port x hx
  obtain ⟨hk, hwan⟩ := lookup_of_egress_eq_some hinv hx
  have hk' : (t₀.run (ops ++ [.egress l4 ip port])).fwd.lookup (l4.proto, ip, port) =
      some x.newSrcPort := by
    rw [run, List.foldl_append]
    exact hk
  exact ⟨hwan, hk', fun later ↦ hback _ later l4 ip port _ hk'⟩

/-- Two hosts behind a pool of three ports: the second endpoint gets the second port, and the first
keeps the port it was given. -/
theorem bindings_two_hosts :
    ∃ t₀, new 0xcb007101 40000 40002 = some t₀ ∧
      (t₀.run ([.egress .tcp 0xc0a80102 1111] ++ [.egress .tcp 0xc0a80103 1111])).ingress .tcp
        40000 = some (0xc0a80102, 1111) := by
  have hnew : new 0xcb007101 40000 40002 = some ⟨0xcb007101, 40000, 40002, 40000, ∅, ∅⟩ := rfl
  refine ⟨_, hnew, ?_⟩
  obtain ⟨-, -, -, -, -, -, -, hback, -⟩ :=
    bindings_bijective_and_stable hnew [.egress .tcp 0xc0a80102 1111]
  exact hback [.egress .tcp 0xc0a80103 1111] .tcp 0xc0a80102 1111 40000 (by decide)

end NatTable

end UserspaceRouter
