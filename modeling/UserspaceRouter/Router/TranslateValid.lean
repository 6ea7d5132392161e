import UserspaceRouter.Router.Translate

/-!
# Translated packets are valid packets

A rewrite changes an address that two checksums cover and a port that one of them covers, and fixes
both checksums by RFC 1624 updates. This module shows that the result is, bit for bit, what a full
recomputation gives.

The argument has three parts:

* the rewritten frame parses to the same views (`Classified.Views.sameViews`), since a rewrite
  leaves every byte alone that a parse reads;
* in a region of the frame that one checksum covers, the words of the old field are exchanged for
  those of the new one (`exists_wordSum_zeroed`), and nothing else changes in its sum;
* the update of a checksum follows that exchange: exactly, when the sum is nonzero as an IPv4 header
  and a TCP pseudo-header are, and up to the representative of zero for UDP, where zero is written
  as `0xffff` on both sides.
-/

namespace UserspaceRouter

open OnesComplement Checksum

/-! ### Checksums from scratch -/

/-- The bytes `[a, b)` of a frame, with the 16-bit field at `k` of them zeroed. -/
def zeroed (frame : Bytes) (a b k : ℕ) : Bytes := writeAt (slice frame a b) k [0, 0]

/-- The stored IPv4 checksum, and the one computed from scratch over the whole header. -/
def Ipv4View.checksums (v : Ipv4View) : UInt16 × UInt16 :=
  (v.header.checksum, Checksum.ipv4Header (zeroed v.buf v.start v.l4Start ipCksumOffset))

/-- The TCP checksum from scratch, over pseudo-header and segment. -/
def Ipv4View.tcpChecksum (v : Ipv4View) (t : TcpView) : UInt16 :=
  Checksum.finish (Checksum.l4Sum (Ipv4Addr.octets v.header.src) (Ipv4Addr.octets v.header.dst)
    Proto.tcp (zeroed t.buf t.start t.end_ tcpCksumOffset))

/-- The UDP checksum from scratch: a computed zero is written as `0xffff`. -/
def Ipv4View.udpChecksum (v : Ipv4View) (u : UdpView) : UInt16 :=
  Checksum.udpIpv4 (Ipv4Addr.octets v.header.src) (Ipv4Addr.octets v.header.dst)
    (zeroed u.buf u.start u.end_ udpCksumOffset)

/-- The stored transport checksum, and the one computed from scratch. -/
def Ipv4View.l4Checksums (v : Ipv4View) : L4 → Option (UInt16 × UInt16)
  | .tcp => v.tcp.map fun t ↦ (t.header.checksum, v.tcpChecksum t)
  | .udp => v.udp.map fun u ↦ (u.header.checksum, v.udpChecksum u)

/-- The stored and the computed IPv4 checksum of a frame. -/
def ipv4Checksums (frame : Bytes) : Option (UInt16 × UInt16) := do
  let eth ← parse frame
  let ip ← eth.ipv4
  some ip.checksums

/-- The stored and the computed transport checksum of a frame. -/
def l4Checksums (frame : Bytes) : Option (UInt16 × UInt16) := do
  let eth ← parse frame
  let ip ← eth.ipv4
  let l4 ← L4.fromProto ip.protocol
  ip.l4Checksums l4

/-- The stored IPv4 checksum is the one computed from scratch. -/
def Ipv4ChecksumOk (frame : Bytes) : Prop := ∃ c, ipv4Checksums frame = some (c, c)

/-- The stored transport checksum is the one computed from scratch. -/
def L4ChecksumOk (frame : Bytes) : Prop := ∃ c, l4Checksums frame = some (c, c)

/-! ### The sum over a region -/

theorem length_zeroed {frame : Bytes} {a b k : ℕ} (hb : b ≤ frame.length) (hk : k + 2 ≤ b - a) :
    (zeroed frame a b k).length = b - a := by
  rw [zeroed, length_writeAt (by rw [length_slice hb]; exact hk), length_slice hb]

theorem byteAt_zeroed {frame : Bytes} {a b k i : ℕ} (hb : b ≤ frame.length) (hk : k + 2 ≤ b - a)
    (hi : i < b - a) :
    byteAt (zeroed frame a b k) i = if k ≤ i ∧ i < k + 2 then 0 else byteAt frame (a + i) := by
  rw [zeroed, byteAt_writeAt (by rw [length_slice hb]; exact hk)]
  show (if k ≤ i ∧ i < k + 2 then byteAt [0, 0] (i - k) else _) = _
  split_ifs with hin
  · obtain h | h : i - k = 0 ∨ i - k = 1 := by omega
    · rw [h]
      rfl
    · rw [h]
      rfl
  · exact byteAt_slice (by omega)

/-- **A field exchanged in a region.** Two frames that agree on the region `[a, b)` outside the
checksum field at `k` and the field of `n` bytes at `f`: the sums over the region differ by the
words of the field. -/
theorem exists_wordSum_zeroed {frame frame' : Bytes} {a b k f n : ℕ}
    (hlen : frame'.length = frame.length) (hb : b ≤ frame.length) (hk : k + 2 ≤ b - a)
    (hf : f + n ≤ b - a) (hdisj : k + 2 ≤ f ∨ f + n ≤ k) (heven : Even f) (hn : Even n)
    (hsame : ∀ i, i < b - a → ¬(k ≤ i ∧ i < k + 2) → ¬(f ≤ i ∧ i < f + n) →
      byteAt frame' (a + i) = byteAt frame (a + i)) :
    ∃ rest, wordSum (zeroed frame a b k) = rest + wordSum (slice frame (a + f) (a + f + n)) ∧
      wordSum (zeroed frame' a b k) = rest + wordSum (slice frame' (a + f) (a + f + n)) := by
  have hb' : b ≤ frame'.length := by rwa [hlen]
  have hnew : (slice frame' (a + f) (a + f + n)).length = n := by
    rw [length_slice (by omega)]
    omega
  have hfits : f + (slice frame' (a + f) (a + f + n)).length ≤ (zeroed frame a b k).length := by
    rwa [hnew, length_zeroed hb hk]
  -- the new region is the old one with the field overwritten
  have hregion : zeroed frame' a b k =
      writeAt (zeroed frame a b k) f (slice frame' (a + f) (a + f + n)) := by
    apply bytes_ext
    · rw [length_writeAt hfits, length_zeroed hb hk, length_zeroed hb' hk]
    · intro i hi
      rw [length_zeroed hb' hk] at hi
      rw [byteAt_zeroed hb' hk hi, byteAt_writeAt hfits, byteAt_zeroed hb hk hi, hnew]
      by_cases hin : f ≤ i ∧ i < f + n
      · have hoff : a + f + (i - f) = a + i := by omega
        rw [if_neg (by omega), if_pos hin, byteAt_slice (by omega), hoff]
      · rw [if_neg hin]
        split_ifs with hzero
        · rfl
        · exact hsame i hi hzero hin
  have hold : slice (zeroed frame a b k) f (f + n) = slice frame (a + f) (a + f + n) := by
    apply bytes_ext
    · rw [length_slice (by rwa [hnew] at hfits), length_slice (by omega)]
      omega
    · intro i hi
      rw [length_slice (by rwa [hnew] at hfits)] at hi
      rw [byteAt_slice (by omega), byteAt_slice (by omega), byteAt_zeroed hb hk (by omega),
        if_neg (by omega), Nat.add_assoc]
  obtain ⟨rest, hsum, hsum'⟩ := exists_wordSum_writeAt hfits heven (Or.inl (by rwa [hnew]))
  rw [hnew, hold] at hsum
  rw [← hregion] at hsum'
  exact ⟨rest, hsum, hsum'⟩

/-! ### The views of a rewritten frame -/

section Rewritten

variable {side : Side} {frame frame' : Bytes} {c : Classified} {eth : EthernetView} {ip : Ipv4View}
  {newIp : Ipv4Addr} {ipc newPort l4c : UInt16}

/-- `frame'` is `frame` with the endpoint of the classified packet rewritten. -/
abbrev RewritesEndpoint (side : Side) (c : Classified) (frame frame' : Bytes) (newIp : Ipv4Addr)
    (ipc newPort l4c : UInt16) : Prop :=
  Rewrites frame frame' (c.ipOff + side.ipOffset) (c.ipOff + ipCksumOffset)
    (c.l4Off + side.portOffset) (c.l4Off + c.l4.cksumOffset) newIp ipc newPort l4c

/-- The frames differ at most in the addresses and ports of the classified packet and in its two
checksums. -/
structure Classified.SameLayout (c : Classified) (frame frame' : Bytes) : Prop where
  length_eq : frame'.length = frame.length
  unchanged : ∀ i, ¬(c.ipOff + 10 ≤ i ∧ i < c.ipOff + 20) → ¬(c.l4Off ≤ i ∧ i < c.l4Off + 4) →
    ¬(c.l4Off + c.l4.cksumOffset ≤ i ∧ i < c.l4Off + c.l4.cksumOffset + 2) →
    byteAt frame' i = byteAt frame i

theorem Classified.SameLayout.refl (c : Classified) (frame : Bytes) : c.SameLayout frame frame :=
  ⟨rfl, fun _ _ _ _ ↦ rfl⟩

theorem Classified.SameLayout.trans {frame'' : Bytes} (h : c.SameLayout frame frame')
    (h' : c.SameLayout frame' frame'') : c.SameLayout frame frame'' :=
  ⟨h'.length_eq.trans h.length_eq, fun i hi hi' hi'' ↦
    (h'.unchanged i hi hi' hi'').trans (h.unchanged i hi hi' hi'')⟩

theorem Rewrites.sameLayout (hr : RewritesEndpoint side c frame frame' newIp ipc newPort l4c) :
    c.SameLayout frame frame' := by
  refine ⟨hr.length_eq, fun i hip hport hl4c ↦ hr.unchanged i ⟨?_, ?_, ?_, hl4c⟩⟩
  all_goals
    have hside := ipOffset_portOffset side
    have hk : ipCksumOffset = 10 := rfl
    omega

/-- The views of such a frame are those of the old one. -/
structure Classified.SameViews (c : Classified) (frame' : Bytes) (eth : EthernetView)
    (ip : Ipv4View) : Prop where
  parse_eq : parse frame' = some { eth with buf := frame' }
  ipv4_eq : EthernetView.ipv4 { eth with buf := frame' } = some { ip with buf := frame' }
  protocol_eq : Ipv4View.protocol { ip with buf := frame' } = ip.protocol
  tcp_eq : c.l4 = .tcp → ∃ t, ip.tcp = some t ∧
    Ipv4View.tcp { ip with buf := frame' } = some { t with buf := frame' }
  udp_eq : c.l4 = .udp → ∃ u, ip.udp = some u ∧
    Ipv4View.udp { ip with buf := frame' } = some { u with buf := frame' }

/-- **A frame of the same layout parses to the same views**: every byte a parse reads is outside the
fields that may differ. -/
theorem Classified.Views.sameViews (h : c.Views side frame eth ip)
    (hs : c.SameLayout frame frame') : c.SameViews frame' eth ip := by
  obtain ⟨h₁, h₂, h₃⟩ := h.offsets
  have hl4 := cksumOffset_headerLen c.l4
  obtain ⟨hbuf, -, -, -⟩ := EthernetView.bounds_of_parse h.parse_eq
  have hipv4 := h.ipv4_eq
  unfold EthernetView.ipv4 at hipv4
  split_ifs at hipv4 with his
  rw [hbuf] at hipv4
  have hstart : ip.start = eth.l3Start := Ipv4View.start_of_parseAt hipv4
  have hoff : c.ipOff = eth.l3Start := h.ipOff_eq.trans hstart
  have hprotocol : Ipv4View.protocol { ip with buf := frame' } = ip.protocol := by
    show byteAt frame' (ip.start + 9) = byteAt ip.buf (ip.start + 9)
    rw [h.bounds.buf_eq]
    exact hs.unchanged _ (by omega) (by omega) (by omega)
  refine ⟨?_, ?_, hprotocol, ?_, ?_⟩
  · exact EthernetView.parse_congr hs.length_eq h.parse_eq fun i hi ↦
      (hs.unchanged i (by omega) (by omega) (by omega)).symm
  · show (if _ then Ipv4View.parseAt frame' eth.l3Start else none) = _
    rw [if_pos (by exact his)]
    apply Ipv4View.parseAt_congr hs.length_eq hipv4
    · exact hs.unchanged _ (by omega) (by omega) (by omega)
    · exact u16At_congr fun i hi hi' ↦ hs.unchanged i (by omega) (by omega) (by omega)
  · intro htcp
    have hfields := h.l4Fields_eq
    rw [htcp] at hfields
    obtain ⟨t, ht, -⟩ := Option.map_eq_some_iff.1 hfields
    refine ⟨t, ht, ?_⟩
    unfold Ipv4View.tcp Ipv4View.isTcp at ht ⊢
    rw [hprotocol]
    split_ifs at ht ⊢
    rw [h.bounds.buf_eq] at ht
    apply TcpView.parseAt_congr hs.length_eq ht
    rw [← h.l4Off_eq]
    exact hs.unchanged _ (by omega) (by omega) (by omega)
  · intro hudp
    have hfields := h.l4Fields_eq
    rw [hudp] at hfields
    obtain ⟨u, hu, -⟩ := Option.map_eq_some_iff.1 hfields
    refine ⟨u, hu, ?_⟩
    unfold Ipv4View.udp Ipv4View.isUdp at hu ⊢
    rw [hprotocol]
    split_ifs at hu ⊢
    rw [h.bounds.buf_eq] at hu
    apply UdpView.parseAt_congr hs.length_eq hu
    rw [← h.l4Off_eq]
    exact u16At_congr fun i hi hi' ↦ hs.unchanged i (by omega) (by omega) (by omega)

/-- **A frame of the same layout classifies as before**, on either side, with its own endpoint. -/
theorem Classified.Views.classify_sameLayout (h : c.Views side frame eth ip)
    (hs : c.SameLayout frame frame') {side' : Side}
    (hip : u32At frame' (c.ipOff + side'.ipOffset) = newIp)
    (hport : u16At frame' (c.l4Off + side'.portOffset) = newPort) :
    classify side' frame' = some { c with ip := newIp, port := newPort } := by
  have hv := h.sameViews hs
  have haddr : side'.addr (Ipv4View.header { ip with buf := frame' }) = newIp := by
    rw [← hip, h.ipOff_eq]
    cases side' <;> rfl
  have hfields : side'.l4Fields { ip with buf := frame' } c.l4 = some (c.l4Off, newPort) := by
    have hold := h.l4Fields_eq
    rcases hl4 : c.l4 with - | -
    · obtain ⟨t, ht, ht'⟩ := hv.tcp_eq hl4
      rw [hl4, Side.l4Fields, ht] at hold
      obtain ⟨hoff, -⟩ := Prod.mk.inj (Option.some.inj hold)
      rw [Side.l4Fields, ht', ← hport, ← hoff]
      cases side' <;> rfl
    · obtain ⟨u, hu, hu'⟩ := hv.udp_eq hl4
      rw [hl4, Side.l4Fields, hu] at hold
      obtain ⟨hoff, -⟩ := Prod.mk.inj (Option.some.inj hold)
      rw [Side.l4Fields, hu', ← hport, ← hoff]
      cases side' <;> rfl
  simp only [classify, hv.parse_eq, hv.ipv4_eq, hv.protocol_eq, h.proto_eq, hfields, haddr,
    Option.bind_eq_bind, Option.bind_some]
  show some (Classified.mk ip.start _ _ _ _) = _
  rw [← h.ipOff_eq]

/-- The views of a frame of the same layout, as the views of its own classification. -/
theorem Classified.Views.views_sameLayout (h : c.Views side frame eth ip)
    (hs : c.SameLayout frame frame') {side' : Side}
    (hip : u32At frame' (c.ipOff + side'.ipOffset) = newIp)
    (hport : u16At frame' (c.l4Off + side'.portOffset) = newPort) :
    Classified.Views side' frame' { c with ip := newIp, port := newPort }
      { eth with buf := frame' } { ip with buf := frame' } := by
  have hv := h.sameViews hs
  obtain ⟨eth', ip', h'⟩ := classify_inv (h.classify_sameLayout hs hip hport)
  obtain rfl : eth' = { eth with buf := frame' } :=
    Option.some.inj (h'.parse_eq.symm.trans hv.parse_eq)
  obtain rfl : ip' = { ip with buf := frame' } :=
    Option.some.inj (h'.ipv4_eq.symm.trans hv.ipv4_eq)
  exact h'

/-- The rewritten packet classifies as before, with the new endpoint. -/
theorem Classified.Views.classify_rewritten (h : c.Views side frame eth ip)
    (hr : RewritesEndpoint side c frame frame' newIp ipc newPort l4c) :
    classify side frame' = some { c with ip := newIp, port := newPort } :=
  h.classify_sameLayout hr.sameLayout hr.ip_eq hr.port_eq

/-! ### The IPv4 header checksum -/

/-- The IPv4 checksum of a classified packet, in terms of its offsets. -/
theorem Classified.Views.ipv4ChecksumOk_iff (h : c.Views side frame eth ip) :
    Ipv4ChecksumOk frame ↔ u16At frame (c.ipOff + ipCksumOffset) =
      Checksum.ipv4Header (zeroed frame c.ipOff c.l4Off ipCksumOffset) := by
  have hpair : ipv4Checksums frame = some (u16At frame (c.ipOff + ipCksumOffset),
      Checksum.ipv4Header (zeroed frame c.ipOff c.l4Off ipCksumOffset)) := by
    simp only [ipv4Checksums, h.parse_eq, h.ipv4_eq, Option.bind_eq_bind, Option.bind_some]
    rw [h.ipOff_eq, h.l4Off_eq, ← h.bounds.buf_eq]
    rfl
  rw [Ipv4ChecksumOk, hpair]
  constructor
  · rintro ⟨k, hk⟩
    obtain ⟨hk₁, hk₂⟩ := Prod.mk.inj (Option.some.inj hk)
    rw [hk₁, hk₂]
  · intro heq
    exact ⟨_, by rw [heq]⟩

/-- The same for every frame of the same layout. -/
theorem Classified.Views.ipv4ChecksumOk_sameLayout_iff (h : c.Views side frame eth ip)
    (hs : c.SameLayout frame frame') :
    Ipv4ChecksumOk frame' ↔ u16At frame' (c.ipOff + ipCksumOffset) =
      Checksum.ipv4Header (zeroed frame' c.ipOff c.l4Off ipCksumOffset) := by
  obtain ⟨newIp, hip⟩ : ∃ v, u32At frame' (c.ipOff + side.ipOffset) = v := ⟨_, rfl⟩
  obtain ⟨newPort, hport⟩ : ∃ v, u16At frame' (c.l4Off + side.portOffset) = v := ⟨_, rfl⟩
  exact (h.views_sameLayout hs hip hport).ipv4ChecksumOk_iff

/-- An IPv4 header has a nonzero word: its first byte holds a header length of at least five. -/
theorem Classified.Views.wordSum_header_pos (h : c.Views side frame eth ip) :
    0 < wordSum (zeroed frame c.ipOff c.l4Off ipCksumOffset) := by
  obtain ⟨h₁, h₂, h₃⟩ := h.offsets
  have hbyte : byteAt (zeroed frame c.ipOff c.l4Off ipCksumOffset) 0 = byteAt frame c.ipOff := by
    rw [byteAt_zeroed (by omega) (by show 12 ≤ _; omega) (by omega), if_neg (by decide),
      Nat.add_zero]
  have hle := byteAt_zero_le_wordSum (zeroed frame c.ipOff c.l4Off ipCksumOffset)
  have hand : (byteAt frame c.ipOff &&& 0x0f).toNat ≤ (byteAt frame c.ipOff).toNat := by
    rw [UInt8.toNat_and]
    exact Nat.and_le_left
  have hihl : 20 ≤ (byteAt frame c.ipOff &&& 0x0f).toNat * 4 := by
    rw [h.ipOff_eq, ← h.bounds.buf_eq]
    exact h.bounds.hlen_ge
  rw [hbyte] at hle
  omega

/-- **The IPv4 checksum survives a rewrite.** -/
theorem Classified.Views.ipv4ChecksumOk_rewritten (h : c.Views side frame eth ip)
    (hlen : frame.length ≤ 65535)
    (hr : RewritesEndpoint side c frame frame' newIp
      (Checksum.update (u16At frame (c.ipOff + ipCksumOffset)) (Ipv4Addr.octets c.ip)
        (Ipv4Addr.octets newIp)) newPort l4c)
    (hok : Ipv4ChecksumOk frame) : Ipv4ChecksumOk frame' := by
  have h' := h.views_sameLayout hr.sameLayout hr.ip_eq hr.port_eq
  obtain ⟨h₁, h₂, h₃⟩ := h.offsets
  have hside := ipOffset_portOffset side
  have hk : ipCksumOffset = 10 := rfl
  have hl4Off : c.l4Off ≤ frame.length := by omega
  -- the address is the only field of the header that enters the sum and changes
  obtain ⟨rest, hsum, hsum'⟩ := exists_wordSum_zeroed (a := c.ipOff) (k := ipCksumOffset)
    (f := side.ipOffset) (n := 4) hr.length_eq hl4Off (by omega) (by omega) (by omega)
    (by rcases hside with hs | hs <;> rw [hs.1] <;> decide) (by decide) fun i hi hck hf ↦
      hr.unchanged _ (by unfold Untouched; omega)
  rw [slice_eq_octets (by omega), ← h.ip_eq] at hsum
  rw [slice_eq_octets (by rw [hr.length_eq]; omega), hr.ip_eq] at hsum'
  have hpos := h.wordSum_header_pos
  have hpos' : 0 < wordSum (zeroed frame' c.ipOff c.l4Off ipCksumOffset) := h'.wordSum_header_pos
  have hlen' : (zeroed frame c.ipOff c.l4Off ipCksumOffset).length ≤ 65535 := by
    rw [length_zeroed hl4Off (by omega)]
    omega
  have hlen'' : (zeroed frame' c.ipOff c.l4Off ipCksumOffset).length ≤ 65535 := by
    rw [length_zeroed (by rwa [hr.length_eq]) (by omega)]
    omega
  have hstored := h.ipv4ChecksumOk_iff.1 hok
  refine (h.ipv4ChecksumOk_sameLayout_iff hr.sameLayout).2 ?_
  have hold : Follows 65535 (u16At frame (c.ipOff + ipCksumOffset)).toNat
      (rest + wordSum (Ipv4Addr.octets c.ip)) := by
    rw [hstored, ← hsum]
    exact follows_checksum hlen'
  rw [hr.ipc_eq]
  refine eq_checksum_of_follows hlen'' ?_ hpos'
  rw [hsum']
  exact follows_update (by simp) (by simp) hold

/-! ### The transport checksum -/

/-- The two updates of a transport checksum exchange the address and the port in its sum. -/
theorem represents_update_update {k : UInt16} {oldIp newIp oldPort newPort : Bytes} {rest : ℕ}
    (h₁ : oldIp.length ≤ 65535) (h₂ : newIp.length ≤ 65535) (h₃ : oldPort.length ≤ 65535)
    (h₄ : newPort.length ≤ 65535)
    (h : Represents 65535 k.toNat (rest + wordSum oldIp + wordSum oldPort)) :
    Represents 65535 (Checksum.update (Checksum.update k oldIp newIp) oldPort newPort).toNat
      (rest + wordSum newIp + wordSum newPort) := by
  have hfirst : Represents 65535 (Checksum.update k oldIp newIp).toNat
      (rest + wordSum oldPort + wordSum newIp) := by
    apply represents_update h₁ h₂
    rwa [Nat.add_right_comm]
  rw [Nat.add_right_comm] at hfirst
  exact represents_update h₃ h₄ hfirst

/-- TCP: the updated checksum is the one from scratch, since the sum is nonzero. -/
theorem updateL4Checksum_of_finish {acc acc' : UInt32} {oldIp newIp oldPort newPort : Bytes}
    {rest : ℕ} (h₁ : oldIp.length ≤ 65535) (h₂ : newIp.length ≤ 65535)
    (h₃ : oldPort.length ≤ 65535) (h₄ : newPort.length ≤ 65535) (hrest : 0 < rest)
    (hacc : acc.toNat = rest + wordSum oldIp + wordSum oldPort)
    (hacc' : acc'.toNat = rest + wordSum newIp + wordSum newPort) :
    updateL4Checksum false oldIp newIp oldPort newPort (finish acc) = finish acc' := by
  have hfirst : Follows 65535 (Checksum.update (finish acc) oldIp newIp).toNat
      (rest + wordSum oldPort + wordSum newIp) := by
    apply follows_update h₁ h₂
    rw [Nat.add_right_comm, ← hacc]
    exact follows_finish acc
  rw [Nat.add_right_comm] at hfirst
  set updated := Checksum.update (Checksum.update (finish acc) oldIp newIp) oldPort newPort
  have hupdated : Follows 65535 updated.toNat acc'.toNat := by
    rw [hacc']
    exact follows_update h₃ h₄ hfirst
  apply UInt16.toNat.inj
  rw [toNat_finish]
  exact hupdated.eq_sub_endAround (Nat.le_of_lt_succ updated.toNat_lt) (by omega)

/-- UDP: the updated checksum is the one from scratch, zero being written as `0xffff` in both. -/
theorem updateL4Checksum_of_udp {acc acc' : UInt32} {oldIp newIp oldPort newPort : Bytes}
    {rest : ℕ} (h₁ : oldIp.length ≤ 65535) (h₂ : newIp.length ≤ 65535)
    (h₃ : oldPort.length ≤ 65535) (h₄ : newPort.length ≤ 65535)
    (hacc : acc.toNat = rest + wordSum oldIp + wordSum oldPort)
    (hacc' : acc'.toNat = rest + wordSum newIp + wordSum newPort) :
    updateL4Checksum true oldIp newIp oldPort newPort
        (if finish acc = 0 then 0xffff else finish acc) =
      if finish acc' = 0 then 0xffff else finish acc' := by
  have hfinish (a : UInt32) : Represents 65535 (finish a).toNat a.toNat :=
    (follows_finish a).represents
  set stored : UInt16 := if finish acc = 0 then 0xffff else finish acc with hstored
  have hrep : Represents 65535 stored.toNat (rest + wordSum oldIp + wordSum oldPort) := by
    rw [hstored, toNat_ite_zero, ← hacc]
    exact (hfinish acc).norm (by omega)
  -- the stored checksum is not zero, so it is not taken for a disabled one
  have hne : (stored == udpCksumDisabled) = false := by
    rw [beq_eq_false_iff_ne, hstored]
    split_ifs with hz
    · decide
    · exact hz
  set updated := Checksum.update (Checksum.update stored oldIp newIp) oldPort newPort with hupdated
  have hresult : updateL4Checksum true oldIp newIp oldPort newPort stored =
      if updated = 0 then 0xffff else updated := by
    simp only [updateL4Checksum, hne, ← hupdated]
    simp [udpCksumDisabled]
  have hrep' := represents_update_update h₁ h₂ h₃ h₄ hrep
  rw [← hacc', ← hupdated] at hrep'
  apply UInt16.toNat.inj
  rw [hresult, toNat_ite_zero, toNat_ite_zero]
  have hle := updated.toNat_lt
  have hle' := (finish acc').toNat_lt
  exact hrep'.norm_eq (hfinish acc') (by omega) (by omega) (by omega)

/-- The address sums of the pseudo-header: the rewritten address is exchanged, the other one
stays. -/
theorem Classified.Views.exists_addrSum (h : c.Views side frame eth ip)
    (hr : RewritesEndpoint side c frame frame' newIp ipc newPort l4c) :
    ∃ other,
      wordSum (Ipv4Addr.octets (u32At frame (c.ipOff + 12))) +
          wordSum (Ipv4Addr.octets (u32At frame (c.ipOff + 16))) =
        other + wordSum (Ipv4Addr.octets c.ip) ∧
      wordSum (Ipv4Addr.octets (u32At frame' (c.ipOff + 12))) +
          wordSum (Ipv4Addr.octets (u32At frame' (c.ipOff + 16))) =
        other + wordSum (Ipv4Addr.octets newIp) := by
  obtain ⟨h₁, h₂, h₃⟩ := h.offsets
  have hl4 := cksumOffset_headerLen c.l4
  have hk : ipCksumOffset = 10 := rfl
  rw [h.ip_eq, ← hr.ip_eq]
  cases side with
  | src =>
    have hoff : Side.src.ipOffset = 12 := rfl
    have hdst : u32At frame' (c.ipOff + 16) = u32At frame (c.ipOff + 16) :=
      u32At_congr fun i hi hi' ↦ hr.unchanged i (by unfold Untouched; omega)
    rw [hdst, hoff]
    exact ⟨_, Nat.add_comm _ _, Nat.add_comm _ _⟩
  | dst =>
    have hoff : Side.dst.ipOffset = 16 := rfl
    have hsrc : u32At frame' (c.ipOff + 12) = u32At frame (c.ipOff + 12) :=
      u32At_congr fun i hi hi' ↦ hr.unchanged i (by unfold Untouched; omega)
    rw [hsrc, hoff]
    exact ⟨_, rfl, rfl⟩

/-- The sum over pseudo-header and segment of a frame. -/
def Classified.l4SumOf (c : Classified) (stop : ℕ) (frame : Bytes) : UInt32 :=
  l4Sum (Ipv4Addr.octets (u32At frame (c.ipOff + 12)))
    (Ipv4Addr.octets (u32At frame (c.ipOff + 16))) c.l4.proto
    (zeroed frame c.l4Off stop c.l4.cksumOffset)

/-- The sum over pseudo-header and segment, before and after a rewrite: the address and the port are
exchanged, the rest, with the protocol number in it, stays. -/
theorem Classified.Views.exists_l4Sum (h : c.Views side frame eth ip) (hlen : frame.length ≤ 65535)
    (hr : RewritesEndpoint side c frame frame' newIp ipc newPort l4c) (stop : ℕ)
    (hfits : c.l4Off + c.l4.headerLen ≤ stop) (hstop : stop ≤ frame.length) :
    ∃ rest, c.l4.proto.toNat ≤ rest ∧
      (c.l4SumOf stop frame).toNat =
        rest + wordSum (Ipv4Addr.octets c.ip) + wordSum (u16ToBeBytes c.port) ∧
      (c.l4SumOf stop frame').toNat =
        rest + wordSum (Ipv4Addr.octets newIp) + wordSum (u16ToBeBytes newPort) := by
  obtain ⟨h₁, h₂, h₃⟩ := h.offsets
  have hside := ipOffset_portOffset side
  have hl4 := cksumOffset_headerLen c.l4
  have hk : ipCksumOffset = 10 := rfl
  obtain ⟨rest, hsum, hsum'⟩ := exists_wordSum_zeroed (a := c.l4Off) (k := c.l4.cksumOffset)
    (f := side.portOffset) (n := 2) hr.length_eq hstop (by omega) (by omega) (by omega)
    (by rcases hside with hs | hs <;> rw [hs.2] <;> decide) (by decide) fun i hi hck hf ↦
      hr.unchanged _ (by unfold Untouched; omega)
  rw [slice_eq_u16ToBeBytes (by omega), ← h.port_eq] at hsum
  rw [slice_eq_u16ToBeBytes (by rw [hr.length_eq]; omega), hr.port_eq] at hsum'
  have hseg : (zeroed frame c.l4Off stop c.l4.cksumOffset).length = stop - c.l4Off :=
    length_zeroed hstop (by omega)
  have hseg' : (zeroed frame' c.l4Off stop c.l4.cksumOffset).length = stop - c.l4Off :=
    length_zeroed (by rwa [hr.length_eq]) (by omega)
  rw [Classified.l4SumOf, Classified.l4SumOf, toNat_l4Sum _ rfl rfl (by omega),
    toNat_l4Sum _ rfl rfl (by omega), hseg, hseg', hsum, hsum']
  obtain ⟨other, haddr, haddr'⟩ := h.exists_addrSum hr
  exact ⟨other + c.l4.proto.toNat + (stop - c.l4Off) + rest, by omega, by omega, by omega⟩

/-- The transport checksum that finishes a sum: UDP writes a computed zero as `0xffff`. -/
def L4.finishSum : L4 → UInt32 → UInt16
  | tcp, acc => finish acc
  | udp, acc => if finish acc = 0 then 0xffff else finish acc

/-- The updated checksum is the one from scratch, for TCP and for UDP. -/
theorem updateL4Checksum_finishSum (l4 : L4) {acc acc' : UInt32}
    {oldIp newIp oldPort newPort : Bytes} {rest : ℕ} (h₁ : oldIp.length ≤ 65535)
    (h₂ : newIp.length ≤ 65535) (h₃ : oldPort.length ≤ 65535) (h₄ : newPort.length ≤ 65535)
    (hrest : l4.proto.toNat ≤ rest)
    (hacc : acc.toNat = rest + wordSum oldIp + wordSum oldPort)
    (hacc' : acc'.toNat = rest + wordSum newIp + wordSum newPort) :
    updateL4Checksum l4.isUdp oldIp newIp oldPort newPort (l4.finishSum acc) =
      l4.finishSum acc' := by
  cases l4 with
  | tcp =>
    exact updateL4Checksum_of_finish h₁ h₂ h₃ h₄ (Nat.lt_of_lt_of_le (by decide) hrest) hacc hacc'
  | udp => exact updateL4Checksum_of_udp h₁ h₂ h₃ h₄ hacc hacc'

theorem l4ChecksumOk_iff_of_eq_some {stored computed : UInt16}
    (h : l4Checksums frame = some (stored, computed)) :
    L4ChecksumOk frame ↔ stored = computed := by
  rw [L4ChecksumOk, h]
  constructor
  · rintro ⟨k, hk⟩
    obtain ⟨rfl, rfl⟩ := Prod.mk.inj (Option.some.inj hk)
    rfl
  · rintro rfl
    exact ⟨stored, rfl⟩

/-- A frame of the same layout has its checksums under the same view. -/
theorem Classified.Views.l4Checksums_eq (h : c.Views side frame eth ip)
    (hs : c.SameLayout frame frame') :
    l4Checksums frame' = Ipv4View.l4Checksums { ip with buf := frame' } c.l4 := by
  have hv := h.sameViews hs
  simp only [l4Checksums, hv.parse_eq, hv.ipv4_eq, hv.protocol_eq, h.proto_eq,
    Option.bind_eq_bind, Option.bind_some]

/-- **The transport checksum of a classified packet, in terms of its offsets**: one end of the
segment serves for every frame of the same layout. -/
theorem Classified.Views.exists_l4ChecksumOk_iff (h : c.Views side frame eth ip) :
    ∃ stop, c.l4Off + c.l4.headerLen ≤ stop ∧ stop ≤ frame.length ∧
      ∀ frame', c.SameLayout frame frame' → (L4ChecksumOk frame' ↔
        u16At frame' (c.l4Off + c.l4.cksumOffset) = c.l4.finishSum (c.l4SumOf stop frame')) := by
  have hold := h.sameViews (.refl c frame)
  rcases hl4 : c.l4 with - | -
  · obtain ⟨t, ht, -⟩ := hold.tcp_eq hl4
    obtain ⟨-, hstart, hend, hfits⟩ := tcpView_bounds h.bounds ht
    have hoff : t.start = c.l4Off := hstart.trans h.l4Off_eq.symm
    refine ⟨t.end_, by rw [← hoff]; exact hfits, hend ▸ h.bounds.end_le, fun frame' hs ↦ ?_⟩
    obtain ⟨t', ht', hview⟩ := (h.sameViews hs).tcp_eq hl4
    obtain rfl := Option.some.inj (ht.symm.trans ht')
    have hk := h.l4Checksums_eq hs
    rw [hl4, Ipv4View.l4Checksums, hview, Option.map_some] at hk
    refine l4ChecksumOk_iff_of_eq_some (hk.trans ?_)
    rw [Classified.l4SumOf, hl4, h.ipOff_eq, ← hoff]
    rfl
  · obtain ⟨u, hu, -⟩ := hold.udp_eq hl4
    obtain ⟨-, hstart, hfits, hend⟩ := udpView_bounds h.bounds hu
    have hoff : u.start = c.l4Off := hstart.trans h.l4Off_eq.symm
    refine ⟨u.end_, by rw [← hoff]; exact hfits, Nat.le_trans hend h.bounds.end_le,
      fun frame' hs ↦ ?_⟩
    obtain ⟨u', hu', hview⟩ := (h.sameViews hs).udp_eq hl4
    obtain rfl := Option.some.inj (hu.symm.trans hu')
    have hk := h.l4Checksums_eq hs
    rw [hl4, Ipv4View.l4Checksums, hview, Option.map_some] at hk
    refine l4ChecksumOk_iff_of_eq_some (hk.trans ?_)
    rw [Classified.l4SumOf, hl4, h.ipOff_eq, ← hoff]
    rfl

/-- **The transport checksum survives a rewrite**, for TCP and for UDP. -/
theorem Classified.Views.l4ChecksumOk_rewritten (h : c.Views side frame eth ip)
    (hlen : frame.length ≤ 65535)
    (hr : RewritesEndpoint side c frame frame' newIp ipc newPort
      (updateL4Checksum c.l4.isUdp (Ipv4Addr.octets c.ip) (Ipv4Addr.octets newIp)
        (u16ToBeBytes c.port) (u16ToBeBytes newPort)
        (u16At frame (c.l4Off + c.l4.cksumOffset))))
    (hok : L4ChecksumOk frame) : L4ChecksumOk frame' := by
  obtain ⟨stop, hfits, hstop, hiff⟩ := h.exists_l4ChecksumOk_iff
  obtain ⟨rest, hrest, hsum, hsum'⟩ := h.exists_l4Sum hlen hr stop hfits hstop
  have hstored := (hiff frame (.refl c frame)).1 hok
  refine (hiff frame' hr.sameLayout).2 ?_
  rw [hr.l4c_eq, hstored]
  exact updateL4Checksum_finishSum c.l4 (by simp) (by simp) (by simp) (by simp) hrest hsum hsum'

end Rewritten

/-! ### The translations -/

/-- What a translation of the `side` endpoint of the packet `c` to `newIp` and `newPort` does to the
frame that carries it, and what it keeps. -/
structure Translated (side : Side) (c : Classified) (newIp : Ipv4Addr) (newPort : UInt16)
    (frame frame' : Bytes) : Prop where
  /-- The frame keeps its length, -/
  length_eq : frame'.length = frame.length
  /-- every byte outside the address, the port and the two checksums is the old one, -/
  unchanged : ∀ i, ¬(c.ipOff + side.ipOffset ≤ i ∧ i < c.ipOff + side.ipOffset + 4) →
    ¬(c.l4Off + side.portOffset ≤ i ∧ i < c.l4Off + side.portOffset + 2) →
    ¬(c.ipOff + 10 ≤ i ∧ i < c.ipOff + 12) →
    ¬(c.l4Off + c.l4.cksumOffset ≤ i ∧ i < c.l4Off + c.l4.cksumOffset + 2) →
    byteAt frame' i = byteAt frame i
  /-- and it is a packet of the same layout with the new endpoint. -/
  classify_eq : classify side frame' = some { c with ip := newIp, port := newPort }
  /-- A correct IPv4 checksum stays correct. -/
  ipv4_checksum : Ipv4ChecksumOk frame → Ipv4ChecksumOk frame'
  /-- A correct transport checksum stays correct. -/
  l4_checksum : L4ChecksumOk frame → L4ChecksumOk frame'
  /-- A disabled UDP checksum stays disabled. -/
  udp_disabled : c.l4 = .udp → u16At frame (c.l4Off + udpCksumOffset) = 0 →
    u16At frame' (c.l4Off + udpCksumOffset) = 0

/-- **A rewrite keeps packets valid.** -/
theorem translated_rewrite {side : Side} {frame : Bytes} {c : Classified}
    (hc : classify side frame = some c) (hlen : frame.length ≤ 65535) (newIp : Ipv4Addr)
    (newPort : UInt16) :
    Translated side c newIp newPort frame (rewrite side c newIp newPort frame) := by
  obtain ⟨eth, ip, h⟩ := classify_inv hc
  have hr := h.rewrites newIp newPort
  refine ⟨hr.length_eq, ?_, h.classify_rewritten hr, h.ipv4ChecksumOk_rewritten hlen hr,
    h.l4ChecksumOk_rewritten hlen hr, ?_⟩
  · intro i hip hport hipc hl4c
    exact hr.unchanged i ⟨hip, hipc, hport, hl4c⟩
  · intro hudp hzero
    have hl4c := hr.l4c_eq
    rw [hudp] at hl4c
    refine hl4c.trans ?_
    have hzero' : u16At frame (c.l4Off + L4.udp.cksumOffset) = 0 := hzero
    rw [hzero']
    rfl

/-- **Translation keeps packets valid.** For a table reached by any calls and any frame of at most
65535 bytes: when `translateEgress` succeeds, the source of the packet has become the WAN address
and the port bound to it; when `translateIngress` succeeds, the destination has become the endpoint
bound to the external port; and either way the frame is `Translated`. -/
theorem translation_keeps_packets_valid {wanIp : Ipv4Addr} {lo hi : UInt16} {t₀ : NatTable}
    (h₀ : NatTable.new wanIp lo hi = some t₀) (ops : List NatTable.Op) {frame : Bytes}
    (hlen : frame.length ≤ 65535) :
    (∀ x, (translateEgress frame (t₀.run ops)).2.2 = some x →
      ∃ c, classify .src frame = some c ∧ x.newSrcIp = (t₀.run ops).wanIp ∧
        (translateEgress frame (t₀.run ops)).2.1.fwd.lookup (c.l4.proto, c.ip, c.port) =
          some x.newSrcPort ∧
        Translated .src c x.newSrcIp x.newSrcPort frame
          (translateEgress frame (t₀.run ops)).1) ∧
    (∀ x, (translateIngress frame (t₀.run ops)).2 = some x →
      ∃ c, classify .dst frame = some c ∧
        (t₀.run ops).rev.lookup (c.l4.proto, c.port) = some ⟨x.dstIp, x.dstPort⟩ ∧
        Translated .dst c x.dstIp x.dstPort frame (translateIngress frame (t₀.run ops)).1) := by
  have hinv := NatTable.inv_run_of_new h₀ ops
  constructor
  · intro x hx
    obtain ⟨c, hc, he, heq⟩ := translateEgress_eq_some hx
    obtain ⟨hk, hwan⟩ := NatTable.lookup_of_egress_eq_some hinv he
    rw [heq]
    exact ⟨c, hc, hwan, hk, translated_rewrite hc hlen _ _⟩
  · intro x hx
    obtain ⟨c, hc, hi, heq⟩ := translateIngress_eq_some hx
    rw [heq]
    refine ⟨c, hc, ?_, translated_rewrite hc hlen _ _⟩
    exact (hinv.inverse _ _ _ _).1 (hinv.ingress_eq_some_iff.1 hi)

/-- A UDP datagram `192.168.1.2:5000 → 8.8.8.8:53` with two payload bytes and correct checksums. -/
def sampleUdpFrame : Bytes :=
  [0x02, 0, 0, 0, 0, 2, 0x02, 0, 0, 0, 0, 1, 0x08, 0x00,
    0x45, 0, 0, 30, 0, 0, 0, 0, 64, 17, 0xa9, 0x15, 192, 168, 1, 2, 8, 8, 8, 8,
    0x13, 0x88, 0, 53, 0, 10, 0x11, 0x5a, 9, 9]

/-- The sample datagram leaves with the first external port as its source, and both checksums are
correct again. -/
theorem translation_sampleUdpFrame :
    ∃ t₀, NatTable.new 0xcb007101 40000 40010 = some t₀ ∧
      (translateEgress sampleUdpFrame (t₀.run [])).2.2 = some ⟨0xcb007101, 40000⟩ ∧
      Ipv4ChecksumOk (translateEgress sampleUdpFrame (t₀.run [])).1 ∧
      L4ChecksumOk (translateEgress sampleUdpFrame (t₀.run [])).1 := by
  have hnew : NatTable.new 0xcb007101 40000 40010 =
      some ⟨0xcb007101, 40000, 40010, 40000, ∅, ∅⟩ := rfl
  refine ⟨_, hnew, by decide, ?_⟩
  have hlen : sampleUdpFrame.length ≤ 65535 := by decide
  obtain ⟨hegress, -⟩ := translation_keeps_packets_valid hnew [] hlen
  obtain ⟨c, -, -, -, hvalid⟩ := hegress ⟨0xcb007101, 40000⟩ (by decide)
  exact ⟨hvalid.ipv4_checksum ⟨0xa915, by decide +kernel⟩,
    hvalid.l4_checksum ⟨0x115a, by decide +kernel⟩⟩

end UserspaceRouter
