import UserspaceRouter.Router.TranslateValid

/-!
# Ingress undoes egress

The answer to a packet is, as far as the translation is concerned, its mirror: the same frame with
source and destination exchanged (`mirror`). This module shows that the mirror of what
`translateEgress` makes of a frame is turned by `translateIngress`, then or later, into the mirror
of that frame.

The argument is in two parts. The bytes outside the two checksums are a matter of where they are
copied from (`Classified.Views.byteAt_there_and_back`). The checksums are not: the updates on the
way out and on the way in are each correct, and a correct checksum is determined by the other bytes
(`Classified.Views.ext_of_checksums`), of which it is enough that mirroring leaves their sum alone.
-/

namespace UserspaceRouter

open OnesComplement Checksum

/-! ### The mirror of a frame -/

/-- Which byte of a frame is byte `i` of its mirror: the two addresses of the IPv4 header at `ipOff`
and the two ports of the transport header at `l4Off` change places. -/
def mirrorIndex (ipOff l4Off i : ℕ) : ℕ :=
  if ipOff + 12 ≤ i ∧ i < ipOff + 16 then i + 4
  else if ipOff + 16 ≤ i ∧ i < ipOff + 20 then i - 4
  else if l4Off ≤ i ∧ i < l4Off + 2 then i + 2
  else if l4Off + 2 ≤ i ∧ i < l4Off + 4 then i - 2
  else i

def mirrorAt (ipOff l4Off : ℕ) (frame : Bytes) : Bytes :=
  (List.range frame.length).map fun i ↦ byteAt frame (mirrorIndex ipOff l4Off i)

/-- The mirror of a TCP or UDP packet: source and destination are exchanged, and everything else is
equal. -/
def mirror (frame : Bytes) : Bytes :=
  match classify .src frame with
  | some c => mirrorAt c.ipOff c.l4Off frame
  | none => frame

/-- A UDP packet that is sent without a checksum. -/
def UdpChecksumDisabled (frame : Bytes) : Prop :=
  ∃ c, classify .src frame = some c ∧ c.l4 = .udp ∧
    u16At frame (c.l4Off + udpCksumOffset) = udpCksumDisabled

section Mirror

variable {ipOff l4Off i : ℕ} {frame frame' : Bytes}

@[simp] theorem length_mirrorAt : (mirrorAt ipOff l4Off frame).length = frame.length := by
  simp [mirrorAt]

theorem byteAt_mirrorAt (hi : i < frame.length) :
    byteAt (mirrorAt ipOff l4Off frame) i = byteAt frame (mirrorIndex ipOff l4Off i) := by
  simp [byteAt, mirrorAt, List.getD_eq_getElem?_getD, hi]

/-- Reading a field of one frame at the place of a field of another. -/
theorem u32At_eq_of_bytes {off off' : ℕ}
    (h : ∀ j, j < 4 → byteAt frame (off + j) = byteAt frame' (off' + j)) :
    u32At frame off = u32At frame' off' := by
  have h₀ := h 0 (by decide)
  have h₁ := h 1 (by decide)
  have h₂ := h 2 (by decide)
  have h₃ := h 3 (by decide)
  rw [Nat.add_zero, Nat.add_zero] at h₀
  rw [u32At, u32At, h₀, h₁, h₂, h₃]

theorem u16At_eq_of_bytes {off off' : ℕ}
    (h : ∀ j, j < 2 → byteAt frame (off + j) = byteAt frame' (off' + j)) :
    u16At frame off = u16At frame' off' := by
  have h₀ := h 0 (by decide)
  have h₁ := h 1 (by decide)
  rw [Nat.add_zero, Nat.add_zero] at h₀
  rw [u16At, u16At, h₀, h₁]

/-- The bytes of a field are known from its value. -/
theorem byteAt_eq_of_u32At_eq {off : ℕ} (h : u32At frame off = u32At frame' off)
    (hle : off + 4 ≤ frame.length) (hle' : off + 4 ≤ frame'.length) (hi : off ≤ i ∧ i < off + 4) :
    byteAt frame i = byteAt frame' i := by
  have hslice : slice frame off (off + 4) = slice frame' off (off + 4) := by
    rw [slice_eq_octets hle, slice_eq_octets hle', h]
  have hoff : off + (i - off) = i := by omega
  have hbyte : byteAt (slice frame off _) (i - off) = byteAt (slice frame' off _) (i - off) :=
    congrArg (byteAt · (i - off)) hslice
  rwa [byteAt_slice (by omega), byteAt_slice (by omega), hoff] at hbyte

theorem byteAt_eq_of_u16At_eq {off : ℕ} (h : u16At frame off = u16At frame' off)
    (hle : off + 2 ≤ frame.length) (hle' : off + 2 ≤ frame'.length) (hi : off ≤ i ∧ i < off + 2) :
    byteAt frame i = byteAt frame' i := by
  have hslice : slice frame off (off + 2) = slice frame' off (off + 2) := by
    rw [slice_eq_u16ToBeBytes hle, slice_eq_u16ToBeBytes hle', h]
  have hoff : off + (i - off) = i := by omega
  have hbyte : byteAt (slice frame off _) (i - off) = byteAt (slice frame' off _) (i - off) :=
    congrArg (byteAt · (i - off)) hslice
  rwa [byteAt_slice (by omega), byteAt_slice (by omega), hoff] at hbyte

end Mirror

/-! ### Mirroring a classified packet -/

section Packet

variable {side : Side} {c : Classified} {frame frame' : Bytes} {eth : EthernetView} {ip : Ipv4View}

/-- A mirrored frame differs in the endpoints only. -/
theorem Classified.Views.sameLayout_mirrorAt (h : c.Views side frame eth ip) :
    c.SameLayout frame (mirrorAt c.ipOff c.l4Off frame) := by
  obtain ⟨h₁, h₂, h₃⟩ := h.offsets
  have hl4 := cksumOffset_headerLen c.l4
  refine ⟨length_mirrorAt, fun i hip hport _ ↦ ?_⟩
  by_cases hi : i < frame.length
  · rw [byteAt_mirrorAt hi]
    congr 1
    unfold mirrorIndex
    split_ifs <;> omega
  · rw [byteAt, byteAt, List.getD_eq_default _ _ (by rw [length_mirrorAt]; omega),
      List.getD_eq_default _ _ (by omega)]

/-- Where the fields of a mirrored frame come from. -/
structure Classified.MirrorFields (c : Classified) (frame frame' : Bytes) : Prop where
  src_eq : u32At frame' (c.ipOff + 12) = u32At frame (c.ipOff + 16)
  dst_eq : u32At frame' (c.ipOff + 16) = u32At frame (c.ipOff + 12)
  sport_eq : u16At frame' c.l4Off = u16At frame (c.l4Off + 2)
  dport_eq : u16At frame' (c.l4Off + 2) = u16At frame c.l4Off
  ipc_eq : u16At frame' (c.ipOff + ipCksumOffset) = u16At frame (c.ipOff + ipCksumOffset)
  l4c_eq : u16At frame' (c.l4Off + c.l4.cksumOffset) = u16At frame (c.l4Off + c.l4.cksumOffset)

theorem Classified.Views.mirrorFields (h : c.Views side frame eth ip) :
    c.MirrorFields frame (mirrorAt c.ipOff c.l4Off frame) := by
  obtain ⟨h₁, h₂, h₃⟩ := h.offsets
  have hl4 := cksumOffset_headerLen c.l4
  have hk : ipCksumOffset = 10 := rfl
  have hbyte : ∀ i i', i < frame.length → mirrorIndex c.ipOff c.l4Off i = i' →
      byteAt (mirrorAt c.ipOff c.l4Off frame) i = byteAt frame i' := by
    rintro i _ hi rfl
    exact byteAt_mirrorAt hi
  unfold mirrorIndex at hbyte
  refine ⟨?_, ?_, ?_, ?_, ?_, ?_⟩
  · exact u32At_eq_of_bytes fun j hj ↦ hbyte _ _ (by omega) (by split_ifs <;> omega)
  · exact u32At_eq_of_bytes fun j hj ↦ hbyte _ _ (by omega) (by split_ifs <;> omega)
  · exact u16At_eq_of_bytes fun j hj ↦ hbyte _ _ (by omega) (by split_ifs <;> omega)
  · exact u16At_eq_of_bytes fun j hj ↦ hbyte _ _ (by omega) (by split_ifs <;> omega)
  · exact u16At_eq_of_bytes fun j hj ↦ hbyte _ _ (by omega) (by split_ifs <;> omega)
  · exact u16At_eq_of_bytes fun j hj ↦ hbyte _ _ (by omega) (by split_ifs <;> omega)

/-- The words of two fields side by side. -/
theorem wordSum_slice_add {a b d : ℕ} (hab : a ≤ b) (hbd : b ≤ d) (hd : d ≤ frame.length)
    (heven : Even (b - a)) :
    wordSum (slice frame a d) = wordSum (slice frame a b) + wordSum (slice frame b d) := by
  rw [← slice_append_slice hab hbd hd, wordSum_append]
  rwa [length_slice (Nat.le_trans hbd hd)]

/-- The two address fields, as words. -/
theorem wordSum_addresses {off : ℕ} (h : off + 8 ≤ frame.length) :
    wordSum (slice frame off (off + 8)) =
      wordSum (Ipv4Addr.octets (u32At frame off)) +
        wordSum (Ipv4Addr.octets (u32At frame (off + 4))) := by
  have hsecond : slice frame (off + 4) (off + 8) = Ipv4Addr.octets (u32At frame (off + 4)) :=
    slice_eq_octets h
  rw [wordSum_slice_add (b := off + 4) (by omega) (by omega) h
    (by rw [Nat.add_sub_cancel_left]; decide), slice_eq_octets (by omega), hsecond]

/-- The two port fields, as words. -/
theorem wordSum_ports {off : ℕ} (h : off + 4 ≤ frame.length) :
    wordSum (slice frame off (off + 4)) =
      wordSum (u16ToBeBytes (u16At frame off)) +
        wordSum (u16ToBeBytes (u16At frame (off + 2))) := by
  have hsecond : slice frame (off + 2) (off + 4) = u16ToBeBytes (u16At frame (off + 2)) :=
    slice_eq_u16ToBeBytes h
  rw [wordSum_slice_add (b := off + 2) (by omega) (by omega) h
    (by rw [Nat.add_sub_cancel_left]; decide), slice_eq_u16ToBeBytes (by omega), hsecond]

/-- **A correct IPv4 checksum is correct for the mirror**: the addresses are added in the other
order. -/
theorem Classified.Views.ipv4ChecksumOk_mirrorAt (h : c.Views side frame eth ip)
    (hlen : frame.length ≤ 65535) (hok : Ipv4ChecksumOk frame) :
    Ipv4ChecksumOk (mirrorAt c.ipOff c.l4Off frame) := by
  obtain ⟨h₁, h₂, h₃⟩ := h.offsets
  have hl4 := cksumOffset_headerLen c.l4
  have hk : ipCksumOffset = 10 := rfl
  have hlayout := h.sameLayout_mirrorAt
  have hfields := h.mirrorFields
  set frame' := mirrorAt c.ipOff c.l4Off frame
  have hl4Off : c.l4Off ≤ frame.length := by omega
  obtain ⟨rest, hsum, hsum'⟩ := exists_wordSum_zeroed (a := c.ipOff) (k := ipCksumOffset) (f := 12)
    (n := 8) hlayout.length_eq hl4Off (by omega) (by omega) (by omega) (by decide) (by decide)
    fun i hi hck hf ↦ hlayout.unchanged _ (by omega) (by omega) (by omega)
  rw [wordSum_addresses (by omega)] at hsum
  rw [wordSum_addresses (by rw [hlayout.length_eq]; omega), hfields.src_eq, hfields.dst_eq,
    Nat.add_comm (wordSum _) (wordSum _), ← hsum] at hsum'
  have hlen₁ : (zeroed frame c.ipOff c.l4Off ipCksumOffset).length = c.l4Off - c.ipOff :=
    length_zeroed hl4Off (by omega)
  have hlen₂ : (zeroed frame' c.ipOff c.l4Off ipCksumOffset).length = c.l4Off - c.ipOff :=
    length_zeroed (by rw [hlayout.length_eq]; exact hl4Off) (by omega)
  refine (h.ipv4ChecksumOk_sameLayout_iff hlayout).2 ?_
  rw [hfields.ipc_eq, h.ipv4ChecksumOk_iff.1 hok]
  apply UInt16.toNat.inj
  rw [Checksum.ipv4Header, Checksum.ipv4Header, toNat_checksum (by omega),
    toNat_checksum (by omega), hsum']

/-- **A correct transport checksum is correct for the mirror.** -/
theorem Classified.Views.l4ChecksumOk_mirrorAt (h : c.Views side frame eth ip)
    (hlen : frame.length ≤ 65535) (hok : L4ChecksumOk frame) :
    L4ChecksumOk (mirrorAt c.ipOff c.l4Off frame) := by
  obtain ⟨h₁, h₂, h₃⟩ := h.offsets
  have hl4 := cksumOffset_headerLen c.l4
  have hlayout := h.sameLayout_mirrorAt
  have hfields := h.mirrorFields
  set frame' := mirrorAt c.ipOff c.l4Off frame
  obtain ⟨stop, hfits, hstop, hiff⟩ := h.exists_l4ChecksumOk_iff
  obtain ⟨rest, hsum, hsum'⟩ := exists_wordSum_zeroed (a := c.l4Off) (k := c.l4.cksumOffset)
    (f := 0) (n := 4) hlayout.length_eq hstop (by omega) (by omega) (by omega) (by decide)
    (by decide) fun i hi hck hf ↦ hlayout.unchanged _ (by omega) (by omega) (by omega)
  rw [Nat.add_zero, wordSum_ports (by omega)] at hsum
  rw [Nat.add_zero, wordSum_ports (by rw [hlayout.length_eq]; omega), hfields.sport_eq,
    hfields.dport_eq, Nat.add_comm (wordSum _) (wordSum _), ← hsum] at hsum'
  have hlen₁ : (zeroed frame c.l4Off stop c.l4.cksumOffset).length = stop - c.l4Off :=
    length_zeroed hstop (by omega)
  have hlen₂ : (zeroed frame' c.l4Off stop c.l4.cksumOffset).length = stop - c.l4Off :=
    length_zeroed (by rw [hlayout.length_eq]; exact hstop) (by omega)
  have hsums : c.l4SumOf stop frame' = c.l4SumOf stop frame := by
    apply UInt32.toNat.inj
    rw [Classified.l4SumOf, Classified.l4SumOf, toNat_l4Sum _ rfl rfl (by omega),
      toNat_l4Sum _ rfl rfl (by omega), hsum', hlen₁, hlen₂, hfields.src_eq, hfields.dst_eq]
    omega
  refine (hiff frame' hlayout).2 ?_
  rw [hfields.l4c_eq, hsums]
  exact (hiff frame (.refl c frame)).1 hok

/-! ### Correct checksums are determined -/

theorem zeroed_congr {a b k : ℕ} (hlen : frame'.length = frame.length) (hb : b ≤ frame.length)
    (hk : k + 2 ≤ b - a) (hsame : ∀ i, i < b - a → ¬(k ≤ i ∧ i < k + 2) →
      byteAt frame' (a + i) = byteAt frame (a + i)) : zeroed frame' a b k = zeroed frame a b k := by
  have hb' : b ≤ frame'.length := by rwa [hlen]
  apply bytes_ext
  · rw [length_zeroed hb' hk, length_zeroed hb hk]
  · intro i hi
    rw [length_zeroed hb' hk] at hi
    rw [byteAt_zeroed hb' hk hi, byteAt_zeroed hb hk hi]
    split_ifs with hzero
    · rfl
    · exact hsame i hi hzero

/-- **Two packets with correct checksums that agree elsewhere are equal**; of the transport checksum
it is enough that it is the same. -/
theorem Classified.Views.ext_of_checksums (h : c.Views side frame eth ip) {f₁ f₂ : Bytes}
    (hs₁ : c.SameLayout frame f₁) (hs₂ : c.SameLayout frame f₂)
    (hbytes : ∀ i, i < frame.length → ¬(c.ipOff + 10 ≤ i ∧ i < c.ipOff + 12) →
      ¬(c.l4Off + c.l4.cksumOffset ≤ i ∧ i < c.l4Off + c.l4.cksumOffset + 2) →
      byteAt f₁ i = byteAt f₂ i)
    (hip₁ : Ipv4ChecksumOk f₁) (hip₂ : Ipv4ChecksumOk f₂)
    (hl4 : L4ChecksumOk f₁ ∧ L4ChecksumOk f₂ ∨
      u16At f₁ (c.l4Off + c.l4.cksumOffset) = u16At f₂ (c.l4Off + c.l4.cksumOffset)) :
    f₁ = f₂ := by
  obtain ⟨h₁, h₂, h₃⟩ := h.offsets
  have hcksum := cksumOffset_headerLen c.l4
  have hk : ipCksumOffset = 10 := rfl
  have hlen₁ := hs₁.length_eq
  have hlen₂ := hs₂.length_eq
  have hipc : u16At f₁ (c.ipOff + 10) = u16At f₂ (c.ipOff + 10) := by
    have hzeroed : zeroed f₁ c.ipOff c.l4Off ipCksumOffset =
        zeroed f₂ c.ipOff c.l4Off ipCksumOffset :=
      zeroed_congr (by omega) (by omega) (by omega) fun i hi hck ↦
        hbytes _ (by omega) (by omega) (by omega)
    have hfirst := (h.ipv4ChecksumOk_sameLayout_iff hs₁).1 hip₁
    rw [hzeroed, ← (h.ipv4ChecksumOk_sameLayout_iff hs₂).1 hip₂] at hfirst
    exact hfirst
  have hl4c : u16At f₁ (c.l4Off + c.l4.cksumOffset) = u16At f₂ (c.l4Off + c.l4.cksumOffset) := by
    rcases hl4 with ⟨hok₁, hok₂⟩ | heq
    · obtain ⟨stop, hfits, hstop, hiff⟩ := h.exists_l4ChecksumOk_iff
      have hzeroed : zeroed f₁ c.l4Off stop c.l4.cksumOffset =
          zeroed f₂ c.l4Off stop c.l4.cksumOffset :=
        zeroed_congr (by omega) (by omega) (by omega) fun i hi hck ↦
        hbytes _ (by omega) (by omega) (by omega)
      have hsrc : u32At f₁ (c.ipOff + 12) = u32At f₂ (c.ipOff + 12) :=
        u32At_congr fun i hi hi' ↦ hbytes i (by omega) (by omega) (by omega)
      have hdst : u32At f₁ (c.ipOff + 16) = u32At f₂ (c.ipOff + 16) :=
        u32At_congr fun i hi hi' ↦ hbytes i (by omega) (by omega) (by omega)
      rw [(hiff f₁ hs₁).1 hok₁, (hiff f₂ hs₂).1 hok₂, Classified.l4SumOf, Classified.l4SumOf,
        hzeroed, hsrc, hdst]
    · exact heq
  apply bytes_ext (by omega)
  intro i hi
  by_cases hin : c.ipOff + 10 ≤ i ∧ i < c.ipOff + 12
  · exact byteAt_eq_of_u16At_eq hipc (by omega) (by omega) hin
  · by_cases hin' : c.l4Off + c.l4.cksumOffset ≤ i ∧ i < c.l4Off + c.l4.cksumOffset + 2
    · exact byteAt_eq_of_u16At_eq hl4c (by omega) (by omega) hin'
    · exact hbytes i (by omega) hin hin'

/-! ### There and back -/

/-- What the mirror of a translated packet looks like to the way back. -/
theorem Classified.Views.classify_mirror_rewritten (h : c.Views .src frame eth ip)
    {newIp : Ipv4Addr} {ipc newPort l4c : UInt16}
    (hr : RewritesEndpoint .src c frame frame' newIp ipc newPort l4c) :
    c.SameLayout frame (mirrorAt c.ipOff c.l4Off frame') ∧
    classify .dst (mirrorAt c.ipOff c.l4Off frame') =
      some { c with ip := newIp, port := newPort } := by
  have h' := h.views_sameLayout hr.sameLayout hr.ip_eq hr.port_eq
  have hlayout : c.SameLayout frame (mirrorAt c.ipOff c.l4Off frame') :=
    hr.sameLayout.trans ⟨h'.sameLayout_mirrorAt.length_eq, h'.sameLayout_mirrorAt.unchanged⟩
  have hfields := h'.mirrorFields
  exact ⟨hlayout, h.classify_sameLayout hlayout (hfields.dst_eq.trans hr.ip_eq)
    (hfields.dport_eq.trans hr.port_eq)⟩

/-- **There and back, byte by byte**: outside the checksums, translating the source, mirroring and
translating the destination back is mirroring. -/
theorem Classified.Views.byteAt_there_and_back (h : c.Views .src frame eth ip)
    {newIp : Ipv4Addr} {newPort ipc ipc' l4c l4c' : UInt16} {frame'' : Bytes}
    (hr : RewritesEndpoint .src c frame frame' newIp ipc newPort l4c)
    (hr' : RewritesEndpoint .dst c (mirrorAt c.ipOff c.l4Off frame') frame'' c.ip ipc' c.port l4c')
    {i : ℕ} (hi : i < frame.length) (hipc : ¬(c.ipOff + 10 ≤ i ∧ i < c.ipOff + 12))
    (hl4c : ¬(c.l4Off + c.l4.cksumOffset ≤ i ∧ i < c.l4Off + c.l4.cksumOffset + 2)) :
    byteAt frame'' i = byteAt (mirrorAt c.ipOff c.l4Off frame) i := by
  obtain ⟨h₁, h₂, h₃⟩ := h.offsets
  have hcksum := cksumOffset_headerLen c.l4
  have hk : ipCksumOffset = 10 := rfl
  have hsrc : Side.src.ipOffset = 12 ∧ Side.src.portOffset = 0 := ⟨rfl, rfl⟩
  have hdst : Side.dst.ipOffset = 16 ∧ Side.dst.portOffset = 2 := ⟨rfl, rfl⟩
  have hlen := hr.length_eq
  have hlen' := hr'.length_eq
  rw [length_mirrorAt] at hlen'
  have hfields := h.mirrorFields
  by_cases hip : c.ipOff + 16 ≤ i ∧ i < c.ipOff + 20
  · refine byteAt_eq_of_u32At_eq ?_ (by omega) (by rw [length_mirrorAt]; omega) hip
    exact hr'.ip_eq.trans (h.ip_eq.trans hfields.dst_eq.symm)
  by_cases hport : c.l4Off + 2 ≤ i ∧ i < c.l4Off + 4
  · refine byteAt_eq_of_u16At_eq ?_ (by omega) (by rw [length_mirrorAt]; omega) hport
    exact hr'.port_eq.trans (h.port_eq.trans hfields.dport_eq.symm)
  · -- elsewhere the byte comes from a place that the way out has not written either
    have hfrom : byteAt frame' (mirrorIndex c.ipOff c.l4Off i) =
        byteAt frame (mirrorIndex c.ipOff c.l4Off i) := by
      refine hr.unchanged _ ?_
      unfold Untouched mirrorIndex
      split_ifs <;> omega
    rw [hr'.unchanged i (by unfold Untouched; omega), byteAt_mirrorAt (by omega), hfrom,
      byteAt_mirrorAt hi]

/-- **There and back.** The checksums of a packet that goes out, is mirrored and comes back are
those of the mirrored packet. -/
theorem rewrite_mirror_rewrite (hc : classify .src frame = some c) (hlen : frame.length ≤ 65535)
    (hip : Ipv4ChecksumOk frame) (hl4 : L4ChecksumOk frame ∨ UdpChecksumDisabled frame)
    (newIp : Ipv4Addr) (newPort : UInt16) :
    rewrite .dst { c with ip := newIp, port := newPort } c.ip c.port
        (mirrorAt c.ipOff c.l4Off (rewrite .src c newIp newPort frame)) =
      mirrorAt c.ipOff c.l4Off frame := by
  obtain ⟨eth, ip, h⟩ := classify_inv hc
  have hr := h.rewrites newIp newPort
  have hout := translated_rewrite hc hlen newIp newPort
  set frame' := rewrite .src c newIp newPort frame
  have h' := h.views_sameLayout hr.sameLayout hr.ip_eq hr.port_eq
  have hlen' : frame'.length ≤ 65535 := by rw [hr.length_eq]; exact hlen
  obtain ⟨hlayout, hclass⟩ := h.classify_mirror_rewritten hr
  obtain ⟨eth', ip', hm⟩ := classify_inv hclass
  have hr' := hm.rewrites c.ip c.port
  have hback := translated_rewrite hclass (by rw [length_mirrorAt]; exact hlen') c.ip c.port
  set frame'' := rewrite .dst { c with ip := newIp, port := newPort } c.ip c.port
    (mirrorAt c.ipOff c.l4Off frame')
  have hlayout' : c.SameLayout frame frame'' :=
    hlayout.trans ⟨hr'.sameLayout.length_eq, hr'.sameLayout.unchanged⟩
  refine h.ext_of_checksums hlayout' h.sameLayout_mirrorAt
    (fun i hi hi' hi'' ↦ h.byteAt_there_and_back hr hr' hi hi' hi'') ?_ ?_ ?_
  · exact hback.ipv4_checksum (h'.ipv4ChecksumOk_mirrorAt hlen' (hout.ipv4_checksum hip))
  · exact h.ipv4ChecksumOk_mirrorAt hlen hip
  · rcases hl4 with hok | ⟨c', hc', hudp, hzero⟩
    · exact Or.inl ⟨hback.l4_checksum (h'.l4ChecksumOk_mirrorAt hlen' (hout.l4_checksum hok)),
        h.l4ChecksumOk_mirrorAt hlen hok⟩
    · obtain rfl : c = c' := Option.some.inj (hc.symm.trans hc')
      have hzero' : u16At (mirrorAt c.ipOff c.l4Off frame') (c.l4Off + udpCksumOffset) = 0 := by
        have hcopy := h'.mirrorFields.l4c_eq
        rw [hudp] at hcopy
        exact hcopy.trans (hout.udp_disabled hudp hzero)
      have hcopy := h.mirrorFields.l4c_eq
      rw [hudp] at hcopy ⊢
      exact Or.inr ((hback.udp_disabled hudp hzero').trans (hcopy.trans hzero).symm)

end Packet

/-- **Ingress undoes egress.** For a table reached by any calls, and a TCP or UDP frame of at most
65535 bytes with correct checksums, or with a disabled UDP checksum, that `translateEgress`
translates: after any further calls, `translateIngress` turns the mirror of the translated frame
into the mirror of the frame, and returns the source endpoint of the frame. -/
theorem ingress_undoes_egress {wanIp : Ipv4Addr} {lo hi : UInt16} {t₀ : NatTable}
    (h₀ : NatTable.new wanIp lo hi = some t₀) (ops later : List NatTable.Op) (frame : Bytes)
    (hlen : frame.length ≤ 65535) (hip : Ipv4ChecksumOk frame)
    (hl4 : L4ChecksumOk frame ∨ UdpChecksumDisabled frame) {x : Egress}
    (hx : (translateEgress frame (t₀.run ops)).2.2 = some x) :
    ∃ c, classify .src frame = some c ∧
      translateIngress (mirror (translateEgress frame (t₀.run ops)).1)
          (t₀.run (ops ++ [.translateEgress frame] ++ later)) =
        (mirror frame, some ⟨c.ip, c.port⟩) := by
  have hinv := NatTable.inv_run_of_new h₀ ops
  obtain ⟨c, hc, he, heq⟩ := translateEgress_eq_some hx
  obtain ⟨eth, ip, h⟩ := classify_inv hc
  have hr := h.rewrites x.newSrcIp x.newSrcPort
  refine ⟨c, hc, ?_⟩
  have hmirror : mirror (translateEgress frame (t₀.run ops)).1 =
      mirrorAt c.ipOff c.l4Off (rewrite .src c x.newSrcIp x.newSrcPort frame) := by
    rw [heq, mirror, h.classify_rewritten hr]
  -- the binding made on the way out is still there
  have hbound : (t₀.run (ops ++ [.translateEgress frame] ++ later)).ingress c.l4 x.newSrcPort =
      some (c.ip, c.port) := by
    have hafter : t₀.run (ops ++ [.translateEgress frame]) =
        ((t₀.run ops).egress c.l4 c.ip c.port).1 := by
      rw [NatTable.run, List.foldl_append]
      exact congrArg (fun r ↦ r.2.1) heq
    obtain ⟨hk, -⟩ := NatTable.lookup_of_egress_eq_some hinv he
    obtain ⟨hinv', hext⟩ := NatTable.inv_extends_run
      (NatTable.inv_run_of_new h₀ (ops ++ [.translateEgress frame])) later
    rw [NatTable.run, List.foldl_append]
    refine hinv'.ingress_eq_some_iff.2 (hext.fwd_le _ _ ?_)
    rw [hafter]
    exact hk
  rw [hmirror, translateIngress, (h.classify_mirror_rewritten hr).2]
  simp only [hbound]
  rw [rewrite_mirror_rewrite hc hlen hip hl4, mirror, hc]

/-- The answer to the sample datagram comes back while another host has had a port bound and the WAN
address has changed. -/
theorem ingress_undoes_egress_sampleUdpFrame :
    ∃ t₀, NatTable.new 0xcb007101 40000 40010 = some t₀ ∧
      translateIngress (mirror (translateEgress sampleUdpFrame (t₀.run [])).1)
          (t₀.run ([] ++ [.translateEgress sampleUdpFrame] ++
            [.egress .udp 0xc0a80103 5000, .setWanIp 0xcb007102])) =
        (mirror sampleUdpFrame, some ⟨0xc0a80102, 5000⟩) := by
  have hnew : NatTable.new 0xcb007101 40000 40010 =
      some ⟨0xcb007101, 40000, 40010, 40000, ∅, ∅⟩ := rfl
  refine ⟨_, hnew, ?_⟩
  obtain ⟨c, hc, hback⟩ := ingress_undoes_egress hnew []
    [.egress .udp 0xc0a80103 5000, .setWanIp 0xcb007102] sampleUdpFrame (by decide)
    ⟨0xa915, by decide +kernel⟩ (Or.inl ⟨0x115a, by decide +kernel⟩)
    (x := ⟨0xcb007101, 40000⟩) (by decide)
  have hc' : classify .src sampleUdpFrame = some ⟨14, 34, .udp, 0xc0a80102, 5000⟩ := by decide
  obtain rfl := Option.some.inj (hc.symm.trans hc')
  exact hback

end UserspaceRouter
