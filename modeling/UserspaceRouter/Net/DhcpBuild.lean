import UserspaceRouter.Net.Arp
import UserspaceRouter.Net.Dhcp

/-!
# Writing DHCP messages

The setters of the fixed header, and the writer of the options behind it. The writer owns a buffer
and the number of bytes used so far; a call appends one option or, where that does not fit, returns
`false` and changes nothing.

Written options are read back by the scan of the parser: `Options.get_encode` says that a getter
finds the first value written for its code, whatever follows the end marker.
-/

namespace UserspaceRouter

/-! ### The header -/

namespace DhcpHeader

/-- `op::BOOTREQUEST`. -/
def bootRequest : UInt8 := 1

/-- `op::BOOTREPLY`. -/
def bootReply : UInt8 := 2

/-- `DhcpHeader::MAGIC_COOKIE`. -/
def cookie : UInt32 := 0x63825363

/-- `DhcpHeader::default`: all zero. -/
def zero : DhcpHeader where
  op := 0
  htype := 0
  hlen := 0
  hops := 0
  xid := 0
  secs := 0
  flags := 0
  ciaddr := 0
  yiaddr := 0
  siaddr := 0
  giaddr := 0
  chaddr := List.replicate 16 0
  magicCookie := 0

def hasMagicCookie (h : DhcpHeader) : Bool := h.magicCookie == cookie

/-- The fixed fields of an Ethernet BOOTP frame. -/
def initEthernet (h : DhcpHeader) (op : UInt8) : DhcpHeader :=
  { h with op, htype := 1, hlen := 6, magicCookie := cookie }

def setXid (h : DhcpHeader) (v : UInt32) : DhcpHeader := { h with xid := v }

def setBroadcast (h : DhcpHeader) (on : Bool) : DhcpHeader :=
  { h with flags := if on then h.flags ||| broadcastFlag else h.flags &&& ~~~broadcastFlag }

def setYourIp (h : DhcpHeader) (addr : Ipv4Addr) : DhcpHeader := { h with yiaddr := addr }

def setServerIp (h : DhcpHeader) (addr : Ipv4Addr) : DhcpHeader := { h with siaddr := addr }

/-- The client hardware address and `hlen` from a MAC, with the rest of `chaddr` zero. -/
def setClientHardwareAddr (h : DhcpHeader) (mac : Bytes) : DhcpHeader :=
  let len := min mac.length h.chaddr.length
  { h with
    chaddr := writeAt (List.replicate h.chaddr.length 0) 0 (mac.take len)
    hlen := UInt8.ofNat len }

/-- The 240 bytes of a header with an empty server name and boot file. -/
def octets (h : DhcpHeader) : Bytes :=
  [h.op, h.htype, h.hlen, h.hops] ++ (u32ToBeBytes h.xid ++ (u16ToBeBytes h.secs ++
    (u16ToBeBytes h.flags ++ (h.ciaddr.octets ++ (h.yiaddr.octets ++ (h.siaddr.octets ++
      (h.giaddr.octets ++ (h.chaddr ++ (List.replicate 192 0 ++
        u32ToBeBytes h.magicCookie)))))))))

theorem length_octets {h : DhcpHeader} (hc : h.chaddr.length = 16) : h.octets.length = len := by
  simp only [octets, List.length_append, hc, List.length_replicate, length_u32ToBeBytes,
    length_u16ToBeBytes]
  rfl

/-- A header reads back, wherever it was written. -/
theorem readAt_octets {h : DhcpHeader} (hc : h.chaddr.length = 16) (pre rest : Bytes) :
    (Pod.readAt (pre ++ (h.octets ++ rest)) pre.length : DhcpHeader) = h := by
  have hchaddr : ∀ xs, slice (h.chaddr ++ xs) 0 16 = h.chaddr := by
    intro xs
    rw [slice, List.drop_zero, ← hc, List.take_left]
  -- behind `pre`, then field by field
  simp (disch := simp) only [Pod.readAt, byteAt_append_right, u16At_append_right,
    u32At_append_right, slice_append_right, Nat.sub_self, Nat.add_sub_cancel_left]
  simp (disch := simp -implicitDefEqProofs [hc, -List.reduceReplicate]) only [octets,
    List.append_assoc, u16At_append_right, u32At_append_right, slice_append_right,
    length_u16ToBeBytes, length_u32ToBeBytes, List.length_cons, List.length_nil,
    List.length_replicate, hc, u16At_toBeBytes, u32At_toBeBytes, hchaddr, Nat.reduceAdd,
    Nat.reduceSub]
  rfl

/-- The hardware address that was set is the one that is read. -/
theorem clientMac_setClientHardwareAddr {h : DhcpHeader} (hc : h.chaddr.length = 16)
    (mac : MacAddr) : (h.setClientHardwareAddr mac.octets).clientMac = mac ∧
      (h.setClientHardwareAddr mac.octets).chaddr.length = 16 := by
  have hchaddr : (h.setClientHardwareAddr mac.octets).chaddr =
      mac.octets ++ List.replicate 10 0 := by
    show writeAt (List.replicate h.chaddr.length 0) 0
      (mac.octets.take (min mac.octets.length h.chaddr.length)) = _
    rw [hc]
    rfl
  rw [clientMac, hchaddr]
  exact ⟨rfl, rfl⟩

end DhcpHeader

/-! ### The options writer -/

namespace DhcpOption

def dnsServer : UInt8 := 6
def parameterRequestList : UInt8 := 55

end DhcpOption

/-- The wire byte of a message type. -/
def MessageType.toU8 : MessageType → UInt8
  | discover => 1
  | offer => 2
  | request => 3
  | decline => 4
  | ack => 5
  | nak => 6
  | release => 7
  | inform => 8

theorem MessageType.fromU8_toU8 (t : MessageType) : fromU8 t.toU8 = some t := by
  cases t <;> rfl

/-- The region after the magic cookie, and how much of it has been used. -/
structure OptionsWriter where
  buf : Bytes
  len : ℕ
  len_le : len ≤ buf.length

namespace OptionsWriter

def new (buf : Bytes) : OptionsWriter := ⟨buf, 0, Nat.zero_le _⟩

/-- The bytes written so far. -/
def written (w : OptionsWriter) : Bytes := w.buf.take w.len

/-- Write `bs` behind what has been written, unless it does not fit. -/
def push (w : OptionsWriter) (bs : Bytes) : OptionsWriter × Bool :=
  if h : w.len + bs.length > w.buf.length then (w, false)
  else
    (⟨writeAt w.buf w.len bs, w.len + bs.length, by
      rw [length_writeAt (Nat.le_of_not_lt h)]; exact Nat.le_of_not_lt h⟩, true)

/-- Write one `code`/`value` option. Fails if `value` exceeds 255 bytes or the buffer is full. -/
def option (w : OptionsWriter) (code : UInt8) (value : Bytes) : OptionsWriter × Bool :=
  if value.length > 255 then (w, false)
  else w.push (code :: UInt8.ofNat value.length :: value)

def messageType (w : OptionsWriter) (t : MessageType) : OptionsWriter × Bool :=
  w.option DhcpOption.messageType [t.toU8]

def ipv4 (w : OptionsWriter) (code : UInt8) (addr : Ipv4Addr) : OptionsWriter × Bool :=
  w.option code addr.octets

def seconds (w : OptionsWriter) (code : UInt8) (secs : UInt32) : OptionsWriter × Bool :=
  w.option code (u32ToBeBytes secs)

/-- An option whose value is the octets of the addresses, one after the other. -/
def ipv4List (w : OptionsWriter) (code : UInt8) (addrs : List Ipv4Addr) : OptionsWriter × Bool :=
  let vlen := addrs.length * 4
  if vlen > 255 then (w, false)
  else w.push (code :: UInt8.ofNat vlen :: addrs.flatMap Ipv4Addr.octets)

/-- Emit the terminating end marker. -/
def end_ (w : OptionsWriter) : OptionsWriter × Bool := w.push [DhcpOption.end_]

/-- The left side of a short-circuiting `&&`: go on only after a call that returned `true`. -/
def ok (p : OptionsWriter × Bool) : Option OptionsWriter := if p.2 then some p.1 else none

/-- `w'` is `w` with `bs` written behind what was there. -/
structure Wrote (w : OptionsWriter) (bs : Bytes) (w' : OptionsWriter) : Prop where
  size_eq : w'.buf.length = w.buf.length
  written_eq : w'.written = w.written ++ bs

theorem length_written (w : OptionsWriter) : w.written.length = w.len := by
  rw [written, List.length_take, Nat.min_eq_left w.len_le]

theorem Wrote.refl (w : OptionsWriter) : Wrote w [] w := ⟨rfl, (List.append_nil _).symm⟩

theorem Wrote.trans {w w' w'' : OptionsWriter} {bs bs' : Bytes} (h : Wrote w bs w')
    (h' : Wrote w' bs' w'') : Wrote w (bs ++ bs') w'' :=
  ⟨h'.size_eq.trans h.size_eq, by rw [h'.written_eq, h.written_eq, List.append_assoc]⟩

/-- **One write**: it succeeds exactly if it fits, and then appends. -/
theorem ok_push (w : OptionsWriter) (bs : Bytes) :
    (w.buf.length < w.written.length + bs.length ∧ ok (w.push bs) = none) ∨
      (w.written.length + bs.length ≤ w.buf.length ∧ ∃ w', ok (w.push bs) = some w' ∧
        Wrote w bs w') := by
  rw [length_written]
  by_cases h : w.len + bs.length > w.buf.length
  · exact Or.inl ⟨h, by simp [ok, push, h]⟩
  · have hle := Nat.le_of_not_lt h
    set w' : OptionsWriter := ⟨writeAt w.buf w.len bs, w.len + bs.length, by
      rw [length_writeAt hle]; exact hle⟩ with hw'
    have hpush : w.push bs = (w', true) := dif_neg h
    have hlen : (w.buf.take w.len ++ bs).length = w.len + bs.length := by
      rw [List.length_append, List.length_take, Nat.min_eq_left w.len_le]
    have hwritten : w'.written = w.written ++ bs := by
      show (writeAt w.buf w.len bs).take (w.len + bs.length) = w.buf.take w.len ++ bs
      rw [writeAt, List.take_left' hlen]
    exact Or.inr ⟨hle, w', by rw [hpush]; rfl, length_writeAt hle, hwritten⟩

end OptionsWriter

/-! ### Options on the wire -/

namespace Options

/-- The bytes of a list of options, without an end marker. -/
def encode (opts : List (UInt8 × Bytes)) : Bytes :=
  opts.flatMap fun o ↦ o.1 :: UInt8.ofNat o.2.length :: o.2

/-- The option can be written: its code is neither padding nor the end marker, and its length fits
in a byte. -/
def Writable (o : UInt8 × Bytes) : Prop :=
  o.1 ≠ DhcpOption.pad ∧ o.1 ≠ DhcpOption.end_ ∧ o.2.length ≤ 255

instance (o : UInt8 × Bytes) : Decidable (Writable o) := inferInstanceAs (Decidable (_ ∧ _ ∧ _))

/-- The iterator yields the option it stands at. -/
theorem next_encode {o : UInt8 × Bytes} (h : Writable o) (rest : Bytes) :
    OptionsIter.next (o.1 :: UInt8.ofNat o.2.length :: (o.2 ++ rest)) = some (o, rest) := by
  have hlen : (UInt8.ofNat o.2.length).toNat = o.2.length :=
    UInt8.toNat_ofNat_of_lt (Nat.lt_succ_of_le h.2.2)
  rw [OptionsIter.next.eq_def]
  simp only [if_neg h.1, if_neg h.2.1, hlen, List.length_append]
  rw [if_neg (by omega), List.take_left, List.drop_left]

theorem get_of_next {bytes tail : Bytes} {o : UInt8 × Bytes} (code : UInt8)
    (h : OptionsIter.next bytes = some (o, tail)) :
    get bytes code = if o.1 = code then some o.2 else get tail code := by
  rw [get.eq_def]
  split
  · next hnone => exact absurd (h.symm.trans hnone) (by simp)
  · next c v tail' hsome =>
    obtain ⟨rfl, rfl⟩ := Prod.mk.inj (Option.some.inj (h.symm.trans hsome))
    rfl

theorem get_end (code : UInt8) (rest : Bytes) : get (DhcpOption.end_ :: rest) code = none := by
  have hnext : OptionsIter.next (DhcpOption.end_ :: rest) = none := by
    rw [OptionsIter.next.eq_def]
    simp [DhcpOption.pad, DhcpOption.end_]
  rw [get.eq_def]
  split
  · rfl
  · next hsome => exact absurd (hnext.symm.trans hsome) (by simp)

theorem encode_cons_append (o : UInt8 × Bytes) (opts : List (UInt8 × Bytes)) (rest : Bytes) :
    encode (o :: opts) ++ rest =
      o.1 :: UInt8.ofNat o.2.length :: (o.2 ++ (encode opts ++ rest)) := by
  simp [encode]

/-- **Written options read back**: a getter finds the first value written for its code. -/
theorem get_encode {opts : List (UInt8 × Bytes)} (h : ∀ o ∈ opts, Writable o) (code : UInt8)
    (rest : Bytes) : get (encode opts ++ DhcpOption.end_ :: rest) code =
      (opts.find? fun o ↦ o.1 = code).map Prod.snd := by
  induction opts with
  | nil => exact get_end code rest
  | cons o opts ih =>
    obtain ⟨ho, hopts⟩ := List.forall_mem_cons.1 h
    rw [encode_cons_append, get_of_next code (next_encode ho _), ih hopts]
    by_cases hcode : o.1 = code
    · rw [if_pos hcode, List.find?_cons_of_pos (by simpa using hcode)]
      rfl
    · rw [if_neg hcode, List.find?_cons_of_neg (by simpa using hcode)]

end Options

namespace OptionsWriter

theorem length_flatMap_octets (addrs : List Ipv4Addr) :
    (addrs.flatMap Ipv4Addr.octets).length = addrs.length * 4 := by
  induction addrs with
  | nil => rfl
  | cons a addrs ih =>
    rw [List.flatMap_cons, List.length_append, ih, length_u32ToBeBytes, List.length_cons]
    omega

/-- An address list is an option like any other. -/
theorem ipv4List_eq_option (w : OptionsWriter) (code : UInt8) (addrs : List Ipv4Addr) :
    w.ipv4List code addrs = w.option code (addrs.flatMap Ipv4Addr.octets) := by
  simp only [ipv4List, option, length_flatMap_octets]

/-- One option after the other, up to the first that does not fit. -/
def writeAll (w : OptionsWriter) (opts : List (UInt8 × Bytes)) : Option OptionsWriter :=
  opts.foldlM (fun w o ↦ ok (w.option o.1 o.2)) w

@[simp] theorem writeAll_nil (w : OptionsWriter) : w.writeAll [] = some w := rfl

@[simp] theorem writeAll_cons (w : OptionsWriter) (o : UInt8 × Bytes)
    (opts : List (UInt8 × Bytes)) :
    w.writeAll (o :: opts) = (ok (w.option o.1 o.2)).bind fun w ↦ w.writeAll opts := rfl

/-- The options can be written into a buffer with `room` bytes left. -/
def Fit (opts : List (UInt8 × Bytes)) (room : ℕ) : Prop :=
  (∀ o ∈ opts, o.2.length ≤ 255) ∧ (Options.encode opts).length ≤ room

instance (opts : List (UInt8 × Bytes)) (room : ℕ) : Decidable (Fit opts room) :=
  inferInstanceAs (Decidable (_ ∧ _))

/-- **A sequence of options** is written completely exactly if it fits. -/
theorem writeAll_cases (w : OptionsWriter) (opts : List (UInt8 × Bytes)) :
    (¬Fit opts (w.buf.length - w.written.length) ∧ w.writeAll opts = none) ∨
      (Fit opts (w.buf.length - w.written.length) ∧
        ∃ w', w.writeAll opts = some w' ∧ Wrote w (Options.encode opts) w') := by
  induction opts generalizing w with
  | nil => exact Or.inr ⟨⟨by simp, Nat.zero_le _⟩, w, rfl, Wrote.refl w⟩
  | cons o opts ih =>
    set bs : Bytes := o.1 :: UInt8.ofNat o.2.length :: o.2 with hbs
    have hencode : Options.encode (o :: opts) = bs ++ Options.encode opts := by
      simp [Options.encode, hbs]
    have hused : w.written.length ≤ w.buf.length := by
      rw [length_written]
      exact w.len_le
    rw [Fit, List.forall_mem_cons, hencode, writeAll_cons, List.length_append, option]
    by_cases ho : o.2.length > 255
    · rw [if_pos ho]
      exact Or.inl ⟨fun h ↦ absurd h.1.1 (Nat.not_le.2 ho), rfl⟩
    · rw [if_neg ho]
      rcases ok_push w bs with ⟨hfull, hnone⟩ | ⟨hroom, w', hsome, hwrote⟩
      · refine Or.inl ⟨fun h ↦ ?_, ?_⟩
        · have := h.2
          omega
        · rw [hnone]
          rfl
      · have hlen : w'.written.length = w.written.length + bs.length := by
          rw [hwrote.written_eq, List.length_append]
        have hih := ih w'
        rw [Fit, hwrote.size_eq, hlen] at hih
        rw [hsome, Option.bind_some]
        rcases hih with ⟨hfull, hnone⟩ | ⟨⟨hopts, hle⟩, w'', hsome', hwrote'⟩
        · refine Or.inl ⟨fun h ↦ hfull ⟨h.1.2, ?_⟩, hnone⟩
          have := h.2
          omega
        · refine Or.inr ⟨⟨⟨Nat.le_of_not_lt ho, hopts⟩, ?_⟩, w'', hsome', hwrote.trans hwrote'⟩
          omega

/-- Options and the end marker, in a fresh buffer. -/
theorem writeAll_end (opts : List (UInt8 × Bytes)) (buf : Bytes) (hbuf : 0 < buf.length) :
    (((new buf).writeAll opts).bind fun w ↦ ok w.end_).map written =
      if Fit opts (buf.length - 1) then some (Options.encode opts ++ [DhcpOption.end_])
      else none := by
  have hnew : (new buf).written = [] := rfl
  have hsize : (new buf).buf = buf := rfl
  have hcases := writeAll_cases (new buf) opts
  rw [hnew, hsize, List.length_nil, Nat.sub_zero] at hcases
  rcases hcases with ⟨hfull, hnone⟩ | ⟨⟨hopts, hle⟩, w, hsome, hwrote⟩
  · have hnot : ¬Fit opts (buf.length - 1) := fun h ↦ hfull ⟨h.1, by have := h.2; omega⟩
    rw [hnone, if_neg hnot]
    rfl
  · have hroom : w.buf.length = buf.length := hwrote.size_eq
    have hwritten : w.written = Options.encode opts := by
      rw [hwrote.written_eq, hnew, List.nil_append]
    rw [hsome, Option.bind_some, end_]
    rcases ok_push w [DhcpOption.end_] with ⟨hfull, hnone⟩ | ⟨hend, w', hsome', hwrote'⟩
    · rw [hwritten, hroom, List.length_singleton] at hfull
      have hnot : ¬Fit opts (buf.length - 1) := fun h ↦ by have := h.2; omega
      rw [hnone, if_neg hnot]
      rfl
    · rw [hwritten, hroom, List.length_singleton] at hend
      have hfit : Fit opts (buf.length - 1) := ⟨hopts, by omega⟩
      rw [hsome', if_pos hfit, Option.map_some, hwrote'.written_eq, hwritten]

end OptionsWriter

namespace Options

theorem optIpv4_octets (a : Ipv4Addr) : optIpv4 a.octets = some a :=
  congrArg some (u32FromBeBytes_toBeBytes a)

theorem optSeconds_toBeBytes (v : UInt32) : optSeconds (u32ToBeBytes v) = some v :=
  congrArg some (u32FromBeBytes_toBeBytes v)

theorem head?_ipv4List_octets (a : Ipv4Addr) : (ipv4List a.octets).head? = some a :=
  congrArg some (u32FromBeBytes_toBeBytes a)

end Options

end UserspaceRouter
