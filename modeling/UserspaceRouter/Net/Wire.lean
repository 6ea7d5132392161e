import Mathlib.Data.List.GetD
import Mathlib.Tactic.SplitIfs

/-!
# Packet bytes and the integers stored in them

A packet buffer is the list of its bytes. Multi-byte fields are big-endian, read at any offset;
a header is a `Pod`: a size together with a reading of that many bytes in place.

Reading a byte is total, with the value `0` past the end of the buffer. Nothing in the code ever
reads there: every header is reached through `headerAt`, which first checks that the whole header
fits, and every other access is bounded by an offset a view has validated. Keeping the reading
total is what lets the field equations be equations between numbers instead of between options.

Writing a slice in place, `writeAt`, is characterised by `byteAt_writeAt`: the written bytes inside
the slice, the old bytes outside. Every statement of the form "only these bytes change" in this
development is an instance of it.
-/

namespace UserspaceRouter

/-- The bytes of a packet, first transmitted byte first. -/
abbrev Bytes := List UInt8

/-- The byte at an offset. -/
def byteAt (buf : Bytes) (off : ℕ) : UInt8 :=
  buf.getD off 0

/-- `copy_from_slice` of `bs` onto the slice of `buf` that starts at `off`. -/
def writeAt (buf : Bytes) (off : ℕ) (bs : Bytes) : Bytes :=
  buf.take off ++ bs ++ buf.drop (off + bs.length)

theorem length_writeAt {buf bs : Bytes} {off : ℕ} (h : off + bs.length ≤ buf.length) :
    (writeAt buf off bs).length = buf.length := by
  simp only [writeAt, List.length_append, List.length_take, List.length_drop]
  omega

/-- **The frame equation of a write.** -/
theorem byteAt_writeAt {buf bs : Bytes} {off : ℕ} (h : off + bs.length ≤ buf.length) (i : ℕ) :
    byteAt (writeAt buf off bs) i =
      if off ≤ i ∧ i < off + bs.length then byteAt bs (i - off) else byteAt buf i := by
  have htake : (buf.take off).length = off := by
    rw [List.length_take]
    omega
  simp only [byteAt, writeAt, List.getD_eq_getElem?_getD]
  split_ifs with hi
  · rw [List.getElem?_append_left (by rw [List.length_append, htake]; omega),
      List.getElem?_append_right (by omega), htake]
  · rcases Nat.lt_or_ge i off with hlt | hge
    · rw [List.getElem?_append_left (by rw [List.length_append, htake]; omega),
        List.getElem?_append_left (by omega), List.getElem?_take_of_lt hlt]
    · rw [List.getElem?_append_right (by rw [List.length_append, htake]; omega),
        List.length_append, htake, List.getElem?_drop]
      congr 2
      omega

/-- Two writes side by side are one. -/
theorem writeAt_writeAt_append {buf : Bytes} {off : ℕ} (h : off ≤ buf.length) (bs bs' : Bytes) :
    writeAt (writeAt buf off bs) (off + bs.length) bs' = writeAt buf off (bs ++ bs') := by
  have hlen : (buf.take off ++ bs).length = off + bs.length := by
    rw [List.length_append, List.length_take, Nat.min_eq_left h]
  have hdrop : (writeAt buf off bs).drop (off + bs.length + bs'.length) =
      buf.drop (off + (bs ++ bs').length) := by
    rw [writeAt, ← List.drop_drop, List.drop_left' hlen, List.drop_drop, List.length_append,
      Nat.add_assoc]
  rw [writeAt, hdrop, writeAt, List.take_left' hlen, writeAt, List.append_assoc (buf.take off)]

/-- Buffers are equal when they have the same length and the same bytes. -/
theorem bytes_ext {buf buf' : Bytes} (hlen : buf.length = buf'.length)
    (h : ∀ i, i < buf.length → byteAt buf i = byteAt buf' i) : buf = buf' := by
  apply List.ext_getElem hlen
  intro i hi hi'
  have hb := h i hi
  rwa [byteAt, byteAt, List.getD_eq_getElem _ _ hi, List.getD_eq_getElem _ _ hi'] at hb

/-- Writes side by side may be made in either order. -/
theorem writeAt_comm {buf bs bs' : Bytes} {off off' : ℕ} (h : off + bs.length ≤ buf.length)
    (h' : off' + bs'.length ≤ buf.length)
    (hdisj : off + bs.length ≤ off' ∨ off' + bs'.length ≤ off) :
    writeAt (writeAt buf off bs) off' bs' = writeAt (writeAt buf off' bs') off bs := by
  have hlen := length_writeAt h
  have hlen' := length_writeAt h'
  apply bytes_ext
  · rw [length_writeAt (by omega), hlen, length_writeAt (by omega), hlen']
  · intro i _
    rw [byteAt_writeAt (by omega), byteAt_writeAt h, byteAt_writeAt (by omega), byteAt_writeAt h']
    split_ifs
    · omega
    all_goals rfl

/-- The slice `buf[a..b]`. -/
def slice (buf : Bytes) (a b : ℕ) : Bytes := (buf.take b).drop a

theorem length_slice {buf : Bytes} {a b : ℕ} (h : b ≤ buf.length) :
    (slice buf a b).length = b - a := by
  rw [slice, List.length_drop, List.length_take, Nat.min_eq_left h]

theorem byteAt_slice {buf : Bytes} {a b i : ℕ} (h : a + i < b) :
    byteAt (slice buf a b) i = byteAt buf (a + i) := by
  simp only [byteAt, slice, List.getD_eq_getElem?_getD, List.getElem?_drop]
  rw [List.getElem?_take_of_lt h]

/-- A write leaves alone what is beside it. -/
theorem slice_writeAt_of_disjoint {buf bs : Bytes} {off a b : ℕ}
    (h : off + bs.length ≤ buf.length) (hb : b ≤ buf.length)
    (hdisj : off + bs.length ≤ a ∨ b ≤ off) : slice (writeAt buf off bs) a b = slice buf a b := by
  have hlen := length_writeAt h
  have hb' : b ≤ (writeAt buf off bs).length := by omega
  apply bytes_ext
  · rw [length_slice hb', length_slice hb]
  · intro i hi
    rw [length_slice hb'] at hi
    rw [byteAt_slice (by omega), byteAt_slice (by omega), byteAt_writeAt h, if_neg (by omega)]

/-- Two slices side by side. -/
theorem slice_append_slice {buf : Bytes} {a b d : ℕ} (hab : a ≤ b) (hbd : b ≤ d)
    (hd : d ≤ buf.length) : slice buf a b ++ slice buf b d = slice buf a d := by
  have hle : a ≤ (buf.take b).length := by
    rw [List.length_take]
    omega
  have htake : (buf.take d).take b = buf.take b := by
    rw [List.take_take, Nat.min_eq_left hbd]
  calc slice buf a b ++ slice buf b d
      = (buf.take b ++ (buf.take d).drop b).drop a := (List.drop_append_of_le_length hle).symm
    _ = ((buf.take d).take b ++ (buf.take d).drop b).drop a := by rw [htake]
    _ = slice buf a d := by rw [List.take_append_drop, slice]

/-- Splitting a buffer around a slice. -/
theorem take_append_slice_append_drop (buf : Bytes) {a b : ℕ} (h : a ≤ b) :
    buf.take a ++ slice buf a b ++ buf.drop b = buf := by
  have htake : buf.take a = (buf.take b).take a := by
    rw [List.take_take, Nat.min_eq_left h]
  rw [slice, htake, List.take_append_drop, List.take_append_drop]

/-! ### Big-endian integers -/

/-- `u16::from_be_bytes`. -/
def u16FromBeBytes (hi lo : UInt8) : UInt16 :=
  UInt16.ofNat (hi.toNat * 256 + lo.toNat)

/-- `u16::to_be_bytes`. -/
def u16ToBeBytes (v : UInt16) : Bytes :=
  [UInt8.ofNat (v.toNat / 256), UInt8.ofNat (v.toNat % 256)]

/-- `u32::from_be_bytes`. -/
def u32FromBeBytes (a b c d : UInt8) : UInt32 :=
  UInt32.ofNat (a.toNat * 16777216 + b.toNat * 65536 + c.toNat * 256 + d.toNat)

/-- `u32::to_be_bytes`. -/
def u32ToBeBytes (v : UInt32) : Bytes :=
  [UInt8.ofNat (v.toNat / 16777216), UInt8.ofNat (v.toNat / 65536 % 256),
    UInt8.ofNat (v.toNat / 256 % 256), UInt8.ofNat (v.toNat % 256)]

@[simp] theorem length_u16ToBeBytes (v : UInt16) : (u16ToBeBytes v).length = 2 := rfl

@[simp] theorem length_u32ToBeBytes (v : UInt32) : (u32ToBeBytes v).length = 4 := rfl

theorem toNat_u16FromBeBytes (hi lo : UInt8) :
    (u16FromBeBytes hi lo).toNat = hi.toNat * 256 + lo.toNat := by
  have h₁ := hi.toNat_lt
  have h₂ := lo.toNat_lt
  rw [u16FromBeBytes, UInt16.toNat_ofNat']
  omega

theorem toNat_u32FromBeBytes (a b c d : UInt8) :
    (u32FromBeBytes a b c d).toNat =
      a.toNat * 16777216 + b.toNat * 65536 + c.toNat * 256 + d.toNat := by
  have h₁ := a.toNat_lt
  have h₂ := b.toNat_lt
  have h₃ := c.toNat_lt
  have h₄ := d.toNat_lt
  rw [u32FromBeBytes, UInt32.toNat_ofNat']
  omega

/-- The big-endian `u16` stored at an offset. -/
def u16At (buf : Bytes) (off : ℕ) : UInt16 :=
  u16FromBeBytes (byteAt buf off) (byteAt buf (off + 1))

/-- The big-endian `u32` stored at an offset. -/
def u32At (buf : Bytes) (off : ℕ) : UInt32 :=
  u32FromBeBytes (byteAt buf off) (byteAt buf (off + 1)) (byteAt buf (off + 2))
    (byteAt buf (off + 3))

/-- A `u16` written in place is read back. -/
theorem u16At_writeAt {buf : Bytes} {off : ℕ} (v : UInt16) (h : off + 2 ≤ buf.length) :
    u16At (writeAt buf off (u16ToBeBytes v)) off = v := by
  have hv := v.toNat_lt
  rw [u16At, byteAt_writeAt (by simpa using h), byteAt_writeAt (by simpa using h),
    if_pos (by simp), if_pos (by simp), Nat.sub_self, Nat.add_sub_cancel_left]
  apply UInt16.toNat.inj
  rw [toNat_u16FromBeBytes]
  show (UInt8.ofNat (v.toNat / 256)).toNat * 256 + (UInt8.ofNat (v.toNat % 256)).toNat = v.toNat
  rw [UInt8.toNat_ofNat', UInt8.toNat_ofNat']
  omega

/-- A `u32` written in place is read back. -/
theorem u32At_writeAt {buf : Bytes} {off : ℕ} (v : UInt32) (h : off + 4 ≤ buf.length) :
    u32At (writeAt buf off (u32ToBeBytes v)) off = v := by
  have hv := v.toNat_lt
  rw [u32At, byteAt_writeAt (by simpa using h), byteAt_writeAt (by simpa using h),
    byteAt_writeAt (by simpa using h), byteAt_writeAt (by simpa using h),
    if_pos (by simp), if_pos (by simp), if_pos (by simp), if_pos (by simp), Nat.sub_self,
    Nat.add_sub_cancel_left, Nat.add_sub_cancel_left, Nat.add_sub_cancel_left]
  apply UInt32.toNat.inj
  rw [toNat_u32FromBeBytes]
  show (UInt8.ofNat (v.toNat / 16777216)).toNat * 16777216 +
      (UInt8.ofNat (v.toNat / 65536 % 256)).toNat * 65536 +
      (UInt8.ofNat (v.toNat / 256 % 256)).toNat * 256 + (UInt8.ofNat (v.toNat % 256)).toNat =
    v.toNat
  simp only [UInt8.toNat_ofNat']
  omega

/-- The two bytes of a `u16` field are the bytes of its value. -/
theorem slice_eq_u16ToBeBytes {buf : Bytes} {off : ℕ} (h : off + 2 ≤ buf.length) :
    slice buf off (off + 2) = u16ToBeBytes (u16At buf off) := by
  have h₀ := (byteAt buf off).toNat_lt
  have h₁ := (byteAt buf (off + 1)).toNat_lt
  apply bytes_ext
  · rw [length_slice h, length_u16ToBeBytes]
    omega
  · intro i hi
    rw [length_slice h] at hi
    rw [byteAt_slice (by omega)]
    apply UInt8.toNat.inj
    obtain rfl | rfl : i = 0 ∨ i = 1 := by omega
    · show _ = (UInt8.ofNat ((u16At buf off).toNat / 256)).toNat
      rw [u16At, toNat_u16FromBeBytes, UInt8.toNat_ofNat', Nat.add_zero]
      omega
    · show _ = (UInt8.ofNat ((u16At buf off).toNat % 256)).toNat
      rw [u16At, toNat_u16FromBeBytes, UInt8.toNat_ofNat']
      omega

/-- The four bytes of a `u32` field are the bytes of its value. -/
theorem slice_eq_u32ToBeBytes {buf : Bytes} {off : ℕ} (h : off + 4 ≤ buf.length) :
    slice buf off (off + 4) = u32ToBeBytes (u32At buf off) := by
  have h₀ := (byteAt buf off).toNat_lt
  have h₁ := (byteAt buf (off + 1)).toNat_lt
  have h₂ := (byteAt buf (off + 2)).toNat_lt
  have h₃ := (byteAt buf (off + 3)).toNat_lt
  apply bytes_ext
  · rw [length_slice h, length_u32ToBeBytes]
    omega
  · intro i hi
    rw [length_slice h] at hi
    rw [byteAt_slice (by omega)]
    apply UInt8.toNat.inj
    obtain rfl | rfl | rfl | rfl : i = 0 ∨ i = 1 ∨ i = 2 ∨ i = 3 := by omega
    · show _ = (UInt8.ofNat ((u32At buf off).toNat / 16777216)).toNat
      rw [u32At, toNat_u32FromBeBytes, UInt8.toNat_ofNat', Nat.add_zero]
      omega
    · show _ = (UInt8.ofNat ((u32At buf off).toNat / 65536 % 256)).toNat
      rw [u32At, toNat_u32FromBeBytes, UInt8.toNat_ofNat']
      omega
    · show _ = (UInt8.ofNat ((u32At buf off).toNat / 256 % 256)).toNat
      rw [u32At, toNat_u32FromBeBytes, UInt8.toNat_ofNat']
      omega
    · show _ = (UInt8.ofNat ((u32At buf off).toNat % 256)).toNat
      rw [u32At, toNat_u32FromBeBytes, UInt8.toNat_ofNat']
      omega

/-- Two buffers that agree on the two bytes of a field hold the same `u16` there. -/
theorem u16At_congr {buf buf' : Bytes} {off : ℕ}
    (h : ∀ i, off ≤ i → i < off + 2 → byteAt buf i = byteAt buf' i) :
    u16At buf off = u16At buf' off := by
  rw [u16At, u16At, h off (by omega) (by omega), h (off + 1) (by omega) (by omega)]

theorem u32At_congr {buf buf' : Bytes} {off : ℕ}
    (h : ∀ i, off ≤ i → i < off + 4 → byteAt buf i = byteAt buf' i) :
    u32At buf off = u32At buf' off := by
  rw [u32At, u32At, h off (by omega) (by omega), h (off + 1) (by omega) (by omega),
    h (off + 2) (by omega) (by omega), h (off + 3) (by omega) (by omega)]

/-- A field that a write does not touch keeps its value. -/
theorem u16At_writeAt_of_disjoint {buf bs : Bytes} {off o : ℕ} (h : off + bs.length ≤ buf.length)
    (hd : o + 2 ≤ off ∨ off + bs.length ≤ o) : u16At (writeAt buf off bs) o = u16At buf o :=
  u16At_congr fun i hi hi' ↦ by rw [byteAt_writeAt h, if_neg (by omega)]

theorem u32At_writeAt_of_disjoint {buf bs : Bytes} {off o : ℕ} (h : off + bs.length ≤ buf.length)
    (hd : o + 4 ≤ off ∨ off + bs.length ≤ o) : u32At (writeAt buf off bs) o = u32At buf o :=
  u32At_congr fun i hi hi' ↦ by rw [byteAt_writeAt h, if_neg (by omega)]

theorem u16FromBeBytes_toBeBytes (v : UInt16) :
    u16FromBeBytes (UInt8.ofNat (v.toNat / 256)) (UInt8.ofNat (v.toNat % 256)) = v := by
  have hv := v.toNat_lt
  apply UInt16.toNat.inj
  rw [toNat_u16FromBeBytes, UInt8.toNat_ofNat', UInt8.toNat_ofNat']
  omega

theorem u32FromBeBytes_toBeBytes (v : UInt32) :
    u32FromBeBytes (UInt8.ofNat (v.toNat / 16777216)) (UInt8.ofNat (v.toNat / 65536 % 256))
      (UInt8.ofNat (v.toNat / 256 % 256)) (UInt8.ofNat (v.toNat % 256)) = v := by
  have hv := v.toNat_lt
  apply UInt32.toNat.inj
  rw [toNat_u32FromBeBytes, UInt8.toNat_ofNat', UInt8.toNat_ofNat', UInt8.toNat_ofNat',
    UInt8.toNat_ofNat']
  omega

/-! ### Reading a sequence of fields

A header written field after field is read back by stepping over the fields before each one. The
side conditions are inequalities between numerals. -/

theorem byteAt_append_right {pre xs : Bytes} {i : ℕ} (h : pre.length ≤ i) :
    byteAt (pre ++ xs) i = byteAt xs (i - pre.length) :=
  List.getD_append_right _ _ _ _ h

theorem u16At_append_right {pre xs : Bytes} {i : ℕ} (h : pre.length ≤ i) :
    u16At (pre ++ xs) i = u16At xs (i - pre.length) := by
  rw [u16At, u16At, byteAt_append_right h, byteAt_append_right (Nat.le_add_right_of_le h),
    Nat.sub_add_comm h]

theorem u32At_append_right {pre xs : Bytes} {i : ℕ} (h : pre.length ≤ i) :
    u32At (pre ++ xs) i = u32At xs (i - pre.length) := by
  have hstep : ∀ k, byteAt (pre ++ xs) (i + k) = byteAt xs (i - pre.length + k) := by
    intro k
    rw [byteAt_append_right (Nat.le_add_right_of_le h), Nat.sub_add_comm h]
  rw [u32At, u32At, byteAt_append_right h, hstep, hstep, hstep]

theorem slice_append_right {pre xs : Bytes} {a b : ℕ} (ha : pre.length ≤ a) (hb : pre.length ≤ b) :
    slice (pre ++ xs) a b = slice xs (a - pre.length) (b - pre.length) := by
  have htake : (pre ++ xs).take b = pre ++ xs.take (b - pre.length) := by
    rw [List.take_append, List.take_of_length_le hb]
  rw [slice, slice, htake, List.drop_append, List.drop_of_length_le ha, List.nil_append]

@[simp] theorem u16At_toBeBytes (v : UInt16) (xs : Bytes) : u16At (u16ToBeBytes v ++ xs) 0 = v :=
  u16FromBeBytes_toBeBytes v

@[simp] theorem u32At_toBeBytes (v : UInt32) (xs : Bytes) : u32At (u32ToBeBytes v ++ xs) 0 = v :=
  u32FromBeBytes_toBeBytes v

/-! ### Headers read in place -/

/-- A header type that is reinterpreted directly from packet bytes. -/
class Pod (T : Type) where
  /-- `size_of::<T>()`. -/
  size : ℕ
  /-- The header whose first byte is at the given offset. -/
  readAt : Bytes → ℕ → T

/-- Cast the bytes of `buf` starting at `off` to `T`, if they fit. -/
def headerAt (T : Type) [Pod T] (buf : Bytes) (off : ℕ) : Option T :=
  if off + Pod.size T ≤ buf.length then some (Pod.readAt buf off) else none

theorem headerAt_eq_some_iff {T : Type} [Pod T] {buf : Bytes} {off : ℕ} {t : T} :
    headerAt T buf off = some t ↔ off + Pod.size T ≤ buf.length ∧ Pod.readAt buf off = t := by
  unfold headerAt
  split_ifs with h <;> simp [h]

end UserspaceRouter
