import Mathlib.Algebra.Group.Nat.Even
import UserspaceRouter.Foundations.OnesComplement
import UserspaceRouter.Net.Headers

/-!
# The Internet checksum

The software checksum of packet construction and of incremental NAT fixups: a 32-bit accumulator of
16-bit big-endian words, whose carries are folded back at the end.

`wordSum` is what the accumulator accumulates, as a number. On data short enough for 32 bits not to
overflow, and 65535 bytes are, each function of the code is then an equation in one's-complement
arithmetic: `toNat_fold` and `toNat_finish` for the folding, `toNat_accumulate` for the loop over
the data, `toNat_update` for the incremental update.
-/

namespace UserspaceRouter

namespace Checksum

open OnesComplement

/-! ### The code -/

theorem toNat_low (acc : UInt32) : (acc &&& (0xffff : UInt32)).toNat = acc.toNat % 65536 := by
  rw [UInt32.toNat_and]
  exact Nat.and_two_pow_sub_one_eq_mod acc.toNat 16

theorem toNat_high (acc : UInt32) : (acc >>> 16).toNat = acc.toNat / 65536 := by
  rw [UInt32.toNat_shiftRight]
  exact Nat.shiftRight_eq_div_pow acc.toNat 16

theorem toNat_carry (acc : UInt32) :
    ((acc &&& (0xffff : UInt32)) + (acc >>> 16)).toNat = acc.toNat % 65536 + acc.toNat / 65536 := by
  have hlt := acc.toNat_lt
  rw [UInt32.toNat_add, toNat_low, toNat_high]
  omega

theorem shiftRight_eq_zero_iff (acc : UInt32) : acc >>> 16 = 0 ↔ acc.toNat / 65536 = 0 := by
  rw [← UInt32.toNat_inj, toNat_high, UInt32.toNat_zero]

/-- Fold a 32-bit accumulator of 16-bit one's-complement sums down to 16 bits. -/
def fold (acc : UInt32) : UInt16 :=
  if acc >>> 16 ≠ 0 then fold ((acc &&& (0xffff : UInt32)) + (acc >>> 16))
  else acc.toUInt16
termination_by acc.toNat
decreasing_by
  rename_i h
  rw [toNat_carry]
  exact carry_lt (m := 65535) (by omega) (by rwa [Ne, shiftRight_eq_zero_iff] at h)

/-- Add `data`, as big-endian 16-bit words, into a running sum. A trailing odd byte is padded with
a zero low byte. -/
def accumulate (acc : UInt32) : Bytes → UInt32
  | hi :: lo :: rest => accumulate (acc + (u16FromBeBytes hi lo).toUInt32) rest
  | [last] => acc + (u16FromBeBytes last 0).toUInt32
  | [] => acc

/-- Final checksum from an accumulator: fold the carries, then one's-complement. -/
def finish (acc : UInt32) : UInt16 := ~~~fold acc

/-- Internet checksum over a single contiguous buffer. -/
def checksum (data : Bytes) : UInt16 := finish (accumulate 0 data)

/-- IPv4 header checksum, of the header bytes with the checksum field zeroed. -/
def ipv4Header (header : Bytes) : UInt16 := checksum header

/-- The sum over the pseudo-header and the segment that TCP and UDP checksums finish. -/
def l4Sum (src dst : Bytes) (proto : UInt8) (seg : Bytes) : UInt32 :=
  let acc := accumulate 0 src
  let acc := accumulate acc dst
  let acc := acc + proto.toUInt32
  let acc := acc + UInt32.ofNat seg.length
  accumulate acc seg

/-- UDP-over-IPv4 checksum, of the UDP header and payload with the checksum field zeroed. A computed
zero is transmitted as `0xffff`. -/
def udpIpv4 (src dst udp : Bytes) : UInt16 :=
  let v := finish (l4Sum src dst Proto.udp udp)
  if v = 0 then 0xffff else v

/-- The first loop of `update`: add the complements of the words of `old`. -/
def accumulateNot (acc : UInt32) : Bytes → UInt32
  | hi :: lo :: rest => accumulateNot (acc + (~~~u16FromBeBytes hi lo).toUInt32) rest
  | [b] => acc + (~~~u16FromBeBytes b 0).toUInt32
  | [] => acc

/-- Recompute a checksum after a field changes, per RFC 1624: `HC' = ~(~HC + ~m + m')`. -/
def update (checksum : UInt16) (old new : Bytes) : UInt16 :=
  let acc := (~~~checksum).toUInt32
  let acc := accumulateNot acc old
  let acc := accumulate acc new
  ~~~fold acc

/-! ### Folding -/

/-- **Folding is the end-around-carry sum.** -/
theorem toNat_fold (acc : UInt32) : (fold acc).toNat = endAround 65535 acc.toNat := by
  fun_induction fold acc with
  | case1 acc h ih =>
    rw [ih, toNat_carry]
    exact endAround_carry 65535 acc.toNat
  | case2 acc h =>
    have hsmall : acc.toNat / 65536 = 0 := (shiftRight_eq_zero_iff acc).1 (by simpa using h)
    have hle : acc.toNat ≤ 65535 := by omega
    rw [endAround_of_le hle, UInt32.toNat_toUInt16]
    omega

theorem toNat_not (c : UInt16) : (~~~c).toNat = 65535 - c.toNat := by
  rw [UInt16.toNat_not]
  rfl

theorem toNat_finish (acc : UInt32) : (finish acc).toNat = 65535 - endAround 65535 acc.toNat := by
  rw [finish, toNat_not, toNat_fold]

/-- A checksum verifies if the sum it is part of is all ones. -/
theorem finish_eq_zero_iff (acc : UInt32) :
    finish acc = 0 ↔ endAround 65535 acc.toNat = 65535 := by
  have hle := endAround_le (m := 65535) (by omega) acc.toNat
  rw [← UInt16.toNat_inj, toNat_finish, UInt16.toNat_zero]
  omega

/-- The UDP rule: a computed zero is written as `0xffff`. -/
theorem toNat_ite_zero (k : UInt16) :
    (if k = 0 then 0xffff else k).toNat = OnesComplement.norm 65535 k.toNat := by
  rw [OnesComplement.norm]
  by_cases hk : k = 0
  · rw [if_pos hk, hk]
    rfl
  · have hk' : k.toNat ≠ 0 := fun h ↦ hk (UInt16.toNat.inj h)
    rw [if_neg hk, if_neg hk']

/-! ### Summing words -/

/-- The sum of the big-endian words of `data`, a trailing odd byte padded with zero. -/
def wordSum : Bytes → ℕ
  | hi :: lo :: rest => hi.toNat * 256 + lo.toNat + wordSum rest
  | [last] => last.toNat * 256
  | [] => 0

theorem wordSum_le (data : Bytes) : wordSum data ≤ 65535 * ((data.length + 1) / 2) := by
  fun_induction wordSum data with
  | case1 hi lo rest ih =>
    have h₁ := hi.toNat_lt
    have h₂ := lo.toNat_lt
    simp only [List.length_cons]
    omega
  | case2 last =>
    have h₁ := last.toNat_lt
    simp only [List.length_cons, List.length_nil]
    omega
  | case3 => simp

theorem wordSum_append {xs : Bytes} (h : Even xs.length) (ys : Bytes) :
    wordSum (xs ++ ys) = wordSum xs + wordSum ys := by
  fun_induction wordSum xs with
  | case1 hi lo rest ih =>
    have hrest : Even rest.length := by
      rw [List.length_cons, List.length_cons, Nat.even_iff] at h
      rw [Nat.even_iff]
      omega
    simp only [List.cons_append, wordSum, ih hrest]
    omega
  | case2 last => exact absurd h Nat.not_even_one
  | case3 => simp

/-- The first byte is the high byte of the first word. -/
theorem byteAt_zero_le_wordSum (data : Bytes) : (byteAt data 0).toNat * 256 ≤ wordSum data := by
  rcases data with - | ⟨hi, - | ⟨lo, rest⟩⟩
  · simp [byteAt]
  · simp [byteAt, wordSum]
  · simp only [byteAt, wordSum, List.getD_cons_zero]
    omega

/-- Only zeros add up to nothing. -/
theorem wordSum_eq_zero_iff (data : Bytes) : wordSum data = 0 ↔ ∀ b ∈ data, b = 0 := by
  have hzero (b : UInt8) : b.toNat = 0 ↔ b = 0 := by rw [← UInt8.toNat_inj, UInt8.toNat_zero]
  fun_induction wordSum data with
  | case1 hi lo rest ih =>
    rw [List.forall_mem_cons, List.forall_mem_cons, ih.symm, ← hzero, ← hzero]
    omega
  | case2 last =>
    rw [List.forall_mem_singleton, ← hzero]
    omega
  | case3 => simp

theorem wordSum_u16ToBeBytes (v : UInt16) : wordSum (u16ToBeBytes v) = v.toNat := by
  have hlt := v.toNat_lt
  simp only [u16ToBeBytes, wordSum, UInt8.toNat_ofNat']
  omega

/-- A field at an even offset adds its value. -/
theorem wordSum_field {pre : Bytes} (h : Even pre.length) (c : UInt16) (post : Bytes) :
    wordSum (pre ++ (u16ToBeBytes c ++ post)) =
      wordSum (pre ++ (u16ToBeBytes 0 ++ post)) + c.toNat := by
  have hsum (c : UInt16) : wordSum (pre ++ (u16ToBeBytes c ++ post)) =
      wordSum pre + (c.toNat + wordSum post) := by
    have htwo : Even (u16ToBeBytes c).length := ⟨1, rfl⟩
    rw [wordSum_append h, wordSum_append htwo, wordSum_u16ToBeBytes]
  rw [hsum, hsum, UInt16.toNat_zero]
  omega

/-- Overwriting words: the old ones leave the sum and the new ones enter it. Only the last field of
a buffer may have half a word at its end. -/
theorem exists_wordSum_writeAt {buf bs : Bytes} {off : ℕ} (h : off + bs.length ≤ buf.length)
    (hoff : Even off) (hbs : Even bs.length ∨ off + bs.length = buf.length) :
    ∃ rest, wordSum buf = rest + wordSum (slice buf off (off + bs.length)) ∧
      wordSum (writeAt buf off bs) = rest + wordSum bs := by
  have htake : Even (buf.take off).length := by
    rwa [List.length_take, Nat.min_eq_left (by omega)]
  have hslice : (slice buf off (off + bs.length)).length = bs.length := by
    rw [length_slice h]
    omega
  -- what follows the field is words too, or nothing
  have htail (field : Bytes) (hlen : field.length = bs.length) :
      wordSum (field ++ buf.drop (off + bs.length)) =
        wordSum field + wordSum (buf.drop (off + bs.length)) := by
    rcases hbs with heven | hend
    · exact wordSum_append (by rwa [hlen]) _
    · rw [hend, List.drop_length, List.append_nil, wordSum, Nat.add_zero]
  refine ⟨wordSum (buf.take off) + wordSum (buf.drop (off + bs.length)), ?_, ?_⟩
  · conv_lhs => rw [← take_append_slice_append_drop buf (Nat.le_add_right off bs.length)]
    rw [List.append_assoc, wordSum_append htake, htail _ hslice]
    omega
  · rw [writeAt, List.append_assoc, wordSum_append htake, htail _ rfl]
    omega

/-- A big-endian word adds its value. -/
theorem toNat_add_word (acc : UInt32) (w : UInt16) (h : acc.toNat + w.toNat < 2 ^ 32) :
    (acc + w.toUInt32).toNat = acc.toNat + w.toNat := by
  rw [UInt32.toNat_add, UInt16.toNat_toUInt32]
  exact Nat.mod_eq_of_lt h

/-- **The accumulator holds the sum**, as long as it fits. -/
theorem toNat_accumulate {acc : UInt32} {data : Bytes} (h : acc.toNat + wordSum data < 2 ^ 32) :
    (accumulate acc data).toNat = acc.toNat + wordSum data := by
  fun_induction accumulate acc data with
  | case1 acc hi lo rest ih =>
    have hw := toNat_u16FromBeBytes hi lo
    rw [wordSum] at h ⊢
    have hadd := toNat_add_word acc (u16FromBeBytes hi lo) (by omega)
    rw [ih (by omega)]
    omega
  | case2 acc last =>
    have hw := toNat_u16FromBeBytes last 0
    rw [UInt8.toNat_zero] at hw
    rw [wordSum] at h ⊢
    rw [toNat_add_word _ _ (by omega)]
    omega
  | case3 acc => rfl

/-- The complements of the words of `old` and the words themselves add up to all ones. -/
theorem toNat_accumulateNot (acc : UInt32) (old : Bytes)
    (h : acc.toNat + 65535 * ((old.length + 1) / 2) < 2 ^ 32) :
    (accumulateNot acc old).toNat + wordSum old =
      acc.toNat + 65535 * ((old.length + 1) / 2) := by
  fun_induction accumulateNot acc old with
  | case1 acc hi lo rest ih =>
    have hw := toNat_u16FromBeBytes hi lo
    have hnot := toNat_not (u16FromBeBytes hi lo)
    have hlt := (u16FromBeBytes hi lo).toNat_lt
    simp only [List.length_cons] at h ⊢
    have hadd := toNat_add_word acc (~~~u16FromBeBytes hi lo) (by omega)
    have hrest := ih (by omega)
    rw [wordSum]
    omega
  | case2 acc b =>
    have hw := toNat_u16FromBeBytes b 0
    have hnot := toNat_not (u16FromBeBytes b 0)
    have hlt := (u16FromBeBytes b 0).toNat_lt
    rw [UInt8.toNat_zero] at hw
    simp only [List.length_cons, List.length_nil] at h ⊢
    have hadd := toNat_add_word acc (~~~u16FromBeBytes b 0) (by omega)
    rw [wordSum]
    omega
  | case3 acc => rfl

/-- **The checksum of a buffer.** -/
theorem toNat_checksum {data : Bytes} (h : data.length ≤ 65535) :
    (checksum data).toNat = 65535 - endAround 65535 (wordSum data) := by
  have hsum := wordSum_le data
  rw [checksum, toNat_finish, toNat_accumulate (by rw [UInt32.toNat_zero]; omega),
    UInt32.toNat_zero, Nat.zero_add]

/-- The sum of pseudo-header and segment, for addresses of four bytes. -/
theorem toNat_l4Sum {src dst seg : Bytes} (proto : UInt8) (hsrc : src.length = 4)
    (hdst : dst.length = 4) (h : seg.length ≤ 65535) :
    (l4Sum src dst proto seg).toNat =
      wordSum src + wordSum dst + proto.toNat + seg.length + wordSum seg := by
  have h₁ := wordSum_le src
  have h₂ := wordSum_le dst
  have h₃ := wordSum_le seg
  have h₄ := proto.toNat_lt
  rw [hsrc] at h₁
  rw [hdst] at h₂
  have hs : (accumulate 0 src).toNat = wordSum src := by
    rw [toNat_accumulate (by rw [UInt32.toNat_zero]; omega), UInt32.toNat_zero, Nat.zero_add]
  have hd : (accumulate (accumulate 0 src) dst).toNat = wordSum src + wordSum dst := by
    rw [toNat_accumulate (by omega), hs]
  have hp : (accumulate (accumulate 0 src) dst + proto.toUInt32 + UInt32.ofNat seg.length).toNat =
      wordSum src + wordSum dst + proto.toNat + seg.length := by
    rw [UInt32.toNat_add, UInt32.toNat_add, hd, UInt8.toNat_toUInt32, UInt32.toNat_ofNat']
    omega
  rw [l4Sum, toNat_accumulate (by omega), hp]

/-! ### The incremental update -/

/-- **The update is the one's-complement update.** The complemented words of `old` add up to
`comp`. -/
theorem toNat_update (c : UInt16) {old new : Bytes} (hold : old.length ≤ 65535)
    (hnew : new.length ≤ 65535) :
    ∃ comp, comp + wordSum old = 65535 * ((old.length + 1) / 2) ∧
      (update c old new).toNat =
        65535 - endAround 65535 (65535 - c.toNat + comp + wordSum new) := by
  have hnot := toNat_not c
  have hc : (~~~c).toUInt32.toNat = 65535 - c.toNat := by rw [UInt16.toNat_toUInt32, hnot]
  have hlt := c.toNat_lt
  have hold' := toNat_accumulateNot (~~~c).toUInt32 old (by omega)
  have hwold := wordSum_le old
  have hwnew := wordSum_le new
  refine ⟨65535 * ((old.length + 1) / 2) - wordSum old, by omega, ?_⟩
  rw [update, toNat_not, toNat_fold, toNat_accumulate (by omega)]
  congr 2
  omega

/-- An update keeps a checksum a checksum, up to the representative of zero. -/
theorem represents_update {c : UInt16} {old new : Bytes} {rest : ℕ} (hold : old.length ≤ 65535)
    (hnew : new.length ≤ 65535) (h : Represents 65535 c.toNat (rest + wordSum old)) :
    Represents 65535 (update c old new).toNat (rest + wordSum new) := by
  obtain ⟨comp, hcomp, heq⟩ := toNat_update c hold hnew
  rw [heq]
  apply h.update (by omega)
  rw [hcomp]
  exact (Nat.modEq_zero_iff_dvd).2 (Dvd.intro _ rfl)

/-- **The update is exact**, as long as there is something to sum in the end. -/
theorem follows_update {c : UInt16} {old new : Bytes} {rest : ℕ} (hold : old.length ≤ 65535)
    (hnew : new.length ≤ 65535) (h : Follows 65535 c.toNat (rest + wordSum old)) :
    Follows 65535 (update c old new).toNat (rest + wordSum new) := by
  obtain ⟨comp, hcomp, heq⟩ := toNat_update c hold hnew
  rw [heq]
  apply h.update (by omega)
  · rw [hcomp]
    exact (Nat.modEq_zero_iff_dvd).2 (Dvd.intro _ rfl)
  · exact Nat.le_of_lt_succ c.toNat_lt

theorem follows_finish (acc : UInt32) : Follows 65535 (finish acc).toNat acc.toNat := by
  rw [toNat_finish]
  exact follows_sub_endAround (by omega) _

theorem follows_checksum {data : Bytes} (h : data.length ≤ 65535) :
    Follows 65535 (checksum data).toNat (wordSum data) := by
  rw [toNat_checksum h]
  exact follows_sub_endAround (by omega) _

/-- **Checksums verify.** The checksum of a buffer, stored in a field that was zero, makes the
checksum zero; also where there was nothing to sum, and the checksum is `0xffff`. -/
theorem checksum_field {pre post : Bytes} (heven : Even pre.length)
    (hlen : (pre ++ (u16ToBeBytes 0 ++ post)).length ≤ 65535) :
    checksum (pre ++ (u16ToBeBytes (checksum (pre ++ (u16ToBeBytes 0 ++ post))) ++ post)) = 0 := by
  set c := checksum (pre ++ (u16ToBeBytes 0 ++ post)) with hc
  set S := wordSum (pre ++ (u16ToBeBytes 0 ++ post))
  have hfollows : Follows 65535 c.toNat S := follows_checksum hlen
  have hpos : 0 < S + c.toNat := by
    rcases Nat.eq_zero_or_pos S with hzero | hpos
    · have hval : c.toNat = 65535 - endAround 65535 S := toNat_checksum hlen
      rw [hzero, endAround_zero] at hval
      omega
    · omega
  have hone := hfollows.represents.endAround_add (Nat.le_of_lt_succ c.toNat_lt) hpos
  have hlen' : (pre ++ (u16ToBeBytes c ++ post)).length ≤ 65535 := by
    simpa only [List.length_append, length_u16ToBeBytes] using hlen
  rw [← UInt16.toNat_inj, toNat_checksum hlen', wordSum_field heven, hone]
  rfl

/-- A checksum that follows a total other than zero is the one that is computed of it. -/
theorem eq_checksum_of_follows {c : UInt16} {data : Bytes} (h : data.length ≤ 65535)
    (hc : Follows 65535 c.toNat (wordSum data)) (hpos : 0 < wordSum data) : c = checksum data := by
  rw [← UInt16.toNat_inj, toNat_checksum h]
  exact hc.eq_sub_endAround (Nat.le_of_lt_succ c.toNat_lt) hpos

end Checksum

end UserspaceRouter
