import UserspaceRouter.Foundations.Checked
import UserspaceRouter.Net.Checksum

/-!
# The software checksum is the Internet checksum

RFC 1071 defines the checksum by 16-bit additions, the carry out of each of them being added back in
at once. That sum is `onesSum`, of the `words` of the data. The code does neither: it adds in 32
bits and folds the carries at the end, which is correct for two reasons.

* **Nothing is lost.** The 32-bit additions are meant to wrap, but on 65535 bytes they have no
  occasion to: the same loop with its additions checked gives the same accumulator
  (`accumulateChecked_eq`). Nor does the addition in `fold`, which is not meant to; and its loop
  ends after two turns at most (`foldWithin_three`).
* **Carries may wait.** Folding at the end and carrying at every step come to the same word, not
  only to the same residue (`toNat_onesSum`), so the two also agree on a buffer of zeros.

A checksum may be accumulated over pieces of the data, if no word is cut in two
(`foldl_accumulate`). This needs no bound: additions that wrap are associative too.
-/

namespace UserspaceRouter

namespace Checksum

open OnesComplement

/-! ### RFC 1071 -/

/-- The big-endian 16-bit words of the data, a trailing odd byte padded with zero. -/
def words : Bytes → List UInt16
  | hi :: lo :: rest => u16FromBeBytes hi lo :: words rest
  | [last] => [u16FromBeBytes last 0]
  | [] => []

/-- One's-complement addition: a carry out of the 16 bits is added back in. -/
def onesAdd (a b : UInt16) : UInt16 := if a + b < a then a + b + 1 else a + b

/-- The one's-complement sum of words. -/
def onesSum (ws : List UInt16) : UInt16 := ws.foldl onesAdd 0

theorem sum_words (data : Bytes) : ((words data).map UInt16.toNat).sum = wordSum data := by
  fun_induction words data with
  | case1 hi lo rest ih =>
    rw [List.map_cons, List.sum_cons, ih, toNat_u16FromBeBytes, wordSum]
  | case2 last =>
    rw [List.map_singleton, List.sum_singleton, toNat_u16FromBeBytes, wordSum, UInt8.toNat_zero,
      Nat.add_zero]
  | case3 => rfl

/-- The machine's addition drops the carry, and a sum that is too small tells that there was one. -/
theorem toNat_onesAdd (a b : UInt16) :
    (onesAdd a b).toNat = carryAdd 65535 a.toNat b.toNat := by
  have ha := a.toNat_lt
  have hb := b.toNat_lt
  have hadd : (a + b).toNat = (a.toNat + b.toNat) % 65536 := UInt16.toNat_add a b
  have hsucc : (a + b + 1).toNat = ((a + b).toNat + 1) % 65536 := UInt16.toNat_add (a + b) 1
  rw [onesAdd, carryAdd]
  split_ifs with hcarry
  · rw [UInt16.lt_iff_toNat_lt] at hcarry
    omega
  · rw [UInt16.lt_iff_toNat_lt] at hcarry
    omega

theorem toNat_foldl_onesAdd (ws : List UInt16) (acc : UInt16) :
    (ws.foldl onesAdd acc).toNat =
      (ws.map UInt16.toNat).foldl (carryAdd 65535) acc.toNat := by
  induction ws generalizing acc with
  | nil => rfl
  | cons w ws ih => rw [List.foldl_cons, ih, toNat_onesAdd, List.map_cons, List.foldl_cons]

/-- **The sum of RFC 1071, in closed form.** -/
theorem toNat_onesSum (ws : List UInt16) :
    (onesSum ws).toNat = endAround 65535 (ws.map UInt16.toNat).sum := by
  have hword : ∀ w ∈ ws.map UInt16.toNat, w ≤ 65535 := by
    intro w hw
    obtain ⟨v, -, rfl⟩ := List.mem_map.1 hw
    exact Nat.le_of_lt_succ v.toNat_lt
  have hsum := foldl_carryAdd (by omega) hword 0
  rw [Nat.zero_add, endAround_zero] at hsum
  rw [onesSum, toNat_foldl_onesAdd, UInt16.toNat_zero, hsum]

/-- **Folding at the end is carrying at every step.** -/
theorem checksum_eq_not_onesSum {data : Bytes} (h : data.length ≤ 65535) :
    checksum data = ~~~onesSum (words data) := by
  rw [← UInt16.toNat_inj, toNat_checksum h, toNat_not, toNat_onesSum, sum_words]

/-! ### The additions of the code -/

/-- `accumulate`, each of whose additions must not wrap. -/
def accumulateChecked (acc : UInt32) : Bytes → Option UInt32
  | hi :: lo :: rest => do
    let acc ← Checked.add32 acc (u16FromBeBytes hi lo).toUInt32
    accumulateChecked acc rest
  | [last] => Checked.add32 acc (u16FromBeBytes last 0).toUInt32
  | [] => some acc

/-- A word is added without a wrap, if the sum fits. -/
theorem add32_word {acc : UInt32} {w : UInt16} (h : acc.toNat + w.toNat < 2 ^ 32) :
    Checked.add32 acc w.toUInt32 = some (acc + w.toUInt32) :=
  Checked.add32_eq (by rwa [UInt16.toNat_toUInt32])

/-- No addition wraps if the whole sum fits: the accumulator only grows. -/
theorem accumulateChecked_eq {acc : UInt32} {data : Bytes}
    (h : acc.toNat + wordSum data < 2 ^ 32) :
    accumulateChecked acc data = some (accumulate acc data) := by
  fun_induction accumulate acc data with
  | case1 acc hi lo rest ih =>
    have hw := toNat_u16FromBeBytes hi lo
    rw [wordSum] at h
    have hfits : acc.toNat + (u16FromBeBytes hi lo).toNat < 2 ^ 32 := by omega
    rw [accumulateChecked, add32_word hfits, Option.bind_eq_bind, Option.bind_some]
    apply ih
    rw [toNat_add_word acc _ hfits]
    omega
  | case2 acc last =>
    have hw := toNat_u16FromBeBytes last 0
    rw [UInt8.toNat_zero] at hw
    rw [wordSum] at h
    exact add32_word (by omega)
  | case3 acc => rfl

theorem accumulateChecked_zero {data : Bytes} (h : data.length ≤ 65535) :
    accumulateChecked 0 data = some (accumulate 0 data) := by
  have hsum := wordSum_le data
  apply accumulateChecked_eq
  rw [UInt32.toNat_zero]
  omega

/-- The loop of `fold` with its addition checked, `none` also if its condition has been tested `n`
times and still holds. -/
def foldWithin : ℕ → UInt32 → Option UInt16
  | 0, _ => none
  | n + 1, acc =>
    if acc >>> 16 ≠ 0 then do
      let acc ← Checked.add32 (acc &&& (0xffff : UInt32)) (acc >>> 16)
      foldWithin n acc
    else some acc.toUInt16

/-- A word is left alone. -/
theorem foldWithin_of_lt {acc : UInt32} (h : acc.toNat < 65536) (n : ℕ) :
    foldWithin (n + 1) acc = some (fold acc) := by
  have hdone : ¬acc >>> 16 ≠ 0 := not_not.2 ((shiftRight_eq_zero_iff acc).2 (by omega))
  rw [foldWithin, if_neg hdone, fold, if_neg hdone]

/-- One turn of the loop, whose addition does not wrap. -/
theorem foldWithin_of_ge {acc : UInt32} (h : 65536 ≤ acc.toNat) (n : ℕ) :
    foldWithin (n + 1) acc = foldWithin n ((acc &&& (0xffff : UInt32)) + (acc >>> 16)) ∧
      fold acc = fold ((acc &&& (0xffff : UInt32)) + (acc >>> 16)) := by
  have hlt := acc.toNat_lt
  have hturn : acc >>> 16 ≠ 0 := by
    rw [Ne, shiftRight_eq_zero_iff]
    omega
  have hfits : (acc &&& (0xffff : UInt32)).toNat + (acc >>> 16).toNat < 2 ^ 32 := by
    rw [toNat_low, toNat_high]
    omega
  refine ⟨?_, ?_⟩
  · rw [foldWithin, if_pos hturn, Checked.add32_eq hfits, Option.bind_eq_bind, Option.bind_some]
  · rw [fold, if_pos hturn]

/-- **`fold` ends after two turns**: the first leaves at most `0x1fffe`, the second a word. -/
theorem foldWithin_three (acc : UInt32) : foldWithin 3 acc = some (fold acc) := by
  have hlt := acc.toNat_lt
  rcases Nat.lt_or_ge acc.toNat 65536 with hword | hfirst
  · exact foldWithin_of_lt hword 2
  · obtain ⟨hwithin, hfold⟩ := foldWithin_of_ge hfirst 2
    rw [hwithin, hfold]
    have hcarry := toNat_carry acc
    set acc' := (acc &&& (0xffff : UInt32)) + (acc >>> 16)
    rcases Nat.lt_or_ge acc'.toNat 65536 with hword | hsecond
    · exact foldWithin_of_lt hword 1
    · obtain ⟨hwithin', hfold'⟩ := foldWithin_of_ge hsecond 1
      rw [hwithin', hfold']
      refine foldWithin_of_lt ?_ 0
      rw [toNat_carry]
      omega

/-! ### Pieces of the data -/

/-- The loop over the words may stop between two of them and go on. -/
theorem accumulate_append {xs : Bytes} (h : Even xs.length) (ys : Bytes) (acc : UInt32) :
    accumulate acc (xs ++ ys) = accumulate (accumulate acc xs) ys := by
  fun_induction accumulate acc xs with
  | case1 acc hi lo rest ih =>
    have hrest : Even rest.length := by
      rw [List.length_cons, List.length_cons, Nat.even_iff] at h
      rw [Nat.even_iff]
      omega
    exact ih hrest
  | case2 acc last => exact absurd h Nat.not_even_one
  | case3 acc => rfl

/-- **Pieces add up to the whole**, if only the last may end in half a word. -/
theorem foldl_accumulate {pieces : List Bytes} (h : ∀ p ∈ pieces.dropLast, Even p.length)
    (acc : UInt32) : pieces.foldl accumulate acc = accumulate acc pieces.flatten := by
  induction pieces generalizing acc with
  | nil => rfl
  | cons p pieces ih =>
    cases pieces with
    | nil => rw [List.foldl_cons, List.foldl_nil, List.flatten_singleton]
    | cons q rest =>
      rw [List.dropLast_cons_of_ne_nil (List.cons_ne_nil q rest), List.forall_mem_cons] at h
      rw [List.foldl_cons, ih h.2, ← accumulate_append h.1, ← List.flatten_cons]

/-! ### Storing the checksum -/

/-- A checksum that is stored where the buffer had zeros makes the buffer verify. -/
theorem checksum_writeAt {data : Bytes} {k : ℕ} (h : data.length ≤ 65535) (hk : Even k)
    (hfield : k + 2 ≤ data.length) (hzero : u16At data k = 0) :
    checksum (writeAt data k (u16ToBeBytes (checksum data))) = 0 := by
  have hsplit : data = data.take k ++ (u16ToBeBytes 0 ++ data.drop (k + 2)) := by
    conv_lhs => rw [← take_append_slice_append_drop data (Nat.le_add_right k 2)]
    rw [slice_eq_u16ToBeBytes hfield, hzero, List.append_assoc]
  have heven : Even (data.take k).length := by
    rwa [List.length_take, Nat.min_eq_left (by omega)]
  have hverifies := checksum_field heven (by rwa [← hsplit])
  rw [← hsplit] at hverifies
  rwa [writeAt, List.append_assoc]

/-- **The software checksum is the Internet checksum**, on a buffer of up to 65535 bytes: no
addition of `accumulate` wraps; `fold` ends, and its additions do not wrap either; the checksum is
the complement of the sum of RFC 1071; it may be accumulated over pieces, of which only the last may
have odd length; and storing it in a field of zeros at an even offset makes the checksum zero. -/
theorem software_checksum_is_internet_checksum {data : Bytes} (h : data.length ≤ 65535) :
    accumulateChecked 0 data = some (accumulate 0 data) ∧
    (∀ acc, foldWithin 3 acc = some (fold acc)) ∧
    checksum data = ~~~onesSum (words data) ∧
    (∀ (pieces : List Bytes) (acc : UInt32), (∀ p ∈ pieces.dropLast, Even p.length) →
      pieces.foldl accumulate acc = accumulate acc pieces.flatten) ∧
    ∀ k, Even k → k + 2 ≤ data.length → u16At data k = 0 →
      checksum (writeAt data k (u16ToBeBytes (checksum data))) = 0 :=
  ⟨accumulateChecked_zero h, foldWithin_three, checksum_eq_not_onesSum h,
    fun _ acc hpieces ↦ foldl_accumulate hpieces acc,
    fun _ hk hfield hzero ↦ checksum_writeAt h hk hfield hzero⟩

/-- Five bytes, with a field in the middle and half a word at the end. -/
theorem software_checksum_odd :
    checksum [0x45, 0, 0, 0, 0x56] = ~~~onesSum [0x4500, 0, 0x5600] ∧
      [[0x45, 0], [0, 0, 0x56]].foldl accumulate 0 = accumulate 0 [0x45, 0, 0, 0, 0x56] ∧
      checksum (writeAt [0x45, 0, 0, 0, 0x56] 2
        (u16ToBeBytes (checksum [0x45, 0, 0, 0, 0x56]))) = 0 := by
  have hlen : ([0x45, 0, 0, 0, 0x56] : Bytes).length ≤ 65535 := by decide
  obtain ⟨-, -, hsum, hpieces, hverifies⟩ := software_checksum_is_internet_checksum hlen
  refine ⟨hsum, hpieces [[0x45, 0], [0, 0, 0x56]] 0 ?_, hverifies 2 ⟨1, rfl⟩ (by decide) rfl⟩
  intro p hp
  rw [List.mem_singleton.1 hp]
  exact ⟨1, rfl⟩

end Checksum

end UserspaceRouter
