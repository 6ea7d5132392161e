import Mathlib.Data.List.Basic
import UserspaceRouter.Net.Checksum

/-!
# Incremental checksums

A buffer with a 16-bit checksum field in it, and fields beside that one which are overwritten one
after the other, the stored checksum being updated each time.

**What is kept.** After each edit the checksum `Follows` the sum of the buffer with the checksum
field zeroed (`Edit.follows_perform`): it represents the sum modulo 65535, and it is `0xffff` only
for a buffer of zeros. No edit needs a side condition for that, not even one that leaves nothing but
zeros; only where the checksum is to be *equal* to the recomputed one must there be something to sum
at the end, since `update` never gets back to `0xffff`.

**The order.** Edits of disjoint fields commute (`applyAll_perm`), and each finds in its field what
the buffer had there at first (`performAll_snd`).
-/

namespace UserspaceRouter

open OnesComplement Checksum

/-- A buffer with the 16-bit field at `k` zeroed. -/
def zeroField (buf : Bytes) (k : ℕ) : Bytes := writeAt buf k [0, 0]

/-- The replacement of the bytes at `off` by as many new ones. -/
structure Edit where
  off : ℕ
  new : Bytes

namespace Edit

/-- What the edit replaces. -/
def old (e : Edit) (buf : Bytes) : Bytes := slice buf e.off (e.off + e.new.length)

def apply (buf : Bytes) (e : Edit) : Bytes := writeAt buf e.off e.new

/-- The edit of a buffer, and the update of its checksum. -/
def perform (s : Bytes × UInt16) (e : Edit) : Bytes × UInt16 :=
  (e.apply s.1, update s.2 (e.old s.1) e.new)

/-- The field is inside a buffer of `n` bytes, made of whole words unless it ends the buffer, and
beside the checksum field at `k`. -/
structure Fits (k n : ℕ) (e : Edit) : Prop where
  le : e.off + e.new.length ≤ n
  even_off : Even e.off
  even_length : Even e.new.length ∨ e.off + e.new.length = n
  beside : e.off + e.new.length ≤ k ∨ k + 2 ≤ e.off

/-- The fields of two edits do not overlap. -/
def Disjoint (e e' : Edit) : Prop :=
  e.off + e.new.length ≤ e'.off ∨ e'.off + e'.new.length ≤ e.off

theorem Disjoint.symm {e e' : Edit} (h : e.Disjoint e') : e'.Disjoint e := Or.symm h

variable {k n : ℕ} {e e' : Edit} {buf : Bytes}

theorem Fits.length_apply (h : e.Fits k buf.length) : (e.apply buf).length = buf.length :=
  length_writeAt h.le

theorem Fits.length_old (h : e.Fits k buf.length) : (e.old buf).length = e.new.length := by
  rw [old, length_slice h.le, Nat.add_sub_cancel_left]

/-- An edit leaves the fields of the others alone. -/
theorem old_apply (h : e.Fits k buf.length) (h' : e'.Fits k buf.length) (hdisj : e.Disjoint e') :
    e'.old (e.apply buf) = e'.old buf :=
  slice_writeAt_of_disjoint h.le h'.le hdisj

theorem apply_comm (h : e.Fits k buf.length) (h' : e'.Fits k buf.length)
    (hdisj : e.Disjoint e') : e'.apply (e.apply buf) = e.apply (e'.apply buf) :=
  writeAt_comm h.le h'.le hdisj

/-- What is left to do after the first edit still fits. -/
theorem fits_tail {es : List Edit} (h : ∀ e' ∈ e :: es, e'.Fits k buf.length) :
    ∀ e' ∈ es, e'.Fits k (e.apply buf).length := by
  intro e' he'
  rw [(h e List.mem_cons_self).length_apply]
  exact h e' (List.mem_cons_of_mem e he')

/-- In the buffer with the checksum field zeroed, the words of the field are exchanged. -/
theorem Fits.exists_wordSum (h : e.Fits k buf.length) (hk : k + 2 ≤ buf.length) :
    ∃ rest, wordSum (zeroField buf k) = rest + wordSum (e.old buf) ∧
      wordSum (zeroField (e.apply buf) k) = rest + wordSum e.new := by
  have hlen : (zeroField buf k).length = buf.length := length_writeAt hk
  have hfits : e.off + e.new.length ≤ (zeroField buf k).length := by
    rw [hlen]
    exact h.le
  have hbeside : k + ([0, 0] : Bytes).length ≤ e.off ∨ e.off + e.new.length ≤ k := h.beside.symm
  obtain ⟨rest, hold, hnew⟩ := exists_wordSum_writeAt hfits h.even_off (by
    rw [hlen]
    exact h.even_length)
  refine ⟨rest, ?_, ?_⟩
  · rw [hold, zeroField, slice_writeAt_of_disjoint hk h.le hbeside, old]
  · rw [← hnew, zeroField, zeroField, apply, writeAt_comm h.le hk hbeside.symm]

/-- **One edit.** The updated checksum follows the sum. -/
theorem follows_perform {c : UInt16} (h : e.Fits k buf.length) (hlen : buf.length ≤ 65535)
    (hk : k + 2 ≤ buf.length) (hc : Follows 65535 c.toNat (wordSum (zeroField buf k))) :
    Follows 65535 (e.perform (buf, c)).2.toNat
      (wordSum (zeroField (e.perform (buf, c)).1 k)) := by
  obtain ⟨rest, hold, hnew⟩ := h.exists_wordSum hk
  have hbound := h.le
  show Follows 65535 (update c (e.old buf) e.new).toNat (wordSum (zeroField (e.apply buf) k))
  rw [hnew]
  rw [hold] at hc
  exact follows_update (by rw [h.length_old]; omega) (by omega) hc

end Edit

/-! ### Several edits -/

/-- The buffer after the edits. -/
def applyAll (buf : Bytes) (es : List Edit) : Bytes := es.foldl Edit.apply buf

/-- The buffer and its checksum after the edits, made one by one. -/
def performAll (buf : Bytes) (c : UInt16) (es : List Edit) : Bytes × UInt16 :=
  es.foldl Edit.perform (buf, c)

section Edits

variable {k : ℕ} {buf : Bytes} {c : UInt16} {es es' : List Edit}

/-- The checksum follows the sum through all edits. -/
theorem follows_performAll (hlen : buf.length ≤ 65535) (hk : k + 2 ≤ buf.length)
    (hfits : ∀ e ∈ es, e.Fits k buf.length)
    (hc : Follows 65535 c.toNat (wordSum (zeroField buf k))) :
    Follows 65535 (performAll buf c es).2.toNat
      (wordSum (zeroField (performAll buf c es).1 k)) := by
  induction es generalizing buf c with
  | nil => exact hc
  | cons e es ih =>
    have he := hfits e List.mem_cons_self
    have hsame := he.length_apply
    refine ih ?_ ?_ (Edit.fits_tail hfits) (Edit.follows_perform he hlen hk hc)
    · rwa [hsame]
    · rwa [hsame]

theorem performAll_fst (buf : Bytes) (c : UInt16) (es : List Edit) :
    (performAll buf c es).1 = applyAll buf es := by
  induction es generalizing buf c with
  | nil => rfl
  | cons e es ih => exact ih (e.apply buf) _

/-- **The updates of disjoint fields**: each takes from the sum what was in its field at first. -/
theorem performAll_snd (hfits : ∀ e ∈ es, e.Fits k buf.length) (hdisj : es.Pairwise Edit.Disjoint)
    (c : UInt16) :
    (performAll buf c es).2 = es.foldl (fun c e ↦ update c (e.old buf) e.new) c := by
  induction es generalizing buf c with
  | nil => rfl
  | cons e es ih =>
    obtain ⟨hhead, htail⟩ := List.pairwise_cons.1 hdisj
    have he := hfits e List.mem_cons_self
    have hrest (e' : Edit) (he' : e' ∈ es) : e'.Fits k buf.length :=
      hfits e' (List.mem_cons_of_mem e he')
    have hstep : (performAll buf c (e :: es)).2 =
        es.foldl (fun c e' ↦ update c (e'.old (e.apply buf)) e'.new)
          (update c (e.old buf) e.new) := ih (Edit.fits_tail hfits) htail _
    rw [hstep, List.foldl_cons]
    refine List.foldl_ext _ _ _ fun c e' he' ↦ ?_
    rw [Edit.old_apply he (hrest e' he') (hhead e' he')]

/-- **Disjoint edits may be made in any order.** -/
theorem applyAll_perm (h : es'.Perm es) (hfits : ∀ e ∈ es', e.Fits k buf.length)
    (hdisj : es'.Pairwise Edit.Disjoint) : applyAll buf es' = applyAll buf es := by
  induction h generalizing buf with
  | nil => rfl
  | cons e _ ih => exact ih (Edit.fits_tail hfits) (List.pairwise_cons.1 hdisj).2
  | swap e e' es =>
    have he' := hfits e' List.mem_cons_self
    have he := hfits e (List.mem_cons_of_mem e' List.mem_cons_self)
    have happly := Edit.apply_comm he' he
      ((List.pairwise_cons.1 hdisj).1 e List.mem_cons_self)
    exact congrArg (fun buf ↦ applyAll buf es) happly
  | trans h₁ _ ih₁ ih₂ =>
    rw [ih₁ hfits hdisj]
    exact ih₂ (fun e he ↦ hfits e (h₁.mem_iff.2 he)) (h₁.pairwise hdisj Edit.Disjoint.symm)

theorem length_applyAll (hfits : ∀ e ∈ es, e.Fits k buf.length) :
    (applyAll buf es).length = buf.length := by
  induction es generalizing buf with
  | nil => rfl
  | cons e es ih =>
    exact (ih (Edit.fits_tail hfits)).trans (hfits e List.mem_cons_self).length_apply

/-- **The checksum after the edits** is the recomputed one, if there is something to sum. -/
theorem performAll_eq_checksum (hlen : buf.length ≤ 65535) (hk : k + 2 ≤ buf.length)
    (hfits : ∀ e ∈ es, e.Fits k buf.length)
    (hne : ∃ b ∈ zeroField (applyAll buf es) k, b ≠ 0) :
    (performAll buf (checksum (zeroField buf k)) es).2 =
      checksum (zeroField (applyAll buf es) k) := by
  have hlen₀ : (zeroField buf k).length = buf.length := length_writeAt hk
  have hlen₁ : (zeroField (applyAll buf es) k).length = buf.length := by
    rw [zeroField, length_writeAt (by rwa [length_applyAll hfits]), length_applyAll hfits]
  have hfollows := follows_performAll hlen hk hfits (follows_checksum (by omega))
  rw [performAll_fst] at hfollows
  refine eq_checksum_of_follows (by omega) hfollows (Nat.pos_of_ne_zero fun hzero ↦ ?_)
  obtain ⟨b, hb, hb0⟩ := hne
  exact hb0 ((wordSum_eq_zero_iff _).1 hzero b hb)

end Edits

/-- **Incremental checksum equals full recomputation.** A buffer stores at `k` the checksum of the
rest of it. Then one update for a field that is replaced gives the checksum of the new buffer; and
so do the updates for several disjoint fields, made in any order, whether the old bytes of a field
are read from the buffer as it was or as it is when the field's turn comes. -/
theorem incremental_eq_full {buf : Bytes} {k : ℕ} (hlen : buf.length ≤ 65535)
    (hfield : k + 2 ≤ buf.length) (hstored : u16At buf k = checksum (zeroField buf k)) :
    (∀ e : Edit, e.Fits k buf.length → (∃ b ∈ zeroField (e.apply buf) k, b ≠ 0) →
      update (u16At buf k) (e.old buf) e.new = checksum (zeroField (e.apply buf) k)) ∧
    ∀ es es' : List Edit, (∀ e ∈ es, e.Fits k buf.length) → es.Pairwise Edit.Disjoint →
      es'.Perm es → (∃ b ∈ zeroField (applyAll buf es) k, b ≠ 0) →
      performAll buf (u16At buf k) es' =
        (applyAll buf es, checksum (zeroField (applyAll buf es) k)) ∧
      es'.foldl (fun c e ↦ update c (e.old buf) e.new) (u16At buf k) =
        checksum (zeroField (applyAll buf es) k) := by
  rw [hstored]
  refine ⟨fun e he hne ↦ ?_, fun es es' hfits hdisj hperm hne ↦ ?_⟩
  · have hfits : ∀ e' ∈ [e], e'.Fits k buf.length := by
      rintro e' he'
      rwa [List.mem_singleton.1 he']
    exact performAll_eq_checksum hlen hfield hfits hne
  · have hfits' (e : Edit) (he : e ∈ es') : e.Fits k buf.length := hfits e (hperm.mem_iff.1 he)
    have hdisj' : es'.Pairwise Edit.Disjoint := hperm.symm.pairwise hdisj Edit.Disjoint.symm
    have happly := applyAll_perm hperm hfits' hdisj'
    have hsum := performAll_eq_checksum hlen hfield hfits' (by rwa [happly])
    rw [happly] at hsum
    refine ⟨Prod.ext ?_ hsum, ?_⟩
    · rw [performAll_fst, happly]
    · rw [← performAll_snd hfits' hdisj', hsum]

/-- Three fields of a buffer of odd length, the last of them a single byte at the end. -/
theorem incremental_eq_full_three :
    performAll [0x45, 0, 0x52, 0xcb, 0x12, 0x34, 0x56] 0x52cb
        [⟨6, [0x99]⟩, ⟨0, [0x60, 0x01]⟩, ⟨4, [0, 0]⟩] =
      ([0x60, 0x01, 0x52, 0xcb, 0, 0, 0x99], checksum [0x60, 0x01, 0, 0, 0, 0, 0x99]) := by
  have hstored : u16At [0x45, 0, 0x52, 0xcb, 0x12, 0x34, 0x56] 2 =
      checksum (zeroField [0x45, 0, 0x52, 0xcb, 0x12, 0x34, 0x56] 2) := by
    decide +kernel
  refine ((incremental_eq_full (by decide) (by decide) hstored).2
    [⟨0, [0x60, 0x01]⟩, ⟨4, [0, 0]⟩, ⟨6, [0x99]⟩] _ ?_ ?_ ?_ ?_).1
  · intro e he
    simp only [List.mem_cons, List.not_mem_nil, or_false] at he
    rcases he with rfl | rfl | rfl
    · exact ⟨by decide, ⟨0, rfl⟩, Or.inl ⟨1, rfl⟩, Or.inl (by decide)⟩
    · exact ⟨by decide, ⟨2, rfl⟩, Or.inl ⟨1, rfl⟩, Or.inr (by decide)⟩
    · exact ⟨by decide, ⟨3, rfl⟩, Or.inr rfl, Or.inr (by decide)⟩
  · simp [Edit.Disjoint]
  · show ([⟨6, [0x99]⟩] ++ [⟨0, [0x60, 0x01]⟩, ⟨4, [0, 0]⟩] : List Edit).Perm
      ([⟨0, [0x60, 0x01]⟩, ⟨4, [0, 0]⟩] ++ [⟨6, [0x99]⟩])
    exact List.perm_append_comm
  · exact ⟨0x60, by decide, by decide⟩

end UserspaceRouter
