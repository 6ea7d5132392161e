import Mathlib.Data.List.TakeWhile
import Mathlib.Tactic.Set
import UserspaceRouter.Net.Headers

/-!
# Netmasks, in the code and in the configuration

A netmask is an address whose ones are all in front. There are two notations for it, the address
itself and the number of ones, and the code converts between them (`prefixToNetmask_of_eq_some`).

A `Netmask` occurs in the configuration of the LAN, which is loaded and saved by serde. Loading and
saving are written by hand, and separately: saving writes the number of ones, loading reads an
address. What serde itself does with a `u8` and an `Ipv4Addr` belongs to the format
(`HumanReadable`), of which two things are assumed: a `u8` is written as an unsigned integer, and an
`Ipv4Addr` is read from strings only. In such a format nothing that is saved is ever loaded.
-/

namespace UserspaceRouter

/-! ### Bits -/

/-- `u32::count_ones`. -/
def countOnes (w : UInt32) : ℕ := (List.range 32).countP fun i ↦ w.toBitVec.getLsbD i

/-- `u32::trailing_zeros`, which is 32 for zero. -/
def trailingZeros (w : UInt32) : ℕ :=
  ((List.range 32).takeWhile fun i ↦ !w.toBitVec.getLsbD i).length

/-- If the elements of a list that have a property and those before the first of them are all there
are, then everything from that first one on has the property. -/
theorem forall_mem_dropWhile {α : Type*} {p : α → Bool} {l : List α}
    (h : l.countP p + (l.takeWhile fun a ↦ !p a).length = l.length) :
    ∀ a ∈ l.dropWhile fun a ↦ !p a, p a = true := by
  set front := l.takeWhile fun a ↦ !p a with hfront
  set back := l.dropWhile fun a ↦ !p a with hback
  have hsplit : front ++ back = l := List.takeWhile_append_dropWhile
  have hnone : front.countP p = 0 := by
    refine List.countP_eq_zero.2 fun a ha ↦ ?_
    simpa using List.mem_takeWhile_imp ha
  rw [← hsplit, List.countP_append, hnone, List.length_append] at h
  exact List.countP_eq_length.1 (by omega)

/-- In a word whose ones are all in front, the bits above the trailing zeros are set. -/
theorem getLsbD_eq_of_contiguous {w : UInt32} (h : countOnes w + trailingZeros w = 32) {i : ℕ}
    (hi : i < 32) : w.toBitVec.getLsbD i = decide (trailingZeros w ≤ i) := by
  have hback := forall_mem_dropWhile (p := fun i ↦ w.toBitVec.getLsbD i) (l := List.range 32) h
  set front := (List.range 32).takeWhile fun i ↦ !w.toBitVec.getLsbD i with hfront
  set back := (List.range 32).dropWhile fun i ↦ !w.toBitVec.getLsbD i
  have hsplit : front ++ back = List.range 32 := List.takeWhile_append_dropWhile
  have hget : (front ++ back)[i]? = some i := by
    rw [hsplit, List.getElem?_range hi]
  have hz : trailingZeros w = front.length := rfl
  rw [hz]
  rcases Nat.lt_or_ge i front.length with hlt | hge
  · rw [List.getElem?_append_left hlt] at hget
    have hclear := List.mem_takeWhile_imp (List.mem_of_getElem? hget)
    simp only [Bool.not_eq_true'] at hclear
    rw [hclear, decide_eq_false (by omega)]
  · rw [List.getElem?_append_right hge] at hget
    rw [hback i (List.mem_of_getElem? hget), decide_eq_true hge]

/-! ### The two notations -/

def netmaskToPrefix (netmask : Ipv4Addr) : Option UInt8 :=
  if countOnes netmask + trailingZeros netmask ≠ 32 then none
  else some (UInt8.ofNat (countOnes netmask))

def prefixToNetmask (p : UInt8) : Option Ipv4Addr :=
  if p > 32 then none else some (if p = 0 then 0 else 0xffffffff <<< (32 - p).toUInt32)

theorem getLsbD_prefixToNetmask : ∀ (n : Fin 33) (i : Fin 32),
    (prefixToNetmask (UInt8.ofNat n)).map (fun a ↦ a.toBitVec.getLsbD i) =
      some (decide (32 - n.val ≤ i.val)) := by
  decide +kernel

/-- **The conversions are inverse**: the number of ones tells the netmask. -/
theorem prefixToNetmask_of_eq_some {netmask : Ipv4Addr} {p : UInt8}
    (h : netmaskToPrefix netmask = some p) : prefixToNetmask p = some netmask := by
  rw [netmaskToPrefix] at h
  split_ifs at h with hones
  · obtain rfl := Option.some.inj h
    have hsum : countOnes netmask + trailingZeros netmask = 32 := not_not.1 hones
    set n := countOnes netmask
    have hbits (i : ℕ) (hi : i < 32) :
        (prefixToNetmask (UInt8.ofNat n)).map (fun a ↦ a.toBitVec.getLsbD i) =
          some (decide (32 - n ≤ i)) :=
      getLsbD_prefixToNetmask ⟨n, by omega⟩ ⟨i, hi⟩
    obtain ⟨mask, hmask, -⟩ := Option.map_eq_some_iff.1 (hbits 0 (by decide))
    rw [hmask]
    refine congrArg some (UInt32.toBitVec_inj.1 (BitVec.eq_of_getLsbD_eq fun i hi ↦ ?_))
    have hbit := hbits i hi
    rw [hmask, Option.map_some] at hbit
    rw [Option.some.inj hbit, getLsbD_eq_of_contiguous hsum hi]
    have hz : trailingZeros netmask = 32 - n := by omega
    rw [hz]

/-! ### Netmasks -/

/-- `Netmask`, which can only be made of an address with all ones in front. -/
structure Netmask where
  netmask : Ipv4Addr
  valid : (netmaskToPrefix netmask).isSome = true
deriving DecidableEq

namespace Netmask

def new (netmask : Ipv4Addr) : Option Netmask :=
  if h : (netmaskToPrefix netmask).isSome = true then some ⟨netmask, h⟩ else none

/-- `Netmask::prefix`, which never unwraps a `None`. -/
def prefixLen (m : Netmask) : UInt8 := (netmaskToPrefix m.netmask).get m.valid

theorem netmaskToPrefix_eq (m : Netmask) : netmaskToPrefix m.netmask = some m.prefixLen :=
  (Option.some_get m.valid).symm

end Netmask

/-! ### What serde does -/

/-- The values of a human-readable format. -/
inductive ConfigValue
  | unsigned (n : ℕ)
  | str (s : String)
  | seq (items : List ConfigValue)
  | map (fields : List (String × ConfigValue))

namespace ConfigValue

/-- The value of a field. -/
def field? (name : String) : List (String × ConfigValue) → Option ConfigValue
  | [] => none
  | (key, value) :: rest => if key = name then some value else field? name rest

end ConfigValue

/-- A human-readable format with errors `E`: its error constructors, what it does with the types
that a configuration is made of, and what is assumed of that. -/
structure HumanReadable (E : Type) where
  custom : String → E
  invalidType : ConfigValue → E
  missingField : String → E
  /-- `u8::serialize`. -/
  writeU8 : UInt8 → Except E ConfigValue
  /-- `Ipv4Addr::serialize`. -/
  writeIpv4 : Ipv4Addr → Except E ConfigValue
  /-- `Ipv4Addr::deserialize`. -/
  readIpv4 : ConfigValue → Except E Ipv4Addr
  writeU8_eq : ∀ b, writeU8 b = .ok (.unsigned b.toNat)
  readIpv4_of_ne_str : ∀ v, (∀ s, v ≠ .str s) → readIpv4 v = .error (invalidType v)

/-- `Display` of an address. -/
def Ipv4Addr.display (a : Ipv4Addr) : String :=
  ".".intercalate (a.octets.map fun b ↦ toString b.toNat)

namespace HumanReadable

variable {E : Type} (fmt : HumanReadable E)

/-- `Ipv4Addr::from_str`, as far as the format lets it be seen. -/
def parseIpv4 (s : String) : Except E Ipv4Addr := fmt.readIpv4 (.str s)

/-- The value of a field that must be there. -/
def required (fields : List (String × ConfigValue)) (name : String) : Except E ConfigValue :=
  match ConfigValue.field? name fields with
  | some value => .ok value
  | none => .error (fmt.missingField name)

end HumanReadable

/-! ### Saving and loading -/

section Serde

variable {E : Type} (fmt : HumanReadable E)

def Netmask.serialize (m : Netmask) : Except E ConfigValue :=
  match netmaskToPrefix m.netmask with
  | none => .error (fmt.custom ("invalid netmask: " ++ m.netmask.display))
  | some p => fmt.writeU8 p

def Netmask.deserialize (v : ConfigValue) : Except E Netmask :=
  match fmt.readIpv4 v with
  | .error e => .error e
  | .ok netmask =>
    -- contiguous ones followed by zeros
    if h : (netmaskToPrefix netmask).isSome = true then .ok ⟨netmask, h⟩
    else .error (fmt.custom ("invalid netmask: " ++ netmask.display))

/-- The configuration of the LAN side. -/
structure LanConfig where
  ip : Ipv4Addr
  mask : Netmask

/-- The derived `Serialize` of `LanConfig`. -/
def LanConfig.serialize (c : LanConfig) : Except E ConfigValue := do
  let ip ← fmt.writeIpv4 c.ip
  let mask ← c.mask.serialize fmt
  .ok (.map [("ip", ip), ("mask", mask)])

/-- The derived `Deserialize` of `LanConfig`. -/
def LanConfig.deserialize : ConfigValue → Except E LanConfig
  | .map fields => do
    let ip ← (fmt.required fields "ip").bind fmt.readIpv4
    let mask ← (fmt.required fields "mask").bind (Netmask.deserialize fmt)
    .ok ⟨ip, mask⟩
  | v => .error (fmt.invalidType v)

/-- What is saved is the number of ones. -/
theorem Netmask.serialize_eq (m : Netmask) :
    m.serialize fmt = .ok (.unsigned m.prefixLen.toNat) := by
  rw [serialize, m.netmaskToPrefix_eq]
  exact fmt.writeU8_eq m.prefixLen

/-- **What is loaded**: a netmask is loaded from the strings that denote its address. -/
theorem Netmask.deserialize_eq_ok_iff (v : ConfigValue) (m : Netmask) :
    deserialize fmt v = .ok m ↔ ∃ s, v = .str s ∧ fmt.parseIpv4 s = .ok m.netmask := by
  constructor
  · intro h
    rw [deserialize] at h
    split at h
    · exact absurd h (by simp)
    · rename_i netmask hread
      split_ifs at h with hvalid
      obtain rfl := Except.ok.inj h
      by_contra hstr
      have hne : ∀ s, v ≠ .str s := fun s hs ↦ hstr ⟨s, hs, by rw [← hread, hs]; rfl⟩
      rw [fmt.readIpv4_of_ne_str v hne] at hread
      cases hread
  · rintro ⟨s, rfl, hparse⟩
    have hread : fmt.readIpv4 (.str s) = .ok m.netmask := hparse
    simp only [deserialize, hread, dif_pos m.valid]

/-- A number is not loaded. -/
theorem Netmask.deserialize_unsigned (n : ℕ) :
    deserialize fmt (.unsigned n) = .error (fmt.invalidType (.unsigned n)) := by
  rw [deserialize, fmt.readIpv4_of_ne_str (.unsigned n) fun _ ↦ ConfigValue.noConfusion]

end Serde

/-- **A saved netmask is never loaded.** Every netmask is saved as its number of ones, which would
tell the netmask; it is loaded from exactly the strings that are read as its address; so loading
what was saved fails, and with it loading the configuration it is part of. -/
theorem saved_netmask_never_loads {E : Type} (fmt : HumanReadable E) (m : Netmask) :
    m.serialize fmt = .ok (.unsigned m.prefixLen.toNat) ∧
    prefixToNetmask m.prefixLen = some m.netmask ∧
    (∀ v, Netmask.deserialize fmt v = .ok m ↔
      ∃ s, v = .str s ∧ fmt.parseIpv4 s = .ok m.netmask) ∧
    (m.serialize fmt).bind (Netmask.deserialize fmt) =
      .error (fmt.invalidType (.unsigned m.prefixLen.toNat)) ∧
    ∀ ip, ∃ e, ((⟨ip, m⟩ : LanConfig).serialize fmt).bind (LanConfig.deserialize fmt) =
      .error e := by
  refine ⟨m.serialize_eq fmt, prefixToNetmask_of_eq_some m.netmaskToPrefix_eq,
    fun v ↦ Netmask.deserialize_eq_ok_iff fmt v m, ?_, fun ip ↦ ?_⟩
  · rw [m.serialize_eq fmt]
    exact Netmask.deserialize_unsigned fmt _
  · rcases hwrite : fmt.writeIpv4 ip with e | v
    · refine ⟨e, ?_⟩
      simp only [LanConfig.serialize, hwrite]
      rfl
    · have hsaved : (⟨ip, m⟩ : LanConfig).serialize fmt =
          .ok (.map [("ip", v), ("mask", .unsigned m.prefixLen.toNat)]) := by
        simp only [LanConfig.serialize, hwrite, m.serialize_eq fmt]
        rfl
      have hip : (fmt.required [("ip", v), ("mask", .unsigned m.prefixLen.toNat)] "ip").bind
          fmt.readIpv4 = fmt.readIpv4 v := rfl
      have hmask : (fmt.required [("ip", v), ("mask", .unsigned m.prefixLen.toNat)] "mask").bind
          (Netmask.deserialize fmt) = .error (fmt.invalidType (.unsigned m.prefixLen.toNat)) :=
        Netmask.deserialize_unsigned fmt _
      rw [hsaved]
      show ∃ e, LanConfig.deserialize fmt (.map _) = .error e
      simp only [LanConfig.deserialize, hip, hmask]
      rcases fmt.readIpv4 v with e | a
      · exact ⟨e, rfl⟩
      · exact ⟨_, rfl⟩

/-- A format that can read one address. -/
def sampleFormat : HumanReadable String where
  custom := id
  invalidType _ := "invalid type, expected IPv4 address"
  missingField name := "missing field " ++ name
  writeU8 b := .ok (.unsigned b.toNat)
  writeIpv4 a := .ok (.str a.display)
  readIpv4
    | .str s => if s = "255.255.255.0" then .ok 0xffffff00 else .error "invalid IPv4 address"
    | _ => .error "invalid type, expected IPv4 address"
  writeU8_eq _ := rfl
  readIpv4_of_ne_str v hne := by
    cases v with
    | str s => exact absurd rfl (hne s)
    | unsigned _ | seq _ | map _ => rfl

/-- `255.255.255.0` is saved as 24; it can be loaded from a string, and not from that. -/
theorem saved_netmask_never_loads_24 :
    ∃ m, Netmask.new 0xffffff00 = some m ∧ m.prefixLen = 24 ∧
      Netmask.deserialize sampleFormat (.str "255.255.255.0") = .ok m ∧
      (m.serialize sampleFormat).bind (Netmask.deserialize sampleFormat) =
        .error "invalid type, expected IPv4 address" := by
  have hvalid : (netmaskToPrefix 0xffffff00).isSome = true := by decide
  obtain ⟨-, -, hload, hsaved, -⟩ :=
    saved_netmask_never_loads sampleFormat ⟨0xffffff00, hvalid⟩
  have hlen : netmaskToPrefix 0xffffff00 = some 24 := by decide
  exact ⟨⟨0xffffff00, hvalid⟩, dif_pos hvalid, Option.get_of_eq_some _ hlen,
    (hload _).2 ⟨"255.255.255.0", rfl, rfl⟩, hsaved⟩

/-- `255.255.255.0` is not loaded from what it was saved as, in any human-readable format. -/
theorem saved_netmask_not_loaded :
    ∃ m, Netmask.new 0xffffff00 = some m ∧ ∀ (E : Type) (fmt : HumanReadable E),
      (m.serialize fmt).bind (Netmask.deserialize fmt) ≠ .ok m := by
  have hvalid : (netmaskToPrefix 0xffffff00).isSome = true := by decide
  refine ⟨⟨0xffffff00, hvalid⟩, dif_pos hvalid, fun E fmt hload ↦ ?_⟩
  rw [Netmask.serialize_eq fmt] at hload
  exact absurd hload (by simp [Except.bind, Netmask.deserialize_unsigned])

end UserspaceRouter
