import Mathlib.Data.PEquiv
import UserspaceRouter.Foundations.AssocMap
import UserspaceRouter.Net.Headers

/-!
# The source NAT table

Endpoint-independent mapping: an internal endpoint `(protocol, ip, port)` is bound to one external
port, whoever the remote peer is, so the reverse table needs only `(protocol, external port)`. The
code keeps the two directions in two hash maps and draws new ports from `[portLo, portHi]` with a
circular cursor that both protocols share.

## What the table is for

Abstractly a table is a partial bijection between internal endpoints and external ports that only
ever grows. `Inv` says that the two maps describe one (`Inv.bindings`, a partial equivalence), and
`Extends` that one table's bijection contains another's. Everything a call can do is said once, by
`egress_cases`: it finds a binding, it adds one at a free port, or it changes nothing. That a call
keeps `Inv` (`inv_egress`) and only adds bindings (`extends_egress`) is read off it, and that an
endpoint gets its own traffic back is a fact about partial equivalences.
-/

namespace UserspaceRouter

/-- The transport protocols the NAT translates. -/
inductive L4
  | tcp
  | udp
deriving DecidableEq, Repr

namespace L4

def proto : L4 → UInt8
  | tcp => Proto.tcp
  | udp => Proto.udp

def fromProto (p : UInt8) : Option L4 :=
  if p = Proto.tcp then some tcp
  else if p = Proto.udp then some udp
  else none

end L4

/-- An internal (behind-NAT) transport endpoint. -/
structure Endpoint where
  ip : Ipv4Addr
  port : UInt16
deriving DecidableEq, Repr

/-- The source rewrite to apply to an egress packet. -/
structure Egress where
  newSrcIp : Ipv4Addr
  newSrcPort : UInt16
deriving DecidableEq, Repr

/-- The destination rewrite applied to an ingress packet: the internal endpoint of the flow. -/
structure Ingress where
  dstIp : Ipv4Addr
  dstPort : UInt16
deriving DecidableEq, Repr

/-- A NAT table: forward and reverse maps plus the external-port pool. -/
structure NatTable where
  wanIp : Ipv4Addr
  portLo : UInt16
  portHi : UInt16
  nextPort : UInt16
  /-- `(proto, internal ip, internal port)` to external port. -/
  fwd : AList fun _ : UInt8 × Ipv4Addr × UInt16 ↦ UInt16
  /-- `(proto, external port)` to internal endpoint. -/
  rev : AList fun _ : UInt8 × UInt16 ↦ Endpoint

namespace NatTable

/-- `Nat::new`; `none` is its failed assertion. -/
def new (wanIp : Ipv4Addr) (portLo portHi : UInt16) : Option NatTable :=
  if 0 < portLo ∧ portLo ≤ portHi then
    some { wanIp, portLo, portHi, nextPort := portLo, fwd := ∅, rev := ∅ }
  else none

/-- `Nat::set_wan_ip`. -/
def setWanIp (t : NatTable) (ip : Ipv4Addr) : NatTable := { t with wanIp := ip }

/-- The port after `port` on the circle `[portLo, portHi]`. -/
def nextCand (t : NatTable) (port : UInt16) : UInt16 :=
  if t.portHi ≤ port then t.portLo else port + 1

/-- The scan of `alloc_port`: at most `n` candidates from `cand` on. It returns the first free port
and the cursor to store. -/
def scan (t : NatTable) (proto : UInt8) : ℕ → UInt16 → Option (UInt16 × UInt16)
  | 0, _ => none
  | n + 1, port =>
    if (proto, port) ∈ t.rev then t.scan proto n (t.nextCand port)
    else some (port, t.nextCand port)

/-- `Nat::alloc_port`. -/
def allocPort (t : NatTable) (proto : UInt8) : Option (NatTable × UInt16) :=
  let span := (t.portHi - t.portLo).toNat + 1
  (t.scan proto span t.nextPort).map fun r ↦ ({ t with nextPort := r.2 }, r.1)

/-- Record a binding in both maps. -/
def bind (t : NatTable) (proto : UInt8) (src : Endpoint) (ext : UInt16) : NatTable :=
  { t with
    fwd := t.fwd.insert (proto, src.ip, src.port) ext
    rev := t.rev.insert (proto, ext) src }

/-- `Nat::egress`: the table after the call, and the rewrite unless the pool is full. -/
def egress (t : NatTable) (l4 : L4) (srcIp : Ipv4Addr) (srcPort : UInt16) :
    NatTable × Option Egress :=
  let proto := l4.proto
  match t.fwd.lookup (proto, srcIp, srcPort) with
  | some ext => (t, some ⟨t.wanIp, ext⟩)
  | none =>
    match t.allocPort proto with
    | none => (t, none)
    | some (t', ext) => (t'.bind proto ⟨srcIp, srcPort⟩ ext, some ⟨t'.wanIp, ext⟩)

/-- `Nat::ingress`: the internal endpoint behind an external port. -/
def ingress (t : NatTable) (l4 : L4) (extPort : UInt16) : Option (Ipv4Addr × UInt16) :=
  (t.rev.lookup (l4.proto, extPort)).map fun e ↦ (e.ip, e.port)

/-! ### The invariant, and the bijection it describes -/

/-- `p` is a port of the pool. -/
def InRange (t : NatTable) (p : UInt16) : Prop := t.portLo ≤ p ∧ p ≤ t.portHi

/-- The two maps are inverse to each other, and every port in sight is a port of the pool. -/
structure Inv (t : NatTable) : Prop where
  lo_le_hi : t.portLo ≤ t.portHi
  next : t.InRange t.nextPort
  inverse : ∀ proto ip port ext,
    t.fwd.lookup (proto, ip, port) = some ext ↔ t.rev.lookup (proto, ext) = some ⟨ip, port⟩
  range : ∀ k ext, t.fwd.lookup k = some ext → t.InRange ext

/-- The partial bijection between internal endpoints and external ports, protocol by protocol. -/
def Inv.bindings {t : NatTable} (h : t.Inv) : UInt8 × Ipv4Addr × UInt16 ≃. UInt8 × UInt16 where
  toFun k := (t.fwd.lookup k).map fun ext ↦ (k.1, ext)
  invFun x := (t.rev.lookup x).map fun e ↦ (x.1, e.ip, e.port)
  inv := by
    rintro ⟨proto, ip, port⟩ ⟨proto', ext⟩
    simp only [Option.map_eq_some_iff, Prod.mk.injEq]
    constructor
    · rintro ⟨e, hrev, rfl, rfl, rfl⟩
      exact ⟨ext, (h.inverse _ _ _ _).2 hrev, rfl, rfl⟩
    · rintro ⟨_, hfwd, rfl, rfl⟩
      exact ⟨_, (h.inverse _ _ _ _).1 hfwd, rfl, rfl, rfl⟩

theorem Inv.mem_bindings_iff {t : NatTable} (h : t.Inv) {proto : UInt8} {ip : Ipv4Addr}
    {port ext : UInt16} :
    (proto, ext) ∈ h.bindings (proto, ip, port) ↔ t.fwd.lookup (proto, ip, port) = some ext := by
  show (t.fwd.lookup (proto, ip, port)).map (fun ext ↦ (proto, ext)) = some (proto, ext) ↔ _
  simp

/-- **Distinct endpoints, distinct ports.** -/
theorem Inv.endpoint_unique {t : NatTable} (h : t.Inv) {proto : UInt8} {ip ip' : Ipv4Addr}
    {port port' ext : UInt16} (hk : t.fwd.lookup (proto, ip, port) = some ext)
    (hk' : t.fwd.lookup (proto, ip', port') = some ext) : ip = ip' ∧ port = port' := by
  have heq := h.bindings.inj (h.mem_bindings_iff.2 hk) (h.mem_bindings_iff.2 hk')
  simpa using heq

/-- The reverse lookup of a bound port finds its endpoint. -/
theorem Inv.ingress_eq_some_iff {t : NatTable} (h : t.Inv) {l4 : L4} {ip : Ipv4Addr}
    {port ext : UInt16} :
    t.ingress l4 ext = some (ip, port) ↔ t.fwd.lookup (l4.proto, ip, port) = some ext := by
  rw [h.inverse, ingress, Option.map_eq_some_iff]
  constructor
  · rintro ⟨e, he, heq⟩
    obtain ⟨rfl, rfl⟩ := Prod.mk.inj heq
    exact he
  · intro he
    exact ⟨_, he, rfl⟩

/-- Every port a reverse lookup finds is a port of the pool. -/
theorem Inv.rev_range {t : NatTable} (h : t.Inv) {proto : UInt8} {ext : UInt16} {e : Endpoint}
    (he : t.rev.lookup (proto, ext) = some e) : t.InRange ext :=
  h.range (proto, e.ip, e.port) ext ((h.inverse _ _ _ _).2 he)

theorem inv_new {wanIp : Ipv4Addr} {lo hi : UInt16} {t : NatTable} (h : new wanIp lo hi = some t) :
    t.Inv ∧ t.portLo = lo ∧ t.portHi = hi := by
  unfold new at h
  split_ifs at h with hr
  obtain rfl := Option.some.inj h
  refine ⟨⟨hr.2, ⟨UInt16.le_refl _, hr.2⟩, ?_, ?_⟩, rfl, rfl⟩
  · intro proto ip port ext
    simp
  · intro k ext hk
    exact absurd hk (by simp)

/-! ### What allocation returns -/

theorem inRange_nextCand {t : NatTable} (h : t.portLo ≤ t.portHi) {p : UInt16} (hp : t.InRange p) :
    t.InRange (t.nextCand p) := by
  unfold nextCand
  split_ifs with hge
  · exact ⟨UInt16.le_refl _, h⟩
  · have h₁ := UInt16.le_iff_toNat_le.1 hp.1
    have h₂ := UInt16.lt_iff_toNat_lt.1 (UInt16.not_le.1 hge)
    have h₃ := t.portHi.toNat_lt
    have hsucc : (p + 1).toNat = p.toNat + 1 := by
      rw [UInt16.toNat_add, UInt16.toNat_one]
      omega
    exact ⟨UInt16.le_iff_toNat_le.2 (by omega), UInt16.le_iff_toNat_le.2 (by omega)⟩

/-- The scan returns a free port of the pool, and a cursor inside the pool. -/
theorem scan_spec {t : NatTable} (h : t.portLo ≤ t.portHi) {proto : UInt8} {n : ℕ}
    {cand port next : UInt16} (hc : t.InRange cand)
    (hs : t.scan proto n cand = some (port, next)) :
    (proto, port) ∉ t.rev ∧ t.InRange port ∧ t.InRange next := by
  induction n generalizing cand with
  | zero => exact absurd hs (by simp [scan])
  | succ n ih =>
    have hnext := inRange_nextCand h hc
    rw [scan] at hs
    split_ifs at hs with hmem
    · exact ih hnext hs
    · obtain ⟨rfl, rfl⟩ := Prod.mk.inj (Option.some.inj hs)
      exact ⟨hmem, hc, hnext⟩

/-- A scan that finds nothing has come by every port within its reach: from `cand`, a port of the
pool is reached by counting up, past the end of the pool if it lies behind. -/
theorem mem_rev_of_scan_eq_none {t : NatTable} {proto : UInt8} {n : ℕ} {cand p : UInt16}
    (hc : t.InRange cand) (hp : t.InRange p) (hs : t.scan proto n cand = none)
    (hn : (if cand ≤ p then p.toNat - cand.toNat
      else p.toNat + (t.portHi.toNat - t.portLo.toNat + 1) - cand.toNat) < n) :
    (proto, p) ∈ t.rev := by
  induction n generalizing cand with
  | zero => exact absurd hn (Nat.not_lt_zero _)
  | succ n ih =>
    have hlo_le : t.portLo ≤ t.portHi := UInt16.le_trans hc.1 hc.2
    rw [scan] at hs
    split_ifs at hs with hmem
    by_cases hcp : cand = p
    · rwa [← hcp]
    · have hnext := inRange_nextCand hlo_le hc
      refine ih hnext hs ?_
      have hne : cand.toNat ≠ p.toNat := fun h ↦ hcp (UInt16.toNat.inj h)
      have hhi := t.portHi.toNat_lt
      obtain ⟨hc₁, hc₂⟩ := hc
      obtain ⟨hp₁, hp₂⟩ := hp
      have hstep : (t.nextCand cand).toNat =
          if t.portHi.toNat ≤ cand.toNat then t.portLo.toNat else cand.toNat + 1 := by
        simp only [nextCand, UInt16.le_iff_toNat_le]
        split_ifs with hge
        · rfl
        · rw [UInt16.toNat_add, UInt16.toNat_one]
          omega
      simp only [UInt16.le_iff_toNat_le] at hn hc₁ hc₂ hp₁ hp₂ ⊢
      rw [hstep]
      split_ifs at hn ⊢ <;> omega

/-- **Allocation fails only if every port of the pool is bound.** -/
theorem mem_rev_of_scan_pool_eq_none {t : NatTable} (h : t.Inv) {proto : UInt8}
    (hs : t.scan proto ((t.portHi - t.portLo).toNat + 1) t.nextPort = none) {p : UInt16}
    (hp : t.InRange p) : (proto, p) ∈ t.rev := by
  refine mem_rev_of_scan_eq_none h.next hp hs ?_
  obtain ⟨hn₁, hn₂⟩ := h.next
  obtain ⟨hp₁, hp₂⟩ := hp
  rw [UInt16.toNat_sub_of_le _ _ h.lo_le_hi]
  simp only [UInt16.le_iff_toNat_le] at hn₁ hn₂ hp₁ hp₂ ⊢
  split_ifs <;> omega

/-- **What `egress` can do.** It finds the binding of the endpoint; or it has none, and every port
of the pool is bound, and it changes nothing; or it binds the endpoint to a free port of the
pool. -/
theorem egress_cases {t : NatTable} (h : t.Inv) (l4 : L4) (ip : Ipv4Addr) (port : UInt16) :
    (∃ ext, t.fwd.lookup (l4.proto, ip, port) = some ext ∧
      t.egress l4 ip port = (t, some ⟨t.wanIp, ext⟩)) ∨
    (t.fwd.lookup (l4.proto, ip, port) = none ∧ (∀ p, t.InRange p → (l4.proto, p) ∈ t.rev) ∧
      t.egress l4 ip port = (t, none)) ∨
    (∃ ext next, t.fwd.lookup (l4.proto, ip, port) = none ∧
      t.rev.lookup (l4.proto, ext) = none ∧ t.InRange ext ∧ t.InRange next ∧
      t.egress l4 ip port =
        ({ t with nextPort := next }.bind l4.proto ⟨ip, port⟩ ext, some ⟨t.wanIp, ext⟩)) := by
  rcases hk : t.fwd.lookup (l4.proto, ip, port) with - | ext
  · rcases hs : t.scan l4.proto ((t.portHi - t.portLo).toNat + 1) t.nextPort with - | ⟨ext, next⟩
    · refine Or.inr (Or.inl ⟨rfl, fun p hp ↦ mem_rev_of_scan_pool_eq_none h hs hp, ?_⟩)
      simp [egress, allocPort, hk, hs]
    · obtain ⟨hfree, hext, hnext⟩ := scan_spec h.lo_le_hi h.next hs
      refine Or.inr (Or.inr ⟨ext, next, rfl, AList.lookup_eq_none.2 hfree, hext, hnext, ?_⟩)
      simp [egress, allocPort, hk, hs]
  · refine Or.inl ⟨ext, rfl, ?_⟩
    simp [egress, hk]

/-- A refused endpoint is unbound, and the table is left alone. -/
theorem egress_eq_none {t : NatTable} {l4 : L4} {ip : Ipv4Addr} {port : UInt16}
    (h : (t.egress l4 ip port).2 = none) :
    t.egress l4 ip port = (t, none) ∧ t.fwd.lookup (l4.proto, ip, port) = none := by
  unfold egress at h ⊢
  rcases hk : t.fwd.lookup (l4.proto, ip, port) with - | ext
  · rcases ha : t.allocPort l4.proto with - | ⟨t', ext⟩
    · simp [hk, ha]
    · simp [hk, ha] at h
  · simp [hk] at h

/-! ### What calls preserve -/

/-- Binding a free port to an unbound endpoint keeps the maps inverse. -/
theorem inv_bind {t : NatTable} (h : t.Inv) {proto : UInt8} {src : Endpoint} {ext next : UInt16}
    (hfwd : t.fwd.lookup (proto, src.ip, src.port) = none)
    (hrev : t.rev.lookup (proto, ext) = none) (hext : t.InRange ext) (hnext : t.InRange next) :
    ({ t with nextPort := next }.bind proto src ext).Inv := by
  refine ⟨h.lo_le_hi, hnext, ?_, ?_⟩
  · intro proto' ip port ext'
    show (t.fwd.insert (proto, src.ip, src.port) ext).lookup (proto', ip, port) = some ext' ↔
      (t.rev.insert (proto, ext) src).lookup (proto', ext') = some ⟨ip, port⟩
    rw [AList.lookup_insert_ite, AList.lookup_insert_ite]
    -- the new pair is matched on both sides or on neither: a free port and an unbound endpoint
    -- have no partner among the old bindings
    by_cases hk : (proto', ip, port) = (proto, src.ip, src.port)
    · obtain ⟨rfl, rfl, rfl⟩ : proto' = proto ∧ ip = src.ip ∧ port = src.port := by simpa using hk
      by_cases hx : ext' = ext
      · simp [hx]
      · have hnone : t.rev.lookup (proto', ext') ≠ some ⟨src.ip, src.port⟩ := by
          rw [Ne, ← h.inverse, hfwd]
          simp
        simp [hx, hnone, Ne.symm hx]
    · rw [if_neg hk]
      by_cases hx : (proto', ext') = (proto, ext)
      · obtain ⟨rfl, rfl⟩ : proto' = proto ∧ ext' = ext := by simpa using hx
        have hne : src ≠ ⟨ip, port⟩ := by
          rintro rfl
          exact hk rfl
        simp [h.inverse, hrev, hne]
      · rw [if_neg hx]
        exact h.inverse _ _ _ _
  · intro k ext' hk
    have hk' : (t.fwd.insert (proto, src.ip, src.port) ext).lookup k = some ext' := hk
    rw [AList.lookup_insert_ite] at hk'
    split_ifs at hk' with heq
    · obtain rfl := Option.some.inj hk'
      exact hext
    · exact h.range k ext' hk'

/-- **`egress` keeps the invariant.** -/
theorem inv_egress {t : NatTable} (h : t.Inv) (l4 : L4) (ip : Ipv4Addr) (port : UInt16) :
    (t.egress l4 ip port).1.Inv := by
  obtain ⟨ext, -, heq⟩ | ⟨-, -, heq⟩ | ⟨ext, next, hfwd, hrev, hext, hnext, heq⟩ :=
    egress_cases h l4 ip port
  · rwa [heq]
  · rwa [heq]
  · rw [heq]
    exact inv_bind h hfwd hrev hext hnext

theorem inv_setWanIp {t : NatTable} (h : t.Inv) (ip : Ipv4Addr) : (t.setWanIp ip).Inv :=
  ⟨h.lo_le_hi, h.next, h.inverse, h.range⟩

/-- `t'` has the same pool as `t`, and every binding of `t`. -/
structure Extends (t t' : NatTable) : Prop where
  portLo_eq : t'.portLo = t.portLo
  portHi_eq : t'.portHi = t.portHi
  fwd_le : ∀ k ext, t.fwd.lookup k = some ext → t'.fwd.lookup k = some ext
  rev_le : ∀ x e, t.rev.lookup x = some e → t'.rev.lookup x = some e

theorem Extends.refl (t : NatTable) : t.Extends t :=
  ⟨rfl, rfl, fun _ _ h ↦ h, fun _ _ h ↦ h⟩

theorem Extends.trans {t t' t'' : NatTable} (h : t.Extends t') (h' : t'.Extends t'') :
    t.Extends t'' :=
  ⟨h'.portLo_eq.trans h.portLo_eq, h'.portHi_eq.trans h.portHi_eq,
    fun k ext hk ↦ h'.fwd_le k ext (h.fwd_le k ext hk),
    fun x e hx ↦ h'.rev_le x e (h.rev_le x e hx)⟩

/-- **`egress` only adds bindings.** -/
theorem extends_egress {t : NatTable} (h : t.Inv) (l4 : L4) (ip : Ipv4Addr) (port : UInt16) :
    t.Extends (t.egress l4 ip port).1 := by
  obtain ⟨ext, -, heq⟩ | ⟨-, -, heq⟩ | ⟨ext, next, hfwd, hrev, -, -, heq⟩ :=
    egress_cases h l4 ip port
  · rw [heq]
    exact Extends.refl t
  · rw [heq]
    exact Extends.refl t
  · rw [heq]
    refine ⟨rfl, rfl, fun k ext' hk ↦ ?_, fun x e hx ↦ ?_⟩
    · show (t.fwd.insert (l4.proto, ip, port) ext).lookup k = some ext'
      rw [AList.lookup_insert_ite, if_neg, hk]
      rintro rfl
      exact absurd (hfwd.symm.trans hk) (by simp)
    · show (t.rev.insert (l4.proto, ext) ⟨ip, port⟩).lookup x = some e
      rw [AList.lookup_insert_ite, if_neg, hx]
      rintro rfl
      exact absurd (hrev.symm.trans hx) (by simp)

theorem extends_setWanIp (t : NatTable) (ip : Ipv4Addr) : t.Extends (t.setWanIp ip) :=
  ⟨rfl, rfl, fun _ _ h ↦ h, fun _ _ h ↦ h⟩

/-- The port `egress` hands out is the one bound to the endpoint afterwards, and the address is the
current WAN address. -/
theorem lookup_of_egress_eq_some {t : NatTable} (h : t.Inv) {l4 : L4} {ip : Ipv4Addr}
    {port : UInt16} {x : Egress} (hx : (t.egress l4 ip port).2 = some x) :
    (t.egress l4 ip port).1.fwd.lookup (l4.proto, ip, port) = some x.newSrcPort ∧
      x.newSrcIp = t.wanIp := by
  obtain ⟨ext, hk, heq⟩ | ⟨-, -, heq⟩ | ⟨ext, next, -, -, -, -, heq⟩ := egress_cases h l4 ip port
  · rw [heq] at hx ⊢
    obtain rfl := Option.some.inj hx
    exact ⟨hk, rfl⟩
  · rw [heq] at hx
    exact absurd hx (by simp)
  · rw [heq] at hx ⊢
    obtain rfl := Option.some.inj hx
    exact ⟨AList.lookup_insert _, rfl⟩

end NatTable

end UserspaceRouter
