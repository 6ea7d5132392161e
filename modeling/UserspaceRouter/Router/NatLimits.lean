import UserspaceRouter.Router.Translate

/-!
# When the NAT refuses

A translation refuses a frame that carries no TCP or UDP packet, and one whose packet the table has
no place for. `transportOf` is the packet that both directions look for, with its two endpoints;
`map_classify` and `classify_cases` tie their classifications to it.

*The table refuses only if it must.* The ports of the bindings of a protocol are distinct ports of
the pool (`extPorts`), so as many of them as the pool has ports is all of them, and the scan finds a
port otherwise (`Inv.egress_eq_none_iff`). The other protocol does not count.

*A refusal changes nothing*, neither the frame nor the table.

*Fragments.* What follows the IPv4 header of a fragment other than the first is data, but the
classification never asks for the fragment offset: data that can be read as a transport header is
translated as one.
-/

namespace UserspaceRouter

/-! ### The packet of a frame -/

/-- The TCP or UDP packet of an IPv4 frame: its protocol, its source and its destination. -/
def transportOf (frame : Bytes) : Option (L4 × Endpoint × Endpoint) := do
  let eth ← parse frame
  let ip ← eth.ipv4
  match ← L4.fromProto ip.protocol with
  | .tcp =>
    let t ← ip.tcp
    some (.tcp, ⟨ip.header.src, t.srcPort⟩, ⟨ip.header.dst, t.dstPort⟩)
  | .udp =>
    let u ← ip.udp
    some (.udp, ⟨ip.header.src, u.srcPort⟩, ⟨ip.header.dst, u.dstPort⟩)

/-- The endpoint that a side translates. -/
def Side.endpoint : Side → Endpoint × Endpoint → Endpoint
  | .src => Prod.fst
  | .dst => Prod.snd

/-- **Both classifications read the same packet.** -/
theorem map_classify (side : Side) (frame : Bytes) :
    ((classify side frame).map fun c ↦ (c.l4, (⟨c.ip, c.port⟩ : Endpoint))) =
      (transportOf frame).map fun p ↦ (p.1, side.endpoint p.2) := by
  unfold classify transportOf
  simp only [Option.bind_eq_bind]
  rcases parse frame with - | eth
  · rfl
  rcases hip : eth.ipv4 with - | ip
  · simp only [Option.bind_some, hip]
    rfl
  rcases hl4 : L4.fromProto ip.protocol with - | l4
  · simp only [Option.bind_some, hip, hl4]
    rfl
  simp only [Option.bind_some, hip, hl4]
  cases l4 with
  | tcp =>
    rcases ht : ip.tcp with - | t
    · simp only [Side.l4Fields, ht]
      rfl
    · simp only [Side.l4Fields, ht]
      cases side <;> rfl
  | udp =>
    rcases hu : ip.udp with - | u
    · simp only [Side.l4Fields, hu]
      rfl
    · simp only [Side.l4Fields, hu]
      cases side <;> rfl

/-- A frame is classified exactly if it carries a packet, and then by the endpoint of the side. -/
theorem classify_cases (side : Side) (frame : Bytes) :
    (classify side frame = none ∧ transportOf frame = none) ∨
      ∃ c src dst, classify side frame = some c ∧ transportOf frame = some (c.l4, src, dst) ∧
        side.endpoint (src, dst) = ⟨c.ip, c.port⟩ := by
  have hmap := map_classify side frame
  rcases hc : classify side frame with - | c
  · rw [hc, Option.map_none, eq_comm, Option.map_eq_none_iff] at hmap
    exact Or.inl ⟨rfl, hmap⟩
  · rw [hc, Option.map_some, eq_comm, Option.map_eq_some_iff] at hmap
    obtain ⟨⟨l4, src, dst⟩, hp, heq⟩ := hmap
    obtain ⟨rfl, hend⟩ := Prod.mk.inj heq
    exact Or.inr ⟨c, src, dst, rfl, hp, hend⟩

/-- **What `translate_egress` refuses**, and that it then changes nothing. -/
theorem translateEgress_refuses_iff (frame : Bytes) (t : NatTable) :
    ((translateEgress frame t).2.2 = none ↔ transportOf frame = none ∨
      ∃ l4 src dst, transportOf frame = some (l4, src, dst) ∧
        (t.egress l4 src.ip src.port).2 = none) ∧
    ((translateEgress frame t).2.2 = none → translateEgress frame t = (frame, t, none)) := by
  rcases classify_cases .src frame with ⟨hc, hp⟩ | ⟨c, src, dst, hc, hp, hend⟩
  · simp [translateEgress, hc, hp]
  · obtain rfl : src = ⟨c.ip, c.port⟩ := hend
    simp only [translateEgress, hc, hp, Option.some.injEq, Prod.mk.injEq, reduceCtorEq, false_or]
    rcases he : t.egress c.l4 c.ip c.port with ⟨t', - | x⟩
    · have hnone : (t.egress c.l4 c.ip c.port).2 = none := by rw [he]
      obtain ⟨heq, -⟩ := NatTable.egress_eq_none hnone
      obtain ⟨rfl, -⟩ := Prod.mk.inj (heq.symm.trans he)
      exact ⟨⟨fun _ ↦ ⟨_, _, _, ⟨rfl, rfl, rfl⟩, hnone⟩, fun _ ↦ rfl⟩, fun _ ↦ rfl⟩
    · refine ⟨⟨by simp, ?_⟩, by simp⟩
      rintro ⟨l4, src, dst', ⟨rfl, rfl, rfl⟩, hnone⟩
      rw [he] at hnone
      exact nomatch hnone

/-- **What `translate_ingress` refuses**, and that it then changes nothing. -/
theorem translateIngress_refuses_iff (frame : Bytes) (t : NatTable) :
    ((translateIngress frame t).2 = none ↔ transportOf frame = none ∨
      ∃ l4 src dst, transportOf frame = some (l4, src, dst) ∧ t.ingress l4 dst.port = none) ∧
    ((translateIngress frame t).2 = none → translateIngress frame t = (frame, none)) := by
  rcases classify_cases .dst frame with ⟨hc, hp⟩ | ⟨c, src, dst, hc, hp, hend⟩
  · simp [translateIngress, hc, hp]
  · obtain rfl : dst = ⟨c.ip, c.port⟩ := hend
    simp only [translateIngress, hc, hp, Option.some.injEq, Prod.mk.injEq, reduceCtorEq, false_or]
    rcases hi : t.ingress c.l4 c.port with - | ⟨newIp, newPort⟩
    · exact ⟨⟨fun _ ↦ ⟨_, _, _, ⟨rfl, rfl, rfl⟩, hi⟩, fun _ ↦ rfl⟩, fun _ ↦ rfl⟩
    · refine ⟨⟨by simp, ?_⟩, by simp⟩
      rintro ⟨l4, src', dst, ⟨rfl, rfl, rfl⟩, hnone⟩
      exact nomatch hi.symm.trans hnone

/-! ### A full pool -/

namespace NatTable

/-- The external ports of the bindings of a protocol. -/
def extPorts (t : NatTable) (proto : UInt8) : List UInt16 :=
  (t.fwd.entries.filter fun e ↦ e.1.1 == proto).map fun e ↦ e.2

/-- The number of bindings of a protocol. -/
def bindingCount (t : NatTable) (l4 : L4) : ℕ :=
  (t.fwd.entries.filter fun e ↦ e.1.1 == l4.proto).length

/-- The ports of the pool. -/
def pool (t : NatTable) : List UInt16 :=
  (List.range (t.portHi.toNat - t.portLo.toNat + 1)).map fun i ↦
    UInt16.ofNat (t.portLo.toNat + i)

theorem mem_extPorts {t : NatTable} {proto : UInt8} {ext : UInt16} :
    ext ∈ t.extPorts proto ↔ ∃ ip port, t.fwd.lookup (proto, ip, port) = some ext := by
  rw [extPorts, List.mem_map]
  constructor
  · rintro ⟨⟨⟨proto', ip, port⟩, ext'⟩, he, rfl⟩
    obtain ⟨hmem, hproto⟩ := List.mem_filter.1 he
    obtain rfl : proto' = proto := eq_of_beq hproto
    exact ⟨ip, port, Option.mem_def.1 (AList.mem_lookup_iff.2 hmem)⟩
  · rintro ⟨ip, port, hk⟩
    refine ⟨⟨(proto, ip, port), ext⟩, List.mem_filter.2 ⟨?_, beq_self_eq_true proto⟩, rfl⟩
    exact AList.mem_lookup_iff.1 (Option.mem_def.2 hk)

/-- Distinct bindings have distinct ports. -/
theorem Inv.nodup_extPorts {t : NatTable} (h : t.Inv) (proto : UInt8) :
    (t.extPorts proto).Nodup := by
  have hentries : (t.fwd.entries.filter fun e ↦ e.1.1 == proto).Nodup :=
    (List.NodupKeys.nodup t.fwd.nodupKeys).filter _
  refine hentries.map_on ?_
  rintro ⟨⟨p₁, ip₁, port₁⟩, ext₁⟩ h₁ ⟨⟨p₂, ip₂, port₂⟩, ext₂⟩ h₂ (rfl : ext₁ = ext₂)
  obtain ⟨hmem₁, hp₁⟩ := List.mem_filter.1 h₁
  obtain ⟨hmem₂, hp₂⟩ := List.mem_filter.1 h₂
  obtain rfl : p₁ = proto := eq_of_beq hp₁
  obtain rfl : p₂ = p₁ := eq_of_beq hp₂
  obtain ⟨rfl, rfl⟩ := h.endpoint_unique (Option.mem_def.1 (AList.mem_lookup_iff.2 hmem₁))
    (Option.mem_def.1 (AList.mem_lookup_iff.2 hmem₂))
  rfl

/-- The endpoints that hold the bindings of a protocol, each of which holds one. -/
theorem exists_endpoints (t : NatTable) (l4 : L4) :
    ∃ es : List Endpoint, es.Nodup ∧ es.length = t.bindingCount l4 ∧
      ∀ e ∈ es, ∃ ext, t.fwd.lookup (l4.proto, e.ip, e.port) = some ext := by
  have hentries : (t.fwd.entries.filter fun e ↦ e.1.1 == l4.proto).Nodup :=
    (List.NodupKeys.nodup t.fwd.nodupKeys).filter _
  refine ⟨(t.fwd.entries.filter fun e ↦ e.1.1 == l4.proto).map fun e ↦ ⟨e.1.2.1, e.1.2.2⟩,
    hentries.map_on ?_, List.length_map _, List.forall_mem_map.2 ?_⟩
  · rintro ⟨⟨p₁, ip₁, port₁⟩, ext₁⟩ h₁ ⟨⟨p₂, ip₂, port₂⟩, ext₂⟩ h₂ heq
    obtain ⟨rfl, rfl⟩ : ip₁ = ip₂ ∧ port₁ = port₂ := Endpoint.mk.inj heq
    obtain ⟨hmem₁, hp₁⟩ := List.mem_filter.1 h₁
    obtain ⟨hmem₂, hp₂⟩ := List.mem_filter.1 h₂
    obtain rfl : p₁ = p₂ := (eq_of_beq hp₁).trans (eq_of_beq hp₂).symm
    exact t.fwd.nodupKeys.eq_of_fst_eq hmem₁ hmem₂ rfl
  · rintro ⟨⟨p, ip, port⟩, ext⟩ he
    obtain ⟨hmem, hp⟩ := List.mem_filter.1 he
    obtain rfl : p = l4.proto := eq_of_beq hp
    exact ⟨ext, Option.mem_def.1 (AList.mem_lookup_iff.2 hmem)⟩

section Pool

variable {t : NatTable}

theorem toNat_pool (hle : t.portLo ≤ t.portHi) {i : ℕ}
    (hi : i < t.portHi.toNat - t.portLo.toNat + 1) :
    (UInt16.ofNat (t.portLo.toNat + i)).toNat = t.portLo.toNat + i := by
  have hhi := t.portHi.toNat_lt
  have hle' := UInt16.le_iff_toNat_le.1 hle
  exact UInt16.toNat_ofNat_of_lt' (by show _ < 65536; omega)

theorem mem_pool (hle : t.portLo ≤ t.portHi) {p : UInt16} : p ∈ t.pool ↔ t.InRange p := by
  rw [pool, List.mem_map, InRange, UInt16.le_iff_toNat_le, UInt16.le_iff_toNat_le]
  have hle' := UInt16.le_iff_toNat_le.1 hle
  constructor
  · rintro ⟨i, hi, rfl⟩
    rw [List.mem_range] at hi
    rw [toNat_pool hle hi]
    omega
  · rintro ⟨hlo, hhi⟩
    refine ⟨p.toNat - t.portLo.toNat, List.mem_range.2 (by omega), UInt16.toNat.inj ?_⟩
    rw [toNat_pool hle (by omega)]
    omega

theorem nodup_pool (hle : t.portLo ≤ t.portHi) : t.pool.Nodup := by
  refine List.nodup_range.map_on fun i hi j hj heq ↦ ?_
  rw [List.mem_range] at hi hj
  have hnat := congrArg UInt16.toNat heq
  rw [toNat_pool hle hi, toNat_pool hle hj] at hnat
  omega

/-- **The pool is full for a protocol** exactly if it has as many bindings as there are ports. -/
theorem Inv.full_iff (h : t.Inv) (l4 : L4) :
    (∀ p, t.InRange p → (l4.proto, p) ∈ t.rev) ↔
      t.bindingCount l4 = t.portHi.toNat - t.portLo.toNat + 1 := by
  have hcount : (t.extPorts l4.proto).length = t.bindingCount l4 := List.length_map _
  have hpool : t.pool.length = t.portHi.toNat - t.portLo.toNat + 1 := by
    rw [pool, List.length_map, List.length_range]
  have hsub : t.extPorts l4.proto ⊆ t.pool := by
    intro p hp
    obtain ⟨ip, port, hk⟩ := mem_extPorts.1 hp
    exact (mem_pool h.lo_le_hi).2 (h.range _ _ hk)
  have hbound : ∀ p, (l4.proto, p) ∈ t.rev ↔ p ∈ t.extPorts l4.proto := by
    intro p
    rw [AList.mem_iff_lookup, mem_extPorts]
    constructor
    · rintro ⟨e, he⟩
      exact ⟨e.ip, e.port, (h.inverse _ _ _ _).2 he⟩
    · rintro ⟨ip, port, hk⟩
      exact ⟨_, (h.inverse _ _ _ _).1 hk⟩
  -- the ports in use are among those of the pool; both lists have no repetitions
  have hsubperm := List.subperm_of_subset (h.nodup_extPorts l4.proto) hsub
  rw [← hcount, ← hpool]
  constructor
  · intro hfull
    have hsub' : t.pool ⊆ t.extPorts l4.proto := fun p hp ↦
      (hbound p).1 (hfull p ((mem_pool h.lo_le_hi).1 hp))
    exact Nat.le_antisymm hsubperm.length_le
      (List.subperm_of_subset (nodup_pool h.lo_le_hi) hsub').length_le
  · intro hlen p hp
    have hperm := hsubperm.perm_of_length_le (Nat.le_of_eq hlen.symm)
    exact (hbound p).2 (hperm.mem_iff.2 ((mem_pool h.lo_le_hi).2 hp))

/-- **`egress` refuses exactly if it must.** -/
theorem Inv.egress_eq_none_iff (h : t.Inv) (l4 : L4) (ip : Ipv4Addr) (port : UInt16) :
    (t.egress l4 ip port).2 = none ↔ t.fwd.lookup (l4.proto, ip, port) = none ∧
      t.bindingCount l4 = t.portHi.toNat - t.portLo.toNat + 1 := by
  rw [← h.full_iff]
  obtain ⟨ext, hk, heq⟩ | ⟨hk, hfull, heq⟩ | ⟨ext, next, hk, hfree, hext, -, heq⟩ :=
    egress_cases h l4 ip port
  · simp [heq, hk]
  · simpa [heq, hk] using hfull
  · rw [heq]
    refine ⟨by simp, fun hfull ↦ ?_⟩
    exact absurd (hfull.2 ext hext) (AList.lookup_eq_none.1 hfree)

end Pool

/-- **The NAT fails only when it must, and changes nothing when it does.** For every table that
calls build from `new`: `egress` refuses exactly if the endpoint has no binding and all ports of the
pool are bound for its protocol; `translateEgress` refuses exactly if the frame carries no packet or
`egress` refuses its source, `translateIngress` exactly if it carries none or its destination port
is not bound; and a refusal leaves the table and the frame as they are. -/
theorem refuses_only_if_it_must {wanIp : Ipv4Addr} {lo hi : UInt16} {t₀ : NatTable}
    (h₀ : new wanIp lo hi = some t₀) (ops : List Op) :
    (∀ l4 ip port, ((t₀.run ops).egress l4 ip port).2 = none ↔
      (t₀.run ops).fwd.lookup (l4.proto, ip, port) = none ∧
        (t₀.run ops).bindingCount l4 = hi.toNat - lo.toNat + 1) ∧
    (∀ frame, (translateEgress frame (t₀.run ops)).2.2 = none ↔ transportOf frame = none ∨
      ∃ l4 src dst, transportOf frame = some (l4, src, dst) ∧
        ((t₀.run ops).egress l4 src.ip src.port).2 = none) ∧
    (∀ frame, (translateIngress frame (t₀.run ops)).2 = none ↔ transportOf frame = none ∨
      ∃ l4 src dst, transportOf frame = some (l4, src, dst) ∧
        (t₀.run ops).ingress l4 dst.port = none) ∧
    (∀ l4 ip port, ((t₀.run ops).egress l4 ip port).2 = none →
      ((t₀.run ops).egress l4 ip port).1 = t₀.run ops) ∧
    (∀ frame, (translateEgress frame (t₀.run ops)).2.2 = none →
      translateEgress frame (t₀.run ops) = (frame, t₀.run ops, none)) ∧
    ∀ frame, (translateIngress frame (t₀.run ops)).2 = none →
      translateIngress frame (t₀.run ops) = (frame, none) := by
  obtain ⟨hnew, hlo, hhi⟩ := inv_new h₀
  obtain ⟨hinv, hext⟩ := inv_extends_run hnew ops
  refine ⟨fun l4 ip port ↦ ?_, fun frame ↦ (translateEgress_refuses_iff frame _).1,
    fun frame ↦ (translateIngress_refuses_iff frame _).1, fun l4 ip port hnone ↦ ?_,
    fun frame ↦ (translateEgress_refuses_iff frame _).2,
    fun frame ↦ (translateIngress_refuses_iff frame _).2⟩
  · rw [hinv.egress_eq_none_iff, hext.portLo_eq, hext.portHi_eq, hlo, hhi]
  · rw [(egress_eq_none hnone).1]

/-- A pool of one port: the second host is refused while the first one has it, for the same protocol
and not for the other. -/
theorem refuses_only_if_it_must_one_port :
    ∃ t₀, new 0xcb007101 65535 65535 = some t₀ ∧
      ((t₀.run [.egress .tcp 0xc0a80102 1111]).egress .tcp 0xc0a80103 1111).2 = none ∧
      ((t₀.run [.egress .tcp 0xc0a80102 1111]).egress .udp 0xc0a80103 1111).2 ≠ none := by
  have hnew : new 0xcb007101 65535 65535 = some ⟨0xcb007101, 65535, 65535, 65535, ∅, ∅⟩ := rfl
  obtain ⟨hegress, -⟩ := refuses_only_if_it_must hnew [.egress .tcp 0xc0a80102 1111]
  refine ⟨_, hnew, (hegress .tcp 0xc0a80103 1111).2 (by decide +kernel), fun hnone ↦ ?_⟩
  exact absurd ((hegress .udp 0xc0a80103 1111).1 hnone) (by decide +kernel)

end NatTable

/-! ### Fragments -/

/-- The frame carries a fragment of an IPv4 packet, and not the first one. -/
def IsLaterFragment (frame : Bytes) : Prop :=
  ∃ eth ip, parse frame = some eth ∧ eth.ipv4 = some ip ∧ ip.header.fragmentOffset ≠ 0

/-- What both directions leave alone. -/
theorem left_alone_iff (frame : Bytes) (t : NatTable) :
    translateEgress frame t = (frame, t, none) ∧ translateIngress frame t = (frame, none) ↔
      transportOf frame = none ∨ ∃ l4 src dst, transportOf frame = some (l4, src, dst) ∧
        (t.egress l4 src.ip src.port).2 = none ∧ t.ingress l4 dst.port = none := by
  obtain ⟨hegress, hegress'⟩ := translateEgress_refuses_iff frame t
  obtain ⟨hingress, hingress'⟩ := translateIngress_refuses_iff frame t
  constructor
  · rintro ⟨heq, heq'⟩
    rw [heq] at hegress
    rw [heq'] at hingress
    rcases hegress.1 rfl with hnone | ⟨l4, src, dst, hp, hrefused⟩
    · exact Or.inl hnone
    · rcases hingress.1 rfl with hnone | ⟨l4', src', dst', hp', hunbound⟩
      · exact Or.inl hnone
      · obtain ⟨rfl, rfl, rfl⟩ : l4 = l4' ∧ src = src' ∧ dst = dst' := by
          simpa using hp.symm.trans hp'
        exact Or.inr ⟨l4, src, dst, hp, hrefused, hunbound⟩
  · rintro (hnone | ⟨l4, src, dst, hp, hrefused, hunbound⟩)
    · exact ⟨hegress' (hegress.2 (Or.inl hnone)), hingress' (hingress.2 (Or.inl hnone))⟩
    · exact ⟨hegress' (hegress.2 (Or.inr ⟨l4, src, dst, hp, hrefused⟩)),
        hingress' (hingress.2 (Or.inr ⟨l4, src, dst, hp, hunbound⟩))⟩

/-- **Which later fragments are left alone**: those whose data cannot be read as a transport header,
and those whose data, read as one, names a source that is refused and a destination port that is not
bound. In a table that calls build from `new`, a source is refused if it has no binding and all
ports of the pool are bound for its protocol. That the frame is a fragment plays no part, as in the
code. -/
theorem later_fragment_left_alone_iff (frame : Bytes) (t : NatTable) :
    (translateEgress frame t = (frame, t, none) ∧ translateIngress frame t = (frame, none) ↔
      transportOf frame = none ∨ ∃ l4 src dst, transportOf frame = some (l4, src, dst) ∧
        (t.egress l4 src.ip src.port).2 = none ∧ t.ingress l4 dst.port = none) ∧
    ∀ wanIp lo hi t₀ ops, NatTable.new wanIp lo hi = some t₀ → t = t₀.run ops →
      (translateEgress frame t = (frame, t, none) ∧ translateIngress frame t = (frame, none) ↔
        transportOf frame = none ∨ ∃ l4 src dst, transportOf frame = some (l4, src, dst) ∧
          t.fwd.lookup (l4.proto, src.ip, src.port) = none ∧
          t.bindingCount l4 = hi.toNat - lo.toNat + 1 ∧ t.ingress l4 dst.port = none) := by
  refine ⟨left_alone_iff frame t, ?_⟩
  rintro wanIp lo hi t₀ ops h₀ rfl
  obtain ⟨hnew, hlo, hhi⟩ := NatTable.inv_new h₀
  obtain ⟨hinv, hext⟩ := NatTable.inv_extends_run hnew ops
  rw [left_alone_iff]
  simp only [hinv.egress_eq_none_iff, hext.portLo_eq, hext.portHi_eq, hlo, hhi, and_assoc]

/-- A fragment at offset 1480 of a UDP packet from `192.168.1.2` to `8.8.8.8`, with the given
data. -/
def udpFragment (data : Bytes) : Bytes :=
  [2, 0, 0, 0, 0, 1, 2, 0, 0, 0, 0, 2, 0x08, 0x00] ++
    [0x45, 0, 0, UInt8.ofNat (20 + data.length), 0, 1, 0x00, 0xb9, 64, 17, 0, 0,
      192, 168, 1, 2, 8, 8, 8, 8] ++ data

/-- Four bytes of data are too short for a header; eight bytes are left alone in a table whose only
port another host has. -/
theorem later_fragment_left_alone_short :
    IsLaterFragment (udpFragment [1, 2, 3, 4]) ∧
      IsLaterFragment (udpFragment [0x04, 0x57, 0x00, 0x35, 0, 8, 0, 0]) ∧
      ∃ t₀, NatTable.new 0xcb007101 40000 40000 = some t₀ ∧
        translateEgress (udpFragment [1, 2, 3, 4]) t₀ = (udpFragment [1, 2, 3, 4], t₀, none) ∧
        translateEgress (udpFragment [0x04, 0x57, 0x00, 0x35, 0, 8, 0, 0])
            (t₀.run [.egress .udp 0xc0a80103 1111]) =
          (udpFragment [0x04, 0x57, 0x00, 0x35, 0, 8, 0, 0],
            t₀.run [.egress .udp 0xc0a80103 1111], none) := by
  have hnew : NatTable.new 0xcb007101 40000 40000 =
    some ⟨0xcb007101, 40000, 40000, 40000, ∅, ∅⟩ := rfl
  have hnone : transportOf (udpFragment [1, 2, 3, 4]) = none := by decide +kernel
  refine ⟨⟨_, _, rfl, rfl, by decide +kernel⟩, ⟨_, _, rfl, rfl, by decide +kernel⟩, _, hnew,
    ((later_fragment_left_alone_iff _ _).1.2 (Or.inl hnone)).1, ?_⟩
  refine (((later_fragment_left_alone_iff _ _).2 _ _ _ _ _ hnew rfl).2 (Or.inr
    ⟨.udp, ⟨0xc0a80102, 1111⟩, ⟨0x08080808, 53⟩, ?_, ?_, ?_, ?_⟩)).1 <;> decide +kernel

/-- Eight bytes of data that read as a UDP header are rewritten, and bind a port of the pool. -/
theorem later_fragment_translated :
    IsLaterFragment (udpFragment [0x04, 0x57, 0x00, 0x35, 0, 8, 0, 0]) ∧
      ∃ t, NatTable.new 0xcb007101 40000 40002 = some t ∧
        (translateEgress (udpFragment [0x04, 0x57, 0x00, 0x35, 0, 8, 0, 0]) t).2.2 =
          some ⟨0xcb007101, 40000⟩ ∧
        (translateEgress (udpFragment [0x04, 0x57, 0x00, 0x35, 0, 8, 0, 0]) t).1 ≠
          udpFragment [0x04, 0x57, 0x00, 0x35, 0, 8, 0, 0] ∧
        (translateEgress (udpFragment [0x04, 0x57, 0x00, 0x35, 0, 8, 0, 0]) t).2.1.fwd.lookup
          (Proto.udp, 0xc0a80102, 1111) = some 40000 := by
  refine ⟨⟨_, _, rfl, rfl, by decide +kernel⟩, _, rfl, ?_, ?_, ?_⟩ <;> decide +kernel

end UserspaceRouter
