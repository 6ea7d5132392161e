import UserspaceRouter.Router.Ports

/-!
# What the pool is given back

The pool is told by two callers that an address is no longer in use: the DHCP server, when a client
releases or declines its lease, and the ARP handler, when a MAC is seen with another address than
before. `givesBack` is that address, and `poolAtRelease` the pool at the moment of the call, which
for an ARP frame is the one after the sender has been reserved.

`release` adds its argument without looking, so all that is known of the pool rests on its callers.
Under the condition `StaleIsNobodys`, each call is about an address that is out, and so the ranges
stay disjoint and `take` returns an address only once (`pool_step`).

*Claims.* A reservation is no more than a hole in the ranges, and what made it is not recorded
anywhere. To say that reservations last, `watched` records next to the ports the sender address of
the last ARP frame of each MAC. They last exactly as long as no address is given back that is the
router's own or that some MAC still claims (`reserved_step_iff`).
-/

namespace UserspaceRouter

open TransitionSystem

variable {P : Type*}

/-- The claim an event makes: the sender's pair of an ARP frame. -/
def PortEvent.claim : PortEvent P → Option (MacAddr × Ipv4Addr)
  | .lanArp frame _ => (parseArp frame).map fun p ↦ (p.2.sha, p.2.senderIp)
  | _ => none

namespace Ports

/-- The address that an event gives back to the pool. -/
def givesBack (s : Ports P) : PortEvent P → Option Ipv4Addr
  | .dhcp _ view => s.lan.dhcp.givesBack view
  | .lanArp frame _ => (parseArp frame).bind fun p ↦ s.lan.staleIp p.2
  | _ => none

/-- The pool to which it is given back. -/
def poolAtRelease (s : Ports P) (e : PortEvent P) : AddressPool :=
  match e.claim with
  | some (_, ip) => (s.lan.dhcp.pool.reserve ip).1
  | none => s.lan.dhcp.pool

/-! ### One event -/

/-- **What an event does to the DHCP tables**: nothing, what `handle` does, or what an ARP frame
does to the pool. -/
theorem step_dhcp_cases {router : RouterId} {s t : Ports P} {e : PortEvent P} {o : PortOutput P}
    (h : s.step router e = some (t, o)) :
    (t.lan.dhcp = s.lan.dhcp ∧ e.claim = none ∧ s.givesBack e = none ∧ ∀ r, o ≠ .dhcp r) ∨
    (∃ cfg view r, e = .dhcp cfg view ∧ o = .dhcp r ∧
      s.lan.dhcp.handle cfg view = some (t.lan.dhcp, r)) ∨
    ∃ frame now eth arp pool out, e = .lanArp frame now ∧ o = .arp out ∧
      parseArp frame = some (eth, arp) ∧ s.lan.poolAfterArp arp = some pool ∧
      t.lan.dhcp = { s.lan.dhcp with pool } := by
  cases e with
  | dhcp cfg view =>
    obtain ⟨⟨dhcp, reply⟩, hhandle, heq⟩ := Option.map_eq_some_iff.1 h
    obtain ⟨rfl, rfl⟩ := Prod.mk.inj heq
    exact Or.inr (Or.inl ⟨cfg, view, reply, rfl, rfl, hhandle⟩)
  | lanArp frame now =>
    obtain ⟨⟨lan, out⟩, hhandle, heq⟩ := Option.map_eq_some_iff.1 h
    obtain ⟨rfl, rfl⟩ := Prod.mk.inj heq
    rcases hparse : parseArp frame with - | ⟨eth, arp⟩ <;>
      simp only [LanState.handleLanArp, hparse] at hhandle
    · obtain ⟨rfl, -⟩ := Prod.mk.inj (Option.some.inj hhandle)
      refine Or.inl ⟨rfl, ?_, ?_, by simp⟩
      · simp only [PortEvent.claim, hparse, Option.map_none]
      · simp only [givesBack, hparse, Option.bind_none]
    · obtain ⟨pool, hpool, heq⟩ := Option.map_eq_some_iff.1 hhandle
      obtain ⟨rfl, -⟩ := Prod.mk.inj heq
      exact Or.inr (Or.inr ⟨frame, now, eth, arp, pool, out, rfl, rfl, hparse, hpool, rfl⟩)
  | wanArp | lanResolve | wanResolve | lanSweep | wanSweep | setWanIp =>
    obtain ⟨rfl, rfl⟩ := Prod.mk.inj (Option.some.inj h)
    exact Or.inl ⟨rfl, rfl, rfl, by simp⟩

/-- **What an event does to the pool.** The address it gives back is one that is out, and joins the
free ones; no other address does, and a claimed one leaves them. -/
structure PoolStep (s : Ports P) (e : PortEvent P) (t : Ports P) : Prop where
  release : ∀ ip, s.givesBack e = some ip →
    (s.poolAtRelease e).release ip = some t.lan.dhcp.pool ∧ (s.poolAtRelease e).InBounds ip ∧
      ¬(s.poolAtRelease e).IsFree ip
  free_of_givesBack : ∀ ip, s.givesBack e = some ip → t.lan.dhcp.pool.IsFree ip
  of_free : ∀ ip, t.lan.dhcp.pool.IsFree ip → s.givesBack e = some ip ∨
    s.lan.dhcp.pool.IsFree ip ∧ ∀ mac, e.claim ≠ some (mac, ip)

/-- An event that gives nothing back. -/
theorem PoolStep.of_kept {s t : Ports P} {e : PortEvent P} (hback : s.givesBack e = none)
    (hkept : ∀ x, t.lan.dhcp.pool.IsFree x →
      s.lan.dhcp.pool.IsFree x ∧ ∀ mac, e.claim ≠ some (mac, x)) : PoolStep s e t := by
  have hno : ∀ ip, s.givesBack e ≠ some ip := by
    intro ip
    rw [hback]
    exact (Option.some_ne_none ip).symm
  exact ⟨fun ip hip ↦ absurd hip (hno ip), fun ip hip ↦ absurd hip (hno ip),
    fun ip hip ↦ Or.inr (hkept ip hip)⟩

/-- An event that has nothing to do with the pool. -/
theorem PoolStep.of_pool_eq {s t : Ports P} {e : PortEvent P}
    (hpool : t.lan.dhcp.pool = s.lan.dhcp.pool) (hback : s.givesBack e = none)
    (hclaim : e.claim = none) : PoolStep s e t := by
  refine .of_kept hback fun x hx ↦ ⟨hpool ▸ hx, fun mac ↦ ?_⟩
  rw [hclaim]
  exact (Option.some_ne_none _).symm

/-- An event that gives an address back, of which the callers' duty is met. -/
theorem PoolStep.of_release {s t : Ports P} {e : PortEvent P} (ip : Ipv4Addr)
    (hwf : (s.poolAtRelease e).Wf) (hback : s.givesBack e = some ip)
    (hb : (s.poolAtRelease e).InBounds ip) (hout : ¬(s.poolAtRelease e).IsFree ip)
    (hrelease : (s.poolAtRelease e).release ip = some t.lan.dhcp.pool)
    (hkept : ∀ x, (s.poolAtRelease e).IsFree x →
      s.lan.dhcp.pool.IsFree x ∧ ∀ mac, e.claim ≠ some (mac, x)) : PoolStep s e t := by
  have hbecomes := AddressPool.becomes_release hwf hb hout hrelease
  refine ⟨fun x hx ↦ ?_, fun x hx ↦ ?_, fun x hx ↦ ?_⟩
  · obtain rfl : ip = x := Option.some.inj (hback.symm.trans hx)
    exact ⟨hrelease, hb, hout⟩
  · obtain rfl : ip = x := Option.some.inj (hback.symm.trans hx)
    exact (hbecomes.isFree_iff ip).2 (Or.inr rfl)
  · rcases (hbecomes.isFree_iff x).1 hx with hx | rfl
    · exact Or.inr (hkept x hx)
    · exact Or.inl hback

theorem poolStep_dhcp {start end_ : Ipv4Addr} {s t : Ports P} (h : s.lan.dhcp.Inv start end_)
    {cfg : DhcpServerConfig} {view : DhcpView} {r : Option Reply}
    (hhandle : s.lan.dhcp.handle cfg view = some (t.lan.dhcp, r)) :
    PoolStep s (.dhcp cfg view) t := by
  have hhandled := DhcpState.handled_handle h.wf hhandle
  generalize hdhcp : t.lan.dhcp = dhcp at hhandled
  cases hhandled with
  | keep hback => exact .of_pool_eq (by rw [hdhcp]) hback rfl
  | @take ip pool _ hback hfree hbecomes hreply =>
    refine .of_kept hback fun x hx ↦ ?_
    rw [hdhcp] at hx
    exact ⟨((hbecomes.isFree_iff x).1 hx).1, fun _ ↦ (Option.some_ne_none _).symm⟩
  | @release ip pool hback hlease hrelease =>
    exact .of_release ip h.wf hback (h.exclusive.bound_of_owned _ _ hlease)
      (h.exclusive.not_free _ _ hlease) (by rw [hdhcp]; exact hrelease)
      fun x hx ↦ ⟨hx, fun _ ↦ (Option.some_ne_none _).symm⟩

theorem poolStep_lanArp {start end_ : Ipv4Addr} {s : Ports P} (h : s.lan.dhcp.Inv start end_)
    {frame : Bytes} {now : Tick} {eth : EthernetHeader} {arp : ArpPacket}
    (hparse : parseArp frame = some (eth, arp))
    (hstale : ∀ ip, s.lan.staleIp arp = some ip → ¬s.lan.dhcp.pool.IsFree ip) {t : Ports P}
    (hpool : s.lan.poolAfterArp arp = some t.lan.dhcp.pool) : PoolStep s (.lanArp frame now) t := by
  have hclaim : (PortEvent.lanArp frame now : PortEvent P).claim =
      some (arp.sha, arp.senderIp) := by
    simp only [PortEvent.claim, hparse, Option.map_some]
  have hback : s.givesBack (.lanArp frame now) = s.lan.staleIp arp := by
    simp only [givesBack, hparse, Option.bind_some]
  have hat : s.poolAtRelease (.lanArp frame now) = (s.lan.dhcp.pool.reserve arp.senderIp).1 := by
    simp only [poolAtRelease, hclaim]
  have hbecomes := AddressPool.becomes_reserve h.wf arp.senderIp
  have hkept : ∀ x, (s.lan.dhcp.pool.reserve arp.senderIp).1.IsFree x →
      s.lan.dhcp.pool.IsFree x ∧
        ∀ mac, (PortEvent.lanArp frame now : PortEvent P).claim ≠ some (mac, x) := by
    intro x hx
    obtain ⟨hfree, hne⟩ := (hbecomes.isFree_iff x).1 hx
    refine ⟨hfree, fun mac hmac ↦ hne ?_⟩
    rw [hclaim] at hmac
    exact (Prod.mk.inj (Option.some.inj hmac)).2.symm
  rcases hold : s.lan.staleIp arp with - | oldIp
  · have hpool' : t.lan.dhcp.pool = (s.lan.dhcp.pool.reserve arp.senderIp).1 := by
      simp only [LanState.poolAfterArp, hold] at hpool
      exact (Option.some.inj hpool).symm
    exact .of_kept (hback.trans hold) fun x hx ↦ hkept x (hpool' ▸ hx)
  · have hrelease : (s.lan.dhcp.pool.reserve arp.senderIp).1.release oldIp =
        some t.lan.dhcp.pool := by
      simpa only [LanState.poolAfterArp, hold] using hpool
    obtain ⟨-, hcond⟩ := Option.filter_eq_some_iff.1 hold
    refine .of_release oldIp ?_ (hback.trans hold) ?_ ?_ ?_ ?_ <;> rw [hat]
    · exact hbecomes.wf
    · rw [hbecomes.inBounds_eq]
      exact (of_decide_eq_true hcond).2
    · exact fun hx ↦ hstale oldIp hold ((hbecomes.isFree_iff oldIp).1 hx).1
    · exact hrelease
    · exact hkept

/-- **Every event that meets the condition is such a step.** -/
theorem pool_step {start end_ : Ipv4Addr} {router : RouterId} {s t : Ports P}
    (h : s.lan.dhcp.Inv start end_) {e : PortEvent P} (he : s.StaleIsNobodys e) {o : PortOutput P}
    (hstep : s.step router e = some (t, o)) : PoolStep s e t := by
  rcases step_dhcp_cases hstep with ⟨hdhcp, hclaim, hback, -⟩ | ⟨cfg, view, r, rfl, -, hhandle⟩ |
    ⟨frame, now, eth, arp, pool, out, rfl, -, hparse, hpool, hdhcp⟩
  · exact .of_pool_eq (by rw [hdhcp]) hback hclaim
  · exact poolStep_dhcp h hhandle
  · refine poolStep_lanArp h hparse (fun ip hip ↦ (he (eth, arp) hparse ip hip).2) ?_
    rw [hdhcp]
    exact hpool

/-! ### Only what is out is given back -/

/-- **The pool is only given back what it gave out**, in every run from start-up in which an address
given back on the strength of an ARP frame is leased to nobody and not free already. In every state
reached the free ranges are disjoint; the next event meets no failed assertion, and if it gives an
address back, that one is in bounds and not free at that moment; no address becomes free but by
being given back; and `take` returns an address that is free, and is not any more. -/
theorem gives_back_only_what_is_out {start end_ : Ipv4Addr} {reserved : List Ipv4Addr}
    {dhcp : DhcpState} (hboot : DhcpState.boot start end_ reserved = some dhcp) {router : RouterId}
    {wanMac : MacAddr} {tr : List (PortEvent P × PortOutput P)} {s : Ports P}
    (hrun : ((system P router).restrict fun s a ↦ s.StaleIsNobodys a.1).Run
      (boot router wanMac dhcp) tr s) :
    (s.lan.dhcp.pool.intervals.Pairwise fun i j ↦ i.2 < j.1) ∧
    (∀ e, s.StaleIsNobodys e → ∃ t o, s.step router e = some (t, o) ∧
      (∀ ip, s.givesBack e = some ip →
        (s.poolAtRelease e).release ip = some t.lan.dhcp.pool ∧
          (s.poolAtRelease e).InBounds ip ∧ ¬(s.poolAtRelease e).IsFree ip) ∧
      ∀ ip, t.lan.dhcp.pool.IsFree ip → s.lan.dhcp.pool.IsFree ip ∨ s.givesBack e = some ip) ∧
    ∀ pool out, s.lan.dhcp.pool.take 1 = (pool, some out) →
      ∃ ip, out = [ip] ∧ s.lan.dhcp.pool.IsFree ip ∧ ¬pool.IsFree ip := by
  have hinv := inv_run (DhcpState.inv_boot hboot) hrun
  refine ⟨hinv.wf.pairwise_lt, fun e he ↦ ?_, fun pool out htake ↦ ?_⟩
  · obtain ⟨t, o, hstep, -⟩ := inv_step router hinv he
    have hpool := pool_step hinv he hstep
    exact ⟨t, o, hstep, hpool.release, fun ip hip ↦ (hpool.of_free ip hip).symm.imp_left And.left⟩
  · rcases AddressPool.take_one_cases hinv.wf with ⟨hnone, -⟩ | ⟨ip, pool', hsome, hfree, hbecomes⟩
    · exact absurd (Prod.mk.inj (htake.symm.trans hnone)).2 (Option.some_ne_none _)
    · obtain ⟨rfl, hout⟩ := Prod.mk.inj (htake.symm.trans hsome)
      exact ⟨ip, Option.some.inj hout, hfree, fun hx ↦ ((hbecomes.isFree_iff ip).1 hx).2 rfl⟩

/-- A host with an address of its own is about to move from `10.0.0.5` to `10.0.0.6`: the address it
leaves is given back, and is not free at that moment. -/
theorem gives_back_host_moves :
    ∃ tr s, ((system Unit sampleRouter).restrict fun s a ↦ s.StaleIsNobodys a.1).Run
        (boot sampleRouter (sampleMac 0xff) sampleDhcp) tr s ∧
      s.givesBack (.lanArp (sampleArp 3 0x0a000006 0x0a0000fe) 1) = some 0x0a000005 ∧
      ¬(s.poolAtRelease (.lanArp (sampleArp 3 0x0a000006 0x0a0000fe) 1)).IsFree 0x0a000005 := by
  have hcalls : (calls (fun s e ↦ if s.StaleIsNobodys e then step sampleRouter s e else none)
      (boot sampleRouter (sampleMac 0xff) sampleDhcp : Ports Unit)
      [.lanArp (sampleArp 3 0x0a000005 0x0a0000fe) 0]).map (fun r ↦
      (decide (r.2.StaleIsNobodys (.lanArp (sampleArp 3 0x0a000006 0x0a0000fe) 1)),
        r.2.givesBack (.lanArp (sampleArp 3 0x0a000006 0x0a0000fe) 1))) =
      some (true, some 0x0a000005) := by decide +kernel
  obtain ⟨⟨tr, s⟩, hsome, hend⟩ := Option.map_eq_some_iff.1 hcalls
  obtain ⟨hnext, hback⟩ := Prod.mk.inj hend
  have hrun := run_restrict_of_calls hsome
  obtain ⟨-, hstep, -⟩ := gives_back_only_what_is_out boot_sampleDhcp hrun
  obtain ⟨t, o, -, hrelease, -⟩ := hstep _ (of_decide_eq_true hnext)
  exact ⟨tr, s, hrun, hback, (hrelease _ hback).2.2⟩

/-- A host is leased `10.0.0.1`, announces it, and releases it. When it is then seen with another
address, the address it has already released is given back a second time, and the next two hosts
are leased it. -/
theorem given_back_twice :
    ∃ tr s, (system Unit sampleRouter).Run (boot sampleRouter (sampleMac 0xff) sampleDhcp) tr s ∧
      ∃ e, s.givesBack e = some 0x0a000001 ∧ (s.poolAtRelease e).IsFree 0x0a000001 ∧
      ∃ t o, s.step sampleRouter e = some (t, o) ∧
      ∃ tr' u, (system Unit sampleRouter).Run t tr' u ∧
        u.lan.dhcp.leases.lookup (sampleMac 2) = some 0x0a000001 ∧
        u.lan.dhcp.leases.lookup (sampleMac 3) = some 0x0a000001 := by
  set e : PortEvent Unit := .lanArp (sampleArp 1 0x0a000002 0x0a0000fe) 1
  have hcalls : ((calls (step sampleRouter)
      (boot sampleRouter (sampleMac 0xff) sampleDhcp : Ports Unit)
      [.dhcp ⟨0x0a0000fe⟩ (sampleMessage 1 1),
        .lanArp (sampleArp 1 0x0a000001 0x0a0000fe) 0,
        .dhcp ⟨0x0a0000fe⟩ (sampleMessage 7 1)]).bind fun r ↦
      (step sampleRouter r.2 e).bind fun p ↦
        (calls (step sampleRouter) p.1
          [.dhcp ⟨0x0a0000fe⟩ (sampleMessage 1 2),
            .dhcp ⟨0x0a0000fe⟩ (sampleMessage 1 3)]).map fun r' ↦
          (r.2.givesBack e, decide ((r.2.poolAtRelease e).IsFree 0x0a000001),
            r'.2.lan.dhcp.leases.lookup (sampleMac 2),
            r'.2.lan.dhcp.leases.lookup (sampleMac 3))) =
      some (some 0x0a000001, true, some 0x0a000001, some 0x0a000001) := by decide +kernel
  obtain ⟨⟨tr, s⟩, hfirst, hrest⟩ := Option.bind_eq_some_iff.1 hcalls
  obtain ⟨⟨t, o⟩, hstep, hrest⟩ := Option.bind_eq_some_iff.1 hrest
  obtain ⟨⟨tr', u⟩, hsecond, hend⟩ := Option.map_eq_some_iff.1 hrest
  obtain ⟨hback, hend⟩ := Prod.mk.inj hend
  obtain ⟨hfree, hleases⟩ := Prod.mk.inj hend
  obtain ⟨htwo, hthree⟩ := Prod.mk.inj hleases
  exact ⟨tr, s, run_of_calls hfirst, e, hback, of_decide_eq_true hfree, t, o, hstep, tr', u,
    run_of_calls hsecond, htwo, hthree⟩

/-! ### Reservations -/

end Ports

/-- The sender address of the last ARP frame of each MAC. -/
abbrev Claims := AList fun _ : MacAddr ↦ Ipv4Addr

/-- The claims after an event. -/
def PortEvent.record (e : PortEvent P) (claims : Claims) : Claims :=
  match e.claim with
  | some (mac, ip) => claims.insert mac ip
  | none => claims

theorem PortEvent.lookup_record {e : PortEvent P} {claims : Claims} {mac : MacAddr} {ip : Ipv4Addr}
    (h : (e.record claims).lookup mac = some ip) :
    claims.lookup mac = some ip ∨ e.claim = some (mac, ip) := by
  rcases hclaim : e.claim with - | ⟨mac', ip'⟩ <;> simp only [record, hclaim] at h
  · exact Or.inl h
  · rw [AList.lookup_insert_ite] at h
    split_ifs at h with hmac
    · rw [hmac, Option.some.inj h]
      exact Or.inr rfl
    · exact Or.inl h

namespace Ports

/-- The ports, and next to them the claims made so far. -/
def watched (P : Type*) (router : RouterId) :
    TransitionSystem (Ports P × Claims) (PortEvent P × PortOutput P) :=
  .ofCalls fun s e ↦ (s.1.step router e).map fun r ↦ ((r.1, e.record s.2), r.2)

theorem step_of_watched {router : RouterId} {s t : Ports P} {claims claims' : Claims}
    {e : PortEvent P} {o : PortOutput P}
    (h : (watched P router).step (s, claims) (e, o) (t, claims')) :
    s.step router e = some (t, o) ∧ claims' = e.record claims := by
  obtain ⟨⟨t', o'⟩, hstep, heq⟩ := Option.map_eq_some_iff.1 h
  obtain ⟨hstate, rfl⟩ := Prod.mk.inj heq
  obtain ⟨rfl, rfl⟩ := Prod.mk.inj hstate
  exact ⟨hstep, rfl⟩

/-- Neither the router's own address nor a claimed one is free. -/
structure Reserved (router : RouterId) (s : Ports P × Claims) : Prop where
  server : ¬s.1.lan.dhcp.pool.IsFree router.serverIp
  claimed : ∀ mac ip, s.2.lookup mac = some ip → ¬s.1.lan.dhcp.pool.IsFree ip

/-- The condition on an event: an address it gives back is not the router's, and nobody's claim
either, now that the event has been seen. -/
def ReturnsUnclaimed (router : RouterId) (s : Ports P × Claims) (e : PortEvent P) : Prop :=
  ∀ ip ∈ s.1.givesBack e, ip ≠ router.serverIp ∧ ∀ mac, (e.record s.2).lookup mac ≠ some ip

instance (router : RouterId) (s : Ports P × Claims) (e : PortEvent P) :
    Decidable (ReturnsUnclaimed router s e) :=
  @decidable_of_iff _ (∀ ip ∈ s.1.givesBack e, ip ≠ router.serverIp ∧
      ∀ c ∈ (e.record s.2).entries, c.2 ≠ ip)
    (by simp only [ReturnsUnclaimed, AList.forall_lookup_ne_iff])
    (Option.decidableForallMem (s.1.givesBack e))

/-- **Reservations outlast an event exactly if what it gives back is unclaimed.** -/
theorem reserved_step_iff {start end_ : Ipv4Addr} {router : RouterId} {s t : Ports P}
    {claims : Claims} (hinv : s.lan.dhcp.Inv start end_) (h : Reserved router (s, claims))
    {e : PortEvent P} (he : s.StaleIsNobodys e) {o : PortOutput P}
    (hstep : s.step router e = some (t, o)) :
    Reserved router (t, e.record claims) ↔ ReturnsUnclaimed router (s, claims) e := by
  have hpool := pool_step hinv he hstep
  constructor
  · rintro ⟨hserver, hclaimed⟩ ip hip
    have hfree := hpool.free_of_givesBack ip hip
    refine ⟨?_, fun mac hmac ↦ hclaimed mac ip hmac hfree⟩
    rintro rfl
    exact hserver hfree
  · intro hreturns
    refine ⟨fun hfree ↦ ?_, fun mac ip hmac hfree ↦ ?_⟩
    · rcases hpool.of_free _ hfree with hback | ⟨hold, -⟩
      · exact (hreturns _ hback).1 rfl
      · exact h.server hold
    · rcases hpool.of_free ip hfree with hback | ⟨hold, hclaim⟩
      · exact (hreturns ip hback).2 mac hmac
      · rcases PortEvent.lookup_record hmac with hmac | hmac
        · exact h.claimed mac ip hmac hold
        · exact hclaim mac hmac

/-- An address that is leased after an event was leased before, or free. -/
theorem lookup_leases_of_step {start end_ : Ipv4Addr} {router : RouterId} {s t : Ports P}
    (h : s.lan.dhcp.Inv start end_) {e : PortEvent P} {o : PortOutput P}
    (hstep : s.step router e = some (t, o)) {mac : MacAddr} {ip : Ipv4Addr}
    (hlease : t.lan.dhcp.leases.lookup mac = some ip) :
    s.lan.dhcp.leases.lookup mac = some ip ∨ s.lan.dhcp.pool.IsFree ip := by
  rcases step_dhcp_cases hstep with ⟨hdhcp, -⟩ | ⟨cfg, view, r, -, -, hhandle⟩ |
    ⟨frame, now, eth, arp, pool, out, -, -, -, -, hdhcp⟩
  · rw [hdhcp] at hlease
    exact Or.inl hlease
  · have hhandled := DhcpState.handled_handle h.wf hhandle
    generalize t.lan.dhcp = dhcp at hlease hhandled
    cases hhandled with
    | keep => exact Or.inl hlease
    | take _ hfree _ _ =>
      rw [AList.lookup_insert_ite] at hlease
      split_ifs at hlease
      · obtain rfl := Option.some.inj hlease
        exact Or.inr hfree
      · exact Or.inl hlease
    | release =>
      rw [AList.lookup_erase_ite] at hlease
      split_ifs at hlease
      exact Or.inl hlease
  · rw [hdhcp] at hlease
    exact Or.inl hlease

/-- An address that is offered or confirmed is leased. -/
theorem exists_lease_of_reply {start end_ : Ipv4Addr} {router : RouterId} {s t : Ports P}
    (h : s.lan.dhcp.Inv start end_) {e : PortEvent P} {r : Reply}
    (hstep : s.step router e = some (t, .dhcp (some r))) (hkind : r.kind ≠ .nak) :
    ∃ mac, t.lan.dhcp.leases.lookup mac = some r.yiaddr := by
  rcases step_dhcp_cases hstep with ⟨-, -, -, hno⟩ | ⟨cfg, view, r', -, hreply, hhandle⟩ |
    ⟨frame, now, eth, arp, pool, out, -, harp, -⟩
  · exact absurd rfl (hno (some r))
  · obtain rfl : some r = r' := PortOutput.dhcp.inj hreply
    have hhandled := DhcpState.handled_handle h.wf hhandle
    generalize t.lan.dhcp = dhcp at hhandled
    cases hhandled with
    | keep _ hanswer => exact ⟨_, hanswer r rfl hkind⟩
    | take _ _ _ hanswer =>
      refine ⟨view.header.clientMac, ?_⟩
      rw [AList.lookup_insert_ite, if_pos rfl, hanswer r rfl hkind]
  · exact nomatch harp

/-- The condition under which reservations last, at every event. -/
def Respects (router : RouterId) (s : Ports P × Claims) (e : PortEvent P) : Prop :=
  s.1.StaleIsNobodys e ∧ ReturnsUnclaimed router s e

instance (router : RouterId) (s : Ports P × Claims) (e : PortEvent P) :
    Decidable (Respects router s e) :=
  inferInstanceAs (Decidable (_ ∧ _))

/-- What holds in such a run: the tables are sound, reservations last, and nobody is leased the
router's address. -/
structure Kept (start end_ : Ipv4Addr) (router : RouterId) (s : Ports P × Claims) : Prop where
  inv : s.1.lan.dhcp.Inv start end_
  reserved : Reserved router s
  not_leased : ∀ mac, s.1.lan.dhcp.leases.lookup mac ≠ some router.serverIp

theorem Kept.step {start end_ : Ipv4Addr} {router : RouterId} {s t : Ports P} {claims : Claims}
    (h : Kept start end_ router (s, claims)) {e : PortEvent P}
    (he : Respects router (s, claims) e) {o : PortOutput P}
    (hstep : s.step router e = some (t, o)) : Kept start end_ router (t, e.record claims) := by
  refine ⟨?_, (reserved_step_iff h.inv h.reserved he.1 hstep).2 he.2, fun mac hmac ↦ ?_⟩
  · obtain ⟨t', o', hstep', hinv⟩ := inv_step router h.inv he.1
    obtain ⟨rfl, -⟩ := Prod.mk.inj (Option.some.inj (hstep.symm.trans hstep'))
    exact hinv
  · rcases lookup_leases_of_step h.inv hstep hmac with hold | hfree
    · exact h.not_leased mac hold
    · exact h.reserved.server hfree

theorem kept_boot {start end_ : Ipv4Addr} {router : RouterId} {dhcp : DhcpState}
    (hboot : DhcpState.boot start end_ [router.serverIp] = some dhcp) (wanMac : MacAddr) :
    Kept start end_ router ((boot router wanMac dhcp : Ports P), ∅) := by
  refine ⟨DhcpState.inv_boot hboot, ⟨?_, fun _ _ h ↦ nomatch h⟩, ?_⟩
  · obtain ⟨pool, hnew, rfl⟩ := Option.map_eq_some_iff.1 hboot
    have hbecomes := AddressPool.becomes_reserve (AddressPool.wf_new hnew).1 router.serverIp
    exact fun hfree ↦ ((hbecomes.isFree_iff _).1 hfree).2 rfl
  · intro mac
    show dhcp.leases.lookup mac ≠ _
    rw [(DhcpState.pool_boot hboot).2.2.2]
    exact (Option.some_ne_none _).symm

/-- **Reserved addresses stay reserved**, in every run from start-up in which an address given back
on the strength of an ARP frame is leased to nobody and not free already, and in which no address is
given back that is the router's own or the sender address of some MAC's last ARP frame. In every
state reached the router's address is not free and has never been offered; nor is a claimed address
free, nor leased by the next event to somebody who has not got it; and from there the next event
keeps it so exactly if it meets the condition. -/
theorem reserved_of_respects {start end_ : Ipv4Addr} {router : RouterId} {dhcp : DhcpState}
    (hboot : DhcpState.boot start end_ [router.serverIp] = some dhcp) {wanMac : MacAddr}
    {tr : List (PortEvent P × PortOutput P)} {s : Ports P} {claims : Claims}
    (hrun : ((watched P router).restrict fun s a ↦ Respects router s a.1).Run
      (boot router wanMac dhcp, ∅) tr (s, claims)) :
    ¬s.lan.dhcp.pool.IsFree router.serverIp ∧
    (∀ a ∈ tr, ∀ r, a.2 = .dhcp (some r) → r.kind ≠ .nak → r.yiaddr ≠ router.serverIp) ∧
    (∀ mac ip, claims.lookup mac = some ip → ¬s.lan.dhcp.pool.IsFree ip) ∧
    ∀ e t o, s.StaleIsNobodys e → s.step router e = some (t, o) →
      (∀ mac mac' ip, claims.lookup mac = some ip → t.lan.dhcp.leases.lookup mac' = some ip →
        s.lan.dhcp.leases.lookup mac' = some ip) ∧
      (Reserved router (t, e.record claims) ↔ ReturnsUnclaimed router (s, claims) e) := by
  have hboth : Kept start end_ router (s, claims) ∧
      ∀ a ∈ tr, ∀ r, a.2 = .dhcp (some r) → r.kind ≠ .nak → r.yiaddr ≠ router.serverIp := by
    refine hrun.history (I := fun tr s ↦ Kept start end_ router s ∧
      ∀ a ∈ tr, ∀ r, a.2 = PortOutput.dhcp (some r) → r.kind ≠ .nak → r.yiaddr ≠ router.serverIp)
      ⟨kept_boot hboot wanMac, by simp⟩ ?_
    rintro tr ⟨s, claims⟩ ⟨e, o⟩ ⟨t, claims'⟩ ⟨hkept, hoffers⟩ ⟨he, hst⟩
    obtain ⟨hstep, rfl⟩ := step_of_watched hst
    have hkept' := hkept.step he hstep
    refine ⟨hkept', ?_⟩
    rw [List.forall_mem_append, List.forall_mem_singleton]
    refine ⟨hoffers, fun r hr hkind hserver ↦ ?_⟩
    obtain rfl : o = .dhcp (some r) := hr
    obtain ⟨mac, hlease⟩ := exists_lease_of_reply hkept.inv hstep hkind
    rw [hserver] at hlease
    exact hkept'.not_leased mac hlease
  obtain ⟨hkept, hoffers⟩ := hboth
  refine ⟨hkept.reserved.server, hoffers, hkept.reserved.claimed, fun e t o he hstep ↦ ⟨?_, ?_⟩⟩
  · intro mac mac' ip hmac hlease
    exact (lookup_leases_of_step hkept.inv hstep hlease).resolve_right
      (hkept.reserved.claimed mac ip hmac)
  · exact reserved_step_iff hkept.inv hkept.reserved he hstep

/-- A router at `10.0.0.1`, the first address of its pool. -/
def pooledRouter : RouterId := ⟨0x0a000001, sampleMac 0xfe⟩

/-- What it starts with: its own address is out. -/
def pooledDhcp : DhcpState := ⟨⟨0x0a000001, 0x0a00000a, [(0x0a000002, 0x0a00000a)]⟩, ∅⟩

theorem boot_pooledDhcp : DhcpState.boot 0x0a000001 0x0a00000a [pooledRouter.serverIp] =
    some pooledDhcp := rfl

/-- A host moves from `10.0.0.5` to `10.0.0.6`. The address it has left is free, the one it claims
now is not, nor is the router's. -/
theorem reserved_host_moves :
    ∃ tr s claims, ((watched Unit pooledRouter).restrict fun s a ↦ Respects pooledRouter s a.1).Run
        (boot pooledRouter (sampleMac 0xff) pooledDhcp, ∅) tr (s, claims) ∧
      s.lan.dhcp.pool.IsFree 0x0a000005 ∧ claims.lookup (sampleMac 3) = some 0x0a000006 ∧
      ¬s.lan.dhcp.pool.IsFree 0x0a000006 ∧ ¬s.lan.dhcp.pool.IsFree pooledRouter.serverIp := by
  have hcalls : (calls (fun (s : Ports Unit × Claims) e ↦ if Respects pooledRouter s e then
        (s.1.step pooledRouter e).map fun r ↦ ((r.1, e.record s.2), r.2) else none)
      (boot pooledRouter (sampleMac 0xff) pooledDhcp, ∅)
      [.lanArp (sampleArp 3 0x0a000005 0x0a000001) 0,
        .lanArp (sampleArp 3 0x0a000006 0x0a000001) 1]).map (fun r ↦
      (decide (r.2.1.lan.dhcp.pool.IsFree 0x0a000005), r.2.2.lookup (sampleMac 3))) =
      some (true, some 0x0a000006) := by decide +kernel
  obtain ⟨⟨tr, s, claims⟩, hsome, hend⟩ := Option.map_eq_some_iff.1 hcalls
  obtain ⟨hfive, hsix⟩ := Prod.mk.inj hend
  have hrun := run_restrict_of_calls hsome
  obtain ⟨hserver, -, hclaimed, -⟩ := reserved_of_respects boot_pooledDhcp hrun
  exact ⟨tr, s, claims, hrun, of_decide_eq_true hfive, hsix, hclaimed _ _ hsix, hserver⟩

/-- Two hosts claim `10.0.0.5`; one of them then claims the router's address, and after that
`10.0.0.6`. Both addresses it has left are free, although the other host has never given up its
own; and the next host is offered the router's address. -/
theorem reservation_undone :
    ∃ tr s claims, (watched Unit pooledRouter).Run
        (boot pooledRouter (sampleMac 0xff) pooledDhcp, ∅) tr (s, claims) ∧
      claims.lookup (sampleMac 4) = some 0x0a000005 ∧ s.lan.dhcp.pool.IsFree 0x0a000005 ∧
      s.lan.dhcp.pool.IsFree pooledRouter.serverIp ∧
      ∃ t r, s.step pooledRouter (.dhcp ⟨pooledRouter.serverIp⟩ (sampleMessage 1 2)) =
          some (t, .dhcp (some r)) ∧ r.kind = .offer ∧ r.yiaddr = pooledRouter.serverIp := by
  have hcalls : ((calls (fun (s : Ports Unit × Claims) e ↦
        (s.1.step pooledRouter e).map fun r ↦ ((r.1, e.record s.2), r.2))
      (boot pooledRouter (sampleMac 0xff) pooledDhcp, ∅)
      [.lanArp (sampleArp 3 0x0a000005 0x0a000001) 0,
        .lanArp (sampleArp 4 0x0a000005 0x0a000001) 1,
        .lanArp (sampleArp 3 0x0a000001 0x0a000001) 2,
        .lanArp (sampleArp 3 0x0a000006 0x0a000001) 3]).bind fun r ↦
      (r.2.1.lan.dhcp.handle ⟨pooledRouter.serverIp⟩ (sampleMessage 1 2)).map fun p ↦
        (r.2.2.lookup (sampleMac 4), decide (r.2.1.lan.dhcp.pool.IsFree 0x0a000005),
          decide (r.2.1.lan.dhcp.pool.IsFree pooledRouter.serverIp), p.2)) =
      some (some 0x0a000005, true, true,
        some ⟨.offer, 0, pooledRouter.serverIp, sampleMac 2, false⟩) := by decide +kernel
  obtain ⟨⟨tr, s, claims⟩, hsome, hrest⟩ := Option.bind_eq_some_iff.1 hcalls
  obtain ⟨⟨dhcp, reply⟩, hhandle, hend⟩ := Option.map_eq_some_iff.1 hrest
  obtain ⟨hclaim, hend⟩ := Prod.mk.inj hend
  obtain ⟨hfive, hend⟩ := Prod.mk.inj hend
  obtain ⟨hserver, hreply⟩ := Prod.mk.inj hend
  have hstep : s.step pooledRouter (.dhcp ⟨pooledRouter.serverIp⟩ (sampleMessage 1 2)) =
      some ({ s with lan := { s.lan with dhcp } }, .dhcp reply) := by
    simp only [step, hhandle, Option.map_some]
  rw [show reply = _ from hreply] at hstep
  exact ⟨tr, s, claims, run_of_calls hsome, hclaim, of_decide_eq_true hfive,
    of_decide_eq_true hserver, _, _, hstep, rfl, rfl⟩

end Ports

end UserspaceRouter
