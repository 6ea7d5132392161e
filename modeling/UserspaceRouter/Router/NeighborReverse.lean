import UserspaceRouter.Router.NeighborQueues

/-!
# The reverse map of a neighbor table

Learning a mapping writes it down twice, in the cache under its address and in the reverse map under
its MAC. Both writes overwrite, but not the same thing: the cache forgets the MAC that had the
address, and the reverse map the address that the MAC had. So an address that changes hands leaves
its old owner behind in the reverse map, as the owner of an address that the cache now gives to
somebody else (`Truthful.learn_iff`). A sweep does not mend this, since it keeps what names a cached
address, whoever has it. All other calls keep the two maps in agreement (`Truthful.call_iff`).
-/

namespace UserspaceRouter

open TransitionSystem

namespace NeighborTable

variable {P : Type*}

/-- What the reverse map says of a MAC, the cache says of the address. -/
def Truthful (t : NeighborTable P) : Prop :=
  ∀ mac ip, t.reverseLookup mac = some ip → t.lookup ip = some mac

/-- The call learns an address that the reverse map still gives to another MAC. -/
def ChangesHands (t : NeighborTable P) : NeighborCall P → Prop
  | .insert ip mac _ | .onArp ip mac _ => ∃ mac', mac' ≠ mac ∧ t.reverseLookup mac' = some ip
  | _ => False

theorem truthful_new (ourMac : MacAddr) (ourIp : Ipv4Addr) :
    (new ourMac ourIp : NeighborTable P).Truthful := fun _ _ h ↦ nomatch h

/-- Only the two maps matter. -/
theorem Truthful.of_eq {t t' : NeighborTable P} (h : t.Truthful) (hcache : t'.cache = t.cache)
    (hresolved : t'.resolved = t.resolved) : t'.Truthful := by
  intro mac ip hrev
  rw [reverseLookup, hresolved] at hrev
  rw [lookup, hcache]
  exact h mac ip hrev

theorem resolved_resolve (t : NeighborTable P) (targetIp : Ipv4Addr) (packet : P) (reqLen : ℕ)
    (now : Tick) : (t.resolve targetIp packet reqLen now).1.resolved = t.resolved := by
  obtain ⟨pending, hresolve⟩ := t.exists_pending_resolve targetIp packet reqLen now
  rw [hresolve]

theorem lookup_insert (t : NeighborTable P) (ip ip' : Ipv4Addr) (mac : MacAddr) (now : Tick) :
    (t.insert ip mac now).lookup ip' = if ip' = ip then some mac else t.lookup ip' := by
  show ((t.cache.insert ip ⟨mac, now⟩).lookup ip').map _ = _
  rw [AList.lookup_insert_ite]
  split_ifs <;> rfl

theorem reverseLookup_insert (t : NeighborTable P) (ip : Ipv4Addr) (mac mac' : MacAddr)
    (now : Tick) :
    (t.insert ip mac now).reverseLookup mac' =
      if mac' = mac then some ip else t.reverseLookup mac' :=
  AList.lookup_insert_ite _ _ _ _

/-- **Learning.** The two maps agree afterwards exactly if nobody else was known by the address. -/
theorem Truthful.learn_iff {t : NeighborTable P} (h : t.Truthful) (ip : Ipv4Addr) (mac : MacAddr)
    (now : Tick) :
    (t.insert ip mac now).Truthful ↔ ¬∃ mac', mac' ≠ mac ∧ t.reverseLookup mac' = some ip := by
  constructor
  · rintro hafter ⟨mac', hne, hrev⟩
    have hlookup := hafter mac' ip (by rwa [reverseLookup_insert, if_neg hne])
    rw [lookup_insert, if_pos rfl] at hlookup
    exact hne (Option.some.inj hlookup).symm
  · intro hno mac' ip' hrev
    rw [reverseLookup_insert] at hrev
    rw [lookup_insert]
    split_ifs at hrev with hmac
    · obtain rfl := Option.some.inj hrev
      rw [if_pos rfl, hmac]
    · have hip : ip' ≠ ip := by
        rintro rfl
        exact hno ⟨mac', hmac, hrev⟩
      rw [if_neg hip]
      exact h mac' ip' hrev

theorem Truthful.sweep {t : NeighborTable P} (h : t.Truthful) (now : Tick) :
    (t.sweep now).1.Truthful := by
  intro mac ip hrev
  have hfilter : (t.sweep now).1.reverseLookup mac =
      (t.resolved.lookup mac).filter fun ip ↦ ((t.sweep now).1.cache.lookup ip).isSome :=
    AList.lookup_retain _ _ _
  rw [hfilter] at hrev
  obtain ⟨hrev', hkept⟩ := Option.filter_eq_some_iff.1 hrev
  obtain ⟨e, he⟩ := Option.isSome_iff_exists.1 hkept
  have hbefore : t.lookup ip = some e.mac := by
    rw [lookup, lookup_cache_of_sweep he]
    rfl
  rw [lookup, he, Option.map_some, ← hbefore]
  exact h mac ip hrev'

/-- **One call.** -/
theorem Truthful.call_iff {t : NeighborTable P} (h : t.Truthful) (c : NeighborCall P) :
    (t.call c).1.Truthful ↔ ¬t.ChangesHands c := by
  cases c with
  | resolve target packet reqLen now =>
    exact ⟨fun _ ↦ id, fun _ ↦ h.of_eq (cache_resolve ..) (resolved_resolve ..)⟩
  | onArp ip mac now =>
    -- the same two writes as `insert`; the pending entries do not matter
    have hmaps : (t.onArp ip mac now).1.Truthful ↔ (t.insert ip mac now).Truthful :=
      ⟨fun ht ↦ ht.of_eq rfl rfl, fun ht ↦ ht.of_eq rfl rfl⟩
    exact hmaps.trans (h.learn_iff ip mac now)
  | insert ip mac now => exact h.learn_iff ip mac now
  | sweep now => exact ⟨fun _ ↦ id, fun _ ↦ h.sweep now⟩
  | setOurIp ip => exact ⟨fun _ ↦ id, fun _ ↦ h.of_eq rfl rfl⟩

/-- **The reverse map tells the truth**, in every state that a run passes through, exactly if the
run never learns an address that the reverse map still gives to another MAC. -/
theorem truthful_iff_never_changes_hands (ourMac : MacAddr) (ourIp : Ipv4Addr)
    (tr : List (NeighborCall P × NeighborReturn P × List (Ipv4Addr × List P)))
    (t : NeighborTable P) :
    (∀ pre post s, tr = pre ++ post → (system P).Run (new ourMac ourIp) pre s →
      (system P).Run s post t → s.Truthful) ↔
    ∀ pre a post s, tr = pre ++ a :: post → (system P).Run (new ourMac ourIp) pre s →
      (system P).Run s (a :: post) t → ¬s.ChangesHands a.1 :=
  throughout_iff (truthful_new ourMac ourIp) (B := fun s a ↦ s.ChangesHands a.1)
    (fun s a u hs hst ↦ by
      obtain ⟨c, r, out⟩ := a
      obtain ⟨rfl, -, -⟩ := eq_of_step hst
      exact hs.call_iff c) tr t

/-- A host moves from `10.0.0.2` to `10.0.0.3`: the reverse map has its new address only. -/
theorem truthful_iff_never_changes_hands_move :
    ∃ tr t, (system ℕ).Run (new .zero 0x0a000001) tr t ∧ t.Truthful ∧
      t.reverseLookup ⟨2, 0, 0, 0, 0, 2⟩ = some 0x0a000003 := by
  set t₀ : NeighborTable ℕ := new .zero 0x0a000001
  have hrun := (Run.single (step_call t₀ (.onArp 0x0a000002 ⟨2, 0, 0, 0, 0, 2⟩ 0))).snoc
    (step_call _ (.onArp 0x0a000003 ⟨2, 0, 0, 0, 0, 2⟩ 5))
  refine ⟨_, _, hrun, ?_, rfl⟩
  refine (truthful_iff_never_changes_hands _ _ _ _).2 ?_ _ [] _ (List.append_nil _).symm hrun .nil
  rintro pre a post s htr hpre -
  rcases pre with - | ⟨b, - | ⟨c, pre⟩⟩
  · obtain rfl := hpre.eq_of_nil
    obtain ⟨rfl, -⟩ := List.cons.inj htr
    rintro ⟨mac', -, hrev⟩
    exact nomatch hrev
  · obtain ⟨rfl, htr'⟩ := List.cons.inj htr
    obtain ⟨rfl, -⟩ := List.cons.inj htr'
    obtain ⟨u, hst, hnil⟩ := hpre.of_cons
    obtain rfl := hnil.eq_of_nil
    obtain ⟨rfl, -, -⟩ := eq_of_step hst
    rintro ⟨mac', hne, hrev⟩
    have hnone := reverseLookup_insert t₀ 0x0a000002 ⟨2, 0, 0, 0, 0, 2⟩ mac' 0
    rw [if_neg hne] at hnone
    exact nomatch hnone.symm.trans hrev
  · simp at htr

/-- `10.0.0.2` is heard of from one host, and then from another. The reverse map goes on to give it
to the first one. -/
theorem stale_reverse_lookup_of_onArp :
    ∃ tr t, (system ℕ).Run (new .zero 0x0a000001) tr t ∧
      t.reverseLookup ⟨2, 0, 0, 0, 0, 2⟩ = some 0x0a000002 ∧
      t.lookup 0x0a000002 = some ⟨2, 0, 0, 0, 0, 3⟩ := by
  set t₀ : NeighborTable ℕ := new .zero 0x0a000001
  have hrun := (Run.single (step_call t₀ (.onArp 0x0a000002 ⟨2, 0, 0, 0, 0, 2⟩ 0))).snoc
    (step_call _ (.onArp 0x0a000002 ⟨2, 0, 0, 0, 0, 3⟩ 5))
  exact ⟨_, _, hrun, rfl, rfl⟩

end NeighborTable

end UserspaceRouter
