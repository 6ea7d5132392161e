import Mathlib.Data.Sum.Basic
import UserspaceRouter.Foundations.Ownership
import UserspaceRouter.Foundations.TransitionSystem
import UserspaceRouter.Router.Dhcp

/-!
# DHCP servers at work

The DHCP server cut at its lock operations. `AssignPc.next` is `assign`: a lookup, a `take` and an
insertion, three critical sections with nothing held in between. `HandlePc.next` is `handle`, with
`assign` as a subroutine; a Release removes the lease in one critical section and gives the address
back to the pool in another.

## No address is leased twice

Between two critical sections a worker carries an address that is in neither table. Counting such
workers among the owners (`owned`), every step is one of the moves of `Ownership.Exclusive`, and no
interleaving gives an address to two owners or frees an owned one (`dhcpInv_run`). Nothing else is
needed: an insertion may overwrite another worker's lease, and that address is merely lost.

## Assignment is not idempotent

That loss is real. `assign` looks the client up and records it in different critical sections, so
two calls for one client may both find nothing, take two addresses and return both. It happens only
if a call looks up while another one is between its own lookup and its insertion. When none does,
the calls go through three phases, of which the last has one recorded address (`phase_run`).
-/

namespace UserspaceRouter

open TransitionSystem Ownership

/-! ### The code, cut at its lock operations -/

/-- Where a call of `assign` is. -/
inductive AssignPc
  | lookup
  | take
  | insert (ip : Ipv4Addr)
  | done (r : Option Ipv4Addr)
deriving DecidableEq, Repr

/-- The next critical section of a call `assign(mac)`. -/
def AssignPc.next (mac : MacAddr) (pc : AssignPc) (s : DhcpState) : Option (AssignPc × DhcpState) :=
  match pc with
  | lookup =>
    match s.leases.lookup mac with
    | some ip => some (.done (some ip), s)
    | none => some (.take, s)
  | take =>
    match s.pool.take 1 with
    | (pool, none) => some (.done none, { s with pool })
    | (pool, some out) =>
      match out.head? with
      | none => some (.done none, { s with pool })
      | some ip => some (.insert ip, { s with pool })
  | insert ip => some (.done (some ip), { s with leases := s.leases.insert mac ip })
  | done _ => none

/-- Where a worker is in `handle`. -/
inductive HandlePc
  | idle
  /-- In `assign`, with the answer to give once there is an address. -/
  | assigning (mac : MacAddr) (answer : Ipv4Addr → Reply) (pc : AssignPc)
  | removing (mac : MacAddr)
  | releasing (ip : Ipv4Addr)

/-- What a worker's step shows to the outside. -/
inductive DhcpEvent
  /-- A message reaches one of the servers. -/
  | message (cfg : DhcpServerConfig) (view : DhcpView)
  /-- One critical section. -/
  | section_
  /-- `handle` returns. -/
  | reply (r : Option Reply)

/-- What `handle` does with a message before it touches the tables. -/
def HandlePc.start (cfg : DhcpServerConfig) (view : DhcpView) : HandlePc :=
  let mac := view.header.clientMac
  match view.messageType with
  | some .discover => .assigning mac view.offer .lookup
  | some .request =>
    if view.selectsOther cfg then .idle else .assigning mac view.ackOrNak .lookup
  | some .release | some .decline => .removing mac
  | _ => .idle

/-- The next step of a worker that is handling a message. A failed assertion of `release` has no
next step. -/
def HandlePc.next (pc : HandlePc) (s : DhcpState) : Option (DhcpEvent × HandlePc × DhcpState) :=
  match pc with
  | idle => none
  | assigning _ answer (.done r) => some (.reply (r.map answer), .idle, s)
  | assigning mac answer pc =>
    (pc.next mac s).map fun (pc', s') ↦ (.section_, .assigning mac answer pc', s')
  | removing mac =>
    match s.leases.lookup mac with
    | none => some (.reply none, .idle, s)
    | some ip => some (.section_, .releasing ip, { s with leases := s.leases.erase mac })
  | releasing ip => (s.pool.release ip).map fun pool ↦ (.reply none, .idle, { s with pool })

/-- What a worker can do: take up a message, or go on with the one it has. -/
inductive HandlePc.Local : HandlePc → DhcpState → DhcpEvent → HandlePc → DhcpState → Prop
  | message {s cfg view} : Local .idle s (.message cfg view) (.start cfg view) s
  | next {pc s e pc' s'} : pc.next s = some (e, pc', s') → Local pc s e pc' s'

/-- Any number of workers, serving any LAN port, over one pool and one lease table. -/
def dhcpSystem (W : Type*) [DecidableEq W] :
    TransitionSystem ((W → HandlePc) × DhcpState) (W × DhcpEvent) :=
  .interleave W HandlePc.Local

/-! ### Ownership -/

/-- The address a worker carries from one table to the other. -/
def HandlePc.held : HandlePc → Option Ipv4Addr
  | .assigning _ _ (.insert ip) => some ip
  | .releasing ip => some ip
  | _ => none

/-- **What a step does to the tables and to the address the worker holds.** -/
inductive Moves (s : DhcpState) (held : Option Ipv4Addr) : DhcpState → Option Ipv4Addr → Prop
  | keep : Moves s held s none
  | take {ip pool} : s.pool.IsFree ip → s.pool.Becomes pool (fun x ↦ s.pool.IsFree x ∧ x ≠ ip) →
      Moves s held { s with pool } (some ip)
  | insert {ip} (mac : MacAddr) : held = some ip →
      Moves s held { s with leases := s.leases.insert mac ip } none
  | remove {mac ip} : s.leases.lookup mac = some ip →
      Moves s held { s with leases := s.leases.erase mac } (some ip)
  | release {ip pool} : held = some ip → s.pool.release ip = some pool →
      Moves s held { s with pool } none

theorem moves_assign {s s' : DhcpState} (hs : s.pool.Wf) {mac : MacAddr} {answer : Ipv4Addr → Reply}
    {pc pc' : AssignPc} (h : pc.next mac s = some (pc', s')) :
    Moves s (HandlePc.assigning mac answer pc).held s'
      (HandlePc.assigning mac answer pc').held := by
  cases pc with
  | lookup =>
    rw [AssignPc.next] at h
    split at h <;> obtain ⟨rfl, rfl⟩ := by simpa using h
    · exact .keep
    · exact .keep
  | take =>
    rcases AddressPool.take_one_cases hs with ⟨htake, -⟩ | ⟨ip, pool, htake, hfree, hbecomes⟩
    · obtain ⟨rfl, rfl⟩ := by simpa [AssignPc.next, htake] using h
      exact .keep
    · obtain ⟨rfl, rfl⟩ := by simpa [AssignPc.next, htake] using h
      exact .take hfree hbecomes
  | insert ip =>
    obtain ⟨rfl, rfl⟩ := by simpa [AssignPc.next] using h
    exact .insert mac rfl
  | done r => exact absurd h (by simp [AssignPc.next])

theorem moves_next {s s' : DhcpState} (hs : s.pool.Wf) {pc pc' : HandlePc} {e : DhcpEvent}
    (h : pc.next s = some (e, pc', s')) : Moves s pc.held s' pc'.held := by
  cases pc with
  | idle => exact absurd h (by simp [HandlePc.next])
  | assigning mac answer pc =>
    rcases hdone : pc with - | - | ip | r
    all_goals rw [hdone] at h
    case done =>
      obtain ⟨rfl, rfl, rfl⟩ := by simpa [HandlePc.next] using h
      exact .keep
    all_goals
      simp only [HandlePc.next, Option.map_eq_some_iff] at h
      obtain ⟨⟨pc₁, s₁⟩, hnext, heq⟩ := h
      obtain ⟨-, rfl, rfl⟩ := by simpa using heq
      exact moves_assign hs hnext
  | removing mac =>
    rw [HandlePc.next] at h
    split at h
    · obtain ⟨rfl, rfl, rfl⟩ := by simpa using h
      exact .keep
    · next ip hip =>
      obtain ⟨rfl, rfl, rfl⟩ := by simpa using h
      exact .remove hip
  | releasing ip =>
    rw [HandlePc.next, Option.map_eq_some_iff] at h
    obtain ⟨pool, hpool, heq⟩ := h
    obtain ⟨rfl, rfl, rfl⟩ := by simpa using heq
    exact .release rfl hpool

theorem held_start (cfg : DhcpServerConfig) (view : DhcpView) :
    (HandlePc.start cfg view).held = none := by
  unfold HandlePc.start
  split
  · rfl
  · split <;> rfl
  all_goals rfl

theorem moves_local {s s' : DhcpState} (hs : s.pool.Wf) {pc pc' : HandlePc} {e : DhcpEvent}
    (h : HandlePc.Local pc s e pc' s') : Moves s pc.held s' pc'.held := by
  cases h with
  | message =>
    rw [held_start]
    exact .keep
  | next h => exact moves_next hs h

section Workers

variable {W : Type*}

/-- Who owns what: clients their leases, workers the address they carry. -/
def owned (ls : W → HandlePc) (leases : LeaseTable) : MacAddr ⊕ W → Option Ipv4Addr :=
  Sum.elim (fun mac ↦ leases.lookup mac) fun w ↦ (ls w).held

/-- **The invariant**: the pool is well formed, with the bounds it was created with, and ownership
is exclusive. -/
structure DhcpInv (start end_ : Ipv4Addr) (s : (W → HandlePc) × DhcpState) : Prop where
  wf : s.2.pool.Wf
  start_eq : s.2.pool.start = start
  end_eq : s.2.pool.end_ = end_
  exclusive : Exclusive s.2.pool.InBounds s.2.pool.IsFree (owned s.1 s.2.leases)

variable [DecidableEq W]

theorem owned_update (ls : W → HandlePc) (leases : LeaseTable) (w : W) (pc : HandlePc) :
    owned (Function.update ls w pc) leases =
      Function.update (owned ls leases) (Sum.inr w) pc.held := by
  rw [owned, owned, Sum.update_elim_inr]
  congr 1
  funext w'
  rw [Function.update_apply, Function.update_apply]
  split_ifs <;> rfl

theorem owned_insert (ls : W → HandlePc) (leases : LeaseTable) (mac : MacAddr) (ip : Ipv4Addr) :
    owned ls (leases.insert mac ip) =
      Function.update (owned ls leases) (Sum.inl mac) (some ip) := by
  rw [owned, owned, Sum.update_elim_inl, AList.lookup_insert_eq_update]

theorem owned_erase (ls : W → HandlePc) (leases : LeaseTable) (mac : MacAddr) :
    owned ls (leases.erase mac) = Function.update (owned ls leases) (Sum.inl mac) none := by
  rw [owned, owned, Sum.update_elim_inl, AList.lookup_erase_eq_update]

/-- **One step keeps the invariant**, whichever worker takes it. -/
theorem dhcpInv_step {start end_ : Ipv4Addr} {s t : (W → HandlePc) × DhcpState} {a : W × DhcpEvent}
    (h : DhcpInv start end_ s) (hstep : (dhcpSystem W).step s a t) : DhcpInv start end_ t := by
  obtain ⟨ls, s⟩ := s
  obtain ⟨ls', s'⟩ := t
  obtain ⟨w, e⟩ := a
  obtain ⟨pc', hloc, rfl⟩ := step_interleave_iff.1 hstep
  obtain ⟨hwf, hstart, hend, hex⟩ := h
  have hmoves := moves_local hwf hloc
  generalize hheld : pc'.held = held' at hmoves
  cases hmoves with
  | keep =>
    refine ⟨hwf, hstart, hend, ?_⟩
    show Exclusive s.pool.InBounds s.pool.IsFree (owned (Function.update ls w pc') s.leases)
    rw [owned_update, hheld]
    exact hex.drop _
  | take hfree hbecomes =>
    refine ⟨hbecomes.wf, hbecomes.start_eq.trans hstart, hbecomes.end_eq.trans hend, ?_⟩
    show Exclusive _ _ (owned (Function.update ls w pc') s.leases)
    rw [owned_update, hheld, hbecomes.inBounds_eq]
    exact hex.take hfree hbecomes.isFree_iff _
  | @insert ip mac hold =>
    have ho : owned ls s.leases (Sum.inr w) = some ip := hold
    refine ⟨hwf, hstart, hend, ?_⟩
    show Exclusive s.pool.InBounds s.pool.IsFree
      (owned (Function.update ls w pc') (s.leases.insert mac ip))
    rw [owned_insert, owned_update, hheld]
    exact hex.move ho _
  | @remove mac ip hlease =>
    have ho : owned ls s.leases (Sum.inl mac) = some ip := hlease
    refine ⟨hwf, hstart, hend, ?_⟩
    show Exclusive s.pool.InBounds s.pool.IsFree
      (owned (Function.update ls w pc') (s.leases.erase mac))
    rw [owned_update, owned_erase, hheld]
    exact hex.move ho _
  | @release ip pool hold hrelease =>
    have ho : owned ls s.leases (Sum.inr w) = some ip := hold
    obtain ⟨pool', hrelease', hbecomes⟩ := AddressPool.exists_becomes_release hwf
      (hex.bound_of_owned _ _ ho) (hex.not_free _ _ ho)
    obtain rfl : pool = pool' := Option.some.inj (hrelease.symm.trans hrelease')
    refine ⟨hbecomes.wf, hbecomes.start_eq.trans hstart, hbecomes.end_eq.trans hend, ?_⟩
    show Exclusive _ _ (owned (Function.update ls w pc') s.leases)
    rw [owned_update, hheld, hbecomes.inBounds_eq]
    exact hex.give ho hbecomes.isFree_iff

/-- **Every run keeps the invariant.** -/
theorem dhcpInv_run {start end_ : Ipv4Addr} {s₀ s : (W → HandlePc) × DhcpState}
    {tr : List (W × DhcpEvent)} (h₀ : DhcpInv start end_ s₀) (h : (dhcpSystem W).Run s₀ tr s) :
    DhcpInv start end_ s :=
  h.invariant h₀ fun _ _ _ ↦ dhcpInv_step

omit [DecidableEq W] in
theorem dhcpInv_boot {start end_ : Ipv4Addr} {reserved : List Ipv4Addr} {s : DhcpState}
    (h : DhcpState.boot start end_ reserved = some s) :
    DhcpInv start end_ (fun _ : W ↦ HandlePc.idle, s) := by
  obtain ⟨hwf, hstart, hend, hleases⟩ := DhcpState.pool_boot h
  have hnone : ∀ o, owned (fun _ : W ↦ HandlePc.idle) s.leases o = none := by
    rw [hleases]
    rintro (mac | w) <;> rfl
  refine ⟨hwf, hstart, hend, fun ip ↦ hwf.inBounds_of_isFree, ?_, ?_, ?_⟩
  all_goals
    intro o
    rw [hnone]
    simp

/-- **DHCP uniqueness under concurrency.** However the critical sections of any number of workers
interleave, distinct clients hold distinct addresses, every leased address is in bounds and not
free, and an address about to be given back to the pool is in bounds and not free, so that the
assertion in `release` holds. -/
theorem leases_exclusive_in_every_run {start end_ : Ipv4Addr} {reserved : List Ipv4Addr}
    {s₀ : DhcpState} (hboot : DhcpState.boot start end_ reserved = some s₀)
    {tr : List (W × DhcpEvent)} {ls : W → HandlePc} {s : DhcpState}
    (hrun : (dhcpSystem W).Run (fun _ ↦ .idle, s₀) tr (ls, s)) :
    (∀ mac mac' ip, s.leases.lookup mac = some ip → s.leases.lookup mac' = some ip → mac = mac') ∧
    (∀ mac ip, s.leases.lookup mac = some ip → start ≤ ip ∧ ip ≤ end_ ∧ ¬s.pool.IsFree ip) ∧
    ∀ w ip, ls w = .releasing ip →
      start ≤ ip ∧ ip ≤ end_ ∧ ¬s.pool.IsFree ip ∧ (s.pool.release ip).isSome := by
  obtain ⟨hwf, hstart, hend, hex⟩ := dhcpInv_run (dhcpInv_boot hboot) hrun
  refine ⟨fun mac mac' ip h h' ↦ ?_, fun mac ip h ↦ ?_, fun w ip h ↦ ?_⟩
  · exact Sum.inl_injective (hex.inj (Sum.inl mac) (Sum.inl mac') ip h h')
  · have hb := hex.bound_of_owned (Sum.inl mac) ip h
    have hfree := hex.not_free (Sum.inl mac) ip h
    rw [← hstart, ← hend]
    exact ⟨hb.1, hb.2, hfree⟩
  · have ho : owned ls s.leases (Sum.inr w) = some ip := by
      show (ls w).held = some ip
      rw [h]
      rfl
    have hb := hex.bound_of_owned _ _ ho
    have hfree := hex.not_free _ _ ho
    obtain ⟨pool', hrelease, -⟩ := AddressPool.exists_becomes_release hwf hb hfree
    rw [← hstart, ← hend]
    exact ⟨hb.1, hb.2, hfree, by rw [hrelease]; rfl⟩

/-! ### An uninterrupted call is a run -/

/-- What an event answers to the client. -/
def DhcpEvent.answer : DhcpEvent → Option Reply
  | .reply r => r
  | _ => none

/-- The answers of a trace. -/
def answers (tr : List (W × DhcpEvent)) : List Reply := tr.filterMap fun a ↦ a.2.answer

theorem step_handle {w : W} {pc pc' : HandlePc} {s s' : DhcpState} {e : DhcpEvent}
    (h : pc.next s = some (e, pc', s')) :
    (dhcpSystem W).step (solo .idle w pc s) (w, e) (solo .idle w pc' s') :=
  step_solo (.next h)

/-- **`assign` is a run**, of two or three critical sections. -/
theorem run_assign (s : DhcpState) (mac : MacAddr) (answer : Ipv4Addr → Reply) (w : W) :
    ∃ tr, (dhcpSystem W).Run (solo .idle w (.assigning mac answer .lookup) s) tr
        (solo .idle w (.assigning mac answer (.done (s.assign mac).2)) (s.assign mac).1) ∧
      answers tr = [] := by
  unfold DhcpState.assign
  rcases hlease : s.leases.lookup mac with - | ip
  · have hmiss : (dhcpSystem W).Run (solo .idle w (.assigning mac answer .lookup) s)
        [(w, .section_)] (solo .idle w (.assigning mac answer .take) s) :=
      .single (step_handle (by simp [HandlePc.next, AssignPc.next, hlease]))
    rcases htake : s.pool.take 1 with ⟨pool, - | out⟩
    · exact ⟨_, hmiss.snoc (a := (w, .section_))
        (step_handle (by simp [HandlePc.next, AssignPc.next, htake])), rfl⟩
    · rcases hhead : out.head? with - | ip
      · exact ⟨_, hmiss.snoc (a := (w, .section_))
          (step_handle (by simp [HandlePc.next, AssignPc.next, htake, hhead])), rfl⟩
      · have htook := hmiss.snoc (a := (w, .section_))
          (t := solo .idle w (.assigning mac answer (.insert ip)) { s with pool })
          (step_handle (by simp [HandlePc.next, AssignPc.next, htake, hhead]))
        simp only [hhead]
        exact ⟨_, htook.snoc (a := (w, .section_))
          (step_handle (by simp [HandlePc.next, AssignPc.next])), rfl⟩
  · exact ⟨_, .single (a := (w, .section_))
      (step_handle (by simp [HandlePc.next, AssignPc.next, hlease])), rfl⟩

section Handle

variable {s s' : DhcpState} {cfg : DhcpServerConfig} {view : DhcpView} {r : Option Reply}

theorem run_message (s : DhcpState) (cfg : DhcpServerConfig) (view : DhcpView) (w : W) :
    (dhcpSystem W).Run (solo .idle w .idle s) [(w, .message cfg view)]
      (solo .idle w (.start cfg view) s) :=
  .single (step_solo .message)

/-- A message that allocates, whatever the answer to it is. -/
theorem run_handle_assign (cfg : DhcpServerConfig) {answer : Ipv4Addr → Reply} (w : W)
    (hstart : HandlePc.start cfg view = .assigning view.header.clientMac answer .lookup) :
    ∃ tr, (dhcpSystem W).Run (solo .idle w .idle s) tr
        (solo .idle w .idle (s.assign view.header.clientMac).1) ∧
      answers tr = ((s.assign view.header.clientMac).2.map answer).toList := by
  have hmessage := run_message s cfg view w
  rw [hstart] at hmessage
  obtain ⟨tr, hrun, htr⟩ := run_assign s view.header.clientMac answer w
  refine ⟨_, (hmessage.trans hrun).snoc (step_handle rfl), ?_⟩
  have hans : answers [(w, DhcpEvent.message cfg view)] = [] := rfl
  rw [answers, List.filterMap_append, List.filterMap_append, ← answers, ← answers, hans, htr]
  rcases (s.assign view.header.clientMac).2 with - | ip <;> rfl

/-- A message that gives a lease back. -/
theorem run_handle_remove (cfg : DhcpServerConfig) (w : W)
    (hstart : HandlePc.start cfg view = .removing view.header.clientMac)
    (h : (match s.leases.lookup view.header.clientMac with
      | none => some (s, none)
      | some ip => (s.pool.release ip).map fun pool ↦
        ((⟨pool, s.leases.erase view.header.clientMac⟩ : DhcpState), none)) = some (s', r)) :
    ∃ tr, (dhcpSystem W).Run (solo .idle w .idle s) tr (solo .idle w .idle s') ∧
      answers tr = r.toList := by
  have hmessage := run_message s cfg view w
  rw [hstart] at hmessage
  rcases hlease : s.leases.lookup view.header.clientMac with - | ip
  · rw [hlease] at h
    obtain ⟨rfl, rfl⟩ := Prod.mk.inj (Option.some.inj h)
    exact ⟨_, hmessage.snoc (a := (w, .reply none)) (step_handle (by simp [HandlePc.next, hlease])),
      rfl⟩
  · rw [hlease] at h
    obtain ⟨pool, hpool, heq⟩ := Option.map_eq_some_iff.1 h
    obtain ⟨rfl, rfl⟩ := Prod.mk.inj heq
    have hremoved := hmessage.snoc (a := (w, .section_))
      (t := solo .idle w (.releasing ip)
        { s with leases := s.leases.erase view.header.clientMac })
      (step_handle (by simp [HandlePc.next, hlease]))
    exact ⟨_, hremoved.snoc (a := (w, .reply none)) (step_handle (by simp [HandlePc.next, hpool])),
      rfl⟩

/-- **`handle` is a run**, that gives the answer the call gives. -/
theorem run_handle (h : s.handle cfg view = some (s', r)) (w : W) :
    ∃ tr, (dhcpSystem W).Run (solo .idle w .idle s) tr (solo .idle w .idle s') ∧
      answers tr = r.toList := by
  have hignore : HandlePc.start cfg view = .idle → some (s, none) = some (s', r) →
      ∃ tr, (dhcpSystem W).Run (solo .idle w .idle s) tr (solo .idle w .idle s') ∧
        answers tr = r.toList := by
    intro hstart heq
    obtain ⟨rfl, rfl⟩ := Prod.mk.inj (Option.some.inj heq)
    have hmessage := run_message s cfg view w
    rw [hstart] at hmessage
    exact ⟨_, hmessage, rfl⟩
  rcases hm : view.messageType with - | m <;> simp only [DhcpState.handle, hm] at h
  · exact hignore (by simp [HandlePc.start, hm]) h
  cases m with
  | discover =>
    obtain ⟨rfl, rfl⟩ := Prod.mk.inj (Option.some.inj h)
    exact run_handle_assign cfg w (by simp [HandlePc.start, hm])
  | request =>
    by_cases hother : view.selectsOther cfg = true
    · simp only [if_pos hother] at h
      exact hignore (by simp [HandlePc.start, hm, hother]) h
    · simp only [if_neg hother] at h
      obtain ⟨rfl, rfl⟩ := Prod.mk.inj (Option.some.inj h)
      exact run_handle_assign cfg w (by simp [HandlePc.start, hm, hother])
  | release => exact run_handle_remove cfg w (by simp [HandlePc.start, hm]) h
  | decline => exact run_handle_remove cfg w (by simp [HandlePc.start, hm]) h
  | offer | ack | nak | inform => exact hignore (by simp [HandlePc.start, hm]) h

end Handle

/-- A host on the LAN. -/
def sampleMac (host : UInt8) : MacAddr := ⟨0x02, 0, 0, 0, 0, host⟩

/-- A message of the given type from a host, with no option but the type. -/
def sampleMessage (kind host : UInt8) : DhcpView where
  buf := List.replicate 28 0 ++ (sampleMac host).octets ++ List.replicate 206 0 ++
    [53, 1, kind, 255]
  start := 0
  optionsStart := 240
  end_ := 244

/-- Critical sections of the workers in a given order. -/
def playSections (ls : W → HandlePc) (s : DhcpState) : List W → (W → HandlePc) × DhcpState
  | [] => (ls, s)
  | w :: ws =>
    match (ls w).next s with
    | none => playSections ls s ws
    | some (_, pc, s') => playSections (Function.update ls w pc) s' ws

theorem run_playSections (ls : W → HandlePc) (s : DhcpState) (ws : List W) :
    ∃ tr, (dhcpSystem W).Run (ls, s) tr (playSections ls s ws) := by
  induction ws generalizing ls s with
  | nil => exact ⟨[], .nil⟩
  | cons w ws ih =>
    rcases hnext : (ls w).next s with - | ⟨e, pc, s'⟩
    · rw [playSections, hnext]
      exact ih ls s
    · rw [playSections, hnext]
      have hstep : (dhcpSystem W).step (ls, s) (w, e) (Function.update ls w pc, s') :=
        step_interleave_iff.2 ⟨pc, .next hnext, rfl⟩
      obtain ⟨tr, hrun⟩ := ih (Function.update ls w pc) s'
      exact ⟨_, (Run.single hstep).trans hrun⟩

/-- Two workers, each with a DISCOVER of another host. -/
def sampleHandling : Bool → HandlePc :=
  Function.update (Function.update (fun _ ↦ .idle) false
    (.start ⟨0x0a000001⟩ (sampleMessage 1 1))) true (.start ⟨0x0a000001⟩ (sampleMessage 1 2))

/-- Two workers handle a DISCOVER each, section by section in turn: the second one has its lease
first. Each host has a lease of its own, and neither is free. -/
theorem leases_exclusive_two_hosts :
    ∃ s₀, DhcpState.boot 0x0a000001 0x0a00000a [0x0a000001] = some s₀ ∧
      ∃ tr ls s, (dhcpSystem Bool).Run (fun _ ↦ .idle, s₀) tr (ls, s) ∧
        s.leases.lookup (sampleMac 1) = some 0x0a000002 ∧
        s.leases.lookup (sampleMac 2) = some 0x0a000003 ∧
        ∀ mac ip, s.leases.lookup mac = some ip → ¬s.pool.IsFree ip := by
  have hboot : DhcpState.boot 0x0a000001 0x0a00000a [0x0a000001] =
      some ⟨⟨0x0a000001, 0x0a00000a, [(0x0a000002, 0x0a00000a)]⟩, ∅⟩ := rfl
  refine ⟨_, hboot, ?_⟩
  set s₀ : DhcpState := ⟨⟨0x0a000001, 0x0a00000a, [(0x0a000002, 0x0a00000a)]⟩, ∅⟩
  have hmessages : (dhcpSystem Bool).Run (fun _ ↦ .idle, s₀)
      [(false, .message ⟨0x0a000001⟩ (sampleMessage 1 1)),
        (true, .message ⟨0x0a000001⟩ (sampleMessage 1 2))] (sampleHandling, s₀) :=
    (Run.single (T := dhcpSystem Bool) (step_interleave_iff.2 ⟨_, .message, rfl⟩)).snoc
      (step_interleave_iff.2 ⟨_, .message, rfl⟩)
  obtain ⟨tr, hsections⟩ := run_playSections sampleHandling s₀
    [false, true, false, true, true, false]
  have hrun := hmessages.trans hsections
  obtain ⟨-, hleases, -⟩ := leases_exclusive_in_every_run hboot hrun
  exact ⟨_, _, _, hrun, by decide +kernel, by decide +kernel, fun mac ip h ↦ (hleases mac ip h).2.2⟩

end Workers

/-! ### The tables between calls -/

/-- **The invariant of the tables** when no worker is inside a call. -/
structure DhcpState.Inv (start end_ : Ipv4Addr) (s : DhcpState) : Prop where
  wf : s.pool.Wf
  start_eq : s.pool.start = start
  end_eq : s.pool.end_ = end_
  exclusive : Exclusive s.pool.InBounds s.pool.IsFree fun mac ↦ s.leases.lookup mac

theorem dhcpInv_idle_iff {W : Type*} {start end_ : Ipv4Addr} {s : DhcpState} :
    DhcpInv start end_ (fun _ : W ↦ HandlePc.idle, s) ↔ s.Inv start end_ := by
  constructor
  · rintro ⟨hwf, hstart, hend, hex⟩
    refine ⟨hwf, hstart, hend, hex.bound_of_free, fun mac ↦ hex.bound_of_owned (Sum.inl mac),
      fun mac ↦ hex.not_free (Sum.inl mac), fun mac mac' ip h h' ↦ ?_⟩
    exact Sum.inl_injective (hex.inj (Sum.inl mac) (Sum.inl mac') ip h h')
  · rintro ⟨hwf, hstart, hend, hex⟩
    have hidle : ∀ w ip, owned (fun _ : W ↦ HandlePc.idle) s.leases (Sum.inr w) ≠ some ip :=
      fun _ _ h ↦ Option.some_ne_none _ h.symm
    refine ⟨hwf, hstart, hend, hex.bound_of_free, ?_, ?_, ?_⟩
    · rintro (mac | w) ip h
      · exact hex.bound_of_owned mac ip h
      · exact absurd h (hidle w ip)
    · rintro (mac | w) ip h
      · exact hex.not_free mac ip h
      · exact absurd h (hidle w ip)
    · rintro (mac | w) (mac' | w') ip h h'
      · rw [hex.inj mac mac' ip h h']
      · exact absurd h' (hidle w' ip)
      · exact absurd h (hidle w ip)
      · exact absurd h (hidle w ip)

namespace DhcpState

variable {start end_ : Ipv4Addr} {s s' : DhcpState} {cfg : DhcpServerConfig} {view : DhcpView}

theorem inv_boot {reserved : List Ipv4Addr} (h : boot start end_ reserved = some s) :
    s.Inv start end_ :=
  dhcpInv_idle_iff.1 (dhcpInv_boot (W := Unit) h)

/-- **One message keeps the invariant**: the call is a run. -/
theorem Inv.handle (h : s.Inv start end_) {r : Option Reply}
    (hhandle : s.handle cfg view = some (s', r)) : s'.Inv start end_ := by
  obtain ⟨tr, hrun, -⟩ := run_handle hhandle ()
  rw [solo_self, solo_self] at hrun
  exact dhcpInv_idle_iff.1 (dhcpInv_run (dhcpInv_idle_iff.2 h) hrun)

/-- In such a state `handle` meets no failed assertion. -/
theorem Inv.exists_handle (h : s.Inv start end_) (cfg : DhcpServerConfig) (view : DhcpView) :
    ∃ s' r, s.handle cfg view = some (s', r) := by
  have hhandling := handling s cfg view
  generalize s.handle cfg view = res at hhandling ⊢
  cases hhandling with
  | assign _ _ => exact ⟨_, _, rfl⟩
  | ignore _ => exact ⟨_, _, rfl⟩
  | giveBack _ _ hlease =>
    obtain ⟨pool, hrelease, -⟩ := AddressPool.exists_becomes_release h.wf
      (h.exclusive.bound_of_owned _ _ hlease) (h.exclusive.not_free _ _ hlease)
    rw [hrelease]
    exact ⟨_, _, rfl⟩

/-- Reserving an address only takes from the free ones. -/
theorem Inv.reserve (h : s.Inv start end_) (addr : Ipv4Addr) :
    Inv start end_ { s with pool := (s.pool.reserve addr).1 } := by
  have hbecomes := AddressPool.becomes_reserve h.wf addr
  refine ⟨hbecomes.wf, hbecomes.start_eq.trans h.start_eq, hbecomes.end_eq.trans h.end_eq, ?_⟩
  rw [hbecomes.inBounds_eq]
  exact h.exclusive.mono (fun x hx ↦ ((hbecomes.isFree_iff x).1 hx).1) fun _ _ hx ↦ hx

/-- Giving an address to the pool, from outside the lease table, is harmless if nobody has it. -/
theorem Inv.reclaim (h : s.Inv start end_) {ip : Ipv4Addr} (hb : s.pool.InBounds ip)
    (hno : ∀ mac, s.leases.lookup mac ≠ some ip) (hfree : ¬s.pool.IsFree ip) :
    ∃ pool, s.pool.release ip = some pool ∧ Inv start end_ { s with pool } := by
  obtain ⟨pool, hrelease, hbecomes⟩ := AddressPool.exists_becomes_release h.wf hb hfree
  refine ⟨pool, hrelease, hbecomes.wf, hbecomes.start_eq.trans h.start_eq,
    hbecomes.end_eq.trans h.end_eq, ?_⟩
  rw [hbecomes.inBounds_eq]
  exact h.exclusive.reclaim hb hno hbecomes.isFree_iff

end DhcpState

/-! ### Concurrent calls of `assign` for one client -/

section Assign

variable {W : Type*} [DecidableEq W] {mac : MacAddr} {s₀ : DhcpState}

/-- Any number of calls `assign(mac)`, and nothing else. -/
def assignSystem (W : Type*) [DecidableEq W] (mac : MacAddr) :
    TransitionSystem ((W → AssignPc) × DhcpState) W :=
  .interleaveFun W (AssignPc.next mac)

/-- The call has found no lease and has not recorded one yet. -/
def AssignPc.InWindow : AssignPc → Prop
  | .take | .insert _ => True
  | _ => False

/-- The condition on a step: a call looks up only when no call is in its window. -/
def Alone (s : (W → AssignPc) × DhcpState) (w : W) : Prop :=
  s.1 w = .lookup → ∀ w', ¬(s.1 w').InWindow

/-- Where a call can be before an address is taken; it gets nothing only from a pool that cannot
serve it. -/
def AssignPc.Waiting (s₀ : DhcpState) (pc : AssignPc) : Prop :=
  pc = .lookup ∨ pc = .take ∨ pc = .done none ∧ (s₀.pool.take 1).2 = none

/-- Where a call can be once `ip` is recorded. -/
def AssignPc.Served (ip : Ipv4Addr) (pc : AssignPc) : Prop := pc = .lookup ∨ pc = .done (some ip)

/-- **The phases of calls that look up alone**: nothing has happened yet, or one call carries the
address it took, or that address is recorded and every call that has returned returned it. -/
inductive Phase (mac : MacAddr) (s₀ : DhcpState) : (W → AssignPc) → DhcpState → Prop
  | untouched {ls : W → AssignPc} : (∀ w, (ls w).Waiting s₀) →
      (∀ w w', ls w = .take → ls w' = .take → w = w') → Phase mac s₀ ls s₀
  | inFlight {ls : W → AssignPc} {w : W} {ip : Ipv4Addr} {pool : AddressPool} :
      s₀.pool.take 1 = (pool, some [ip]) → ls w = .insert ip →
      (∀ w', w' ≠ w → ls w' = .lookup) → Phase mac s₀ ls { s₀ with pool }
  | recorded {ls : W → AssignPc} {ip : Ipv4Addr} {pool : AddressPool} :
      s₀.pool.take 1 = (pool, some [ip]) → (∀ w, (ls w).Served ip) →
      Phase mac s₀ ls ⟨pool, s₀.leases.insert mac ip⟩

variable {ls : W → AssignPc} {s : DhcpState} {w : W} {pc : AssignPc}

theorem forall_waiting : (∀ w', (Function.update ls w pc w').Waiting s₀) ↔
    pc.Waiting s₀ ∧ ∀ w', w' ≠ w → (ls w').Waiting s₀ :=
  Function.forall_update_iff ls fun _ pc ↦ pc.Waiting s₀

theorem forall_served {ip : Ipv4Addr} : (∀ w', (Function.update ls w pc w').Served ip) ↔
    pc.Served ip ∧ ∀ w', w' ≠ w → (ls w').Served ip :=
  Function.forall_update_iff ls fun _ pc ↦ pc.Served ip

/-- A lookup that misses, with no other call about to take. -/
theorem phase_miss (hls : ∀ w, (ls w).Waiting s₀) (hwindow : ∀ w', ¬(ls w').InWindow) (w : W) :
    Phase mac s₀ (Function.update ls w .take) s₀ := by
  have honly : ∀ w', Function.update ls w AssignPc.take w' = .take → w' = w := by
    intro w' h'
    by_contra hne
    rw [Function.update_of_ne hne] at h'
    exact hwindow w' (by rw [h']; trivial)
  have hwaiting : AssignPc.take.Waiting s₀ := Or.inr (Or.inl rfl)
  refine .untouched (forall_waiting.2 ⟨hwaiting, fun w' _ ↦ hls w'⟩) fun w₁ w₂ h₁ h₂ ↦ ?_
  rw [honly w₁ h₁, honly w₂ h₂]

/-- A take, by the only call about to. -/
theorem phase_take (hwf : s₀.pool.Wf) (hls : ∀ w, (ls w).Waiting s₀)
    (honly : ∀ w', ls w' = .take → w' = w) (hnext : AssignPc.next mac .take s₀ = some (pc, s)) :
    Phase mac s₀ (Function.update ls w pc) s := by
  rcases AddressPool.take_one_cases hwf with ⟨htake, -⟩ | ⟨ip, pool, htake, -, -⟩
  · obtain ⟨rfl, rfl⟩ := by simpa [AssignPc.next, htake] using hnext
    have hwaiting : (AssignPc.done none).Waiting s₀ := Or.inr (Or.inr ⟨rfl, by rw [htake]⟩)
    have hno : ∀ w', Function.update ls w (AssignPc.done none) w' ≠ .take :=
      (Function.forall_update_iff ls fun _ pc ↦ pc ≠ .take).2
        ⟨nofun, fun w' hne h ↦ hne (honly w' h)⟩
    exact .untouched (forall_waiting.2 ⟨hwaiting, fun w' _ ↦ hls w'⟩)
      fun w₁ _ h₁ _ ↦ absurd h₁ (hno w₁)
  · obtain ⟨rfl, rfl⟩ := by simpa [AssignPc.next, htake] using hnext
    refine .inFlight htake (Function.update_self w (AssignPc.insert ip) ls) fun w' hne ↦ ?_
    rw [Function.update_of_ne hne]
    rcases hls w' with h | h | ⟨-, h⟩
    · exact h
    · exact absurd (honly w' h) hne
    · rw [htake] at h
      exact absurd h (Option.some_ne_none _)

/-- **One step keeps to the phases.** -/
theorem phase_step (hwf : s₀.pool.Wf) (hnone : s₀.leases.lookup mac = none)
    {s' : DhcpState} (h : Phase mac s₀ ls s) (halone : Alone (ls, s) w)
    (hnext : AssignPc.next mac (ls w) s = some (pc, s')) :
    Phase mac s₀ (Function.update ls w pc) s' := by
  cases h with
  | untouched hls htake =>
    rcases hls w with hw | hw | ⟨hw, -⟩
    · have hmiss : AssignPc.next mac (ls w) s₀ = some (.take, s₀) := by
        rw [hw, AssignPc.next, hnone]
      obtain ⟨rfl, rfl⟩ := Prod.mk.inj (Option.some.inj (hmiss.symm.trans hnext))
      exact phase_miss hls (halone hw) w
    · rw [hw] at hnext
      exact phase_take hwf hls (fun w' hw' ↦ htake w' w hw' hw) hnext
    · rw [hw] at hnext
      exact absurd hnext (by simp [AssignPc.next])
  | @inFlight w₀ ip pool htake hw₀ hrest =>
    rcases eq_or_ne w w₀ with rfl | hne
    · rw [hw₀] at hnext
      obtain ⟨rfl, rfl⟩ := by simpa [AssignPc.next] using hnext
      have hserved : (AssignPc.done (some ip)).Served ip := Or.inr rfl
      exact .recorded htake (forall_served.2 ⟨hserved, fun w' hne ↦ Or.inl (hrest w' hne)⟩)
    · -- nobody looks up while an address is in flight
      exact absurd (by show (ls w₀).InWindow; rw [hw₀]; trivial) (halone (hrest w hne) w₀)
  | @recorded ip pool htake hls =>
    rcases hls w with hw | hw
    · have hlease : (s₀.leases.insert mac ip).lookup mac = some ip := AList.lookup_insert _
      rw [hw, AssignPc.next, hlease] at hnext
      obtain ⟨rfl, rfl⟩ := by simpa using hnext
      have hserved : (AssignPc.done (some ip)).Served ip := Or.inr rfl
      exact .recorded htake (forall_served.2 ⟨hserved, fun w' _ ↦ hls w'⟩)
    · rw [hw] at hnext
      exact absurd hnext (by simp [AssignPc.next])

/-- **Every run of calls that look up alone keeps to the phases.** -/
theorem phase_run (hwf : s₀.pool.Wf) (hnone : s₀.leases.lookup mac = none) {tr : List W}
    (h : ((assignSystem W mac).restrict Alone).Run (fun _ ↦ .lookup, s₀) tr (ls, s)) :
    Phase mac s₀ ls s := by
  refine h.invariant (I := fun t ↦ Phase mac s₀ t.1 t.2) ?_ ?_
  · exact .untouched (fun _ ↦ Or.inl rfl) (fun _ _ h ↦ nomatch h)
  · rintro ⟨ls, s⟩ w t hphase ⟨halone, pc, s', hnext, rfl⟩
    exact phase_step hwf hnone hphase halone hnext

/-- The address was free before the calls and is not any more. -/
def Left (s₀ s : DhcpState) (ip : Ipv4Addr) : Prop := s₀.pool.IsFree ip ∧ ¬s.pool.IsFree ip

/-- Once the pool has served one call, exactly that address has left it. -/
theorem left_iff (hwf : s₀.pool.Wf) {ip : Ipv4Addr} {pool : AddressPool} {leases : LeaseTable}
    (htake : s₀.pool.take 1 = (pool, some [ip])) (x : Ipv4Addr) :
    Left s₀ ⟨pool, leases⟩ x ↔ x = ip := by
  rcases AddressPool.take_one_cases hwf with ⟨htake', -⟩ | ⟨ip', pool', htake', hfree, hbecomes⟩
  · exact absurd (htake.symm.trans htake') (by simp)
  · obtain ⟨rfl, rfl⟩ : pool = pool' ∧ ip = ip' := by simpa using htake.symm.trans htake'
    constructor
    · rintro ⟨hx, hx'⟩
      by_contra hne
      exact hx' ((hbecomes.isFree_iff x).2 ⟨hx, hne⟩)
    · rintro rfl
      exact ⟨hfree, fun hx ↦ ((hbecomes.isFree_iff x).1 hx).2 rfl⟩

/-- **`assign` is idempotent when calls look up alone.** In every run from a state without a lease
for the client in which no call looks up while another is between its missed lookup and its
insertion: what a call has returned is the recorded lease; at most one address has left the pool,
and it is the recorded lease or in flight to be recorded by one call; and once all calls have
returned, if the pool could serve one at all, exactly one address has left the pool, it is the
recorded lease, and every call returned it. -/
theorem assign_idempotent_of_alone (hwf : s₀.pool.Wf) (hnone : s₀.leases.lookup mac = none)
    {tr : List W}
    (hrun : ((assignSystem W mac).restrict Alone).Run (fun _ ↦ .lookup, s₀) tr (ls, s)) :
    (∀ w ip, ls w = .done (some ip) → s.leases.lookup mac = some ip) ∧
    (∀ ip ip', Left s₀ s ip → Left s₀ s ip' → ip = ip') ∧
    (∀ ip, Left s₀ s ip → s.leases.lookup mac = some ip ∨ ∃ w, ls w = .insert ip) ∧
    ((∀ w, ∃ r, ls w = .done r) → Nonempty W → (s₀.pool.take 1).2 ≠ none →
      ∃ ip, (∀ x, Left s₀ s x ↔ x = ip) ∧ s.leases.lookup mac = some ip ∧
        ∀ w, ls w = .done (some ip)) := by
  have hphase := phase_run hwf hnone hrun
  cases hphase with
  | untouched hls htake =>
    have hleft : ∀ ip, ¬Left s₀ s₀ ip := fun ip h ↦ h.2 h.1
    refine ⟨fun w ip hw ↦ ?_, fun ip _ h ↦ absurd h (hleft ip), fun ip h ↦ absurd h (hleft ip), ?_⟩
    · rcases hls w with h | h | ⟨h, -⟩
      all_goals exact absurd (hw.symm.trans h) nofun
    · rintro hdone ⟨w⟩ hserve
      obtain ⟨r, hr⟩ := hdone w
      rcases hls w with h | h | ⟨-, h⟩
      · exact absurd (hr.symm.trans h) nofun
      · exact absurd (hr.symm.trans h) nofun
      · exact absurd h hserve
  | @inFlight w₀ ip pool htake hw₀ hrest =>
    refine ⟨fun w ip' hw ↦ ?_, fun x y hx hy ↦ ?_, fun x hx ↦ Or.inr ⟨w₀, ?_⟩, fun hdone _ _ ↦ ?_⟩
    · rcases eq_or_ne w w₀ with rfl | hne
      · exact absurd (hw.symm.trans hw₀) nofun
      · exact absurd (hw.symm.trans (hrest w hne)) nofun
    · rw [(left_iff hwf htake x).1 hx, (left_iff hwf htake y).1 hy]
    · rw [(left_iff hwf htake x).1 hx, hw₀]
    · obtain ⟨r, hr⟩ := hdone w₀
      exact absurd (hr.symm.trans hw₀) nofun
  | @recorded ip pool htake hls =>
    have hlease : (s₀.leases.insert mac ip).lookup mac = some ip := AList.lookup_insert _
    refine ⟨fun w ip' hw ↦ ?_, fun x y hx hy ↦ ?_, fun x hx ↦ Or.inl ?_, fun hdone _ _ ↦ ?_⟩
    · rcases hls w with h | h
      · exact absurd (hw.symm.trans h) nofun
      · obtain rfl : ip' = ip := by simpa using hw.symm.trans h
        exact hlease
    · rw [(left_iff hwf htake x).1 hx, (left_iff hwf htake y).1 hy]
    · rw [(left_iff hwf htake x).1 hx]
      exact hlease
    · refine ⟨ip, left_iff hwf htake, hlease, fun w ↦ ?_⟩
      obtain ⟨r, hr⟩ := hdone w
      rcases hls w with h | h
      · exact absurd (hr.symm.trans h) nofun
      · exact h

/-- Two calls, one after the other: both return the one address that left the pool. -/
theorem assign_one_after_the_other :
    ∃ s₀, DhcpState.boot 0x0a000001 0x0a00000a [] = some s₀ ∧
      ∃ tr ls s, ((assignSystem Bool (sampleMac 1)).restrict Alone).Run
          (fun _ ↦ .lookup, s₀) tr (ls, s) ∧
        (∀ w, ∃ r, ls w = .done r) ∧ ∃ ip, (∀ x, Left s₀ s x ↔ x = ip) ∧
          s.leases.lookup (sampleMac 1) = some ip ∧ ∀ w, ls w = .done (some ip) := by
  have hboot : DhcpState.boot 0x0a000001 0x0a00000a [] =
      some ⟨⟨0x0a000001, 0x0a00000a, [(0x0a000001, 0x0a00000a)]⟩, ∅⟩ := rfl
  refine ⟨_, hboot, ?_⟩
  set s₀ : DhcpState := ⟨⟨0x0a000001, 0x0a00000a, [(0x0a000001, 0x0a00000a)]⟩, ∅⟩ with hs₀
  have h₁ : ((assignSystem Bool (sampleMac 1)).restrict Alone).Run (fun _ ↦ .lookup, s₀) [false]
      (Function.update (fun _ ↦ .lookup) false .take, s₀) :=
    .single ⟨fun _ _ ↦ id, _, _, rfl, rfl⟩
  have h₂ := h₁.snoc (a := false) ⟨nofun, _, _, rfl, rfl⟩
  have h₃ := h₂.snoc (a := false) ⟨nofun, _, _, rfl, rfl⟩
  have h₄ := h₃.snoc (a := true) ⟨fun _ w ↦ by cases w <;> exact id, _, _, rfl, rfl⟩
  obtain ⟨-, -, -, hall⟩ :=
    assign_idempotent_of_alone (DhcpState.pool_boot hboot).1 rfl h₄
  refine ⟨_, _, _, h₄, ?_, hall ?_ ⟨true⟩ (by decide)⟩
  all_goals exact fun w ↦ by cases w <;> exact ⟨_, rfl⟩

/-- Two calls that both look up before either records: both find nothing, each takes an address, and
the first one's is lost from the pool and from the leases. -/
theorem assign_twice :
    ∃ s₀, DhcpState.boot 0x0a000001 0x0a00000a [] = some s₀ ∧
      ∃ tr ls s, (assignSystem Bool (sampleMac 1)).Run (fun _ ↦ .lookup, s₀) tr (ls, s) ∧
        ls false = .done (some 0x0a000001) ∧ ls true = .done (some 0x0a000002) ∧
        Left s₀ s 0x0a000001 ∧ Left s₀ s 0x0a000002 ∧
        ∀ mac, s.leases.lookup mac ≠ some 0x0a000001 := by
  refine ⟨_, rfl, [false, true, false, true, false, true], _, _, run_of_schedule rfl, rfl, rfl, ?_,
    ?_, ?_⟩
  · exact ⟨by decide, by decide⟩
  · exact ⟨by decide, by decide⟩
  · intro mac
    show (((∅ : LeaseTable).insert (sampleMac 1) 0x0a000001).insert (sampleMac 1) 0x0a000002).lookup
      mac ≠ some 0x0a000001
    rw [AList.lookup_insert_ite, AList.lookup_insert_ite]
    split_ifs with hmac
    · decide
    · exact nofun

end Assign

end UserspaceRouter
