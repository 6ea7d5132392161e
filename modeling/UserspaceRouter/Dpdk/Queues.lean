import Mathlib.Data.List.MinMax
import Mathlib.Data.List.Nodup
import UserspaceRouter.Foundations.AssocMap

/-!
# Receive queues and the lcores that poll them

How `run` sets its ports up. `initPort` asks the device for one receive queue for each enabled
lcore, and gets as many as the device has. `Port.new` then hands the queues out, one to each of the
lcores it is given: the lcores on the socket of the port, or the one with the least load if there
are none.

**Two counts.** The number of queues is counted from all enabled lcores, and the lcores that poll
from those on one socket. With RSS the device spreads the flows over all queues, and the queues past
the last of the polling lcores are polled by nobody (`everyQueuePolled_new_iff`). Without it one
lcore polls queue 0.

The calls of the device are taken to succeed. What `random_range` draws is a parameter.
-/

namespace UserspaceRouter.Dpdk

/-! ### The code -/

structure Lcore where
  id : UInt32
  socket : UInt32
deriving DecidableEq, Repr

/-- What `LcoreIter` enumerates: the enabled lcores, in the order of their ids. -/
structure Lcores where
  list : List Lcore
  sorted : (list.map (·.id)).Pairwise (· < ·)

/-- What a device reports about itself. -/
structure PortInfo where
  portId : UInt16
  maxRxQueues : UInt16
  maxTxQueues : UInt16
  /-- RSS redirection-table size. -/
  retaSize : UInt16
  /-- Bitmask of supported RSS hash types. -/
  flowTypeRssOffloads : UInt64
deriving DecidableEq, Repr

/-- Whether RSS is usable: a redirection table *and* at least one hash type. -/
def PortInfo.rssUsable (info : PortInfo) : Bool :=
  info.retaSize > 0 && info.flowTypeRssOffloads != 0

structure PortConfig where
  portId : UInt16
  nbRxQueues : UInt16
  nbTxQueues : UInt16

/-- What `initPort` actually configured. -/
structure PortSetup where
  portId : UInt16
  rxQueues : UInt16
  txQueues : UInt16
  rssEnabled : Bool
deriving DecidableEq, Repr

/-- `Ord::clamp`. -/
def clamp (x lo hi : UInt16) : UInt16 := if x < lo then lo else if x > hi then hi else x

def initPort (config : PortConfig) (info : PortInfo) : PortSetup :=
  let nbRx := clamp config.nbRxQueues 1 (max info.maxRxQueues 1)
  let nbTx := clamp config.nbTxQueues 1 (max info.maxTxQueues 1)
  ⟨config.portId, nbRx, nbTx, nbRx > 1 && info.rssUsable⟩

inductive RxPlan
  /-- Each assigned lcore owns its own queue. -/
  | rss (map : AList fun _ : UInt32 ↦ UInt16)
  /-- Exactly one lcore polls queue 0. -/
  | singleOwner (lcore : UInt32)

structure TxPlan where
  lcoreToQueue : AList fun _ : UInt32 ↦ UInt16
  /-- One spinlock per transmit queue. -/
  locks : ℕ

structure Port where
  setup : PortSetup
  rx : RxPlan
  tx : TxPlan

namespace Port

/-- The queues of the lcores, in order: an lcore and the number of its queue. -/
def assignment (queue : ℕ → ℕ) (lcores : List UInt32) : List (UInt32 × UInt16) :=
  lcores.zipIdx.map fun x ↦ (x.1, UInt16.ofNat (queue x.2))

/-- `Port::new`; `none` is its failed assertion. The owner is drawn from the lcores. -/
def new (setup : PortSetup) (lcores : List UInt32) (draw : ℕ) : Option Port :=
  (lcores[draw % lcores.length]?).map fun owner ↦
    let rx :=
      if setup.rssEnabled then
        .rss (.insertAll (assignment id (lcores.take setup.rxQueues.toNat)))
      else .singleOwner owner
    let nTx := (max setup.txQueues 1).toNat
    ⟨setup, rx, .insertAll (assignment (· % nTx) lcores), nTx⟩

/-- The queue that `receive` polls on behalf of an lcore. -/
def rxQueue (port : Port) (lcore : UInt32) : Option UInt16 :=
  match port.rx with
  | .rss map => map.lookup lcore
  | .singleOwner owner => if lcore = owner then some 0 else none

/-- The queue that `transmit_mbuf` sends on. -/
def txQueue (port : Port) (lcore : UInt32) : UInt16 := (port.tx.lcoreToQueue.lookup lcore).getD 0

end Port

/-- How many ports of other sockets each lcore has been given, in the order of the ids. -/
abbrev Load := List (UInt32 × ℕ)

/-- The lcores on a socket. -/
def onSocket (lcores : List Lcore) (socket : Int32) : List UInt32 :=
  (lcores.filter fun lcore ↦ lcore.socket.toInt32 == socket).map (·.id)

/-- The lcores for a port: those on its socket, or else the one with the least load. `none` is the
failed `expect` that there is one. -/
def dedicatedLcores (lcores : List Lcore) (socket : Int32) (load : Load) :
    Option (List UInt32 × Load) :=
  let dedicated := onSocket lcores socket
  if dedicated.isEmpty then
    (load.argmin (·.2)).map fun least ↦
      ([least.1], load.map fun e ↦ if e.1 = least.1 then (e.1, e.2 + 1) else e)
  else some (dedicated, load)

/-- A device, as DPDK presents it: its socket, or a negative number, and what it reports. -/
structure Device where
  socketId : Int32
  info : PortInfo

/-- The socket of a port; virtio and others have none, and are put on socket 0. -/
def Device.socket (dev : Device) : Int32 := max dev.socketId 0

/-- What `run` asks `initPort` for, and gets. -/
def portSetup (lcores : List Lcore) (dev : Device) : PortSetup :=
  let nbLcores := UInt16.ofNat lcores.length
  initPort ⟨dev.info.portId, nbLcores, nbLcores⟩ dev.info

/-- One port in the loop of `run`. -/
def setupPort (lcores : List Lcore) (load : Load) (dev : Device) (draw : ℕ) :
    Option (Port × Load) := do
  let (dedicated, load) ← dedicatedLcores lcores dev.socket load
  let port ← Port.new (portSetup lcores dev) dedicated draw
  some (port, load)

/-- The loop of `run`, over the devices and what is drawn for them. -/
def setupPorts (lcores : List Lcore) : Load → List (Device × ℕ) → Option (List Port)
  | _, [] => some []
  | load, (dev, draw) :: rest => do
    let (port, load) ← setupPort lcores load dev draw
    let ports ← setupPorts lcores load rest
    some (port :: ports)

/-- The load before the loop. -/
def noLoad (lcores : List Lcore) : Load := lcores.map fun lcore ↦ (lcore.id, 0)

/-! ### Assigned queues -/

theorem mem_assignment_iff {queue : ℕ → ℕ} {lcores : List UInt32} {lcore : UInt32} {q : UInt16} :
    (lcore, q) ∈ Port.assignment queue lcores ↔
      ∃ i, lcores[i]? = some lcore ∧ UInt16.ofNat (queue i) = q := by
  simp [Port.assignment, List.mem_zipIdx_iff_getElem?]

theorem lookup_assignment_iff {queue : ℕ → ℕ} {lcores : List UInt32} (h : lcores.Nodup)
    {lcore : UInt32} {q : UInt16} :
    (AList.insertAll (Port.assignment queue lcores)).lookup lcore = some q ↔
      ∃ i, lcores[i]? = some lcore ∧ UInt16.ofNat (queue i) = q := by
  rw [AList.lookup_insertAll_iff, mem_assignment_iff]
  have hkeys : (Port.assignment queue lcores).map (·.1) = lcores := by
    rw [Port.assignment, List.map_map]
    exact List.zipIdx_map_fst 0 lcores
  rwa [hkeys]

/-- Every configured queue is polled by exactly one of the enabled lcores: with RSS all of them, and
without it queue 0. -/
def Port.EveryQueuePolled (port : Port) (lcores : List UInt32) : Prop :=
  (port.setup.rssEnabled = true → ∀ q, q < port.setup.rxQueues →
    ∃! lcore, lcore ∈ lcores ∧ port.rxQueue lcore = some q) ∧
  (port.setup.rssEnabled = false → ∃! lcore, lcore ∈ lcores ∧ port.rxQueue lcore = some 0)

/-- With RSS, a queue is polled if there is an lcore left for it. -/
theorem existsUnique_polls_iff {enabled lcores : List UInt32} (h : lcores.Nodup)
    (hsub : ∀ lcore ∈ lcores, lcore ∈ enabled) {n q : UInt16} (hq : q < n) :
    (∃! lcore, lcore ∈ enabled ∧ (AList.insertAll
      (Port.assignment id (lcores.take n.toNat))).lookup lcore = some q) ↔
      q.toNat < lcores.length := by
  have hqn : q.toNat < n.toNat := UInt16.lt_iff_toNat_lt.1 hq
  have hlook : ∀ lcore, (AList.insertAll (Port.assignment id (lcores.take n.toNat))).lookup lcore =
      some q ↔ lcores[q.toNat]? = some lcore := by
    intro lcore
    rw [lookup_assignment_iff (h.sublist (List.take_sublist _ _))]
    constructor
    · rintro ⟨i, hi, rfl⟩
      rw [List.getElem?_take] at hi
      split_ifs at hi with hin
      rwa [id, UInt16.toNat_ofNat_of_lt' (hin.trans n.toNat_lt)]
    · intro hi
      exact ⟨q.toNat, by rw [List.getElem?_take, if_pos hqn, hi], UInt16.ofNat_toNat⟩
  simp only [hlook]
  constructor
  · rintro ⟨lcore, ⟨-, hget⟩, -⟩
    exact (List.getElem?_eq_some_iff.1 hget).1
  · intro hlt
    refine ⟨lcores[q.toNat], ⟨hsub _ (List.getElem_mem hlt), List.getElem?_eq_getElem hlt⟩, ?_⟩
    rintro lcore ⟨-, hget⟩
    rw [List.getElem?_eq_getElem hlt] at hget
    exact (Option.some.inj hget).symm

/-- **Every queue of a new port is polled exactly if there are no more queues than lcores that were
passed**, which matters with RSS only. -/
theorem everyQueuePolled_new_iff {setup : PortSetup} {enabled lcores : List UInt32}
    (h : lcores.Nodup) (hsub : ∀ lcore ∈ lcores, lcore ∈ enabled) {draw : ℕ} {port : Port}
    (hnew : Port.new setup lcores draw = some port) :
    port.EveryQueuePolled enabled ↔
      (setup.rssEnabled = true → setup.rxQueues.toNat ≤ lcores.length) := by
  obtain ⟨owner, howner, rfl⟩ := Option.map_eq_some_iff.1 hnew
  rcases hrss : setup.rssEnabled with - | -
  · -- one of the lcores owns queue 0
    have hmem : owner ∈ enabled := hsub _ (List.mem_of_getElem? howner)
    refine iff_of_true ⟨fun hcon ↦ absurd (hrss.symm.trans hcon) (by simp), fun _ ↦ ?_⟩ (by simp)
    refine ⟨owner, ⟨hmem, by simp [Port.rxQueue]⟩, ?_⟩
    rintro lcore ⟨-, hpolls⟩
    simpa [Port.rxQueue, hrss] using hpolls
  · have hpolled : ∀ q, q < setup.rxQueues → _ :=
      fun q hq ↦ existsUnique_polls_iff h hsub hq
    simp only [Port.EveryQueuePolled, Port.rxQueue, hrss, if_true, forall_true_left,
      Bool.true_eq_false, false_imp_iff, and_true]
    constructor
    · intro hall
      -- the first queue without an lcore would be polled as well
      by_contra hlt
      rw [Nat.not_le] at hlt
      have hsize : (UInt16.ofNat lcores.length).toNat = lcores.length :=
        UInt16.toNat_ofNat_of_lt' (hlt.trans setup.rxQueues.toNat_lt)
      have hq : UInt16.ofNat lcores.length < setup.rxQueues := by
        rwa [UInt16.lt_iff_toNat_lt, hsize]
      have hbelow := (hpolled _ hq).1 (hall _ hq)
      rw [hsize] at hbelow
      exact Nat.lt_irrefl _ hbelow
    · intro hle q hq
      exact (hpolled q hq).2 (Nat.lt_of_lt_of_le (UInt16.lt_iff_toNat_lt.1 hq) hle)

/-! ### The lcores of a port -/

namespace Lcores

/-- The ids of the enabled lcores. -/
def ids (lcores : Lcores) : List UInt32 := lcores.list.map (·.id)

theorem nodup_ids (lcores : Lcores) : lcores.ids.Nodup :=
  lcores.sorted.imp fun hlt ↦ UInt32.ne_of_lt hlt

/-- The lcores on a socket are enabled lcores. -/
theorem sublist_onSocket (lcores : Lcores) (socket : Int32) :
    (onSocket lcores.list socket).Sublist lcores.ids :=
  List.filter_sublist.map _

end Lcores

/-- RSS is enabled over several queues only. -/
theorem one_lt_of_rssEnabled {config : PortConfig} {info : PortInfo}
    (h : (initPort config info).rssEnabled = true) : 1 < (initPort config info).rxQueues.toNat := by
  have hgt := (Bool.and_eq_true_iff.1 h).1
  exact UInt16.lt_iff_toNat_lt.1 (of_decide_eq_true hgt)

/-- **The lcores passed for a port** are enabled, and there is at least one: those on its socket, or
a single other one. The load is still kept for the enabled lcores. -/
theorem dedicatedLcores_spec {lcores : Lcores} (hne : lcores.list ≠ []) {load : Load}
    (hload : load.map (·.1) = lcores.ids) (socket : Int32) :
    ∃ dedicated load', dedicatedLcores lcores.list socket load = some (dedicated, load') ∧
      load'.map (·.1) = lcores.ids ∧ dedicated.Sublist lcores.ids ∧ dedicated ≠ [] ∧
      (dedicated = onSocket lcores.list socket ∨
        (onSocket lcores.list socket = [] ∧ dedicated.length = 1)) := by
  unfold dedicatedLcores
  by_cases hnone : onSocket lcores.list socket = []
  · have hsome : load.argmin (·.2) ≠ none := by
      rw [Ne, List.argmin_eq_none]
      rintro rfl
      exact hne (List.map_eq_nil_iff.1 hload.symm)
    obtain ⟨least, hleast⟩ := Option.ne_none_iff_exists'.1 hsome
    have hmem : least.1 ∈ lcores.ids := by
      rw [← hload]
      exact List.mem_map_of_mem (List.argmin_mem (Option.mem_def.2 hleast))
    refine ⟨[least.1], _, by simp only [hnone, hleast]; rfl, ?_, ?_, by simp, Or.inr ⟨hnone, rfl⟩⟩
    · rw [List.map_map, ← hload]
      refine List.map_congr_left fun e _ ↦ ?_
      simp only [Function.comp_apply]
      split_ifs <;> rfl
    · exact List.singleton_sublist.2 hmem
  · refine ⟨_, load, by simp [hnone], hload, lcores.sublist_onSocket socket, hnone, Or.inl rfl⟩

/-- There is an lcore on the socket of the port for each queue that RSS spreads the flows over. -/
def EnoughLcores (lcores : List Lcore) (dev : Device) : Prop :=
  (portSetup lcores dev).rssEnabled = true →
    (portSetup lcores dev).rxQueues.toNat ≤ (onSocket lcores dev.socket).length

/-- **One port of the loop.** -/
theorem setupPort_spec {lcores : Lcores} (hne : lcores.list ≠ []) {load : Load}
    (hload : load.map (·.1) = lcores.ids) (dev : Device) (draw : ℕ) :
    ∃ port load', setupPort lcores.list load dev draw = some (port, load') ∧
      load'.map (·.1) = lcores.ids ∧
      (port.EveryQueuePolled lcores.ids ↔ EnoughLcores lcores.list dev) := by
  obtain ⟨dedicated, load', hdedicated, hload', hsub, hpos, hwhich⟩ :=
    dedicatedLcores_spec hne hload dev.socket
  have hlt : draw % dedicated.length < dedicated.length :=
    Nat.mod_lt _ (List.length_pos_iff.2 hpos)
  obtain ⟨port, hport⟩ : ∃ port, Port.new (portSetup lcores.list dev) dedicated draw = some port :=
    ⟨_, by rw [Port.new, List.getElem?_eq_getElem hlt]; rfl⟩
  refine ⟨port, load', by simp [setupPort, hdedicated, hport], hload', ?_⟩
  rw [everyQueuePolled_new_iff (lcores.nodup_ids.sublist hsub)
    (fun _ hmem ↦ hsub.subset hmem) hport]
  refine forall_congr' fun hrss ↦ ?_
  rcases hwhich with rfl | ⟨hnone, hone⟩
  · rfl
  · -- with one lcore from elsewhere there are too few, and without any as well
    have hmany := one_lt_of_rssEnabled hrss
    rw [hnone, hone]
    refine iff_of_false (Nat.not_le.2 hmany) ?_
    rw [List.length_nil]
    exact Nat.not_le.2 (Nat.zero_lt_of_lt hmany)

/-- The loop over the ports, from any load. -/
theorem setupPorts_spec {lcores : Lcores} (hne : lcores.list ≠ []) (devices : List (Device × ℕ))
    {load : Load} (hload : load.map (·.1) = lcores.ids) :
    ∃ ports, setupPorts lcores.list load devices = some ports ∧
      ((∀ port ∈ ports, port.EveryQueuePolled lcores.ids) ↔
        ∀ d ∈ devices, EnoughLcores lcores.list d.1) := by
  induction devices generalizing load with
  | nil => exact ⟨[], rfl, by simp⟩
  | cons d devices ih =>
    obtain ⟨port, load', hport, hload', hiff⟩ := setupPort_spec hne hload d.1 d.2
    obtain ⟨ports, hports, hiffs⟩ := ih hload'
    refine ⟨port :: ports, by simp [setupPorts, hport, hports], ?_⟩
    rw [List.forall_mem_cons, List.forall_mem_cons, hiff, hiffs]

/-- **Every receive queue is polled by exactly one lcore** if and only if there is an lcore at all
and, for each port with RSS, no fewer lcores on its socket than the queues that were configured. -/
theorem every_queue_polled_iff (lcores : Lcores) (devices : List (Device × ℕ)) :
    (∃ ports, setupPorts lcores.list (noLoad lcores.list) devices = some ports ∧
      ∀ port ∈ ports, port.EveryQueuePolled lcores.ids) ↔
    ∀ d ∈ devices, lcores.list ≠ [] ∧ EnoughLcores lcores.list d.1 := by
  by_cases hne : lcores.list = []
  · -- the first port finds no lcore
    rcases devices with - | ⟨⟨dev, draw⟩, devices⟩
    · exact iff_of_true ⟨[], rfl, by simp⟩ (by simp)
    · refine iff_of_false ?_ fun hall ↦ (hall _ (List.mem_cons_self ..)).1 hne
      rintro ⟨ports, hports, -⟩
      rw [hne] at hports
      exact nomatch hports
  · have hload : (noLoad lcores.list).map (·.1) = lcores.ids := by
      rw [noLoad, List.map_map]
      rfl
    obtain ⟨ports, hports, hiff⟩ := setupPorts_spec hne devices hload
    have hall : (∃ ports, setupPorts lcores.list (noLoad lcores.list) devices = some ports ∧
        ∀ port ∈ ports, port.EveryQueuePolled lcores.ids) ↔
        ∀ port ∈ ports, port.EveryQueuePolled lcores.ids := by
      simp [hports]
    rw [hall, hiff]
    simp [hne]

/-- A device on socket 0 with eight queues and RSS. -/
def sampleDevice : Device := ⟨0, ⟨0, 8, 8, 128, 0x38⟩⟩

/-- Two lcores on socket 0. -/
def oneSocket : Lcores := ⟨[⟨0, 0⟩, ⟨1, 0⟩], by decide⟩

/-- An lcore on socket 0 and one on socket 1. -/
def twoSockets : Lcores := ⟨[⟨0, 0⟩, ⟨1, 1⟩], by decide⟩

/-- With all lcores on the socket of the port, its two queues are polled. -/
theorem every_queue_polled_one_socket :
    ∃ port, setupPorts oneSocket.list (noLoad oneSocket.list) [(sampleDevice, 0)] = some [port] ∧
      port.setup.rssEnabled = true ∧ port.setup.rxQueues = 2 ∧
      port.EveryQueuePolled oneSocket.ids := by
  have henough : EnoughLcores oneSocket.list sampleDevice := fun _ ↦ by decide
  obtain ⟨ports, hports, hpolled⟩ := (every_queue_polled_iff oneSocket [(sampleDevice, 0)]).2
    (List.forall_mem_singleton.2 ⟨by decide, henough⟩)
  refine ⟨_, rfl, by decide, by decide, hpolled _ ?_⟩
  rw [← Option.some.inj hports]
  exact List.mem_singleton_self _

/-- With an lcore on another socket, the second queue is polled by nobody. -/
theorem queue_unpolled_two_sockets :
    ∃ port, setupPorts twoSockets.list (noLoad twoSockets.list) [(sampleDevice, 0)] =
        some [port] ∧
      port.setup.rssEnabled = true ∧ 1 < port.setup.rxQueues ∧
      (∀ lcore ∈ twoSockets.ids, port.rxQueue lcore ≠ some 1) ∧
      ¬port.EveryQueuePolled twoSockets.ids := by
  -- checked over the list: there are too many lcore ids to go through
  obtain ⟨port, hport, hrss, hqueues, hall⟩ : ∃ port,
      setupPorts twoSockets.list (noLoad twoSockets.list) [(sampleDevice, 0)] = some [port] ∧
      port.setup.rssEnabled = true ∧ 1 < port.setup.rxQueues ∧
      twoSockets.ids.all (fun lcore ↦ port.rxQueue lcore != some 1) = true :=
    ⟨_, rfl, by decide, by decide, by decide⟩
  have hunpolled : ∀ lcore ∈ twoSockets.ids, port.rxQueue lcore ≠ some 1 :=
    fun lcore hmem ↦ bne_iff_ne.1 (List.all_eq_true.1 hall lcore hmem)
  refine ⟨port, hport, hrss, hqueues, hunpolled, fun hpolled ↦ ?_⟩
  obtain ⟨lcore, ⟨hmem, hone⟩, -⟩ := hpolled.1 hrss 1 hqueues
  exact hunpolled lcore hmem hone

end UserspaceRouter.Dpdk
