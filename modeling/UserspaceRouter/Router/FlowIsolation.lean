import UserspaceRouter.Foundations.Outputs
import UserspaceRouter.Router.Conntrack

/-!
# What one flow can notice of the others, and of the sweeper

The connection table as a machine with results, `ConnTrack.call`. Two runs are compared by what
their calls return.

* **Flows do not interfere** (`simulation_at`). The results at a key are those of `callAt`, the
  machine of that key's entry alone, run on the sweeps and the packets of that key. Two runs that
  agree on these agree on every result at the key and on what is stored there.
* **Sweeps cannot be noticed by live flows.** A sweep removes only what has expired, and an expired
  entry stays expired for as long as no packet refreshes it. So the swept table differs from the one
  that is never swept at expired entries only (`SweptOf`), and a sequence in which no packet comes
  late never looks at one of those.
-/

namespace UserspaceRouter

namespace ConnTrack

/-- What a call returns. -/
inductive Result
  | states (internal external : TcpState)
  | admitted (ok : Bool)
  | swept
deriving DecidableEq, Repr

/-- A call with its result. -/
def call (c : ConnTrack) : Op → ConnTrack × Result
  | .observeEgress key flags now =>
    let p := c.observeEgress key flags now
    (p.1, .states p.2.1 p.2.2)
  | .checkIngress key flags now =>
    let p := c.checkIngress key flags now
    (p.1, .admitted p.2)
  | .sweep now => (c.sweep now, .swept)

theorem call_fst (c : ConnTrack) (op : Op) : (c.call op).1 = c.step op := by
  cases op <;> rfl

/-- The calls of a sequence with their results, oldest first. -/
def results (c : ConnTrack) (ops : List Op) : List (Op × Result) := Mealy.outputs call c ops

theorem final_call (c : ConnTrack) (ops : List Op) : Mealy.final call c ops = c.run ops := by
  have hstep : (fun (c : ConnTrack) op ↦ (c.call op).1) = step := by
    funext c op
    exact call_fst c op
  rw [Mealy.final, hstep, run]

/-! ### One key's part of the table -/

/-- The call is a sweep or a packet of the flow `k`. -/
def Op.concerns (k : FlowKey) (op : Op) : Bool := (op.eventAt k).isSome

/-- What a call of this kind returns, given the entry of its flow. -/
def resultAt (o : Option Conn) : Op → Result
  | .observeEgress _ flags now =>
    let conn := Conn.afterEgress o flags now
    .states conn.internal conn.external
  | .checkIngress _ _ _ => .admitted (o.any fun conn ↦ !conn.fullyClosed)
  | .sweep _ => .swept

/-- The entry of one key, as a machine of its own. -/
def callAt (k : FlowKey) (o : Option Conn) (op : Op) : Option Conn × Result :=
  ((op.eventAt k).elim o (flowStep o), resultAt o op)

theorem lookup_call (c : ConnTrack) (op : Op) (k : FlowKey) :
    (c.call op).1.flows.lookup k = (callAt k (c.flows.lookup k) op).1 := by
  rw [call_fst, lookup_step, callAt]
  rcases op.eventAt k with - | e
  · rfl
  · rfl

/-- A result at a key is a function of what the key holds. -/
theorem call_snd {c : ConnTrack} {op : Op} {k : FlowKey} (h : op.concerns k = true) :
    (c.call op).2 = resultAt (c.flows.lookup k) op := by
  cases op with
  | observeEgress key flags now =>
    obtain rfl : k = key := by simpa [Op.concerns, Op.eventAt] using h
    rfl
  | checkIngress key flags now =>
    obtain rfl : k = key := by simpa [Op.concerns, Op.eventAt] using h
    simp only [call, checkIngress, resultAt]
    rcases c.flows.lookup k with - | found
    · rfl
    · rcases hc : found.fullyClosed with - | - <;> simp [hc]
  | sweep now => rfl

/-- **The entry of a key evolves by itself**: the table, seen at `k`, follows `callAt k` on the
calls that concern `k`. -/
theorem simulation_at (k : FlowKey) :
    Mealy.Simulation call (callAt k) (Op.concerns k) fun _ c o ↦ c.flows.lookup k = o where
  hidden := by
    rintro op _ c _ rfl hop
    have hnone : op.eventAt k = none := by simpa [Op.concerns] using hop
    rw [lookup_call, callAt, hnone]
    rfl
  result := by
    rintro op _ c _ rfl hop
    exact call_snd hop
  step := by
    rintro op _ c _ rfl -
    exact lookup_call c op k

/-- **Flows do not interfere.** Two runs from the empty table with the same sweeps and the same
packets of the flow `k`, in the same order, return the same at each of these and leave the same
entry at `k`, whatever the packets of all other flows and wherever they come. -/
theorem flows_do_not_interfere {k : FlowKey} {ops ops' : List Op}
    (h : ops.filter (Op.concerns k) = ops'.filter (Op.concerns k)) :
    (new.results ops).filter (fun p ↦ p.1.concerns k) =
        (new.results ops').filter (fun p ↦ p.1.concerns k) ∧
      (new.run ops).flows.lookup k = (new.run ops').flows.lookup k := by
  refine ⟨?_, ?_⟩
  · rw [results, results, (simulation_at k).outputs_eq rfl, (simulation_at k).outputs_eq rfl, h]
  · rw [← final_call, ← final_call, (simulation_at k).final_rel rfl,
      (simulation_at k).final_rel rfl, h]

/-- A probe and a reset of another peer behind the same port make no difference to a handshake. -/
theorem flows_do_not_interfere_with_probe :
    (new.run [.observeEgress sampleFlow 0x02 0, .checkIngress sampleFlow' 0x04 1,
        .checkIngress sampleFlow 0x12 2]).flows.lookup sampleFlow =
      (new.run [.observeEgress sampleFlow 0x02 0, .checkIngress sampleFlow 0x12 2]).flows.lookup
        sampleFlow :=
  (flows_do_not_interfere (by decide)).2

end ConnTrack

/-! ### Sweeps -/

/-- The entry's timeout has passed at `now`. -/
def Conn.Expired (conn : Conn) (now : Tick) : Prop :=
  conn.idleTimeoutMs ≤ Tick.elapsedSince now conn.lastSeen

instance (conn : Conn) (now : Tick) : Decidable (conn.Expired now) :=
  inferInstanceAs (Decidable (_ ≤ _))

/-- What has expired stays expired. -/
theorem Conn.Expired.mono {conn : Conn} {now now' : Tick} (h : conn.Expired now)
    (hle : now ≤ now') : conn.Expired now' := by
  have hmono : now - conn.lastSeen ≤ now' - conn.lastSeen := Nat.sub_le_sub_right hle _
  exact Nat.le_trans h hmono

namespace ConnTrack

/-- The tick of a call. -/
def Op.tick : Op → Tick
  | .observeEgress _ _ now => now
  | .checkIngress _ _ now => now
  | .sweep now => now

/-- The flow of a packet. -/
def Op.flow : Op → Option FlowKey
  | .observeEgress key _ _ => some key
  | .checkIngress key _ _ => some key
  | .sweep _ => none

/-- The call is a packet, and not a sweep. -/
def Op.isPacket (op : Op) : Bool := op.flow.isSome

/-- The packet comes within the timeout of its flow, if that is stored. -/
def OnTime (c : ConnTrack) (op : Op) : Prop :=
  ∀ k ∈ op.flow, ∀ conn ∈ c.flows.lookup k, ¬conn.Expired op.tick

/-- No packet of the sequence comes late, when the calls are made on `c`. -/
def Prompt (c : ConnTrack) (ops : List Op) : Prop :=
  ∀ pre op post, ops = pre ++ op :: post → (c.run pre).OnTime op

/-- Ticks never decrease. -/
def InOrder (ops : List Op) : Prop := ops.Pairwise fun op op' ↦ op.tick ≤ op'.tick

instance (ops : List Op) : Decidable (InOrder ops) :=
  inferInstanceAs (Decidable (ops.Pairwise fun op op' ↦ op.tick ≤ op'.tick))

theorem prompt_cons_iff {c : ConnTrack} {op : Op} {ops : List Op} :
    c.Prompt (op :: ops) ↔ c.OnTime op ∧ (c.step op).Prompt ops := by
  constructor
  · intro h
    refine ⟨h [] op ops rfl, ?_⟩
    rintro pre op' post rfl
    exact h (op :: pre) op' post rfl
  · rintro ⟨hon, hrest⟩ pre op' post heq
    rcases List.cons_eq_append_iff.1 heq with ⟨rfl, hops⟩ | ⟨pre', rfl, hops⟩
    · rwa [(List.cons.inj hops).1]
    · exact hrest pre' op' post hops

instance (c : ConnTrack) (op : Op) : Decidable (c.OnTime op) :=
  inferInstanceAs (Decidable (∀ k ∈ op.flow, ∀ conn ∈ c.flows.lookup k, ¬conn.Expired op.tick))

instance decidablePrompt : ∀ (c : ConnTrack) (ops : List Op), Decidable (c.Prompt ops)
  | _, [] => isTrue (by simp [Prompt])
  | c, op :: ops =>
    have := decidablePrompt (c.step op) ops
    decidable_of_iff _ prompt_cons_iff.symm

/-- `d` is `c` after some sweeps not later than `now`: what it misses has expired. -/
def SweptOf (now : Tick) (d c : ConnTrack) : Prop :=
  ∀ k, d.flows.lookup k = c.flows.lookup k ∨
    d.flows.lookup k = none ∧ ∃ conn, c.flows.lookup k = some conn ∧ conn.Expired now

namespace SweptOf

variable {now : Tick} {c d : ConnTrack}

theorem refl (now : Tick) (c : ConnTrack) : SweptOf now c c := fun _ ↦ Or.inl rfl

theorem mono (h : SweptOf now d c) {now' : Tick} (hle : now ≤ now') : SweptOf now' d c := by
  intro k
  rcases h k with heq | ⟨hnone, conn, hconn, hexp⟩
  · exact Or.inl heq
  · exact Or.inr ⟨hnone, conn, hconn, hexp.mono hle⟩

/-- One more sweep. -/
theorem sweep (h : SweptOf now d c) : SweptOf now (d.sweep now) c := by
  intro k
  have hsweep : (d.sweep now).flows.lookup k = flowStep (d.flows.lookup k) (.sweep now) :=
    lookup_step d (.sweep now) k
  rw [hsweep]
  rcases h k with heq | ⟨hnone, hgone⟩
  · rw [heq]
    rcases hc : c.flows.lookup k with - | conn
    · exact Or.inl rfl
    · by_cases hexp : conn.Expired now
      · exact Or.inr ⟨by simpa [flowStep, Conn.Expired] using hexp, conn, rfl, hexp⟩
      · exact Or.inl (by simpa [flowStep, Conn.Expired] using hexp)
  · rw [hnone]
    exact Or.inr ⟨rfl, hgone⟩

/-- A packet that is on time finds the same entry in both tables. -/
theorem lookup_eq (h : SweptOf now d c) {op : Op} {k : FlowKey} (hk : op.flow = some k)
    (hle : now ≤ op.tick) (hon : c.OnTime op) : d.flows.lookup k = c.flows.lookup k := by
  rcases h k with heq | ⟨-, conn, hconn, hexp⟩
  · exact heq
  · exact absurd (hexp.mono hle) (hon k hk conn hconn)

end SweptOf

theorem eventAt_eq_none {op : Op} {k k' : FlowKey} (hk : op.flow = some k) (hne : k' ≠ k) :
    op.eventAt k' = none := by
  cases op with
  | observeEgress key flags now => simpa [Op.eventAt, ← Option.some.inj hk] using hne
  | checkIngress key flags now => simpa [Op.eventAt, ← Option.some.inj hk] using hne
  | sweep now => exact absurd hk (by simp [Op.flow])

theorem concerns_of_flow {op : Op} {k : FlowKey} (hk : op.flow = some k) :
    op.concerns k = true := by
  cases op with
  | observeEgress key flags now => simp [Op.concerns, Op.eventAt, Option.some.inj hk]
  | checkIngress key flags now => simp [Op.concerns, Op.eventAt, Option.some.inj hk]
  | sweep now => exact absurd hk (by simp [Op.flow])

/-- The packet then does the same to both tables. -/
theorem SweptOf.packet {now : Tick} {c d : ConnTrack} (h : SweptOf now d c) {op : Op}
    {k : FlowKey} (hk : op.flow = some k) (hle : now ≤ op.tick) (hon : c.OnTime op) :
    (d.call op).2 = (c.call op).2 ∧ SweptOf op.tick (d.call op).1 (c.call op).1 := by
  have hat := h.lookup_eq hk hle hon
  refine ⟨?_, fun k' ↦ ?_⟩
  · rw [call_snd (concerns_of_flow hk), call_snd (concerns_of_flow hk), hat]
  · rw [lookup_call, lookup_call]
    by_cases hne : k' = k
    · rw [hne, hat]
      exact Or.inl rfl
    · rw [callAt, callAt, eventAt_eq_none hk hne]
      exact h.mono hle k'

/-- **The swept table follows the one that is never swept**, as long as the calls to come are in
order, not before the last sweep, and none is late. -/
theorem simulation_unswept :
    Mealy.Simulation call call Op.isPacket fun ops d c ↦ ∃ now, SweptOf now d c ∧
      (∀ op ∈ ops, now ≤ op.tick) ∧ InOrder ops ∧ c.Prompt (ops.filter Op.isPacket) where
  hidden := by
    rintro op ops d c ⟨now, hswept, hlater, horder, hprompt⟩ hop
    obtain ⟨now', rfl⟩ : ∃ now', op = .sweep now' := by
      cases op with
      | observeEgress key flags now' => exact absurd hop (by simp [Op.isPacket, Op.flow])
      | checkIngress key flags now' => exact absurd hop (by simp [Op.isPacket, Op.flow])
      | sweep now' => exact ⟨now', rfl⟩
    refine ⟨now', ?_, (List.pairwise_cons.1 horder).1, (List.pairwise_cons.1 horder).2, ?_⟩
    · exact (hswept.mono (hlater _ List.mem_cons_self)).sweep
    · rwa [List.filter_cons_of_neg (by simp [hop])] at hprompt
  result := by
    rintro op ops d c ⟨now, hswept, hlater, -, hprompt⟩ hop
    rw [List.filter_cons_of_pos hop] at hprompt
    obtain ⟨k, hk⟩ := Option.isSome_iff_exists.1 hop
    exact (hswept.packet hk (hlater _ List.mem_cons_self) (prompt_cons_iff.1 hprompt).1).1
  step := by
    rintro op ops d c ⟨now, hswept, hlater, horder, hprompt⟩ hop
    rw [List.filter_cons_of_pos hop] at hprompt
    obtain ⟨k, hk⟩ := Option.isSome_iff_exists.1 hop
    obtain ⟨hon, hrest⟩ := prompt_cons_iff.1 hprompt
    refine ⟨op.tick, (hswept.packet hk (hlater _ List.mem_cons_self) hon).2,
      (List.pairwise_cons.1 horder).1, (List.pairwise_cons.1 horder).2, ?_⟩
    rwa [call_fst]

/-- **Sweeps cannot be noticed by live flows.** Take packets `calls` in the order of their ticks,
each within the timeout of its flow if that is stored, and insert sweeps in two ways that keep the
order of ticks. All packets get the same answers in both runs. -/
theorem sweeps_invisible {c : ConnTrack} {calls ops ops' : List Op} (hprompt : c.Prompt calls)
    (hops : ops.filter Op.isPacket = calls) (hops' : ops'.filter Op.isPacket = calls)
    (horder : InOrder ops) (horder' : InOrder ops') :
    (c.results ops).filter (fun p ↦ p.1.isPacket) =
      (c.results ops').filter (fun p ↦ p.1.isPacket) := by
  have hunswept : ∀ {ops : List Op}, ops.filter Op.isPacket = calls → InOrder ops →
      (c.results ops).filter (fun p ↦ p.1.isPacket) = c.results calls := by
    rintro ops rfl horder
    exact simulation_unswept.outputs_eq
      ⟨0, SweptOf.refl 0 c, fun op _ ↦ Nat.zero_le _, horder, hprompt⟩
  rw [hunswept hops horder, hunswept hops' horder']

/-- An abandoned flow is swept in one run and kept in the other, and a connection next to it
continues. -/
theorem sweeps_invisible_to_connection :
    (new.results [.observeEgress sampleFlow' 0x02 0, .observeEgress sampleFlow 0x02 0,
        .checkIngress sampleFlow 0x12 1, .sweep 60000, .observeEgress sampleFlow 0x10 70000]).filter
          (fun p ↦ p.1.isPacket) =
      (new.results [.observeEgress sampleFlow' 0x02 0, .observeEgress sampleFlow 0x02 0,
        .sweep 0, .checkIngress sampleFlow 0x12 1, .observeEgress sampleFlow 0x10 70000]).filter
          (fun p ↦ p.1.isPacket) := by
  have hprompt : new.Prompt [.observeEgress sampleFlow' 0x02 0, .observeEgress sampleFlow 0x02 0,
      .checkIngress sampleFlow 0x12 1, .observeEgress sampleFlow 0x10 70000] := by
    decide +kernel
  exact sweeps_invisible hprompt (by decide) (by decide) (by decide) (by decide)

end ConnTrack

end UserspaceRouter
