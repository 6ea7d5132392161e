import UserspaceRouter.Foundations.PullIterator
import UserspaceRouter.Foundations.TransitionSystem
import UserspaceRouter.Net.DhcpBuild

/-!
# Options, call by call

Reader and writer of the options region, as the code runs them.

*Reading.* `OptionsIter.next` is the value an iteration step has when all goes well;
`OptionsIter.advance` is the call itself, with the slice it leaves behind and with the index
operation that could panic. It never does, it consumes at least one byte for every option it
returns, and so iteration ends (`exists_yields_advance`). The same for lists of addresses
(`yields_advance_ipv4List`), and every typed getter is a loop over the iterator
(`getChecked_eq`).

*Writing.* A sequence of calls on a writer, each of which may be refused. `Holds` is what one has
then: the bytes written are those of the calls that were not refused (`holds_run`). Behind an end
marker the iterator gets exactly these back (`yields_encode`).
-/

namespace UserspaceRouter

open PullIterator TransitionSystem

/-- `bs.split_at(n)`, which panics past the end. -/
def splitAtChecked (bs : Bytes) (n : ℕ) : Option (Bytes × Bytes) :=
  if n ≤ bs.length then some (bs.take n, bs.drop n) else none

/-! ### The option iterator -/

namespace OptionsIter

/-- `OptionsIter::next`: what it returns, and the slice it leaves. -/
def advance : Bytes → Option (Option (UInt8 × Bytes) × Bytes)
  | [] => some (none, [])
  | code :: rest =>
    if code = DhcpOption.pad then advance rest
    else if code = DhcpOption.end_ then some (none, [])
    else
      match rest with
      -- without a length byte the slice stays as it is
      | [] => some (none, [code])
      | len :: rest =>
        if rest.length < len.toNat then some (none, [])
        else (splitAtChecked rest len.toNat).map fun (value, tail) ↦ (some (code, value), tail)

/-- The call returns what `next` says, and does not panic. -/
theorem advance_spec (bytes : Bytes) :
    (next bytes = none ∧ ∃ tail, advance bytes = some (none, tail)) ∨
      ∃ o tail, next bytes = some (o, tail) ∧ advance bytes = some (some o, tail) := by
  induction bytes with
  | nil => exact Or.inl ⟨rfl, [], rfl⟩
  | cons code rest ih =>
    rw [next.eq_def, advance.eq_def]
    simp only
    split_ifs with hpad hend
    · exact ih
    · exact Or.inl ⟨rfl, [], rfl⟩
    · rcases rest with - | ⟨n, rest⟩
      · exact Or.inl ⟨rfl, [code], rfl⟩
      · simp only
        split_ifs with hlen
        · exact Or.inl ⟨rfl, [], rfl⟩
        · rw [splitAtChecked, if_pos (Nat.le_of_not_lt hlen)]
          exact Or.inr ⟨_, _, rfl, rfl⟩

theorem advance_of_next {bytes tail : Bytes} {o : UInt8 × Bytes}
    (h : next bytes = some (o, tail)) : advance bytes = some (some o, tail) := by
  rcases advance_spec bytes with ⟨hnone, -⟩ | ⟨o', tail', hnext, hadv⟩
  · exact absurd (h.symm.trans hnone) (by simp)
  · obtain ⟨rfl, rfl⟩ := Prod.mk.inj (Option.some.inj (h.symm.trans hnext))
    exact hadv

theorem length_advance {bytes tail : Bytes} {o : UInt8 × Bytes}
    (h : advance bytes = some (some o, tail)) : tail.length < bytes.length := by
  rcases advance_spec bytes with ⟨-, tail', hadv⟩ | ⟨o', tail', hnext, hadv⟩
  · exact absurd (h.symm.trans hadv) (by simp)
  · obtain ⟨-, rfl⟩ := Prod.mk.inj (Option.some.inj (h.symm.trans hadv))
    exact length_next hnext

/-- **Iteration ends**, on any bytes, without a panic. -/
theorem exists_yields_advance (bytes : Bytes) :
    ∃ opts, Yields advance bytes opts ∧ opts.length ≤ bytes.length := by
  refine exists_yields List.length (fun bs ↦ ?_) (fun bs o tail ↦ length_advance) bytes
  rcases advance_spec bs with ⟨-, tail, hadv⟩ | ⟨o, tail, -, hadv⟩ <;> rw [hadv] <;> rfl

end OptionsIter

/-! ### Getters -/

namespace DhcpOption

def renewalTime : UInt8 := 58
def rebindingTime : UInt8 := 59

end DhcpOption

namespace Options

/-- `Options::get` as a loop over the iterator. -/
def getChecked (bytes : Bytes) (code : UInt8) : Option (Option Bytes) :=
  match _h : OptionsIter.advance bytes with
  | none => none
  | some (none, _) => some none
  | some (some (c, v), tail) => if c = code then some (some v) else getChecked tail code
termination_by bytes.length
decreasing_by exact OptionsIter.length_advance _h

/-- The loop returns. -/
theorem getChecked_eq (bytes : Bytes) (code : UInt8) :
    getChecked bytes code = some (get bytes code) := by
  induction hlen : bytes.length using Nat.strongRecOn generalizing bytes with
  | ind n ih =>
    subst hlen
    rcases OptionsIter.advance_spec bytes with ⟨hnext, tail, hadv⟩ | ⟨o, tail, hnext, hadv⟩
    · rw [getChecked.eq_def, get.eq_def]
      split
      · next hadv' => exact absurd (hadv.symm.trans hadv') (by simp)
      · split
        · rfl
        · next hnext' => exact absurd (hnext.symm.trans hnext') (by simp)
      · next hadv' => exact absurd (hadv.symm.trans hadv') (by simp)
    · rw [getChecked.eq_def, get_of_next code hnext]
      split
      · next hadv' => exact absurd (hadv.symm.trans hadv') (by simp)
      · next hadv' => exact absurd (hadv.symm.trans hadv') (by simp)
      · next hadv' =>
        obtain ⟨ho, rfl⟩ := Prod.mk.inj (Option.some.inj (hadv.symm.trans hadv'))
        obtain rfl := Option.some.inj ho
        split_ifs
        · rfl
        · exact ih _ (OptionsIter.length_next hnext) tail rfl

/-- A typed getter: the first value for its code, decoded. -/
def readChecked {α : Type*} (bytes : Bytes) (code : UInt8) (decode : Bytes → Option α) :
    Option (Option α) :=
  (getChecked bytes code).map fun v ↦ v.bind decode

theorem readChecked_eq {α : Type*} (bytes : Bytes) (code : UInt8) (decode : Bytes → Option α) :
    readChecked bytes code decode = some ((get bytes code).bind decode) := by
  rw [readChecked, getChecked_eq]
  rfl

/-- Renewal (T1) time in seconds. -/
def renewalTime (bytes : Bytes) : Option UInt32 := do
  optSeconds (← get bytes DhcpOption.renewalTime)

/-- Rebinding (T2) time in seconds. -/
def rebindingTime (bytes : Bytes) : Option UInt32 := do
  optSeconds (← get bytes DhcpOption.rebindingTime)

/-- DNS servers. -/
def dnsServers (bytes : Bytes) : List Ipv4Addr :=
  ipv4List ((get bytes DhcpOption.dnsServer).getD [])

end Options

/-- `Ipv4ListIter::next`. -/
def Ipv4ListIter.advance (bytes : Bytes) : Option (Option Ipv4Addr × Bytes) :=
  if bytes.length < 4 then some (none, bytes)
  else (splitAtChecked bytes 4).map fun (head, tail) ↦ (Options.optIpv4 head, tail)

/-- A loop over an address list gets the addresses that it spells. -/
theorem yields_advance_ipv4List (bytes : Bytes) :
    Yields Ipv4ListIter.advance bytes (Options.ipv4List bytes) := by
  induction bytes using Options.ipv4List.induct with
  | case1 a b c d tail ih => exact .cons rfl ih
  | case2 bytes hshort =>
    have hlen : bytes.length < 4 := by
      rcases bytes with - | ⟨a, - | ⟨b, - | ⟨c, - | ⟨d, tail⟩⟩⟩⟩
      case cons.cons.cons.cons => exact absurd rfl (hshort a b c d tail)
      all_goals simp
    rw [Options.ipv4List.eq_2 _ hshort]
    exact .nil (if_pos hlen)

/-! ### The calls of a writer -/

/-- A call on a writer. -/
inductive WriterCall
  | option (code : UInt8) (value : Bytes)
  | messageType (t : MessageType)
  | ipv4 (code : UInt8) (addr : Ipv4Addr)
  | seconds (code : UInt8) (secs : UInt32)
  | ipv4List (code : UInt8) (addrs : List Ipv4Addr)

namespace WriterCall

/-- The code that the call writes. -/
def code : WriterCall → UInt8
  | option code _ | ipv4 code _ | seconds code _ | ipv4List code _ => code
  | messageType _ => DhcpOption.messageType

/-- The value that the call writes. -/
def value : WriterCall → Bytes
  | option _ value => value
  | messageType t => [t.toU8]
  | ipv4 _ addr => addr.octets
  | seconds _ secs => u32ToBeBytes secs
  | ipv4List _ addrs => addrs.flatMap Ipv4Addr.octets

/-- What the call put there is what the getters for its code return. -/
def ReadBack (bytes : Bytes) : WriterCall → Prop
  | option code value => Options.get bytes code = some value
  | messageType t => Options.messageType bytes = some t
  | ipv4 code addr =>
    (code = DhcpOption.serverId → Options.serverId bytes = some addr) ∧
    (code = DhcpOption.requestedIp → Options.requestedIp bytes = some addr) ∧
    (code = DhcpOption.subnetMask → Options.subnetMask bytes = some addr)
  | seconds code secs =>
    (code = DhcpOption.leaseTime → Options.leaseTime bytes = some secs) ∧
    (code = DhcpOption.renewalTime → Options.renewalTime bytes = some secs) ∧
    (code = DhcpOption.rebindingTime → Options.rebindingTime bytes = some secs)
  | ipv4List code addrs =>
    (code = DhcpOption.router → Options.routers bytes = addrs) ∧
    (code = DhcpOption.dnsServer → Options.dnsServers bytes = addrs)

end WriterCall

namespace OptionsWriter

/-- The loop of `ipv4_list`: each address in its place. -/
def storeAddrs (buf : Bytes) (o : ℕ) : List Ipv4Addr → Bytes
  | [] => buf
  | a :: addrs => storeAddrs (writeAt buf o a.octets) (o + 4) addrs

theorem storeAddrs_eq (buf : Bytes) (o : ℕ) (addrs : List Ipv4Addr)
    (h : o + addrs.length * 4 ≤ buf.length) :
    storeAddrs buf o addrs = writeAt buf o (addrs.flatMap Ipv4Addr.octets) := by
  induction addrs generalizing buf o with
  | nil => simp [storeAddrs, writeAt]
  | cons a addrs ih =>
    rw [List.length_cons] at h
    have hlen : a.octets.length = 4 := rfl
    have hfit : o + a.octets.length ≤ buf.length := by omega
    rw [storeAddrs, ih _ _ (by rw [length_writeAt hfit]; omega), List.flatMap_cons]
    exact writeAt_writeAt_append (by omega) _ _

/-- What `ipv4_list` makes of the buffer: the code, the length, and a loop over the addresses. -/
def storeList (buf : Bytes) (len : ℕ) (code : UInt8) (addrs : List Ipv4Addr) : Bytes :=
  storeAddrs (writeAt (writeAt buf len [code]) (len + 1) [UInt8.ofNat (addrs.length * 4)])
    (len + 2) addrs

/-- The loop writes the option whose value is the octets of the addresses. -/
theorem storeList_eq {buf : Bytes} {len : ℕ} (code : UInt8) {addrs : List Ipv4Addr}
    (h : len + 2 + addrs.length * 4 ≤ buf.length) :
    storeList buf len code addrs = writeAt buf len
      (code :: UInt8.ofNat (addrs.length * 4) :: addrs.flatMap Ipv4Addr.octets) := by
  have hhead : writeAt (writeAt buf len [code]) (len + 1) [UInt8.ofNat (addrs.length * 4)] =
      writeAt buf len [code, UInt8.ofNat (addrs.length * 4)] :=
    writeAt_writeAt_append (by omega) [code] _
  have hsize : (writeAt buf len [code, UInt8.ofNat (addrs.length * 4)]).length = buf.length :=
    length_writeAt (by simp only [List.length_cons, List.length_nil]; omega)
  rw [storeList, hhead, storeAddrs_eq _ _ _ (by rw [hsize]; omega)]
  exact writeAt_writeAt_append (by omega) [code, UInt8.ofNat (addrs.length * 4)] _

/-- `ipv4_list` as the code has it. -/
def ipv4ListLoop (w : OptionsWriter) (code : UInt8) (addrs : List Ipv4Addr) :
    OptionsWriter × Bool :=
  let vlen := addrs.length * 4
  if h : vlen > 255 ∨ w.len + 2 + vlen > w.buf.length then (w, false)
  else
    (⟨storeList w.buf w.len code addrs, w.len + 2 + vlen, by
      have hfit : w.len + 2 + addrs.length * 4 ≤ w.buf.length := by omega
      rw [storeList_eq code hfit, length_writeAt]
      · exact hfit
      · simp only [List.length_cons, length_flatMap_octets]
        omega⟩, true)

theorem ipv4ListLoop_eq (w : OptionsWriter) (code : UInt8) (addrs : List Ipv4Addr) :
    w.ipv4ListLoop code addrs = w.option code (addrs.flatMap Ipv4Addr.octets) := by
  rw [← ipv4List_eq_option, ipv4ListLoop, ipv4List, push]
  simp only [List.length_cons, length_flatMap_octets]
  split_ifs with hloop hlen hfit hlen hfit
  · rfl
  · rfl
  · omega
  · omega
  · omega
  · have hroom : w.len + 2 + addrs.length * 4 ≤ w.buf.length := by omega
    have hend : w.len + 2 + addrs.length * 4 = w.len + (addrs.length * 4 + 1 + 1) := by omega
    simp only [storeList_eq code hroom, hend]

/-- One call. -/
def call (w : OptionsWriter) : WriterCall → OptionsWriter × Bool
  | .option code value => w.option code value
  | .messageType t => w.messageType t
  | .ipv4 code addr => w.ipv4 code addr
  | .seconds code secs => w.seconds code secs
  | .ipv4List code addrs => w.ipv4ListLoop code addrs

/-- Every call writes one option. -/
theorem call_eq (w : OptionsWriter) (c : WriterCall) : w.call c = w.option c.code c.value := by
  cases c with
  | ipv4List code addrs => exact w.ipv4ListLoop_eq code addrs
  | _ => rfl

/-- A writer, one call at a time. A label is a call and what it returns. -/
def system : TransitionSystem OptionsWriter (WriterCall × Bool) :=
  .ofCalls fun w c ↦ some (w.call c)

theorem step_call (w : OptionsWriter) (c : WriterCall) :
    system.step w (c, (w.call c).2) (w.call c).1 := rfl

/-- The calls that were not refused. -/
def accepted (tr : List (WriterCall × Bool)) : List WriterCall :=
  tr.filterMap fun a ↦ if a.2 then some a.1 else none

theorem mem_of_mem_accepted {tr : List (WriterCall × Bool)} {c : WriterCall}
    (h : c ∈ accepted tr) : (c, true) ∈ tr := by
  obtain ⟨⟨c', r⟩, hmem, hr⟩ := List.mem_filterMap.1 h
  split_ifs at hr with htrue
  obtain rfl := Option.some.inj hr
  rwa [show r = true from htrue] at hmem

theorem ok_eq_some {p : OptionsWriter × Bool} {w : OptionsWriter} (h : ok p = some w) :
    p = (w, true) := by
  unfold ok at h
  split_ifs at h with htrue
  exact Prod.ext (Option.some.inj h) htrue

/-- **One call.** It is refused exactly if the value is too long for its length byte or the option
too long for the buffer, and then changes nothing; otherwise it appends the option. -/
theorem call_cases (w : OptionsWriter) (c : WriterCall) :
    ((255 < c.value.length ∨ w.buf.length < w.len + 2 + c.value.length) ∧ w.call c = (w, false)) ∨
      (c.value.length ≤ 255 ∧ w.len + 2 + c.value.length ≤ w.buf.length ∧
        ∃ w', w.call c = (w', true) ∧ Wrote w (Options.encode [(c.code, c.value)]) w') := by
  rw [call_eq, option]
  by_cases hlong : c.value.length > 255
  · exact Or.inl ⟨Or.inl hlong, if_pos hlong⟩
  rw [if_neg hlong]
  set bs : Bytes := c.code :: UInt8.ofNat c.value.length :: c.value with hbs
  have hlen : bs.length = c.value.length + 2 := by simp [hbs]
  have hencode : Options.encode [(c.code, c.value)] = bs := by simp [Options.encode, hbs]
  rcases w.ok_push bs with ⟨hfull, -⟩ | ⟨hroom, w', hok, hwrote⟩
  · rw [length_written, hlen] at hfull
    exact Or.inl ⟨Or.inr (by omega), dif_pos (by omega)⟩
  · rw [length_written, hlen] at hroom
    exact Or.inr ⟨Nat.le_of_not_lt hlong, by omega, w', ok_eq_some hok, hencode ▸ hwrote⟩

theorem written_of_end {w w' : OptionsWriter} (h : w.end_ = (w', true)) :
    w'.written = w.written ++ [DhcpOption.end_] := by
  rcases w.ok_push [DhcpOption.end_] with ⟨-, hnone⟩ | ⟨-, w'', hok, hwrote⟩
  · rw [show w.push [DhcpOption.end_] = (w', true) from h] at hnone
    exact nomatch hnone
  · obtain ⟨rfl, -⟩ := Prod.mk.inj (h.symm.trans (ok_eq_some hok))
    exact hwrote.written_eq

/-- What a sequence of calls leaves: the options of those that were not refused. -/
structure Holds (buf : Bytes) (tr : List (WriterCall × Bool)) (w : OptionsWriter) : Prop where
  size_eq : w.buf.length = buf.length
  written_eq : w.written = Options.encode ((accepted tr).map fun c ↦ (c.code, c.value))
  short : ∀ c ∈ accepted tr, c.value.length ≤ 255

theorem holds_run {buf : Bytes} {tr : List (WriterCall × Bool)} {w : OptionsWriter}
    (h : system.Run (new buf) tr w) : Holds buf tr w := by
  refine h.history (I := Holds buf) ⟨rfl, rfl, by simp [accepted]⟩ ?_
  rintro tr w ⟨c, r⟩ w' ⟨hsize, hwritten, hshort⟩ hst
  have hcall : w.call c = (w', r) := Option.some.inj hst
  have happ : accepted (tr ++ [(c, r)]) = accepted tr ++ accepted [(c, r)] :=
    List.filterMap_append ..
  rcases w.call_cases c with ⟨-, hno⟩ | ⟨hlen, -, w'', hyes, hwrote⟩
  · obtain ⟨rfl, rfl⟩ := Prod.mk.inj (hcall.symm.trans hno)
    have hsame : accepted (tr ++ [(c, false)]) = accepted tr := by
      rw [happ]
      exact List.append_nil _
    exact ⟨hsize, by rw [hsame, hwritten], by rwa [hsame]⟩
  · obtain ⟨rfl, rfl⟩ := Prod.mk.inj (hcall.symm.trans hyes)
    have hone : accepted [(c, true)] = [c] := rfl
    rw [hone] at happ
    refine ⟨hwrote.size_eq.trans hsize, ?_, ?_⟩
    · rw [hwrote.written_eq, hwritten, happ, List.map_append]
      exact List.flatMap_append.symm
    · intro c' hc'
      rw [happ] at hc'
      rcases List.mem_append.1 hc' with hc' | hc'
      · exact hshort c' hc'
      · rwa [List.mem_singleton.1 hc']

end OptionsWriter

/-! ### Reading what was written -/

namespace Options

/-- **The iterator gets back what was encoded**, whatever follows the end marker. -/
theorem yields_encode {opts : List (UInt8 × Bytes)} (h : ∀ o ∈ opts, Writable o) (rest : Bytes) :
    Yields OptionsIter.advance (encode opts ++ DhcpOption.end_ :: rest) opts := by
  induction opts with
  | nil => exact .nil rfl
  | cons o opts ih =>
    obtain ⟨ho, hopts⟩ := List.forall_mem_cons.1 h
    rw [encode_cons_append]
    exact .cons (OptionsIter.advance_of_next (next_encode ho _)) (ih hopts)

/-- A list of addresses reads back. -/
theorem ipv4List_flatMap_octets (addrs : List Ipv4Addr) :
    ipv4List (addrs.flatMap Ipv4Addr.octets) = addrs := by
  induction addrs with
  | nil => rfl
  | cons a addrs ih =>
    have hcons : ipv4List (a.octets ++ addrs.flatMap Ipv4Addr.octets) =
        u32FromBeBytes _ _ _ _ :: ipv4List (addrs.flatMap Ipv4Addr.octets) := rfl
    rw [List.flatMap_cons, hcons, ih]
    exact congrArg (· :: addrs) (u32FromBeBytes_toBeBytes a)

end Options

/-- A call whose value is the one found for its code is read back by the typed getters. -/
theorem WriterCall.readBack_of_get {bytes : Bytes} {c : WriterCall}
    (h : Options.get bytes c.code = some c.value) : c.ReadBack bytes := by
  cases c with
  | option code value => exact h
  | messageType t =>
    show (Options.get bytes DhcpOption.messageType).bind (fun v ↦ v.head?.bind MessageType.fromU8) =
      some t
    rw [show Options.get bytes DhcpOption.messageType = some [t.toU8] from h]
    exact MessageType.fromU8_toU8 t
  | ipv4 code addr =>
    have hread : (Options.get bytes code).bind Options.optIpv4 = some addr := by
      rw [show Options.get bytes code = some addr.octets from h]
      exact Options.optIpv4_octets addr
    refine ⟨?_, ?_, ?_⟩ <;> rintro rfl <;> exact hread
  | seconds code secs =>
    have hread : (Options.get bytes code).bind Options.optSeconds = some secs := by
      rw [show Options.get bytes code = some (u32ToBeBytes secs) from h]
      exact Options.optSeconds_toBeBytes secs
    refine ⟨?_, ?_, ?_⟩ <;> rintro rfl <;> exact hread
  | ipv4List code addrs =>
    have hread : Options.ipv4List ((Options.get bytes code).getD []) = addrs := by
      rw [show Options.get bytes code = some (addrs.flatMap Ipv4Addr.octets) from h]
      exact Options.ipv4List_flatMap_octets addrs
    refine ⟨?_, ?_⟩ <;> rintro rfl <;> exact hread

namespace OptionsWriter

/-- **DHCP options round-trip.** After any calls on a writer, with codes other than those of padding
and of the end marker: a further call returns `false` exactly if its value is longer than 255 bytes
or does not fit, and then changes nothing; and once the end marker is written, whatever bytes
follow, the iterator yields exactly the options of the calls that returned `true`, in order, and the
getters return the first value written for each code. -/
theorem options_round_trip {buf : Bytes} {tr : List (WriterCall × Bool)} {w : OptionsWriter}
    (h : system.Run (new buf) tr w)
    (hcodes : ∀ a ∈ tr, a.1.code ≠ DhcpOption.pad ∧ a.1.code ≠ DhcpOption.end_) :
    (∀ c, ((w.call c).2 = false ↔
        255 < c.value.length ∨ w.buf.length < w.len + 2 + c.value.length) ∧
      ((w.call c).2 = false → (w.call c).1 = w)) ∧
    ∀ w', w.end_ = (w', true) → ∀ rest,
      Yields OptionsIter.advance (w'.written ++ rest)
        ((accepted tr).map fun c ↦ (c.code, c.value)) ∧
      (∀ code, Options.get (w'.written ++ rest) code =
        ((accepted tr).find? fun c ↦ c.code = code).map WriterCall.value) ∧
      ∀ code c, (accepted tr).find? (fun c ↦ c.code = code) = some c →
        c.ReadBack (w'.written ++ rest) := by
  obtain ⟨hsize, hwritten, hshort⟩ := holds_run h
  refine ⟨fun c ↦ ?_, fun w' hend rest ↦ ?_⟩
  · rcases w.call_cases c with ⟨hwhy, hno⟩ | ⟨hlen, hroom, w', hyes, -⟩
    · rw [hno]
      exact ⟨⟨fun _ ↦ hwhy, fun _ ↦ rfl⟩, fun _ ↦ rfl⟩
    · rw [hyes]
      exact ⟨⟨fun hfalse ↦ absurd hfalse (by simp), fun hwhy ↦ by omega⟩, fun hfalse ↦
        absurd hfalse (by simp)⟩
  · set opts := (accepted tr).map fun c ↦ (c.code, c.value) with hopts
    have hbytes : w'.written ++ rest = Options.encode opts ++ DhcpOption.end_ :: rest := by
      rw [written_of_end hend, hwritten, List.append_assoc]
      rfl
    have hwritable : ∀ o ∈ opts, Options.Writable o := by
      intro o ho
      obtain ⟨c, hc, rfl⟩ := List.mem_map.1 ho
      obtain ⟨hpad, hend'⟩ := hcodes (c, true) (mem_of_mem_accepted hc)
      exact ⟨hpad, hend', hshort c hc⟩
    have hget : ∀ code, Options.get (w'.written ++ rest) code =
        ((accepted tr).find? fun c ↦ c.code = code).map WriterCall.value := by
      intro code
      rw [hbytes, Options.get_encode hwritable, hopts, List.find?_map, Option.map_map]
      rfl
    refine ⟨hbytes ▸ Options.yields_encode hwritable rest, hget, fun code c hfirst ↦ ?_⟩
    have hcode : c.code = code := by simpa using List.find?_some hfirst
    refine WriterCall.readBack_of_get ?_
    rw [hcode, hget, hfirst]
    rfl

/-- Twenty bytes take a message type and two name servers, but not a ninth byte of host name
behind them. Behind the end marker stands what looks like another message type. -/
theorem options_round_trip_ack :
    ∃ tr w w', system.Run (new (List.replicate 20 7)) tr w ∧ w.end_ = (w', true) ∧
      tr.map (·.2) = [true, true, false] ∧
      Options.messageType (w'.written ++ [53, 1, 1]) = some .ack ∧
      Options.dnsServers (w'.written ++ [53, 1, 1]) = [0x08080808, 0x01010101] := by
  set w₀ : OptionsWriter := new (List.replicate 20 7)
  have hrun := ((Run.single (step_call w₀ (.messageType .ack))).snoc
    (step_call _ (.ipv4List DhcpOption.dnsServer [0x08080808, 0x01010101]))).snoc
    (step_call _ (.option 12 (List.replicate 9 97)))
  have hend (w : OptionsWriter) (h : w.end_.2 = true) : w.end_ = (w.end_.1, true) :=
    Prod.ext rfl h
  obtain ⟨-, hread⟩ := options_round_trip hrun (by decide +kernel)
  obtain ⟨-, -, hback⟩ := hread _ (hend _ (by decide +kernel)) [53, 1, 1]
  have htype := hback DhcpOption.messageType (.messageType .ack) (by rfl)
  have hdns := hback DhcpOption.dnsServer (.ipv4List DhcpOption.dnsServer [0x08080808, 0x01010101])
    (by rfl)
  exact ⟨_, _, _, hrun, hend _ (by decide +kernel), by decide +kernel, htype, hdns.2 rfl⟩

end OptionsWriter

end UserspaceRouter
