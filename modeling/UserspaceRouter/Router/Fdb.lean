import Mathlib.Data.List.Induction
import UserspaceRouter.Foundations.AssocMap
import UserspaceRouter.Net.Headers

/-!
# The forwarding database

A plain map from MACs to ports, shared by all ports. Every parsed frame records its source behind
the port it came in on; nothing is ever removed. So what is found for a MAC is the port of the most
recent sighting (`lookup_learnAll`).
-/

namespace UserspaceRouter

/-- A DPDK port id. -/
abbrev PortId := UInt16

/-- The forwarding database. -/
structure Fdb where
  table : AList fun _ : MacAddr ↦ PortId

namespace Fdb

def new : Fdb := ⟨∅⟩

/-- Record `src → port`, overwriting any previous mapping for `src`. -/
def insert (f : Fdb) (src : MacAddr) (port : PortId) : Fdb := ⟨f.table.insert src port⟩

/-- The port last learned for `dst`; `none` is an unknown unicast. -/
def lookup (f : Fdb) (dst : MacAddr) : Option PortId := f.table.lookup dst

/-- Record the sightings of a list, oldest first. -/
def learnAll (f : Fdb) (sightings : List (MacAddr × PortId)) : Fdb :=
  sightings.foldl (fun f e ↦ f.insert e.1 e.2) f

theorem learnAll_append (f : Fdb) (xs ys : List (MacAddr × PortId)) :
    f.learnAll (xs ++ ys) = (f.learnAll xs).learnAll ys :=
  List.foldl_append

/-- **What is found for a MAC is the port of its most recent sighting.** -/
theorem lookup_learnAll (sightings : List (MacAddr × PortId)) (mac : MacAddr) :
    (new.learnAll sightings).lookup mac = sightings.reverse.lookup mac := by
  induction sightings using List.reverseRecOn with
  | nil => rfl
  | append_singleton xs e ih =>
    rw [learnAll_append, List.reverse_append]
    show ((new.learnAll xs).table.insert e.1 e.2).lookup mac = List.lookup mac (e :: xs.reverse)
    rw [AList.lookup_insert_ite, List.lookup_cons]
    by_cases h : mac = e.1
    · simp [h]
    · rw [if_neg h, beq_false_of_ne h]
      exact ih

end Fdb

end UserspaceRouter
