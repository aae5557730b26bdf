import Mathlib.Tactic.Lemma
import Semlift.Lift.Lifter

/-!
The triples of simulation units, one case for each kind: what is said of the unit itself, of its
samples, which are blank nodes, and of the ports of the samples, which are blank nodes as well.
-/

namespace Semlift.Lift.Lifter

open Semlift.Rdf Semlift.Store

variable {l : Lifter} {u : SimUnit} {x : Triple}

def sampleLabel (u : SimUnit) (i : Nat) : String := u.ref.name ++ "_s" ++ Number.natText i

/-- A triple of a simulation unit. -/
inductive OfUnit (l : Lifter) (u : SimUnit) : Triple → Prop where
  | role : OfUnit l u ⟨l.names.object u.ref, l.names.word "roleName", .string u.role⟩
  | sample {a : Sample} {i : Nat} (h : (a, i) ∈ u.samples.zipIdx) :
    OfUnit l u ⟨l.names.object u.ref, l.names.word "hasSample", .blank (sampleLabel u i)⟩
  | sampleRole {a : Sample} {i : Nat} (h : (a, i) ∈ u.samples.zipIdx) :
    OfUnit l u ⟨.blank (sampleLabel u i), l.names.word "roleName", .string u.role⟩
  | port {a : Sample} {i : Nat} (h : (a, i) ∈ u.samples.zipIdx) :
    OfUnit l u ⟨.blank (sampleLabel u i), l.names.word "ofPort",
      .blank (sampleLabel u i ++ "_port")⟩
  | portName {a : Sample} {i : Nat} (h : (a, i) ∈ u.samples.zipIdx) :
    OfUnit l u ⟨.blank (sampleLabel u i ++ "_port"), l.names.word "withName", .string a.port⟩
  | value {a : Sample} {i : Nat} {v : Term} (h : (a, i) ∈ u.samples.zipIdx)
      (hv : l.names.lift? a.value = some v) :
    OfUnit l u ⟨.blank (sampleLabel u i), l.names.word "withValue", v⟩
  | time {a : Sample} {i : Nat} (h : (a, i) ∈ u.samples.zipIdx) :
    OfUnit l u ⟨.blank (sampleLabel u i), l.names.word "atTime", .double a.time⟩

/-- The list of the triples has these and no others. -/
lemma mem_unitTriples : x ∈ l.unitTriples u ↔ l.OfUnit u x := by
  simp only [unitTriples, sampleTriples, List.mem_cons, List.mem_flatMap, List.mem_append,
    List.mem_map, Option.mem_toList, List.not_mem_nil, or_false]
  constructor
  · rintro (rfl | ⟨⟨a, i⟩, h, ((rfl | rfl | rfl | rfl) | ⟨v, hv, rfl⟩) | rfl⟩)
    · exact .role
    · exact .sample h
    · exact .sampleRole h
    · exact .port h
    · exact .portName h
    · exact .value h hv
    · exact .time h
  · intro h
    cases h with
    | role => exact .inl rfl
    | sample h => exact .inr ⟨_, h, .inl (.inl (.inl rfl))⟩
    | sampleRole h => exact .inr ⟨_, h, .inl (.inl (.inr (.inl rfl)))⟩
    | port h => exact .inr ⟨_, h, .inl (.inl (.inr (.inr (.inl rfl))))⟩
    | portName h => exact .inr ⟨_, h, .inl (.inl (.inr (.inr (.inr rfl))))⟩
    | value h hv => exact .inr ⟨_, h, .inl (.inr ⟨_, hv, rfl⟩)⟩
    | time h => exact .inr ⟨_, h, .inr rfl⟩

end Semlift.Lift.Lifter
