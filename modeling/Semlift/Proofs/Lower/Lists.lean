import Semlift.Lower.Classify
import Semlift.Proofs.Except
import Semlift.Proofs.Store.Alive

/-!
Lists made of answers. The value of an answer names a live object or none, so a list of answers
holds live objects only; making it keeps the heap sound as long as cells have the fields of their
class.
-/

namespace Semlift.Lower

open Semlift.Program Semlift.Rdf Semlift.Store

variable {t : ClassTable} {h g : Heap} {v : Value} {prefixes : Prefixes} {name : String}

lemma alive_of_named? {r : ObjectRef} (hn : h.named? name = some r) : h.Alive r := by
  simp only [Heap.named?, Option.bind_eq_bind, Option.bind_eq_some_iff] at hn
  obtain ⟨cs, -, n, -, o, ho, hr⟩ := hn
  split at hr
  · cases hr
    rw [Heap.Alive, (Heap.mem_of_find? ho).2, ho]
    rfl
  · simp at hr

lemma not_object_of_literalValue (hv : literalValue name = .ok v) : v.isObject = false := by
  unfold literalValue at hv
  dsimp only at hv
  repeat' split at hv
  all_goals first
    | (cases hv; rfl)
    | cases hv

lemma supports_cellValue {x : Option Term} (hv : cellValue prefixes h x = .ok v) :
    h.Supports v := by
  cases x with
  | none =>
    cases hv
    exact Heap.supports_null
  | some x =>
    simp only [cellValue, classify] at hv
    split at hv
    · rename_i r hr
      cases hv
      exact Heap.supports_object.2 (alive_of_named? hr)
    · exact Heap.supports_of_not_object (not_object_of_literalValue hv)

/-- Each cell is a sound object of the list class, in front of the cells before it. -/
lemma sound_buildList {vs : List Value}
    (hl : (t.fields listClass).map (·.name) = [contentField, nextField]) (hs : h.Sound t)
    (hvs : ∀ v ∈ vs, h.Supports v) :
    (buildList h vs).2.Sound t ∧ h.Keeps (buildList h vs).2 ∧
      (buildList h vs).2.Supports (buildList h vs).1 := by
  refine List.foldlRecOn
    (motive := fun acc : Value × Heap => acc.2.Sound t ∧ h.Keeps acc.2 ∧ acc.2.Supports acc.1)
    vs prepend ⟨hs, Heap.Keeps.refl h, Heap.supports_null⟩ ?_
  rintro ⟨next, g⟩ ⟨hg, hk, hnext⟩ v hv
  refine ⟨hg.allocate ?_ hl.symm, hk.trans Heap.keeps_allocate,
    Heap.supports_object.2 hg.keyed.alive_allocated⟩
  intro e he
  simp only [cell, List.mem_cons, List.not_mem_nil, or_false] at he
  rcases he with rfl | rfl
  · exact (hvs v hv).mono hk
  · exact hnext

/-- **Lowered answers are sound**: the list and its heap name nothing that is not alive. -/
theorem sound_lowerTerms {xs : List (Option Term)}
    (hl : (t.fields listClass).map (·.name) = [contentField, nextField]) (hs : h.Sound t)
    (hv : lowerTerms prefixes h xs = .ok (v, g)) :
    g.Sound t ∧ h.Keeps g ∧ g.Supports v := by
  obtain ⟨vs, hvs, he⟩ := map_eq_ok.1 hv
  have hsup : ∀ w ∈ vs, h.Supports w := by
    intro w hw
    obtain ⟨x, -, hx⟩ := exists_of_mem_mapM hvs hw
    exact supports_cellValue hx
  have := sound_buildList hl hs hsup
  rwa [he] at this

end Semlift.Lower
