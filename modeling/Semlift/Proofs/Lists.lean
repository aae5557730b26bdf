import Mathlib.Data.List.Nodup
import Mathlib.Tactic.Lemma

/-!
Lists with keys, and texts that a scan reads. An entry of a list without repeated keys is found
under its key. A scan that stops inside a text, or right behind it, does not see what follows.
-/

namespace Semlift

section Keys

variable {α β : Type} [BEq β] [LawfulBEq β] (key : α → β) {l : List α} {a : α} {k : β}

/-- An entry of a list without repeated keys is found under its key. -/
lemma find?_of_nodup_map (hn : (l.map key).Nodup) (ha : a ∈ l) :
    l.find? (key · == key a) = some a := by
  obtain ⟨b, hb⟩ : ∃ b, l.find? (key · == key a) = some b :=
    Option.isSome_iff_exists.1 (List.find?_isSome.2 ⟨a, ha, by simp⟩)
  have hkey : key b = key a := by simpa using List.find?_some hb
  rw [hb, List.inj_on_of_nodup_map hn (List.mem_of_find?_eq_some hb) ha hkey]

/-- It is the only entry that is found there. -/
lemma find?_iff_of_nodup (hn : (l.map key).Nodup) :
    l.find? (key · == k) = some a ↔ a ∈ l ∧ key a = k := by
  constructor
  · intro h
    exact ⟨List.mem_of_find?_eq_some h, by simpa using List.find?_some h⟩
  · rintro ⟨ha, rfl⟩
    exact find?_of_nodup_map key hn ha

lemma toList_find?_of_nodup (hn : (l.map key).Nodup) (k : β) :
    (l.find? (key · == k)).toList = l.filter (key · == k) := by
  induction l with
  | nil => rfl
  | cons a l ih =>
    rw [List.map_cons, List.nodup_cons] at hn
    by_cases ha : key a = k
    · have hno : l.filter (key · == k) = [] := by
        refine List.filter_eq_nil_iff.2 fun b hb e => hn.1 ?_
        rw [ha, ← beq_iff_eq.1 e]
        exact List.mem_map_of_mem hb
      simp [ha, hno]
    · simpa [ha] using ih hn.2

end Keys

section Scans

variable {α : Type} {p : α → Bool} {w z rest : List α} {a : α}

/-- What stands behind a text is not scanned if the scan stops at its first character. -/
lemma takeWhile_append_of_head (hz : ∀ c ∈ z.head?, p c = false) :
    (w ++ z).takeWhile p = w.takeWhile p := by
  induction w with
  | nil =>
    cases z with
    | nil => rfl
    | cons c z => simp [hz c rfl]
  | cons c w ih => by_cases hc : p c = true <;> simp [hc, ih]

lemma dropWhile_append_of_head (hz : ∀ c ∈ z.head?, p c = false) :
    (w ++ z).dropWhile p = w.dropWhile p ++ z := by
  induction w with
  | nil =>
    cases z with
    | nil => rfl
    | cons c z => simp [hz c rfl]
  | cons c w ih => by_cases hc : p c = true <;> simp [hc, ih]

lemma takeWhile_front (ha : p a = false) : (w ++ a :: rest).takeWhile p = w.takeWhile p :=
  takeWhile_append_of_head (by simpa using ha)

lemma takeWhile_append_cons (hw : ∀ c ∈ w, p c = true) (ha : p a = false) :
    (w ++ a :: rest).takeWhile p = w := by
  rw [List.takeWhile_append_of_pos hw, List.takeWhile_cons_of_neg (by simp [ha]), List.append_nil]

/-- Where a scan stops. -/
lemma exists_stop (hw : w.all p = false) :
    ∃ v a more, w = v ++ a :: more ∧ (∀ c ∈ v, p c = true) ∧ p a = false := by
  induction w with
  | nil => cases hw
  | cons c w ih =>
    by_cases hc : p c = true
    · obtain ⟨v, a, more, rfl, hv, ha⟩ := ih (by simpa [hc] using hw)
      exact ⟨c :: v, a, more, rfl, by simpa [hc] using hv, ha⟩
    · exact ⟨[], c, w, rfl, by simp, by simpa using hc⟩

/-- What stands behind a text is not scanned if the scan stops in the text. -/
lemma takeWhile_append_of_all (hw : w.all p = false) : (w ++ z).takeWhile p = w.takeWhile p := by
  obtain ⟨v, a, more, rfl, hv, ha⟩ := exists_stop hw
  rw [List.append_assoc, List.cons_append, takeWhile_append_cons hv ha, takeWhile_append_cons hv ha]

end Scans

end Semlift
