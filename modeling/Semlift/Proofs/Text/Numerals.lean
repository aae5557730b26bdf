import Mathlib.Tactic.Lemma
import Mathlib.Tactic.SplitIfs
import Semlift.Number.Layout
import Semlift.Text.Byte

/-!
The texts of numbers. Natural numbers are written with digits only; their texts spell them and so
tell them apart. Other numbers have a sign, a point, an exponent, or the letters of what is no number
or infinite.
-/

namespace Semlift

open Semlift.Number Semlift.Text

variable {n m : Nat} {c : Char}

lemma toList_natText : (natText n).toList = Nat.toDigits 10 n := by simp [natText]

lemma isDigit_of_mem_natText (h : c ∈ (natText n).toList) : c.isDigit := by
  rw [toList_natText] at h
  exact Nat.isDigit_of_mem_toDigits (by omega) (by omega) h

lemma natText_ne_empty : natText n ≠ "" := by
  intro h
  have hnil : Nat.toDigits 10 n = [] := by rw [← toList_natText, h, String.toList_empty]
  exact Nat.toDigits_ne_nil hnil

lemma all_isDigit_natText : (natText n).toList.all Char.isDigit = true :=
  List.all_eq_true.2 fun _ => isDigit_of_mem_natText

lemma underscore_notMem_natText : '_' ∉ (natText n).toList := by
  rw [toList_natText]
  exact Nat.underscore_not_in_toDigits

lemma digitsValue_natText : digitsValue (natText n).toList = n := by
  rw [toList_natText]
  exact Nat.ofDigitChars_ten_toDigits

lemma natText_injective : Function.Injective natText := by
  intro n m h
  rw [← digitsValue_natText (n := n), h, digitsValue_natText]

/-- A number of 64 bits is read back from its text. -/
lemma wordValue?_natText (h : n < UInt64.size) : wordValue? (natText n).toList = some n := by
  simp [wordValue?, natText_ne_empty, all_isDigit_natText, digitsValue_natText, h]

/-! ### Characters of numbers -/

/-- The characters that numbers are written with. -/
def isNumeral (c : Char) : Bool := c.isDigit || c ∈ ['.', '-', '+', 'e', 'n', 'a', 'i', 'f']

variable {i : Int} {l : Layout} {d : Digits} {x : Number.Double}

lemma isNumeral_of_isDigit (h : c.isDigit = true) : isNumeral c = true := by simp [isNumeral, h]

lemma isNumeral_of_mem_toDigits (h : c ∈ Nat.toDigits 10 n) : isNumeral c = true :=
  isNumeral_of_isDigit (Nat.isDigit_of_mem_toDigits (by omega) (by omega) h)

lemma isNumeral_of_mem_zeros (h : c ∈ zeros n) : isNumeral c = true := by
  rw [List.eq_of_mem_replicate h]
  rfl

lemma isNumeral_of_mem_shortest {d : Number.Dyadic} (h : c ∈ d.shortest.digits) :
    isNumeral c = true := by
  have hmem : c ∈ (Nat.toDigits 10 _).reverse :=
    List.dropWhile_subset _ (List.mem_reverse.1 h)
  exact isNumeral_of_mem_toDigits (List.mem_reverse.1 hmem)

lemma isNumeral_of_mem_exponent (h : c ∈ l.exponent i) : isNumeral c = true := by
  simp only [Layout.exponent, List.mem_append, List.mem_cons] at h
  rcases h with (rfl | rfl | h) | h
  · rfl
  · split <;> rfl
  · exact isNumeral_of_mem_zeros h
  · exact isNumeral_of_mem_toDigits h

/-- A point with digits behind it, if there are any. -/
lemma isNumeral_of_mem_point {b : Prop} [Decidable b] {cs : List Char}
    (hcs : ∀ c ∈ cs, isNumeral c = true) (h : c ∈ if b then [] else '.' :: cs) :
    isNumeral c = true := by
  split_ifs at h
  · cases h
  · rcases List.mem_cons.1 h with rfl | h
    · rfl
    · exact hcs c h

lemma isNumeral_of_mem_write (hd : ∀ c ∈ d.digits, isNumeral c = true) (h : c ∈ l.write d) :
    isNumeral c = true := by
  have hrest {n : Nat} : ∀ c ∈ d.digits.drop n, isNumeral c = true :=
    fun c hc => hd c (List.mem_of_mem_drop hc)
  unfold Layout.write at h
  dsimp only at h
  split at h
  · split at h
    · rw [List.mem_append, List.mem_cons, List.mem_cons] at h
      rcases h with (rfl | rfl | h) | h
      · rfl
      · rfl
      · exact isNumeral_of_mem_zeros h
      · exact hd c h
    · rw [List.mem_append, List.mem_append] at h
      rcases h with (h | h) | h
      · exact hd c (List.mem_of_mem_take h)
      · exact isNumeral_of_mem_zeros h
      · exact isNumeral_of_mem_point hrest h
  · rw [List.mem_append, List.mem_append] at h
    rcases h with (h | h) | h
    · exact hd c (List.mem_of_mem_take h)
    · exact isNumeral_of_mem_point hrest h
    · exact isNumeral_of_mem_exponent h

lemma isNumeral_of_mem_bareText (h : c ∈ bareText x) : isNumeral c = true := by
  rw [bareText, List.mem_append] at h
  rcases h with h | h
  · split_ifs at h
    · exact List.all_eq_true.1 (by decide) c h
    · cases h
  · split at h
    · exact List.all_eq_true.1 (by decide) c h
    · split at h
      · exact List.all_eq_true.1 (by decide) c h
      · split at h
        · exact isNumeral_of_mem_write (fun c hc => isNumeral_of_mem_shortest hc) h
        · exact List.all_eq_true.1 (by decide) c h

lemma isNumeral_of_mem_doubleText (h : c ∈ (doubleText x).toList) : isNumeral c = true := by
  rw [doubleText, String.toList_ofList] at h
  split at h
  · exact isNumeral_of_mem_bareText h
  · rcases List.mem_append.1 h with h | h
    · exact isNumeral_of_mem_bareText h
    · exact List.all_eq_true.1 (by decide) c h

lemma isNumeral_of_mem_intText (h : c ∈ (intText i).toList) : isNumeral c = true := by
  unfold intText at h
  split_ifs at h
  · rw [String.toList_append, List.mem_append] at h
    rcases h with h | h
    · exact List.all_eq_true.1 (by decide) c h
    · exact isNumeral_of_isDigit (isDigit_of_mem_natText h)
  · exact isNumeral_of_isDigit (isDigit_of_mem_natText h)

end Semlift
