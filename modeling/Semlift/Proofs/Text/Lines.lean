import Mathlib.Data.List.Basic
import Mathlib.Data.List.TakeWhile
import Mathlib.Tactic.Lemma
import Semlift.Text.Byte

/-!
Texts cut into pieces. Lines are told apart by the ends between them, blanks around a line are cut
off, and an escaped text keeps to its line.
-/

namespace Semlift.Text

variable {sep c : Char} {cs before after : List Char} {lines : List (List Char)}

lemma splitOn_eq : splitOn sep cs = cs.splitOn sep := by
  induction cs with
  | nil => rfl
  | cons c cs ih =>
    rw [splitOn, ih, List.splitOn_eq_splitOnP, List.splitOn_eq_splitOnP,
      List.splitOnP_cons_eq_if_modifyHead]
    by_cases hc : c = sep
    · simp [hc]
    · cases hcs : List.splitOnP (· == sep) cs with
      | nil => exact absurd hcs (List.splitOnP_ne_nil _ _)
      | cons piece more => simp [hc]

/-- What is joined is split again, if the separator is in no piece. -/
lemma splitOn_intercalate (h : ∀ l ∈ lines, sep ∉ l) (hne : lines ≠ []) :
    splitOn sep ([sep].intercalate lines) = lines := by
  rw [splitOn_eq, List.splitOn_intercalate sep h hne]

lemma splitFirst?_append (h : sep ∉ before) :
    splitFirst? sep (before ++ sep :: after) = some (before, after) := by
  induction before with
  | nil => simp [splitFirst?]
  | cons c cs ih =>
    rw [List.mem_cons, not_or] at h
    simp [splitFirst?, Ne.symm h.1, ih h.2]

/-- A text that neither begins nor ends with a blank. -/
structure Trimmed (cs : List Char) : Prop where
  nonempty : cs ≠ []
  head : ∀ c ∈ cs.head?, isBlank c = false
  last : ∀ c ∈ cs.getLast?, isBlank c = false

lemma trimmed_cons_append (hc : isBlank c = false) (hne : after ≠ [])
    (ha : ∀ d ∈ after, isBlank d = false) : Trimmed (c :: (cs ++ after)) := by
  refine ⟨by simp, by simpa using hc, fun d hd => ha d (List.mem_of_getLast? ?_)⟩
  rwa [← List.cons_append, List.getLast?_append_of_ne_nil _ hne] at hd

lemma trim_eq_nil (h : ∀ c ∈ cs, isBlank c = true) : trim cs = [] := by
  rw [trim, List.dropWhile_eq_nil_iff.2 h]
  rfl

lemma dropWhile_isBlank (hb : ∀ c ∈ before, isBlank c = true)
    (h : ∀ c ∈ cs.head?, isBlank c = false) (hne : cs ≠ []) :
    (before ++ (cs ++ after)).dropWhile isBlank = cs ++ after := by
  rw [List.dropWhile_append_of_pos hb]
  cases cs with
  | nil => exact absurd rfl hne
  | cons c cs => simp [h c rfl]

/-- Blanks around a text are cut off. -/
lemma Trimmed.trim_append (h : Trimmed cs) (hb : ∀ c ∈ before, isBlank c = true)
    (ha : ∀ c ∈ after, isBlank c = true) : trim (before ++ cs ++ after) = cs := by
  have hback : (after.reverse ++ (cs.reverse ++ [])).dropWhile isBlank = cs.reverse ++ [] :=
    dropWhile_isBlank (fun c hc => ha c (List.mem_reverse.1 hc))
      (by simpa using h.last) (by simpa using h.nonempty)
  rw [trim, List.append_assoc, dropWhile_isBlank hb h.head h.nonempty, List.reverse_append]
  rw [List.append_nil] at hback
  rw [hback, List.reverse_reverse]

lemma Trimmed.trim_eq (h : Trimmed cs) : trim cs = cs := by
  have htrim : trim ([] ++ cs ++ []) = cs := h.trim_append (by simp) (by simp)
  simpa using htrim

/-- An escaped text keeps to its line. -/
lemma newline_notMem_escapeChar : '\n' ∉ escapeChar c := by
  unfold escapeChar
  split_ifs <;> simp_all [eq_comm]

end Semlift.Text
