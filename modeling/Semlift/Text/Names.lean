/-!
Sets of names, kept as sorted lists in the order of their bytes.
-/

namespace Semlift.Text

/-- Puts a name into its place unless it is there. -/
def insertName (name : String) : List String → List String
  | [] => [name]
  | n :: more =>
    if name < n then name :: n :: more
    else if name = n then n :: more
    else n :: insertName name more

/-- The different names of a list, sorted. -/
def sortNames (names : List String) : List String := names.foldr insertName []

theorem mem_insertName {name n : String} {names : List String} :
    n ∈ insertName name names ↔ n = name ∨ n ∈ names := by
  induction names with
  | nil => simp [insertName]
  | cons m more ih =>
    simp only [insertName]
    split
    · simp
    · split
      · rename_i _ h; subst h; simp
      · simp only [List.mem_cons, ih]; exact or_left_comm

theorem mem_sortNames {n : String} {names : List String} : n ∈ sortNames names ↔ n ∈ names := by
  induction names with
  | nil => simp [sortNames]
  | cons m more ih =>
    show n ∈ insertName m (sortNames more) ↔ _
    rw [mem_insertName, ih, List.mem_cons]

end Semlift.Text
