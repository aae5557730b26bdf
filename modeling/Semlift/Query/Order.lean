import Semlift.Query.Filter

/-!
The order of answers. Unbound comes first, then blank nodes, names and literals; numbers are ordered
by value and other terms by their text. The sort is stable and fixed in its steps: both halves are
sorted in runs of seven that are merged in pairs, and the halves are merged at last, from the end
when the first is longer.
-/

namespace Semlift.Query

open Semlift.Rdf

namespace Sorting

variable {α : Type} (lt : α → α → Bool)

/-- Inserts from the right, behind every element that is not greater. The run is reversed. -/
def insertBack (x : α) : List α → List α
  | [] => [x]
  | y :: ys => if lt x y then y :: insertBack x ys else x :: y :: ys

/-- Inserts into a run: in front when the first element is greater, else from the right. -/
def insert (run : List α) (x : α) : List α :=
  match run with
  | [] => [x]
  | first :: _ => if lt x first then x :: run else (insertBack lt x run.reverse).reverse

/-- Sorted runs of the given size; the last may be shorter. -/
def runs (size : Nat) (xs : List α) : List (List α) :=
  match xs with
  | [] => []
  | x :: more =>
    ((x :: more.take size).foldl (insert lt) []) :: runs size (more.drop size)
termination_by xs.length
decreasing_by simp only [List.length_drop, List.length_cons]; omega

/-- Merges from the front; of equal elements that of the left list comes first. -/
def merge (xs ys : List α) : List α := List.merge xs ys fun x y => !lt y x

/-- The same from the back. -/
def mergeBack (xs ys : List α) : List α :=
  (List.merge ys.reverse xs.reverse fun y x => !lt y x).reverse

def mergePairs : List (List α) → List (List α)
  | a :: b :: more => merge lt a b :: mergePairs more
  | rest => rest

theorem length_mergePairs_le (rs : List (List α)) : (mergePairs lt rs).length ≤ rs.length := by
  fun_induction mergePairs lt rs with
  | case1 a b more ih => simp only [List.length_cons]; omega
  | case2 => exact Nat.le_refl _

def mergeAll (rs : List (List α)) : List α :=
  match rs with
  | [] => []
  | [r] => r
  | a :: b :: more => mergeAll (mergePairs lt (a :: b :: more))
termination_by rs.length
decreasing_by
  have := length_mergePairs_le lt more
  simp [mergePairs]; omega

def half (xs : List α) : List α := mergeAll lt (runs lt 6 xs)

def stable (xs : List α) : List α :=
  let n := (xs.length + 1) / 2
  let l := half lt (xs.take n)
  let r := half lt (xs.drop n)
  if l.length ≤ r.length then merge lt l r else mergeBack lt l r

end Sorting

/-- Blank nodes before names before literals. -/
def rank : Term → Nat
  | .blank _ => 0
  | .iri _ => 1
  | .literal .. => 2

def compareTerms (l r : Term) : Ordering :=
  if rank l ≠ rank r then compare (rank l) (rank r)
  else (compare? l r).getD (compare l.content r.content)

def compareCells : Option Term → Option Term → Ordering
  | none, none => .eq
  | none, some _ => .lt
  | some _, none => .gt
  | some l, some r => compareTerms l r

/-- Whether the first key that tells two bindings apart puts one before the other. -/
def before : List OrderKey → Binding → Binding → Bool
  | [], _, _ => false
  | k :: more, a, b =>
    match compareCells (a.find? k.name) (b.find? k.name) with
    | .eq => before more a b
    | o => if k.descending then o == .gt else o == .lt

end Semlift.Query
