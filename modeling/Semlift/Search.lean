/-!
Breadth-first search over a finite list of edges. The search ends because the edges of a node are
used up when the node is seen.
-/

namespace Semlift

section

variable {α : Type} [DecidableEq α]

/-- Where the edges of a node lead, in their order. -/
def targets (edges : List (α × α)) (a : α) : List α := (edges.filter (·.1 == a)).map (·.2)

/-- The edges that begin at other nodes. -/
def without (edges : List (α × α)) (a : α) : List (α × α) := edges.filter (·.1 != a)

theorem length_targets_add_without (edges : List (α × α)) (a : α) :
    (targets edges a).length + (without edges a).length = edges.length := by
  induction edges with
  | nil => rfl
  | cons e es ih =>
    simp only [targets, without, List.length_map, List.filter_cons, bne] at ih ⊢
    by_cases h : e.1 == a <;> simp [h] <;> omega

/-- The nodes seen so far, then those of the queue and all that they lead to, nearer ones first. -/
def search (edges : List (α × α)) (seen queue : List α) : List α :=
  match queue with
  | [] => seen
  | a :: more =>
    if a ∈ seen then search edges seen more
    else search (without edges a) (seen ++ [a]) (more ++ targets edges a)
termination_by edges.length + queue.length
decreasing_by
  · simp
  · have := length_targets_add_without edges a
    simp only [List.length_append, List.length_cons]; omega

/-- The nodes that one or more edges lead to from a node. -/
def reach (edges : List (α × α)) (a : α) : List α := search edges [] (targets edges a)

end

end Semlift
