import Mathlib.Logic.Relation
import Mathlib.Tactic.Lemma
import Semlift.Search

/-!
What a search finds. Everything in the queue is found, and with a node that was not seen before
also every node that an edge leads to from it; nothing else is found than what the queue leads to.

The same nodes are found in rounds. A round visits the nodes of the frontier and collects where
their edges lead as the next frontier; a node that was visited before is passed over, also where
edges run in a circle. The edges of a node join a frontier once, so the rounds come to an end.
-/

namespace Semlift

variable {α : Type} [DecidableEq α] {edges : List (α × α)} {seen queue : List α} {a b : α}

lemma mem_targets : b ∈ targets edges a ↔ (a, b) ∈ edges := by
  simp only [targets, List.mem_map, List.mem_filter, beq_iff_eq]
  constructor
  · rintro ⟨⟨x, y⟩, ⟨he, rfl⟩, rfl⟩
    exact he
  · exact fun h => ⟨(a, b), ⟨h, rfl⟩, rfl⟩

lemma mem_without {e : α × α} : e ∈ without edges a ↔ e ∈ edges ∧ e.1 ≠ a := by
  simp [without]

lemma mem_search_of_seen (h : a ∈ seen) : a ∈ search edges seen queue := by
  fun_induction search edges seen queue with
  | case1 => exact h
  | case2 edges seen c more hc ih => exact ih h
  | case3 edges seen c more hc ih => exact ih (by simp [h])

lemma mem_search_of_queue (h : a ∈ queue) : a ∈ search edges seen queue := by
  fun_induction search edges seen queue with
  | case1 => simp at h
  | case2 edges seen c more hc ih =>
    rcases List.mem_cons.1 h with rfl | h
    · exact mem_search_of_seen hc
    · exact ih h
  | case3 edges seen c more hc ih =>
    rcases List.mem_cons.1 h with rfl | h
    · exact mem_search_of_seen (by simp)
    · exact ih (by simp [h])

/-- **A search is closed under edges**: where an edge leads from a node found is found too. -/
theorem mem_search_of_edge (ha : a ∈ search edges seen queue) (hs : a ∉ seen)
    (he : (a, b) ∈ edges) : b ∈ search edges seen queue := by
  fun_induction search edges seen queue with
  | case1 => exact absurd ha hs
  | case2 edges seen c more hc ih => exact ih ha hs he
  | case3 edges seen c more hc ih =>
    by_cases hca : a = c
    · -- the edges of `c` are used up here, and its targets join the queue
      subst hca
      exact mem_search_of_queue (by simp [mem_targets, he])
    · exact ih ha (by simp [hs, hca]) (mem_without.2 ⟨he, hca⟩)

/-- What is closed under edges holds everything that a search finds, if it holds what the search
begins with. -/
lemma search_subset {P : α → Prop} (hs : ∀ a ∈ seen, P a) (hq : ∀ a ∈ queue, P a)
    (he : ∀ a b, (a, b) ∈ edges → P a → P b) : ∀ a ∈ search edges seen queue, P a := by
  fun_induction search edges seen queue with
  | case1 => exact hs
  | case2 edges seen c more hc ih => exact ih hs (fun a ha => hq a (by simp [ha])) he
  | case3 edges seen c more hc ih =>
    have hP : P c := hq c (by simp)
    refine ih ?_ ?_ fun a b hab => he a b (mem_without.1 hab).1
    · intro a ha
      rcases List.mem_append.1 ha with ha | ha
      · exact hs a ha
      · exact List.mem_singleton.1 ha ▸ hP
    · intro a ha
      rcases List.mem_append.1 ha with ha | ha
      · exact hq a (by simp [ha])
      · exact he c a (mem_targets.1 ha) hP

/-- **A node is reached** exactly if a chain of edges, one at least, leads to it. -/
theorem mem_reach : b ∈ reach edges a ↔ Relation.TransGen (fun x y => (x, y) ∈ edges) a b := by
  constructor
  · refine search_subset (P := Relation.TransGen (fun x y => (x, y) ∈ edges) a) (by simp)
      (fun c hc => .single (mem_targets.1 hc)) (fun c d he hc => hc.tail he) b
  · intro h
    induction h with
    | single he => exact mem_search_of_queue (mem_targets.2 he)
    | tail _ he ih => exact mem_search_of_edge ih (by simp) he

/-! ### Loops that come to an end

A loop is given by what a turn makes of its state, and has no turn where it stops. -/

section Loops

variable {σ : Type} {next? : σ → Option σ} {s last : σ} {n : Nat}

/-- The loop stops after so many turns. -/
inductive Stops (next? : σ → Option σ) : Nat → σ → σ → Prop
  | here {s : σ} (h : next? s = none) : Stops next? 0 s s
  | turn {n : Nat} {s s' last : σ} (h : next? s = some s') (more : Stops next? n s' last) :
      Stops next? (n + 1) s last

lemma Stops.next?_eq_none (h : Stops next? n s last) : next? last = none := by
  induction h with
  | here h => exact h
  | turn _ _ ih => exact ih

/-- **A loop stops** if every turn keeps the invariant and makes the measure smaller. -/
theorem exists_stops (keeps : σ → Prop) (measure : σ → Nat)
    (hturn : ∀ s s', keeps s → next? s = some s' → keeps s' ∧ measure s' < measure s)
    (h : keeps s) : ∃ n ≤ measure s, ∃ last, Stops next? n s last ∧ keeps last := by
  induction hm : measure s using Nat.strongRecOn generalizing s with
  | ind m ih =>
    cases hs : next? s with
    | none => exact ⟨0, Nat.zero_le _, s, .here hs, h⟩
    | some s' =>
      obtain ⟨hkeeps, hless⟩ := hturn s s' h hs
      obtain ⟨n, hn, last, hstops, hlast⟩ := ih (measure s') (hm ▸ hless) hkeeps rfl
      exact ⟨n + 1, by omega, last, .turn hs hstops, hlast⟩

end Loops

/-! ### In rounds -/

/-- The nodes reached so far, in order, and those that are visited next. -/
structure Sweep (α : Type) where
  reached : List α
  frontier : List α

namespace Sweep

/-- Visits a node: what was reached before, and what is collected for the next round. -/
def visit (edges : List (α × α)) (st : Sweep α) (a : α) : Sweep α :=
  if a ∈ st.reached then st else ⟨st.reached ++ [a], st.frontier ++ targets edges a⟩

/-- One round over a frontier that is not empty. -/
def next? (edges : List (α × α)) (s : Sweep α) : Option (Sweep α) :=
  if s.frontier.isEmpty then none else some (s.frontier.foldl (visit edges) ⟨s.reached, []⟩)

/-- The search begins with the nodes that edges lead to from a node. -/
def start (edges : List (α × α)) (a : α) : Sweep α := ⟨[], targets edges a⟩

lemma next?_eq_some {s s' : Sweep α} : next? edges s = some s' ↔
    s.frontier ≠ [] ∧ s.frontier.foldl (visit edges) ⟨s.reached, []⟩ = s' := by
  unfold next?
  cases s.frontier <;> simp

lemma next?_eq_none {s : Sweep α} : next? edges s = none ↔ s.frontier = [] := by
  unfold next?
  cases s.frontier <;> simp

/-- The edges that begin at nodes which were not reached. -/
def left (edges : List (α × α)) (seen : List α) : List (α × α) := edges.filter (·.1 ∉ seen)

lemma targets_left (h : a ∉ seen) : targets (left edges seen) a = targets edges a := by
  unfold targets left
  rw [List.filter_filter]
  congr 1
  refine List.filter_congr fun e _ => ?_
  by_cases he : e.1 = a <;> simp [he, h]

lemma without_left : without (left edges seen) a = left edges (seen ++ [a]) := by
  unfold without left
  rw [List.filter_filter]
  refine List.filter_congr fun e _ => ?_
  by_cases he : e.1 = a <;> simp [he]

/-- The edges that are left and the nodes that wait. -/
def remaining (edges : List (α × α)) (s : Sweep α) : Nat :=
  (left edges s.reached).length + s.frontier.length

/-- A visit uses up the edges that it collects. -/
lemma remaining_visit (s : Sweep α) (a : α) :
    remaining edges (visit edges s a) = remaining edges s := by
  unfold visit
  split
  · rfl
  · rename_i ha
    have hsplit := length_targets_add_without (left edges s.reached) a
    rw [targets_left ha, without_left] at hsplit
    simp only [remaining, List.length_append]
    omega

lemma remaining_foldl_visit (front : List α) (s : Sweep α) :
    remaining edges (front.foldl (visit edges) s) = remaining edges s := by
  induction front generalizing s with
  | nil => rfl
  | cons a front ih => rw [List.foldl_cons, ih, remaining_visit]

/-- **A round takes the visited frontier away.** -/
lemma remaining_next? {s s' : Sweep α} (h : next? edges s = some s') :
    remaining edges s' < remaining edges s := by
  obtain ⟨hfront, rfl⟩ := next?_eq_some.1 h
  have hpos : 0 < s.frontier.length := List.length_pos_iff.2 hfront
  rw [remaining_foldl_visit]
  simp only [remaining, List.length_nil]
  omega

/-- What is found in the end. -/
def found (edges : List (α × α)) (s : Sweep α) : List α :=
  search (left edges s.reached) s.reached s.frontier

/-- To visit a frontier is what the search does with the front of its queue. -/
lemma found_foldl_visit (front : List α) (s : Sweep α) :
    found edges (front.foldl (visit edges) s) =
      search (left edges s.reached) s.reached (front ++ s.frontier) := by
  induction front generalizing s with
  | nil => rfl
  | cons a front ih =>
    rw [List.foldl_cons, ih, List.cons_append, search]
    unfold visit
    split
    · rfl
    · rename_i ha
      rw [targets_left ha, without_left, List.append_assoc]

lemma found_next? {s s' : Sweep α} (h : next? edges s = some s') :
    found edges s' = found edges s := by
  obtain ⟨-, rfl⟩ := next?_eq_some.1 h
  rw [found_foldl_visit, List.append_nil, found]

lemma found_of_stopped {s : Sweep α} (h : next? edges s = none) : found edges s = s.reached := by
  rw [found, next?_eq_none.1 h, search]

/-- **The search in rounds stops** at what the search with a queue finds. -/
theorem exists_stops_reach (edges : List (α × α)) (a : α) :
    ∃ n ≤ edges.length + (targets edges a).length, ∃ last,
      Stops (next? edges) n (start edges a) last ∧ last.reached = reach edges a := by
  have hleft : left edges [] = edges := by simp [left]
  have hfound : found edges (start edges a) = reach edges a := by
    simp only [found, start, hleft, reach]
  have hremaining : remaining edges (start edges a) = edges.length + (targets edges a).length := by
    simp only [remaining, start, hleft]
  obtain ⟨n, hn, last, hstops, hlast⟩ := exists_stops
    (fun s => found edges s = reach edges a) (remaining edges)
    (fun s s' hs h => ⟨(found_next? h).trans hs, remaining_next? h⟩) hfound
  refine ⟨n, hremaining ▸ hn, last, hstops, ?_⟩
  rw [← found_of_stopped hstops.next?_eq_none, hlast]

end Sweep

end Semlift
