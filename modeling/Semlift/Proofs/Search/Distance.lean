import Mathlib.Order.Lattice.Nat
import Semlift.Proofs.Search

/-!
How far away the nodes are that a search finds. The distance of a node is the least number of edges,
one at least, that lead to it; so the node that a search begins with has a distance too, where edges
run in a circle. After `k` rounds the nodes within the distance `k` are reached, nearer ones first,
and the frontier holds the nodes that one more edge leads to. So every node that edges lead to is
found once, and none before a nearer one.
-/

namespace Semlift

variable {α : Type} {edges : List (α × α)} {a b c : α} {k n : Nat}

/-- So many edges, one at least, lead from one node to another. -/
inductive Walk (edges : List (α × α)) (a : α) : Nat → α → Prop where
  | edge {b : α} : (a, b) ∈ edges → Walk edges a 1 b
  | tail {n : Nat} {b c : α} : Walk edges a n b → (b, c) ∈ edges → Walk edges a (n + 1) c

lemma Walk.pos (h : Walk edges a n b) : 0 < n := by
  cases h <;> omega

lemma Walk.one_iff : Walk edges a 1 b ↔ (a, b) ∈ edges := by
  refine ⟨fun h => ?_, .edge⟩
  cases h with
  | edge he => exact he
  | tail h he => exact absurd h.pos (Nat.lt_irrefl 0)

/-- A longer walk comes by its last node but one. -/
lemma Walk.exists_last (h : Walk edges a (k + 1 + 1) c) :
    ∃ b, Walk edges a (k + 1) b ∧ (b, c) ∈ edges := by
  cases h with
  | tail h he => exact ⟨_, h, he⟩

lemma exists_walk_iff :
    (∃ n, Walk edges a n b) ↔ Relation.TransGen (fun x y => (x, y) ∈ edges) a b := by
  constructor
  · rintro ⟨n, h⟩
    induction h with
    | edge he => exact .single he
    | tail _ he ih => exact ih.tail he
  · intro h
    induction h with
    | single he => exact ⟨1, .edge he⟩
    | tail _ he ih =>
      obtain ⟨n, hn⟩ := ih
      exact ⟨n + 1, hn.tail he⟩

/-- The least number of edges, one at least, that lead from one node to another. -/
noncomputable def distance (edges : List (α × α)) (a b : α) : Nat := sInf {n | Walk edges a n b}

lemma distance_le (h : Walk edges a n b) : distance edges a b ≤ n := Nat.sInf_le h

lemma distance_eq (h : Walk edges a n b) (hleast : ∀ j, Walk edges a j b → n ≤ j) :
    distance edges a b = n := by
  have hattained : distance edges a b ∈ {n | Walk edges a n b} := Nat.sInf_mem ⟨n, h⟩
  have hge := hleast _ hattained
  have hle := distance_le h
  omega

namespace Sweep

/-- What so many rounds have found: the nodes within that distance, nearer ones first, and in the
frontier those that one more edge leads to. -/
structure Layered (edges : List (α × α)) (a : α) (k : Nat) (s : Sweep α) : Prop where
  nodup : s.reached.Nodup
  reached : ∀ b, b ∈ s.reached ↔ ∃ j ≤ k, Walk edges a j b
  frontier : ∀ b ∈ s.frontier, Walk edges a (k + 1) b
  next : ∀ b, Walk edges a (k + 1) b → b ∈ s.frontier ∨ b ∈ s.reached
  sorted : s.reached.Pairwise fun b c => distance edges a b ≤ distance edges a c

variable {s s' : Sweep α} {fresh : List α}

/-- The nodes that one more round reaches. -/
def Fresh (s : Sweep α) (fresh : List α) : Prop := ∀ b, b ∈ fresh ↔ b ∈ s.frontier ∧ b ∉ s.reached

lemma Layered.walk_fresh (hs : Layered edges a k s) (hf : s.Fresh fresh) (hb : b ∈ fresh) :
    Walk edges a (k + 1) b :=
  hs.frontier b ((hf b).1 hb).1

/-- What one more edge leads to is reached then or before. -/
lemma Layered.mem_fresh_or (hs : Layered edges a k s) (hf : s.Fresh fresh)
    (hb : Walk edges a (k + 1) b) : b ∈ fresh ∨ b ∈ s.reached := by
  by_cases hr : b ∈ s.reached
  · exact .inr hr
  · exact .inl ((hf b).2 ⟨(hs.next b hb).resolve_right hr, hr⟩)

/-- What was not reached before is exactly one edge further away. -/
lemma Layered.distance_fresh (hs : Layered edges a k s) (hf : s.Fresh fresh) (hb : b ∈ fresh) :
    distance edges a b = k + 1 := by
  refine distance_eq (hs.walk_fresh hf hb) fun j hj => ?_
  by_contra hlt
  exact ((hf b).1 hb).2 ((hs.reached b).2 ⟨j, by omega, hj⟩)

lemma Layered.mem_reached_append (hs : Layered edges a k s) (hf : s.Fresh fresh) :
    b ∈ s.reached ++ fresh ↔ ∃ j ≤ k + 1, Walk edges a j b := by
  rw [List.mem_append, hs.reached]
  constructor
  · rintro (⟨j, hj, hb⟩ | hb)
    · exact ⟨j, by omega, hb⟩
    · exact ⟨k + 1, le_rfl, hs.walk_fresh hf hb⟩
  · rintro ⟨j, hj, hb⟩
    rcases Nat.lt_or_ge k j with hk | hk
    · obtain rfl : j = k + 1 := by omega
      rw [← hs.reached, or_comm]
      exact hs.mem_fresh_or hf hb
    · exact .inl ⟨j, hk, hb⟩

/-- Nearer nodes stay before those that are reached next. -/
lemma Layered.sorted_append (hs : Layered edges a k s) (hf : s.Fresh fresh) :
    (s.reached ++ fresh).Pairwise fun b c => distance edges a b ≤ distance edges a c := by
  have hsame : fresh.Pairwise fun b c => distance edges a b ≤ distance edges a c := by
    refine List.Pairwise.imp_of_mem (R := fun _ _ => True) (fun hb hc _ => ?_)
      (List.pairwise_of_forall fun _ _ => trivial)
    rw [hs.distance_fresh hf hb, hs.distance_fresh hf hc]
  refine List.pairwise_append.2 ⟨hs.sorted, hsame, fun b hb c hc => ?_⟩
  obtain ⟨j, hj, hb⟩ := (hs.reached b).1 hb
  calc distance edges a b ≤ j := distance_le hb
    _ ≤ k + 1 := by omega
    _ = distance edges a c := (hs.distance_fresh hf hc).symm

variable [DecidableEq α]

/-- The nodes of a frontier that were not reached before are reached once, in their order, and the
next frontier holds where their edges lead. -/
lemma foldl_visit_eq (edges : List (α × α)) (front : List α) (s : Sweep α) :
    ∃ fresh : List α, fresh.Nodup ∧ (∀ b, b ∈ fresh ↔ b ∈ front ∧ b ∉ s.reached) ∧
      front.foldl (visit edges) s =
        ⟨s.reached ++ fresh, s.frontier ++ fresh.flatMap (targets edges)⟩ := by
  induction front generalizing s with
  | nil => exact ⟨[], .nil, by simp, by simp⟩
  | cons a front ih =>
    rw [List.foldl_cons]
    by_cases ha : a ∈ s.reached
    · have hvisit : visit edges s a = s := if_pos ha
      obtain ⟨fresh, hnodup, hmem, heq⟩ := ih s
      refine ⟨fresh, hnodup, fun b => ?_, by rw [hvisit, heq]⟩
      rw [hmem, List.mem_cons]
      constructor
      · exact fun ⟨hb, hs⟩ => ⟨.inr hb, hs⟩
      · rintro ⟨rfl | hb, hs⟩
        · exact absurd ha hs
        · exact ⟨hb, hs⟩
    · have hvisit : visit edges s a = ⟨s.reached ++ [a], s.frontier ++ targets edges a⟩ :=
        if_neg ha
      obtain ⟨fresh, hnodup, hmem, heq⟩ := ih ⟨s.reached ++ [a], s.frontier ++ targets edges a⟩
      refine ⟨a :: fresh, List.nodup_cons.2 ⟨?_, hnodup⟩, fun b => ?_, ?_⟩
      · simp [hmem]
      · rw [List.mem_cons, hmem, List.mem_append, List.mem_singleton, List.mem_cons]
        by_cases hb : b = a
        · simp [hb, ha]
        · simp [hb]
      · rw [hvisit, heq]
        simp

lemma layered_start (edges : List (α × α)) (a : α) : Layered edges a 0 (start edges a) where
  nodup := .nil
  reached := by
    intro b
    refine ⟨fun hb => absurd hb List.not_mem_nil, fun ⟨j, hj, h⟩ => ?_⟩
    have := h.pos
    omega
  frontier := fun b hb => .edge (mem_targets.1 hb)
  next := fun b hb => .inl (mem_targets.2 (Walk.one_iff.1 hb))
  sorted := .nil

/-- **One more round** goes one edge further. -/
theorem Layered.next? (hs : Layered edges a k s) (h : next? edges s = some s') :
    Layered edges a (k + 1) s' := by
  obtain ⟨-, rfl⟩ := next?_eq_some.1 h
  obtain ⟨fresh, hnodup, hmem, heq⟩ := foldl_visit_eq edges s.frontier ⟨s.reached, []⟩
  have hfresh : s.Fresh fresh := hmem
  rw [heq, List.nil_append]
  refine ⟨?_, fun b => hs.mem_reached_append hfresh, fun c hc => ?_, fun c hc => ?_,
    hs.sorted_append hfresh⟩
  · have hnew : ∀ b ∈ s.reached, ∀ c ∈ fresh, b ≠ c :=
      fun b hb c hc he => ((hfresh c).1 hc).2 (he ▸ hb)
    exact List.nodup_append.2 ⟨hs.nodup, hnodup, hnew⟩
  · obtain ⟨b, hb, hc⟩ := List.mem_flatMap.1 hc
    exact (hs.walk_fresh hfresh hb).tail (mem_targets.1 hc)
  · obtain ⟨b, hb, he⟩ := hc.exists_last
    rcases hs.mem_fresh_or hfresh hb with hb | hb
    · exact .inl (List.mem_flatMap.2 ⟨b, hb, mem_targets.2 he⟩)
    · -- the node before was reached in an earlier round, so this one is reached by now
      obtain ⟨j, hj, hb⟩ := (hs.reached b).1 hb
      exact .inr ((hs.mem_reached_append hfresh).2 ⟨j + 1, by omega, hb.tail he⟩)

lemma Layered.stops {last : Sweep α} (hs : Layered edges a k s)
    (h : Stops (Sweep.next? edges) n s last) : Layered edges a (k + n) last := by
  induction h generalizing k with
  | here => exact hs
  | @turn n s s' last hturn _ ih =>
    have hlast := ih (hs.next? hturn)
    rwa [show k + 1 + n = k + (n + 1) by omega] at hlast

end Sweep

variable [DecidableEq α]

/-- **Breadth first.** The search in rounds stops. What it has found by then is every node that one
or more edges lead to, each of them once, and no node stands before one at a smaller distance. -/
theorem reach_in_order (edges : List (α × α)) (a : α) :
    (∃ n ≤ edges.length + (targets edges a).length, ∃ last,
      Stops (Sweep.next? edges) n (Sweep.start edges a) last ∧ last.reached = reach edges a) ∧
    (reach edges a).Nodup ∧ (∀ b, b ∈ reach edges a ↔ ∃ n, Walk edges a n b) ∧
    (reach edges a).Pairwise fun b c => distance edges a b ≤ distance edges a c := by
  obtain ⟨n, hn, last, hstops, hlast⟩ := Sweep.exists_stops_reach edges a
  have hlayered := (Sweep.layered_start edges a).stops hstops
  refine ⟨⟨n, hn, last, hstops, hlast⟩, hlast ▸ hlayered.nodup, fun b => ?_,
    hlast ▸ hlayered.sorted⟩
  rw [mem_reach, exists_walk_iff]

/-- Two ways of the same length, a repeated edge, a loop at a node and a way back to the start. -/
example : reach [(1, 2), (1, 3), (2, 4), (1, 2), (3, 4), (4, 4), (4, 1)] 1 = [2, 3, 4, 1] := by
  decide +kernel

end Semlift
