import Semlift.Rdf.Index

/-!
Graphs: triples without duplicates, in the order in which they were first added. Matching looks up
the bound positions of a pattern in an index and gives a sublist of the triples.

Sources of triples are anything that answers a pattern. Sources are joined in order; a triple that
an earlier one gives is not given again.
-/

namespace Semlift.Rdf

structure Graph where
  triples : List Triple
  nodup : triples.Nodup
  index : Index
  indexed : index = .ofList triples

namespace Graph

def empty : Graph := ⟨[], .nil, .empty, rfl⟩

instance : Inhabited Graph := ⟨empty⟩
instance : Membership Triple Graph := ⟨fun g t => t ∈ g.triples⟩
instance (t : Triple) (g : Graph) : Decidable (t ∈ g) := inferInstanceAs (Decidable (t ∈ g.triples))

theorem mem_def {t : Triple} {g : Graph} : t ∈ g ↔ t ∈ g.triples := .rfl

@[ext] theorem ext {g h : Graph} (e : g.triples = h.triples) : g = h := by
  cases g; cases h; simp_all

def size (g : Graph) : Nat := g.triples.length

/-- Adds a triple at the end unless it is there already. -/
def add (g : Graph) (t : Triple) : Graph :=
  if h : t ∈ g.triples then g
  else
    { triples := g.triples ++ [t]
      nodup := List.nodup_append.2 ⟨g.nodup, by simp, by
        intro a ha b hb e
        rw [List.mem_singleton.1 hb] at e
        exact h (e ▸ ha)⟩
      index := g.index.add t
      indexed := by rw [g.indexed, Index.ofList_append_singleton] }

/-- Adds a triple, and tells whether the graph has grown by it. -/
def insert (g : Graph) (t : Triple) : Graph × Bool := (g.add t, g.size < (g.add t).size)

def addAll (g : Graph) (ts : List Triple) : Graph := ts.foldl add g

def ofList (ts : List Triple) : Graph := empty.addAll ts

@[simp] theorem triples_empty : empty.triples = [] := rfl

theorem triples_add (g : Graph) (t : Triple) :
    (g.add t).triples = if t ∈ g.triples then g.triples else g.triples ++ [t] := by
  unfold add; split <;> rfl

theorem add_of_mem {g : Graph} {t : Triple} (h : t ∈ g.triples) : g.add t = g := by
  simp [add, h]

@[simp] theorem addAll_nil (g : Graph) : g.addAll [] = g := rfl
@[simp] theorem addAll_cons (g : Graph) (t : Triple) (ts : List Triple) :
    g.addAll (t :: ts) = (g.add t).addAll ts := rfl

theorem mem_add {g : Graph} {t u : Triple} : u ∈ (g.add t).triples ↔ u ∈ g.triples ∨ u = t := by
  rw [triples_add]
  split
  · constructor
    · exact .inl
    · rintro (h | rfl)
      · exact h
      · assumption
  · simp

theorem insert_new {g : Graph} {t : Triple} : (g.insert t).2 = true ↔ t ∉ g.triples := by
  simp only [insert, size, triples_add, decide_eq_true_eq]
  split
  · simp [*]
  · simp [*]

theorem mem_addAll {g : Graph} {ts : List Triple} {u : Triple} :
    u ∈ (g.addAll ts).triples ↔ u ∈ g.triples ∨ u ∈ ts := by
  induction ts generalizing g with
  | nil => simp
  | cons t ts ih => simp [ih, mem_add, or_assoc]

/-- The triples of a pattern, in order. -/
def matching (g : Graph) (p : TriplePattern) : List Triple :=
  match g.index.candidates? p with
  | none => g.triples
  | some ts => ts.filter p.covers

theorem matching_eq_filter (g : Graph) (p : TriplePattern) :
    g.matching p = g.triples.filter p.covers := by
  unfold matching
  split
  · rename_i h
    rw [Index.eq_any_of_candidates? h]
    exact (List.filter_eq_self.2 fun t _ => TriplePattern.any_covers t).symm
  · rename_i ts h
    rw [g.indexed] at h
    exact Index.filter_candidates? h

/-- The objects of a subject and a predicate. -/
def objects (g : Graph) (subject predicate : Term) : List Term :=
  (g.matching ⟨some subject, some predicate, none⟩).map (·.object)

/-- The subjects of a predicate and an object. -/
def subjects (g : Graph) (predicate object : Term) : List Term :=
  (g.matching ⟨none, some predicate, some object⟩).map (·.subject)

end Graph

/-- Anything that finds the triples of a pattern. -/
abbrev Source := TriplePattern → List Triple

namespace Source

def union (sources : List Source) : Source := fun p => (sources.flatMap (· p)).eraseDups

/-- Everything that a source gives. -/
def snapshot (s : Source) : Graph := Graph.ofList (s .any)

end Source

end Semlift.Rdf
