import Semlift.Proofs.Ontology.Closure

/-!
The closure as a loop without a bound. A pass walks over the triples of the graph, those that it
adds itself included, under the schema that the graph declares when the pass begins; if a schema
triple was new among what it added, another pass follows. No rule forms a term, so only finitely
many triples can be added: within a pass the position comes nearer to their number, and from pass
to pass the graph grows.
-/

namespace Semlift.Ontology

open Semlift.Rdf

variable {g b : Graph} {t : Triple} {ts : List Triple} {st : Graph × Bool} {rounds : Nat}

/-- Whether triples of a predicate declare a schema. -/
def isSchemaPredicate (p : Term) : Bool :=
  [Vocabulary.rdfsSubClassOf, Vocabulary.rdfsSubPropertyOf, Vocabulary.rdfsDomain,
    Vocabulary.rdfsRange].contains p.content

/-- Adds a triple, and keeps in mind whether a schema triple was new. -/
def addNew (st : Graph × Bool) (t : Triple) : Graph × Bool :=
  let (g, new) := st.1.insert t
  (g, st.2 || new && isSchemaPredicate t.predicate)

/-- A pass over the triples of a graph at one of them. -/
structure Pass where
  graph : Graph
  schema : Schema
  position : Nat
  /-- Whether a schema triple was new. -/
  grown : Bool

namespace Pass

def start (g : Graph) : Pass := ⟨g, .of g, 0, false⟩

/-- Adds what a triple entails, and goes on to the next one. -/
def walk (s : Pass) (t : Triple) : Pass :=
  let (graph, grown) := (s.schema.consequences t).foldl addNew (s.graph, s.grown)
  ⟨graph, s.schema, s.position + 1, grown⟩

/-- The turn at the next triple. Behind the last one another pass may follow. -/
def next? (s : Pass) : Option Pass :=
  match s.graph.triples[s.position]? with
  | some t => some (s.walk t)
  | none => if s.grown then some (start s.graph) else none

end Pass

/-! ### Triples that are new -/

lemma foldl_addNew_fst (ts : List Triple) (st : Graph × Bool) :
    (ts.foldl addNew st).1 = st.1.addAll ts := by
  induction ts generalizing st with
  | nil => rfl
  | cons t ts ih => exact ih (addNew st t)

lemma edgesOf_add {p : Term} (h : t ∈ g.triples ∨ t.predicate ≠ p) :
    edgesOf (g.add t) p = edgesOf g p := by
  by_cases ht : t ∈ g.triples
  · rw [Graph.add_of_mem ht]
  · have hp : (p == t.predicate) = false :=
      beq_eq_false_iff_ne.2 fun e => h.elim ht fun h => h e.symm
    unfold edgesOf
    rw [Graph.matching_eq_filter, Graph.matching_eq_filter, Graph.triples_add, if_neg ht,
      List.filter_append]
    simp [TriplePattern.covers, TriplePattern.fits, hp]

/-- The schema grows by new schema triples only. -/
lemma schema_add (h : t ∈ g.triples ∨ isSchemaPredicate t.predicate = false) :
    Schema.of (g.add t) = .of g := by
  have hedges : ∀ p, isSchemaPredicate p = true → edgesOf (g.add t) p = edgesOf g p := by
    refine fun p hp => edgesOf_add (h.imp_right fun hother e => ?_)
    rw [e, hp] at hother
    cases hother
  unfold Schema.of
  rw [hedges subClassOf (by decide), hedges subPropertyOf (by decide), hedges domain (by decide),
    hedges range (by decide)]

lemma schema_foldl_addNew (h : (ts.foldl addNew st).2 = false) :
    st.2 = false ∧ Schema.of (ts.foldl addNew st).1 = .of st.1 := by
  induction ts using List.reverseRecOn with
  | nil => exact ⟨h, rfl⟩
  | append_singleton ts t ih =>
    rw [List.foldl_concat] at h ⊢
    obtain ⟨hbefore, hnew⟩ := Bool.or_eq_false_iff.1 h
    obtain ⟨hst, hschema⟩ := ih hbefore
    refine ⟨hst, (schema_add ?_).trans hschema⟩
    refine (Bool.and_eq_false_iff.1 hnew).imp_left fun hold => ?_
    exact not_not.1 fun hnew => Bool.false_ne_true (hold.symm.trans (Graph.insert_new.2 hnew))

lemma size_foldl_addNew (h : (ts.foldl addNew st).2 = true) :
    st.2 = true ∨ st.1.size < (ts.foldl addNew st).1.size := by
  induction ts using List.reverseRecOn with
  | nil => exact .inl h
  | append_singleton ts t ih =>
    rw [List.foldl_concat] at h ⊢
    have hle : (ts.foldl addNew st).1.size ≤ (addNew (ts.foldl addNew st) t).1.size :=
      Graph.prefix_add.length_le
    rcases Bool.or_eq_true_iff.1 h with hbefore | hnew
    · exact (ih hbefore).imp_right fun hlt => hlt.trans_le hle
    · have hlt : (ts.foldl addNew st).1.size < (addNew (ts.foldl addNew st) t).1.size :=
        of_decide_eq_true (Bool.and_eq_true_iff.1 hnew).1
      have hbefore : st.1.size ≤ (ts.foldl addNew st).1.size := by
        rw [foldl_addNew_fst]
        exact Graph.prefix_addAll.length_le
      exact .inr (hbefore.trans_lt hlt)

/-! ### On the way -/

namespace Pass

/-- A pass on the way to the closure of a graph. It began with another graph, from which so many
rounds lead to the closure. -/
structure Under (g b : Graph) (rounds : Nat) (s : Pass) : Prop where
  schema : s.schema = .of b
  within : ∀ t ∈ s.graph.triples, t ∈ closureTriples g
  before : b.triples <+: s.graph.triples
  position : s.position ≤ s.graph.size
  /-- The triples from the position on are pending in the round. -/
  rest : saturate (.of b) (bound g - s.position) s.graph (s.graph.triples.drop s.position) =
    saturate (.of b) (bound g) b b.triples
  whole : closeWithin (bound g) rounds b = closure g
  rounds : bound g ≤ rounds + b.size
  grown : s.grown = true → b.size < s.graph.size
  same : s.grown = false → Schema.of s.graph = .of b

variable {s s' : Pass}

lemma size_le_bound (h : ∀ t ∈ g.triples, t ∈ closureTriples b) : g.size ≤ bound b :=
  (size_le h).trans_eq length_closureTriples

lemma under_start (hb : ∀ t ∈ b.triples, t ∈ closureTriples g)
    (hw : closeWithin (bound g) rounds b = closure g) (hr : bound g ≤ rounds + b.size) :
    Under g b rounds (start b) where
  schema := rfl
  within := hb
  before := List.prefix_refl _
  position := Nat.zero_le _
  rest := rfl
  whole := hw
  rounds := hr
  grown := fun h => absurd h Bool.false_ne_true
  same := fun _ => rfl

/-- How a turn goes on: with the next triple, or with another pass. -/
lemma next?_cases (h : s.next? = some s') :
    (∃ t, s.graph.triples[s.position]? = some t ∧ s' = s.walk t) ∨
      s.graph.triples[s.position]? = none ∧ s.grown = true ∧ s' = start s.graph := by
  unfold next? at h
  split at h
  · rename_i t ht
    exact .inl ⟨t, ht, (Option.some.inj h).symm⟩
  · rename_i hend
    split at h
    · rename_i hgrown
      exact .inr ⟨hend, hgrown, (Option.some.inj h).symm⟩
    · cases h

lemma next?_eq_none (h : s.next? = none) :
    s.graph.triples[s.position]? = none ∧ s.grown = false := by
  unfold next? at h
  split at h
  · cases h
  · rename_i hend
    split at h
    · cases h
    · rename_i hgrown
      exact ⟨hend, Bool.eq_false_of_not_eq_true hgrown⟩

lemma walk_graph : (s.walk t).graph = s.graph.addAll (s.schema.consequences t) :=
  foldl_addNew_fst ..

lemma prefix_walk : s.graph.triples <+: (s.walk t).graph.triples := by
  rw [walk_graph]
  exact Graph.prefix_addAll

/-- A turn does what a round does with the first of its pending triples. -/
lemma saturate_walk (h : s.graph.triples[s.position]? = some t) {fuel : Nat} :
    saturate s.schema fuel (s.walk t).graph ((s.walk t).graph.triples.drop (s.position + 1)) =
      saturate s.schema (fuel + 1) s.graph (s.graph.triples.drop s.position) := by
  obtain ⟨hpos, hget⟩ := List.getElem?_eq_some_iff.1 h
  have hsplit : s.graph.triples ++ (s.walk t).graph.triples.drop s.graph.size =
      (s.walk t).graph.triples := (List.prefix_append_drop prefix_walk).symm
  have hpending : (s.walk t).graph.triples.drop (s.position + 1) =
      s.graph.triples.drop (s.position + 1) ++ (s.walk t).graph.triples.drop s.graph.size := by
    rw [← List.drop_append_of_le_length hpos, hsplit]
  rw [List.drop_eq_getElem_cons hpos, hget, saturate, hpending, walk_graph]

lemma Under.position_lt_bound (h : Under g b rounds s)
    (ht : s.graph.triples[s.position]? = some t) : s.position < bound g := by
  obtain ⟨hpos, -⟩ := List.getElem?_eq_some_iff.1 ht
  exact lt_of_lt_of_le hpos (size_le_bound h.within)

/-- **A turn within a pass** stays on the way. -/
lemma Under.walk (h : Under g b rounds s) (ht : s.graph.triples[s.position]? = some t) :
    Under g b rounds (s.walk t) := by
  obtain ⟨hpos, -⟩ := List.getElem?_eq_some_iff.1 ht
  refine ⟨h.schema, fun u hu => ?_, h.before.trans prefix_walk,
    hpos.trans_le prefix_walk.length_le, ?_, h.whole, h.rounds, fun hgrown => ?_,
    fun hgrown => ?_⟩
  · rw [walk_graph, Graph.mem_addAll] at hu
    rcases hu with hu | hu
    · exact h.within u hu
    · rw [h.schema] at hu
      exact closed_closureTriples.consequences (fun v hv => h.within v (h.before.subset hv))
        (h.within t (List.mem_of_getElem? ht)) hu
  · have hfuel : bound g - s.position = bound g - (s.position + 1) + 1 := by
      have := h.position_lt_bound ht
      omega
    rw [← h.rest, hfuel, ← h.schema, ← saturate_walk ht]
    rfl
  · rcases size_foldl_addNew hgrown with hbefore | hlt
    · exact (h.grown hbefore).trans_le prefix_walk.length_le
    · exact h.before.length_le.trans_lt hlt
  · obtain ⟨hbefore, hschema⟩ := schema_foldl_addNew hgrown
    exact hschema.trans (h.same hbefore)

/-- A pass that has come to its end has made the round. -/
lemma Under.round (h : Under g b rounds s) (hend : s.graph.triples[s.position]? = none) :
    saturate (.of b) (bound g) b b.triples = s.graph := by
  have hdrop : s.graph.triples.drop s.position = [] :=
    List.drop_eq_nil_iff.2 (List.getElem?_eq_none_iff.1 hend)
  rw [← h.rest, hdrop]
  cases bound g - s.position <;> rfl

/-- **A turn to another pass**: one round fewer leads on from a graph that has grown. -/
lemma Under.again (h : Under g b rounds s) (hend : s.graph.triples[s.position]? = none)
    (hgrown : s.grown = true) : Under g s.graph (rounds - 1) (start s.graph) := by
  have hlt := h.grown hgrown
  have hbound := size_le_bound h.within
  have hrounds := h.rounds
  have hwhole := h.whole
  obtain ⟨n, rfl⟩ : ∃ n, rounds = n + 1 := Nat.exists_eq_succ_of_ne_zero (by omega)
  rw [closeWithin, h.round hend, if_neg hlt.ne'] at hwhole
  exact under_start h.within hwhole (by omega)

/-- Without new schema triples, what a whole pass leaves is closed. -/
lemma Under.closed (h : Under g b rounds s) (hend : s.graph.triples[s.position]? = none)
    (hgrown : s.grown = false) : Closed {t | t ∈ s.graph.triples} := by
  have hb : ∀ t ∈ b.triples, t ∈ closureTriples g := fun t ht => h.within t (h.before.subset ht)
  refine closed_of_consequences fun t ht u hu => ?_
  rw [h.same hgrown] at hu
  rw [← h.round hend] at ht ⊢
  refine saturate_complete (U := closureTriples g)
    (fun t ht u hu => closed_closureTriples.consequences hb ht hu) hb (fun _ ht => ht)
    (fun t ht hn => absurd ht hn) ?_ t ht u hu
  rw [length_closureTriples, Graph.size, Nat.add_comm]

lemma Under.graph_eq_of_size (h : Under g b rounds s) (hsize : s.graph.size ≤ b.size) :
    s.graph = b :=
  Rdf.Graph.ext (h.before.eq_of_length_le hsize).symm

/-- **Where the passes stop** nothing is left to add. -/
lemma Under.graph_eq (h : Under g b rounds s) (hstop : s.next? = none) :
    s.graph = closure g := by
  obtain ⟨hend, hgrown⟩ := next?_eq_none hstop
  rw [← h.whole]
  cases rounds with
  | zero =>
    have hbound := size_le_bound h.within
    have hrounds := h.rounds
    exact h.graph_eq_of_size (by omega)
  | succ n =>
    rw [closeWithin, h.round hend]
    split
    · rename_i hsize
      exact h.graph_eq_of_size hsize.le
    · exact (closeWithin_of_closed (h.closed hend hgrown)).symm

/-! ### What every turn takes away -/

/-- The triples that may still be new, in turns, and the triples that the pass may still walk over.
A pass that another one follows counts as one triple more. -/
def remaining (g : Graph) (s : Pass) : Nat :=
  (bound g - s.graph.size + s.grown.toNat) * (bound g + 1) + (bound g - s.position)

lemma Under.remaining_walk (h : Under g b rounds s) (ht : s.graph.triples[s.position]? = some t) :
    (s.walk t).remaining g < s.remaining g := by
  have hbound := size_le_bound (h.walk ht).within
  have hle : s.graph.size ≤ (s.walk t).graph.size := prefix_walk.length_le
  -- a schema triple that is new takes away what it adds
  have hnew : bound g - (s.walk t).graph.size + (s.walk t).grown.toNat ≤
      bound g - s.graph.size + s.grown.toNat := by
    cases hgrown : (s.walk t).grown with
    | false =>
      simp only [Bool.toNat_false]
      omega
    | true =>
      rcases size_foldl_addNew hgrown with hbefore | hlt
      · have hbefore : s.grown = true := hbefore
        rw [hbefore]
        omega
      · have hlt : s.graph.size < (s.walk t).graph.size := hlt
        simp only [Bool.toNat_true]
        omega
  have hwalk : bound g - (s.position + 1) < bound g - s.position := by
    have := h.position_lt_bound ht
    omega
  exact Nat.add_lt_add_of_le_of_lt (Nat.mul_le_mul_right _ hnew) hwalk

lemma Under.remaining_start (h : Under g b rounds s)
    (hend : s.graph.triples[s.position]? = none) (hgrown : s.grown = true) :
    (start s.graph).remaining g < s.remaining g := by
  have hpos : s.graph.size ≤ s.position := List.getElem?_eq_none_iff.1 hend
  have hle := h.position
  have hbound := size_le_bound h.within
  simp only [remaining, start, hgrown, Bool.toNat_false, Bool.toNat_true, Nat.add_zero,
    Nat.sub_zero, Nat.succ_mul]
  omega

/-- **Every turn** stays on the way and comes nearer. -/
lemma Under.turn (h : Under g b rounds s) (hturn : s.next? = some s') :
    (∃ b rounds, Under g b rounds s') ∧ s'.remaining g < s.remaining g := by
  rcases next?_cases hturn with ⟨t, ht, rfl⟩ | ⟨hend, hgrown, rfl⟩
  · exact ⟨⟨b, rounds, h.walk ht⟩, h.remaining_walk ht⟩
  · exact ⟨⟨s.graph, rounds - 1, h.again hend hgrown⟩, h.remaining_start hend hgrown⟩

lemma remaining_start_le : (start g).remaining g ≤ (bound g + 1) * (bound g + 1) := by
  have hle : (bound g - g.size) * (bound g + 1) ≤ bound g * (bound g + 1) :=
    Nat.mul_le_mul_right _ (Nat.sub_le _ _)
  simp only [remaining, start, Bool.toNat_false, Nat.add_zero, Nat.sub_zero, Nat.succ_mul] at hle ⊢
  omega

end Pass

/-- **The closure is reached without a bound**, whatever the graph: circles of classes and of
properties, schema predicates below each other and terms of any kind in a schema included. The
search in rounds stops for every list of edges with what they lead to, and the passes stop with the
closure, after a number of turns that the size of the graph limits. -/
theorem closure_stops (g : Graph) :
    (∀ (edges : List Edge) (a : Term), ∃ n ≤ edges.length + (targets edges a).length, ∃ last,
      Stops (Sweep.next? edges) n (.start edges a) last ∧ last.reached = reach edges a) ∧
    ∃ n ≤ (bound g + 1) * (bound g + 1), ∃ last,
      Stops Pass.next? n (.start g) last ∧ last.graph = closure g := by
  refine ⟨Sweep.exists_stops_reach, ?_⟩
  have hstart : ∃ b rounds, Pass.Under g b rounds (.start g) :=
    ⟨g, bound g, Pass.under_start (fun t ht => mem_closureTriples_of_mem ht) rfl
      (Nat.le_add_right _ _)⟩
  obtain ⟨n, hn, last, hstops, b, rounds, hlast⟩ := exists_stops
    (fun s => ∃ b rounds, Pass.Under g b rounds s) (Pass.remaining g)
    (fun s s' ⟨_, _, h⟩ hturn => h.turn hturn) hstart
  exact ⟨n, hn.trans Pass.remaining_start_le, last, hstops,
    hlast.graph_eq hstops.next?_eq_none⟩

/-- Two classes below each other, two schema predicates below each other, and a text for a class. -/
example : (closure (.ofList [⟨.iri "urn:A", subClassOf, .iri "urn:B"⟩,
    ⟨.iri "urn:B", subClassOf, .iri "urn:A"⟩, ⟨subClassOf, subPropertyOf, subPropertyOf⟩,
    ⟨subPropertyOf, subPropertyOf, subClassOf⟩, ⟨subClassOf, range, .string "class"⟩])).size =
    21 := by decide +kernel

end Semlift.Ontology
