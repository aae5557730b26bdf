import Semlift.Run.Machine
import Semlift.Proofs.Knowledge.Core
import Semlift.Proofs.Knowledge.Graph
import Semlift.Proofs.Knowledge.Load
import Semlift.Proofs.Lift.Plain
import Semlift.Proofs.Ontology.Closure
import Semlift.Proofs.Ontology.Monotone
import Semlift.Proofs.Query.Monotone

/-!
Asking with and without reasoning. The graph with all that its schema entails holds the graph, so
reasoning loses no member of a class without complements and no row of a query that keeps repeated
rows. Where repeated rows are dropped, a row can be lost to an entailed one with the same key: not if
the terms of the graph can be told from their texts.
-/

namespace Semlift.Ontology

open Semlift.Rdf

variable {g : Graph} {x : Triple} {t : Term}

lemma legible_of_mem_closureTerms (hg : Query.LegibleGraph g) (ht : t ∈ closureTerms g) :
    t.Legible := by
  rcases List.mem_cons.1 ht with rfl | ht
  · decide
  · obtain ⟨x, hx, hmem⟩ := List.mem_flatMap.1 ht
    obtain ⟨hs, hp, ho⟩ := hg x hx
    simp only [List.mem_cons, List.not_mem_nil, or_false] at hmem
    rcases hmem with rfl | rfl | rfl
    exacts [hs, hp, ho]

/-- Every term of a closure is one of the graph or the type predicate. -/
lemma legibleGraph_closure (hg : Query.LegibleGraph g) : Query.LegibleGraph (closure g) := by
  intro x hx
  have hterms : x ∈ closureTriples g :=
    closure_subset closed_closureTriples (fun _ ht => mem_closureTriples_of_mem ht) x hx
  obtain ⟨hs, hp, ho⟩ := mem_closureTriples.1 hterms
  exact ⟨legible_of_mem_closureTerms hg hs, legible_of_mem_closureTerms hg hp,
    legible_of_mem_closureTerms hg ho⟩

end Semlift.Ontology

namespace Semlift.Knowledge

open Semlift.Rdf Semlift.Ontology

/-- The view with a mode of reasoning. -/
def View.reasoning (v : View) (m : Mode) : View := { v with mode := m }

namespace Base

open Semlift.Store Semlift.Query

variable {b : Base} {s : State} {v : View} {m : Mode} {p : TriplePattern} {text : String}
  {e : ClassExpr} {q : Select}

lemma queried_subset : b.queried s (v.reasoning .off) p ⊆ b.queried s (v.reasoning .rdfs) p := by
  intro x hx
  have hgraph : x ∈ (b.graph s v).matching p := source_subset hx
  rw [Graph.matching_eq_filter, List.mem_filter] at hgraph
  show x ∈ (closure (b.graph s v)).matching p
  rw [Graph.matching_eq_filter, List.mem_filter]
  exact ⟨subset_closure hgraph.1, hgraph.2⟩

lemma members_off (he : ClassExpr.parse ⟨b.prefixes, b.domain⟩ text = .ok e) :
    b.members s (v.reasoning .off) text = .ok (e.members (b.graph s v)) := by
  simp only [members, he]
  rfl

lemma members_rdfs (hb : b.rdfs = some .schema)
    (he : ClassExpr.parse ⟨b.prefixes, b.domain⟩ text = .ok e) :
    b.members s (v.reasoning .rdfs) text = .ok (e.members (closure (b.graph s v))) := by
  simp only [members, he, View.reasoning, reasoner, hb]
  rfl

lemma query_reasoning (hq : Query.parse text b.prefixes = .ok q) :
    b.query s (v.reasoning m) text = .ok (q.eval (b.queried s (v.reasoning m))) := by
  simp only [query, hq]

/-- **Reasoning only adds answers**, if repeated rows are kept or terms can be told from their texts.
A class without complements keeps its members. A query without a limit and an offset keeps a row
exactly if repeated rows are not dropped or the row is the first with its key among the rows that are
entailed, which holds of every row if all terms of the graph are legible. -/
theorem reasoning_adds (hb : b.rdfs = some .schema) :
    (∀ text e, ClassExpr.parse ⟨b.prefixes, b.domain⟩ text = .ok e → e.positive →
      ∃ explicit entailed, b.members s (v.reasoning .off) text = .ok explicit ∧
        b.members s (v.reasoning .rdfs) text = .ok entailed ∧ explicit ⊆ entailed) ∧
    ∀ text q, Query.parse text b.prefixes = .ok q → q.limit = none → q.offset = none →
      ∃ explicit entailed : Table, b.query s (v.reasoning .off) text = .ok explicit ∧
        b.query s (v.reasoning .rdfs) text = .ok entailed ∧
        explicit.columns = entailed.columns ∧
        (∀ r ∈ explicit.rows, r ∈ entailed.rows ↔ (q.distinct →
          (q.allRows (closure (b.graph s v)).matching).find? (fun x => rowKey x == rowKey r) =
            some r)) ∧
        (q.distinct = false ∨ LegibleGraph (b.graph s v) → explicit.rows ⊆ entailed.rows) := by
  refine ⟨fun text e he hpos => ⟨_, _, members_off he, members_rdfs hb he,
    members_mono subset_closure e hpos⟩, fun text q hq hl ho => ?_⟩
  have hkept : ∀ r ∈ (q.eval (b.queried s (v.reasoning .off))).rows,
      r ∈ (q.eval (b.queried s (v.reasoning .rdfs))).rows ↔ (q.distinct →
        (q.allRows (closure (b.graph s v)).matching).find? (fun x => rowKey x == rowKey r) =
          some r) := by
    intro r hr
    have hall : r ∈ q.allRows (b.queried s (v.reasoning .rdfs)) :=
      allRows_mono (fun _ => queried_subset) ((mem_rows_eval hl ho).1 hr).1
    rw [mem_rows_eval hl ho, and_iff_right hall]
    rfl
  refine ⟨_, _, query_reasoning hq, query_reasoning hq, rfl, hkept, fun h r hr => ?_⟩
  refine (hkept r hr).2 fun hd => ?_
  rcases h with h | hlegible
  · rw [h] at hd
    cases hd
  · have hall : r ∈ q.allRows (closure (b.graph s v)).matching :=
      allRows_mono (fun _ => queried_subset) ((mem_rows_eval hl ho).1 hr).1
    exact find?_rowKey (legibleGraph_closure hlegible) hall

/-! ### Two rows with one key -/

/-- Rows of one key: the text of a term ends where its key goes on. -/
def crossingText : String :=
  "@prefix p: <urn:> .\n" ++
  "p:a\\>\\\x1f\\<urn:b p:k p:c .\n" ++
  "p:a p:k p:c .\n" ++
  "p:a p:q p:b\\>\\\x1f\\<urn:c .\n" ++
  "p:a\\>\\\x1f\\<urn:b p:r p:c .\n" ++
  "p:r rdfs:subPropertyOf p:q .\n"

def crossingTriples : List Triple :=
  [⟨.iri "urn:a>\x1f<urn:b", .iri "urn:k", .iri "urn:c"⟩,
    ⟨.iri "urn:a", .iri "urn:k", .iri "urn:c"⟩,
    ⟨.iri "urn:a", .iri "urn:q", .iri "urn:b>\x1f<urn:c"⟩,
    ⟨.iri "urn:a>\x1f<urn:b", .iri "urn:r", .iri "urn:c"⟩,
    ⟨.iri "urn:r", .iri Vocabulary.rdfsSubPropertyOf, .iri "urn:q"⟩]

def crossingSettings : Config.Settings :=
  { Config.Settings.default "" with background := "crossing.ttl" }

def crossingTree : Files.Tree := ⟨[(["crossing.ttl"], .file crossingText)]⟩

/-- The built-in classes alone. -/
def crossingTable : Program.ClassTable :=
  ⟨[Program.listInfo, Program.entryInfo], [], some (.skip 0)⟩

def crossingCore : Graph :=
  .ofList (coreTriples fun n => (crossingSettings.prefixes.find? n).getD "")

def crossingBase : Base :=
  ⟨crossingSettings.prefixes, crossingSettings.domain,
    .plain crossingTable crossingSettings.namespaces, crossingCore, .ofList crossingTriples,
    some .schema, none, crossingTree⟩

lemma core_crossing : coreGraph crossingSettings.prefixes = .ok crossingCore := by
  refine coreGraph_eq (core_eq ?_)
  decide +kernel

lemma background_crossing : readBackground crossingSettings.prefixes crossingTree
    crossingSettings.background = .ok (.ofList crossingTriples) := by
  obtain ⟨g, hread, htriples⟩ := exists_ok_of_any
    (x := readBackground crossingSettings.prefixes crossingTree crossingSettings.background)
    (p := fun g => g.triples = (Graph.ofList crossingTriples).triples) (by decide +kernel)
  rw [hread, Rdf.Graph.ext (of_decide_eq_true htriples)]

lemma load_crossing :
    Base.load crossingTable crossingSettings crossingTree = .ok crossingBase := by
  have hexternal : externalReasoner crossingSettings = none := if_pos rfl
  refine load_eq_ok.2
    ⟨_, _, _, Lift.Lifter.new_eq_plain rfl, core_crossing, background_crossing, ?_⟩
  rw [hexternal, crossingBase]

/-- The background alone. -/
def crossingView : View := { View.default with enabled := (· == .background) }

/-- The state before the first step. -/
def crossingState : State := (Run.Machine.load crossingTable crossingBase crossingView 0).state

def crossingQuery (keyword : String) : String :=
  "SELECT " ++ keyword ++ "?a ?b WHERE \x7b ?a <urn:k> <urn:c> . ?a <urn:q> ?b . \x7d"

/-- The explicit row, and the entailed one that comes before it. -/
def crossingRow : List (Option Term) := [some (.iri "urn:a"), some (.iri "urn:b>\x1f<urn:c")]
def entailedRow : List (Option Term) := [some (.iri "urn:a>\x1f<urn:b"), some (.iri "urn:c")]

lemma parse_crossing (keyword : String) (distinct : Bool)
    (h : (Query.parse (crossingQuery keyword) crossingBase.prefixes).toOption.any fun q =>
      q.limit.isNone && q.offset.isNone && q.distinct == distinct) :
    ∃ q, Query.parse (crossingQuery keyword) crossingBase.prefixes = .ok q ∧
      q.limit = none ∧ q.offset = none ∧ q.distinct = distinct := by
  obtain ⟨q, hq, hfree⟩ := exists_ok_of_any h
  simp only [Bool.and_eq_true, Option.isNone_iff_eq_none, beq_iff_eq, and_assoc] at hfree
  exact ⟨q, hq, hfree⟩

/-- Where repeated rows are kept, the entailed row joins the explicit one. -/
theorem reasoning_adds_crossing : crossingBase.rdfs = some .schema ∧
    ∃ explicit entailed : Table,
      crossingBase.query crossingState (crossingView.reasoning .off) (crossingQuery "") =
        .ok explicit ∧
      crossingBase.query crossingState (crossingView.reasoning .rdfs) (crossingQuery "") =
        .ok entailed ∧
      explicit.rows = [crossingRow] ∧ entailed.rows = [entailedRow, crossingRow] ∧
      explicit.rows ⊆ entailed.rows := by
  obtain ⟨q, hq, hlimit, hoffset, hdistinct⟩ :=
    parse_crossing "" false (by decide +kernel)
  obtain ⟨explicit, entailed, hoff, hrdfs, -, -, hsubset⟩ :=
    (reasoning_adds (b := crossingBase) (s := crossingState) (v := crossingView) rfl).2
      _ q hq hlimit hoffset
  have hexplicit := any_of_ok (p := fun t => t.rows = [crossingRow]) hoff (by decide +kernel)
  have hentailed := any_of_ok (p := fun t => t.rows = [entailedRow, crossingRow]) hrdfs
    (by decide +kernel)
  exact ⟨rfl, explicit, entailed, hoff, hrdfs, of_decide_eq_true hexplicit,
    of_decide_eq_true hentailed, hsubset (.inl hdistinct)⟩

/-- **A row is lost to reasoning** where repeated rows are dropped: an entailed row has its key. -/
theorem exists_row_lost : ∃ (b : Base) (s : State) (v : View) (text : String) (q : Select)
    (explicit entailed : Table),
    Base.load crossingTable crossingSettings crossingTree = .ok b ∧
      Query.parse text b.prefixes = .ok q ∧ q.limit = none ∧ q.offset = none ∧
      b.query s (v.reasoning .off) text = .ok explicit ∧
      b.query s (v.reasoning .rdfs) text = .ok entailed ∧
      ¬ explicit.rows ⊆ entailed.rows := by
  obtain ⟨q, hq, hlimit, hoffset, -⟩ :=
    parse_crossing "DISTINCT " true (by decide +kernel)
  obtain ⟨explicit, hoff, hexplicit⟩ := exists_ok_of_any
    (x := crossingBase.query crossingState (crossingView.reasoning .off)
      (crossingQuery "DISTINCT ")) (p := fun t => t.rows = [crossingRow]) (by decide +kernel)
  obtain ⟨entailed, hrdfs, hentailed⟩ := exists_ok_of_any
    (x := crossingBase.query crossingState (crossingView.reasoning .rdfs)
      (crossingQuery "DISTINCT ")) (p := fun t => t.rows = [entailedRow]) (by decide +kernel)
  refine ⟨crossingBase, crossingState, crossingView, _, q, explicit, entailed, load_crossing, hq,
    hlimit, hoffset, hoff, hrdfs, ?_⟩
  rw [of_decide_eq_true hexplicit, of_decide_eq_true hentailed]
  decide

end Base

end Semlift.Knowledge
