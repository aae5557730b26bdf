import Mathlib.Data.List.Basic
import Semlift.Proofs.Rdf.Snapshot
import Semlift.Query.Eval

/-!
The join of triple patterns. The solutions of a query are the assignments of its variables under
which every pattern is a triple of the graph: each of them comes once, and they are ordered by the
places of the matched triples, those of the first pattern first. So the order in which the patterns
are written decides about the order of the rows only.
-/

namespace Semlift.Query

open Semlift.Rdf

/-- What the variables stand for, however they came to be bound. -/
abbrev Assignment := String → Option Term

/-- The term of a position under an assignment. -/
def Node.under (σ : Assignment) : Node → Option Term
  | .term t => some t
  | .var name => σ name

/-- The triple that a pattern is under an assignment of its variables. -/
def Pattern.under (σ : Assignment) (p : Pattern) : Option Triple := do
  return ⟨← p.subject.under σ, ← p.predicate.under σ, ← p.object.under σ⟩

def Node.names : Node → List String
  | .term _ => []
  | .var name => [name]

/-- The variables of a pattern, with those that stand for blank nodes. -/
def Pattern.names (p : Pattern) : List String := p.nodes.flatMap Node.names

/-- An assignment of the variables of the patterns, and of no others, under which every pattern is a
triple of the graph. -/
structure Solves (g : Graph) (ps : List Pattern) (σ : Assignment) : Prop where
  holds : ∀ p ∈ ps, ∃ t ∈ g.triples, p.under σ = some t
  names : ∀ name, (σ name).isSome → ∃ p ∈ ps, name ∈ p.names

/-- The triples that the patterns match, in the order of the patterns. -/
def matched (ps : List Pattern) (σ : Assignment) : List Triple := ps.filterMap (·.under σ)

/-- Their places in the graph. -/
def places (g : Graph) (ps : List Pattern) (σ : Assignment) : List Nat :=
  (matched ps σ).map (g.triples.idxOf ·)

/-- A query that is its patterns and what is shown of them. -/
structure Select.Plain (q : Select) : Prop where
  distinct : q.distinct = false
  filters : q.filters = []
  order : q.order = []
  limit : q.limit = none
  offset : q.offset = none

/-- The solutions of a query in a graph. -/
def Select.assignments (q : Select) (g : Graph) : List Assignment :=
  (q.solutions g.matching).map Binding.find?

/-- The query with other patterns. -/
def Select.withPatterns (q : Select) (ps : List Pattern) : Select := { q with patterns := ps }

/-- The cell of a row in the column of a name. -/
def Table.cell (t : Table) (row : List (Option Term)) : Assignment := fun name => do
  (row[← t.columns.findIdx? (· == name)]?).join

/-- What the rows assign to the names of the columns. -/
def Table.shown (t : Table) : List Assignment := t.rows.map t.cell

/-- What is assigned by the first is assigned alike by the second. -/
def Below (σ τ : Assignment) : Prop := ∀ name t, σ name = some t → τ name = some t

variable {g : Graph} {ps qs : List Pattern} {p : Pattern} {n : Node} {b b' : Binding} {t u : Term}
  {x y : Triple} {σ τ : Assignment} {name : String} {q : Select}

/-! ### Assignments -/

lemma Below.trans {ρ : Assignment} (h : Below σ τ) (h' : Below τ ρ) : Below σ ρ :=
  fun name t ht => h' name t (h name t ht)

lemma Below.under (h : Below σ τ) (hn : n.under σ = some t) : n.under τ = some t := by
  cases n with
  | term => exact hn
  | var name => exact h name t hn

lemma Pattern.under_eq_some : p.under σ = some x ↔ p.subject.under σ = some x.subject ∧
    p.predicate.under σ = some x.predicate ∧ p.object.under σ = some x.object := by
  cases x
  unfold Pattern.under
  cases p.subject.under σ <;> cases p.predicate.under σ <;> cases p.object.under σ <;> simp

lemma Pattern.under_of_below (h : Below σ τ) (hp : p.under σ = some x) : p.under τ = some x := by
  rw [under_eq_some] at hp ⊢
  exact ⟨h.under hp.1, h.under hp.2.1, h.under hp.2.2⟩

/-- Only an assigned variable keeps a pattern from being a triple. -/
lemma Pattern.isSome_of_under (hp : p.under σ = some x) (hn : name ∈ p.names) :
    (σ name).isSome := by
  have key : ∀ {m : Node} {t : Term}, m.under σ = some t → name ∈ m.names → (σ name).isSome := by
    intro m t hm hn
    cases m with
    | term => simp [Node.names] at hn
    | var other =>
      rw [List.mem_singleton.1 hn]
      exact Option.isSome_of_eq_some hm
  rw [under_eq_some] at hp
  simp only [names, nodes, List.mem_flatMap, List.mem_cons, List.not_mem_nil, or_false] at hn
  obtain ⟨m, rfl | rfl | rfl, hm⟩ := hn
  · exact key hp.1 hm
  · exact key hp.2.1 hm
  · exact key hp.2.2 hm

/-- Two solutions of the same patterns assign the same variables. -/
lemma Solves.eq_of_below (hσ : Solves g ps σ) (hτ : Solves g ps τ) (h : Below σ τ) : σ = τ := by
  funext name
  cases hs : σ name with
  | some t => exact (h name t hs).symm
  | none =>
    cases ht : τ name with
    | none => rfl
    | some t =>
      obtain ⟨p, hp, hn⟩ := hτ.names name (by simp [ht])
      obtain ⟨x, -, hx⟩ := hσ.holds p hp
      have := Pattern.isSome_of_under hx hn
      simp [hs] at this

lemma solves_perm (h : ps.Perm qs) : Solves g ps σ ↔ Solves g qs σ :=
  ⟨fun hs => ⟨fun p hp => hs.holds p (h.mem_iff.2 hp), fun name hn =>
      (hs.names name hn).imp fun _ hp => ⟨h.mem_iff.1 hp.1, hp.2⟩⟩,
    fun hs => ⟨fun p hp => hs.holds p (h.mem_iff.1 hp), fun name hn =>
      (hs.names name hn).imp fun _ hp => ⟨h.mem_iff.2 hp.1, hp.2⟩⟩⟩

/-! ### Binding one position -/

lemma Binding.find?_concat : Binding.find? (b ++ [(name, t)]) =
    fun other => (b.find? other).or (if name = other then some t else none) := by
  funext other
  simp only [Binding.find?, List.find?_append]
  cases List.find? (fun e => e.1 == other) b with
  | some e => rfl
  | none => by_cases h : name = other <;> simp [h]

/-- A position binds its variable to the term, and nothing else. -/
lemma Node.bind?_eq_some (h : n.bind? t b = some b') (hn : ∀ u, n = .term u → u = t) :
    Below b.find? b'.find? ∧ n.under b'.find? = some t ∧
      ∀ name, (b'.find? name).isSome → (b.find? name).isSome ∨ name ∈ n.names := by
  cases n with
  | term u =>
    cases h
    exact ⟨fun _ _ h => h, by rw [Node.under, hn u rfl], fun _ h => .inl h⟩
  | var name =>
    simp only [Node.bind?] at h
    split at h
    · rename_i hnone
      cases h
      refine ⟨fun other u hu => ?_, ?_, fun other hother => ?_⟩
      · simp [Binding.find?_concat, hu]
      · simp [Node.under, Binding.find?_concat, hnone]
      · rw [Binding.find?_concat] at hother
        by_cases he : name = other
        · exact .inr (by simp [Node.names, he])
        · exact .inl (by simpa [he] using hother)
    · rename_i old hold
      split at h
      · rename_i he
        cases h
        exact ⟨fun _ _ h => h, by rw [Node.under, hold, he], fun _ h => .inl h⟩
      · cases h

/-- Below an assignment under which the position is the term, it can be bound to it. -/
lemma Node.bind?_of_under (hn : n.under σ = some t) (hb : Below b.find? σ) :
    ∃ b', n.bind? t b = some b' ∧ Below b'.find? σ := by
  cases n with
  | term u => exact ⟨b, rfl, hb⟩
  | var name =>
    cases hf : b.find? name with
    | some old =>
      have he : old = t := Option.some.inj ((hb name old hf).symm.trans hn)
      exact ⟨b, by simp [Node.bind?, hf, he], hb⟩
    | none =>
      refine ⟨b ++ [(name, t)], by simp [Node.bind?, hf], fun other u hu => ?_⟩
      rw [Binding.find?_concat] at hu
      cases ho : b.find? other with
      | some v => exact hb other u (by simpa [ho] using hu)
      | none =>
        by_cases he : name = other
        · have htu : t = u := by simpa [ho, he] using hu
          exact he ▸ htu ▸ hn
        · simp [ho, he] at hu

lemma Node.fits_of_under (hn : n.under σ = some t) (hb : Below b.find? σ) :
    TriplePattern.fits (n.resolve b) t = true := by
  cases n with
  | term u =>
    cases hn
    simp [Node.resolve, TriplePattern.fits]
  | var name =>
    cases hf : b.find? name with
    | none => simp [Node.resolve, TriplePattern.fits, hf]
    | some old =>
      have he : old = t := Option.some.inj ((hb name old hf).symm.trans hn)
      simp [Node.resolve, TriplePattern.fits, hf, he]

lemma Node.eq_of_fits (hf : TriplePattern.fits (n.resolve b) t = true) (hn : n = .term u) :
    u = t := by
  rw [hn] at hf
  simpa [Node.resolve, TriplePattern.fits] using hf

/-! ### Binding a pattern -/

/-- **An extension** of a binding makes the pattern the triple that it comes from. -/
lemma Pattern.bind?_eq_some (h : p.bind? b x = some b') (hc : (p.resolve b).covers x = true) :
    Below b.find? b'.find? ∧ p.under b'.find? = some x ∧
      ∀ name, (b'.find? name).isSome → (b.find? name).isSome ∨ name ∈ p.names := by
  simp only [TriplePattern.covers, Pattern.resolve, Bool.and_eq_true] at hc
  obtain ⟨⟨hs, hp⟩, ho⟩ := hc
  simp only [Pattern.bind?, Option.bind_eq_bind, Option.bind_eq_some_iff] at h
  obtain ⟨b₁, h₁, b₂, h₂, h₃⟩ := h
  obtain ⟨hb₁, hu₁, hn₁⟩ := Node.bind?_eq_some h₁ fun _ => Node.eq_of_fits hs
  obtain ⟨hb₂, hu₂, hn₂⟩ := Node.bind?_eq_some h₂ fun _ => Node.eq_of_fits hp
  obtain ⟨hb₃, hu₃, hn₃⟩ := Node.bind?_eq_some h₃ fun _ => Node.eq_of_fits ho
  refine ⟨hb₁.trans (hb₂.trans hb₃), ?_, fun name hname => ?_⟩
  · exact under_eq_some.2 ⟨(hb₂.trans hb₃).under hu₁, hb₃.under hu₂, hu₃⟩
  · simp only [names, nodes, List.flatMap_cons, List.flatMap_nil, List.append_nil,
      List.mem_append]
    have h3 := hn₃ name hname
    have h2 := hn₂ name
    have h1 := hn₁ name
    tauto

lemma Pattern.bind?_of_under (hp : p.under σ = some x) (hb : Below b.find? σ) :
    (p.resolve b).covers x = true ∧ ∃ b', p.bind? b x = some b' ∧ Below b'.find? σ := by
  obtain ⟨hs, hp, ho⟩ := under_eq_some.1 hp
  obtain ⟨b₁, h₁, hb₁⟩ := Node.bind?_of_under hs hb
  obtain ⟨b₂, h₂, hb₂⟩ := Node.bind?_of_under hp hb₁
  obtain ⟨b₃, h₃, hb₃⟩ := Node.bind?_of_under ho hb₂
  refine ⟨?_, b₃, by simp [Pattern.bind?, h₁, h₂, h₃], hb₃⟩
  simp [TriplePattern.covers, Pattern.resolve, Node.fits_of_under hs hb, Node.fits_of_under hp hb,
    Node.fits_of_under ho hb]

lemma Pattern.mem_extend : b' ∈ p.extend g.matching b ↔
    ∃ x ∈ g.triples, (p.resolve b).covers x = true ∧ p.bind? b x = some b' := by
  simp [Pattern.extend, Graph.matching_eq_filter, and_assoc]

/-! ### The join -/

lemma join_concat {source : Source} :
    join source (ps ++ [p]) = (join source ps).flatMap (p.extend source) := by
  simp [join]

lemma matched_concat (hp : p.under σ = some x) : matched (ps ++ [p]) σ = matched ps σ ++ [x] := by
  simp [matched, hp]

/-- What is matched does not change when more is assigned. -/
lemma Solves.matched_eq (hσ : Solves g ps σ) (h : Below σ τ) : matched ps τ = matched ps σ := by
  refine List.filterMap_congr fun p hp => ?_
  obtain ⟨x, -, hx⟩ := hσ.holds p hp
  rw [hx, Pattern.under_of_below h hx]

lemma Solves.length_matched (hσ : Solves g ps σ) : (matched ps σ).length = ps.length := by
  refine List.filterMap_length_eq_length.2 fun p hp => ?_
  obtain ⟨x, -, hx⟩ := hσ.holds p hp
  exact Option.isSome_of_eq_some hx

/-- One more pattern extends a solution by what it matches. -/
lemma solves_extend (hb : Solves g ps b.find?) (h : b' ∈ p.extend g.matching b) :
    Solves g (ps ++ [p]) b'.find? ∧
      ∃ x ∈ g.triples, p.bind? b x = some b' ∧
        matched (ps ++ [p]) b'.find? = matched ps b.find? ++ [x] := by
  obtain ⟨x, hx, hc, hbind⟩ := Pattern.mem_extend.1 h
  obtain ⟨hbelow, hunder, hnames⟩ := Pattern.bind?_eq_some hbind hc
  refine ⟨⟨fun r hr => ?_, fun name hname => ?_⟩, x, hx, hbind, ?_⟩
  · rcases List.mem_append.1 hr with hr | hr
    · obtain ⟨y, hy, hyr⟩ := hb.holds r hr
      exact ⟨y, hy, Pattern.under_of_below hbelow hyr⟩
    · rw [List.mem_singleton.1 hr]
      exact ⟨x, hx, hunder⟩
  · rcases hnames name hname with hold | hnew
    · obtain ⟨r, hr, hn⟩ := hb.names name hold
      exact ⟨r, List.mem_append_left _ hr, hn⟩
    · exact ⟨p, by simp, hnew⟩
  · rw [matched_concat hunder, hb.matched_eq hbelow]

/-- **Every binding of the join is a solution.** -/
lemma solves_of_mem_join (h : b ∈ join g.matching ps) : Solves g ps b.find? := by
  induction ps using List.reverseRecOn generalizing b with
  | nil =>
    rw [join, List.foldl_nil, List.mem_singleton] at h
    subst h
    exact ⟨by simp, by simp [Binding.find?]⟩
  | append_singleton ps p ih =>
    rw [join_concat, List.mem_flatMap] at h
    obtain ⟨a, ha, hb⟩ := h
    exact (solves_extend (ih ha) hb).1

/-- **Every solution is above a binding of the join.** -/
lemma exists_mem_join (h : ∀ p ∈ ps, ∃ x ∈ g.triples, p.under σ = some x) :
    ∃ b ∈ join g.matching ps, Below b.find? σ := by
  induction ps using List.reverseRecOn with
  | nil => exact ⟨[], by simp [join], by simp [Below, Binding.find?]⟩
  | append_singleton ps p ih =>
    obtain ⟨b, hb, hbelow⟩ := ih fun r hr => h r (List.mem_append_left _ hr)
    obtain ⟨x, hx, hp⟩ := h p (by simp)
    obtain ⟨hc, b', hbind, hbelow'⟩ := Pattern.bind?_of_under hp hbelow
    rw [join_concat]
    exact ⟨b', List.mem_flatMap.2 ⟨b, hb, Pattern.mem_extend.2 ⟨x, hx, hc, hbind⟩⟩, hbelow'⟩

/-! ### The order of the solutions -/

lemma append_lt_append {l m l' m' : List Nat} (h : l < m) (hl : l.length = m.length) :
    l ++ l' < m ++ m' := by
  induction l generalizing m with
  | nil =>
    rw [List.eq_nil_of_length_eq_zero hl.symm] at h
    exact absurd h (List.lt_irrefl _)
  | cons a l ih =>
    cases m with
    | nil => simp at hl
    | cons b m =>
      rw [List.cons_lt_cons_iff] at h
      rw [List.cons_append, List.cons_append, List.cons_lt_cons_iff]
      exact h.imp_right fun h => ⟨h.1, ih h.2 (by simpa using hl)⟩

lemma pairwise_idxOf (g : Graph) :
    g.triples.Pairwise fun x y => g.triples.idxOf x < g.triples.idxOf y := by
  refine List.pairwise_iff_getElem.2 fun i j hi hj hij => ?_
  rwa [g.nodup.idxOf_getElem i hi, g.nodup.idxOf_getElem j hj]

/-- The extensions of one binding follow the triples that they come from. -/
lemma pairwise_extend (hb : Solves g ps b.find?) : (p.extend g.matching b).Pairwise fun a a' =>
    places g (ps ++ [p]) a.find? < places g (ps ++ [p]) a'.find? := by
  unfold Pattern.extend
  rw [Graph.matching_eq_filter, List.pairwise_filterMap]
  refine ((pairwise_idxOf g).sublist List.filter_sublist).imp_of_mem ?_
  intro x y hx hy hlt a ha a' ha'
  have key : ∀ {z : Triple} {c : Binding}, z ∈ g.triples.filter (p.resolve b).covers →
      p.bind? b z = some c →
      places g (ps ++ [p]) c.find? = places g ps b.find? ++ [g.triples.idxOf z] := by
    intro z c hz hc
    obtain ⟨hz, hcovers⟩ := List.mem_filter.1 hz
    obtain ⟨hbelow, hunder, -⟩ := Pattern.bind?_eq_some hc hcovers
    rw [places, matched_concat hunder, hb.matched_eq hbelow, List.map_append]
    rfl
  rw [key hx ha, key hy ha']
  exact List.append_left_lt (List.cons_lt_cons_iff.2 (.inl hlt))

/-- **The join is ordered** by the places of the matched triples. -/
lemma pairwise_join : (join g.matching ps).Pairwise fun b b' =>
    places g ps b.find? < places g ps b'.find? := by
  induction ps using List.reverseRecOn with
  | nil => simp [join]
  | append_singleton ps p ih =>
    rw [join_concat, List.pairwise_flatMap]
    refine ⟨fun b hb => pairwise_extend (solves_of_mem_join hb), ih.imp_of_mem ?_⟩
    -- extensions of two bindings are ordered as the bindings are
    intro b c hb hc hlt b' hb' c' hc'
    have hsb := solves_of_mem_join hb
    have hsc := solves_of_mem_join hc
    obtain ⟨-, x, -, -, hmb⟩ := solves_extend hsb hb'
    obtain ⟨-, y, -, -, hmc⟩ := solves_extend hsc hc'
    simp only [places, hmb, hmc, List.map_append]
    refine append_lt_append hlt ?_
    simp only [List.length_map, hsb.length_matched, hsc.length_matched]

/-! ### Plain queries -/

lemma Select.Plain.solutions (hq : q.Plain) {source : Source} :
    q.solutions source = join source q.patterns := by
  simp [Select.solutions, hq.filters, hq.order]

lemma Select.Plain.rows (hq : q.Plain) :
    (q.eval g.matching).rows = (q.assignments g).map fun σ => q.columns.map σ := by
  simp only [Select.eval, Select.cut, hq.distinct, hq.offset, hq.limit, Select.assignments,
    List.map_map, Bool.false_eq_true, if_false, Option.getD_none, List.drop_zero]
  rfl

lemma Select.Plain.mem_assignments (hq : q.Plain) :
    σ ∈ q.assignments g ↔ Solves g q.patterns σ := by
  simp only [assignments, hq.solutions, List.mem_map]
  constructor
  · rintro ⟨b, hb, rfl⟩
    exact solves_of_mem_join hb
  · intro hσ
    obtain ⟨b, hb, hbelow⟩ := exists_mem_join hσ.holds
    exact ⟨b, hb, (solves_of_mem_join hb).eq_of_below hσ hbelow⟩

lemma Select.Plain.pairwise_assignments (hq : q.Plain) :
    (q.assignments g).Pairwise fun σ τ => places g q.patterns σ < places g q.patterns τ := by
  rw [assignments, hq.solutions, List.pairwise_map]
  exact pairwise_join

lemma Select.Plain.nodup_assignments (hq : q.Plain) : (q.assignments g).Nodup :=
  List.nodup_iff_pairwise_ne.2 <| hq.pairwise_assignments.imp fun {σ τ} hlt he => by
    rw [he] at hlt
    exact List.lt_irrefl _ hlt

lemma Select.Plain.withPatterns (hq : q.Plain) (ps : List Pattern) : (q.withPatterns ps).Plain :=
  ⟨hq.distinct, hq.filters, hq.order, hq.limit, hq.offset⟩

lemma Select.Plain.assignments_perm (hq : q.Plain) (h : ps.Perm q.patterns) :
    ((q.withPatterns ps).assignments g).Perm (q.assignments g) := by
  rw [List.perm_ext_iff_of_nodup (hq.withPatterns ps).nodup_assignments hq.nodup_assignments]
  intro σ
  rw [(hq.withPatterns ps).mem_assignments, hq.mem_assignments]
  exact solves_perm h

/-! ### Columns -/

lemma shownNames_eq : q.shownNames =
    (q.patterns.flatMap fun p => p.nodes.filterMap Node.shown?).eraseDups := by
  unfold Select.shownNames
  generalize (q.patterns.flatMap fun p => p.nodes.filterMap Node.shown?) = names
  induction names using List.reverseRecOn with
  | nil => rfl
  | append_singleton names name ih =>
    rw [List.foldl_concat, eraseDups_concat, ih]
    simp

/-- Permuted patterns show the same variables. -/
lemma columns_perm (h : ps.Perm q.patterns) :
    (q.withPatterns ps).columns.Perm q.columns := by
  unfold Select.columns Select.withPatterns
  cases q.projection with
  | these names => exact .refl _
  | all =>
    simp only [shownNames_eq]
    rw [List.perm_ext_iff_of_nodup (nodup_eraseDups _) (nodup_eraseDups _)]
    intro name
    simp only [List.mem_eraseDups]
    exact (h.flatMap_right _).mem_iff

/-- A row that shows an assignment has its terms in the columns of their names. -/
lemma Table.cell_map {t : Table} :
    t.cell (t.columns.map σ) name = if name ∈ t.columns then σ name else none := by
  unfold Table.cell
  cases hi : t.columns.findIdx? (· == name) with
  | none =>
    have hn : name ∉ t.columns := fun hm => by
      simpa using List.findIdx?_eq_none_iff.1 hi name hm
    simp [hn]
  | some i =>
    obtain ⟨hlt, he, -⟩ := List.findIdx?_eq_some_iff_getElem.1 hi
    have he : t.columns[i] = name := by simpa using he
    have hn : name ∈ t.columns := he ▸ List.getElem_mem hlt
    simp [hn, hlt, he]

lemma Select.Plain.shown_eval (hq : q.Plain) : (q.eval g.matching).shown =
    (q.assignments g).map fun σ name => if name ∈ q.columns then σ name else none := by
  rw [Table.shown, hq.rows, List.map_map]
  refine List.map_congr_left fun σ _ => funext fun name => ?_
  exact Table.cell_map (t := q.eval g.matching)

lemma Select.Plain.shown_perm (hq : q.Plain) (h : ps.Perm q.patterns) :
    ((q.withPatterns ps).eval g.matching).shown.Perm (q.eval g.matching).shown := by
  rw [(hq.withPatterns ps).shown_eval, hq.shown_eval]
  simp only [(columns_perm h).mem_iff]
  exact (hq.assignments_perm h).map _

/-- **The solutions of a query** are exactly the assignments of the variables under which every
pattern is a triple of the graph. Each comes once, in the order of the places of the triples that
the first pattern matches, then the second, and gives one row. With its patterns in another order a
query has the same solutions, the same columns and the same rows, in another order. -/
theorem solutions_exact (hq : q.Plain) :
    (∀ σ, σ ∈ q.assignments g ↔ Solves g q.patterns σ) ∧ (q.assignments g).Nodup ∧
      (q.assignments g).Pairwise
        (fun σ τ => places g q.patterns σ < places g q.patterns τ) ∧
      (q.eval g.matching).rows = (q.assignments g).map (fun σ => q.columns.map σ) ∧
      ∀ ps, ps.Perm q.patterns →
        ((q.withPatterns ps).assignments g).Perm (q.assignments g) ∧
          (q.withPatterns ps).columns.Perm q.columns ∧
          ((q.withPatterns ps).eval g.matching).shown.Perm (q.eval g.matching).shown :=
  ⟨fun _ => hq.mem_assignments, hq.nodup_assignments, hq.pairwise_assignments, hq.rows,
    fun _ hps => ⟨hq.assignments_perm hps, columns_perm hps, hq.shown_perm hps⟩⟩

/-- Ann likes herself and Ben, and Ben likes Ann. -/
def likings : Graph :=
  .ofList [⟨.iri "ann", .iri "likes", .iri "ann"⟩, ⟨.iri "ann", .iri "likes", .iri "ben"⟩,
    ⟨.iri "ben", .iri "likes", .iri "ann"⟩]

/-- Who likes someone, in whatever way, who likes themselves? -/
def admirers : Select :=
  ⟨false, .all, [⟨.var "who", .var "how", .var "whom"⟩, ⟨.var "whom", .var "how", .var "whom"⟩],
    [], [], none, none⟩

/-- Both like Ann. Asked the other way around the answer has its columns in another order. -/
theorem solutions_exact_admirers :
    admirers.Plain ∧ (admirers.eval likings.matching).rows =
        [[some (.iri "ann"), some (.iri "likes"), some (.iri "ann")],
          [some (.iri "ben"), some (.iri "likes"), some (.iri "ann")]] ∧
      (admirers.assignments likings).Nodup ∧
      (admirers.withPatterns admirers.patterns.reverse).columns = ["whom", "how", "who"] ∧
      ((admirers.withPatterns admirers.patterns.reverse).eval likings.matching).shown.Perm
        (admirers.eval likings.matching).shown := by
  have hq : admirers.Plain := ⟨rfl, rfl, rfl, rfl, rfl⟩
  obtain ⟨-, hnodup, -, -, hperm⟩ := solutions_exact hq (g := likings)
  exact ⟨hq, by decide +kernel, hnodup, by decide +kernel,
    (hperm _ (List.reverse_perm _)).2.2⟩

end Semlift.Query
