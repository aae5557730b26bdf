import Semlift.Proofs.Query.Distinct
import Semlift.Proofs.Query.Join
import Semlift.Proofs.Query.Sorting

/-!
Queries of a larger source. What a source answers to a pattern, a larger source answers too, so it
has all solutions that the smaller one has: the join asks for triples only, and a filter looks at
one solution alone. Of the rows with one key only the first is shown where repeated rows are dropped,
and a larger source may put another row in front.
-/

namespace Semlift.Query

open Semlift.Rdf

variable {S T : Source} {ps : List Pattern} {p : Pattern} {b : Binding} {q : Select} {r : Cells}
  {g : Graph} {x : Triple} {t : Term} {σ : Assignment} {name : String}

/-- The rows of the solutions in their order, before repeated rows are dropped. -/
def Select.allRows (q : Select) (S : Source) : List Cells := (q.solutions S).map (row q.columns)

lemma extend_mono (h : ∀ p, S p ⊆ T p) : p.extend S b ⊆ p.extend T b := by
  intro c hc
  obtain ⟨x, hx, hbind⟩ := List.mem_filterMap.1 hc
  exact List.mem_filterMap.2 ⟨x, h _ hx, hbind⟩

lemma join_mono (h : ∀ p, S p ⊆ T p) : join S ps ⊆ join T ps := by
  induction ps using List.reverseRecOn with
  | nil => exact fun _ hb => hb
  | append_singleton ps p ih =>
    rw [join_concat, join_concat]
    intro c hc
    obtain ⟨b, hb, hext⟩ := List.mem_flatMap.1 hc
    exact List.mem_flatMap.2 ⟨b, ih hb, extend_mono h hext⟩

/-- Sorting changes no solution. -/
lemma mem_solutions :
    b ∈ q.solutions S ↔ b ∈ join S q.patterns ∧ ∀ e ∈ q.filters, e.keeps b := by
  have hkept : b ∈ (join S q.patterns).filter (fun b => q.filters.all (·.keeps b)) ↔
      b ∈ join S q.patterns ∧ ∀ e ∈ q.filters, e.keeps b := by simp
  unfold Select.solutions
  dsimp only
  split
  · exact hkept
  · rw [(Sorting.stable_perm _).mem_iff]
    exact hkept

lemma solutions_mono (h : ∀ p, S p ⊆ T p) : q.solutions S ⊆ q.solutions T := by
  intro b hb
  obtain ⟨hjoin, hfilters⟩ := mem_solutions.1 hb
  exact mem_solutions.2 ⟨join_mono h hjoin, hfilters⟩

lemma allRows_mono (h : ∀ p, S p ⊆ T p) : q.allRows S ⊆ q.allRows T :=
  List.map_subset _ (solutions_mono h)

/-- **Rows that are shown** without an offset and a limit: all of them, or the first with each
key. -/
theorem mem_rows_eval (hl : q.limit = none) (ho : q.offset = none) :
    r ∈ (q.eval S).rows ↔ r ∈ q.allRows S ∧
      (q.distinct → (q.allRows S).find? (fun x => rowKey x == rowKey r) = some r) := by
  have hrows : (q.eval S).rows =
      if q.distinct then dropRepeated (q.allRows S) else q.allRows S := by
    simp [Select.eval, Select.cut, hl, ho, Select.allRows]
  rw [hrows]
  split
  · rename_i hd
    rw [mem_dropRepeated]
    exact ⟨fun hf => ⟨List.mem_of_find?_eq_some hf, fun _ => hf⟩, fun hr => hr.2 hd⟩
  · rename_i hd
    exact ⟨fun hr => ⟨hr, fun hd' => absurd hd' hd⟩, And.left⟩

/-! ### Legible rows -/

/-- The triples of a graph have terms that can be told from their texts. -/
def LegibleGraph (g : Graph) : Prop :=
  ∀ x ∈ g.triples, x.subject.Legible ∧ x.predicate.Legible ∧ x.object.Legible

instance : Decidable (LegibleGraph g) :=
  inferInstanceAs (Decidable (∀ x ∈ g.triples, _ ∧ _ ∧ _))

lemma Pattern.mem_of_under (hp : p.under σ = some x) (hn : name ∈ p.names) (ht : σ name = some t) :
    t = x.subject ∨ t = x.predicate ∨ t = x.object := by
  have key : ∀ {n : Node} {u : Term}, n.under σ = some u → name ∈ n.names → t = u := by
    intro n u hn hm
    cases n with
    | term => simp [Node.names] at hm
    | var other =>
      obtain rfl := List.mem_singleton.1 hm
      exact Option.some.inj (ht.symm.trans hn)
  rw [under_eq_some] at hp
  simp only [names, nodes, List.mem_flatMap, List.mem_cons, List.not_mem_nil, or_false] at hn
  obtain ⟨n, rfl | rfl | rfl, hm⟩ := hn
  · exact .inl (key hp.1 hm)
  · exact .inr (.inl (key hp.2.1 hm))
  · exact .inr (.inr (key hp.2.2 hm))

lemma legible_of_mem_allRows (hg : LegibleGraph g) (hr : r ∈ q.allRows g.matching) : Legible r := by
  obtain ⟨b, hb, rfl⟩ := List.mem_map.1 hr
  have hsolves : Solves g q.patterns b.find? := solves_of_mem_join (mem_solutions.1 hb).1
  intro c hc t ht
  obtain ⟨name, -, rfl⟩ := List.mem_map.1 hc
  obtain ⟨p, hp, hname⟩ := hsolves.names name (Option.isSome_of_eq_some ht)
  obtain ⟨x, hx, hunder⟩ := hsolves.holds p hp
  obtain ⟨hs, hpred, ho⟩ := hg x hx
  rcases Pattern.mem_of_under hunder hname ht with rfl | rfl | rfl
  · exact hs
  · exact hpred
  · exact ho

lemma length_of_mem_allRows (hr : r ∈ q.allRows S) : r.length = q.columns.length := by
  obtain ⟨b, -, rfl⟩ := List.mem_map.1 hr
  simp [row]

/-- Of legible rows each is the first with its key. -/
lemma find?_rowKey (hg : LegibleGraph g) (hr : r ∈ q.allRows g.matching) :
    (q.allRows g.matching).find? (fun x => rowKey x == rowKey r) = some r := by
  cases hfind : (q.allRows g.matching).find? (fun x => rowKey x == rowKey r) with
  | none => simpa using List.find?_eq_none.1 hfind r hr
  | some y =>
    have hy : y ∈ q.allRows g.matching := List.mem_of_find?_eq_some hfind
    have hkey : rowKey y = rowKey r := by simpa using List.find?_some hfind
    have hlen : y.length = r.length :=
      (length_of_mem_allRows hy).trans (length_of_mem_allRows hr).symm
    rw [rowKey_inj (legible_of_mem_allRows hg hy) (legible_of_mem_allRows hg hr) hlen hkey]

end Semlift.Query
