import Mathlib.Data.List.Induction
import Mathlib.Data.Option.Basic
import Mathlib.Tactic.Lemma
import Semlift.Rdf.Graph

/-!
Snapshots of sources. A graph keeps the first of equal triples, in order. So does a union, and
which of two equal triples goes does not depend on whether the triples are chosen by a pattern
before or after: a source that answers by choosing can be joined as its snapshot just as well.

Whatever triples, lists of triples and graphs are added to a graph one after the other, it lists
what was added without repetitions, in the order of first additions, and an addition is answered by
whether its triple is new. A pattern gets what a scan of that list would find, whichever of its
bound positions the index is asked for.
-/

namespace Semlift.Rdf

section FirstOccurrences

variable {α β : Type} [BEq α] [LawfulBEq α]

lemma eraseDups_concat (l : List α) (a : α) :
    (l ++ [a]).eraseDups = if a ∈ l then l.eraseDups else l.eraseDups ++ [a] := by
  by_cases h : a ∈ l <;> simp [List.eraseDups_append, List.removeAll, h, List.eraseDups_cons]

lemma filter_eraseDups (q : α → Bool) (l : List α) :
    (l.filter q).eraseDups = l.eraseDups.filter q := by
  induction l using List.reverseRecOn with
  | nil => rfl
  | append_singleton l a ih =>
    rw [List.filter_append, eraseDups_concat]
    by_cases hq : q a
    · rw [List.filter_cons_of_pos hq, List.filter_nil, eraseDups_concat, ih]
      by_cases ha : a ∈ l <;> simp [ha, hq]
    · rw [List.filter_cons_of_neg hq, List.filter_nil, List.append_nil, ih]
      by_cases ha : a ∈ l <;> simp [ha, hq]

lemma eraseDups_eraseDups (l : List α) : l.eraseDups.eraseDups = l.eraseDups := by
  induction l using List.reverseRecOn with
  | nil => rfl
  | append_singleton l a ih =>
    rw [eraseDups_concat]
    split
    · exact ih
    · rename_i ha
      rw [eraseDups_concat, if_neg (by simpa using ha), ih]

lemma nodup_eraseDups (l : List α) : l.eraseDups.Nodup := by
  induction l using List.reverseRecOn with
  | nil => exact .nil
  | append_singleton l a ih =>
    rw [eraseDups_concat]
    split
    · exact ih
    · rename_i ha
      refine List.nodup_append.2 ⟨ih, by simp, fun b hb c hc he => ha ?_⟩
      rw [List.mem_singleton.1 hc] at he
      exact List.mem_eraseDups.1 (he ▸ hb)

lemma eraseDups_of_nodup {l : List α} (h : l.Nodup) : l.eraseDups = l := by
  induction l using List.reverseRecOn with
  | nil => rfl
  | append_singleton l a ih =>
    have ha : a ∉ l := fun ha => (List.nodup_append.1 h).2.2 a ha a (by simp) rfl
    rw [eraseDups_concat, if_neg ha, ih (List.nodup_append.1 h).1]

/-- Of the second list only what the first one does not have is left. -/
lemma eraseDups_append_filter (l m : List α) :
    (l ++ m).eraseDups = l.eraseDups ++ m.eraseDups.filter fun a => !l.eraseDups.contains a := by
  rw [List.eraseDups_append, List.removeAll, filter_eraseDups]
  congr 1
  refine List.filter_congr fun a _ => ?_
  by_cases ha : a ∈ l <;> simp [ha]

lemma eraseDups_flatMap_congr {f g : β → List α} {bs : List β}
    (h : ∀ b ∈ bs, (f b).eraseDups = (g b).eraseDups) :
    (bs.flatMap f).eraseDups = (bs.flatMap g).eraseDups := by
  induction bs with
  | nil => rfl
  | cons b bs ih =>
    rw [List.flatMap_cons, List.flatMap_cons, eraseDups_append_filter, eraseDups_append_filter,
      h b (by simp), ih fun c hc => h c (by simp [hc])]

end FirstOccurrences

lemma Graph.triples_ofList (ts : List Triple) : (ofList ts).triples = ts.eraseDups := by
  induction ts using List.reverseRecOn with
  | nil => rfl
  | append_singleton ts t ih =>
    have hadd : ofList (ts ++ [t]) = (ofList ts).add t := by simp [ofList, addAll]
    rw [hadd, triples_add, ih, eraseDups_concat]
    simp

/-- A graph is what its triples make. -/
lemma Graph.ofList_triples (g : Graph) : ofList g.triples = g := by
  ext1
  rw [triples_ofList, eraseDups_of_nodup g.nodup]

namespace Source

/-- A source that chooses the triples of a pattern from all that it gives. -/
def Filters (s : Source) : Prop := ∀ p, s p = (s .any).filter p.covers

/-- Sources that give the same triples first, in the same order. -/
def Agree (s s' : Source) : Prop := ∀ p, (s p).eraseDups = (s' p).eraseDups

/-- **A snapshot agrees with its source**, if the source chooses. -/
theorem Filters.agree_snapshot {s : Source} (h : s.Filters) : Agree s.snapshot.matching s := by
  intro p
  rw [Graph.matching_eq_filter, snapshot, Graph.triples_ofList, h p, ← filter_eraseDups,
    filter_eraseDups, filter_eraseDups, eraseDups_eraseDups]

lemma union_congr {α : Type} {ks : List α} {f g : α → Source} (h : ∀ k ∈ ks, (f k).Agree (g k)) :
    union (ks.map f) = union (ks.map g) := by
  funext p
  simp only [union, List.flatMap_map]
  exact eraseDups_flatMap_congr fun k hk => h k hk p

end Source

/-! ### Graphs by the calls that made them -/

variable {g : Graph} {p : TriplePattern} {t : Triple} {ts : List Triple}

/-- A triple has the terms of the bound positions of a pattern. -/
def TriplePattern.Fits (p : TriplePattern) (t : Triple) : Prop :=
  (∀ a ∈ p.subject, t.subject = a) ∧ (∀ a ∈ p.predicate, t.predicate = a) ∧
    ∀ a ∈ p.object, t.object = a

instance (p : TriplePattern) : DecidablePred p.Fits := fun _ => inferInstanceAs (Decidable (_ ∧ _))

lemma TriplePattern.fits_iff : p.Fits t ↔ p.covers t := by
  simp only [Fits, covers, fits, Bool.and_eq_true, Option.all_eq_true, beq_iff_eq, and_assoc,
    Option.mem_def, @eq_comm _ t.subject, @eq_comm _ t.predicate, @eq_comm _ t.object]

/-- A call that adds to a graph. -/
inductive Addition where
  | one (t : Triple)
  | list (ts : List Triple)
  | graph (h : Graph)

namespace Addition

def triples : Addition → List Triple
  | one t => [t]
  | list ts => ts
  | graph h => h.triples

def apply (g : Graph) : Addition → Graph
  | one t => (g.insert t).1
  | list ts => g.addAll ts
  | graph h => g.addAll h.triples

lemma apply_eq (a : Addition) : a.apply g = g.addAll a.triples := by
  cases a <;> rfl

end Addition

namespace Graph

/-- The graph that a sequence of calls makes. -/
def after (calls : List Addition) : Graph := calls.foldl Addition.apply .empty

lemma addAll_append (ts us : List Triple) : g.addAll (ts ++ us) = (g.addAll ts).addAll us :=
  List.foldl_append

/-- Calls add what the list of all their triples adds. -/
lemma foldl_apply (calls : List Addition) :
    calls.foldl Addition.apply g = g.addAll (calls.flatMap Addition.triples) := by
  induction calls generalizing g with
  | nil => rfl
  | cons a calls ih => rw [List.foldl_cons, ih, a.apply_eq, List.flatMap_cons, addAll_append]

lemma triples_after (calls : List Addition) :
    (after calls).triples = (calls.flatMap Addition.triples).eraseDups := by
  rw [after, foldl_apply, ← triples_ofList]
  rfl

/-- A pattern gets what a scan of all triples finds. -/
lemma matching_eq_scan (g : Graph) (p : TriplePattern) :
    g.matching p = g.triples.filter fun t => p.Fits t := by
  rw [matching_eq_filter]
  refine List.filter_congr fun t _ => ?_
  rw [Bool.eq_iff_iff, decide_eq_true_iff, TriplePattern.fits_iff]

/-- The index may be asked for any position that is bound. -/
lemma matching_eq_of_mem_lists (h : ts ∈ g.index.lists p) :
    g.matching p = ts.filter fun t => p.Fits t := by
  rw [matching_eq_filter, ← Index.filter_of_mem_lists (g.indexed ▸ h)]
  refine List.filter_congr fun t _ => ?_
  rw [Bool.eq_iff_iff, decide_eq_true_iff, TriplePattern.fits_iff]

/-- **What a graph keeps** of the triples that calls add: each once, where it was added first. An
addition tells whether its triple is new, and a pattern gets its triples in the same order, through
whichever position it is looked up. -/
theorem after_calls (calls : List Addition) :
    (after calls).triples = (calls.flatMap Addition.triples).eraseDups ∧
      (∀ t, ((after calls).insert t).2 = true ↔ t ∉ calls.flatMap Addition.triples) ∧
      ∀ p : TriplePattern,
        (after calls).matching p = (after calls).triples.filter (fun t => p.Fits t) ∧
        ∀ ts ∈ (after calls).index.lists p,
          (after calls).matching p = ts.filter fun t => p.Fits t := by
  refine ⟨triples_after calls, fun t => ?_, fun p => ⟨matching_eq_scan _ p, fun ts hts => ?_⟩⟩
  · rw [insert_new, triples_after, List.mem_eraseDups]
  · exact matching_eq_of_mem_lists hts

/-- Who likes whom, told in three calls; the second one repeats what the first one said. -/
def likesCalls : List Addition :=
  let likes (x y : String) : Triple := ⟨.iri x, .iri "urn:likes", .iri y⟩
  [.one (likes "urn:ann" "urn:bob"),
    .list [likes "urn:bob" "urn:cat", likes "urn:ann" "urn:bob", likes "urn:ann" "urn:cat"],
    .graph (ofList [likes "urn:bob" "urn:cat", likes "urn:cat" "urn:cat"])]

/-- Whom Ann likes: two of four triples, whether they are looked up by Ann or by the predicate. -/
theorem after_calls_likes :
    let annLikes : TriplePattern := ⟨some (.iri "urn:ann"), some (.iri "urn:likes"), none⟩
    let found : List Triple := [⟨.iri "urn:ann", .iri "urn:likes", .iri "urn:bob"⟩,
      ⟨.iri "urn:ann", .iri "urn:likes", .iri "urn:cat"⟩]
    (after likesCalls).triples ∈ (after likesCalls).index.lists annLikes ∧
      (after likesCalls).triples.length = 4 ∧ (after likesCalls).matching annLikes = found := by
  obtain ⟨-, -, hmatching⟩ := after_calls likesCalls
  have hlisted : (after likesCalls).triples ∈ (after likesCalls).index.lists
      ⟨some (.iri "urn:ann"), some (.iri "urn:likes"), none⟩ := by decide
  refine ⟨hlisted, by decide, ?_⟩
  rw [(hmatching _).2 _ hlisted]
  decide

end Graph

end Semlift.Rdf
