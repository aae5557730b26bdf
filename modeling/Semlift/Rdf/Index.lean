import Semlift.Rdf.Term

/-!
The index of a list of triples: under each term the triples that have it in a position, in the order
of the list. A pattern with a bound position needs only what is listed under its term; of several
bound positions the one with the fewest triples is taken.
-/

namespace Semlift.Rdf

/-- Triples listed under keys. -/
abbrev Listing := List (Term × List Triple)

namespace Listing

/-- Lists a triple behind those that its key has already. -/
def insert (key : Term) (t : Triple) : Listing → Listing
  | [] => [(key, [t])]
  | (k, ts) :: more => if k = key then (k, ts ++ [t]) :: more else (k, ts) :: insert key t more

def find (key : Term) : Listing → List Triple
  | [] => []
  | (k, ts) :: more => if k = key then ts else find key more

theorem find_insert (k key : Term) (t : Triple) (l : Listing) :
    find k (insert key t l) = find k l ++ if key = k then [t] else [] := by
  induction l with
  | nil => simp [insert, find]
  | cons e more ih =>
    obtain ⟨m, ts⟩ := e
    by_cases hm : m = key
    · subst hm
      by_cases hk : m = k <;> simp [insert, find, hk]
    · by_cases hk : m = k
      · subst hk
        simp [insert, find, hm, Ne.symm hm]
      · simp only [insert, hm, if_false, find, hk, ih]

end Listing

structure Index where
  subjects : Listing
  predicates : Listing
  objects : Listing
  deriving DecidableEq, Repr

namespace Index

def empty : Index := ⟨[], [], []⟩

def add (ix : Index) (t : Triple) : Index :=
  ⟨ix.subjects.insert t.subject t, ix.predicates.insert t.predicate t,
    ix.objects.insert t.object t⟩

def ofList (ts : List Triple) : Index := ts.foldl add empty

theorem ofList_append_singleton (ts : List Triple) (t : Triple) :
    ofList (ts ++ [t]) = (ofList ts).add t := by
  simp [ofList]

/-- A listing that `add` keeps by one part of its triples finds those with the wanted part. -/
theorem find_foldl (side : Index → Listing) (part : Triple → Term)
    (h : ∀ ix t, side (ix.add t) = (side ix).insert (part t) t) (k : Term) (ts : List Triple)
    (ix : Index) :
    (side (ts.foldl add ix)).find k = (side ix).find k ++ ts.filter (part · == k) := by
  induction ts generalizing ix with
  | nil => simp
  | cons t ts ih => by_cases hk : part t = k <;> simp [ih, h, Listing.find_insert, hk]

theorem find_subjects (s : Term) (ts : List Triple) :
    (ofList ts).subjects.find s = ts.filter (·.subject == s) :=
  find_foldl subjects Triple.subject (fun _ _ => rfl) s ts empty

theorem find_predicates (p : Term) (ts : List Triple) :
    (ofList ts).predicates.find p = ts.filter (·.predicate == p) :=
  find_foldl predicates Triple.predicate (fun _ _ => rfl) p ts empty

theorem find_objects (o : Term) (ts : List Triple) :
    (ofList ts).objects.find o = ts.filter (·.object == o) :=
  find_foldl objects Triple.object (fun _ _ => rfl) o ts empty

/-- The shorter of two lists, the first of equally long ones. -/
def shorter (a b : List Triple) : List Triple := if b.length < a.length then b else a

/-- The lists of the bound positions of a pattern. -/
def lists (ix : Index) (p : TriplePattern) : List (List Triple) :=
  (p.subject.map ix.subjects.find).toList ++ (p.predicate.map ix.predicates.find).toList ++
    (p.object.map ix.objects.find).toList

/-- The triples among which those of a pattern are; none when no position is bound. -/
def candidates? (ix : Index) (p : TriplePattern) : Option (List Triple) :=
  match ix.lists p with
  | [] => none
  | ts :: more => some (more.foldl shorter ts)

theorem foldl_shorter_mem (ts : List Triple) (more : List (List Triple)) :
    more.foldl shorter ts ∈ ts :: more := by
  induction more generalizing ts with
  | nil => simp
  | cons us more ih =>
    have h := ih (shorter ts us)
    rw [List.foldl_cons]
    rcases List.mem_cons.1 h with h | h
    · rw [h, shorter]
      split <;> simp
    · simp [h]

theorem candidates?_mem {ix : Index} {p : TriplePattern} {ts : List Triple}
    (h : ix.candidates? p = some ts) : ts ∈ ix.lists p := by
  unfold candidates? at h
  split at h
  · simp at h
  · rename_i us more e
    rw [e, ← Option.some.inj h]
    exact foldl_shorter_mem us more

/-- No position of a pattern without candidates is bound. -/
theorem eq_any_of_candidates? {ix : Index} {p : TriplePattern} (h : ix.candidates? p = none) :
    p = .any := by
  obtain ⟨s, q, o⟩ := p
  cases s <;> cases q <;> cases o <;> simp_all [candidates?, lists, TriplePattern.any]

/-- The list of any bound position loses no triple of the pattern. -/
theorem filter_of_mem_lists {ts us : List Triple} {p : TriplePattern}
    (h : us ∈ (ofList ts).lists p) : us.filter p.covers = ts.filter p.covers := by
  have narrowed (q : Triple → Bool) (hq : ∀ t, p.covers t = true → q t = true) :
      (ts.filter q).filter p.covers = ts.filter p.covers := by
    rw [List.filter_filter]
    apply List.filter_congr
    intro t _
    cases hc : p.covers t with
    | false => rfl
    | true => rw [hq t hc]; rfl
  simp only [lists, List.mem_append, Option.mem_toList, Option.map_eq_some_iff] at h
  rcases h with (⟨s, hs, rfl⟩ | ⟨q, hq, rfl⟩) | ⟨o, ho, rfl⟩
  · rw [find_subjects]
    refine narrowed _ fun t ht => ?_
    simp_all [TriplePattern.covers, TriplePattern.fits]
  · rw [find_predicates]
    refine narrowed _ fun t ht => ?_
    simp_all [TriplePattern.covers, TriplePattern.fits]
  · rw [find_objects]
    refine narrowed _ fun t ht => ?_
    simp_all [TriplePattern.covers, TriplePattern.fits]

/-- Choosing candidates loses no triple of the pattern. -/
theorem filter_candidates? {ts us : List Triple} {p : TriplePattern}
    (h : (ofList ts).candidates? p = some us) : us.filter p.covers = ts.filter p.covers :=
  filter_of_mem_lists (candidates?_mem h)

end Index

end Semlift.Rdf
