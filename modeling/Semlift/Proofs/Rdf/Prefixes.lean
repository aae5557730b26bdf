import Mathlib.Data.List.Induction
import Semlift.Proofs.Lists
import Semlift.Proofs.Text.Lines
import Semlift.Rdf.Prefixes

/-!
What a prefix stands for. Declared prefixes are found by their names, the last declaration of a
name counts, and the namespace that shortens an IRI is the longest of those that begin it. An IRI
written with that namespace or in angle brackets expands to itself again, as long as the text in
front of its first colon is not taken for a declared prefix.
-/

namespace Semlift.Rdf.Prefixes

open Semlift.Text

variable {p : Prefixes} {name ns n iri : String} {before after loc rest : List Char}
  {es : List (String × String)}

lemma find?_set : (set name ns es).find? (·.1 == n) =
    if n = name then some (name, ns) else es.find? (·.1 == n) := by
  induction es with
  | nil => by_cases h : name = n <;> simp [set, h, Ne.symm]
  | cons e es ih =>
    obtain ⟨m, old⟩ := e
    by_cases hm : m = name
    · by_cases h : name = n <;> simp [set, hm, h, Ne.symm]
    · by_cases h : m = n
      · simp [set, h ▸ hm, h]
      · simp [set, hm, h, ih]

lemma find?_add : (p.add name ns).find? n = if n = name then some ns else p.find? n := by
  unfold find? add
  rw [find?_set]
  split <;> rfl

/-- The last declaration of a name counts. -/
lemma find?_addAll_eq : (p.addAll es).find? name =
    ((es.reverse.find? (·.1 == name)).map Prod.snd).or (p.find? name) := by
  induction es using List.reverseRecOn with
  | nil => rfl
  | append_singleton es e ih =>
    have hlast : p.addAll (es ++ [e]) = (p.addAll es).add e.1 e.2 := by simp [addAll]
    rw [hlast, find?_add, ih, List.reverse_concat, List.find?_cons]
    by_cases h : e.1 = name
    · simp [h]
    · simp [beq_false_of_ne h, Ne.symm h]

/-- Of different names each has the namespace that it is declared with. -/
lemma find?_addAll (hes : (es.map Prod.fst).Nodup) (h : (name, ns) ∈ es) :
    (p.addAll es).find? name = some ns := by
  have hes' : (es.reverse.map Prod.fst).Nodup := by simpa using hes
  rw [find?_addAll_eq, find?_of_nodup_map Prod.fst hes' (List.mem_reverse.2 h)]
  rfl

/-- A name stands for the namespace of its entry. -/
lemma find?_of_mem (h : (name, ns) ∈ p.entries) : p.find? name = some ns := by
  rw [find?, find?_of_nodup_map Prod.fst p.nodup h]
  rfl

lemma find?_eq_none (h : name ∉ p.entries.map Prod.fst) : p.find? name = none := by
  refine Option.map_eq_none_iff.2 (List.find?_eq_none.2 fun e he heq => h ?_)
  exact beq_iff_eq.1 heq ▸ List.mem_map_of_mem he

/-- A name that is declared again is no other name. -/
lemma mem_names_addAll : name ∈ (p.addAll es).entries.map Prod.fst ↔
    name ∈ p.entries.map Prod.fst ∨ name ∈ es.map Prod.fst := by
  induction es generalizing p with
  | nil => simp [addAll]
  | cons e es ih =>
    have hadd : name ∈ (p.add e.1 e.2).entries.map Prod.fst ↔
        name = e.1 ∨ name ∈ p.entries.map Prod.fst := mem_set
    rw [addAll, List.foldl_cons, ← addAll, ih, hadd, List.map_cons, List.mem_cons]
    tauto

/-! ### Expansion -/

/-- A text that can be told from what is around it in a prefixed name. -/
structure IsName (name : String) : Prop where
  colon : ':' ∉ name.toList
  bracket : '<' ∉ name.toList

instance : DecidablePred IsName := fun name =>
  decidable_of_iff (':' ∉ name.toList ∧ '<' ∉ name.toList)
    ⟨fun ⟨hcolon, hbracket⟩ => ⟨hcolon, hbracket⟩, fun h => ⟨h.colon, h.bracket⟩⟩

/-- A name without brackets is resolved by the text in front of its first colon. -/
lemma expand_name (hname : IsName name) (h : p.find? name = some ns) :
    p.expand (name ++ ":" ++ String.ofList loc) = .ok (ns ++ String.ofList loc) := by
  have htext : (name ++ ":" ++ String.ofList loc).toList = name.toList ++ ':' :: loc := by simp
  have hhead : ∀ cs, name.toList ++ ':' :: loc ≠ '<' :: cs := by
    intro cs heq
    cases hw : name.toList with
    | nil => simp [hw] at heq
    | cons c w =>
      rw [hw, List.cons_append, List.cons.injEq] at heq
      exact hname.bracket (by simp [hw, heq.1])
  unfold expand
  rw [htext]
  split
  · rename_i cs hcs
    exact absurd hcs (hhead cs)
  · simp [splitFirst?_append hname.colon, h]

/-- In brackets a text stands for itself, unless its beginning is declared. -/
lemma expand_bracketed (hiri : iri.toList = before ++ ':' :: after) (hcolon : ':' ∉ before) :
    p.expand ("<" ++ iri ++ ">") = .ok (((p.find? (String.ofList before)).map
      (· ++ String.ofList after)).getD iri) := by
  have htext : ("<" ++ iri ++ ">").toList = '<' :: (iri.toList ++ ['>']) := by simp
  have hsplit : splitFirst? ':' iri.toList = some (before, after) := by
    rw [hiri, splitFirst?_append hcolon]
  unfold expand
  rw [htext]
  cases hns : p.find? (String.ofList before) <;> simp [hsplit, hns]

/-- An IRI that stands for itself in angle brackets: it closes none, and what is in front of its
first colon is no declared prefix. -/
structure Keeps (p : Prefixes) (iri : String) : Prop where
  unclosed : '>' ∉ iri.toList
  undeclared : ∃ before after, iri.toList = before ++ ':' :: after ∧ ':' ∉ before ∧
    p.find? (String.ofList before) = none

lemma Keeps.expand_bracketed (h : p.Keeps iri) : p.expand ("<" ++ iri ++ ">") = .ok iri := by
  obtain ⟨before, after, hiri, hcolon, hnone⟩ := h.undeclared
  rw [Prefixes.expand_bracketed hiri hcolon, hnone]
  rfl

/-! ### Compaction -/

/-- The longest namespace of an IRI is declared and begins the IRI. -/
lemma longest?_eq_some (h : p.longest? iri = some (name, ns, rest)) :
    (name, ns) ∈ p.entries ∧ iri.toList = ns.toList ++ rest := by
  have key : ∀ b ∈ p.longest? iri,
      (b.1, b.2.1) ∈ p.entries ∧ iri.toList = b.2.1.toList ++ b.2.2 := by
    refine List.foldlRecOn (motive := fun best : Option (String × String × List Char) =>
      ∀ b ∈ best, (b.1, b.2.1) ∈ p.entries ∧ iri.toList = b.2.1.toList ++ b.2.2) _ _ (by simp) ?_
    rintro best hbest ⟨name, ns⟩ he
    dsimp only
    split
    · exact hbest
    · rename_i rest hrest
      have hnew : (name, ns) ∈ p.entries ∧ iri.toList = ns.toList ++ rest :=
        ⟨he, afterPrefix?_eq_some_iff.1 hrest⟩
      split
      · rintro _ ⟨⟩
        exact hnew
      · split
        · rintro _ ⟨⟩
          exact hnew
        · exact hbest
  exact key _ h

/-- An IRI is written in brackets or with a declared prefix. -/
lemma compact_cases (p : Prefixes) (iri : String) : p.compact iri = "<" ++ iri ++ ">" ∨
    ∃ name ns rest, (name, ns) ∈ p.entries ∧ iri = ns ++ String.ofList rest ∧
      (∀ c ∈ rest, isPlain c = true) ∧ p.compact iri = name ++ ":" ++ String.ofList rest := by
  unfold compact
  split
  · exact .inl rfl
  · rename_i name ns rest hlongest
    split
    · rename_i hplain
      obtain ⟨hmem, happ⟩ := longest?_eq_some hlongest
      have hiri : iri = ns ++ String.ofList rest := String.toList_injective (by simp [happ])
      exact .inr ⟨name, ns, rest, hmem, hiri, List.all_eq_true.1 hplain, rfl⟩
    · exact .inl rfl

/-- No declared namespace that begins an IRI is longer than the one that shortens it. -/
lemma exists_longest? (he : (name, ns) ∈ p.entries) (hi : ns.toList <+: iri.toList) :
    ∃ b ∈ p.longest? iri, ns.length ≤ b.2.1.length := by
  unfold longest?
  revert he
  induction p.entries using List.reverseRecOn with
  | nil => simp
  | append_singleton es d ih =>
    obtain ⟨n, new⟩ := d
    rw [List.foldl_append, List.foldl_cons, List.foldl_nil]
    intro he
    rcases List.mem_append.1 he with he | he
    · obtain ⟨b, hb, hle⟩ := ih he
      rw [Option.mem_def.1 hb]
      dsimp only
      split
      · exact ⟨b, rfl, hle⟩
      · split
        · rename_i hlt
          exact ⟨_, rfl, Nat.le_trans hle (Nat.le_of_lt hlt)⟩
        · exact ⟨b, rfl, hle⟩
    · cases List.mem_singleton.1 he
      obtain ⟨rest, hrest⟩ := hi
      dsimp only
      rw [afterPrefix?_eq_some_iff.2 hrest.symm]
      dsimp only
      split
      · exact ⟨_, rfl, Nat.le_refl _⟩
      · rename_i hbest
        split
        · exact ⟨_, rfl, Nat.le_refl _⟩
        · rename_i hlt
          exact ⟨_, hbest, Nat.le_of_not_lt hlt⟩

/-- An IRI loses the longest of the declared namespaces that begin it. -/
lemma localName?_append {loc : String} (hne : ns ≠ "") (he : (name, ns) ∈ p.entries)
    (hmax : ∀ e ∈ p.entries, e.2.toList <+: (ns ++ loc).toList → e.2.length ≤ ns.length) :
    p.localName? (ns ++ loc) = some loc := by
  have htext : (ns ++ loc).toList = ns.toList ++ loc.toList := String.toList_append
  obtain ⟨⟨n, found, rest⟩, hb, hge⟩ : ∃ b ∈ p.longest? (ns ++ loc), ns.length ≤ b.2.1.length :=
    exists_longest? he (htext ▸ List.prefix_append _ _)
  obtain ⟨hmem, happ⟩ := longest?_eq_some hb
  have hle : found.length ≤ ns.length := hmax _ hmem (happ ▸ List.prefix_append _ _)
  have hlen : found.toList.length = ns.toList.length := by
    rw [String.length_toList, String.length_toList]
    exact Nat.le_antisymm hle hge
  obtain ⟨hns, hrest⟩ := List.append_inj (happ.symm.trans htext) hlen
  obtain rfl : found = ns := String.toList_injective hns
  rw [localName?, Option.mem_def.1 hb]
  simp [hne, hrest]

/-! ### Both ways -/

/-- A text with a colon, and in front of the first one stands none of the names. -/
def Foreign (names : List String) (iri : String) : Prop :=
  ∃ before after, iri.toList = before ++ ':' :: after ∧ ':' ∉ before ∧
    String.ofList before ∉ names

/-- **Compaction is undone by expansion**, whichever namespaces are declared, in whatever order and
however often. -/
theorem expand_compact (es : List (String × String)) (iri : String)
    (hnames : ∀ e ∈ es, IsName e.1) (hiri : Foreign (es.map Prod.fst) iri) :
    (empty.addAll es).expand ((empty.addAll es).compact iri) = .ok iri := by
  have hdeclared {name : String} (h : name ∈ (empty.addAll es).entries.map Prod.fst) :
      name ∈ es.map Prod.fst := (mem_names_addAll.1 h).resolve_left (by simp [empty])
  rcases compact_cases (empty.addAll es) iri with h | ⟨name, ns, rest, hmem, heq, -, h⟩
  · obtain ⟨before, after, htext, hcolon, hnone⟩ := hiri
    rw [h, expand_bracketed htext hcolon, find?_eq_none (mt hdeclared hnone)]
    rfl
  · obtain ⟨e, he, rfl⟩ := List.mem_map.1 (hdeclared (List.mem_map_of_mem hmem))
    rw [h, heq]
    exact expand_name (hnames e he) (find?_of_mem hmem)

/-- Namespaces of which one is inside another, one is there twice, one is empty and one is replaced.
-/
def nestedEntries : List (String × String) :=
  [("e", "urn:old#"), ("", ""), ("m", "urn:n#"), ("n", "urn:n#"), ("o", "urn:n#o/"),
    ("e", "urn:e#")]

theorem expand_compact_nested :
    (∀ e ∈ nestedEntries, IsName e.1) ∧
      (∀ iri ∈ ["urn:n#x", "urn:n#o/x", "urn:e#", "urn:old#x.y", "<x:>"],
        Foreign (nestedEntries.map Prod.fst) iri ∧
          (empty.addAll nestedEntries).expand ((empty.addAll nestedEntries).compact iri) =
            .ok iri) ∧
      ["urn:n#x", "urn:n#o/x", "urn:e#", "urn:old#x.y", "<x:>"].map
        (empty.addAll nestedEntries).compact = ["m:x", "o:x", "e:", "<urn:old#x.y>", "<<x:>>"] := by
  have hnames : ∀ e ∈ nestedEntries, IsName e.1 := by decide +kernel
  refine ⟨hnames, fun iri hiri => ?_, by decide +kernel⟩
  have hforeign : Foreign (nestedEntries.map Prod.fst) iri := by
    simp only [List.mem_cons, List.not_mem_nil, or_false] at hiri
    rcases hiri with rfl | rfl | rfl | rfl | rfl
    · exact ⟨"urn".toList, "n#x".toList, by decide +kernel⟩
    · exact ⟨"urn".toList, "n#o/x".toList, by decide +kernel⟩
    · exact ⟨"urn".toList, "e#".toList, by decide +kernel⟩
    · exact ⟨"urn".toList, "old#x.y".toList, by decide +kernel⟩
    · exact ⟨"<x".toList, ">".toList, by decide +kernel⟩
  exact ⟨hforeign, expand_compact nestedEntries iri hnames hforeign⟩

end Semlift.Rdf.Prefixes
