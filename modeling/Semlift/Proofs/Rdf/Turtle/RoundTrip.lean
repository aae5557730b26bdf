import Semlift.Proofs.Rdf.Prefixes
import Semlift.Proofs.Rdf.Snapshot
import Semlift.Proofs.Rdf.Turtle.Tells

/-!
Written graphs are read back. The lines of the plain form and the groups of the form with prefixes
are both sentences: in the plain form each term is spelled in full, in the other one by the prefixes
that the header declares.
-/

namespace Semlift.Rdf

open Semlift.Text Turtle

/-- A term whose parts keep their places in a text: what is in angle brackets does not end them, a
label is one, and a literal with a language is of the type for those. -/
def Term.Writable : Term → Prop
  | .iri name => Enclosable name
  | .blank label => Label label
  | .literal _ datatype language =>
    Enclosable datatype ∧ Tag language ∧ (language ≠ "" → datatype = Vocabulary.rdfLangString)

def Triple.Writable (t : Triple) : Prop :=
  t.subject.Writable ∧ t.predicate.Writable ∧ t.object.Writable ∧
    t.subject.isLiteral = false ∧ t.predicate.isIri = true

/-- A graph of writable triples. -/
def Graph.Writable (g : Graph) : Prop := ∀ t ∈ g.triples, t.Writable

/-- Prefixes that can be declared. -/
def Prefixes.Writable (p : Prefixes) : Prop :=
  ∀ e ∈ p.entries, PrefixText e.1 ∧ Enclosable e.2

instance : DecidablePred Term.Writable
  | .iri name => inferInstanceAs (Decidable (Enclosable name))
  | .blank label => inferInstanceAs (Decidable (Label label))
  | .literal _ datatype language => inferInstanceAs (Decidable (Enclosable datatype ∧
      Tag language ∧ (language ≠ "" → datatype = Vocabulary.rdfLangString)))

instance : DecidablePred Triple.Writable := fun t =>
  inferInstanceAs (Decidable (t.subject.Writable ∧ t.predicate.Writable ∧ t.object.Writable ∧
    t.subject.isLiteral = false ∧ t.predicate.isIri = true))

instance : DecidablePred Graph.Writable := fun g =>
  inferInstanceAs (Decidable (∀ t ∈ g.triples, t.Writable))

instance : DecidablePred Prefixes.Writable := fun p =>
  inferInstanceAs (Decidable (∀ e ∈ p.entries, PrefixText e.1 ∧ Enclosable e.2))

variable {ps p : Prefixes} {t : Term} {x : Triple} {ts : List Triple} {g : Graph} {iri : String}

/-! ### The plain form -/

lemma spells_ntriples (h : t.Writable) : Spells ps t.ntriples t := by
  cases t with
  | iri name => exact .iri (.bracketed h)
  | blank label => exact .blank h
  | literal lexical datatype language =>
    obtain ⟨hdatatype, htag, hlang⟩ := h
    show Spells ps (if language.isEmpty then _ else _) _
    split_ifs with hempty
    · rw [String.isEmpty_iff] at hempty
      subst hempty
      have htext : quote lexical ++ "^^<" ++ datatype ++ ">" =
          quote lexical ++ "^^" ++ ("<" ++ datatype ++ ">") :=
        String.toList_inj.1 (by simp)
      rw [htext]
      exact .typed (.bracketed hdatatype)
    · rw [hlang (by simpa using hempty)]
      exact .tagged htag

/-- The sentence of one triple. -/
def lineSentence (x : Triple) : Sentence :=
  ⟨⟨x.subject.ntriples, x.subject⟩,
    [⟨⟨x.predicate.ntriples, x.predicate⟩, [⟨x.object.ntriples, x.object⟩]⟩]⟩

lemma text_lineSentence : (lineSentence x).text = x.ntriples := by
  simp [lineSentence, Sentence.text, Clause.text, Triple.ntriples, String.append_assoc]

lemma verbs_ntriples (h : t.Writable) (ht : t.isIri = true) : Verbs ps t.ntriples t := by
  cases t with
  | iri name => exact .iri (.bracketed h)
  | blank | literal => cases ht

lemma Triple.Writable.spelled_lineSentence (h : x.Writable) : (lineSentence x).Spelled ps := by
  obtain ⟨hs, hp, ho, hnode, hiri⟩ := h
  refine ⟨spells_ntriples hs, hnode, ?_, by simp [lineSentence]⟩
  rintro c hc
  rw [lineSentence, List.mem_singleton] at hc
  subst hc
  refine ⟨verbs_ntriples hp hiri, ?_, by simp⟩
  rintro o ho'
  rw [List.mem_singleton.1 ho']
  exact spells_ntriples ho

/-- **A graph in the plain form is read back**, whatever prefixes are declared. -/
theorem read_ntriplesText (hg : g.Writable) (p : Prefixes) :
    (Reader.new p "").read (ntriplesText g.triples) = (.ok g, Reader.new p "") := by
  have hspelled : ∀ s ∈ g.triples.map lineSentence, s.Spelled p := by
    rintro s hs
    obtain ⟨x, hx, rfl⟩ := List.mem_map.1 hs
    exact (hg x hx).spelled_lineSentence
  have htells := Step.tells_sentences (r := Reader.new p "") (g := .empty) ⟨rfl, rfl⟩ hspelled
  have htext : String.join ((g.triples.map lineSentence).map (·.text ++ "\n")) =
      ntriplesText g.triples := by
    simp [ntriplesText, List.map_map, Function.comp_def, text_lineSentence]
  have htriples : (g.triples.map lineSentence).flatMap Sentence.triples = g.triples := by
    simp [List.flatMap_map, lineSentence, Sentence.triples, Clause.triples]
  rw [htext, htriples, show Graph.empty.addAll g.triples = g from g.ofList_triples] at htells
  exact read_of_tells htells

/-- Texts with all that is escaped, an empty one, and a label with a point in it. -/
def lettersGraph : Graph :=
  .ofList [⟨.blank "b.1", .iri "ex:says", .string "\"\\\n\r\t#"⟩,
    ⟨.blank "b.1", .iri "ex:says", .langString "" "en-GB"⟩, ⟨.iri "", .iri "a", .typed "" "ex:t"⟩]

theorem read_ntriplesText_letters :
    lettersGraph.Writable ∧
      ntriplesText lettersGraph.triples =
        "_:b.1 <ex:says> \"\\\"\\\\\\n\\r\\t#\"^^<" ++ Vocabulary.xsdString ++ "> .\n" ++
        "_:b.1 <ex:says> \"\"@en-GB .\n<> <a> \"\"^^<ex:t> .\n" ∧
      (Reader.new .standard "").read (ntriplesText lettersGraph.triples) =
        (.ok lettersGraph, Reader.new .standard "") := by
  have hg : lettersGraph.Writable := by decide +kernel
  exact ⟨hg, by decide +kernel, read_ntriplesText hg .standard⟩

/-! ### The form with prefixes -/

/-- Every prefix is declared with its namespace. -/
def Declared (p ps : Prefixes) : Prop := ∀ e ∈ p.entries, ps.find? e.1 = some e.2

lemma names_compact (hp : p.Writable) (hd : Declared p ps) (h : Enclosable iri) :
    Names ps (p.compact iri) iri := by
  rcases p.compact_cases iri with heq | ⟨name, ns, rest, he, hiri, hplain, heq⟩
  · rw [heq]
    exact .bracketed h
  · rw [heq, hiri]
    exact .prefixed (hp _ he).1 (hd _ he) hplain

lemma spells_turtle (hp : p.Writable) (hd : Declared p ps) (h : t.Writable) :
    Spells ps (t.turtle p) t := by
  cases t with
  | iri name => exact .iri (names_compact hp hd h)
  | blank label => exact .blank h
  | literal lexical datatype language =>
    obtain ⟨hdatatype, htag, hlang⟩ := h
    show Spells ps (if !language.isEmpty then _ else _) _
    split_ifs with hne hstring
    · rw [hlang (by simpa using hne)]
      exact .tagged htag
    · have hempty : language = "" := by simpa using hne
      rw [hempty, hstring]
      exact .string
    · have hempty : language = "" := by simpa using hne
      rw [hempty]
      exact .typed (names_compact hp hd hdatatype)

lemma verbs_predicateText (hp : p.Writable) (hd : Declared p ps) (h : t.Writable)
    (ht : t.isIri = true) : Verbs ps (predicateText p t) t := by
  cases t with
  | iri name =>
    show Verbs ps (if name = Vocabulary.rdfType then _ else _) _
    split_ifs with htype
    · rw [htype]
      exact .type
    · exact .iri (names_compact hp hd h)
  | blank | literal => cases ht

/-- The clause of the triples with one predicate. -/
def groupClause (p : Prefixes) (group : List Triple) (predicate : Term) : Clause :=
  ⟨⟨predicateText p predicate, predicate⟩,
    (group.filter (·.predicate == predicate)).map fun x => ⟨x.object.turtle p, x.object⟩⟩

/-- The sentence of the triples with one subject. -/
def groupSentence (p : Prefixes) (ts : List Triple) (subject : Term) : Sentence :=
  let group := ts.filter (·.subject == subject)
  ⟨⟨subject.turtle p, subject⟩,
    (group.map (·.predicate)).eraseDups.map (groupClause p group)⟩

lemma text_groupClause : (groupClause p ts t).text = predicateGroup p ts t := by
  simp [groupClause, Clause.text, predicateGroup, Function.comp_def]

lemma text_groupSentence : (groupSentence p ts t).text ++ "\n" = subjectGroup p ts t := by
  have hend : " .\n" = " ." ++ "\n" := rfl
  simp [groupSentence, Sentence.text, subjectGroup, hend, Function.comp_def, text_groupClause,
    String.append_assoc]

lemma spelled_groupClause (hp : p.Writable) (hd : Declared p ps) (hts : ∀ x ∈ ts, x.Writable)
    (hx : x ∈ ts) : (groupClause p ts x.predicate).Spelled ps := by
  obtain ⟨-, hpredicate, -, -, hiri⟩ := hts x hx
  refine ⟨verbs_predicateText hp hd hpredicate hiri, ?_, ?_⟩
  · rintro o ho
    obtain ⟨y, hy, rfl⟩ := List.mem_map.1 ho
    obtain ⟨-, -, hobject, -⟩ := hts y (List.mem_filter.1 hy).1
    exact spells_turtle hp hd hobject
  · exact List.ne_nil_of_mem (List.mem_map_of_mem (List.mem_filter.2 ⟨hx, by simp⟩))

lemma spelled_groupSentence (hp : p.Writable) (hd : Declared p ps) (hts : ∀ x ∈ ts, x.Writable)
    (hx : x ∈ ts) : (groupSentence p ts x.subject).Spelled ps := by
  obtain ⟨hsubject, -, -, hnode, -⟩ := hts x hx
  refine ⟨spells_turtle hp hd hsubject, hnode, ?_, ?_⟩
  · rintro c hc
    obtain ⟨predicate, hpredicate, rfl⟩ := List.mem_map.1 hc
    obtain ⟨y, hy, rfl⟩ := List.mem_map.1 (List.mem_eraseDups.1 hpredicate)
    exact spelled_groupClause hp hd (fun z hz => hts z (List.mem_filter.1 hz).1) hy
  · have hgroup : x ∈ ts.filter (·.subject == x.subject) := List.mem_filter.2 ⟨hx, by simp⟩
    exact List.ne_nil_of_mem
      (List.mem_map_of_mem (List.mem_eraseDups.2 (List.mem_map_of_mem hgroup)))

lemma mem_triples_groupClause {subject : Term} :
    x ∈ (groupClause p ts t).triples subject ↔
      ∃ y ∈ ts, y.predicate = t ∧ x = ⟨subject, t, y.object⟩ := by
  simp only [groupClause, Clause.triples, List.mem_map, List.mem_filter, beq_iff_eq]
  constructor
  · rintro ⟨_, ⟨y, ⟨hy, hp⟩, rfl⟩, rfl⟩
    exact ⟨y, hy, hp, rfl⟩
  · rintro ⟨y, hy, hp, rfl⟩
    exact ⟨_, ⟨y, ⟨hy, hp⟩, rfl⟩, rfl⟩

lemma mem_triples_groupSentence :
    x ∈ (groupSentence p ts t).triples ↔ x ∈ ts ∧ x.subject = t := by
  simp only [Sentence.triples, groupSentence, List.flatMap_map, List.mem_flatMap,
    mem_triples_groupClause, List.mem_eraseDups]
  constructor
  · rintro ⟨predicate, -, y, hy, rfl, rfl⟩
    simp only [List.mem_filter, beq_iff_eq] at hy
    obtain ⟨hy, rfl⟩ := hy
    exact ⟨hy, rfl⟩
  · rintro ⟨hx, rfl⟩
    have hgroup : x ∈ ts.filter (·.subject == x.subject) := List.mem_filter.2 ⟨hx, by simp⟩
    exact ⟨x.predicate, List.mem_map_of_mem hgroup, x, hgroup, rfl, rfl⟩

/-- The sentences of a list of triples, subject by subject. -/
def groupSentences (p : Prefixes) (ts : List Triple) : List Sentence :=
  (ts.map (·.subject)).eraseDups.map (groupSentence p ts)

lemma turtleHeader_eq : p.turtleHeader = String.join (p.entries.map (directiveText · ++ "\n")) := by
  have hend : "> .\n" = "> ." ++ "\n" := rfl
  simp only [Prefixes.turtleHeader, directiveText, hend, String.append_assoc]

lemma turtleText_eq : turtleText ts p = p.turtleHeader ++ "\n" ++
    String.join ((groupSentences p ts).map (·.text ++ "\n")) := by
  simp [turtleText, groupSentences, Function.comp_def, text_groupSentence]

lemma spelled_groupSentences {s : Sentence} (hp : p.Writable) (hd : Declared p ps)
    (hts : ∀ x ∈ ts, x.Writable) (hs : s ∈ groupSentences p ts) : s.Spelled ps := by
  obtain ⟨t, ht, rfl⟩ := List.mem_map.1 hs
  obtain ⟨x, hx, rfl⟩ := List.mem_map.1 (List.mem_eraseDups.1 ht)
  exact spelled_groupSentence hp hd hts hx

lemma mem_triples_groupSentences :
    x ∈ (groupSentences p ts).flatMap Sentence.triples ↔ x ∈ ts := by
  simp only [groupSentences, List.flatMap_map, List.mem_flatMap, List.mem_eraseDups,
    mem_triples_groupSentence]
  constructor
  · rintro ⟨t, -, hx, -⟩
    exact hx
  · intro hx
    exact ⟨x.subject, List.mem_map_of_mem hx, hx, rfl⟩

/-- **A graph in the form with prefixes is read back**, whatever prefixes were declared before. Its
triples come subject by subject. -/
theorem read_turtleText (hg : g.Writable) (hp : p.Writable) (q : Prefixes) :
    ∃ h, (Reader.new q "").read (turtleText g.triples p) =
        (.ok h, Reader.new (q.addAll p.entries) "") ∧
      ∀ x, x ∈ h.triples ↔ x ∈ g.triples := by
  have hd : Declared p (q.addAll p.entries) := fun e he => Prefixes.find?_addAll p.nodup he
  have hheader : Step.Tells p.turtleHeader.toList (Reader.new q "") .empty
      (Reader.new (q.addAll p.entries) "") .empty := by
    rw [turtleHeader_eq]
    exact Step.tells_header ⟨rfl, rfl⟩ hp
  have hbody := Step.tells_sentences (r := Reader.new (q.addAll p.entries) "") (g := .empty)
    ⟨rfl, rfl⟩ fun s hs => spelled_groupSentences hp hd hg hs
  have htext : (turtleText g.triples p).toList = p.turtleHeader.toList ++ '\n' ::
      (String.join ((groupSentences p g.triples).map (·.text ++ "\n"))).toList := by
    simp [turtleText_eq]
  have htells := hheader.append (.gap (c := '\n') (by decide) hbody)
  rw [← htext] at htells
  refine ⟨_, read_of_tells htells, fun x => ?_⟩
  rw [Graph.mem_addAll, mem_triples_groupSentences]
  simp

/-- Prefixes with the names of keywords, one of them of a part of another's namespace. -/
def keywordPrefixes : Prefixes :=
  Prefixes.empty.addAll [("", "ex:"), ("a", "ex:a/"), ("true", "ex:a/t"), ("base", "")]

def keywordGraph : Graph :=
  .ofList [⟨.iri "ex:", .iri Vocabulary.rdfType, .iri "ex:a/tx"⟩,
    ⟨.iri "root", .iri "ex:a/b", .langString "" "en"⟩,
    ⟨.iri "ex:", .iri "ex:a/b", .string "\"c\""⟩, ⟨.iri "ex:", .iri "ex:a/b", .iri "ex:#"⟩]

/-- The two subjects come together, and no prefix is taken for a keyword. -/
theorem read_turtleText_keyword :
    keywordGraph.Writable ∧ keywordPrefixes.Writable ∧
      turtleText keywordGraph.triples keywordPrefixes =
        "@prefix : <ex:> .\n@prefix a: <ex:a/> .\n@prefix true: <ex:a/t> .\n" ++
        "@prefix base: <> .\n\n" ++
        ": a true:x ;\n    a:b \"\\\"c\\\"\", <ex:#> .\nbase:root a:b \"\"@en .\n" ∧
      ∃ h, (Reader.new .standard "").read (turtleText keywordGraph.triples keywordPrefixes) =
          (.ok h, Reader.new (Prefixes.standard.addAll keywordPrefixes.entries) "") ∧
        ∀ x, x ∈ h.triples ↔ x ∈ keywordGraph.triples := by
  have hg : keywordGraph.Writable := by decide +kernel
  have hp : keywordPrefixes.Writable := by decide +kernel
  exact ⟨hg, hp, by decide +kernel, read_turtleText hg hp .standard⟩

end Semlift.Rdf
