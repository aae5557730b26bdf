import Semlift.Ontology.Answer
import Semlift.Proofs.Except
import Semlift.Proofs.Text.Lines

/-!
The answers of a reasoner that lists members. A term that keeps to its line is read back from its
text, whatever its characters, and so is a list of terms from lines that spell one each, with blanks
around them and lines of blanks between them.
-/

namespace Semlift.Rdf.Term

open Semlift.Text

/-- A term whose text keeps to one line and neither begins nor ends with a blank. Only strings have
a language. -/
def OneLine : Term → Prop
  | .iri name => '\n' ∉ name.toList
  | .blank label => ∀ c ∈ label.toList, Text.isBlank c = false
  | .literal _ datatype language => '\n' ∉ datatype.toList ∧
      (∀ c ∈ language.toList, Text.isBlank c = false) ∧
      (language ≠ "" → datatype = Vocabulary.rdfLangString)

-- Only the characters of a text are tried, not all there are.
instance : DecidablePred OneLine
  | .iri name => inferInstanceAs (Decidable ('\n' ∉ name.toList))
  | .blank label => List.decidableBAll _ label.toList
  | .literal _ _ language =>
    @instDecidableAnd _ _ inferInstance
      (@instDecidableAnd _ _ (List.decidableBAll _ language.toList) inferInstance)

end Semlift.Rdf.Term

namespace Semlift.Ontology

open Semlift.Rdf Semlift.Text

/-- Blanks that end no line. -/
def Gap (cs : List Char) : Prop := ∀ c ∈ cs, isBlank c = true ∧ c ≠ '\n'

instance : DecidablePred Gap := fun cs => List.decidableBAll _ cs

/-- Lines that spell terms in order, each on a line of its own with blanks around it, with lines of
blanks in any places. -/
inductive Lists : List (List Char) → List Term → Prop where
  | done : Lists [] []
  | blank {line : List Char} {lines : List (List Char)} {xs : List Term} (hline : Gap line)
      (hlines : Lists lines xs) : Lists (line :: lines) xs
  | term {before after : List Char} {x : Term} {lines : List (List Char)} {xs : List Term}
      (hbefore : Gap before) (hafter : Gap after) (hlines : Lists lines xs) :
      Lists ((before ++ x.ntriples.toList ++ after) :: lines) (x :: xs)

/-- An output whose lines spell the terms. -/
def Prints (xs : List Term) (output : String) : Prop :=
  ∃ lines, Lists lines xs ∧ output.toList = ['\n'].intercalate lines

variable {c : Char} {s cs rest before after line : List Char} {lines : List (List Char)} {x : Term}
  {xs : List Term} {output : String}

/-! ### Quoted texts -/

lemma unescape_escapeChar : unescape (escapeChar c ++ cs) = c :: unescape cs := by
  unfold escapeChar
  split_ifs with h₁ h₂ h₃ h₄ h₅
  · simp [unescape, h₁]
  · simp [unescape, h₂]
  · simp [unescape, h₃]
  · simp [unescape, h₄]
  · simp [unescape, h₅]
  · rw [List.singleton_append, unescape]
    rintro e rest rfl
    exact absurd rfl h₁

lemma unescape_escape : unescape (s.flatMap escapeChar) = s := by
  induction s with
  | nil => rfl
  | cons c s ih => rw [List.flatMap_cons, unescape_escapeChar, ih]

lemma splitQuoted_escapeChar : splitQuoted (escapeChar c ++ cs) =
    (splitQuoted cs).map fun (quoted, rest) => (escapeChar c ++ quoted, rest) := by
  unfold escapeChar
  split_ifs with h₁ h₂ h₃ h₄ h₅
  · simp [splitQuoted]
  · simp [splitQuoted]
  · simp [splitQuoted]
  · simp [splitQuoted]
  · simp [splitQuoted]
  · rw [List.singleton_append, splitQuoted, if_neg h₂]
    · simp
    · rintro e rest rfl
      exact absurd rfl h₁

/-- The quote that closes an escaped text is the first that no backslash escapes. -/
lemma splitQuoted_escape :
    splitQuoted (s.flatMap escapeChar ++ '"' :: rest) = some (s.flatMap escapeChar, rest) := by
  induction s with
  | nil => simp [splitQuoted]
  | cons c s ih => simp [splitQuoted_escapeChar, ih]

/-! ### Terms -/

lemma toList_ntriples_typed {lexical datatype : String} :
    (Term.typed lexical datatype).ntriples.toList =
      '"' :: (lexical.toList.flatMap escapeChar ++
        '"' :: '^' :: '^' :: '<' :: (datatype.toList ++ ['>'])) := by
  simp [Term.ntriples, Term.typed, quote, escape]

lemma toList_ntriples_langString {lexical language : String} (h : language ≠ "") :
    (Term.langString lexical language).ntriples.toList =
      '"' :: (lexical.toList.flatMap escapeChar ++ '"' :: '@' :: language.toList) := by
  simp [Term.ntriples, Term.langString, quote, escape, h]

/-- A term is spelled as an IRI, as a blank node, or as a literal with a datatype or a language. -/
@[elab_as_elim]
lemma oneLine_cases {motive : (x : Term) → x.OneLine → Prop}
    (iri : ∀ (name : String) (h : '\n' ∉ name.toList), motive (.iri name) h)
    (blank : ∀ (label : String) (h : ∀ c ∈ label.toList, isBlank c = false),
      motive (.blank label) h)
    (typed : ∀ (lexical datatype : String) (h : (Term.typed lexical datatype).OneLine),
      '\n' ∉ datatype.toList → motive (.typed lexical datatype) h)
    (langString : ∀ (lexical language : String) (h : (Term.langString lexical language).OneLine),
      language ≠ "" → (∀ c ∈ language.toList, isBlank c = false) →
        motive (.langString lexical language) h)
    (x : Term) (hx : x.OneLine) : motive x hx := by
  cases x with
  | iri name => exact iri name hx
  | blank label => exact blank label hx
  | literal lexical datatype language =>
    by_cases h : language = ""
    · subst h
      exact typed lexical datatype hx hx.1
    · obtain rfl := hx.2.2 h
      exact langString lexical language hx h hx.2.1

lemma newline_notMem_of_isBlank (h : ∀ c ∈ cs, isBlank c = false) : '\n' ∉ cs :=
  fun hc => absurd (h _ hc) (by decide)

lemma newline_notMem_ntriples (hx : x.OneLine) : '\n' ∉ x.ntriples.toList := by
  cases x, hx using oneLine_cases with
  | iri name h => simp [Term.toList_ntriples_iri, h]
  | blank label h => simp [Term.toList_ntriples_blank, newline_notMem_of_isBlank h]
  | typed lexical datatype _ h =>
    simp [toList_ntriples_typed, newline_notMem_escapeChar, h]
  | langString lexical language _ hne h =>
    simp [toList_ntriples_langString hne, newline_notMem_escapeChar, newline_notMem_of_isBlank h]

lemma trimmed_ntriples (hx : x.OneLine) : Trimmed x.ntriples.toList := by
  cases x, hx using oneLine_cases with
  | iri name h =>
    rw [Term.toList_ntriples_iri]
    exact trimmed_cons_append (by decide) (by simp) (by simp; decide)
  | blank label h =>
    have hsplit : (Term.blank label).ntriples.toList = '_' :: ([] ++ ':' :: label.toList) :=
      Term.toList_ntriples_blank
    rw [hsplit]
    exact trimmed_cons_append (by decide) (by simp) (by simpa using ⟨by decide, h⟩)
  | typed lexical datatype h =>
    have hsplit : (Term.typed lexical datatype).ntriples.toList = '"' ::
        ((lexical.toList.flatMap escapeChar ++ '"' :: '^' :: '^' :: '<' :: datatype.toList) ++
          ['>']) := by
      simp [toList_ntriples_typed]
    rw [hsplit]
    exact trimmed_cons_append (by decide) (by simp) (by simp; decide)
  | langString lexical language _ hne h =>
    have hsplit : (Term.langString lexical language).ntriples.toList = '"' ::
        ((lexical.toList.flatMap escapeChar ++ ['"']) ++ '@' :: language.toList) := by
      simp [toList_ntriples_langString hne]
    rw [hsplit]
    exact trimmed_cons_append (by decide) (by simp) (by simpa using ⟨by decide, h⟩)

/-- A term is read back from its own text. -/
lemma answerTerm_ntriples (hx : x.OneLine) : answerTerm x.ntriples.toList = .ok x := by
  rw [answerTerm, (trimmed_ntriples hx).trim_eq]
  cases x, hx using oneLine_cases with
  | iri name h => simp [Term.toList_ntriples_iri]
  | blank label h => simp [Term.toList_ntriples_blank]
  | typed lexical datatype _ h =>
    simp [toList_ntriples_typed, answerLiteral, splitQuoted_escape, unescape_escape]
  | langString lexical language _ hne h =>
    simp [toList_ntriples_langString hne, answerLiteral, splitQuoted_escape, unescape_escape]

/-! ### Lists of terms -/

lemma Gap.newline_notMem (h : Gap cs) : '\n' ∉ cs := fun hc => (h _ hc).2 rfl

lemma Gap.isBlank (h : Gap cs) : ∀ c ∈ cs, isBlank c = true := fun c hc => (h c hc).1

lemma Lists.newline_notMem (h : Lists lines xs) (hxs : ∀ x ∈ xs, x.OneLine) :
    ∀ l ∈ lines, '\n' ∉ l := by
  induction h with
  | done => simp
  | blank hline _ ih => exact List.forall_mem_cons.2 ⟨hline.newline_notMem, ih hxs⟩
  | term hbefore hafter _ ih =>
    obtain ⟨hx, hxs⟩ := List.forall_mem_cons.1 hxs
    refine List.forall_mem_cons.2 ⟨?_, ih hxs⟩
    simp [hbefore.newline_notMem, hafter.newline_notMem, newline_notMem_ntriples hx]

/-- Without the blanks and the empty lines, the texts of the terms are left. -/
lemma Lists.trimmed (h : Lists lines xs) (hxs : ∀ x ∈ xs, x.OneLine) :
    (lines.map trim).filter (!·.isEmpty) = xs.map (·.ntriples.toList) := by
  induction h with
  | done => rfl
  | blank hline _ ih => simp [trim_eq_nil hline.isBlank, ih hxs]
  | term hbefore hafter _ ih =>
    obtain ⟨hx, hxs⟩ := List.forall_mem_cons.1 hxs
    rw [List.map_cons, (trimmed_ntriples hx).trim_append hbefore.isBlank hafter.isBlank,
      List.filter_cons_of_pos (by simpa using (trimmed_ntriples hx).nonempty), ih hxs,
      List.map_cons]

lemma answerLines_of_prints (h : Prints xs output) (hxs : ∀ x ∈ xs, x.OneLine) :
    answerLines output = xs.map (·.ntriples.toList) := by
  obtain ⟨lines, hlines, houtput⟩ := h
  rw [answerLines, houtput]
  cases lines with
  | nil =>
    cases hlines
    rfl
  | cons line lines =>
    rw [splitOn_intercalate (hlines.newline_notMem hxs) (by simp), hlines.trimmed hxs]

/-- What is printed a term a line is read back, each term as it was and in order. -/
lemma listed_of_prints (h : Prints xs output) (hxs : ∀ x ∈ xs, x.OneLine) :
    listed output = .ok xs := by
  rw [listed, answerLines_of_prints h hxs, mapM_eq_ok, List.forall₂_map_left_iff,
    List.forall₂_same]
  intro x hx
  rw [answerTerm_ntriples (hxs x hx)]

end Semlift.Ontology
