import Mathlib.Data.List.Basic
import Mathlib.Data.List.Induction
import Semlift.Proofs.Rdf.Turtle.Lexeme
import Semlift.Query.Eval

/-!
Repeated rows. A row is dropped if an earlier one has its key, so that of the rows with one key the
first stays. Keys are texts: they tell rows apart whose terms can be told from their texts, and of
such rows only equal ones are repeated.
-/

namespace Semlift.Rdf.Term

/-- A term that ends where its text ends it: no IRI and no datatype holds a closing bracket, no
label and no language the separator of the cells of a row, and only strings have a language. -/
def Legible : Term → Prop
  | .iri name => '>' ∉ name.toList
  | .blank label => '\x1f' ∉ label.toList
  | .literal _ datatype language => '>' ∉ datatype.toList ∧ '\x1f' ∉ language.toList ∧
      (language ≠ "" → datatype = Vocabulary.rdfLangString)

instance : DecidablePred Legible
  | .iri name => inferInstanceAs (Decidable ('>' ∉ name.toList))
  | .blank label => inferInstanceAs (Decidable ('\x1f' ∉ label.toList))
  | .literal _ _ _ => inferInstanceAs (Decidable (_ ∧ _ ∧ _))

end Semlift.Rdf.Term

namespace Semlift.Query

open Semlift.Rdf

/-- The cells of a row. -/
abbrev Cells := List (Option Term)

variable {rows : List Cells} {r : Cells} {c d : Option Term} {xs ys : List Char} {s t : Term}

/-! ### The first row with a key -/

/-- The keys that were seen and the rows that are kept after one more row. -/
def keepNew (acc : List String × List Cells) (r : Cells) : List String × List Cells :=
  if rowKey r ∈ acc.1 then acc else (rowKey r :: acc.1, acc.2 ++ [r])

lemma dropRepeated_eq : dropRepeated rows = (rows.foldl keepNew ([], [])).2 := rfl

lemma mem_keys {key : String} :
    key ∈ (rows.foldl keepNew ([], [])).1 ↔ ∃ x ∈ rows, rowKey x = key := by
  induction rows using List.reverseRecOn generalizing key with
  | nil => simp
  | append_singleton rows r ih =>
    rw [List.foldl_append, List.foldl_cons, List.foldl_nil, keepNew]
    split
    · rename_i hseen
      rw [ih]
      refine ⟨fun ⟨x, hx, hk⟩ => ⟨x, by simp [hx], hk⟩, ?_⟩
      rintro ⟨x, hx, rfl⟩
      rcases List.mem_append.1 hx with hx | hx
      · exact ⟨x, hx, rfl⟩
      · rw [List.mem_singleton.1 hx]
        exact ih.1 hseen
    · simp only [List.mem_cons, ih, List.mem_append, List.not_mem_nil, or_false]
      constructor
      · rintro (rfl | ⟨x, hx, rfl⟩)
        · exact ⟨r, .inr rfl, rfl⟩
        · exact ⟨x, .inl hx, rfl⟩
      · rintro ⟨x, hx | rfl, rfl⟩
        · exact .inr ⟨x, hx, rfl⟩
        · exact .inl rfl

lemma dropRepeated_concat : dropRepeated (rows ++ [r]) =
    if ∃ x ∈ rows, rowKey x = rowKey r then dropRepeated rows else dropRepeated rows ++ [r] := by
  simp only [dropRepeated_eq, List.foldl_append, List.foldl_cons, List.foldl_nil, keepNew, mem_keys]
  split <;> rfl

/-- **A row stays** exactly if it is the first one with its key. -/
theorem mem_dropRepeated :
    r ∈ dropRepeated rows ↔ rows.find? (fun x => rowKey x == rowKey r) = some r := by
  induction rows using List.reverseRecOn with
  | nil => simp [dropRepeated]
  | append_singleton rows x ih =>
    rw [dropRepeated_concat, List.find?_append]
    cases hfind : rows.find? (fun x => rowKey x == rowKey r) with
    | some y =>
      have hkey : rowKey y = rowKey r := by simpa using List.find?_some hfind
      rw [hfind] at ih
      rw [Option.some_or, ← ih]
      split
      · exact .rfl
      · rename_i hnew
        have hne : r ≠ x := fun he => hnew ⟨y, List.mem_of_find?_eq_some hfind, he ▸ hkey⟩
        simp [hne]
    | none =>
      have hkept : r ∉ dropRepeated rows := by simp [ih, hfind]
      have hkey : ∀ y ∈ rows, rowKey y ≠ rowKey r := by simpa using hfind
      rw [Option.none_or, List.find?_singleton]
      split
      · rename_i hold
        have hne : x ≠ r := by
          rintro rfl
          obtain ⟨y, hy, he⟩ := hold
          exact hkey y hy he
        simp [hkept, hne]
      · by_cases he : x = r
        · simp [he]
        · simp [hkept, he, Ne.symm he]

/-! ### Keys of legible rows -/

/-- The text of a cell in a key. -/
def cellText (c : Option Term) : String := (c.map Term.ntriples).getD ""

lemma toList_rowKey_cons :
    (rowKey (c :: r)).toList = (cellText c).toList ++ '\x1f' :: (rowKey r).toList := by
  simp [rowKey, cellText, String.join_cons]

/-- Both sides of the first occurrence of a character are determined. -/
lemma toList_inj_of_append {a b : String} {x : Char} (ha : x ∉ a.toList) (hb : x ∉ b.toList)
    (h : a.toList ++ x :: xs = b.toList ++ x :: ys) : a = b ∧ xs = ys := by
  rcases List.append_eq_append_iff.1 h with ⟨cs, he, hc⟩ | ⟨cs, he, hc⟩
  all_goals
    cases cs with
    | nil =>
      rw [List.append_nil] at he
      simp_all [String.toList_injective he]
    | cons c cs => simp_all

/-- What follows the quoted text of a literal. -/
def literalTail (datatype language : String) : List Char :=
  if language = "" then '^' :: '^' :: '<' :: datatype.toList ++ ['>'] else '@' :: language.toList

lemma toList_ntriples_literal {lexical datatype language : String} :
    (Term.literal lexical datatype language).ntriples.toList =
      '"' :: (lexical.toList.flatMap Text.escapeChar ++ '"' :: literalTail datatype language) := by
  by_cases h : language = "" <;> simp [Term.ntriples, literalTail, h, Text.quote, Text.escape]

lemma literalTail_inj {a b datatype datatype' language language' : String}
    (hs : (Term.literal a datatype language).Legible)
    (ht : (Term.literal b datatype' language').Legible)
    (h : literalTail datatype language ++ '\x1f' :: xs =
      literalTail datatype' language' ++ '\x1f' :: ys) :
    datatype = datatype' ∧ language = language' ∧ xs = ys := by
  obtain ⟨hd, hl, hstring⟩ := hs
  obtain ⟨hd', hl', hstring'⟩ := ht
  by_cases he : language = "" <;> by_cases he' : language' = ""
  · have h : datatype.toList ++ '>' :: '\x1f' :: xs = datatype'.toList ++ '>' :: '\x1f' :: ys := by
      simpa [literalTail, he, he'] using h
    obtain ⟨hdatatype, hrest⟩ := toList_inj_of_append hd hd' h
    exact ⟨hdatatype, he.trans he'.symm, (List.cons.inj hrest).2⟩
  · simp [literalTail, he, he'] at h
  · simp [literalTail, he, he'] at h
  · have h : language.toList ++ '\x1f' :: xs = language'.toList ++ '\x1f' :: ys := by
      simpa [literalTail, he, he'] using h
    obtain ⟨hlanguage, hrest⟩ := toList_inj_of_append hl hl' h
    exact ⟨(hstring he).trans (hstring' he').symm, hlanguage, hrest⟩

/-- The quoted text is read back from what begins with it. -/
lemma literal_inj {a b datatype datatype' language language' : String}
    (hs : (Term.literal a datatype language).Legible)
    (ht : (Term.literal b datatype' language').Legible)
    (h : (Term.literal a datatype language).ntriples.toList ++ '\x1f' :: xs =
      (Term.literal b datatype' language').ntriples.toList ++ '\x1f' :: ys) :
    Term.literal a datatype language = .literal b datatype' language' ∧ xs = ys := by
  simp only [toList_ntriples_literal, List.cons_append, List.append_assoc, List.cons.injEq,
    true_and] at h
  have hread := congrArg (Turtle.stringBody '"' false) h
  rw [Turtle.stringBody_escape, Turtle.stringBody_escape] at hread
  simp only [Except.ok.injEq, Prod.mk.injEq] at hread
  obtain ⟨hlexical, htail⟩ := hread
  obtain rfl := String.toList_injective hlexical
  obtain ⟨rfl, rfl, rfl⟩ := literalTail_inj hs ht htail
  exact ⟨rfl, rfl⟩

/-- A legible term is told from its text up to the separator. -/
lemma ntriples_inj (hs : s.Legible) (ht : t.Legible)
    (h : s.ntriples.toList ++ '\x1f' :: xs = t.ntriples.toList ++ '\x1f' :: ys) :
    s = t ∧ xs = ys := by
  cases s with
  | iri a =>
    cases t with
    | iri b =>
      have h : a.toList ++ '>' :: '\x1f' :: xs = b.toList ++ '>' :: '\x1f' :: ys := by
        simpa [Term.toList_ntriples_iri] using h
      obtain ⟨rfl, hrest⟩ := toList_inj_of_append hs ht h
      exact ⟨rfl, (List.cons.inj hrest).2⟩
    | blank => simp [Term.toList_ntriples_iri, Term.toList_ntriples_blank] at h
    | literal => simp [toList_ntriples_literal, Term.toList_ntriples_iri] at h
  | blank a =>
    cases t with
    | blank b =>
      have h : a.toList ++ '\x1f' :: xs = b.toList ++ '\x1f' :: ys := by
        simpa [Term.toList_ntriples_blank] using h
      obtain ⟨rfl, hrest⟩ := toList_inj_of_append hs ht h
      exact ⟨rfl, hrest⟩
    | iri => simp [Term.toList_ntriples_iri, Term.toList_ntriples_blank] at h
    | literal => simp [toList_ntriples_literal, Term.toList_ntriples_blank] at h
  | literal a datatype language =>
    cases t with
    | literal => exact literal_inj hs ht h
    | iri => simp [toList_ntriples_literal, Term.toList_ntriples_iri] at h
    | blank => simp [toList_ntriples_literal, Term.toList_ntriples_blank] at h

/-- The cells of a row have terms that can be told from their texts. -/
def Legible (r : Cells) : Prop := ∀ c ∈ r, ∀ t ∈ c, t.Legible

/-- No written term begins with the separator. -/
lemma ntriples_ne_separator : s.ntriples.toList ++ xs ≠ '\x1f' :: ys := by
  cases s with
  | iri => simp [Term.toList_ntriples_iri]
  | blank => simp [Term.toList_ntriples_blank]
  | literal => simp [toList_ntriples_literal]

lemma cellText_inj (hc : ∀ t ∈ c, t.Legible) (hd : ∀ t ∈ d, t.Legible)
    (h : (cellText c).toList ++ '\x1f' :: xs = (cellText d).toList ++ '\x1f' :: ys) :
    c = d ∧ xs = ys := by
  cases c with
  | none =>
    cases d with
    | none => exact ⟨rfl, (List.cons.inj h).2⟩
    | some t => exact absurd h.symm ntriples_ne_separator
  | some s =>
    cases d with
    | none => exact absurd h ntriples_ne_separator
    | some t =>
      obtain ⟨rfl, hrest⟩ := ntriples_inj (hc s rfl) (hd t rfl) h
      exact ⟨rfl, hrest⟩

/-- **Legible rows are told apart by their keys.** -/
theorem rowKey_inj {r r' : Cells} (hr : Legible r) (hr' : Legible r')
    (hlen : r.length = r'.length) (h : rowKey r = rowKey r') : r = r' := by
  induction r generalizing r' with
  | nil => exact (List.length_eq_zero_iff.1 hlen.symm).symm
  | cons c r ih =>
    cases r' with
    | nil => simp at hlen
    | cons d r' =>
      have hkey := congrArg String.toList h
      rw [toList_rowKey_cons, toList_rowKey_cons] at hkey
      obtain ⟨rfl, hrest⟩ := cellText_inj (hr c (by simp)) (hr' d (by simp)) hkey
      have htail : r = r' := ih (fun c hc => hr c (by simp [hc])) (fun c hc => hr' c (by simp [hc]))
        (by simpa using hlen) (String.toList_injective hrest)
      rw [htail]

end Semlift.Query
