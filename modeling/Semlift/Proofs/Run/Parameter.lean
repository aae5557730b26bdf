import Semlift.Lift.Names
import Semlift.Proofs.Except
import Semlift.Proofs.Query.Replace
import Semlift.Proofs.Text.Numerals

/-!
The parameters of an access are written into the text of its query. In its place each is read back
as the term of its value, but a string only if it has no carriage return.
-/

namespace Semlift.Run

open Semlift.Rdf Semlift.Query Semlift.Lift

/-- A namespace whose names can stand between angle brackets. -/
structure Enclosable (ns : String) : Prop where
  head : ns.toList.head? ≠ some '='
  chars : ∀ c ∈ ns.toList, isIriChar c = true

instance : DecidablePred Enclosable := fun ns =>
  decidable_of_iff (ns.toList.head? ≠ some '=' ∧ ns.toList.all isIriChar)
    ⟨fun ⟨h₁, h₂⟩ => ⟨h₁, List.all_eq_true.1 h₂⟩, fun h => ⟨h.head, List.all_eq_true.2 h.chars⟩⟩

variable {names : Namespaces} {p : Prefixes} {before after x s : String} {q : Select} {v : Value}
  {t : Term} {r : ObjectRef}

lemma isIriChar_of_isDigit {c : Char} (h : c.isDigit = true) : isIriChar c = true := by
  have hblank : Text.isBlank c = false :=
    Rdf.Turtle.isBlank_of_isNameChar (by simp [Rdf.Turtle.isNameChar, h])
  have hne : c ≠ '>' ∧ c ≠ '<' := by
    constructor <;> rintro rfl <;> cases h
  simp [isIriChar, hblank, hne]

lemma reference_object (h : Enclosable names.run) : Reference (names.run ++ r.name) := by
  have hname : r.name.toList = 'o' :: 'b' :: 'j' :: (Number.natText r.serial).toList := by
    simp [ObjectRef.name]
  refine ⟨by simp [hname], ?_, fun c hc => ?_⟩
  · cases hrun : names.run.toList with
    | nil => simp [hrun, hname]
    | cons c cs => simpa [hrun] using h.head
  · rw [String.toList_append, List.mem_append] at hc
    rcases hc with hc | hc
    · exact h.chars c hc
    · rw [hname] at hc
      simp only [List.mem_cons] at hc
      rcases hc with rfl | rfl | rfl | hc
      · rfl
      · rfl
      · rfl
      · exact isIriChar_of_isDigit (isDigit_of_mem_natText hc)

lemma writable_lift (h : Enclosable names.run) (hv : names.lift? v = some t) : Writable t := by
  cases v <;> cases hv
  · exact .typed (by decide +kernel)
  · exact .typed (by decide +kernel)
  · exact .typed (by decide +kernel)
  · exact .string
  · exact .iri (reference_object h)

/-! ### What a query makes of the texts of values -/

lemma rereadText_eq_self : rereadText s = s ↔ '\r' ∉ s.toList := by
  constructor
  · intro h hmem
    rw [← h, rereadText, String.toList_ofList, List.mem_map] at hmem
    obtain ⟨c, -, hc⟩ := hmem
    unfold reread at hc
    split_ifs at hc with hreturn
    · cases hc
    · exact hreturn hc
  · intro h
    have hid : s.toList.map reread = s.toList.map id := List.map_congr_left fun c hc => by
      have hne : c ≠ '\r' := by rintro rfl; exact h hc
      simp [reread, hne]
    rw [rereadText, hid, List.map_id, String.ofList_toList]

lemma rereadText_numeral (h : ∀ c ∈ s.toList, isNumeral c = true) : rereadText s = s :=
  rereadText_eq_self.2 fun hmem => absurd (h _ hmem) (by decide)

/-- Only strings with a carriage return are read as another constant. -/
lemma rereadTerm_eq_self (hv : names.lift? v = some t) :
    rereadTerm t = t ↔ ∀ s, v = .str s → '\r' ∉ s.toList := by
  have hother (h : rereadTerm t = t) (hne : ∀ s, v ≠ .str s) :
      rereadTerm t = t ↔ ∀ s, v = .str s → '\r' ∉ s.toList :=
    iff_of_true h fun s hs => absurd hs (hne s)
  cases v with
  | null => cases hv
  | bool b =>
    cases hv
    exact hother (by cases b <;> decide +kernel) fun _ h => by cases h
  | int n =>
    cases hv
    have htext := rereadText_numeral fun c hc => isNumeral_of_mem_intText (i := n.toInt) hc
    exact hother (by rw [Term.integer, Term.typed, rereadTerm, htext]) fun _ h => by cases h
  | double d =>
    cases hv
    have htext := rereadText_numeral fun c hc => isNumeral_of_mem_doubleText (x := d) hc
    exact hother (by rw [Term.double, Term.typed, rereadTerm, htext]) fun _ h => by cases h
  | str s =>
    cases hv
    simp [Term.string, Term.typed, rereadTerm, rereadText_eq_self]
  | object r =>
    cases hv
    exact hother rfl fun _ h => by cases h

/-! ### One pattern -/

def patternFront : String := "SELECT ?s WHERE \x7b ?s <urn:p> "

def patternBack : String := " . \x7d"

/-- The query with one pattern and a constant as its object. -/
def objectQuery (o : Term) : Select :=
  ⟨false, .these ["s"], [⟨.var "s", .term (.iri "urn:p"), .term o⟩], [], [], none, none⟩

lemma parse_objectQuery {text : String} {o : Term}
    (h : (parse text Prefixes.standard).toOption.any fun q => q.distinct == false &&
      q.projection == .these ["s"] && q.filters.isEmpty && q.order.isEmpty && q.limit.isNone &&
      q.offset.isNone && q.patterns == [⟨.var "s", .term (.iri "urn:p"), .term o⟩]) :
    parse text Prefixes.standard = .ok (objectQuery o) := by
  obtain ⟨⟨_, _, _, _, _, _, _⟩, hq, hfields⟩ := exists_ok_of_any h
  simp only [Bool.and_eq_true, beq_iff_eq, List.isEmpty_iff, Option.isNone_iff_eq_none,
    and_assoc] at hfields
  obtain ⟨rfl, rfl, rfl, rfl, rfl, rfl, rfl⟩ := hfields
  exact hq

lemma place_pattern :
    Place Prefixes.standard patternFront patternBack "x" (objectQuery (.string "x")) := by
  have htokens : tokens (patternFront ++ Text.quote "x" ++ patternBack) = .ok
      ([⟨.word, "SELECT", 0⟩, ⟨.var, "s", 7⟩, ⟨.word, "WHERE", 10⟩, ⟨.punct, "\x7b", 16⟩,
        ⟨.var, "s", 18⟩, ⟨.iri, "urn:p", 21⟩] ++ ⟨.string, "x", 29⟩ ::
        [⟨.punct, ".", 33⟩, ⟨.punct, "\x7d", 35⟩, ⟨.done, "", 36⟩]) := by
    decide +kernel
  refine ⟨?_, by decide +kernel, by decide +kernel, parse_objectQuery (by decide +kernel), ?_, ?_⟩
  · have hblank : Clear ("SELECT ?s WHERE \x7b ?s <urn:p>".toList ++ [' ']) :=
      clear_append_blank rfl
    exact hblank
  · exact ⟨_, _, _, htokens, rfl, by decide +kernel, by decide +kernel, by decide +kernel⟩
  · intro ts hts
    cases htokens.symm.trans hts
    unfold Keeps
    decide +kernel

def patternNames : Namespaces := ⟨"urn:prog#", "urn:run#", "urn:lang#", "urn:domain#"⟩

/-! ### Parameters -/

/-- **A parameter in its place** is read as the term of its value, but with the letter `r` for every
carriage return of a string: the query is the one with the mark, up to that constant. So a value is
read back exactly if it is no string with a carriage return. -/
theorem parse_parameter (hp : ∀ e ∈ p.entries, PrefixName e.1) (hrun : Enclosable names.run)
    (hplace : Place p before after x q) (hv : v ≠ .null) :
    ∃ t, names.lift? v = some t ∧
      parse (before ++ t.turtle p ++ after) p = .ok (q.subst x (rereadTerm t)) ∧
      (rereadTerm t = t ↔ ∀ s, v = .str s → '\r' ∉ s.toList) := by
  obtain ⟨t, ht⟩ : ∃ t, names.lift? v = some t := by
    cases v <;> first | exact absurd rfl hv | exact ⟨_, rfl⟩
  exact ⟨t, ht, parse_turtle hp hplace (writable_lift hrun ht), rereadTerm_eq_self ht⟩

/-- An integer is the object of the pattern that its text is written into. -/
theorem parse_parameter_integer :
    (∀ e ∈ Prefixes.standard.entries, PrefixName e.1) ∧ Enclosable patternNames.run ∧
      Place Prefixes.standard patternFront patternBack "x" (objectQuery (.string "x")) ∧
      ∃ t, patternNames.lift? (.int 42) = some t ∧
        parse (patternFront ++ t.turtle Prefixes.standard ++ patternBack) Prefixes.standard =
          .ok (objectQuery t) := by
  have hp : ∀ e ∈ Prefixes.standard.entries, PrefixName e.1 := by decide +kernel
  have hrun : Enclosable patternNames.run := by decide +kernel
  obtain ⟨t, ht, hparse, hself⟩ :=
    parse_parameter (v := .int 42) hp hrun place_pattern nofun
  rw [hself.2 nofun] at hparse
  refine ⟨hp, hrun, place_pattern, t, ht, hparse.trans ?_⟩
  simp [Select.subst, objectQuery, Pattern.subst, Node.subst, substTerm, Term.string, Term.typed]

/-- **A carriage return is lost** on the way into a query: the string comes out with a letter `r`
in its place. -/
theorem carriage_return_lost :
    (∀ e ∈ Prefixes.standard.entries, PrefixName e.1 ∧ Enclosable e.2) ∧
      Prefixes.standard.find? "xsd" = some Vocabulary.xsd ∧
      ∃ t q, patternNames.lift? (.str "a\rb") = some t ∧
        parse (patternFront ++ t.turtle Prefixes.standard ++ patternBack) Prefixes.standard =
          .ok q ∧
        q.patterns.map (·.object) = [.term (.string "arb")] ∧ Term.string "arb" ≠ t := by
  exact ⟨by decide +kernel, by decide +kernel, _, _, rfl, parse_objectQuery (by decide +kernel),
    rfl, by decide⟩

end Semlift.Run
