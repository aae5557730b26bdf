import Semlift.Proofs.Ontology.Denotation
import Semlift.Proofs.Ontology.ReadBack
import Semlift.Proofs.Query.Spelling
import Semlift.Proofs.Rdf.Turtle.Point
import Semlift.Proofs.Rdf.Turtle.Tells
import Semlift.Query.Eval
import Semlift.Query.Parser

/-!
The numbers of documents, queries and class expressions. Digits, with or without a fraction and an
exponent, are one number wherever they stand. The three readers tell its datatype on their own: in
a document a plain decimal is one, in the other two it is a double.
-/

namespace Semlift

open Semlift.Rdf Semlift.Text

/-- Digits, at least one. -/
structure DigitRun where
  text : List Char
  nonempty : text ≠ []
  digits : ∀ c ∈ text, c.isDigit = true

structure Exponent where
  mark : Char
  sign : Option Char
  digits : DigitRun
  isMark : mark = 'e' ∨ mark = 'E'
  isSign : ∀ c ∈ sign, Turtle.isSign c = true

/-- A number without sign. -/
structure Numeral where
  whole : DigitRun
  fraction : Option DigitRun
  exponent : Option Exponent

def Exponent.chars (e : Exponent) : List Char := e.mark :: (e.sign.toList ++ e.digits.text)

namespace Numeral

def fractionChars (x : Numeral) : List Char := x.fraction.elim [] fun d => '.' :: d.text

def exponentChars (x : Numeral) : List Char := x.exponent.elim [] Exponent.chars

def chars (x : Numeral) : List Char := x.whole.text ++ (x.fractionChars ++ x.exponentChars)

def text (x : Numeral) : String := String.ofList x.chars

/-- A fraction, and no exponent. -/
def IsDecimal (x : Numeral) : Prop := x.fraction.isSome ∧ x.exponent = none

instance (x : Numeral) : Decidable x.IsDecimal :=
  decidable_of_iff (x.fraction.isSome ∧ x.exponent.isNone) (by simp [IsDecimal])

/-- The term of a number in a document. -/
def object (x : Numeral) : Term :=
  .typed x.text (if x.exponent.isSome then Vocabulary.xsdDouble
    else if x.fraction.isSome then Vocabulary.xsdDecimal else Vocabulary.xsdInteger)

/-- The term of a number in a query or a class expression. -/
def constant (x : Numeral) : Term :=
  .typed x.text (if x.fraction.isSome || x.exponent.isSome then Vocabulary.xsdDouble
    else Vocabulary.xsdInteger)

lemma object_eq_constant_iff (x : Numeral) : x.object = x.constant ↔ ¬x.IsDecimal := by
  have hdecimal : Vocabulary.xsdDecimal ≠ Vocabulary.xsdDouble := by decide +kernel
  obtain ⟨w, f, e⟩ := x
  cases f <;> cases e <;> simp [object, constant, IsDecimal, Term.typed, hdecimal]

end Numeral

variable {x : Numeral} {d : DigitRun} {e : Exponent} {z rest : List Char} {c : Char}

lemma DigitRun.exists_cons (d : DigitRun) : ∃ c cs, d.text = c :: cs ∧ c.isDigit = true := by
  obtain ⟨c, cs, hcs⟩ := List.exists_cons_of_ne_nil d.nonempty
  exact ⟨c, cs, hcs, d.digits c (by simp [hcs])⟩

lemma Numeral.exists_cons (x : Numeral) : ∃ c cs, x.chars = c :: cs ∧ c.isDigit = true := by
  obtain ⟨c, cs, hcs, hc⟩ := x.whole.exists_cons
  exact ⟨c, cs ++ (x.fractionChars ++ x.exponentChars), by simp [Numeral.chars, hcs], hc⟩

lemma ne_of_isDigit (h : c.isDigit = true) {d : Char} (hd : d.isDigit = false) : c ≠ d := by
  rintro rfl
  rw [hd] at h
  cases h

lemma isNameChar_of_isDigit (h : c.isDigit = true) : Turtle.isNameChar c = true := by
  simp [Turtle.isNameChar, h]

lemma not_isSign_of_isDigit (h : c.isDigit = true) : Turtle.isSign c = false := by
  simp [Turtle.isSign, ne_of_isDigit h]

/-- A text that does not go on with digits. -/
def NoDigit (z : List Char) : Prop := ∀ c ∈ z.head?, c.isDigit = false

lemma DigitRun.dropWhile_append (d : DigitRun) (h : NoDigit z) :
    (d.text ++ z).dropWhile Char.isDigit = z := by
  rw [List.dropWhile_append_of_pos d.digits]
  cases z with
  | nil => rfl
  | cons c z => exact List.dropWhile_cons_of_neg (by simp [h c rfl])

lemma DigitRun.takeWhile_append (d : DigitRun) (h : NoDigit z) :
    (d.text ++ z).takeWhile Char.isDigit = d.text := by
  rw [List.takeWhile_append_of_pos d.digits]
  cases z with
  | nil => simp
  | cons c z => simp [h c rfl]

lemma noDigit_nil : NoDigit [] := by simp [NoDigit]

lemma Exponent.noDigit (e : Exponent) : NoDigit (e.chars ++ z) := by
  rintro c ⟨⟩
  rcases e.isMark with h | h <;> rw [h] <;> decide

/-- What follows the digits in front. -/
lemma Numeral.noDigit_exponent (x : Numeral) (h : NoDigit z) : NoDigit (x.exponentChars ++ z) := by
  obtain ⟨w, f, e⟩ := x
  cases e with
  | none => exact h
  | some e => exact e.noDigit

lemma Numeral.noDigit_fraction (x : Numeral) (h : NoDigit z) :
    NoDigit (x.fractionChars ++ (x.exponentChars ++ z)) := by
  have hexponent : NoDigit (x.exponentChars ++ z) := x.noDigit_exponent h
  obtain ⟨w, f, e⟩ := x
  cases f with
  | none => exact hexponent
  | some d =>
    rintro c ⟨⟩
    decide

end Semlift

namespace Semlift.Rdf.Turtle

variable {x : Numeral} {d : DigitRun} {e : Exponent} {cs z : List Char} {n : Nat}

lemma NumeralEnd.noDigit (hz : NumeralEnd z) : NoDigit z := by
  cases z with
  | nil => exact noDigit_nil
  | cons c z =>
    rintro _ ⟨⟩
    exact hz.digit

lemma numeralEnd_space (cs : List Char) : NumeralEnd (' ' :: cs) := ⟨rfl, rfl, rfl, rfl⟩

lemma unsigned_digits (d : DigitRun) (cs : List Char) : unsigned (d.text ++ cs) = d.text ++ cs := by
  obtain ⟨c, more, htext, hc⟩ := d.exists_cons
  rw [htext, unsigned, if_neg]
  simp [at', not_isSign_of_isDigit hc]

lemma whole_digits (d : DigitRun) (h : NoDigit z) : whole (d.text ++ z) = z := by
  rw [whole, unsigned_digits, d.dropWhile_append h]

/-- The exponent ends where its digits end. -/
lemma unsigned_exponent (e : Exponent) : unsigned (e.chars.drop 1) = e.digits.text := by
  have hchars : e.chars.drop 1 = e.sign.toList ++ e.digits.text := rfl
  have hsign := e.isSign
  rw [hchars]
  cases hs : e.sign with
  | none => simpa using unsigned_digits e.digits []
  | some c => simp [unsigned, at', hsign c hs]

lemma fractional_numeral (x : Numeral) :
    fractional (x.fractionChars ++ x.exponentChars) = x.fraction.isSome := by
  obtain ⟨w, f, e⟩ := x
  cases f with
  | some d =>
    obtain ⟨c, cs, htext, hc⟩ := d.exists_cons
    simp [Numeral.fractionChars, htext, fractional, at', hc]
  | none =>
    cases e with
    | none => rfl
    | some e =>
      have hmark : (e.mark == '.') = false := by rcases e.isMark with h | h <;> rw [h] <;> decide
      simp [Numeral.fractionChars, Numeral.exponentChars, Exponent.chars, fractional, at', hmark]

lemma marked_numeral (x : Numeral) : marked x.exponentChars = x.exponent.isSome := by
  obtain ⟨w, f, e⟩ := x
  cases e with
  | none => rfl
  | some e =>
    rcases e.isMark with h | h <;>
      simp [Numeral.exponentChars, Exponent.chars, marked, at', h]

lemma fraction_numeral (x : Numeral) : fraction x.chars = x.exponentChars := by
  have hstop : NoDigit x.exponentChars := by simpa using x.noDigit_exponent noDigit_nil
  have hwhole : whole x.chars = x.fractionChars ++ x.exponentChars :=
    whole_digits x.whole (by simpa using x.noDigit_fraction noDigit_nil)
  rw [fraction, hwhole, fractional_numeral]
  obtain ⟨w, f, e⟩ := x
  cases f with
  | none => rfl
  | some d => exact d.dropWhile_append hstop

/-- A document takes the whole of a number. -/
lemma numeral_chars (x : Numeral) : numeral x.chars = .ok (x.object, []) := by
  have hwhole : whole x.chars = x.fractionChars ++ x.exponentChars :=
    whole_digits x.whole (by simpa using x.noDigit_fraction noDigit_nil)
  have hdigits : 0 < x.whole.text.length := List.length_pos_of_ne_nil x.whole.nonempty
  have hlength : ((x.fractionChars ++ x.exponentChars).length == x.chars.length) = false := by
    simp only [beq_eq_false_iff_ne, Numeral.chars, List.length_append]
    omega
  rw [numeral_eq, hwhole, fraction_numeral, fractional_numeral, marked_numeral,
    show unsigned x.chars = x.chars from unsigned_digits _ _, hlength, Bool.and_false,
    if_neg Bool.false_ne_true]
  cases he : x.exponent with
  | none =>
    have hchars : x.exponentChars = [] := by simp [Numeral.exponentChars, he]
    cases hf : x.fraction <;> simp [hchars, written, Numeral.object, Numeral.text, he, hf]
  | some e =>
    have hchars : x.exponentChars = e.chars := by simp [Numeral.exponentChars, he]
    have hend : whole (e.chars.drop 1) = [] := by
      rw [whole, unsigned_exponent]
      simpa using e.digits.dropWhile_append noDigit_nil
    have hempty : (([] : List Char).length == e.digits.text.length) = false :=
      beq_eq_false_iff_ne.2 (List.length_pos_of_ne_nil e.digits.nonempty).ne
    rw [hchars, hend, unsigned_exponent, hempty]
    simp [written, Numeral.object, Numeral.text, he]

/-- Wherever a number may end, a document has this object for the text. -/
def IsObject (text : String) (t : Term) : Prop :=
  ∀ r n ws z g, Gap ws → NumeralEnd z →
    Step.Gives (Step.object (n + 1)) ⟨r, ws ++ (text.toList ++ z), g⟩ t ⟨r, z, g⟩

lemma gives_object_numeral (x : Numeral) {r : Reader} {ws : List Char} {g : Graph} (hws : Gap ws)
    (hz : NumeralEnd z) :
    Step.Gives (Step.object (n + 1)) ⟨r, ws ++ (x.chars ++ z), g⟩ x.object ⟨r, z, g⟩ := by
  have hlex : numeral (x.chars ++ z) = .ok (x.object, z) :=
    hz.numeral_append.2 (numeral_chars x)
  obtain ⟨c, cs, hchars, hc⟩ := x.exists_cons
  rw [hchars, List.cons_append] at hlex ⊢
  rw [Step.object]
  refine (Step.gives_gap hws (skip_cons (opens_of_isNameChar (isNameChar_of_isDigit hc)))).bind
    (Step.gives_ahead.bind (Step.gives_ahead.bind ?_))
  have h₀ : at' (c :: (cs ++ z)) 0 = c := rfl
  have hne (d : Char) (hd : d.isDigit = false) : (c == d) = false :=
    beq_false_of_ne (ne_of_isDigit hc hd)
  simp only [h₀, hne '[' rfl, hne '(' rfl, hne '_' rfl, hne '"' rfl, hne '\'' rfl, hc,
    Bool.false_and, Bool.or_false, Bool.true_or, Bool.false_eq_true, if_false, if_true]
  exact Step.gives_lex hlex

lemma isObject_numeral (x : Numeral) : IsObject x.text x.object := by
  intro r n ws z g hws hz
  rw [Numeral.text, String.toList_ofList]
  exact gives_object_numeral x hws hz

end Semlift.Rdf.Turtle

namespace Semlift.Query

open Semlift.Rdf Semlift.Rdf.Turtle

variable {x : Numeral} {d : DigitRun} {e : Exponent} {z : List Char} {o : Nat}

lemma digitCount_append (d : DigitRun) (h : NoDigit z) :
    digitCount (d.text ++ z) = d.text.length := by
  rw [digitCount, d.takeWhile_append h]

lemma fractionLength_end (hz : NumeralEnd z) : fractionLength z = 0 := by
  unfold fractionLength
  split
  · rename_i cs
    have hdigit : (at' cs 0).isDigit = false := hz.fractional
    cases cs with
    | nil => rfl
    | cons c cs =>
      have hc : c.isDigit = false := hdigit
      simp [digitCount, hc]
  · rfl

lemma exponentLength_end (hz : NumeralEnd z) : exponentLength z = 0 := by
  cases z with
  | nil => rfl
  | cons c z =>
    have hmarked : (c == 'e' || c == 'E') = false := hz.marked
    simp only [Bool.or_eq_false_iff, beq_eq_false_iff_ne] at hmarked
    simp [exponentLength, hmarked]

lemma exponentLength_exponent (e : Exponent) (hz : NoDigit z) :
    exponentLength (e.chars ++ z) = e.chars.length := by
  obtain ⟨c, cs, htext, hc⟩ := e.digits.exists_cons
  have hdigits : digitCount (c :: (cs ++ z)) = cs.length + 1 := by
    simpa [htext] using digitCount_append e.digits hz
  have hnot : c ≠ '+' ∧ c ≠ '-' := by
    simpa [Turtle.isSign] using not_isSign_of_isDigit hc
  have hmark : (e.mark = 'e' || e.mark = 'E') = true := by simpa using e.isMark
  have hsign := e.isSign
  simp only [Turtle.isSign, Bool.or_eq_true, beq_iff_eq] at hsign
  cases hs : e.sign with
  | none => simp [Exponent.chars, hs, htext, exponentLength, hmark, hnot, hdigits]
  | some s => simp [Exponent.chars, hs, htext, exponentLength, hmark, hsign s hs, hdigits]

lemma exponentLength_numeral (x : Numeral) (hz : NumeralEnd z) :
    exponentLength (x.exponentChars ++ z) = x.exponentChars.length := by
  obtain ⟨w, f, e⟩ := x
  cases e with
  | none => exact exponentLength_end hz
  | some e => exact exponentLength_exponent e hz.noDigit

lemma fractionLength_numeral (x : Numeral) (hz : NumeralEnd z) :
    fractionLength (x.fractionChars ++ (x.exponentChars ++ z)) = x.fractionChars.length := by
  have hstop : NoDigit (x.exponentChars ++ z) := x.noDigit_exponent hz.noDigit
  obtain ⟨w, f, e⟩ := x
  cases f with
  | some d =>
    have hcount := digitCount_append d hstop
    simp [Numeral.fractionChars, fractionLength, hcount, d.nonempty]
  | none =>
    cases e with
    | none => exact fractionLength_end hz
    | some e =>
      rcases e.isMark with h | h <;>
        simp [Numeral.fractionChars, Numeral.exponentChars, Exponent.chars, h, fractionLength]

def kindOf (x : Numeral) : TokenKind :=
  if x.exponent.isSome then .double else if x.fraction.isSome then .decimal else .integer

/-- A query takes the whole of a number. -/
lemma number_numeral (x : Numeral) (hz : NumeralEnd z) :
    number (x.chars ++ z) = (kindOf x, x.chars.length) := by
  have hchars : x.chars ++ z = x.whole.text ++ (x.fractionChars ++ (x.exponentChars ++ z)) := by
    simp [Numeral.chars]
  have hcount : digitCount (x.chars ++ z) = x.whole.text.length := by
    rw [hchars]
    exact digitCount_append x.whole (x.noDigit_fraction hz.noDigit)
  have hplain : plainLength (x.chars ++ z) = (x.whole.text ++ x.fractionChars).length := by
    rw [plainLength, hcount, hchars, List.drop_left, fractionLength_numeral x hz,
      List.length_append]
  have hbehind : (x.chars ++ z).drop (x.whole.text ++ x.fractionChars).length =
      x.exponentChars ++ z := by
    rw [hchars, ← List.append_assoc, List.drop_left]
  rw [number_eq, hplain, hbehind, hcount, hchars, List.drop_left, exponentLength_numeral x hz,
    fractionLength_numeral x hz]
  refine Prod.ext ?_ (by simp [Numeral.chars, Nat.add_assoc])
  obtain ⟨w, f, e⟩ := x
  cases f <;> cases e <;>
    simp [kindOf, Numeral.fractionChars, Numeral.exponentChars, Exponent.chars]

/-- A query cuts off a number as one token. -/
lemma tokensFrom_numeral (x : Numeral) (hz : NumeralEnd z) :
    tokensFrom 0 o (x.chars ++ z) =
      (tokensFrom 0 (o + x.chars.length) z).map (⟨kindOf x, x.text, o⟩ :: ·) := by
  have hnumber : numberAt (x.chars ++ z) = .ok (kindOf x, x.text, x.chars.length) := by
    rw [numberAt, number_numeral x hz, List.take_left, Numeral.text]
  obtain ⟨c, cs, hchars, hc⟩ := x.exists_cons
  have htoken : tokenAt c (cs ++ z) = .ok (kindOf x, x.text, cs.length + 1) := by
    rw [tokenAt_other ⟨ne_of_isDigit hc rfl, ne_of_isDigit hc rfl, ne_of_isDigit hc rfl⟩]
    rw [hchars, List.cons_append, List.length_cons] at hnumber
    simpa [ne_of_isDigit hc, hc] using hnumber
  rw [hchars, List.cons_append, List.length_cons]
  exact tokensFrom_word htoken (opens_of_isNameChar (isNameChar_of_isDigit hc))

/-- Wherever a number may end, a query has one token for the text, and where a pattern is read
this constant for the token. -/
def IsConstant (text : String) (t : Term) : Prop :=
  ∀ o z, NumeralEnd z → ∃ u : Token,
    tokensFrom 0 o (text.toList ++ z) =
      (tokensFrom 0 (o + text.toList.length) z).map (u :: ·) ∧
    ∀ n (d : Draft) ts, d.rest = u :: ts →
      (Step.node (n + 1)).run.run d = (.ok (.term t), { d with rest := ts })

lemma run_node_numeral (x : Numeral) {n : Nat} {d : Draft} {ts : List Token}
    (h : d.rest = ⟨kindOf x, x.text, o⟩ :: ts) :
    (Step.node (n + 1)).run.run d = (.ok (.term x.constant), { d with rest := ts }) := by
  obtain ⟨_, ps, k, pats, fs⟩ := d
  obtain rfl := h
  obtain ⟨w, f, e⟩ := x
  cases f <;> cases e <;> rfl

lemma isConstant_numeral (x : Numeral) : IsConstant x.text x.constant := by
  intro o z hz
  refine ⟨⟨kindOf x, x.text, o⟩, ?_, fun n d ts h => run_node_numeral x h⟩
  rw [Numeral.text, String.toList_ofList]
  exact tokensFrom_numeral x hz

lemma Reference.enclosable {iri : String} (h : Reference iri) : Enclosable iri := by
  intro c hc
  have hchar := h.chars c hc
  refine ⟨?_, ?_, ?_⟩ <;> rintro rfl <;> cases hchar

end Semlift.Query

namespace Semlift.Ontology

open Semlift.Rdf Semlift.Text

/-- A name as it is written, and the IRI that it stands for. -/
inductive Names (s : Scope) : String → String → Prop
  | bracketed {name iri : String} (h : '>' ∉ name.toList)
      (hs : s.resolve ("<" ++ name ++ ">") = .ok iri) : Names s ("<" ++ name ++ ">") iri
  | plain {word iri : String} (hne : word.toList ≠ [])
      (h : ∀ c ∈ word.toList, endsWord c = false) (hnumber : isNumeric word.toList = false)
      (hnot : (Token.word word).isKeyword "not" = false) (hs : s.resolve word = .ok iri) :
      Names s word iri

variable {s : Scope} {x : Numeral} {name iri : String} {c : Char} {ts rest : List Token}
  {e : ClassExpr} {n : Nat}

lemma Names.spells (h : Names s name iri) : Spells (name.toList ++ [' ']) [.word name] := by
  cases h with
  | bracketed h => exact (spells_iri h).append (spells_blank (by decide))
  | plain hne h hnumber => exact spells_word hne h hnumber

lemma Names.resolve (h : Names s name iri) : s.resolve name = .ok iri := by
  cases h with
  | bracketed _ hs => exact hs
  | plain _ _ _ _ hs => exact hs

lemma Names.isKeyword_not (h : Names s name iri) : (Token.word name).isKeyword "not" = false := by
  cases h with
  | bracketed _ _ => exact isKeyword_iri (by decide)
  | plain _ _ _ hnot => exact hnot

/-- The token of a number. -/
def Token.number (x : Numeral) : Token := ⟨.number, x.text⟩

lemma endsWord_of_isDigit (h : c.isDigit = true) : endsWord c = false := by
  have hblank : isBlank c = false := Turtle.isBlank_of_isNameChar (isNameChar_of_isDigit h)
  simp [endsWord, punctuation, hblank, ne_of_isDigit h]

/-- The characters of a number are digits, the point, the mark of an exponent and its sign. -/
lemma mem_chars (h : c ∈ x.chars) :
    c.isDigit = true ∨ c = '.' ∨ (c = 'e' ∨ c = 'E') ∨ Turtle.isSign c = true := by
  obtain ⟨w, f, e⟩ := x
  simp only [Numeral.chars, Numeral.fractionChars, Numeral.exponentChars, List.mem_append] at h
  rcases h with h | h | h
  · exact .inl (w.digits c h)
  · cases f with
    | none => cases h
    | some d =>
      rcases List.mem_cons.1 h with rfl | h
      · exact .inr (.inl rfl)
      · exact .inl (d.digits c h)
  · cases e with
    | none => cases h
    | some e =>
      rcases List.mem_cons.1 h with rfl | h
      · exact .inr (.inr (.inl e.isMark))
      · rcases List.mem_append.1 h with h | h
        · exact .inr (.inr (.inr (e.isSign c (by simpa using h))))
        · exact .inl (e.digits.digits c h)

lemma endsWord_numeral (h : c ∈ x.chars) : endsWord c = false := by
  rcases mem_chars h with h | rfl | (rfl | rfl) | h
  · exact endsWord_of_isDigit h
  · decide
  · decide
  · decide
  · simp only [Turtle.isSign, Bool.or_eq_true, beq_iff_eq] at h
    rcases h with rfl | rfl <;> decide

lemma tokens_numeral (x : Numeral) : tokensFrom 0 x.chars = .ok [.number x, ⟨.done, ""⟩] := by
  obtain ⟨c, cs, hchars, hc⟩ := x.exists_cons
  have hword : x.chars.takeWhile (fun c => !endsWord c) = x.chars :=
    List.takeWhile_eq_self_iff.2 fun d hd => by simp [endsWord_numeral hd]
  have hends : endsWord c = false := endsWord_of_isDigit hc
  simp only [endsWord, Bool.or_eq_false_iff, decide_eq_false_iff_not, beq_eq_false_iff_ne] at hends
  obtain ⟨⟨⟨hblank, hpunct⟩, hopen⟩, hquote⟩ := hends
  have hnumber : isNumeric (c :: cs) = true := by
    unfold isNumeric
    split
    · rename_i heq
      exact absurd (List.cons.inj heq).1 (ne_of_isDigit hc rfl)
    · rename_i heq
      cases heq
      exact hc
    · rename_i heq
      cases heq
  have htoken : tokenAt c cs = .ok (.number x, cs.length + 1) := by
    rw [tokenAt, if_neg hpunct, if_neg hopen, if_neg hquote, ← hchars, hword]
    simp [hnumber, hchars, Token.number, Numeral.text]
  rw [hchars]
  have hfirst : tokensFrom 0 (c :: (cs ++ [])) = _ :=
    tokensFrom_token hblank (by rwa [List.append_nil])
  rwa [List.append_nil] at hfirst

lemma numberTerm_numeral (x : Numeral) : Step.numberTerm x.text = x.constant := by
  have hdigit (d : DigitRun) : d.text.any (fun c => c == '.' || c == 'e' || c == 'E') = false := by
    refine List.any_eq_false.2 fun c hc hmark => ?_
    have hc := d.digits c hc
    simp only [Bool.or_eq_true, beq_iff_eq] at hmark
    rcases hmark with (rfl | rfl) | rfl <;> cases hc
  have hany : x.chars.any (fun c => c == '.' || c == 'e' || c == 'E') =
      (x.fraction.isSome || x.exponent.isSome) := by
    obtain ⟨w, f, e⟩ := x
    rw [Numeral.chars, List.any_append, List.any_append, hdigit, Bool.false_or]
    congr 1
    · cases f <;> rfl
    · cases e with
      | none => rfl
      | some e => rcases e.isMark with h | h <;> simp [Numeral.exponentChars, Exponent.chars, h]
  rw [Step.numberTerm, Numeral.text, String.toList_ofList, hany, Numeral.constant, Numeral.text]

namespace Step

lemma reads_number : (individual s).Reads (.number x :: ts) x.constant ts := by
  rw [individual]
  refine reads_current.bind ((reads_advance (by simp [Token.number])).bind ?_)
  exact numberTerm_numeral x ▸ reads_pure

end Step

/-- Behind a name and the word of values, a class expression has this value for the text. -/
def IsValue (text : String) (t : Term) : Prop :=
  ∀ s name iri, Names s name iri →
    ClassExpr.parse s (name ++ " value " ++ text) = .ok (.value iri t)

lemma parse_value (x : Numeral) (h : Names s name iri) :
    ClassExpr.parse s (name ++ " value " ++ x.text) = .ok (.value iri x.constant) := by
  have hspells : Spells ((name.toList ++ [' ']) ++ ("value".toList ++ [' ']))
      [.word name, .word "value"] := h.spells.append (spells_keyword "value" (by simp))
  have htext : (name ++ " value " ++ x.text).toList =
      ((name.toList ++ [' ']) ++ ("value".toList ++ [' '])) ++ x.chars := by
    simp [Numeral.text]
  have htokens : tokensFrom 0 (name ++ " value " ++ x.text).toList =
      .ok ([.word name, .word "value", .number x] ++ [⟨.done, ""⟩]) := by
    rw [htext, hspells, tokens_numeral]
    rfl
  have hvalue : (Step.afterName s 17 iri).Reads [.word "value", .number x, ⟨.done, ""⟩]
      (.value iri x.constant) [⟨.done, ""⟩] := by
    refine (Step.reads_atKeyword (by decide)).test_false ?_
    refine (Step.reads_atKeyword (by decide)).test_true ((Step.reads_advance (by simp)).bind ?_)
    exact Step.reads_number.bind Step.reads_pure
  have hread : ClassExpr.read s (name ++ " value " ++ x.text) = .ok (.value iri x.constant) :=
    read_of_reads rfl htokens (Step.reads_disjunction
      (Step.reads_name h.isKeyword_not h.resolve hvalue) (by simp) (by decide))
  rw [ClassExpr.parse, hread]

lemma isValue_numeral (x : Numeral) : IsValue x.text x.constant :=
  fun _ _ _ h => parse_value x h

end Semlift.Ontology

namespace Semlift

open Semlift.Rdf

/-- A statement about a subject with a number as its object. -/
def statementText (subject property : String) (x : Numeral) : String :=
  "<" ++ subject ++ "> <" ++ property ++ "> " ++ x.text ++ " ."

/-- The question which subjects have a number under a property. -/
def questionText (property : String) (x : Numeral) : String :=
  "SELECT ?x WHERE \x7b ?x " ++ ("<" ++ property ++ ">") ++ " " ++ x.text ++ " . \x7d"

def question (property : String) (x : Numeral) : Query.Select :=
  ⟨false, .these ["x"], [⟨.var "x", .term (.iri property), .term x.constant⟩], [], [], none, none⟩

variable {x : Numeral} {r : Turtle.Reader} {subject property : String} {prefixes : Prefixes}

namespace Rdf.Turtle

lemma gives_statementText (x : Numeral) (hr : r.base = "") (hs : Enclosable subject)
    (hp : Enclosable property) (cs : List Char) (g : Graph) :
    Step.Gives Step.statement ⟨r, (statementText subject property x).toList ++ cs, g⟩ ()
      ⟨r, cs, g.add ⟨.iri subject, .iri property, x.object⟩⟩ := by
  have htext : (statementText subject property x).toList ++ cs = '<' :: (subject.toList ++
      '>' :: ' ' :: (("<" ++ property ++ ">").toList ++ ' ' :: (x.chars ++ ' ' :: '.' :: cs))) := by
    have hend : " .".toList = [' ', '.'] := by decide
    have hgap : "> <".toList = ['>', ' ', '<'] := by decide
    have hclose : "> ".toList = ['>', ' '] := by decide
    simp [statementText, Numeral.text, hend, hgap, hclose]
  have hopens : Opens '.' := ⟨by decide, by decide⟩
  have hobjects (n : Nat) : Step.Gives (Step.objects (n + 2) (.iri subject) (.iri property))
      ⟨r, ' ' :: (x.chars ++ ' ' :: '.' :: cs), g⟩ ()
      ⟨r, '.' :: cs, g.add ⟨.iri subject, .iri property, x.object⟩⟩ := by
    rw [Step.objects]
    refine (gives_object_numeral x gap_space (numeralEnd_space _)).bind (Step.gives_emit.bind ?_)
    exact (Step.gives_gap gap_space (skip_cons hopens)).bind
      (Step.gives_ahead.bind Step.gives_pure)
  have hproperties (n : Nat) : Step.Gives (Step.properties (n + 3) (.iri subject))
      ⟨r, ' ' :: (("<" ++ property ++ ">").toList ++ ' ' :: (x.chars ++ ' ' :: '.' :: cs)), g⟩ ()
      ⟨r, '.' :: cs, g.add ⟨.iri subject, .iri property, x.object⟩⟩ := by
    rw [Step.properties]
    refine (Step.gives_verb hr (.iri (.bracketed hp)) gap_space).bind ((hobjects n).bind ?_)
    exact (Step.gives_gap gap_nil (skip_cons hopens)).bind (Step.gives_ahead.bind Step.gives_pure)
  have htriples : Step.Gives Step.triples ⟨r, '<' :: (subject.toList ++ '>' :: ' ' ::
      (("<" ++ property ++ ">").toList ++ ' ' :: (x.chars ++ ' ' :: '.' :: cs))), g⟩ ()
      ⟨r, '.' :: cs, g.add ⟨.iri subject, .iri property, x.object⟩⟩ :=
    Step.gives_triples_name rfl (Step.gives_name_bracketed hr hs gap_nil) (hproperties _)
  rw [htext]
  exact Step.gives_statement (w := []) (by simp) (.inr (.inl rfl))
    (htriples.bind (Step.gives_expect gap_nil hopens))

lemma read_statementText (x : Numeral) (hr : r.base = "") (hs : Enclosable subject)
    (hp : Enclosable property) : r.read (statementText subject property x) =
      (.ok (Graph.empty.add ⟨.iri subject, .iri property, x.object⟩), r) := by
  have hopens : ∃ c more, (statementText subject property x).toList = c :: more ∧ Opens c :=
    ⟨'<', _, by simp [statementText]; rfl, by decide, by decide⟩
  have htells := Step.Tells.cons hopens (gives_statementText x hr hs hp · .empty) .nil
  rw [List.append_nil] at htells
  exact read_of_tells htells

end Rdf.Turtle

namespace Query

/-- The tokens of the question; where the last ones stand does not matter. -/
def questionTokens (property : String) (x : Numeral) (o₁ o₂ : Nat) : List Token :=
  [⟨.word, "SELECT", 0⟩, ⟨.var, "x", 7⟩, ⟨.word, "WHERE", 10⟩, ⟨.punct, "\x7b", 16⟩,
    ⟨.var, "x", 18⟩, ⟨.iri, property, 21⟩, ⟨kindOf x, x.text, o₁⟩, ⟨.punct, ".", o₂⟩,
    ⟨.punct, "\x7d", o₂ + 2⟩, ⟨.done, "", o₂ + 3⟩]

lemma run_question (x : Numeral) (property : String) (o₁ o₂ : Nat) :
    (Step.query.run.run ⟨questionTokens property x o₁ o₂, prefixes, 0, [], []⟩).1 =
      .ok (question property x) := by
  obtain ⟨w, f, e⟩ := x
  cases f <;> cases e <;> cbv

lemma tokens_questionText (x : Numeral) (hp : Reference property) :
    ∃ o₁ o₂, tokens (questionText property x) = .ok (questionTokens property x o₁ o₂) := by
  have htext : (questionText property x).toList = "SELECT ?x WHERE \x7b ?x ".toList ++
      (("<" ++ property ++ ">").toList ++ ' ' :: (x.chars ++ ' ' :: ['.', ' ', '\x7d'])) := by
    have hend : " . \x7d".toList = [' ', '.', ' ', '\x7d'] := by decide
    unfold questionText
    generalize "SELECT ?x WHERE \x7b ?x " = front, "<" ++ property ++ ">" = iri
    simp [Numeral.text, hend]
  have hgap (o : Nat) (cs : List Char) :
      tokensFrom 0 o (' ' :: cs) = tokensFrom 0 (o + 1) cs := by
    rw [tokensFrom, if_neg (by decide), if_pos (by decide)]
  have hbefore (rest : List Char) : tokensFrom 0 0 ("SELECT ?x WHERE \x7b ?x ".toList ++ rest) =
      (((((tokensFrom 0 21 rest).map (⟨.var, "x", 18⟩ :: ·)).map (⟨.punct, "\x7b", 16⟩ :: ·)).map
        (⟨.word, "WHERE", 10⟩ :: ·)).map (⟨.var, "x", 7⟩ :: ·)).map
        (⟨.word, "SELECT", 0⟩ :: ·) := rfl
  have hbehind (o : Nat) : tokensFrom 0 o ['.', ' ', '\x7d'] =
      .ok [⟨.punct, ".", o⟩, ⟨.punct, "\x7d", o + 2⟩, ⟨.done, "", o + 3⟩] := by
    cbv
  rw [tokens, htext, hbefore, tokensFrom_bracketed hp, hgap,
    tokensFrom_numeral x (Turtle.numeralEnd_space _), hgap, hbehind]
  exact ⟨_, _, rfl⟩

lemma parse_questionText (x : Numeral) (hp : Reference property) :
    parse (questionText property x) prefixes = .ok (question property x) := by
  obtain ⟨o₁, o₂, htokens⟩ := tokens_questionText x hp
  obtain ⟨d, hrun⟩ : ∃ d, Step.query.run.run
      ⟨questionTokens property x o₁ o₂, prefixes, 0, [], []⟩ = (.ok (question property x), d) :=
    ⟨_, Prod.ext (run_question x property o₁ o₂) rfl⟩
  rw [parse, htokens]
  dsimp only
  rw [hrun]

end Query

namespace Knowledge

open Query Ontology

lemma triples_statement {t : Triple} : (Graph.empty.add t).triples = [t] := by
  simp [Graph.triples_add, Graph.empty]

/-- The question is answered by the subject if the object is the constant. -/
lemma rows_question (x : Numeral) (subject property : String) :
    ((question property x).eval
      (Graph.empty.add ⟨.iri subject, .iri property, x.object⟩).matching).rows =
    if x.IsDecimal then [] else [[some (.iri subject)]] := by
  have hmatching : (Graph.empty.add ⟨.iri subject, .iri property, x.object⟩).matching
      ⟨none, some (.iri property), some x.constant⟩ =
        if x.IsDecimal then [] else [⟨.iri subject, .iri property, x.object⟩] := by
    rw [Graph.matching_eq_filter, triples_statement]
    split_ifs with h
    · have hne : x.constant ≠ x.object := fun heq => x.object_eq_constant_iff.1 heq.symm h
      simp [TriplePattern.covers, TriplePattern.fits, hne]
    · simp [TriplePattern.covers, TriplePattern.fits, x.object_eq_constant_iff.2 h]
  have hanswer : ((question property x).eval
      (Graph.empty.add ⟨.iri subject, .iri property, x.object⟩).matching).rows =
      ((Graph.empty.add ⟨.iri subject, .iri property, x.object⟩).matching
        ⟨none, some (.iri property), some x.constant⟩).map fun t => [some t.subject] := by
    simp [question, Select.eval, Select.solutions, Query.join, Pattern.extend, Pattern.resolve,
      Node.resolve, Binding.find?, Pattern.bind?, Node.bind?, row, Select.columns, Select.cut,
      List.map_filterMap]
  rw [hanswer, hmatching]
  split_ifs <;> rfl

lemma mem_members_value (x : Numeral) (subject property : String) :
    .iri subject ∈ (ClassExpr.value property x.constant).members
      (Graph.empty.add ⟨.iri subject, .iri property, x.object⟩) ↔ ¬x.IsDecimal := by
  rw [(members_exact _ _).2, ClassExpr.Holds, triples_statement, ← x.object_eq_constant_iff]
  simp [eq_comm]

/-- **A number is the same constant in queries and in class expressions**, whatever stands around
it, and it is the object of a document too, exactly if it is no plain decimal. So the subjects that
have a number in a document are found by the same number exactly if it is no plain decimal. -/
theorem numerals_agree_iff (x : Numeral) :
    Turtle.IsObject x.text x.object ∧ Query.IsConstant x.text x.constant ∧
      Ontology.IsValue x.text x.constant ∧ (x.object = x.constant ↔ ¬x.IsDecimal) ∧
      ∀ (r : Turtle.Reader) prefixes subject property, r.base = "" →
        Turtle.Enclosable subject → Query.Reference property → ∃ g q,
          (r.read (statementText subject property x)).1 = .ok g ∧
          Query.parse (questionText property x) prefixes = .ok q ∧
          (q.eval g.matching).rows = (if x.IsDecimal then [] else [[some (.iri subject)]]) ∧
          (.iri subject ∈ (ClassExpr.value property x.constant).members g ↔ ¬x.IsDecimal) := by
  refine ⟨Turtle.isObject_numeral x, Query.isConstant_numeral x, Ontology.isValue_numeral x,
    x.object_eq_constant_iff, fun r prefixes subject property hr hs hp => ?_⟩
  refine ⟨_, _, ?_, Query.parse_questionText x hp, rows_question x subject property,
    mem_members_value x subject property⟩
  rw [Turtle.read_statementText x hr hs hp.enclosable]

/-- A fifth, with an exponent. -/
def fifth : Numeral :=
  ⟨⟨['2'], by simp, by simp⟩, some ⟨['0'], by simp, by simp⟩,
    some ⟨'e', some '-', ⟨['1'], by simp, by simp⟩, by simp, by simp [Turtle.isSign]⟩⟩

theorem numerals_agree_iff_fifth :
    fifth.text = "2.0e-1" ∧
      ClassExpr.parse ⟨.standard, "urn:"⟩ "p value 2.0e-1" =
        .ok (.value "urn:p" (.typed "2.0e-1" Vocabulary.xsdDouble)) ∧
      ∃ g q, ((Turtle.Reader.new .standard "").read "<urn:s> <urn:p> 2.0e-1 .").1 = .ok g ∧
        Query.parse "SELECT ?x WHERE \x7b ?x <urn:p> 2.0e-1 . \x7d" .standard = .ok q ∧
        (q.eval g.matching).rows = [[some (.iri "urn:s")]] := by
  obtain ⟨-, -, hvalue, -, hanswer⟩ := numerals_agree_iff fifth
  have hends : "p".toList.all (!Ontology.endsWord ·) = true := by decide
  have hname : Ontology.Names ⟨.standard, "urn:"⟩ "p" "urn:p" :=
    .plain (by decide) (fun c hc => by simpa using List.all_eq_true.1 hends c hc) (by decide)
      (by decide +kernel) (by decide +kernel)
  obtain ⟨g, q, hg, hq, hrows, -⟩ := hanswer (Turtle.Reader.new .standard "") .standard "urn:s"
    "urn:p" rfl (by decide +kernel) (by decide +kernel)
  have hstatement : statementText "urn:s" "urn:p" fifth = "<urn:s> <urn:p> 2.0e-1 ." := by
    decide +kernel
  have hquestion : questionText "urn:p" fifth =
      "SELECT ?x WHERE \x7b ?x <urn:p> 2.0e-1 . \x7d" := by
    decide +kernel
  have hparse := hvalue _ _ _ hname
  have htext : "p" ++ " value " ++ fifth.text = "p value 2.0e-1" := by decide +kernel
  have hconstant : fifth.constant = .typed "2.0e-1" Vocabulary.xsdDouble := by decide +kernel
  rw [htext, hconstant] at hparse
  rw [hstatement] at hg
  rw [hquestion] at hq
  exact ⟨by decide +kernel, hparse, g, q, hg, hq, hrows⟩

/-- A plain decimal of a document is not the constant of a query or a class expression. -/
theorem decimal_apart :
    ((Turtle.Reader.new .standard "").read "<urn:s> <urn:p> 1.5 .").1.map Graph.triples =
        .ok [⟨.iri "urn:s", .iri "urn:p", .typed "1.5" Vocabulary.xsdDecimal⟩] ∧
      (Query.parse "SELECT ?x WHERE \x7b ?x <urn:p> 1.5 . \x7d" .standard).map (·.patterns) =
        .ok [⟨.var "x", .term (.iri "urn:p"), .term (.typed "1.5" Vocabulary.xsdDouble)⟩] ∧
      ClassExpr.parse ⟨.standard, "urn:"⟩ "p value 1.5" =
        .ok (.value "urn:p" (.typed "1.5" Vocabulary.xsdDouble)) ∧
      Term.typed "1.5" Vocabulary.xsdDecimal ≠ .typed "1.5" Vocabulary.xsdDouble := by
  exact ⟨by decide +kernel, by decide +kernel, by cbv, by decide +kernel⟩

end Knowledge

end Semlift
