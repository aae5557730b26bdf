import Semlift.Proofs.Query.Words
import Semlift.Proofs.Rdf.Prefixes
import Semlift.Rdf.Writer

/-!
The texts of constants and the words that a query cuts them into, for IRIs in brackets or with a
prefix and for quoted texts with or without a datatype. Of the escapes of a quoted text a query
knows all but the one of a carriage return, which it reads as the letter `r`.
-/

namespace Semlift.Query

open Semlift.Rdf Semlift.Text
open Semlift.Rdf.Turtle (Opens)

/-- What a query takes a character of a quoted text for. -/
def reread (c : Char) : Char := if c = '\r' then 'r' else c

def rereadText (s : String) : String := String.ofList (s.toList.map reread)

/-- A text that can stand between angle brackets. -/
structure Reference (iri : String) : Prop where
  nonempty : iri.toList ≠ []
  head : iri.toList.head? ≠ some '='
  chars : ∀ c ∈ iri.toList, isIriChar c = true

/-- Letters and digits, a letter in front. -/
structure PrefixName (name : String) : Prop where
  head : ∃ c ∈ name.toList.head?, c.isAlpha = true
  chars : ∀ c ∈ name.toList, c.isAlphanum = true

/-- What may stand behind a constant: points may, but no name goes on behind them. -/
def Ends (rest : List Char) : Prop :=
  ∀ c ∈ (rest.dropWhile (· == '.')).head?, isLocalChar c = false

/-- How an IRI is written: the word and its text. -/
inductive Named (p : Prefixes) : Word → String → String → Prop
  | bracketed {iri : String} (h : Reference iri) : Named p (.iri, iri) ("<" ++ iri ++ ">") iri
  | prefixed {name ns : String} {loc : List Char} (h : PrefixName name)
      (hns : p.find? name = some ns) (hloc : ∀ c ∈ loc, Prefixes.isPlain c = true) :
      Named p (.prefixed, name ++ ":" ++ String.ofList loc) (name ++ ":" ++ String.ofList loc)
        (ns ++ String.ofList loc)

/-- How a constant is written, and which constant a query reads there: the words and their text. -/
inductive Spells (p : Prefixes) : List Word → String → Term → Prop
  | iri {w : Word} {text iri : String} (h : Named p w text iri) : Spells p [w] text (.iri iri)
  | string {s : String} : Spells p [(.string, rereadText s)] (quote s) (.string (rereadText s))
  | typed {w : Word} {s text datatype : String} (h : Named p w text datatype) :
      Spells p [(.string, rereadText s), (.punct, "^^"), w] (quote s ++ "^^" ++ text)
        (.typed (rereadText s) datatype)

instance : DecidablePred Reference := fun iri =>
  decidable_of_iff (iri.toList ≠ [] ∧ iri.toList.head? ≠ some '=' ∧ iri.toList.all isIriChar)
    ⟨fun ⟨h₁, h₂, h₃⟩ => ⟨h₁, h₂, List.all_eq_true.1 h₃⟩,
      fun h => ⟨h.nonempty, h.head, List.all_eq_true.2 h.chars⟩⟩

instance : DecidablePred PrefixName := fun name =>
  decidable_of_iff (name.toList.head?.any Char.isAlpha ∧ name.toList.all Char.isAlphanum)
    ⟨fun ⟨h₁, h₂⟩ => ⟨(Option.any_eq_true ..).1 h₁, List.all_eq_true.1 h₂⟩,
      fun h => ⟨(Option.any_eq_true ..).2 h.head, List.all_eq_true.2 h.chars⟩⟩

instance : DecidablePred Ends := fun rest =>
  decidable_of_iff ((rest.dropWhile (· == '.')).head?.all fun c => !isLocalChar c)
    (by simp [Ends, Option.all_eq_true])

variable {p q : Prefixes} {w : Word} {ws : List Word} {text iri name ns s : String} {t : Term}
  {c : Char} {cs rest loc : List Char} {o : Nat}

/-! ### Quoted texts -/

lemma stringContent?_escapeChar : stringContent? '"' (escapeChar c ++ cs) =
    (stringContent? '"' cs).map fun (s, n) => (reread c :: s, n + (escapeChar c).length) := by
  unfold escapeChar
  split_ifs with h₁ h₂ h₃ h₄ h₅
  · subst h₁
    exact stringContent?_escape (by decide)
  · subst h₂
    exact stringContent?_escape (by decide)
  · subst h₃
    exact stringContent?_escape (by decide)
  · subst h₄
    exact stringContent?_escape (by decide)
  · subst h₅
    exact stringContent?_escape (by decide)
  · simpa [reread, h₄] using stringContent?_plain h₂ h₁

lemma stringContent?_escape_append {x : List Char} :
    stringContent? '"' (x.flatMap escapeChar ++ '"' :: cs) =
      some (x.map reread, (x.flatMap escapeChar).length + 1) := by
  induction x with
  | nil => exact stringContent?_mark
  | cons c x ih =>
    rw [List.flatMap_cons, List.append_assoc, stringContent?_escapeChar, ih]
    simp
    omega

lemma toList_quote : (quote s).toList = '"' :: (s.toList.flatMap escapeChar ++ ['"']) := by
  simp [quote, escape]

lemma tokensFrom_quote : tokensFrom 0 o ((quote s).toList ++ rest) =
    (tokensFrom 0 (o + (quote s).toList.length) rest).map (⟨.string, rereadText s, o⟩ :: ·) := by
  have htoken : tokenAt '"' ((s.toList.flatMap escapeChar ++ ['"']) ++ rest) =
      .ok (.string, rereadText s, (s.toList.flatMap escapeChar ++ ['"']).length + 1) := by
    rw [tokenAt_quote (.inl rfl), List.append_assoc, List.singleton_append,
      stringContent?_escape_append]
    simp [rereadText]
  rw [toList_quote]
  exact tokensFrom_word htoken ⟨by decide, by decide⟩

/-! ### Names -/

lemma tokensFrom_bracketed (h : Reference iri) :
    tokensFrom 0 o (("<" ++ iri ++ ">").toList ++ rest) =
      (tokensFrom 0 (o + ("<" ++ iri ++ ">").toList.length) rest).map (⟨.iri, iri, o⟩ :: ·) := by
  have hlength : iriLength? (iri.toList ++ '>' :: rest) = some iri.toList.length := by
    rw [iriLength?_stop h.chars (by decide)]
    simp [h.head, h.nonempty]
  have htoken : tokenAt '<' ((iri.toList ++ ['>']) ++ rest) =
      .ok (.iri, iri, (iri.toList ++ ['>']).length + 1) := by
    rw [tokenAt_bracket, List.append_assoc, List.singleton_append, hlength]
    simp
  have htext : ("<" ++ iri ++ ">").toList = '<' :: (iri.toList ++ ['>']) := by simp
  rw [htext]
  exact tokensFrom_word htoken ⟨by decide, by decide⟩

lemma isLocalChar_of_isPlain (h : Prefixes.isPlain c = true) : isLocalChar c = true := by
  simp only [Prefixes.isPlain, isLocalChar, isWordChar, Bool.or_eq_true] at *
  tauto

/-- Points at the end of a text are not part of a name. -/
lemma localLength_append (hloc : ∀ c ∈ loc, Prefixes.isPlain c = true) (hrest : Ends rest) :
    localLength (loc ++ rest) = loc.length := by
  have hdots : ∀ c ∈ rest.takeWhile (· == '.'), isLocalChar c = true := fun c hc => by
    have hdot := List.all_eq_true.1 List.all_takeWhile c hc
    simp [isLocalChar, hdot]
  have hrun : (loc ++ rest).takeWhile isLocalChar = loc ++ rest.takeWhile (· == '.') := by
    rw [List.takeWhile_append_of_pos fun c hc => isLocalChar_of_isPlain (hloc c hc)]
    congr 1
    conv_lhs => rw [← List.takeWhile_append_dropWhile (p := (· == '.')) (l := rest)]
    rw [List.takeWhile_append_of_pos hdots]
    cases hd : rest.dropWhile (· == '.') with
    | nil => simp
    | cons d more => simp [hrest d (by simp [hd])]
  have hlast : loc.reverse.dropWhile (· == '.') = loc.reverse := by
    cases hr : loc.reverse with
    | nil => rfl
    | cons c more =>
      have hc := hloc c (List.mem_reverse.1 (hr ▸ List.mem_cons_self ..))
      have hne : c ≠ '.' := by rintro rfl; cases hc
      simp [hne]
  have hpoints : ∀ c ∈ (rest.takeWhile (· == '.')).reverse, (c == '.') = true := fun c hc =>
    List.all_eq_true.1 List.all_takeWhile c (List.mem_reverse.1 hc)
  rw [localLength, hrun, List.reverse_append, List.dropWhile_append_of_pos hpoints, hlast,
    List.length_reverse]

lemma isDigit_of_isAlpha (h : c.isAlpha = true) : c.isDigit = false := by
  have halpha : (decide (65 ≤ c.val ∧ c.val ≤ 90) ||
      decide (97 ≤ c.val) && decide (c.val ≤ 122)) = true := h
  have hdigit : c.isDigit = (decide (48 ≤ c.val) && decide (c.val ≤ 57)) := rfl
  rw [hdigit]
  grind

lemma isWordChar_of_isAlphanum (h : c.isAlphanum = true) : isWordChar c = true := by
  simp [isWordChar, h]

lemma nameAt_prefixed (h : PrefixName name) (hloc : ∀ c ∈ loc, Prefixes.isPlain c = true)
    (hrest : Ends rest) : nameAt (name.toList ++ ':' :: (loc ++ rest)) =
      .ok (.prefixed, name ++ ":" ++ String.ofList loc, name.toList.length + 1 + loc.length) := by
  have hword : wordLength (name.toList ++ ':' :: (loc ++ rest)) = name.toList.length := by
    rw [wordLength,
      List.takeWhile_append_of_pos fun c hc => isWordChar_of_isAlphanum (h.chars c hc)]
    simp [isWordChar]
  have htake : (name.toList ++ ':' :: (loc ++ rest)).take (name.toList.length + 1 + loc.length) =
      name.toList ++ ':' :: loc := by
    rw [Nat.add_assoc, List.take_length_add_append]
    simp [Nat.add_comm 1]
  have htext : String.ofList (name.toList ++ ':' :: loc) = name ++ ":" ++ String.ofList loc :=
    String.toList_injective (by simp)
  unfold nameAt
  rw [hword, List.drop_left]
  simp only
  rw [localLength_append hloc hrest, htake, htext]

lemma tokenAt_alpha (h : c.isAlpha = true) : tokenAt c cs = nameAt (c :: cs) := by
  have hother : c ≠ '<' ∧ c ≠ '"' ∧ c ≠ '\'' ∧ c ≠ '?' ∧ c ≠ '$' ∧ c ≠ '_' := by
    refine ⟨?_, ?_, ?_, ?_, ?_, ?_⟩ <;> rintro rfl <;> exact absurd h (by decide)
  rw [tokenAt_other ⟨hother.1, hother.2.1, hother.2.2.1⟩]
  simp [hother, isDigit_of_isAlpha h, isWordChar, Char.isAlphanum, h]

lemma tokensFrom_prefixed (h : PrefixName name) (hloc : ∀ c ∈ loc, Prefixes.isPlain c = true)
    (hrest : Ends rest) :
    tokensFrom 0 o ((name ++ ":" ++ String.ofList loc).toList ++ rest) =
      (tokensFrom 0 (o + (name ++ ":" ++ String.ofList loc).toList.length) rest).map
        (⟨.prefixed, name ++ ":" ++ String.ofList loc, o⟩ :: ·) := by
  obtain ⟨c, hc, halpha⟩ := h.head
  obtain ⟨cs, hname⟩ : ∃ cs, name.toList = c :: cs := List.head?_eq_some_iff.1 hc
  have hsplit : c :: ((cs ++ ':' :: loc) ++ rest) = name.toList ++ ':' :: (loc ++ rest) := by
    simp [hname]
  have hlength : (cs ++ ':' :: loc).length + 1 = name.toList.length + 1 + loc.length := by
    simp [hname]
    omega
  have htoken : tokenAt c ((cs ++ ':' :: loc) ++ rest) =
      .ok (.prefixed, name ++ ":" ++ String.ofList loc, (cs ++ ':' :: loc).length + 1) := by
    rw [tokenAt_alpha halpha, hsplit, nameAt_prefixed h hloc hrest, hlength]
  have htext : (name ++ ":" ++ String.ofList loc).toList = c :: (cs ++ ':' :: loc) := by
    simp [hname]
  rw [htext]
  exact tokensFrom_word htoken (opens_of_isAlpha halpha)

lemma Named.tokens (h : Named p w text iri) (hrest : Ends rest) : ∃ u : Token, u.word = w ∧
    tokensFrom 0 o (text.toList ++ rest) =
      (tokensFrom 0 (o + text.toList.length) rest).map (u :: ·) := by
  cases h with
  | bracketed h => exact ⟨_, rfl, tokensFrom_bracketed h⟩
  | prefixed h _ hloc => exact ⟨_, rfl, tokensFrom_prefixed h hloc hrest⟩

/-- A written constant is cut into its words. -/
lemma Spells.tokens (h : Spells p ws text t) (hrest : Ends rest) : ∃ us : List Token,
    us.map Token.word = ws ∧ tokensFrom 0 o (text.toList ++ rest) =
      (tokensFrom 0 (o + text.toList.length) rest).map (us ++ ·) := by
  cases h with
  | iri h =>
    obtain ⟨u, hu, heq⟩ := h.tokens hrest
    exact ⟨[u], by simp [hu], heq⟩
  | string => exact ⟨[_], rfl, tokensFrom_quote⟩
  | @typed w s text datatype h =>
    obtain ⟨u, hu, heq⟩ := h.tokens (o := o + (quote s).toList.length + 2) hrest
    refine ⟨[⟨.string, rereadText s, o⟩, ⟨.punct, "^^", o + (quote s).toList.length⟩, u], ?_, ?_⟩
    · simp [← hu, Token.word]
    · have hcarets : tokenAt '^' (['^'] ++ (text.toList ++ rest)) = .ok (.punct, "^^", 2) := rfl
      have hsplit : (quote s ++ "^^" ++ text).toList ++ rest =
          (quote s).toList ++ ('^' :: (['^'] ++ (text.toList ++ rest))) := by simp
      have hlength : o + (quote s ++ "^^" ++ text).toList.length =
          o + (quote s).toList.length + 2 + text.toList.length := by
        simp
        omega
      rw [hsplit, tokensFrom_quote, tokensFrom_word hcarets ⟨by decide, by decide⟩]
      rw [List.length_singleton, heq, hlength]
      cases tokensFrom 0 (o + (quote s).toList.length + 2 + text.toList.length) rest <;> rfl

lemma PrefixName.isName (h : PrefixName name) : Prefixes.IsName name :=
  ⟨fun hmem => absurd (h.chars _ hmem) (by decide), fun hmem => absurd (h.chars _ hmem) (by decide)⟩

/-! ### What is written -/

lemma Named.starts (h : Named p w text iri) : Starts (text.toList ++ rest) := by
  cases h with
  | bracketed h => exact ⟨'<', _, by simp; rfl, .inr (.inl rfl)⟩
  | prefixed h =>
    obtain ⟨c, hc, halpha⟩ := h.head
    obtain ⟨cs, hname⟩ := List.head?_eq_some_iff.1 hc
    exact ⟨c, _, by simp [hname]; rfl, .inr (.inr halpha)⟩

lemma starts_quote : Starts ((quote s).toList ++ rest) :=
  ⟨'"', _, by rw [toList_quote]; rfl, .inl rfl⟩

lemma Spells.starts (h : Spells p ws text t) : Starts (text.toList ++ rest) := by
  cases h with
  | iri h => exact h.starts
  | string => exact starts_quote
  | typed h =>
    rw [String.toList_append, String.toList_append, List.append_assoc, List.append_assoc]
    exact starts_quote

/-- The declarations of a query leave the known prefixes as they are. -/
def Keeps (q p : Prefixes) : Prop := ∀ e ∈ p.entries, q.find? e.1 = some e.2

lemma named_compact (hp : ∀ e ∈ p.entries, PrefixName e.1) (hq : Keeps q p)
    (h : Reference iri) : ∃ w, Named q w (p.compact iri) iri := by
  rcases p.compact_cases iri with heq | ⟨name, ns, rest, hmem, hiri, hplain, heq⟩
  · rw [heq]
    exact ⟨_, .bracketed h⟩
  · rw [heq, hiri]
    exact ⟨_, .prefixed (hp _ hmem) (hq _ hmem) hplain⟩

/-- The constants that can be written into a query. -/
inductive Writable : Term → Prop
  | iri {name : String} (h : Reference name) : Writable (.iri name)
  | string {lexical : String} : Writable (.string lexical)
  | typed {lexical datatype : String} (h : Reference datatype) : Writable (.typed lexical datatype)

/-- The constant that a query makes of a written one. -/
def rereadTerm : Term → Term
  | .literal lexical datatype language => .literal (rereadText lexical) datatype language
  | t => t

lemma spells_turtle (hp : ∀ e ∈ p.entries, PrefixName e.1) (hq : Keeps q p)
    (h : Writable t) : ∃ ws, Spells q ws (t.turtle p) (rereadTerm t) := by
  cases h with
  | iri h =>
    obtain ⟨w, hw⟩ := named_compact hp hq h
    exact ⟨[w], .iri hw⟩
  | string => exact ⟨_, .string⟩
  | @typed lexical datatype h =>
    obtain ⟨w, hw⟩ := named_compact hp hq h
    by_cases hd : datatype = Vocabulary.xsdString
    · subst hd
      exact ⟨_, .string⟩
    · have htext : (Term.typed lexical datatype).turtle p =
          quote lexical ++ "^^" ++ p.compact datatype := by
        simp [Term.turtle, Term.typed, hd]
      rw [htext]
      exact ⟨_, .typed hw⟩

end Semlift.Query
