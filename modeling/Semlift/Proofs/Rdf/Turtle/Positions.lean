import Mathlib.Data.List.Infix
import Semlift.Proofs.Rdf.Turtle.Gives

/-!
Prefixed names in their positions. A name may be read as a subject, as a predicate and as an object,
and each of these readers looks for something else first: directives, the short form of predicates,
numbers and truth values. In front of a space a prefixed name is read as the same term in all three,
except that a prefix that goes on with an underscore after the letter of the short form is taken for
that form. A local name is also read from its escaped characters, unless a point ends it.
-/

namespace Semlift.Rdf.Turtle

open Semlift.Text Step

/-- In front of a space, the word of a term is read as the subject of a statement. -/
def InSubject (r : Reader) (word : List Char) (t : Term) : Prop :=
  ∀ cs g, statement.run.run ⟨r, word ++ ' ' :: cs, g⟩ =
    (do properties (3 * (word ++ ' ' :: cs).length + 3) t; expect '.').run.run ⟨r, ' ' :: cs, g⟩

/-- In front of a space, the word of a term is read as a predicate. -/
def InPredicate (r : Reader) (word : List Char) (t : Term) : Prop :=
  ∀ ws cs g, Gap ws → Gives verb ⟨r, ws ++ (word ++ ' ' :: cs), g⟩ t ⟨r, ' ' :: cs, g⟩

/-- In front of a space, the word of a term is read as an object. -/
def InObject (r : Reader) (word : List Char) (t : Term) : Prop :=
  ∀ n ws cs g, Gap ws →
    Gives (object (n + 1)) ⟨r, ws ++ (word ++ ' ' :: cs), g⟩ t ⟨r, ' ' :: cs, g⟩

/-- A text that can be declared as a prefix: nothing, or a letter with any characters of names after
it. -/
structure PrefixWord (s : String) : Prop where
  head : ∀ c ∈ s.toList.head?, c.isAlpha = true
  chars : ∀ c ∈ s.toList, isNameChar c = true

instance : DecidablePred PrefixWord := fun s =>
  decidable_of_iff (s.toList.head?.all Char.isAlpha ∧ s.toList.all isNameChar)
    ⟨fun ⟨hhead, hchars⟩ => ⟨(Option.all_eq_true _ _).1 hhead, List.all_eq_true.1 hchars⟩,
      fun h => ⟨(Option.all_eq_true _ _).2 h.head, List.all_eq_true.2 h.chars⟩⟩

variable {r : Reader} {g : Graph} {p ns loc : String} {c : Char} {cs ws rest u w : List Char}
  {t : Term} {q : Progress} {n : Nat}

/-! ### Any local name -/

lemma PrefixWord.begins (hp : PrefixWord p) (cs : List Char) :
    ∃ c more, p.toList ++ ':' :: cs = c :: more ∧ begins c = true := by
  cases hw : p.toList with
  | nil => exact ⟨':', cs, rfl, rfl⟩
  | cons c w => exact ⟨c, w ++ ':' :: cs, rfl, by simp [Turtle.begins, hp.head c (by simp [hw])]⟩

lemma PrefixWord.skip_eq (hp : PrefixWord p) :
    skip (p.toList ++ ':' :: cs) = p.toList ++ ':' :: cs := by
  obtain ⟨c, more, htext, hc⟩ := hp.begins cs
  rw [htext]
  exact skip_cons (opens_of_begins hc)

/-- Only an underscore makes the beginning of a prefix the short form of a predicate. -/
lemma PrefixWord.isShort_iff (hp : PrefixWord p) :
    IsShort (p.toList ++ ':' :: cs) ↔ ['a', '_'] <+: p.toList := by
  constructor
  · rintro ⟨d, more, htext, hd⟩
    match hw : p.toList with
    | [] => simp [hw] at htext
    | [c] =>
      simp only [hw, List.cons_append, List.nil_append, List.cons.injEq] at htext
      obtain ⟨-, rfl, -⟩ := htext
      exact absurd hd (by decide)
    | c :: e :: w =>
      have he : isNameChar e = true := hp.chars e (by simp [hw])
      simp only [hw, List.cons_append, List.cons.injEq] at htext
      obtain ⟨rfl, rfl, -⟩ := htext
      have hblank := isBlank_of_isNameChar he
      simp only [hblank, Bool.false_eq_true, false_or, List.mem_cons, List.not_mem_nil,
        or_false] at hd
      rcases hd with rfl | rfl | rfl | rfl
      · exact absurd he (by decide)
      · exact absurd he (by decide)
      · exact absurd he (by decide)
      · exact ⟨w, rfl⟩
  · rintro ⟨w, hw⟩
    exact ⟨'_', w ++ ':' :: cs, by rw [← hw]; rfl, .inr (by decide)⟩

namespace Step

/-- A statement that begins like a prefixed name is about what is read as a name there. -/
lemma statement_of_name (hp : PrefixWord p) (hx : Gives name ⟨r, p.toList ++ ':' :: cs, g⟩ t q) :
    statement.run.run ⟨r, p.toList ++ ':' :: cs, g⟩ =
      (do properties (3 * (p.toList ++ ':' :: cs).length + 3) t; expect '.').run.run q := by
  obtain ⟨c, more, htext, hc⟩ := hp.begins cs
  have h₀ : at' (p.toList ++ ':' :: cs) 0 = c := by rw [htext]; rfl
  have hblanks : Gives blanks ⟨r, p.toList ++ ':' :: cs, g⟩ () ⟨r, p.toList ++ ':' :: cs, g⟩ :=
    gives_gap gap_nil hp.skip_eq
  rw [run_statement hp.chars (by decide), triples]
  simp only [bind_assoc]
  rw [hblanks.run_bind, gives_fuel.run_bind, gives_ahead.run_bind]
  dsimp only
  rw [h₀, if_neg (by simp [beq_of_begins hc (by decide : begins '[' = false)])]
  simp only [bind_assoc]
  rw [gives_ahead.run_bind]
  dsimp only
  rw [if_neg (by simp [beq_of_begins hc (by decide : begins '(' = false),
    beq_of_begins hc (by decide : begins '_' = false)]), bind_assoc, hx.run_bind]

end Step

/-- Where a predicate is read, a prefixed name that is not taken for the short form is read to the
end of its local part. -/
lemma gives_verb_local (hp : PrefixWord p) (h : ¬['a', '_'] <+: p.toList)
    (hns : r.prefixes.find? p = some ns) (hloc : localName cs = (loc, rest)) (hws : Gap ws) :
    Gives verb ⟨r, ws ++ (p.toList ++ ':' :: cs), g⟩ (.iri (ns ++ loc)) ⟨r, rest, g⟩ :=
  gives_verb_name hws hp.skip_eq (hp.isShort_iff.not.2 h)
    (gives_name_local hp.chars hns hloc gap_nil)

/-- Where an object is read, it is neither a truth value nor a number. -/
lemma gives_object_local (hp : PrefixWord p) (hns : r.prefixes.find? p = some ns)
    (hloc : localName cs = (loc, rest)) (hws : Gap ws) :
    Gives (object (n + 1)) ⟨r, ws ++ (p.toList ++ ':' :: cs), g⟩ (.iri (ns ++ loc))
      ⟨r, rest, g⟩ := by
  have hname : Gives name ⟨r, p.toList ++ ':' :: cs, g⟩ _ ⟨r, rest, g⟩ :=
    gives_name_local hp.chars hns hloc gap_nil
  have htruth : truth? (p.toList ++ ':' :: cs) = none := truth?_eq_none hp.chars
  obtain ⟨c, more, htext, hc⟩ := hp.begins cs
  rw [htext] at hname htruth ⊢
  exact gives_object_name hc htruth hws hname

section Positions

variable {word : List Char} (hp : PrefixWord p) (hns : r.prefixes.find? p = some ns)
  (hloc : ∀ cs, localName (word ++ ' ' :: cs) = (loc, ' ' :: cs))

include hp hns hloc

lemma inSubject : InSubject r (p.toList ++ ':' :: word) (.iri (ns ++ loc)) := by
  intro cs g
  rw [List.append_assoc, List.cons_append]
  exact statement_of_name hp (gives_name_local hp.chars hns (hloc cs) gap_nil)

lemma inPredicate (hshort : ¬['a', '_'] <+: p.toList) :
    InPredicate r (p.toList ++ ':' :: word) (.iri (ns ++ loc)) := by
  intro ws cs g hws
  rw [List.append_assoc, List.cons_append]
  exact gives_verb_local hp hshort hns (hloc cs) hws

lemma inObject : InObject r (p.toList ++ ':' :: word) (.iri (ns ++ loc)) := by
  intro n ws cs g hws
  rw [List.append_assoc, List.cons_append]
  exact gives_object_local hp hns (hloc cs) hws

end Positions

/-! ### Local names of letters -/

/-- The short form leaves more than the space. -/
lemma not_inPredicate_short (hp : PrefixWord p) (hshort : ['a', '_'] <+: p.toList)
    {word : List Char} : ¬InPredicate r (p.toList ++ ':' :: word) t := by
  intro hv
  have hword := hv [] [] .empty gap_nil
  rw [List.append_assoc, List.cons_append] at hword
  have hword' : IsShort (p.toList ++ ':' :: (word ++ [' '])) := hp.isShort_iff.2 hshort
  have htype := gives_verb_short (r := r) (g := .empty) gap_nil hword'
  have hlength := congrArg (fun s => s.2.rest.length) (htype.symm.trans hword)
  obtain ⟨w, hw⟩ := hshort
  simp [← hw] at hlength

/-- **A prefixed name means the same everywhere**, unless its prefix goes on with an underscore
after the letter of the short form: then it is not read as a predicate. -/
theorem prefixed_positions (hp : PrefixWord p) (hns : r.prefixes.find? p = some ns)
    {word : List Char} (hword : ∀ c ∈ word, isNameChar c = true ∧ c ≠ '.') :
    InSubject r (p.toList ++ ':' :: word) (.iri (ns ++ String.ofList word)) ∧
      InObject r (p.toList ++ ':' :: word) (.iri (ns ++ String.ofList word)) ∧
      (InPredicate r (p.toList ++ ':' :: word) (.iri (ns ++ String.ofList word)) ↔
        ¬['a', '_'] <+: p.toList) := by
  have hloc : ∀ cs, localName (word ++ ' ' :: cs) = (String.ofList word, ' ' :: cs) :=
    fun cs => localName_append hword (.inl rfl)
  refine ⟨inSubject hp hns hloc, inObject hp hns hloc, fun hv hshort => ?_,
    inPredicate hp hns hloc⟩
  exact not_inPredicate_short hp hshort hv

/-- Prefixes with the names of a keyword and a truth value, and one with the letter of the short
form. -/
def wordPrefixes : Prefixes :=
  Prefixes.empty.addAll [("base", "urn:b#"), ("true", "urn:t#"), ("a_b", "urn:n#")]

theorem prefixed_positions_base :
    InSubject (Reader.new wordPrefixes "") "base:x-1".toList (.iri "urn:b#x-1") ∧
      InObject (Reader.new wordPrefixes "") "base:x-1".toList (.iri "urn:b#x-1") ∧
      InPredicate (Reader.new wordPrefixes "") "base:x-1".toList (.iri "urn:b#x-1") := by
  have hp : PrefixWord "base" := by decide +kernel
  have hns : (Reader.new wordPrefixes "").prefixes.find? "base" = some "urn:b#" := by
    decide +kernel
  have hchars : "x-1".toList.all (fun c => isNameChar c && c != '.') = true := by decide +kernel
  have hword : ∀ c ∈ "x-1".toList, isNameChar c = true ∧ c ≠ '.' := fun c hc => by
    simpa using List.all_eq_true.1 hchars c hc
  obtain ⟨hs, ho, hv⟩ := prefixed_positions hp hns hword
  exact ⟨hs, ho, hv.2 (by decide +kernel)⟩

/-- The prefix is taken for the short form, and what is left of it for the prefix of an object. -/
theorem underscore_prefix_lost :
    PrefixWord "a_b" ∧ (Reader.new wordPrefixes "").prefixes.find? "a_b" = some "urn:n#" ∧
      ¬InPredicate (Reader.new wordPrefixes "") "a_b:l".toList (.iri "urn:n#l") ∧
      ((Reader.new wordPrefixes "").read "<urn:s> a_b:l <urn:o> .").1.map Graph.triples =
        .error ⟨1, .undeclared "_b"⟩ := by
  refine ⟨by decide +kernel, by decide +kernel, fun h => ?_, by decide +kernel⟩
  have hrest := congrArg (fun s => s.2.rest) (h [] [] .empty gap_nil)
  revert hrest
  decide +kernel

/-! ### Escaped local names -/

/-- Every character with a backslash in front of it. -/
def escaped (w : List Char) : List Char := w.flatMap fun c => ['\\', c]

lemma length_escaped : (escaped w).length = 2 * w.length := by
  simp [escaped, List.length_flatMap, Nat.mul_comm]

lemma localChars_escaped : localChars (escaped w ++ ' ' :: cs) = (w, ' ' :: cs) := by
  induction w with
  | nil => rfl
  | cons c w ih =>
    have htext : escaped (c :: w) ++ ' ' :: cs = '\\' :: c :: (escaped w ++ ' ' :: cs) := by
      simp [escaped]
    rw [htext, localChars, ih]

/-- What is given back of the text, a character for each point at the end. -/
def givenBack (w : List Char) : List Char :=
  (escaped w).drop (2 * w.length - trailingPoints w)

lemma localName_escaped (w cs : List Char) : localName (escaped w ++ ' ' :: cs) =
    (String.ofList (w.take (w.length - trailingPoints w)), givenBack w ++ ' ' :: cs) := by
  have hle : trailingPoints w ≤ w.length := trailingPoints_le
  have hdrop : (escaped w ++ ' ' :: cs).length - (' ' :: cs).length - trailingPoints w =
      2 * w.length - trailingPoints w := by
    rw [List.length_append, length_escaped, Nat.add_sub_cancel]
  simp only [localName, localChars_escaped, hdrop]
  rw [List.drop_append_of_le_length (by rw [length_escaped]; omega), givenBack]

lemma length_givenBack : (givenBack w).length = trailingPoints w := by
  have hle : trailingPoints w ≤ w.length := trailingPoints_le
  rw [givenBack, List.length_drop, length_escaped]
  omega

/-- These are points and the backslashes in front of them. -/
lemma mem_givenBack (hc : c ∈ givenBack w) : c = '.' ∨ c = '\\' := by
  have hsplit : escaped w = escaped (w.take (w.length - trailingPoints w)) ++
      escaped (List.replicate (trailingPoints w) '.') := by
    rw [escaped, escaped, escaped, ← List.flatMap_append, ← drop_trailingPoints,
      List.take_append_drop]
  have hle : trailingPoints w ≤ w.length := trailingPoints_le
  rw [givenBack, hsplit, List.drop_append, List.drop_eq_nil_of_le, List.nil_append] at hc
  · obtain ⟨d, hd, hc⟩ := List.mem_flatMap.1 (List.mem_of_mem_drop hc)
    rw [List.eq_of_mem_replicate hd] at hc
    simpa [or_comm] using hc
  · rw [length_escaped, List.length_take]
    omega

/-- In front of a space they are no name. -/
lemma prefixName_of_points (hu : ∀ c ∈ u, c = '.' ∨ c = '\\') :
    ∃ d left, prefixName .unexpected .noColon (u ++ [' ']) = .error (.unexpected d, left) := by
  obtain ⟨d, left, hdrop, hd⟩ : ∃ d left, (u ++ [' ']).dropWhile isNameChar = d :: left ∧
      d ≠ ':' := by
    induction u with
    | nil => exact ⟨' ', [], by decide, by decide⟩
    | cons c u ih =>
      rcases hu c (by simp) with rfl | rfl
      · exact ih fun d hd => hu d (by simp [hd])
      · exact ⟨'\\', u ++ [' '], List.dropWhile_cons_of_neg (by decide), by decide⟩
  exact ⟨d, d :: left, by simp only [prefixName, hdrop, if_neg hd]⟩

/-- A list about a name whose end is given back fails, and not at the end of the text. -/
lemma faults_givenBack (h : trailingPoints w ≠ 0) :
    ∃ d, Faults (properties (n + 1) t) ⟨r, givenBack w ++ [' '], g⟩ (.unexpected d) := by
  obtain ⟨c, u, hu⟩ := List.exists_cons_of_length_pos (length_givenBack ▸ Nat.pos_of_ne_zero h)
  have hc : c = '.' ∨ c = '\\' := mem_givenBack (hu ▸ List.mem_cons_self)
  obtain ⟨d, left, hname⟩ := prefixName_of_points fun c hc => mem_givenBack (w := w) hc
  have hskip : skip (givenBack w ++ [' ']) = givenBack w ++ [' '] := by
    rw [hu]
    rcases hc with rfl | rfl <;> exact skip_cons ⟨by decide, by decide⟩
  refine ⟨d, ?_⟩
  rw [properties]
  refine Faults.bind (faults_verb hskip ?_ (faults_name hskip ?_ ?_ hname))
  · rintro ⟨e, more, hshort, -⟩
    rw [hu, List.cons_append, List.cons.injEq] at hshort
    rcases hc with rfl | rfl <;> cases hshort.1
  · simp
  · rw [hu]
    rcases hc with rfl | rfl <;> simp

lemma faults_space : Faults (properties (n + 1) t) ⟨r, [' '], g⟩ .noIriAtEnd := by
  rw [properties]
  exact Faults.bind rfl

section Points

variable (hp : PrefixWord p) (hns : r.prefixes.find? p = some ns)
  (h : trailingPoints w ≠ 0)

include hp hns h

lemma not_inSubject : ¬InSubject r (p.toList ++ ':' :: escaped w) t := by
  intro hs
  have hrun := congrArg Prod.fst (hs [] .empty)
  obtain ⟨d, hd⟩ := faults_givenBack (r := r) (g := .empty) h
  rw [List.append_assoc, List.cons_append,
    statement_of_name hp (gives_name_local hp.chars hns (localName_escaped w _) gap_nil)] at hrun
  have hleft := (hd.bind (f := fun _ => expect '.')).symm.trans hrun
  cases hleft.trans (faults_space.bind (f := fun _ => expect '.'))

/-- More is left of the text than the space. -/
lemma not_inPredicate (hshort : ¬['a', '_'] <+: p.toList) :
    ¬InPredicate r (p.toList ++ ':' :: escaped w) t := by
  intro hv
  have hword := hv [] [] .empty gap_nil
  rw [List.append_assoc, List.cons_append] at hword
  have hverb := gives_verb_local (g := .empty) hp hshort hns (localName_escaped w []) gap_nil
  have hlength := congrArg (fun s => s.2.rest.length) (hverb.symm.trans hword)
  simp [length_givenBack, h] at hlength

lemma not_inObject : ¬InObject r (p.toList ++ ':' :: escaped w) t := by
  intro ho
  have hword := ho 0 [] [] .empty gap_nil
  rw [List.append_assoc, List.cons_append] at hword
  have hobject := gives_object_local (g := .empty) (n := 0) hp hns (localName_escaped w [])
    gap_nil
  have hlength := congrArg (fun s => s.2.rest.length) (hobject.symm.trans hword)
  simp [length_givenBack, h] at hlength

end Points

/-- **A local name of escaped characters** is read back in every position exactly if no point ends
it: an escaped point is taken for the end of the statement. -/
theorem escaped_positions (hp : ∀ c ∈ p.toList, c.isAlpha = true)
    (hns : r.prefixes.find? p = some ns) (w : List Char) :
    (InSubject r (p.toList ++ ':' :: escaped w) (.iri (ns ++ String.ofList w)) ↔
        w.getLast? ≠ some '.') ∧
      (InPredicate r (p.toList ++ ':' :: escaped w) (.iri (ns ++ String.ofList w)) ↔
        w.getLast? ≠ some '.') ∧
      (InObject r (p.toList ++ ':' :: escaped w) (.iri (ns ++ String.ofList w)) ↔
        w.getLast? ≠ some '.') := by
  have hword : PrefixWord p := by
    refine ⟨fun c hc => hp c (List.mem_of_mem_head? hc), fun c hc => ?_⟩
    simp [isNameChar, isNameStart, hp c hc]
  have hshort : ¬['a', '_'] <+: p.toList := fun h =>
    absurd (hp '_' (h.subset (by decide))) (by decide)
  rw [← trailingPoints_eq_zero_iff]
  by_cases h : trailingPoints w = 0
  · have hloc : ∀ cs, localName (escaped w ++ ' ' :: cs) = (String.ofList w, ' ' :: cs) := by
      intro cs
      have hback : givenBack w = [] := List.eq_nil_of_length_eq_zero (length_givenBack.trans h)
      rw [localName_escaped, hback, h, Nat.sub_zero, List.take_length, List.nil_append]
    exact ⟨iff_of_true (inSubject hword hns hloc) h,
      iff_of_true (inPredicate hword hns hloc hshort) h,
      iff_of_true (inObject hword hns hloc) h⟩
  · exact ⟨iff_of_false (not_inSubject hword hns h) h,
      iff_of_false (not_inPredicate hword hns h hshort) h,
      iff_of_false (not_inObject hword hns h) h⟩

/-- Points inside a local name, brackets and a quote. -/
theorem escaped_positions_brackets :
    InSubject (Reader.new wordPrefixes "") "true:\\.\\<\\\"\\ \\>".toList (.iri "urn:t#.<\" >") ∧
      InPredicate (Reader.new wordPrefixes "") "true:\\.\\<\\\"\\ \\>".toList
        (.iri "urn:t#.<\" >") ∧
      InObject (Reader.new wordPrefixes "") "true:\\.\\<\\\"\\ \\>".toList
        (.iri "urn:t#.<\" >") := by
  have hp : ∀ c ∈ "true".toList, c.isAlpha = true := List.all_eq_true.1 (by decide +kernel)
  have hns : (Reader.new wordPrefixes "").prefixes.find? "true" = some "urn:t#" := by
    decide +kernel
  obtain ⟨hs, hv, ho⟩ := escaped_positions hp hns ".<\" >".toList
  have hlast : ".<\" >".toList.getLast? ≠ some '.' := by decide +kernel
  exact ⟨hs.2 hlast, hv.2 hlast, ho.2 hlast⟩

/-- The escaped point ends the statement, and the point behind it begins another one. -/
theorem escaped_point_lost :
    (Reader.new wordPrefixes "").prefixes.find? "true" = some "urn:t#" ∧
      ¬InObject (Reader.new wordPrefixes "") "true:\\.".toList (.iri "urn:t#.") ∧
      ((Reader.new wordPrefixes "").read "<urn:s> <urn:p> true:\\. .").1.map Graph.triples =
        .error ⟨1, .noColon⟩ ∧
      ((Reader.new wordPrefixes "").read "<urn:s> <urn:p> true:\\.").1.map Graph.triples =
        .ok [⟨.iri "urn:s", .iri "urn:p", .iri "urn:t#"⟩] := by
  refine ⟨by decide +kernel, fun h => ?_, by decide +kernel, by decide +kernel⟩
  have hrest := congrArg (fun s => s.2.rest) (h 0 [] [] .empty gap_nil)
  revert hrest
  decide +kernel

end Semlift.Rdf.Turtle
