import Mathlib.Data.List.Basic
import Mathlib.Tactic.Lemma
import Mathlib.Tactic.SplitIfs
import Semlift.Rdf.Prefixes
import Semlift.Rdf.Turtle.Lexeme
import Semlift.Text.Byte

/-!
Written pieces. Each piece that a document is written from is read back from its text, as long as
what follows cannot be taken for a part of it: after a term there is a space or a comma.
-/

namespace Semlift.Rdf.Turtle

open Semlift.Text

/-- A text that can stand between angle brackets. -/
def Enclosable (s : String) : Prop := ∀ c ∈ s.toList, c ≠ '>' ∧ c ≠ ' ' ∧ c ≠ '\n'

/-- A text that can be the label of a blank node. -/
def Label (s : String) : Prop :=
  s.toList ≠ [] ∧ (∀ c ∈ s.toList, isNameChar c = true) ∧ s.toList.getLast? ≠ some '.'

/-- The characters of language tags. -/
def isTagChar (c : Char) : Bool := c.isAlphanum || c == '-'

/-- A text that can be the language of a literal. -/
def Tag (s : String) : Prop := ∀ c ∈ s.toList, isTagChar c = true

/-- A text that can be declared as a prefix: nothing, or a letter with letters, digits and hyphens
after it. -/
def PrefixText (s : String) : Prop :=
  (∀ c ∈ s.toList.head?, c.isAlpha = true) ∧ ∀ c ∈ s.toList, isTagChar c = true

instance : DecidablePred Enclosable := fun s =>
  decidable_of_iff (s.toList.all fun c => c != '>' && c != ' ' && c != '\n')
    (by simp [Enclosable, and_assoc])

instance : DecidablePred Label := fun s =>
  decidable_of_iff (s.toList ≠ [] ∧ s.toList.all isNameChar ∧ s.toList.getLast? ≠ some '.')
    (by simp [Label])

instance : DecidablePred Tag := fun s =>
  decidable_of_iff (s.toList.all isTagChar) (by simp [Tag])

instance : DecidablePred PrefixText := fun s =>
  decidable_of_iff (s.toList.head?.all Char.isAlpha ∧ s.toList.all isTagChar)
    (by simp [PrefixText, Option.all_eq_true])

/-- What comes right after a term. -/
def Closes (c : Char) : Prop := c = ' ' ∨ c = ','

/-- A text that can stand between two pieces. -/
def Gap (cs : List Char) : Prop := ∀ c ∈ cs, isBlank c = true

instance : DecidablePred Gap := fun cs => decidable_of_iff (cs.all isBlank) List.all_eq_true

/-- Where neither a gap nor a comment begins. -/
def Opens (c : Char) : Prop := isBlank c = false ∧ c ≠ '#'

variable {c d : Char} {cs ws iri name loc label s w : List Char}

/-! ### Characters -/

lemma isNameChar_of_isTagChar (h : isTagChar c = true) : isNameChar c = true := by
  simp only [isTagChar, Char.isAlphanum, isNameChar, isNameStart, Bool.or_eq_true] at *
  tauto

lemma isNameChar_of_isPlain (h : Prefixes.isPlain c = true) : isNameChar c = true ∧ c ≠ '.' := by
  refine ⟨?_, by rintro rfl; exact absurd h (by decide)⟩
  simp only [Prefixes.isPlain, Char.isAlphanum, isNameChar, isNameStart, Bool.or_eq_true] at *
  tauto

lemma isNameChar_colon : isNameChar ':' = false := by decide

lemma isBlank_of_isNameChar (h : isNameChar c = true) : isBlank c = false := by
  by_contra hb
  have hle : c.toNat < 0x21 := by
    simp only [isBlank, Bool.not_eq_false, Bool.or_eq_true, beq_iff_eq, Bool.and_eq_true,
      decide_eq_true_eq] at hb
    rcases hb with rfl | ⟨-, hb⟩
    · decide
    · omega
  have key : ∀ n < 0x21, isNameChar (Char.ofNat n) = false := by decide
  have hc := key c.toNat hle
  rw [Char.ofNat_toNat, h] at hc
  cases hc

lemma opens_of_isNameChar (h : isNameChar c = true) : Opens c :=
  ⟨isBlank_of_isNameChar h, by rintro rfl; exact absurd h (by decide)⟩

lemma Closes.isNameChar (h : Closes c) : isNameChar c = false := by
  rcases h with rfl | rfl <;> decide

/-! ### Gaps -/

lemma skipFrom_append {isGap : Char → Bool} (h : ∀ c ∈ ws, isGap c = true ∧ c ≠ '#') :
    skipFrom isGap false (ws ++ cs) = skipFrom isGap false cs := by
  induction ws with
  | nil => rfl
  | cons c ws ih =>
    obtain ⟨hgap, hc⟩ := h c (by simp)
    simp [skipFrom, hgap, hc, ih fun d hd => h d (by simp [hd])]

lemma skipFrom_cons {isGap : Char → Bool} (h : isGap c = false) (hc : c ≠ '#') :
    skipFrom isGap false (c :: cs) = c :: cs := by
  simp [skipFrom, h, hc]

lemma gap_nil : Gap [] := by simp [Gap]

lemma gap_space : Gap [' '] := by simp [Gap, isBlank]

lemma skip_append (h : Gap ws) : skip (ws ++ cs) = skip cs :=
  skipFrom_append fun c hc => ⟨h c hc, by rintro rfl; exact absurd (h _ hc) (by decide)⟩

lemma skip_cons (h : Opens c) : skip (c :: cs) = c :: cs := skipFrom_cons h.1 h.2

lemma opens_of_skipFrom {b : Bool} {more : List Char} (h : skipFrom isBlank b cs = c :: more) :
    Opens c := by
  induction cs generalizing b with
  | nil => cases b <;> cases h
  | cons d cs ih =>
    cases b with
    | true => exact ih h
    | false =>
      unfold skipFrom at h
      split_ifs at h with hhash hblank
      · exact ih h
      · exact ih h
      · obtain ⟨rfl, -⟩ := List.cons.inj h
        exact ⟨by simpa using hblank, by simpa using hhash⟩

lemma skip_skip : skip (skip cs) = skip cs := by
  cases h : skip cs with
  | nil => rfl
  | cons c more => exact skip_cons (opens_of_skipFrom h)

lemma skipSemicolons_cons (h : Opens c) (hc : c ≠ ';') : skipSemicolons (c :: cs) = c :: cs :=
  skipFrom_cons (by simp [h.1, hc]) h.2

/-! ### Names and labels -/

lemma iriBody_append (h : ∀ c ∈ iri, c ≠ '>' ∧ c ≠ ' ' ∧ c ≠ '\n') :
    iriBody (iri ++ '>' :: cs) = .ok (iri, cs) := by
  induction iri with
  | nil => simp [iriBody]
  | cons c iri ih =>
    obtain ⟨h₁, h₂, h₃⟩ := h c (by simp)
    simp [iriBody, h₁, h₂, h₃, ih fun d hd => h d (by simp [hd]), Except.map]

lemma iriReference_append {s : String} (h : Enclosable s) :
    iriReference ('<' :: s.toList ++ '>' :: cs) = .ok (s, cs) := by
  simp [iriReference, iriBody_append h, Except.map]

lemma prefixName_append {bad : Char → Fault} {missing : Fault}
    (h : ∀ c ∈ name, isNameChar c = true) :
    prefixName bad missing (name ++ ':' :: cs) = .ok (String.ofList name, ':' :: cs) := by
  simp [prefixName, List.takeWhile_append_of_pos h, List.dropWhile_append_of_pos h,
    isNameChar_colon]

lemma localChars_append (h : ∀ c ∈ loc, isNameChar c = true) (hd : Closes d) :
    localChars (loc ++ d :: cs) = (loc, d :: cs) := by
  induction loc with
  | nil => rcases hd with rfl | rfl <;> rfl
  | cons c loc ih =>
    have hc := h c (by simp)
    have hne : c ≠ '\\' := by rintro rfl; exact absurd hc (by decide)
    simp [localChars, hc, hne, ih fun e he => h e (by simp [he])]

lemma trailingPoints_le : trailingPoints w ≤ w.length := by
  have hle : trailingPoints w ≤ w.reverse.length := (List.takeWhile_prefix _).length_le
  rwa [List.length_reverse] at hle

lemma trailingPoints_eq_zero_iff : trailingPoints cs = 0 ↔ cs.getLast? ≠ some '.' := by
  rw [← List.head?_reverse]
  unfold trailingPoints
  cases cs.reverse with
  | nil => simp
  | cons c more => by_cases hc : c = '.' <;> simp [hc]

lemma trailingPoints_eq_zero (h : cs.getLast? ≠ some '.') : trailingPoints cs = 0 :=
  trailingPoints_eq_zero_iff.2 h

lemma drop_trailingPoints :
    w.drop (w.length - trailingPoints w) = List.replicate (trailingPoints w) '.' := by
  have h : w.reverse.take (trailingPoints w) = List.replicate (trailingPoints w) '.' := by
    have htake := List.prefix_iff_eq_take.1 (List.takeWhile_prefix (· == '.') (l := w.reverse))
    rw [trailingPoints, ← htake]
    exact List.eq_replicate_iff.2
      ⟨rfl, fun c hc => beq_iff_eq.1 (List.all_eq_true.1 List.all_takeWhile c hc)⟩
  rw [List.take_reverse, List.reverse_eq_iff, List.reverse_replicate] at h
  exact h

/-- Every character of a local name is written with one character at least. -/
lemma length_localChars (cs : List Char) :
    (localChars cs).1.length + (localChars cs).2.length ≤ cs.length := by
  fun_induction localChars cs with
  | case1 => simp
  | case2 e cs name rest hcs ih =>
    rw [hcs] at ih
    simp only [List.length_cons] at ih ⊢
    omega
  | case3 c cs _ _ name rest hcs ih =>
    rw [hcs] at ih
    simp only [List.length_cons] at ih ⊢
    omega
  | case4 => simp

lemma trailingPoints_point : trailingPoints (w ++ ['.']) = trailingPoints w + 1 := by
  simp [trailingPoints]

/-- A text without the points at its end. -/
def unpointed (w : List Char) : List Char := w.take (w.length - trailingPoints w)

lemma unpointed_point : unpointed (w ++ ['.']) = unpointed w := by
  rw [unpointed, trailingPoints_point, List.length_append, List.length_singleton,
    Nat.add_sub_add_right, List.take_append_of_le_length (Nat.sub_le _ _), unpointed]

lemma localName_eq {rest : List Char} (h : localChars cs = (name, rest)) : localName cs =
    (String.ofList (unpointed name),
      cs.drop (cs.length - rest.length - trailingPoints name)) := by
  simp only [localName, h, unpointed]

lemma localName_append (h : ∀ c ∈ loc, isNameChar c = true ∧ c ≠ '.') (hd : Closes d) :
    localName (loc ++ d :: cs) = (String.ofList loc, d :: cs) := by
  have hlast : loc.getLast? ≠ some '.' := fun hl => (h _ (List.mem_of_getLast? hl)).2 rfl
  simp [localName, localChars_append (fun c hc => (h c hc).1) hd, trailingPoints_eq_zero hlast]

lemma blankLabel_append {s : String} (h : Label s) (hd : Closes d) :
    blankLabel (s.toList ++ d :: cs) = .ok (s, d :: cs) := by
  obtain ⟨hne, hall, hlast⟩ := h
  have hrun : (s.toList ++ d :: cs).takeWhile isNameChar = s.toList := by
    simp [List.takeWhile_append_of_pos hall, hd.isNameChar]
  simp [blankLabel, hrun, trailingPoints_eq_zero hlast, hne]

/-! ### Quoted texts -/

lemma stringBody_escapeChar :
    stringBody '"' false (escapeChar c ++ cs) =
      (stringBody '"' false cs).map fun (s, rest) => (c :: s, rest) := by
  unfold escapeChar
  split_ifs with h₁ h₂ h₃ h₄ h₅
  all_goals simp [stringBody, unescape?, *]

lemma stringBody_escape :
    stringBody '"' false (s.flatMap escapeChar ++ '"' :: cs) = .ok (s, cs) := by
  induction s with
  | nil => simp [stringBody]
  | cons c s ih =>
    rw [List.flatMap_cons, List.append_assoc, stringBody_escapeChar, ih]
    rfl

lemma escapeChar_eq_cons : ∃ e more, escapeChar c = e :: more ∧ e ≠ '"' := by
  unfold escapeChar
  split_ifs with h₁ h₂
  all_goals exact ⟨_, _, rfl, by simp [*]⟩

/-- After an empty text a third quote would open a long one. -/
lemma quoted_append {s : String} (hd : d ≠ '"') :
    quoted ((quote s).toList ++ d :: cs) = .ok (s, d :: cs) := by
  have htext : (quote s).toList ++ d :: cs =
      '"' :: (s.toList.flatMap escapeChar ++ '"' :: d :: cs) := by
    simp [quote, escape]
  have hshort : (at' ((quote s).toList ++ d :: cs) 1 == '"' &&
      at' ((quote s).toList ++ d :: cs) 2 == '"') = false := by
    rw [htext]
    cases s.toList with
    | nil => simp [at', hd]
    | cons c more =>
      obtain ⟨e, tail, he, hne⟩ := escapeChar_eq_cons (c := c)
      simp [at', he, hne]
  have hmark : at' ((quote s).toList ++ d :: cs) 0 = '"' := by rw [htext]; rfl
  simp only [quoted, hmark, hshort]
  rw [htext]
  simp [stringBody_escape, Except.map]

/-! ### What a text does not begin with -/

/-- A keyword ends before the first character that no letter of it can be. -/
lemma afterKeyword?_eq_none {keyword : String} (hw : ∀ c ∈ w, isBlank c = false)
    (hd : isBlank d = false) (hk : d.toLower ∉ keyword.toList.map Char.toLower) :
    afterKeyword? keyword (w ++ d :: cs) = none := by
  unfold afterKeyword?
  refine if_neg fun h => ?_
  simp only [Bool.and_eq_true, decide_eq_true_eq] at h
  obtain ⟨htake, hblank⟩ := h
  rcases Nat.lt_or_ge w.length keyword.length with hlt | hge
  · obtain ⟨k, hk'⟩ := Nat.exists_eq_add_of_lt hlt
    refine hk (htake ▸ List.mem_map_of_mem ?_)
    simp [List.take_append, hk', Nat.add_assoc]
  · have hmem : at' (w ++ d :: cs) keyword.length ∈ w ++ [d] := by
      have hlt : keyword.length < (w ++ [d]).length := by simp; omega
      rw [at', List.append_cons w d cs, List.getD_eq_getElem?_getD, List.getElem?_append_left hlt,
        List.getElem?_eq_getElem hlt]
      exact List.getElem_mem _
    rcases List.mem_append.1 hmem with hm | hm
    · exact absurd hblank (by simp [hw _ hm])
    · exact absurd hblank (by simp [List.mem_singleton.1 hm, hd])

lemma at'_of_afterPrefix? {k rest : List Char} (hk : ':' ∉ k)
    (hw : ∀ c ∈ w, isNameChar c = true) (h : afterPrefix? k (w ++ ':' :: cs) = some rest) :
    isNameChar (at' rest 0) = true ∨ at' rest 0 = ':' := by
  rcases List.append_eq_append_iff.1 (afterPrefix?_eq_some_iff.1 h) with
    ⟨a, rfl, ha⟩ | ⟨c, rfl, rfl⟩
  · cases a with
    | nil =>
      cases ha
      exact .inr rfl
    | cons e a =>
      cases ha
      exact absurd (by simp) hk
  · cases c with
    | nil => exact .inr rfl
    | cons e c => exact .inl (hw e (by simp))

/-- The word of a truth value ends where it does, and not inside a prefixed name. -/
lemma truth?_eq_none (hw : ∀ c ∈ w, isNameChar c = true) : truth? (w ++ ':' :: cs) = none := by
  have hends {k rest : List Char} (hk : ':' ∉ k)
      (h : afterPrefix? k (w ++ ':' :: cs) = some rest) :
      (!isNameChar (at' rest 0) && at' rest 0 != ':') = false := by
    rcases at'_of_afterPrefix? hk hw h with h | h <;> simp [h]
  unfold truth?
  dsimp only
  split
  · rename_i rest h
    simp [hends (by decide) h]
  · split
    · rename_i rest h
      simp [hends (by decide) h]
    · rfl

end Semlift.Rdf.Turtle
