import Mathlib.Data.Bool.AllAny
import Semlift.Proofs.Except
import Semlift.Proofs.Rdf.Turtle.Lexeme

/-!
Places. A document is scanned from its beginning: every character stands where a term can, in a
comment, in a reference or in a quoted text, and what stands there decides about the place of the
next one. A condition on places may be asked of a document at each of its characters. What readers
take off a text in one piece is then a condition on that piece, and the same question again for what
follows.
-/

namespace Semlift.Rdf.Turtle

open Semlift.Text

/-- Where a character of a document stands. Between two caret signs or after them a datatype is
expected, also past blanks and comments. -/
inductive Place where
  | term (datatype : Bool)
  | comment (datatype : Bool)
  | reference
  | quoted (mark : Char) (long : Bool)
  deriving DecidableEq, Repr

def isQuote (c : Char) : Bool := c == '"' || c == '\''

/-- The place that follows a character, and how many characters are passed over before it: an
escaped one, or two more quotes. -/
def Place.next : Place → Char → List Char → Nat × Place
  | .term datatype, c, cs =>
    if c = '#' then (0, .comment datatype)
    else if isBlank c then (0, .term datatype)
    else if c = '<' then (0, .reference)
    else if isQuote c then
      if at' cs 0 == c && at' cs 1 == c then (2, .quoted c true) else (0, .quoted c false)
    else (0, .term (c == '^'))
  | .comment datatype, c, _ => (0, if c = '\n' then .term datatype else .comment datatype)
  | .reference, c, _ => (0, if c = '>' then .term false else .reference)
  | .quoted mark long, c, cs =>
    if c = '\\' then (1, .quoted mark long)
    else if c = mark && !long then (0, .term false)
    else if c = mark && at' cs 0 == mark && at' cs 1 == mark then (2, .term false)
    else (0, .quoted mark long)

/-- A condition on a place and the text from there on holds all along a text, the characters left
out that are passed over. -/
def Along (ok : Place → List Char → Prop) : (pass : Nat) → Place → List Char → Prop
  | _, _, [] => True
  | n + 1, pl, _ :: cs => Along ok n pl cs
  | 0, pl, c :: cs => ok pl (c :: cs) ∧ Along ok (pl.next c cs).1 (pl.next c cs).2 cs

instance decidableAlong (ok : Place → List Char → Prop) [∀ pl cs, Decidable (ok pl cs)] :
    (pass : Nat) → (pl : Place) → (cs : List Char) → Decidable (Along ok pass pl cs)
  | 0, _, [] => .isTrue trivial
  | _ + 1, _, [] => .isTrue trivial
  | n + 1, pl, _ :: cs => decidableAlong ok n pl cs
  | 0, pl, c :: cs =>
    have := decidableAlong ok (pl.next c cs).1 (pl.next c cs).2 cs
    inferInstanceAs (Decidable (ok pl (c :: cs) ∧ Along ok (pl.next c cs).1 (pl.next c cs).2 cs))

/-- A condition that only a bracket or a backslash outside of comments can break. -/
structure Calm (ok : Place → List Char → Prop) : Prop where
  comment : ∀ datatype cs, ok (.comment datatype) cs
  other : ∀ pl c cs, c ≠ '<' → c ≠ '\\' → ok pl (c :: cs)

/-- No backslash where a term stands: names are written without escapes. -/
def Unescaped (pl : Place) (cs : List Char) : Prop :=
  cs.head? = some '\\' → ∀ datatype, pl ≠ .term datatype

instance (pl : Place) (cs : List Char) : Decidable (Unescaped pl cs) :=
  match pl with
  | .term datatype => decidable_of_iff (cs.head? ≠ some '\\')
      ⟨fun h hc => absurd hc h, fun h hc => h hc datatype rfl⟩
  | .comment _ | .reference | .quoted .. => .isTrue fun _ _ => Place.noConfusion

/-- A character of names, numbers and brackets: it opens nothing that is read otherwise. -/
def Inert (c : Char) : Prop := isBlank c = false ∧ c ∉ ['#', '<', '"', '\'', '^', '\\']

instance : DecidablePred Inert := fun _ => inferInstanceAs (Decidable (_ ∧ _))

variable {ok : Place → List Char → Prop} {pl : Place} {datatype long b : Bool} {c mark : Char}
  {cs rest iri w s : List Char}

lemma calm_unescaped : Calm Unescaped where
  comment _ _ _ _ := Place.noConfusion
  other _ _ _ _ hc h := absurd (Option.some_inj.mp h) hc

/-! ### Names and gaps -/

lemma inert_of_isNameChar (h : isNameChar c = true) : Inert c := by
  refine ⟨isBlank_of_isNameChar h, fun hc => ?_⟩
  have key : ∀ d ∈ ['#', '<', '"', '\'', '^', '\\'], isNameChar d = false :=
    List.all_iff_forall_prop.mp (by decide)
  rw [key c hc] at h
  cases h

lemma Inert.next (h : Inert c) : (Place.term datatype).next c cs = (0, .term false) := by
  obtain ⟨hblank, hc⟩ := h
  simp only [List.mem_cons, List.not_mem_nil, or_false, not_or] at hc
  simp [Place.next, isQuote, hblank, hc]

lemma Inert.ne_bracket (h : Inert c) : c ≠ '<' := by
  rintro rfl
  exact h.2 (by decide)

lemma Inert.ne_backslash (h : Inert c) : c ≠ '\\' := by
  rintro rfl
  exact h.2 (by decide)

lemma along_term_cons (hok : Calm ok) (h : Inert c) :
    Along ok 0 (.term datatype) (c :: cs) ↔ Along ok 0 (.term false) cs := by
  rw [Along, h.next]
  exact and_iff_right (hok.other _ c cs h.ne_bracket h.ne_backslash)

lemma along_term_append (hok : Calm ok) (h : ∀ c ∈ w, Inert c)
    (hd : w = [] → datatype = false) :
    Along ok 0 (.term datatype) (w ++ rest) ↔ Along ok 0 (.term false) rest := by
  induction w generalizing datatype with
  | nil => rw [hd rfl, List.nil_append]
  | cons c w ih =>
    rw [List.cons_append, along_term_cons hok (h c (by simp))]
    exact ih (fun d hd => h d (by simp [hd])) fun _ => rfl

/-- Blanks stay in their place, and semicolons where no datatype is expected. -/
lemma along_skipFrom {isGap : Char → Bool} (hok : Calm ok)
    (hgap : ∀ c, isGap c = true → isBlank c = true ∨ c = ';' ∧ datatype = false) :
    Along ok 0 (if b then .comment datatype else .term datatype) cs ↔
      Along ok 0 (.term datatype) (skipFrom isGap b cs) := by
  induction cs generalizing b with
  | nil => cases b <;> exact .rfl
  | cons c cs ih =>
    cases b with
    | true =>
      simp only [if_true, skipFrom, ← ih, Along, Place.next, hok.comment, true_and]
      by_cases hc : c = '\n' <;> simp [hc]
    | false =>
      simp only [Bool.false_eq_true, if_false, skipFrom]
      by_cases hc : c = '#'
      · subst hc
        have hhash := hok.other (.term datatype) '#' cs (by decide) (by decide)
        simp only [beq_self_eq_true, if_true, ← ih, Along, Place.next, hhash, true_and]
      · by_cases hg : isGap c = true
        · obtain ⟨hnext, hne⟩ : (Place.term datatype).next c cs = (0, .term datatype) ∧
              c ≠ '<' ∧ c ≠ '\\' := by
            rcases hgap c hg with hb | ⟨rfl, rfl⟩
            · refine ⟨by simp [Place.next, hc, hb], ?_, ?_⟩
              all_goals
                rintro rfl
                exact absurd hb (by decide)
            · exact ⟨rfl, by decide⟩
          have hhead := hok.other (.term datatype) c cs hne.1 hne.2
          simp only [beq_false_of_ne hc, Bool.false_eq_true, if_false, hg, if_true, ← ih, Along,
            hnext, hhead, true_and]
        · simp [hc, hg]

lemma along_skip (hok : Calm ok) :
    Along ok 0 (.term datatype) cs ↔ Along ok 0 (.term datatype) (skip cs) :=
  along_skipFrom (b := false) hok fun _ => .inl

/-! ### References and quoted texts -/

/-- A character that can end a reference or a quoted text. -/
def isCloser (c : Char) : Bool := c == '>' || isQuote c

/-- The inside of a reference or a quoted text, the characters that it stands for, and what follows
its end. -/
inductive Body (pl : Place) : (cs s rest : List Char) → Prop
  | close {c : Char} {w rest : List Char}
      (hnext : pl.next c (w ++ rest) = (w.length, .term false))
      (hc : ∀ d ∈ c :: w, isCloser d = true) : Body pl (c :: (w ++ rest)) [] rest
  | plain {c : Char} {cs s rest : List Char} (hnext : pl.next c cs = (0, pl))
      (h : Body pl cs s rest) : Body pl (c :: cs) (c :: s) rest
  | escape {e x : Char} {cs s rest : List Char} (hnext : pl.next '\\' (e :: cs) = (1, pl))
      (hx : unescape? e = some x) (h : Body pl cs s rest) : Body pl ('\\' :: e :: cs) (x :: s) rest

lemma along_pass {n : Nat} : Along ok n pl cs ↔ Along ok 0 pl (cs.drop n) := by
  induction n generalizing cs with
  | zero => rfl
  | succ n ih =>
    cases cs with
    | nil => simp [Along]
    | cons c cs => exact ih

lemma Body.along (h : Body pl cs s rest) (hcs : Along ok 0 pl cs) :
    Along ok 0 (.term false) rest := by
  induction h with
  | close hnext =>
    rw [Along, hnext, along_pass, List.drop_left] at hcs
    exact hcs.2
  | plain hnext _ ih =>
    rw [Along, hnext] at hcs
    exact ih hcs.2
  | escape hnext _ _ ih =>
    rw [Along, hnext] at hcs
    exact ih hcs.2

/-- A character that stands for itself and that no escape stands for. -/
def Verbatim (c : Char) : Prop := isCloser c = false ∧ c ∉ ['\\', '\n', '\t', '\r']

instance : DecidablePred Verbatim := fun _ => inferInstanceAs (Decidable (_ ∧ _))

lemma not_verbatim_of_unescape? {e x : Char} (h : unescape? e = some x) : ¬Verbatim x := by
  unfold unescape? at h
  split at h
  all_goals cases h
  all_goals decide

/-- Characters that stand for themselves begin what is read when they begin the text. -/
lemma Body.prefix_iff {u : List Char} (h : Body pl cs s rest) (hu : ∀ c ∈ u, Verbatim c) :
    u <+: s ↔ u <+: cs := by
  induction h generalizing u with
  | @close c w rest _ hc =>
    cases u with
    | nil => simp
    | cons d u =>
      have hd := (hu d (by simp)).1
      have hne : d ≠ c := by
        rintro rfl
        rw [hc d (by simp)] at hd
        cases hd
      simp [List.cons_prefix_cons, hne]
  | plain _ _ ih =>
    cases u with
    | nil => simp
    | cons d u =>
      rw [List.cons_prefix_cons, List.cons_prefix_cons, ih fun c hc => hu c (by simp [hc])]
  | @escape e x cs s rest _ hx _ ih =>
    cases u with
    | nil => simp
    | cons d u =>
      have hd := hu d (by simp)
      have hx' : d ≠ x := by
        rintro rfl
        exact not_verbatim_of_unescape? hx hd
      have hb : d ≠ '\\' := by
        rintro rfl
        exact hd.2 (by decide)
      simp [List.cons_prefix_cons, hx', hb]

lemma at'_zero : at' (c :: cs) 0 = c := rfl

lemma at'_succ {n : Nat} : at' (c :: cs) (n + 1) = at' cs n := rfl

lemma exists_cons_of_at' {n : Nat} (h : at' cs n = c) (hc : c ≠ '\x00') :
    ∃ more, cs.drop n = c :: more := by
  unfold at' at h
  rw [List.getD_eq_getElem?_getD] at h
  cases hn : cs[n]? with
  | none =>
    rw [hn] at h
    exact absurd h.symm hc
  | some d =>
    rw [hn] at h
    obtain ⟨hlt, hd⟩ := List.getElem?_eq_some_iff.mp hn
    exact ⟨cs.drop (n + 1), by rw [← List.getElem_cons_drop hlt, hd, ← h]; rfl⟩

lemma ne_nul_of_isQuote (h : isQuote c = true) : c ≠ '\x00' := by
  rintro rfl
  cases h

lemma ne_backslash_of_isQuote (h : isQuote c = true) : c ≠ '\\' := by
  rintro rfl
  cases h

lemma isCloser_of_isQuote (h : isQuote c = true) : isCloser c = true := by
  simp [isCloser, h]

lemma body_of_iriBody (h : iriBody cs = .ok (iri, rest)) : Body .reference cs iri rest := by
  induction cs generalizing iri with
  | nil => cases h
  | cons c cs ih =>
    unfold iriBody at h
    split_ifs at h with hc hblank
    · subst hc
      cases h
      exact .close (w := []) rfl (List.forall_mem_singleton.mpr rfl)
    · obtain ⟨⟨iri', rest'⟩, hbody, heq⟩ := map_eq_ok.1 h
      cases heq
      exact .plain (by simp [Place.next, hc]) (ih hbody)

lemma body_of_stringBody (hmark : isQuote mark = true)
    (h : stringBody mark long cs = .ok (s, rest)) : Body (.quoted mark long) cs s rest := by
  have hb := ne_backslash_of_isQuote hmark
  have hcloser := isCloser_of_isQuote hmark
  fun_induction stringBody mark long cs generalizing s with
  | case1 => cases h
  | case2 c cs hlong =>
    -- three quotes close a long text
    cases h
    simp only [Bool.and_eq_true, beq_iff_eq] at hlong
    obtain ⟨⟨⟨rfl, rfl⟩, h₀⟩, h₁⟩ := hlong
    obtain ⟨more, hmore⟩ := exists_cons_of_at' h₀ (ne_nul_of_isQuote hmark)
    obtain ⟨rest, hrest⟩ := exists_cons_of_at' h₁ (ne_nul_of_isQuote hmark)
    obtain rfl : cs = c :: more := hmore
    obtain rfl : more = c :: rest := hrest
    refine .close (w := [c, c]) ?_ (by simpa using hcloser)
    simp [Place.next, hb, at']
  | case3 c cs _ hshort =>
    cases h
    simp only [Bool.and_eq_true, beq_iff_eq, Bool.not_eq_true'] at hshort
    obtain ⟨rfl, rfl⟩ := hshort
    exact .close (w := []) (by simp [Place.next, hb]) (by simpa using hcloser)
  | case4 => cases h
  | case5 => cases h
  | case6 => cases h
  | case7 e cs x hx _ _ _ ih =>
    obtain ⟨⟨s', rest'⟩, hbody, heq⟩ := map_eq_ok.1 h
    cases heq
    exact .escape (by simp [Place.next]) hx (ih hbody)
  | case8 c cs hnil hcons hshort hline hlong ih =>
    obtain ⟨⟨s', rest'⟩, hbody, heq⟩ := map_eq_ok.1 h
    cases heq
    have hc : c ≠ '\\' := by
      rintro rfl
      cases cs with
      | nil => exact hnil rfl rfl
      | cons e cs => exact hcons e cs rfl rfl
    refine .plain ?_ (ih hbody)
    have hshort' : ¬((c = mark && !long) = true) := by simpa [and_comm] using hshort
    have hlong' : ¬((c = mark && at' cs 0 == mark && at' cs 1 == mark) = true) := by
      cases long with
      | true => simpa using hlong
      | false =>
        simp only [Bool.not_false, Bool.and_true, decide_eq_true_eq] at hshort'
        simp [hshort']
    simp only [Place.next, if_neg hc, if_neg hshort', if_neg hlong']

/-- A reference is read as it is written. -/
lemma Body.reference_eq (h : Body .reference cs s rest) : cs = s ++ '>' :: rest ∧ '>' ∉ s := by
  induction h with
  | @close c w rest hnext =>
    by_cases hc : c = '>'
    · simp only [Place.next, hc, if_true, Prod.mk.injEq, and_true] at hnext
      rw [List.eq_nil_of_length_eq_zero hnext.symm, hc]
      simp
    · simp [Place.next, hc] at hnext
  | @plain c cs s rest hnext _ ih =>
    have hc : c ≠ '>' := by
      rintro rfl
      simp [Place.next] at hnext
    simp [ih.1, ih.2, Ne.symm hc]
  | escape hnext => simp [Place.next] at hnext

lemma body_of_iriReference {name : String} (h : iriReference cs = .ok (name, rest)) :
    ∃ more, cs = '<' :: more ∧ Body .reference more name.toList rest := by
  unfold iriReference at h
  split at h
  · rename_i more
    obtain ⟨⟨iri, rest'⟩, hbody, heq⟩ := map_eq_ok.1 h
    cases heq
    exact ⟨more, rfl, by simpa using body_of_iriBody hbody⟩
  · cases h

lemma body_of_quoted {lexical : String} (hmark : isQuote mark = true)
    (h : quoted (mark :: cs) = .ok (lexical, rest)) :
    ∃ w long more, cs = w ++ more ∧ (∀ c ∈ w, isQuote c = true) ∧
      (∀ datatype, (Place.term datatype).next mark cs = (w.length, .quoted mark long)) ∧
      Body (.quoted mark long) more lexical.toList rest := by
  have hhash : mark ≠ '#' := by rintro rfl; cases hmark
  have hblank : isBlank mark = false := by
    simp only [isQuote, Bool.or_eq_true, beq_iff_eq] at hmark
    rcases hmark with rfl | rfl <;> decide
  have hbracket : mark ≠ '<' := by rintro rfl; cases hmark
  have hnext : ∀ datatype, (Place.term datatype).next mark cs =
      if at' cs 0 == mark && at' cs 1 == mark then (2, .quoted mark true)
      else (0, .quoted mark false) := by
    intro datatype
    simp only [Place.next, hhash, hblank, hbracket, hmark, if_true, if_false, Bool.false_eq_true]
  obtain ⟨⟨s, rest'⟩, hbody, heq⟩ := map_eq_ok.1 h
  cases heq
  rw [String.toList_ofList]
  simp only [at'_zero, at'_succ] at hbody
  by_cases hlong : (at' cs 0 == mark && at' cs 1 == mark) = true
  · -- three quotes open a long text
    simp only [hlong, if_true] at hnext hbody
    simp only [Bool.and_eq_true, beq_iff_eq] at hlong
    obtain ⟨more, hmore⟩ := exists_cons_of_at' hlong.1 (ne_nul_of_isQuote hmark)
    obtain ⟨more', hmore'⟩ := exists_cons_of_at' hlong.2 (ne_nul_of_isQuote hmark)
    obtain rfl : cs = mark :: more := hmore
    obtain rfl : more = mark :: more' := hmore'
    exact ⟨[mark, mark], true, more', rfl, by simpa using hmark, hnext,
      body_of_stringBody hmark hbody⟩
  · simp only [hlong, if_false, Bool.false_eq_true] at hnext hbody
    exact ⟨[], false, cs, rfl, by simp, hnext, body_of_stringBody hmark hbody⟩

/-! ### Names and numbers -/

/-- A text goes on with a rest after characters of one kind. -/
def Cut (p : Char → Bool) (cs rest : List Char) : Prop :=
  ∃ w, (∀ c ∈ w, p c = true) ∧ cs = w ++ rest

variable {p : Char → Bool}

lemma Cut.refl : Cut p cs cs := ⟨[], by simp, rfl⟩

lemma Cut.trans {mid : List Char} (h : Cut p cs mid) (h' : Cut p mid rest) : Cut p cs rest := by
  obtain ⟨w, hw, rfl⟩ := h
  obtain ⟨w', hw', rfl⟩ := h'
  exact ⟨w ++ w', by simpa [or_imp, forall_and] using ⟨hw, hw'⟩, by simp⟩

lemma cut_dropWhile {q : Char → Bool} (h : ∀ c, q c = true → p c = true) :
    Cut p cs (cs.dropWhile q) :=
  ⟨cs.takeWhile q, fun c hc => h c (List.all_eq_true.mp List.all_takeWhile c hc),
    (List.takeWhile_append_dropWhile).symm⟩

lemma cut_drop_one (h : p (at' cs 0) = true) : Cut p cs (cs.drop 1) := by
  cases cs with
  | nil => exact .refl
  | cons c cs => exact ⟨[c], fun d hd => List.mem_singleton.mp hd ▸ h, rfl⟩

lemma cut_ite_drop_one {b : Bool} (h : b = true → p (at' cs 0) = true) :
    Cut p cs (if b = true then cs.drop 1 else cs) := by
  cases b with
  | true => exact cut_drop_one (h rfl)
  | false => exact .refl

/-- The characters of numbers. -/
def isNumeralChar (c : Char) : Bool :=
  c.isDigit || isSign c || c == '.' || c == 'e' || c == 'E'

lemma isNumeralChar_of_isDigit (h : c.isDigit = true) : isNumeralChar c = true := by
  simp [isNumeralChar, h]

/-- A number is written with characters of numbers, which are its text. -/
lemma cut_of_numeral {t : Term} (h : numeral cs = .ok (t, rest)) :
    ∃ w datatype, (∀ c ∈ w, isNumeralChar c = true) ∧ cs = w ++ rest ∧
      t = .typed (String.ofList w) datatype ∧
      datatype ∈ [Vocabulary.xsdInteger, Vocabulary.xsdDecimal, Vocabulary.xsdDouble] := by
  have hdigits : ∀ cs, Cut isNumeralChar cs (cs.dropWhile Char.isDigit) :=
    fun cs => cut_dropWhile fun _ => isNumeralChar_of_isDigit
  have hsign : ∀ cs, Cut isNumeralChar cs (if isSign (at' cs 0) = true then cs.drop 1 else cs) :=
    fun cs => cut_ite_drop_one fun hs => by simp [isNumeralChar, hs]
  unfold numeral at h
  extract_lets signed whole fractional fraction written mark digits after at h
  have hwritten : ∀ more, Cut isNumeralChar cs more → ∃ w, (∀ c ∈ w, isNumeralChar c = true) ∧
      cs = w ++ more ∧ written more = String.ofList w := by
    rintro more ⟨w, hw, hcs⟩
    exact ⟨w, hw, hcs, by simp [written, hcs]⟩
  have hwhole : Cut isNumeralChar cs whole := (hsign cs).trans (hdigits signed)
  have hfraction : Cut isNumeralChar cs fraction := by
    refine hwhole.trans ?_
    show Cut isNumeralChar whole (if fractional = true then (whole.drop 1).dropWhile _ else whole)
    split
    · rename_i hpoint
      refine (cut_drop_one ?_).trans (hdigits _)
      simp only [fractional, Bool.and_eq_true, beq_iff_eq] at hpoint
      rw [hpoint.1]
      rfl
    · exact .refl
  split at h
  · cases h
  split at h
  · rename_i hexponent
    split at h
    · cases h
    have hafter : Cut isNumeralChar cs after := by
      refine hfraction.trans ((cut_drop_one ?_).trans ((hsign mark).trans (hdigits digits)))
      simp only [Bool.or_eq_true, beq_iff_eq] at hexponent
      rcases hexponent with he | he <;> rw [he] <;> rfl
    obtain ⟨w, hw, hcs, hof⟩ := hwritten _ hafter
    obtain ⟨ht, hrest⟩ := Prod.mk.inj (Except.ok.inj h)
    rw [hof] at ht
    exact ⟨w, _, hw, hrest ▸ hcs, ht.symm, by simp⟩
  · obtain ⟨w, hw, hcs, hof⟩ := hwritten _ hfraction
    obtain ⟨ht, hrest⟩ := Prod.mk.inj (Except.ok.inj h)
    rw [hof] at ht
    refine ⟨w, _, hw, hrest ▸ hcs, ht.symm, ?_⟩
    split <;> simp

lemma inert_of_isNumeralChar (h : isNumeralChar c = true) : Inert c := by
  simp only [isNumeralChar, isSign, Bool.or_eq_true, beq_iff_eq] at h
  rcases h with (((h | rfl | rfl) | rfl) | rfl) | rfl
  · exact inert_of_isNameChar (by simp [isNameChar, h])
  all_goals decide

lemma cut_of_truth? {t : Term} (h : truth? cs = some (t, rest)) :
    Cut isNameChar cs rest ∧ ∃ b, t = .boolean b := by
  have hcut : ∀ {word more}, (∀ c ∈ word, isNameChar c = true) →
      afterPrefix? word cs = some more → Cut isNameChar cs more :=
    fun hword h => ⟨_, hword, afterPrefix?_eq_some_iff.mp h⟩
  unfold truth? at h
  dsimp only at h
  split at h
  · rename_i more hmore
    split at h
    · cases h
      exact ⟨hcut (List.all_eq_true.mp (by decide)) hmore, _, rfl⟩
    · cases h
  · split at h
    · rename_i more hmore
      split at h
      · cases h
        exact ⟨hcut (List.all_eq_true.mp (by decide)) hmore, _, rfl⟩
      · cases h
    · cases h

/-- The characters of the part of a name after its colon. -/
def isLocalChar (c : Char) : Bool := c == '%' || c == ':' || isNameChar c

lemma inert_of_isLocalChar (h : isLocalChar c = true) : Inert c := by
  simp only [isLocalChar, Bool.or_eq_true, beq_iff_eq] at h
  rcases h with (rfl | rfl) | h
  · decide
  · decide
  · exact inert_of_isNameChar h

lemma localChars_of_unescaped (h : Along Unescaped 0 (.term false) cs) :
    localChars cs = (cs.takeWhile isLocalChar, cs.dropWhile isLocalChar) := by
  induction cs with
  | nil => rfl
  | cons c cs ih =>
    have hne : c ≠ '\\' := by
      rintro rfl
      exact h.1 rfl false rfl
    by_cases hc : isLocalChar c = true
    · have hcs := ih ((along_term_cons calm_unescaped (inert_of_isLocalChar hc)).mp h)
      have hlocal : (c == '%' || c == ':' || isNameChar c) = true := hc
      simp [localChars, hne, hlocal, hc, hcs]
    · have hlocal : (c == '%' || c == ':' || isNameChar c) = false := by
        simpa [isLocalChar] using hc
      simp [localChars, hne, hlocal, hc]

/-- The end of a run of characters may be left with what follows it. -/
lemma take_takeWhile_append {l : List Char} (n : Nat) :
    (l.takeWhile p).take n ++ l.drop ((l.takeWhile p).take n).length = l := by
  have h : (l.takeWhile p).take n <+: l :=
    (List.take_prefix n _).trans (List.takeWhile_prefix p)
  exact List.prefix_iff_eq_append.mp h

lemma of_mem_take_takeWhile {n : Nat} (h : c ∈ (cs.takeWhile p).take n) : p c = true :=
  List.all_eq_true.mp List.all_takeWhile c (List.mem_of_mem_take h)

lemma cut_of_localName {loc : String} (h : Along Unescaped 0 (.term false) cs)
    (hl : localName cs = (loc, rest)) :
    ∃ w, (∀ c ∈ w, isLocalChar c = true) ∧ cs = w ++ rest ∧ loc = String.ofList w := by
  simp only [localName, localChars_of_unescaped h, Prod.mk.injEq] at hl
  obtain ⟨rfl, rfl⟩ := hl
  refine ⟨_, fun c => of_mem_take_takeWhile, ?_, rfl⟩
  have hlength : cs.length - (cs.dropWhile isLocalChar).length =
      (cs.takeWhile isLocalChar).length := by
    have h := congrArg List.length (List.takeWhile_append_dropWhile (p := isLocalChar) (l := cs))
    rw [List.length_append] at h
    omega
  have hcs := take_takeWhile_append (p := isLocalChar) (l := cs)
    ((cs.takeWhile isLocalChar).length - trailingPoints (cs.takeWhile isLocalChar))
  rw [List.length_take, Nat.min_eq_left (Nat.sub_le _ _)] at hcs
  rw [hlength, hcs]

lemma cut_of_blankLabel {label : String} (h : blankLabel cs = .ok (label, rest)) :
    Cut isNameChar cs rest := by
  unfold blankLabel at h
  dsimp only at h
  split at h
  · cases h
  · cases h
    exact ⟨_, fun c => of_mem_take_takeWhile, (take_takeWhile_append _).symm⟩

lemma cut_of_prefixName {bad : Char → Fault} {missing : Fault} {name : String}
    (h : prefixName bad missing cs = .ok (name, rest)) :
    Cut isNameChar cs rest ∧ ∃ more, rest = ':' :: more := by
  unfold prefixName at h
  dsimp only at h
  split at h
  · cases h
  · rename_i c more hmore
    split at h
    · rename_i hc
      cases h
      exact ⟨hmore ▸ cut_dropWhile fun _ => id, more, by rw [hc]⟩
    · cases h

end Semlift.Rdf.Turtle
