import Mathlib.Data.List.TakeDrop
import Semlift.Proofs.Lists
import Semlift.Proofs.Rdf.Turtle.Uses

/-!
A point in the place of a gap. A piece of text that ends in front of a gap or a comment is also read
when there is a point instead, with a blank or the end of the text behind it: the point is no part
of it, or it is given back.
-/

namespace Semlift.Rdf.Turtle

open Semlift.Text

/-- What a gap or a comment begins with. -/
def gaps : List Char := [' ', '\t', '\n', '\x0b', '\x0c', '\r', '#']

/-- A text that begins with a gap or a comment. -/
def Gapped (u : List Char) : Prop := ∃ c ∈ gaps, ∃ more, u = c :: more

/-- A text may stand in the place of a gap: the same one, or a point that ends a statement. -/
inductive Closing (u : List Char) : List Char → Prop
  | same : Closing u u
  | point {more : List Char} (h : ∀ c ∈ more.head?, isBlank c = true) : Closing u ('.' :: more)

variable {u v w w₁ w₂ z cs rest s name : List Char} {a : String} {c mark : Char} {b long : Bool}
  {p : Char → Bool}

lemma mem_gaps_iff : c ∈ gaps ↔ isBlank c = true ∨ c = '#' := by
  constructor
  · intro h
    have key : gaps.all (fun c => isBlank c || c == '#') = true := by decide
    simpa using List.all_eq_true.1 key c h
  · rintro (h | rfl)
    · have hle : c.toNat < 0x21 := by
        simp only [isBlank, Bool.or_eq_true, beq_iff_eq, Bool.and_eq_true, decide_eq_true_eq] at h
        rcases h with rfl | ⟨-, h⟩
        · decide
        · omega
      have key : ∀ n < 0x21, isBlank (Char.ofNat n) = true → Char.ofNat n ∈ gaps := by decide
      have hc := key c.toNat hle
      rw [Char.ofNat_toNat] at hc
      exact hc h
    · decide

/-! ### Ends of pieces -/

lemma not_leaves_append {k : Nat} : ¬Leaves (k + 1) u (w ++ u) := by
  intro h
  have := h.length
  rw [List.length_append] at this
  omega

/-- What is left behind the first character tells where it stands. -/
lemma exists_cons_of_leaves {k : Nat} (hcs : w ++ u = c :: cs) (h : Leaves k cs (w₂ ++ u)) :
    ∃ w', w = c :: w' ∧ cs = w' ++ u := by
  cases w with
  | nil =>
    obtain rfl : u = c :: cs := hcs
    have := h.length
    simp only [List.length_append, List.length_cons] at this
    omega
  | cons d w =>
    obtain ⟨rfl, rfl⟩ := List.cons.inj hcs
    exact ⟨w, rfl, rfl⟩

lemma not_of_mem_gaps (hp : gaps.any p = false) (hc : c ∈ gaps) : p c = false := by
  simpa using List.any_eq_false.1 hp c hc

lemma Gapped.head (h : Gapped u) (hp : gaps.any p = false) : ∀ c ∈ u.head?, p c = false := by
  obtain ⟨c, hc, more, rfl⟩ := h
  rintro _ ⟨⟩
  exact not_of_mem_gaps hp hc

lemma Gapped.ne_nil (hu : Gapped u) : u ≠ [] := by
  obtain ⟨c, -, more, rfl⟩ := hu
  exact List.cons_ne_nil c more

lemma Closing.ne_nil (hv : Closing u v) (hu : Gapped u) : v ≠ [] := by
  cases hv with
  | same => exact hu.ne_nil
  | point => simp

lemma Gapped.at'_zero (hu : Gapped u) (hp : gaps.any p = false) : p (at' u 0) = false := by
  obtain ⟨c, hc, more, rfl⟩ := hu
  exact not_of_mem_gaps hp hc

lemma Closing.at'_zero (hv : Closing u v) (hu : Gapped u) (hp : gaps.any p = false)
    (hpoint : p '.' = false) : p (at' v 0) = false := by
  cases hv with
  | same => exact hu.at'_zero hp
  | point => exact hpoint

/-- A character that neither a gap nor the point is stands in front of both. -/
lemma at'_zero_closing (hu : Gapped u) (hv : Closing u v) (hc : c ∉ gaps) (hpoint : c ≠ '.') :
    at' (w ++ v) 0 = c ↔ at' (w ++ u) 0 = c := by
  cases w with
  | nil =>
    have hgap : gaps.any (· == c) = false := List.any_eq_false.2 fun d hd h =>
      hc (beq_iff_eq.1 h ▸ hd)
    have hfirst : (at' u 0 == c) = false := hu.at'_zero hgap
    have hsecond : (at' v 0 == c) = false :=
      hv.at'_zero hu hgap (beq_false_of_ne hpoint.symm)
    exact iff_of_false (ne_of_beq_false hsecond) (ne_of_beq_false hfirst)
  | cons d w => exact .rfl

lemma twice_closing (hu : Gapped u) (hv : Closing u v) (hc : c ∉ gaps) (hpoint : c ≠ '.') :
    at' (w ++ v) 0 = c ∧ at' (w ++ v) 1 = c ↔ at' (w ++ u) 0 = c ∧ at' (w ++ u) 1 = c := by
  cases w with
  | nil =>
    have hfirst := at'_zero_closing (w := []) hu hv hc hpoint
    have hnot : ¬at' u 0 = c := by
      obtain ⟨d, hd, more, rfl⟩ := hu
      rintro rfl
      exact hc hd
    exact iff_of_false (fun h => hnot (hfirst.1 h.1)) fun h => hnot h.1
  | cons d w =>
    have hsecond : at' (w ++ v) 0 = c ↔ at' (w ++ u) 0 = c := at'_zero_closing hu hv hc hpoint
    exact and_congr_right fun _ => hsecond

/-- A gap that is skipped ends in front of the one behind it, whatever stands there instead. -/
lemma skipFrom_closing {isGap : Char → Bool} (hgap : ∀ c, isBlank c = true → isGap c = true)
    (hu : Gapped u) (h : skipFrom isGap b (w ++ u) = w₁ ++ u) :
    w₁ ≠ [] ∧ ∀ z, skipFrom isGap b (w ++ z) = w₁ ++ z := by
  induction w generalizing b with
  | nil =>
    obtain ⟨c, hc, more, rfl⟩ := hu
    have hleaves : Leaves 1 (c :: more) (skipFrom isGap b (c :: more)) := by
      cases b with
      | true => exact leaves_skipFrom.cons
      | false =>
        unfold skipFrom
        split_ifs with hhash hblank
        · exact leaves_skipFrom.cons
        · exact leaves_skipFrom.cons
        · rcases mem_gaps_iff.1 hc with hc | rfl
          · exact absurd (hgap c hc) hblank
          · exact absurd rfl hhash
    rw [List.nil_append] at h
    exact absurd (h ▸ hleaves) not_leaves_append
  | cons c w ih =>
    cases b with
    | true => exact ih h
    | false =>
      simp only [List.cons_append, skipFrom] at h ⊢
      split_ifs at h ⊢
      · exact ih h
      · exact ih h
      · obtain rfl : c :: w = w₁ := (List.append_left_inj u).1 h
        exact ⟨by simp, fun z => rfl⟩

/-! ### References, names and labels -/

lemma iriBody_closing (h : iriBody (w ++ u) = .ok (s, w₂ ++ u)) :
    iriBody (w ++ v) = .ok (s, w₂ ++ v) := by
  induction w generalizing s with
  | nil =>
    obtain ⟨hu, -⟩ := (body_of_iriBody h).reference_eq
    have hlength := congrArg List.length hu
    simp only [List.nil_append, List.length_append, List.length_cons] at hlength
    omega
  | cons c w ih =>
    simp only [List.cons_append, iriBody] at h ⊢
    split_ifs at h ⊢
    · obtain ⟨rfl, hw⟩ := Prod.mk.inj (Except.ok.inj h)
      rw [List.append_cancel_right hw]
    · obtain ⟨⟨s', rest⟩, hbody, heq⟩ := map_eq_ok.1 h
      cases heq
      rw [ih hbody]
      rfl

lemma iriReference_closing {iri : String} (h : iriReference (w ++ u) = .ok (iri, w₂ ++ u)) :
    iriReference (w ++ v) = .ok (iri, w₂ ++ v) := by
  cases w with
  | nil => exact absurd (leaves_iriReference h) not_leaves_append
  | cons c w =>
    obtain ⟨more, hmore, -⟩ := body_of_iriReference h
    obtain ⟨rfl, -⟩ := List.cons.inj hmore
    obtain ⟨⟨s, rest⟩, hbody, heq⟩ := map_eq_ok.1 h
    cases heq
    simp [iriReference, iriBody_closing (v := v) hbody, Except.map]

lemma prefixName_closing {bad : Char → Fault} {missing : Fault} (hu : Gapped u)
    (h : prefixName bad missing (w ++ u) = .ok (a, w₂ ++ u)) :
    prefixName bad missing (w ++ v) = .ok (a, w₂ ++ v) := by
  obtain ⟨⟨name, hname, hw⟩, more, hmore⟩ := cut_of_prefixName h
  obtain ⟨w₃, rfl⟩ : ∃ w₃, w₂ = ':' :: w₃ := by
    cases w₂ with
    | nil =>
      obtain ⟨c, hc, more', rfl⟩ := hu
      obtain ⟨rfl, -⟩ := List.cons.inj hmore
      exact absurd hc (by decide)
    | cons c w₃ =>
      obtain ⟨rfl, -⟩ := List.cons.inj hmore
      exact ⟨w₃, rfl⟩
  rw [← List.append_assoc] at hw
  obtain rfl := List.append_cancel_right hw
  rw [List.append_assoc, List.cons_append, prefixName_append hname] at h ⊢
  exact congrArg (fun x => x.map fun s => (s.1, ':' :: (w₃ ++ v))) h

/-! ### Local names -/

lemma ne_backslash_of_isLocalChar (h : isLocalChar c = true) : c ≠ '\\' :=
  (inert_of_isLocalChar h).ne_backslash

lemma localChars_escape :
    localChars ('\\' :: c :: cs) = (c :: (localChars cs).1, (localChars cs).2) := rfl

lemma localChars_cons (h : isLocalChar c = true) :
    localChars (c :: cs) = (c :: (localChars cs).1, (localChars cs).2) := by
  have hlocal : (c == '%' || c == ':' || isNameChar c) = true := h
  simp [localChars, ne_backslash_of_isLocalChar h, hlocal]

lemma localChars_stop (h : isLocalChar c = false) (hc : c ≠ '\\') :
    localChars (c :: cs) = ([], c :: cs) := by
  have hlocal : (c == '%' || c == ':' || isNameChar c) = false := h
  simp [localChars, hc, hlocal]

lemma Gapped.localChars (hu : Gapped u) : localChars u = ([], u) := by
  obtain ⟨c, hc, more, rfl⟩ := hu
  exact localChars_stop (not_of_mem_gaps (by decide) hc) (by rintro rfl; exact absurd hc (by decide))

lemma localChars_blank {more : List Char} (h : ∀ c ∈ more.head?, isBlank c = true) :
    localChars more = ([], more) := by
  cases more with
  | nil => rfl
  | cons c more => exact Gapped.localChars ⟨c, mem_gaps_iff.2 (.inl (h c rfl)), more, rfl⟩

/-- Where the characters of a local name end. -/
inductive LocalEnd (w u : List Char) : Prop
  | inside (name w₁ : List Char) (h : ∀ z, localChars (w ++ z) = (name, w₁ ++ z))
  | behind (name : List Char) (h : localChars (w ++ u) = (name, u))
      (hpoint : ∀ more : List Char, (∀ c ∈ more.head?, isBlank c = true) →
        localChars (w ++ '.' :: more) = (name ++ ['.'], more))
  | beyond (before : List Char) {after rest : List Char} {c : Char}
      (h : localChars (w ++ u) = (before ++ c :: after, rest)) (hc : c ≠ '.')
      (hlength : after.length + rest.length < u.length)

lemma localEnd (hu : Gapped u) : LocalEnd w u := by
  fun_induction localChars w with
  | case1 =>
    refine .behind [] hu.localChars fun more hmore => ?_
    rw [List.nil_append, localChars_cons (by decide), localChars_blank hmore]
    rfl
  | case2 e w name rest hw ih =>
    cases ih with
    | inside name w₁ h =>
      exact .inside (e :: name) w₁ fun z => by
        rw [List.cons_append, List.cons_append, localChars_escape, h]
    | behind name h hpoint =>
      refine .behind (e :: name) ?_ fun more hmore => ?_
      · rw [List.cons_append, List.cons_append, localChars_escape, h]
      · rw [List.cons_append, List.cons_append, localChars_escape, hpoint more hmore]
        rfl
    | @beyond before after rest c h hc hlength =>
      refine .beyond (e :: before) ?_ hc hlength
      rw [List.cons_append, List.cons_append, localChars_escape, h]
      rfl
  | case3 c w hne hlocal name rest hw ih =>
    have hlocal : isLocalChar c = true := hlocal
    cases ih with
    | inside name w₁ h =>
      exact .inside (c :: name) w₁ fun z => by
        rw [List.cons_append, localChars_cons hlocal, h]
    | behind name h hpoint =>
      refine .behind (c :: name) ?_ fun more hmore => ?_
      · rw [List.cons_append, localChars_cons hlocal, h]
      · rw [List.cons_append, localChars_cons hlocal, hpoint more hmore]
        rfl
    | @beyond before after rest d h hc hlength =>
      refine .beyond (c :: before) ?_ hc hlength
      rw [List.cons_append, localChars_cons hlocal, h]
      rfl
  | case4 c w hne hlocal =>
    have hlocal : isLocalChar c = false := Bool.not_eq_true _ ▸ hlocal
    by_cases hc : c = '\\'
    · -- the backslash is the last character and takes the gap for an escaped one
      subst hc
      obtain rfl : w = [] := by
        cases w with
        | nil => rfl
        | cons e w => exact (hne e w rfl rfl).elim
      obtain ⟨d, hd, more, rfl⟩ := hu
      have hpoint : d ≠ '.' := by rintro rfl; exact absurd hd (by decide)
      have hlength := length_localChars more
      refine .beyond [] localChars_escape hpoint ?_
      rw [List.length_cons]
      omega
    · exact .inside [] (c :: w) fun z => localChars_stop hlocal hc

/-- A character that is no point keeps the points behind it apart. -/
lemma trailingPoints_le_of_ne (hc : c ≠ '.') : trailingPoints (w ++ c :: w₁) ≤ w₁.length := by
  by_contra hlt
  have hle := trailingPoints_le (w := w ++ c :: w₁)
  have hdrop := drop_trailingPoints (w := w ++ c :: w₁)
  rw [List.drop_append_of_le_length (by simp only [List.length_append, List.length_cons]; omega)]
    at hdrop
  have hmem : c ∈ List.replicate (trailingPoints (w ++ c :: w₁)) '.' := by
    rw [← hdrop]
    simp
  exact hc (List.eq_of_mem_replicate hmem)

lemma drop_append_sub {n : Nat} : (w ++ z).drop ((w ++ z).length - (w₁ ++ z).length - n) =
    w.drop (w.length - w₁.length - n) ++ z := by
  have hsub : (w ++ z).length - (w₁ ++ z).length - n = w.length - w₁.length - n := by
    simp only [List.length_append]
    omega
  rw [hsub, List.drop_append_of_le_length (by omega)]

/-- A point behind a local name is given back. -/
lemma localName_closing (hu : Gapped u) (hv : Closing u v) (h : localName (w ++ u) = (a, w₂ ++ u)) :
    localName (w ++ v) = (a, w₂ ++ v) := by
  cases hv with
  | same => exact h
  | @point more hmore =>
    cases localEnd (w := w) hu with
    | inside name w₁ hend =>
      rw [localName_eq (hend u), drop_append_sub, Prod.mk.injEq] at h
      obtain ⟨rfl, hw⟩ := h
      rw [localName_eq (hend _), drop_append_sub, List.append_cancel_right hw]
    | behind name hend hpoint =>
      have hrest : (w ++ u).drop ((w ++ u).length - ([] ++ u).length - trailingPoints name) =
          w.drop (w.length - ([] : List Char).length - trailingPoints name) ++ u := drop_append_sub
      have hsub : (w ++ '.' :: more).length - more.length - trailingPoints (name ++ ['.']) =
          (w ++ '.' :: more).length - ([] ++ '.' :: more).length - trailingPoints name := by
        rw [trailingPoints_point]
        simp only [List.length_append, List.length_cons, List.nil_append]
        omega
      rw [localName_eq hend, Prod.mk.injEq] at h
      obtain ⟨rfl, hw⟩ := h
      rw [localName_eq (hpoint more hmore), unpointed_point, hsub, drop_append_sub,
        List.append_cancel_right (hrest.symm.trans hw)]
    | @beyond before after rest c hend hc hlength =>
      have hpoints : trailingPoints (before ++ c :: after) ≤ after.length :=
        trailingPoints_le_of_ne hc
      rw [localName_eq hend, Prod.mk.injEq] at h
      have hrest := congrArg List.length h.2
      simp only [List.length_drop, List.length_append] at hrest
      omega

/-! ### Labels and numbers -/

lemma isNameChar_of_mem_gaps (h : c ∈ gaps) : isNameChar c = false :=
  not_of_mem_gaps (by decide) h

/-- The point behind a run of characters of names is one of them. -/
lemma takeWhile_point {more : List Char} (h : ∀ c ∈ more.head?, isBlank c = true) :
    (w ++ '.' :: more).takeWhile isNameChar = w.takeWhile isNameChar ∨
      (w ++ '.' :: more).takeWhile isNameChar = w.takeWhile isNameChar ++ ['.'] := by
  induction w with
  | nil =>
    have hmore : more.takeWhile isNameChar = [] := by
      have hhead : ∀ c ∈ more.head?, isNameChar c = false := fun c hc =>
        isNameChar_of_mem_gaps (mem_gaps_iff.2 (.inl (h c hc)))
      simpa using takeWhile_append_of_head (w := []) hhead
    right
    rw [List.nil_append, List.takeWhile_cons_of_pos (by decide), hmore]
    rfl
  | cons c w ih =>
    by_cases hc : isNameChar c = true
    · simpa [hc] using ih
    · simp [hc]

lemma unpointed_closing (hu : Gapped u) (hv : Closing u v) :
    unpointed ((w ++ v).takeWhile isNameChar) = unpointed ((w ++ u).takeWhile isNameChar) := by
  cases hv with
  | same => rfl
  | point hmore =>
    rw [takeWhile_append_of_head (hu.head (by decide))]
    rcases takeWhile_point (w := w) hmore with h | h
    · rw [h]
    · rw [h, unpointed_point]

lemma blankLabel_closing (hu : Gapped u) (hv : Closing u v)
    (h : blankLabel (w ++ u) = .ok (a, w₂ ++ u)) : blankLabel (w ++ v) = .ok (a, w₂ ++ v) := by
  have hlabel (cs : List Char) : blankLabel cs =
      if (unpointed (cs.takeWhile isNameChar)).isEmpty then
        .error (.emptyLabel, cs.drop (unpointed (cs.takeWhile isNameChar)).length)
      else .ok (String.ofList (unpointed (cs.takeWhile isNameChar)),
        cs.drop (unpointed (cs.takeWhile isNameChar)).length) := rfl
  have hrun := unpointed_closing (w := w) hu hv
  rw [hlabel] at h ⊢
  rw [hrun]
  split_ifs at h ⊢
  obtain ⟨rfl, hrest⟩ := Prod.mk.inj (Except.ok.inj h)
  have hle : (unpointed ((w ++ u).takeWhile isNameChar)).length ≤ w.length := by
    rw [takeWhile_append_of_head (hu.head (by decide))]
    exact (List.length_take_le _ _).trans
      ((Nat.sub_le _ _).trans (List.takeWhile_prefix _).length_le)
  rw [List.drop_append_of_le_length hle] at hrest ⊢
  rw [List.append_cancel_right hrest]

/-! The parts of a number: without its sign, behind its digits, behind its fraction, and behind the
digits of an exponent. -/

def unsigned (cs : List Char) : List Char := if isSign (at' cs 0) then cs.drop 1 else cs

def whole (cs : List Char) : List Char := (unsigned cs).dropWhile Char.isDigit

def fractional (cs : List Char) : Bool := at' cs 0 == '.' && (at' cs 1).isDigit

def fraction (cs : List Char) : List Char :=
  if fractional (whole cs) then ((whole cs).drop 1).dropWhile Char.isDigit else whole cs

def marked (cs : List Char) : Bool := at' cs 0 == 'e' || at' cs 0 == 'E'

def written (cs rest : List Char) : String := String.ofList (cs.take (cs.length - rest.length))

lemma numeral_eq : numeral cs =
    if !fractional (whole cs) && (whole cs).length == (unsigned cs).length then
      .error (.malformedNumber, whole cs)
    else if marked (fraction cs) then
      if (whole ((fraction cs).drop 1)).length == (unsigned ((fraction cs).drop 1)).length then
        .error (.malformedExponent, whole ((fraction cs).drop 1))
      else .ok (.typed (written cs (whole ((fraction cs).drop 1))) Vocabulary.xsdDouble,
        whole ((fraction cs).drop 1))
    else .ok (.typed (written cs (fraction cs))
      (if fractional (whole cs) then Vocabulary.xsdDecimal else Vocabulary.xsdInteger),
        fraction cs) := rfl

/-- A text with which no number goes on. -/
structure NumeralEnd (z : List Char) : Prop where
  sign : isSign (at' z 0) = false
  digit : (at' z 0).isDigit = false
  fractional : fractional z = false
  marked : marked z = false

lemma drop_one_append (h : w ≠ []) : (w ++ z).drop 1 = w.drop 1 ++ z := by
  cases w with
  | nil => exact absurd rfl h
  | cons c w => rfl

lemma written_append : written (w ++ z) (w₁ ++ z) = written w w₁ := by
  have hsub : (w ++ z).length - (w₁ ++ z).length = w.length - w₁.length := by
    simp only [List.length_append]
    omega
  rw [written, hsub, List.take_append_of_le_length (Nat.sub_le _ _), written]

namespace NumeralEnd

variable (hz : NumeralEnd z)

include hz

lemma unsigned_append : unsigned (w ++ z) = unsigned w ++ z := by
  cases w with
  | nil =>
    rw [List.nil_append, unsigned, if_neg (by simp [hz.sign])]
    rfl
  | cons c w => by_cases hc : isSign c = true <;> simp [unsigned, at'_zero, hc]

lemma digits_append : (w ++ z).dropWhile Char.isDigit = w.dropWhile Char.isDigit ++ z := by
  refine dropWhile_append_of_head fun c hc => ?_
  cases z with
  | nil => cases hc
  | cons d more =>
    cases hc
    exact hz.digit

lemma whole_append : whole (w ++ z) = whole w ++ z := by
  rw [whole, hz.unsigned_append, hz.digits_append, whole]

lemma fractional_append : Turtle.fractional (w ++ z) = Turtle.fractional w := by
  match w with
  | [] => exact hz.fractional
  | [c] =>
    have hone : (at' ([c] ++ z) 1).isDigit = false := hz.digit
    have hnil : (at' [c] 1).isDigit = false := rfl
    rw [Turtle.fractional, Turtle.fractional, hone, hnil, Bool.and_false, Bool.and_false]
  | c :: d :: w => rfl

lemma fraction_append : fraction (w ++ z) = fraction w ++ z := by
  rw [fraction, fraction, hz.whole_append, hz.fractional_append]
  split
  · rename_i h
    have hne : whole w ≠ [] := by
      intro hnil
      rw [hnil] at h
      cases h
    rw [drop_one_append hne, hz.digits_append]
  · rfl

lemma marked_append : Turtle.marked (w ++ z) = Turtle.marked w := by
  cases w with
  | nil => exact hz.marked
  | cons c w => rfl

/-- A number is the same in front of such a text and at the end of all. -/
lemma numeral_append {t : Term} :
    numeral (w ++ z) = .ok (t, w₂ ++ z) ↔ numeral w = .ok (t, w₂) := by
  have hlength (a b : List Char) :
      ((a ++ z).length == (b ++ z).length) = (a.length == b.length) := by
    rw [List.length_append, List.length_append, Bool.eq_iff_iff, beq_iff_eq, beq_iff_eq]
    omega
  have hok (datatype : String) (rest : List Char) :
      (Except.ok (.typed (written (w ++ z) (rest ++ z)) datatype, rest ++ z) :
          Except (Fault × List Char) (Term × List Char)) = .ok (t, w₂ ++ z) ↔
        (Except.ok (.typed (written w rest) datatype, rest) :
          Except (Fault × List Char) (Term × List Char)) = .ok (t, w₂) := by
    rw [written_append]
    simp
  rw [numeral_eq, numeral_eq, hz.fraction_append, hz.whole_append, hz.unsigned_append,
    hz.fractional_append, hz.marked_append, hlength]
  by_cases hmalformed : (!Turtle.fractional (whole w) &&
      (whole w).length == (unsigned w).length) = true
  · simp [hmalformed]
  · rw [if_neg hmalformed, if_neg hmalformed]
    by_cases hmarked : Turtle.marked (fraction w) = true
    · have hne : fraction w ≠ [] := by
        intro hnil
        rw [hnil] at hmarked
        cases hmarked
      rw [if_pos hmarked, if_pos hmarked, drop_one_append hne, hz.whole_append,
        hz.unsigned_append, hlength]
      split_ifs
      · simp
      · exact hok _ _
    · rw [if_neg hmarked, if_neg hmarked]
      exact hok _ _

end NumeralEnd

lemma numeralEnd_of_gapped (hu : Gapped u) : NumeralEnd u := by
  obtain ⟨c, hc, more, rfl⟩ := hu
  have hpoint : (c == '.') = false := not_of_mem_gaps (p := (· == '.')) (by decide) hc
  have hmark : (c == 'e' || c == 'E') = false :=
    not_of_mem_gaps (p := fun c => c == 'e' || c == 'E') (by decide) hc
  exact ⟨not_of_mem_gaps (p := isSign) (by decide) hc,
    not_of_mem_gaps (p := Char.isDigit) (by decide) hc,
    by simp [fractional, at'_zero, hpoint], hmark⟩

lemma Closing.numeralEnd (hu : Gapped u) (hv : Closing u v) : NumeralEnd v := by
  cases hv with
  | same => exact numeralEnd_of_gapped hu
  | @point more h =>
    refine ⟨rfl, rfl, ?_, rfl⟩
    have hdigit : (at' ('.' :: more) 1).isDigit = false := by
      cases more with
      | nil => rfl
      | cons c more =>
        exact (numeralEnd_of_gapped ⟨c, mem_gaps_iff.2 (.inl (h c rfl)), more, rfl⟩).digit
    rw [fractional, hdigit, Bool.and_false]

lemma numeral_closing {t : Term} (hu : Gapped u) (hv : Closing u v)
    (h : numeral (w ++ u) = .ok (t, w₂ ++ u)) : numeral (w ++ v) = .ok (t, w₂ ++ v) :=
  (hv.numeralEnd hu).numeral_append.2 ((numeralEnd_of_gapped hu).numeral_append.1 h)

/-! ### Truth values -/

/-- The word of a truth value. -/
def truthWord (b : Bool) : List Char := (if b then "true" else "false").toList

lemma truth?_eq_some_iff {t : Term} : truth? cs = some (t, rest) ↔
    (∃ b, t = .boolean b ∧ cs = truthWord b ++ rest) ∧
      isNameChar (at' rest 0) = false ∧ at' rest 0 ≠ ':' := by
  have hends (rest : List Char) : (!isNameChar (at' rest 0) && at' rest 0 != ':') = true ↔
      isNameChar (at' rest 0) = false ∧ at' rest 0 ≠ ':' := by simp
  constructor
  · intro h
    unfold truth? at h
    dsimp only at h
    split at h
    · rename_i more hmore
      split at h <;> cases h
      rename_i hend
      exact ⟨⟨true, rfl, afterPrefix?_eq_some_iff.1 hmore⟩, (hends _).1 hend⟩
    · split at h
      · rename_i more hmore
        split at h <;> cases h
        rename_i hend
        exact ⟨⟨false, rfl, afterPrefix?_eq_some_iff.1 hmore⟩, (hends _).1 hend⟩
      · cases h
  · rintro ⟨⟨b, rfl, rfl⟩, hend⟩
    cases b with
    | true => simp [truthWord, truth?, afterPrefix?, hend]
    | false => simp [truthWord, truth?, afterPrefix?, hend]

/-- A truth value is read in front of a point only if something stands between them. -/
lemma truth?_closing {t : Term} (hw : w₂ ≠ []) (h : truth? (w ++ u) = some (t, w₂ ++ u)) :
    truth? (w ++ v) = some (t, w₂ ++ v) := by
  obtain ⟨⟨b, rfl, hword⟩, hend⟩ := truth?_eq_some_iff.1 h
  rw [← List.append_assoc] at hword
  refine truth?_eq_some_iff.2 ⟨⟨b, rfl, ?_⟩, ?_⟩
  · rw [List.append_cancel_right hword, List.append_assoc]
  · cases w₂ with
    | nil => exact absurd rfl hw
    | cons c w₂ => exact hend

lemma truth?_point {more : List Char} {t : Term}
    (h : truth? (w ++ '.' :: more) = some (t, rest)) : ∃ w₁, truth? (w ++ u) = some (t, w₁) := by
  obtain ⟨⟨b, rfl, hword⟩, hend⟩ := truth?_eq_some_iff.1 h
  have hpoint : isNameChar '.' = true := by decide
  rcases List.append_eq_append_iff.1 hword with ⟨a, hw, ha⟩ | ⟨c, rfl, rfl⟩
  · -- the point is no letter of the word, and goes on with it
    cases a with
    | nil =>
      obtain rfl : '.' :: more = rest := ha
      cases hpoint.symm.trans hend.1
    | cons d a =>
      obtain ⟨rfl, -⟩ := List.cons.inj ha
      have hword' : ∀ b, '.' ∉ truthWord b := by decide
      exact absurd (by simp [hw]) (hword' b)
  · cases c with
    | nil => cases hpoint.symm.trans hend.1
    | cons d c => exact ⟨_, truth?_eq_some_iff.2 ⟨⟨b, rfl, List.append_assoc ..⟩, hend⟩⟩

lemma truth?_eq_none_closing (hv : Closing u v) (h : truth? (w ++ u) = none) :
    truth? (w ++ v) = none := by
  cases hv with
  | same => exact h
  | point =>
    refine Option.eq_none_iff_forall_ne_some.2 fun s hs => ?_
    obtain ⟨w₁, hw₁⟩ := truth?_point (u := u) hs
    cases h.symm.trans hw₁

/-! ### Quoted texts -/

lemma quotes_closing (hu : Gapped u) (hv : Closing u v) (hmark : isQuote mark = true) :
    (at' (w ++ v) 0 == mark && at' (w ++ v) 1 == mark) =
      (at' (w ++ u) 0 == mark && at' (w ++ u) 1 == mark) := by
  have hgaps : mark ∉ gaps := fun hmem => by
    cases hmark.symm.trans (not_of_mem_gaps (p := isQuote) (by decide) hmem)
  have hpoint : mark ≠ '.' := by rintro rfl; cases hmark
  rw [Bool.eq_iff_iff]
  simpa using twice_closing hu hv hgaps hpoint

/-- Three quotes that close a long text. -/
def closesLong (mark : Char) (long : Bool) (c : Char) (cs : List Char) : Bool :=
  long && c == mark && at' cs 0 == mark && at' cs 1 == mark

lemma closesLong_closing (hu : Gapped u) (hv : Closing u v) (hmark : isQuote mark = true) :
    closesLong mark long c (w ++ v) = closesLong mark long c (w ++ u) := by
  rw [closesLong, closesLong, Bool.and_assoc (long && c == mark),
    Bool.and_assoc (long && c == mark), quotes_closing hu hv hmark]

lemma stringBody_long (h : closesLong mark long c cs = true) :
    stringBody mark long (c :: cs) = .ok ([], cs.drop 2) := by
  unfold stringBody
  exact if_pos h

lemma stringBody_short (hlong : ¬closesLong mark long c cs = true)
    (h : (!long && c == mark) = true) : stringBody mark long (c :: cs) = .ok ([], cs) := by
  unfold stringBody
  exact (if_neg hlong).trans (if_pos h)

lemma stringBody_escaped {e x : Char} (hlong : ¬closesLong mark long '\\' (e :: cs) = true)
    (hshort : ¬(!long && '\\' == mark) = true) (hx : unescape? e = some x) :
    stringBody mark long ('\\' :: e :: cs) =
      (stringBody mark long cs).map fun (s, rest) => (x :: s, rest) := by
  rw [stringBody.eq_def]
  refine (if_neg hlong).trans ((if_neg hshort).trans ((if_neg (by simp)).trans ?_))
  simp only [hx]

lemma stringBody_plain (hc : c ≠ '\\') (hlong : ¬closesLong mark long c cs = true)
    (hshort : ¬(!long && c == mark) = true) (hline : ¬(!long && c == '\n') = true) :
    stringBody mark long (c :: cs) =
      (stringBody mark long cs).map fun (s, rest) => (c :: s, rest) := by
  rw [stringBody.eq_def]
  refine (if_neg hlong).trans ((if_neg hshort).trans ((if_neg hline).trans ?_))
  split
  · exact absurd rfl hc
  · exact absurd rfl hc
  · rfl

/-- A quoted text that ends in front of a gap does not look at what is behind it. -/
lemma stringBody_closing (hu : Gapped u) (hv : Closing u v) (hmark : isQuote mark = true)
    (h : stringBody mark long (w ++ u) = .ok (s, w₂ ++ u)) :
    stringBody mark long (w ++ v) = .ok (s, w₂ ++ v) := by
  generalize hcs : w ++ u = cs at h
  fun_induction stringBody mark long cs generalizing s w with
  | case1 => cases h
  | case2 c cs hlong =>
    obtain ⟨rfl, hrest⟩ := Prod.mk.inj (Except.ok.inj h)
    obtain ⟨w, rfl, rfl⟩ := exists_cons_of_leaves hcs (hrest ▸ leaves_drop)
    have hpos : 0 < u.length := by
      obtain ⟨c, -, more, rfl⟩ := hu
      simp
    have htwo : 2 ≤ w.length := by
      have hlength := congrArg List.length hrest
      simp only [List.length_drop, List.length_append] at hlength
      omega
    rw [List.drop_append_of_le_length htwo] at hrest
    rw [List.cons_append, stringBody_long ((closesLong_closing hu hv hmark).trans hlong),
      List.drop_append_of_le_length htwo, List.append_cancel_right hrest]
  | case3 c cs hlong hshort =>
    obtain ⟨rfl, rfl⟩ := Prod.mk.inj (Except.ok.inj h)
    obtain rfl : w = c :: w₂ := List.append_cancel_right hcs
    have hlong' : ¬closesLong mark long c (w₂ ++ v) = true := by
      rw [closesLong_closing hu hv hmark]
      exact hlong
    exact stringBody_short hlong' hshort
  | case4 => cases h
  | case5 => cases h
  | case6 => cases h
  | case7 e cs x hx hshort hline hlong ih =>
    obtain ⟨⟨s', rest⟩, hbody, heq⟩ := map_eq_ok.1 h
    cases heq
    obtain ⟨w, rfl, hesc⟩ := exists_cons_of_leaves hcs (leaves_stringBody hbody).cons
    obtain ⟨w, rfl, rfl⟩ := exists_cons_of_leaves hesc.symm (leaves_stringBody hbody)
    have hlong' : ¬closesLong mark long '\\' (e :: (w ++ v)) = true := by
      rw [← List.cons_append, closesLong_closing hu hv hmark]
      exact hlong
    rw [List.cons_append, List.cons_append, stringBody_escaped hlong' hshort hx, ih rfl hbody]
    rfl
  | case8 c cs hnil hesc hshort hline hlong ih =>
    obtain ⟨⟨s', rest⟩, hbody, heq⟩ := map_eq_ok.1 h
    cases heq
    have hc : c ≠ '\\' := by
      rintro rfl
      cases cs with
      | nil => exact hnil rfl rfl
      | cons e cs => exact hesc e cs rfl rfl
    obtain ⟨w, rfl, rfl⟩ := exists_cons_of_leaves hcs (leaves_stringBody hbody)
    have hlong' : ¬closesLong mark long c (w ++ v) = true := by
      rw [closesLong_closing hu hv hmark]
      exact hlong
    rw [List.cons_append, stringBody_plain hc hlong' hshort hline, ih rfl hbody]
    rfl

lemma quoted_closing (hu : Gapped u) (hv : Closing u v) (hmark : isQuote (at' w 0) = true)
    (h : quoted (w ++ u) = .ok (a, w₂ ++ u)) : quoted (w ++ v) = .ok (a, w₂ ++ v) := by
  cases w with
  | nil => cases hmark
  | cons c w =>
    have hquoted (z : List Char) : quoted (c :: w ++ z) =
        (stringBody c (at' (w ++ z) 0 == c && at' (w ++ z) 1 == c) ((c :: (w ++ z)).drop
          (if (at' (w ++ z) 0 == c && at' (w ++ z) 1 == c) = true then 3 else 1))).map
            fun (s, rest) => (String.ofList s, rest) := rfl
    rw [hquoted] at h ⊢
    rw [quotes_closing hu hv (show isQuote c = true from hmark)]
    obtain ⟨⟨s, rest⟩, hbody, heq⟩ := map_eq_ok.1 h
    cases heq
    cases hlong : at' (w ++ u) 0 == c && at' (w ++ u) 1 == c with
    | false =>
      rw [hlong] at hbody
      exact map_eq_ok.2 ⟨_, stringBody_closing hu hv hmark hbody, rfl⟩
    | true =>
      rw [hlong] at hbody
      have hlength := (leaves_stringBody hbody).length
      match w with
      | [] | [_] =>
        simp only [if_true, List.length_drop, List.length_cons, List.length_append,
          List.length_nil] at hlength
        omega
      | d :: e :: w => exact map_eq_ok.2 ⟨_, stringBody_closing hu hv hmark hbody, rfl⟩

/-- The characters of a language tag end in front of a gap and of a point. -/
lemma tag_closing (hu : Gapped u) (hv : Closing u v) (htag : gaps.any p = false)
    (hpoint : p '.' = false) :
    (w ++ v).takeWhile p = (w ++ u).takeWhile p ∧
      ∃ w₁, (w ++ u).dropWhile p = w₁ ++ u ∧ (w ++ v).dropWhile p = w₁ ++ v := by
  have hfirst := hu.head htag
  have hsecond : ∀ c ∈ v.head?, p c = false := by
    cases hv with
    | same => exact hfirst
    | point =>
      rintro _ ⟨⟩
      exact hpoint
  refine ⟨?_, w.dropWhile p, dropWhile_append_of_head hfirst, dropWhile_append_of_head hsecond⟩
  rw [takeWhile_append_of_head hfirst, takeWhile_append_of_head hsecond]

end Semlift.Rdf.Turtle
