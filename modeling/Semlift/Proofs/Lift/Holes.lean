import Mathlib.Data.List.Infix
import Semlift.Lift.Template
import Semlift.Proofs.Rdf.Turtle.Places

/-!
Placeholders in the text that a template is read from. A placeholder is filled in before the text is
read, wherever it stands, with a name that only the filled text has. Where a term can stand it is
read as that name. In a quoted text or inside a reference it becomes a part of what is read, and the
mark of fields stands in the middle of it.
-/

namespace Semlift.Lift

open Semlift.Rdf Semlift.Rdf.Turtle Semlift.Text
open Semlift.Program (Piece fillPlaceholders isPlaceholderChar piecesFrom)

/-- Begins the names that templates have of their own. -/
def scheme : String := "urn:smol:"

def Spells (s : String) : Prop := scheme.toList <:+: s.toList

/-- A text with a name in it that stands for the instance or for a field. -/
def Marked (s : String) : Prop := fieldMark.toList <:+: s.toList ∨ selfIri.toList <:+: s.toList

/-- No declared namespace spells the scheme together with a local name that does not. -/
def Apart (ps : Prefixes) : Prop :=
  ∀ name ns, ps.find? name = some ns → ∀ loc, ¬Spells loc → ¬Spells (ns ++ loc)

/-- A term of a template whose marks make up its whole name, if it has any. -/
def WholeTerm : Term → Prop
  | .iri name => name = selfIri ∨ fieldMark.toList <+: name.toList ∨ ¬Marked name
  | .blank _ => True
  | .literal lexical datatype _ => ¬Marked lexical ∧ ¬Marked datatype

instance : DecidablePred Spells := fun _ => inferInstanceAs (Decidable (_ <:+: _))

instance : DecidablePred Marked := fun _ => inferInstanceAs (Decidable (_ ∨ _))

/-- What a placeholder is filled with before a template is read. -/
def filling (name : String) : String := "<" ++ fieldMark ++ name ++ ">"

/-- The text that a template is read from. -/
@[irreducible] def Template.filled (text : String) : String := fillPlaceholders filling text

/-- The beginning of what a placeholder is filled with. -/
def hole : List Char := '<' :: fieldMark.toList

/-- A place where a placeholder is read as a name of its own, or not at all. -/
def Harmless : Place → Prop
  | .term datatype => datatype = false
  | .comment _ => True
  | .reference | .quoted .. => False

/-- A placeholder that begins here is at a harmless place. -/
def Clear (pl : Place) (cs : List Char) : Prop := hole <+: cs → Harmless pl

instance : DecidablePred Harmless
  | .term _ => inferInstanceAs (Decidable (_ = _))
  | .comment _ => .isTrue trivial
  | .reference | .quoted .. => .isFalse id

instance (pl : Place) (cs : List Char) : Decidable (Clear pl cs) :=
  inferInstanceAs (Decidable (_ → _))

/-- The name of a field, to the bracket that closes it. -/
def FieldName (cs : List Char) : Prop :=
  ∃ name more, cs = (fieldMark.toList ++ name) ++ '>' :: more ∧
    ∀ c ∈ name, isPlaceholderChar c = true

/-- Whatever spells a name of the scheme is the name of a field right behind a bracket. The first
character may stand behind a bracket too. -/
def FilledIn : (behind : Bool) → List Char → Prop
  | _, [] => True
  | behind, c :: cs =>
    (scheme.toList <+: c :: cs → behind = true ∧ FieldName (c :: cs)) ∧ FilledIn (c == '<') cs

variable {behind : Bool} {c : Char} {cs rest s u w : List Char} {pl : Place} {name text : String}

lemma calm_clear : Calm Clear where
  comment _ _ _ := trivial
  other _ c _ hc _ h := by
    obtain ⟨more, hmore⟩ := h
    exact absurd (List.cons.inj hmore).1.symm hc

lemma spells_of_marked (h : Marked text) : Spells text := by
  rcases h with h | h
  · exact (List.IsPrefix.isInfix (by decide : scheme.toList <+: fieldMark.toList)).trans h
  · exact (List.IsPrefix.isInfix (by decide : scheme.toList <+: selfIri.toList)).trans h

/-! ### Filled texts -/

lemma colon_notMem_of_isPlaceholderChar {name : List Char}
    (h : ∀ c ∈ name, isPlaceholderChar c = true) : ':' ∉ name :=
  fun hc => absurd (h _ hc) (by decide)

lemma bracket_notMem_of_isPlaceholderChar {name : List Char}
    (h : ∀ c ∈ name, isPlaceholderChar c = true) : '<' ∉ name :=
  fun hc => absurd (h _ hc) (by decide)

lemma fill_placeholder :
    (Piece.placeholder name).fill filling =
      '<' :: ((fieldMark.toList ++ name.toList) ++ ['>']) := by
  simp [Piece.fill, filling]

/-- A beginning of a filled text without a bracket is a beginning of the text. -/
lemma prefix_of_prefix_filled (hu : '<' ∉ u)
    (h : u <+: (piecesFrom 0 cs).flatMap (Piece.fill filling)) : u <+: cs := by
  induction u generalizing cs with
  | nil => simp
  | cons d u ih =>
    simp only [List.mem_cons, not_or] at hu
    cases cs with
    | nil => simp [piecesFrom] at h
    | cons c cs =>
      rw [piecesFrom] at h
      split at h
      · rw [List.flatMap_cons, fill_placeholder, List.cons_append, List.cons_prefix_cons] at h
        exact absurd h.1.symm hu.1
      · rw [List.flatMap_cons, Piece.fill, List.singleton_append, List.cons_prefix_cons] at h
        rw [List.cons_prefix_cons]
        exact ⟨h.1, ih hu.2 h.2⟩

lemma prefix_of_notMem {v w : List Char} (h : u <+: v ++ c :: w) (hc : c ∉ u) : u <+: v := by
  rcases List.prefix_or_prefix_of_prefix h (List.prefix_append v (c :: w)) with huv | ⟨t, rfl⟩
  · exact huv
  · rw [List.prefix_append_right_inj] at h
    cases t with
    | nil => simp
    | cons d t =>
      rw [List.cons_prefix_cons] at h
      rw [h.1] at hc
      simp at hc

lemma not_prefix_name {name more : List Char} (h : ∀ c ∈ name, isPlaceholderChar c = true) :
    ¬scheme.toList <+: name ++ '>' :: more := by
  intro hpre
  have hname := prefix_of_notMem hpre (by decide)
  exact colon_notMem_of_isPlaceholderChar h (hname.subset (by decide : ':' ∈ scheme.toList))

lemma filledIn_name {name more : List Char} (h : ∀ c ∈ name, isPlaceholderChar c = true)
    (hmore : FilledIn false more) : FilledIn false (name ++ '>' :: more) := by
  induction name with
  | nil => exact ⟨fun hpre => absurd hpre (not_prefix_name (List.forall_mem_nil _)), hmore⟩
  | cons c name ih =>
    have hc : (c == '<') = false :=
      beq_false_of_ne fun hc => bracket_notMem_of_isPlaceholderChar h (by simp [hc])
    refine ⟨fun hpre => absurd hpre (not_prefix_name h), ?_⟩
    rw [hc]
    exact ih fun d hd => h d (by simp [hd])

lemma filledIn_placeholder {more : List Char} (h : ∀ c ∈ name.toList, isPlaceholderChar c = true)
    (hmore : FilledIn false more) :
    FilledIn behind ((Piece.placeholder name).fill filling ++ more) := by
  have hname := filledIn_name h hmore
  have hfield : FieldName ((fieldMark.toList ++ name.toList) ++ '>' :: more) :=
    ⟨name.toList, more, rfl, h⟩
  have hscheme : scheme.toList = ['u', 'r', 'n', ':', 's', 'm', 'o', 'l', ':'] := rfl
  have hmark : fieldMark.toList =
    ['u', 'r', 'n', ':', 's', 'm', 'o', 'l', ':', 'f', 'i', 'e', 'l', 'd', ':'] := rfl
  rw [fill_placeholder]
  rw [hmark] at hfield ⊢
  simp only [List.cons_append, List.append_assoc, List.nil_append] at hfield ⊢
  simpa [FilledIn, hscheme, hfield] using hname

/-- **A text that does not spell the scheme** spells it in its placeholders only when it is filled
in. -/
lemma filledIn_pieces {n : Nat} (h : ¬scheme.toList <:+: cs) :
    FilledIn behind ((piecesFrom n cs).flatMap (Piece.fill filling)) := by
  induction cs generalizing n behind with
  | nil => cases n <;> trivial
  | cons c cs ih =>
    have hcs : ¬scheme.toList <:+: cs := fun hcs => h (hcs.trans (List.suffix_cons c cs).isInfix)
    cases n with
    | succ n => exact ih hcs
    | zero =>
      by_cases hname : (decide (c = '%') && !(cs.takeWhile isPlaceholderChar).isEmpty) = true
      · rw [piecesFrom, if_pos hname, List.flatMap_cons]
        refine filledIn_placeholder (fun d hd => ?_) (ih hcs)
        rw [String.toList_ofList] at hd
        exact List.all_eq_true.mp List.all_takeWhile d hd
      · have hpieces : (piecesFrom 0 (c :: cs)).flatMap (Piece.fill filling) =
            c :: (piecesFrom 0 cs).flatMap (Piece.fill filling) := by
          rw [piecesFrom, if_neg hname, List.flatMap_cons, Piece.fill, List.singleton_append]
        rw [hpieces]
        refine ⟨fun hpre => absurd ?_ h, ih hcs⟩
        exact (prefix_of_prefix_filled (by decide) (hpieces ▸ hpre)).isInfix

lemma filledIn_filled (h : ¬Spells text) : FilledIn false (Template.filled text).toList := by
  rw [Template.filled, fillPlaceholders, String.toList_ofList]
  exact filledIn_pieces h

/-! ### What is left of a filled text -/

lemma FilledIn.append (h : FilledIn behind (w ++ cs)) (hw : '<' ∉ w)
    (hne : w = [] → behind = false) : FilledIn false cs := by
  induction w generalizing behind with
  | nil => exact hne rfl ▸ h
  | cons c w ih =>
    simp only [List.mem_cons, not_or] at hw
    have hc : (c == '<') = false := beq_false_of_ne (Ne.symm hw.1)
    exact ih h.2 hw.2 fun _ => hc

/-- A comment may end with a bracket, but then nothing follows it. -/
lemma FilledIn.skipFrom {isGap : Char → Bool} {comment : Bool} (hgap : isGap '<' = false)
    (h : FilledIn behind cs) (hb : comment = false → behind = false) :
    FilledIn false (Turtle.skipFrom isGap comment cs) := by
  induction cs generalizing behind comment with
  | nil => cases comment <;> trivial
  | cons c cs ih =>
    cases comment with
    | true =>
      refine ih h.2 fun hc => ?_
      have hc : c = '\n' := by simpa using hc
      rw [hc]
      rfl
    | false =>
      rw [Turtle.skipFrom]
      split_ifs with hhash hg
      · exact ih h.2 fun hc => by cases hc
      · refine ih h.2 fun _ => beq_false_of_ne ?_
        rintro rfl
        rw [hgap] at hg
        cases hg
      · exact hb rfl ▸ h

lemma filledIn_body (h : Body pl cs s rest) (hcs : FilledIn behind cs) : FilledIn false rest := by
  induction h generalizing behind with
  | @close c w rest _ hc =>
    rw [← List.cons_append] at hcs
    exact hcs.append (fun hb => absurd (hc _ hb) (by decide)) nofun
  | plain _ _ ih => exact ih hcs.2
  | escape _ _ _ ih => exact ih hcs.2.2

/-! ### Marks in what is read -/

lemma verbatim_hole : ∀ c ∈ hole, Verbatim c := List.all_iff_forall_prop.mp (by decide)

lemma verbatim_scheme : ∀ c ∈ scheme.toList, Verbatim c := List.all_iff_forall_prop.mp (by decide)

lemma ne_bracket_of_isCloser (h : isCloser c = true) : c ≠ '<' ∧ c ≠ '\\' :=
  ⟨(by rintro rfl; cases h), (by rintro rfl; cases h)⟩

/-- **A placeholder inside a reference or a quoted text** stands in what is read from it, and no
other one does. -/
lemma along_clear_body (hpl : ¬Harmless pl) (h : Body pl cs s rest) :
    Along Clear 0 pl cs ↔ ¬hole <:+: s ∧ Along Clear 0 (.term false) rest := by
  have hclear : ∀ cs, Clear pl cs ↔ ¬hole <+: cs := fun cs => imp_iff_not hpl
  induction h with
  | @close c w rest hnext hc =>
    have hc' := ne_bracket_of_isCloser (hc c (by simp))
    rw [Along, hnext, along_pass, List.drop_left]
    have hnil : ¬hole <:+: ([] : List Char) := by decide
    simp [calm_clear.other pl c _ hc'.1 hc'.2, hnil]
  | @plain c cs s rest hnext hbody ih =>
    have hpre := (Body.plain hnext hbody).prefix_iff verbatim_hole
    have ih' : Along Clear 0 pl cs ↔ ¬hole <:+: s ∧ Along Clear 0 (.term false) rest := ih
    rw [Along, hnext, ih', hclear, List.infix_cons_iff, hpre, not_or, and_assoc]
  | @escape e x cs s rest hnext hx hbody ih =>
    have hpre := (Body.escape hnext hx hbody).prefix_iff verbatim_hole
    have hno : ¬hole <+: '\\' :: e :: cs := by simp [hole, List.cons_prefix_cons]
    have ih' : Along Clear 0 pl cs ↔ ¬hole <:+: s ∧ Along Clear 0 (.term false) rest := ih
    rw [Along, hnext, along_pass, List.drop_one, List.tail_cons, ih', hclear, List.infix_cons_iff,
      hpre]
    simp [hno]

/-- What spells the scheme in what is read does so in a placeholder; its bracket may be the
character before. -/
lemma hole_of_scheme {b : Char} (h : Body pl cs s rest) (hcs : FilledIn (b == '<') cs)
    (hs : scheme.toList <:+: s) : hole <:+: b :: s := by
  induction h generalizing b with
  | close => exact absurd hs (by decide)
  | @plain c cs s rest hnext hbody ih =>
    have hbody' := Body.plain hnext hbody
    rcases List.infix_cons_iff.mp hs with hpre | hin
    · obtain ⟨hb, name, more, hfield, -⟩ := hcs.1 ((hbody'.prefix_iff verbatim_scheme).mp hpre)
      have hmark : fieldMark.toList <+: c :: cs := by
        rw [hfield, List.append_assoc]
        exact List.prefix_append _ _
      have hmark' := (hbody'.prefix_iff fun d hd => verbatim_hole d (.tail _ hd)).mpr hmark
      exact (List.cons_prefix_cons.mpr ⟨(beq_iff_eq.mp hb).symm, hmark'⟩).isInfix
    · exact List.infix_cons (ih hcs.2 hin)
  | @escape e x cs s rest hnext hx hbody ih =>
    rcases List.infix_cons_iff.mp hs with hpre | hin
    · have hpre := ((Body.escape hnext hx hbody).prefix_iff verbatim_scheme).mp hpre
      exact absurd (List.cons_prefix_cons.mp hpre).1 (by decide)
    · have he : e ≠ '<' := by rintro rfl; cases hx
      rcases List.infix_cons_iff.mp (ih hcs.2.2 hin) with hpre | hin
      · exact absurd (List.cons_prefix_cons.mp hpre).1.symm he
      · exact List.infix_cons (List.infix_cons hin)

lemma marked_of_hole (h : hole <:+: s) : Marked (String.ofList s) := by
  refine .inl ?_
  rw [String.toList_ofList]
  exact (List.suffix_cons '<' fieldMark.toList).isInfix.trans h

lemma marked_quoted_iff (h : Body pl cs s rest) (hcs : FilledIn false cs) :
    Marked (String.ofList s) ↔ hole <:+: s := by
  refine ⟨fun hs => ?_, marked_of_hole⟩
  have hspells := spells_of_marked hs
  rw [Spells, String.toList_ofList] at hspells
  have hin := hole_of_scheme (b := ' ') h hcs hspells
  rcases List.infix_cons_iff.mp hin with hpre | hin
  · exact absurd (List.cons_prefix_cons.mp hpre).1 (by decide)
  · exact hin

/-- What a term must be where it is read: a datatype is not filled in. -/
def Fits (datatype : Bool) (t : Term) : Prop :=
  if datatype then ¬Marked t.content else WholeTerm t

variable {datatype : Bool}

lemma fits_of_not_marked (h : ¬Marked name) : Fits datatype (.iri name) := by
  cases datatype with
  | true => exact h
  | false => exact .inr (.inr h)

/-- Behind a bracket the scheme begins the name of a field. -/
lemma FilledIn.fieldName (hcs : FilledIn true cs) (h : scheme.toList <+: cs) : FieldName cs := by
  cases cs with
  | nil => exact absurd h (by decide)
  | cons c cs => exact (hcs.1 h).2

lemma FieldName.begins (h : FieldName cs) : fieldMark.toList <+: cs := by
  obtain ⟨name, more, rfl, -⟩ := h
  rw [List.append_assoc]
  exact List.prefix_append _ _

section Reference

variable (h : Body .reference cs s rest)

include h

/-- A reference begins with the mark of fields exactly if it is written so. -/
lemma fieldMark_iff : fieldMark.toList <+: s ↔ fieldMark.toList <+: cs :=
  h.prefix_iff fun c hc => verbatim_hole c (.tail _ hc)

/-- The name of a field ends with the bracket that closes the reference. -/
lemma not_hole_of_fieldMark (hcs : FilledIn true cs) (hmark : fieldMark.toList <+: cs) :
    ¬hole <:+: s := by
  obtain ⟨name, more, hname, hchars⟩ :=
    hcs.fieldName ((by decide : scheme.toList <+: fieldMark.toList).trans hmark)
  have hsub : s <+: fieldMark.toList ++ name := by
    obtain ⟨heq, hclose⟩ := h.reference_eq
    refine prefix_of_notMem (w := more) ?_ hclose
    rw [← hname, heq]
    exact List.prefix_append _ _
  intro hin
  have hmem := hsub.subset (hin.subset (.head _))
  rcases List.mem_append.mp hmem with hm | hm
  · exact absurd hm (by decide)
  · exact bracket_notMem_of_isPlaceholderChar hchars hm

lemma marked_reference_iff (hcs : FilledIn true cs) (hmark : ¬fieldMark.toList <+: cs) :
    Marked (String.ofList s) ↔ hole <:+: s := by
  refine ⟨fun hs => ?_, marked_of_hole⟩
  have hs := spells_of_marked hs
  rw [Spells, String.toList_ofList] at hs
  rcases List.infix_cons_iff.mp (hole_of_scheme (b := '<') h hcs hs) with hpre | hin
  · exact absurd ((fieldMark_iff h).mp (List.cons_prefix_cons.mp hpre).2) hmark
  · exact hin

/-- The name of the instance is written with the scheme, which a field would have to follow. -/
lemma fits_iff_not_marked (hcs : FilledIn true cs) (hmark : ¬fieldMark.toList <+: cs) :
    Fits datatype (.iri (String.ofList s)) ↔ ¬Marked (String.ofList s) := by
  refine ⟨fun hf => ?_, fits_of_not_marked⟩
  cases datatype with
  | true => exact hf
  | false =>
    rcases hf with hself | hfield | hwhole
    · have hpre : scheme.toList <+: (String.ofList s).toList := hself ▸ by decide
      rw [String.toList_ofList, h.prefix_iff verbatim_scheme] at hpre
      exact absurd (hcs.fieldName hpre).begins hmark
    · rw [String.toList_ofList, fieldMark_iff h] at hfield
      exact absurd hfield hmark
    · exact hwhole

/-- **A reference** is the name of a field, which is filled in unless it is a datatype, or it has a
mark exactly if a placeholder stands inside of it. -/
lemma fits_reference_iff (hcs : FilledIn true cs) :
    Fits datatype (.iri (String.ofList s)) ↔
      (fieldMark.toList <+: cs → datatype = false) ∧ ¬hole <:+: s := by
  by_cases hmark : fieldMark.toList <+: cs
  · have hs : fieldMark.toList <+: s := (fieldMark_iff h).mpr hmark
    have hhole := not_hole_of_fieldMark h hcs hmark
    cases datatype with
    | true =>
      have hmarked : Marked (String.ofList s) := .inl (by simpa using hs.isInfix)
      simp [Fits, Term.content, hmarked, hmark]
    | false =>
      have hwhole : WholeTerm (.iri (String.ofList s)) := .inr (.inl (by simpa using hs))
      simp [Fits, hwhole, hhole]
  · rw [fits_iff_not_marked h hcs hmark, marked_reference_iff h hcs hmark]
    simp [hmark]

end Reference

lemma not_spells_of_bracket_notMem (hcs : FilledIn false (w ++ rest)) (hw : '<' ∉ w) :
    ¬scheme.toList <:+: w := by
  induction w with
  | nil => decide
  | cons c w ih =>
    simp only [List.mem_cons, not_or] at hw
    have hc : (c == '<') = false := beq_false_of_ne (Ne.symm hw.1)
    intro h
    rcases List.infix_cons_iff.mp h with hpre | hin
    · have hpre' : scheme.toList <+: c :: (w ++ rest) := hpre.trans (List.prefix_append _ rest)
      exact absurd (hcs.1 hpre').1 (by decide)
    · have hrest := hcs.2
      rw [hc] at hrest
      exact ih hrest hw.2 hin

/-! ### From one text to what is left of it -/

/-- A text that is left of a filled one, at a place where a term can stand. -/
structure Ready (datatype : Bool) (cs : List Char) : Prop where
  filledIn : FilledIn false cs
  unescaped : Along Unescaped 0 (.term datatype) cs

/-- What is known so far and the places of the placeholders that are left come to the same as what
is known after some of the text was read and the places that are left then. -/
def Leads (P : Prop) (datatype : Bool) (cs : List Char) (Q : Prop) (datatype' : Bool)
    (rest : List Char) : Prop :=
  Ready datatype cs → Ready datatype' rest ∧
    (P ∧ Along Clear 0 (.term datatype) cs ↔ Q ∧ Along Clear 0 (.term datatype') rest)

variable {P Q R F : Prop} {datatype' datatype'' : Bool} {mid : List Char}

lemma leads_of_iff (h : P ↔ Q) : Leads P datatype cs Q datatype cs :=
  fun hready => ⟨hready, and_congr_left fun _ => h⟩

lemma Leads.trans (h : Leads P datatype cs Q datatype' mid)
    (h' : Leads Q datatype' mid R datatype'' rest) : Leads P datatype cs R datatype'' rest := by
  intro hready
  obtain ⟨hmid, hiff⟩ := h hready
  obtain ⟨hrest, hiff'⟩ := h' hmid
  exact ⟨hrest, hiff.trans hiff'⟩

lemma Leads.frame (h : Leads P datatype cs Q datatype' rest) :
    Leads (P ∧ F) datatype cs (Q ∧ F) datatype' rest := by
  intro hready
  obtain ⟨hrest, hiff⟩ := h hready
  exact ⟨hrest, by rw [and_right_comm, hiff, and_right_comm]⟩

lemma leads_append (h : ∀ c ∈ w, Inert c) (hne : w = [] → datatype = false) :
    Leads P datatype (w ++ rest) P false rest := by
  intro hready
  have hw : '<' ∉ w := fun hc => (h _ hc).ne_bracket rfl
  have hunescaped := (along_term_append calm_unescaped h hne).mp hready.unescaped
  exact ⟨⟨hready.filledIn.append hw fun _ => rfl, hunescaped⟩,
    and_congr_right fun _ => along_term_append calm_clear h hne⟩

lemma leads_cut {p : Char → Bool} (h : Cut p cs rest) (hp : ∀ c, p c = true → Inert c) :
    Leads P false cs P false rest := by
  obtain ⟨w, hw, rfl⟩ := h
  exact leads_append (fun c hc => hp c (hw c hc)) fun _ => rfl

lemma leads_drop_one (h : Inert (at' cs 0)) : Leads P false cs P false (cs.drop 1) := by
  cases cs with
  | nil => exact leads_of_iff .rfl
  | cons c cs => exact leads_append (w := [c]) (fun d hd => List.mem_singleton.mp hd ▸ h) nofun

/-- Where an inert character follows, no datatype is waited for any longer. -/
lemma leads_prefixName {bad : Char → Fault} {missing : Fault} {before : String}
    (h : prefixName bad missing cs = .ok (before, rest)) : Leads P datatype cs P false rest := by
  obtain ⟨⟨w, hw, rfl⟩, more, rfl⟩ := cut_of_prefixName h
  cases w with
  | nil =>
    have hcolon : Inert ':' := by decide
    intro hready
    refine ⟨⟨hready.filledIn, ?_⟩, and_congr_right fun _ => ?_⟩
    · exact (along_term_cons calm_unescaped hcolon).mpr
        ((along_term_cons calm_unescaped hcolon).mp hready.unescaped)
    · exact (along_term_cons calm_clear hcolon).trans (along_term_cons calm_clear hcolon).symm
  | cons c w => exact leads_append (fun d hd => inert_of_isNameChar (hw d hd)) nofun

lemma leads_skip : Leads P datatype cs P datatype (skip cs) := by
  intro hready
  exact ⟨⟨hready.filledIn.skipFrom (by decide) fun _ => rfl,
    (along_skip calm_unescaped).mp hready.unescaped⟩,
    and_congr_right fun _ => along_skip calm_clear⟩

lemma leads_skipSemicolons : Leads P false cs P false (skipSemicolons cs) := by
  have hgap : ∀ c, (isBlank c || c == ';') = true → isBlank c = true ∨ c = ';' ∧ false = false := by
    intro c hc
    simpa using hc
  intro hready
  exact ⟨⟨hready.filledIn.skipFrom (by decide) fun _ => rfl,
    (along_skipFrom (b := false) calm_unescaped hgap).mp hready.unescaped⟩,
    and_congr_right fun _ => along_skipFrom (b := false) calm_clear hgap⟩

/-- A datatype is expected after two caret signs. -/
lemma leads_carets : Leads P false ('^' :: '^' :: cs) P true cs := by
  intro hready
  have hclear : Along Clear 0 (.term false) ('^' :: '^' :: cs) ↔ Along Clear 0 (.term true) cs := by
    have hnext : ∀ datatype cs, (Place.term datatype).next '^' cs = (0, .term true) :=
      fun _ _ => rfl
    have hcaret : ∀ datatype cs, Clear (.term datatype) ('^' :: cs) :=
      fun _ _ => calm_clear.other _ _ _ (by decide) (by decide)
    simp only [Along, hnext, hcaret, true_and]
  exact ⟨⟨hready.filledIn.2.2, hready.unescaped.2.2⟩, and_congr_right fun _ => hclear⟩

lemma leads_reference {iri : String} (h : iriReference cs = .ok (iri, rest)) :
    Leads True datatype cs (Fits datatype (.iri iri)) false rest := by
  obtain ⟨more, rfl, hbody⟩ := body_of_iriReference h
  intro hready
  have hmore : FilledIn true more := hready.filledIn.2
  have hnext : (Place.term datatype).next '<' more = (0, .reference) := rfl
  have hunescaped := hready.unescaped
  rw [Along, hnext] at hunescaped
  refine ⟨⟨filledIn_body hbody hmore, hbody.along hunescaped.2⟩, ?_⟩
  have hfits : Fits datatype (.iri (String.ofList iri.toList)) ↔ _ := fits_reference_iff hbody hmore
  rw [String.ofList_toList] at hfits
  have hclear : Clear (.term datatype) ('<' :: more) ↔
      (fieldMark.toList <+: more → datatype = false) := by
    simp [Clear, hole, List.cons_prefix_cons, Harmless]
  rw [true_and, Along, hnext, hclear, along_clear_body id hbody, hfits, and_assoc]

lemma leads_quoted {mark : Char} {lexical : String} (hmark : isQuote mark = true)
    (h : quoted (mark :: cs) = .ok (lexical, rest)) :
    Leads True datatype (mark :: cs) (¬Marked lexical) false rest := by
  obtain ⟨w, long, more, rfl, hw, hnext, hbody⟩ := body_of_quoted hmark h
  intro hready
  have hclosers : ∀ c ∈ mark :: w, isCloser c = true := by
    simpa using ⟨isCloser_of_isQuote hmark, fun c hc => isCloser_of_isQuote (hw c hc)⟩
  have hmore : FilledIn false more := by
    have hfilled := hready.filledIn
    rw [← List.cons_append] at hfilled
    exact hfilled.append (fun hb => absurd (hclosers _ hb) (by decide)) nofun
  have halong : ∀ {ok}, Calm ok → (Along ok 0 (.term datatype) (mark :: (w ++ more)) ↔
      Along ok 0 (.quoted mark long) more) := by
    intro ok hok
    have hne := ne_bracket_of_isCloser (isCloser_of_isQuote hmark)
    rw [Along, hnext, along_pass, List.drop_left]
    exact and_iff_right (hok.other _ _ _ hne.1 hne.2)
  have hunescaped := (halong calm_unescaped).mp hready.unescaped
  refine ⟨⟨filledIn_body hbody hmore, hbody.along hunescaped⟩, ?_⟩
  have hmarked := marked_quoted_iff hbody hmore
  rw [String.ofList_toList] at hmarked
  rw [true_and, halong calm_clear, along_clear_body id hbody, hmarked]

/-- **A prefixed name** has no mark: what it adds to its namespace has no bracket. -/
lemma not_marked_prefixed {ps : Prefixes} {before ns : String} (hps : Apart ps)
    (hns : ps.find? before = some ns) (hcs : FilledIn false (w ++ rest))
    (hw : ∀ c ∈ w, isLocalChar c = true) : ¬Marked (ns ++ String.ofList w) := by
  have hbracket : '<' ∉ w := fun hc => absurd (hw _ hc) (by decide)
  refine fun hmarked => hps before ns hns (String.ofList w) ?_ (spells_of_marked hmarked)
  rw [Spells, String.toList_ofList]
  exact not_spells_of_bracket_notMem hcs hbracket

end Semlift.Lift
