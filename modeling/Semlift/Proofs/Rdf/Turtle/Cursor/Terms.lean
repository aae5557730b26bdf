import Semlift.Proofs.Rdf.Turtle.Cursor.Follows

/-!
Terms in a text. References, names, labels, quoted texts and numbers are read with a place in the
text as they are read from what is left. The place goes back over points at the end of a name or a
label; a backslash at the end of the text takes it behind the end, which is a fault.
-/

namespace Semlift.Rdf.Turtle.Scan

open Semlift.Text
open Cursor (Before)

variable {cs l u v w : List Char} {s s' : Cursor} {c : Char} {n : Nat} {α β : Type} {a : α}
  {g : α → Step β} {q : Progress} {fault : Fault}

/-! ### References -/

lemma follows_referenceChars (h : s.Before cs w) (hn : w.length < n) :
    Follows cs s (s.leaving v) (referenceChars n) (settled (iriBody w)) := by
  induction n generalizing s w with
  | zero => exact absurd hn (Nat.not_lt_zero _)
  | succ n ih =>
    rw [referenceChars]
    refine (runs_atEnd h).follows ?_
    cases w with
    | nil => exact follows_fault h (by simp)
    | cons c w =>
      refine (runs_look h).follows ?_
      rw [iriBody]
      split_ifs with hclose hblank
      · exact runs_move.follows (follows_settled h.next)
      · simpa [hblank] using follows_fault h (by simp)
      · exact follows_cons (ih h.next (Nat.lt_of_succ_lt_succ hn))

lemma follows_iriReference (h : s.Before cs w) :
    Follows cs s (s.leaving v) iriReference (settled (Turtle.iriReference w)) := by
  rw [iriReference]
  cases w with
  | nil => exact (runs_ahead h).follows (follows_fault h (by simp))
  | cons c w =>
    refine (runs_look h).follows ?_
    by_cases hc : c = '<'
    · subst hc
      refine runs_move.follows (runs_turns.follows (follows_map ?_))
      exact follows_referenceChars h.next (lt_turns h.next)
    · rw [if_pos (bne_iff_ne.2 hc), Turtle.iriReference]
      · exact follows_fault h (by simp)
      · exact fun _ hl => hc (List.cons.inj hl).1

lemma follows_reference (h : s.Before cs w) :
    Follows cs s (s.leaving w) reference Step.reference :=
  (follows_lex (follows_iriReference h)).bind fun _ _ _ h => follows_get (follows_pure h)

/-! ### Names -/

/-- The name in front of a colon is passed, or what cannot be in it is a fault. -/
def stopAt (bad : Char → Fault) : List Char → Scan Unit
  | [] => return
  | c :: _ => if c = ':' then return else fail (bad c)

variable {bad : Char → Fault} {missing : Fault}

lemma runAt_prefixChars (h : s.Before cs w) (hn : w.length < n) :
    (prefixChars bad n).runAt cs s = (stopAt bad (w.dropWhile isNameChar)).runAt cs
      (s.moved (w.takeWhile isNameChar).length) := by
  induction n generalizing s w with
  | zero => exact absurd hn (Nat.not_lt_zero _)
  | succ n ih =>
    rw [prefixChars, (runs_atEnd h).runAt_bind]
    cases w with
    | nil =>
      rw [List.takeWhile_nil, List.length_nil, h.moved_zero]
      rfl
    | cons c w =>
      have ih := ih h.next (Nat.lt_of_succ_lt_succ hn)
      rw [Cursor.moved_moved, Nat.add_comm] at ih
      rw [List.takeWhile_cons, List.dropWhile_cons]
      refine (runs_look h).runAt_bind.trans ?_
      split_ifs with hcolon hc hc
      · subst hcolon
        exact absurd hc (by decide)
      · rw [List.length_nil, h.moved_zero, stopAt, if_pos hcolon]
      · exact runs_move.runAt_bind.trans ih
      · rw [List.length_nil, h.moved_zero, stopAt, if_neg hcolon]

/-- A reader may find the end of the text behind a name, or go on from the colon. -/
lemma follows_prefixChars {y : Scan β} {g : String → Step β}
    (h : s.Before cs w) (hbad : ∀ c, bad c ≠ .tooDeep)
    (hend : ∀ s' name, s'.Before cs [] → Runs cs s' (piece s.pos s'.pos) name s' →
      Follows cs s' (s'.leaving []) y (throw missing))
    (hcolon : ∀ s' name v, s'.Before cs (':' :: v) → Runs cs s' (piece s.pos s'.pos) name s' →
      Follows cs s' (s'.leaving (':' :: v)) y (g (String.ofList name))) :
    Follows cs s (s.leaving w) (do prefixChars bad (← turns); y)
      (Step.lex (prefixName bad missing) >>= g) := by
  have h' : (s.moved (w.takeWhile isNameChar).length).Before cs (w.dropWhile isNameChar) :=
    before_passWhile h
  have hrun : (do prefixChars bad (← turns); y).runAt cs s =
      (do stopAt bad (w.dropWhile isNameChar); y).runAt cs
        (s.moved (w.takeWhile isNameChar).length) := by
    rw [runs_turns.runAt_bind, runAt_bind, runAt_prefixChars h (lt_turns h), ← runAt_bind]
  cases hv : w.dropWhile isNameChar with
  | nil =>
    rw [hv] at h' hrun
    refine (hend _ _ h' (runs_passedWhile h)).of_run hrun (run_lex_of_error ?_)
    simp only [Cursor.leaving, prefixName, hv]
  | cons c v =>
    rw [hv] at h' hrun
    by_cases hc : c = ':'
    · subst hc
      refine (hcolon _ _ _ h' (runs_passedWhile h)).of_run hrun (Step.gives_lex ?_).run_bind
      simp only [Cursor.leaving, prefixName, hv, if_true]
    · rw [stopAt, if_neg hc] at hrun
      refine (follows_fail h' (hbad c)).of_run hrun (run_lex_of_error ?_)
      simp only [Cursor.leaving, prefixName, hv, if_neg hc]

lemma follows_localChars (h : s.Before cs w) (hn : w.length < n) :
    Follows cs s (s.leaving v) (localChars n) (settled (.ok (Turtle.localChars w))) := by
  induction n generalizing s w with
  | zero => exact absurd hn (Nat.not_lt_zero _)
  | succ n ih =>
    rw [localChars]
    refine (runs_atEnd h).follows ?_
    cases w with
    | nil => exact follows_settled h
    | cons c w =>
      refine (runs_look h).follows (runs_place.follows (runs_read.follows ?_))
      have hlength := h.length
      have hw : w.length < n := Nat.lt_of_succ_lt_succ hn
      by_cases hc : c = '\\'
      · subst hc
        cases w with
        | nil =>
          -- a backslash at the end of the text is no escape
          rw [List.length_singleton] at hlength
          rw [hlength, if_neg (by simp)]
          exact follows_settled h
        | cons e w =>
          simp only [List.length_cons] at hlength hw
          rw [if_pos (by simp; omega)]
          refine (runs_charAt (c := e) (h.getElem? (n := 1))).follows ?_
          exact follows_cons (ih (h.moved_append (u := ['\\', e])) (by omega))
      · rw [if_neg (by simp [hc]), Turtle.localChars]
        · split_ifs
          · exact follows_cons (ih h.next hw)
          · exact follows_settled h
        · exact fun _ _ hl => absurd hl hc

lemma runs_givePoints (h : (u.takeWhile (· == '.')).length ≤ s.pos) :
    Runs cs s (givePoints u) (u.dropWhile (· == '.')).reverse
      { s with pos := s.pos - (u.takeWhile (· == '.')).length } := by
  fun_induction givePoints u generalizing s with
  | case1 more ih =>
    rw [List.takeWhile_cons_of_pos (by rfl), List.length_cons] at h ⊢
    rw [List.dropWhile_cons_of_pos (by rfl)]
    refine (runs_back (by omega)).bind ?_
    have ih := ih (s := { s with pos := s.pos - 1 }) (by show _ ≤ s.pos - 1; omega)
    rwa [show s.pos - 1 - (more.takeWhile (· == '.')).length =
      s.pos - ((more.takeWhile (· == '.')).length + 1) by omega] at ih
  | case2 u hu =>
    cases u with
    | nil => exact runs_pure
    | cons c more =>
      have hc : c ≠ '.' := fun hc => hu more (by rw [hc])
      rw [List.takeWhile_cons_of_neg (by simpa using hc),
        List.dropWhile_cons_of_neg (by simpa using hc)]
      exact runs_pure

lemma reverse_dropWhile_reverse : (u.reverse.dropWhile (· == '.')).reverse = unpointed u := by
  have h : u.reverse.drop (trailingPoints u) = u.reverse.dropWhile (· == '.') := by
    conv_lhs => rw [← List.takeWhile_append_dropWhile (p := (· == '.')) (l := u.reverse)]
    exact List.drop_left
  rw [← h, List.drop_reverse, List.reverse_reverse, unpointed]

lemma follows_localName (h : s.Before cs w) :
    Follows cs s (s.leaving v) localName (settled (.ok (Turtle.localName w))) := by
  have hread : Follows cs s (s.leaving v) localName (do
      Step.setRest (Turtle.localChars w).2
      settled (.ok (Turtle.localName w))) := by
    rw [localName_eq rfl]
    refine runs_turns.follows ((follows_localChars h (lt_turns h)).bind_piece fun s' h' => ?_)
    have hlength := h.length
    have hlength' := h'.length
    have hle := length_localChars w
    have hpoints := trailingPoints_le (w := (Turtle.localChars w).1)
    have hgive : Runs cs s' (givePoints (Turtle.localChars w).1.reverse)
        (unpointed (Turtle.localChars w).1)
        { s' with pos := s'.pos - trailingPoints (Turtle.localChars w).1 } := by
      rw [← reverse_dropWhile_reverse]
      exact runs_givePoints (by show trailingPoints (Turtle.localChars w).1 ≤ _; omega)
    have hrest : cs.drop (s'.pos - trailingPoints (Turtle.localChars w).1) =
        w.drop (w.length - (Turtle.localChars w).2.length -
          trailingPoints (Turtle.localChars w).1) := by
      rw [← h.drop, List.drop_drop, h.drop]
      congr 1
      omega
    exact hgive.follows (follows_settled (hrest ▸ h'.back (Nat.sub_le _ _)))
  exact hread.of_run rfl rfl

lemma follows_name (h : s.Before cs w) : Follows cs s (s.leaving w) name Step.name := by
  refine (follows_blanks h).bind fun _ s w h => ?_
  cases w with
  | nil => exact (runs_atEnd h).follows (follows_rest (follows_fail h (by simp)))
  | cons c w =>
    refine (runs_atEnd h).follows ((runs_look h).follows (follows_rest ?_))
    by_cases hc : c = '<'
    · subst hc
      exact (follows_reference h).bind fun _ _ _ h => follows_pure h
    rw [if_neg (by simpa using hc)]
    split
    · contradiction
    · rename_i hl
      exact absurd (List.cons.inj hl).1 hc
    refine runs_place.follows (follows_prefixChars h (by simp) ?_ ?_)
    · exact fun s _ h _ => (runs_atEnd h).follows (follows_fail h (by simp))
    · intro s' before v h hbefore
      refine (runs_atEnd h).follows (runs_place.follows (hbefore.follows ?_))
      refine (follows_drop h (by simp)).bind fun _ s w h => follows_rest ?_
      refine (follows_localName h).bind_piece fun s h => follows_get ?_
      dsimp only [Cursor.leaving]
      cases s.reader.prefixes.find? (String.ofList before) with
      | none => exact follows_fail h (by simp)
      | some ns => exact follows_pure h

/-- Points at the end of the text that was passed are left. -/
lemma runs_trimTurns {start : Nat} (hv : cs.drop start = v ++ u) (hs : s.pos = start + v.length)
    (hn : v.length < n) :
    Runs cs s (trimTurns start n) () { s with pos := start + (unpointed v).length } := by
  induction n generalizing s u v with
  | zero => exact absurd hn (Nat.not_lt_zero _)
  | succ n ih =>
    rcases List.eq_nil_or_concat' v with rfl | ⟨v, c, rfl⟩
    · obtain rfl : s.pos = start := hs
      refine runs_place.bind ?_
      rw [if_neg (Nat.lt_irrefl _)]
      exact runs_pure
    rw [List.append_assoc] at hv
    rw [List.length_append, List.length_singleton] at hs hn
    have hc : cs[s.pos - 1]? = some c := by
      rw [show s.pos - 1 = start + v.length by omega, ← List.getElem?_drop, hv]
      simp
    refine runs_place.bind ?_
    rw [if_pos (by omega)]
    refine (runs_charAt hc).bind ?_
    by_cases hpoint : c = '.'
    · rw [if_pos (by simpa using hpoint), hpoint, unpointed_point]
      exact (runs_back (by omega)).bind
        (ih hv (show s.pos - 1 = start + v.length by omega) (Nat.lt_of_succ_lt_succ hn))
    · have hlast : trailingPoints (v ++ [c]) = 0 := trailingPoints_eq_zero (by simpa using hpoint)
      have hpos : start + (unpointed (v ++ [c])).length = s.pos := by
        rw [unpointed, hlast, Nat.sub_zero, List.take_length, List.length_append,
          List.length_singleton, hs]
      rw [if_neg (by simpa using hpoint), hpos]
      exact runs_pure

lemma follows_blankLabel (h : s.Before cs w) :
    Follows cs s (s.leaving v) blankLabel (settled (Turtle.blankLabel w)) := by
  have hw : cs.drop s.pos = w.takeWhile isNameChar ++ w.dropWhile isNameChar := by
    rw [h.drop, List.takeWhile_append_dropWhile]
  have hrun : (w.takeWhile isNameChar).length < cs.length + 1 :=
    Nat.lt_of_le_of_lt (List.takeWhile_prefix _).length_le (lt_turns h)
  have hle : (unpointed (w.takeWhile isNameChar)).length ≤ (w.takeWhile isNameChar).length :=
    List.length_take_le' _ _
  refine runs_place.follows ((runs_passWhile tests_of_atEnd h).follows (runs_turns.follows ?_))
  refine (runs_trimTurns hw rfl hrun).follows (runs_place.follows ?_)
  have hstart : unpointed (w.takeWhile isNameChar) <+: w :=
    (List.take_prefix _ _).trans (List.takeWhile_prefix _)
  have hback := (before_passWhile h).back (Nat.add_le_add_left hle s.pos)
  show Follows cs _ _ _ (settled (
    let label := unpointed (w.takeWhile isNameChar)
    if label.isEmpty then .error (.emptyLabel, w.drop label.length)
    else .ok (String.ofList label, w.drop label.length)))
  generalize unpointed (w.takeWhile isNameChar) = label at hstart hback ⊢
  rw [← List.drop_drop, h.drop] at hback
  by_cases hlabel : label = []
  · rw [if_pos (by simp [hlabel]), if_pos (by simp [hlabel])]
    exact follows_fault hback (by simp)
  · have hwhole : s.Before cs (label ++ w.drop label.length) := by
      rwa [List.prefix_iff_eq_append.1 hstart]
    rw [if_neg (by simpa using hlabel), if_neg (by simpa using hlabel)]
    exact (runs_passed hwhole).follows (follows_settled hback)

lemma follows_labelled (h : s.Before cs w) (h₁ : at' w 1 = ':') :
    Follows cs s (s.leaving w) labelled Step.labelled := by
  refine (follows_drop h (lt_of_at' h₁ (by decide))).bind fun _ s w h => ?_
  exact (follows_lex (follows_blankLabel h)).bind fun _ _ _ h => follows_get (follows_pure h)

/-! ### Quoted texts -/

/-- A backslash at the end of the text takes the place behind it. -/
lemma follows_stringChars {mark : Char} {long : Bool} (h : s.Before cs w) (hn : w.length < n)
    (hmark : mark ≠ '\x00') :
    Follows cs s (s.leaving v) (stringChars mark long n) (settled (stringBody mark long w)) := by
  induction n generalizing s w with
  | zero => exact absurd hn (Nat.not_lt_zero _)
  | succ n ih =>
    rw [stringChars]
    refine (runs_atEnd h).follows ?_
    cases w with
    | nil => exact follows_fault h (by simp)
    | cons c w =>
      have hw : w.length < n := Nat.lt_of_succ_lt_succ hn
      have h₁ : Runs cs s (ahead 1) (at' w 0) s := runs_ahead h
      have h₂ : Runs cs s (ahead 2) (at' w 1) s := runs_ahead h
      refine (runs_look h).follows (h₁.follows (h₂.follows ?_))
      unfold stringBody
      split_ifs with hlong hshort hline hback
      · simp only [Bool.and_eq_true, beq_iff_eq] at hlong
        exact runs_move.follows (follows_settled (h.moved (n := 3) (lt_of_at' hlong.2 hmark)))
      · exact runs_move.follows (follows_settled h.next)
      · exact follows_fault h (by simp)
      · obtain rfl := beq_iff_eq.1 hback
        cases w with
        | nil =>
          have hend : cs.drop (s.moved 2).pos = [] := by
            have hlength := h.length
            rw [List.length_singleton] at hlength
            exact List.drop_eq_nil_of_le (by show cs.length ≤ s.pos + 2; omega)
          refine runs_move.follows ?_
          exact .faults rfl (by rw [hend]; rfl) (by simp) (.inr rfl)
        | cons e w =>
          have h' : (s.moved 2).Before cs w := h.moved_append (u := ['\\', e])
          rw [show at' (e :: w) 0 = e from rfl]
          cases hx : unescape? e with
          | none =>
            simp only [hx]
            exact runs_move.follows (follows_fault h' (by simp))
          | some x =>
            simp only [hx]
            exact follows_cons (ih h' (Nat.lt_of_succ_lt hw))
      · have hc : c ≠ '\\' := by simpa using hback
        split
        · exact absurd rfl hc
        · exact absurd rfl hc
        · exact follows_cons (ih h.next hw)

lemma follows_quoted (h : s.Before cs w) (hmark : at' w 0 ≠ '\x00') :
    Follows cs s (s.leaving v) quoted (settled (Turtle.quoted w)) := by
  rw [quoted, Turtle.quoted]
  refine (runs_ahead h).follows ((runs_ahead h).follows ((runs_ahead h).follows ?_))
  have hn : (if (at' w 1 == at' w 0 && at' w 2 == at' w 0) = true then 3 else 1) ≤ w.length := by
    split
    · rename_i hlong
      simp only [Bool.and_eq_true, beq_iff_eq] at hlong
      exact lt_of_at' hlong.2 hmark
    · exact lt_of_at' rfl hmark
  refine runs_move.follows (runs_turns.follows (follows_map ?_))
  exact follows_stringChars (h.moved hn) (lt_turns (h.moved hn)) hmark

lemma follows_literal (h : s.Before cs w) (hmark : at' w 0 ≠ '\x00') :
    Follows cs s (s.leaving w) literal Step.literal := by
  refine (follows_lex (follows_quoted h hmark)).bind fun lexical s w h => follows_rest ?_
  refine (runs_ahead h).follows ((runs_ahead h).follows ?_)
  by_cases htag : at' w 0 = '@'
  · obtain ⟨more, hmore⟩ := exists_cons_of_at' htag (by decide)
    obtain rfl : w = '@' :: more := hmore
    have hpass := runs_passWhile (tests_ahead (p := isTagChar) (by decide)) h.next
    refine runs_move.follows (runs_place.follows (hpass.follows (runs_place.follows ?_)))
    exact (runs_passedWhile (p := isTagChar) h.next).follows
      (.gives runs_pure rfl (before_passWhile h.next))
  rw [if_neg (by simpa using htag)]
  by_cases htype : at' w 0 = '^' ∧ at' w 1 = '^'
  · obtain ⟨more, hmore⟩ := exists_cons_of_at' htype.2 (by decide)
    obtain ⟨more', hmore'⟩ := exists_cons_of_at' htype.1 (by decide)
    obtain rfl : w = '^' :: more' := hmore'
    obtain rfl : more' = '^' :: more := hmore
    refine (follows_setRest (n := 2) h (by simp) rfl).bind fun _ _ _ h => ?_
    exact (follows_name h).bind fun _ _ _ h => follows_pure h
  · rw [if_neg (by simpa using htype)]
    split
    · exact absurd rfl htag
    · exact absurd ⟨rfl, rfl⟩ htype
    · exact follows_pure h

/-! ### Numbers -/

lemma exists_sign (h : s.Before cs w) : ∃ k, Runs cs s sign () (s.moved k) ∧
    (s.moved k).Before cs (if isSign (at' w 0) then w.drop 1 else w) := by
  rcases hsign : isSign (at' w 0) with _ | _
  · refine ⟨0, (runs_ahead h).bind ?_, ?_⟩
    · rw [hsign, h.moved_zero]
      exact runs_pure
    · rwa [h.moved_zero]
  · have hne : at' w 0 ≠ '\x00' := fun hc => absurd (hc ▸ hsign) (by decide)
    refine ⟨1, (runs_ahead h).bind ?_, h.moved (lt_of_at' rfl hne)⟩
    rw [hsign]
    exact runs_move

lemma runs_digits (h : s.Before cs w) : Runs cs s digits (w.takeWhile Char.isDigit).length
    (s.moved (w.takeWhile Char.isDigit).length) := by
  refine runs_place.bind ((runs_passWhile (tests_ahead (by decide)) h).bind (runs_place.bind ?_))
  rw [show (s.moved (w.takeWhile Char.isDigit).length).pos - s.pos =
    (w.takeWhile Char.isDigit).length from Nat.add_sub_cancel_left ..]
  exact runs_pure

/-- The characters up to here are the number. -/
lemma follows_numeralFrom {start : Nat} {datatype : String} (h : s.Before cs u)
    (hstart : cs.drop start = w) (hle : start ≤ s.pos) :
    Follows cs s (s.leaving v) (numeralFrom start datatype)
      (settled (.ok (.typed (String.ofList (w.take (w.length - u.length))) datatype, u))) := by
  have hlength := h.length
  have hw : w.length = cs.length - start := by rw [← hstart, List.length_drop]
  refine runs_place.follows ((runs_piece hle (by omega)).follows ?_)
  rw [hstart, show s.pos - start = w.length - u.length by omega]
  exact follows_settled h

lemma length_dropWhile_beq {p : Char → Bool} :
    ((w.dropWhile p).length == w.length) = decide ((w.takeWhile p).length = 0) := by
  have h := congrArg List.length (List.takeWhile_append_dropWhile (p := p) (l := w))
  rw [List.length_append] at h
  rw [Bool.eq_iff_iff, beq_iff_eq, decide_eq_true_eq]
  omega

/-- The exponent of a number, which began at an earlier place. -/
lemma follows_exponent {start : Nat} {datatype : String} (h : s.Before cs u)
    (hstart : cs.drop start = w) (hle : start ≤ s.pos) :
    Follows cs s (s.leaving v) (exponent start datatype) (settled <|
      if at' u 0 == 'e' || at' u 0 == 'E' then
        let mark := u.drop 1
        let digits := if isSign (at' mark 0) then mark.drop 1 else mark
        let rest := digits.dropWhile Char.isDigit
        if rest.length == digits.length then .error (.malformedExponent, rest)
        else
          .ok (.typed (String.ofList (w.take (w.length - rest.length))) Vocabulary.xsdDouble, rest)
      else .ok (.typed (String.ofList (w.take (w.length - u.length))) datatype, u)) := by
  refine (runs_ahead h).follows ?_
  split
  · rename_i hmark
    have hne : at' u 0 ≠ '\x00' := fun hc => absurd (hc ▸ hmark) (by decide)
    have hmoved : (s.moved 1).Before cs (u.drop 1) := h.moved (lt_of_at' rfl hne)
    obtain ⟨k, hsign, hdigits⟩ := exists_sign hmoved
    refine runs_move.follows (hsign.follows ?_)
    dsimp only
    generalize (if isSign (at' (u.drop 1) 0) then (u.drop 1).drop 1 else u.drop 1) = digits
      at hdigits ⊢
    refine (runs_digits hdigits).follows ?_
    have hrest := before_passWhile (p := Char.isDigit) hdigits
    rw [length_dropWhile_beq]
    by_cases hnone : (digits.takeWhile Char.isDigit).length = 0
    · rw [if_pos hnone, if_pos (by simpa using hnone)]
      exact follows_fault hrest (by simp)
    · rw [if_neg hnone, if_neg (by simpa using hnone)]
      exact follows_numeralFrom hrest hstart (hle.trans (by simp only [Cursor.moved]; omega))
  · exact follows_numeralFrom h hstart hle

lemma follows_numeral (h : s.Before cs w) :
    Follows cs s (s.leaving v) numeral (settled (Turtle.numeral w)) := by
  rw [numeral, Turtle.numeral]
  obtain ⟨k, hsign, hdigits⟩ := exists_sign h
  refine runs_place.follows (hsign.follows ?_)
  dsimp only
  generalize (if isSign (at' w 0) then w.drop 1 else w) = signed at hdigits ⊢
  have hwhole := before_passWhile (p := Char.isDigit) hdigits
  refine (runs_digits hdigits).follows ?_
  refine (runs_ahead hwhole).follows ((runs_ahead hwhole).follows ?_)
  rw [length_dropWhile_beq]
  generalize signed.dropWhile Char.isDigit = whole at hwhole ⊢
  by_cases hpoint : (at' whole 0 == '.' && (at' whole 1).isDigit) = true
  · have hne : at' whole 0 ≠ '\x00' := fun hc => absurd (hc ▸ hpoint) (by simp)
    have hmoved := hwhole.moved (lt_of_at' rfl hne)
    simp only [hpoint, if_true, Bool.not_true, Bool.false_and, Bool.false_eq_true, if_false]
    refine runs_move.follows ((runs_digits hmoved).follows ?_)
    exact follows_exponent (before_passWhile hmoved) h.drop (by simp only [Cursor.moved]; omega)
  · rw [Bool.not_eq_true] at hpoint
    simp only [hpoint, if_false, Bool.not_false, Bool.true_and, Bool.false_eq_true,
      decide_eq_true_eq]
    split
    · exact follows_fault hwhole (by simp)
    · exact follows_exponent hwhole h.drop (by simp only [Cursor.moved]; omega)

/-! ### Words -/

lemma runs_rest (h : s.Before cs w) : Runs cs s' (piece s.pos cs.length) w s' := by
  have hpiece := runs_piece (s := s') (h.pos.trans h.far) (Nat.le_refl cs.length)
  rwa [← List.length_drop, List.take_length, h.drop] at hpiece

lemma runs_wordAhead {word : String} (h : s.Before cs w) :
    Runs cs s (wordAhead word) ((afterPrefix? word.toList w).any fun rest =>
      !isNameChar (at' rest 0) && at' rest 0 != ':') s := by
  refine runs_place.bind (runs_read.bind ((runs_rest h).bind ((runs_ahead h).bind ?_)))
  cases hp : afterPrefix? word.toList w with
  | none =>
    have hnot : word.toList.isPrefixOf w = false := by
      refine Bool.eq_false_iff.2 fun hword => ?_
      obtain ⟨rest, rfl⟩ := List.isPrefixOf_iff_prefix.1 hword
      rw [afterPrefix?_eq_some_iff.2 rfl] at hp
      cases hp
    rw [hnot]
    exact runs_pure
  | some rest =>
    obtain rfl := afterPrefix?_eq_some_iff.1 hp
    have hword : word.toList.isPrefixOf (word.toList ++ rest) = true :=
      List.isPrefixOf_iff_prefix.2 (List.prefix_append _ _)
    have hat : at' (word.toList ++ rest) word.length = at' rest 0 := by
      rw [← String.length_toList, ← Nat.add_zero word.toList.length, at'_add, List.drop_left]
    rw [hword, hat]
    exact runs_pure

/-- A truth value or a name. -/
lemma follows_truth (h : s.Before cs w) :
    Follows cs s (s.leaving w)
      (do
        if ← wordAhead "true" then
          move 4
          return .boolean true
        else if ← wordAhead "false" then
          move 5
          return .boolean false
        else name)
      (do
        match truth? (← Step.rest) with
        | some (t, cs) => Step.setRest cs; return t
        | none => Step.name) := by
  refine (runs_wordAhead h).follows (follows_rest ?_)
  unfold truth?
  cases htrue : afterPrefix? "true".toList w with
  | none =>
    refine (runs_wordAhead h).follows ?_
    cases hfalse : afterPrefix? "false".toList w with
    | none => exact follows_name h
    | some rest =>
      have hw := afterPrefix?_eq_some_iff.1 hfalse
      simp only [Option.any_some]
      split_ifs
      · exact (follows_setRest h (n := 5) (by simp [hw]) (by rw [hw]; rfl)).bind
          fun _ _ _ h => follows_pure h
      · exact follows_name h
  | some rest =>
    have hw := afterPrefix?_eq_some_iff.1 htrue
    have hfalse : afterPrefix? "false".toList w = none := by
      rw [hw]
      rfl
    simp only [Option.any_some]
    split_ifs
    · exact (follows_setRest h (n := 4) (by simp [hw]) (by rw [hw]; rfl)).bind
        fun _ _ _ h => follows_pure h
    · refine (runs_wordAhead h).follows ?_
      rw [hfalse]
      exact follows_name h

lemma follows_verb (h : s.Before cs w) : Follows cs s (s.leaving w) verb Step.verb := by
  refine (follows_blanks h).bind fun _ s w h => ?_
  refine follows_ahead h (follows_ahead h ?_)
  split_ifs with hshort
  · simp only [Bool.and_eq_true, beq_iff_eq] at hshort
    exact (follows_drop_one h hshort.1 (by decide)).bind fun _ _ _ h => follows_pure h
  · exact follows_name h

lemma runs_keywordAhead {keyword : String} (h : s.Before cs w) :
    Runs cs s (keywordAhead keyword) (afterKeyword? keyword w).isSome s := by
  have hlength := h.length
  have hsub : sizeSub cs.length s.pos = w.length := by
    rw [sizeSub, if_pos (by omega)]
    omega
  refine runs_place.bind (runs_read.bind ?_)
  rw [hsub, afterKeyword?]
  by_cases hn : w.length ≤ keyword.length
  · have hend : at' w keyword.length = '\x00' := by
      rw [at', List.getD_eq_getElem?_getD, List.getElem?_eq_none hn]
      rfl
    rw [if_pos hn, hend, if_neg (by simp [isBlank])]
    exact runs_pure
  · have hpiece : Runs cs s (piece s.pos (s.pos + keyword.length)) (w.take keyword.length) s := by
      have hpiece := runs_piece (s := s) (Nat.le_add_right s.pos keyword.length)
        (show s.pos + keyword.length ≤ cs.length by omega)
      rwa [h.drop, Nat.add_sub_cancel_left] at hpiece
    have hchar : cs[s.pos + keyword.length]? = some (at' w keyword.length) := by
      rw [h.getElem?, at', List.getD_eq_getElem?_getD]
      rw [List.getElem?_eq_getElem (Nat.lt_of_not_le hn), Option.getD_some]
    rw [if_neg hn]
    refine hpiece.bind ?_
    by_cases hword : (w.take keyword.length).map Char.toLower = keyword.toList.map Char.toLower
    · rw [if_pos hword]
      refine (runs_charAt hchar).bind ?_
      rw [decide_eq_true hword, Bool.true_and]
      cases isBlank (at' w keyword.length) <;> exact runs_pure
    · rw [if_neg hword, decide_eq_false hword, Bool.false_and]
      exact runs_pure

end Semlift.Rdf.Turtle.Scan
