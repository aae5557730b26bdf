import Semlift.Proofs.Rdf.Turtle.Cursor
import Semlift.Proofs.Rdf.Turtle.Uses

/-!
Two readers side by side. The reader with a place in the text does what the reader of the text that
is left does: in front of the same text it gives the same result or finds the same fault, and no
character or piece that it takes is missing. What the loops pass is what the other reader skips.

`Before` relates a place to what is left, `Runs` says that a step gives a result, and `Follows` that
one step does what another does, faults and all. `Follows.bind` puts steps together; the other rules
let one of the two readers go ahead alone, as one of them looks at the text where the other has it.
-/

namespace Semlift.Rdf.Turtle

open Semlift.Text

variable {cs l u v w : List Char} {s s' s'' : Cursor} {c d : Char} {k m n : Nat}

/-! ### Places in a text -/

namespace Cursor

/-- The place is in the text, as it always was, and in front of what is left. -/
structure Before (cs : List Char) (s : Cursor) (w : List Char) : Prop where
  pos : s.pos ≤ s.far
  far : s.far ≤ cs.length
  drop : cs.drop s.pos = w

/-- The progress of a reader with some text left. -/
def leaving (s : Cursor) (w : List Char) : Progress := ⟨s.reader, w, s.graph⟩

def moved (n : Nat) (s : Cursor) : Cursor :=
  { s with pos := s.pos + n, far := max s.far (s.pos + n) }

lemma Before.length (h : s.Before cs w) : s.pos + w.length = cs.length := by
  rw [← h.drop, List.length_drop]
  exact Nat.add_sub_of_le (h.pos.trans h.far)

lemma Before.moved (h : s.Before cs w) (hn : n ≤ w.length) :
    (s.moved n).Before cs (w.drop n) := by
  have hlength := h.length
  refine ⟨Nat.le_max_right _ _, Nat.max_le.2 ⟨h.far, by omega⟩, ?_⟩
  rw [← h.drop, List.drop_drop]
  rfl

lemma Before.moved_append (h : s.Before cs (u ++ w)) : (s.moved u.length).Before cs w := by
  have hmoved := h.moved (n := u.length) (by simp)
  rwa [List.drop_left] at hmoved

lemma Before.next (h : s.Before cs (c :: w)) : (s.moved 1).Before cs w := h.moved_append (u := [c])

/-- The place goes back. -/
lemma Before.back (h : s.Before cs w) (hn : n ≤ s.pos) :
    { s with pos := n }.Before cs (cs.drop n) :=
  ⟨hn.trans h.pos, h.far, rfl⟩

lemma Before.moved_zero (h : s.Before cs w) : s.moved 0 = s := by
  cases s
  simpa [Cursor.moved] using Nat.max_eq_left h.pos

lemma moved_moved : (s.moved k).moved n = s.moved (k + n) := by
  have hle : s.pos + k ≤ s.pos + k + n := Nat.le_add_right _ _
  simp [Cursor.moved, Nat.add_assoc, Nat.max_assoc]

end Cursor

lemma at'_nil : at' [] n = '\x00' := rfl

lemma at'_add : at' cs (k + n) = at' (cs.drop k) n := by
  simp [at', List.getD_eq_getElem?_getD]

lemma Cursor.Before.getElem? (h : s.Before cs w) : cs[s.pos + n]? = w[n]? := by
  rw [← h.drop, List.getElem?_drop]

lemma lt_of_at' (h : at' w n = c) (hc : c ≠ '\x00') : n < w.length := by
  obtain ⟨more, hmore⟩ := exists_cons_of_at' h hc
  have hlength := congrArg List.length hmore
  rw [List.length_drop, List.length_cons] at hlength
  omega

namespace Scan

open Cursor (Before)

variable {α β : Type} {y : Scan α} {f : α → Scan β} {a : α} {b : β}

/-! ### Runs -/

/-- A step of reading in a text gives a result and a cursor. -/
def Runs (cs : List Char) (s : Cursor) (y : Scan α) (a : α) (s' : Cursor) : Prop :=
  y.runAt cs s = (.ok a, s')

lemma runAt_bind : (y >>= f).runAt cs s =
    match y.runAt cs s with
    | (.ok a, s') => (f a).runAt cs s'
    | (.error e, s') => (.error e, s') := by
  show ((y.run cs >>= fun a => (f a).run cs).run.run s) = _
  rw [ExceptT.run_bind, StateT.run_bind]
  unfold runAt
  cases (y.run cs).run.run s with
  | mk r s' => cases r <;> rfl

lemma Runs.runAt_bind (h : Runs cs s y a s') : (y >>= f).runAt cs s = (f a).runAt cs s' := by
  rw [Scan.runAt_bind, h]

lemma Runs.bind (h : Runs cs s y a s') (hf : Runs cs s' (f a) b s'') :
    Runs cs s (y >>= f) b s'' :=
  h.runAt_bind.trans hf

lemma runs_pure : Runs cs s (pure a) a s := rfl

lemma runs_read : Runs cs s read cs s := rfl

lemma runs_get : Runs cs s get s s := rfl

lemma runs_modify {g : Cursor → Cursor} : Runs cs s (modify g) () (g s) := rfl

lemma runs_place : Runs cs s place s.pos s := rfl

lemma runs_turns : Runs cs s turns (cs.length + 1) s := rfl

lemma runs_move : Runs cs s (move n) () (s.moved n) := rfl

lemma runs_ahead (h : s.Before cs w) : Runs cs s (ahead n) (at' w n) s := by
  rw [← h.drop, ← at'_add]
  rfl

/-- The next character. -/
lemma runs_look (h : s.Before cs (c :: w)) : Runs cs s (ahead 0) c s := runs_ahead h

lemma runs_atEnd (h : s.Before cs w) : Runs cs s atEnd w.isEmpty s := by
  have hw : w.isEmpty = decide (cs.length ≤ s.pos) := by
    rw [Bool.eq_iff_iff, ← h.drop]
    simp
  rw [hw]
  rfl

lemma runs_charAt (h : cs[n]? = some c) : Runs cs s (charAt n) c s := by
  refine runs_read.bind ?_
  simp only [h]
  exact runs_pure

lemma runs_piece (hn : n ≤ m) (hm : m ≤ cs.length) :
    Runs cs s (piece n m) ((cs.drop n).take (m - n)) s := by
  refine runs_read.bind ?_
  rw [if_neg (by omega), if_neg (by omega)]
  exact runs_pure

/-- The piece that was passed. -/
lemma runs_passed (h : s.Before cs (u ++ w)) :
    Runs cs s' (piece s.pos (s.moved u.length).pos) u s' := by
  have hlength := h.length
  rw [List.length_append] at hlength
  have hpiece := runs_piece (s := s') (Nat.le_add_right s.pos u.length)
    (show s.pos + u.length ≤ cs.length by omega)
  rwa [h.drop, Nat.add_sub_cancel_left, List.take_left] at hpiece

lemma runs_back (h : 0 < s.pos) : Runs cs s back () { s with pos := s.pos - 1 } := by
  refine runs_place.bind ?_
  rw [if_neg (by omega)]
  exact runs_modify

/-! ### Loops that pass characters -/

/-- A test looks at the next character, and fails at the end. -/
def Tests (cs : List Char) (test : Scan Bool) (p : Char → Bool) : Prop :=
  ∀ s w, s.Before cs w → Runs cs s test (w.head?.any p) s

variable {test : Scan Bool} {p : Char → Bool}

/-- A look ahead needs no test for the end if the NUL character fails. -/
lemma tests_ahead (hp : p '\x00' = false) : Tests cs (do return p (← ahead 0)) p := by
  intro s w h
  refine (runs_ahead h).bind ?_
  cases w with
  | nil =>
    rw [show p (at' [] 0) = false from hp]
    exact runs_pure
  | cons c w => exact runs_pure

lemma tests_of_atEnd :
    Tests cs (do if ← atEnd then return false else return p (← ahead 0)) p := by
  intro s w h
  refine (runs_atEnd h).bind ?_
  cases w with
  | nil => exact runs_pure
  | cons c w => exact (runs_look h).bind runs_pure

/-- Each turn passes one character of what is left. -/
lemma runs_whileTurns (ht : Tests cs test p) (h : s.Before cs w) (hn : w.length < n) :
    Runs cs s (whileTurns test n) () (s.moved (w.takeWhile p).length) := by
  induction n generalizing s w with
  | zero => exact absurd hn (Nat.not_lt_zero _)
  | succ n ih =>
    refine (ht s w h).bind ?_
    cases w with
    | nil =>
      rw [List.takeWhile_nil, List.length_nil, h.moved_zero]
      exact runs_pure
    | cons c w =>
      have ih := ih h.next (Nat.lt_of_succ_lt_succ hn)
      rw [Cursor.moved_moved, Nat.add_comm] at ih
      rw [List.head?_cons, Option.any_some, List.takeWhile_cons]
      split
      · exact runs_move.bind ih
      · rw [List.length_nil, h.moved_zero]
        exact runs_pure

lemma lt_turns (h : s.Before cs w) : w.length < cs.length + 1 := by
  have := h.length
  omega

lemma runs_passWhile (ht : Tests cs test p) (h : s.Before cs w) :
    Runs cs s (passWhile test) () (s.moved (w.takeWhile p).length) :=
  runs_turns.bind (runs_whileTurns ht h (lt_turns h))

lemma before_passWhile (h : s.Before cs w) :
    (s.moved (w.takeWhile p).length).Before cs (w.dropWhile p) :=
  Before.moved_append (by rwa [List.takeWhile_append_dropWhile])

/-- The piece that a loop has passed. -/
lemma runs_passedWhile (h : s.Before cs w) :
    Runs cs s' (piece s.pos (s.moved (w.takeWhile p).length).pos) (w.takeWhile p) s' :=
  runs_passed (w := w.dropWhile p) (by rwa [List.takeWhile_append_dropWhile])

/-! ### Two readers side by side -/

/-- A step of reading in a text does what a step of reading what is left does. A fault is found in
the text, and not because a loop or a nesting is too long; only behind a backslash at the end of the
text the place is not in it any more. -/
inductive Follows (cs : List Char) (s : Cursor) (p : Progress) (y : Scan α) (x : Step α) : Prop
  | gives {a : α} {s' : Cursor} {w : List Char} (hy : Runs cs s y a s')
      (hx : x.Gives p a (s'.leaving w)) (h : s'.Before cs w)
  | faults {fault : Fault} {s' : Cursor}
      (hy : y.runAt cs s =
        (.error (.diagnostic ⟨1 + count '\n' (cs.take s'.pos), fault⟩), s'))
      (hx : x.run.run p = (.error fault, s'.leaving (cs.drop s'.pos))) (hdeep : fault ≠ .tooDeep)
      (hfar : s'.far ≤ cs.length ∨ fault = .badEscape '\x00')

variable {x : Step α} {g : α → Step β} {q q' : Progress} {fault : Fault}

lemma follows_pure (h : s.Before cs w) : Follows cs s (s.leaving w) (pure a) (pure a) :=
  .gives rfl rfl h

lemma follows_fail (h : s.Before cs w) (hdeep : fault ≠ .tooDeep) :
    Follows cs s (s.leaving w) (fail fault : Scan α) (throw fault) :=
  .faults rfl (by rw [h.drop]; rfl) hdeep (.inl h.far)

lemma Follows.bind_gives (h : Follows cs s q y x)
    (hf : ∀ a s' w, Runs cs s y a s' → x.Gives q a (s'.leaving w) → s'.Before cs w →
      Follows cs s' (s'.leaving w) (f a) (g a)) :
    Follows cs s q (y >>= f) (x >>= g) := by
  cases h with
  | gives hy hx h =>
    cases hf _ _ _ hy hx h with
    | gives hy' hx' h' => exact .gives (hy.bind hy') (hx.bind hx') h'
    | faults hy' hx' hdeep hfar =>
      exact .faults (hy.runAt_bind.trans hy') (hx.run_bind.trans hx') hdeep hfar
  | faults hy hx hdeep hfar =>
    refine .faults (by rw [runAt_bind, hy]) ?_ hdeep hfar
    rw [ExceptT.run_bind, StateT.run_bind, hx]
    rfl

lemma Follows.bind (h : Follows cs s q y x)
    (hf : ∀ a s' w, s'.Before cs w → Follows cs s' (s'.leaving w) (f a) (g a)) :
    Follows cs s q (y >>= f) (x >>= g) :=
  h.bind_gives fun a s' w _ _ h' => hf a s' w h'

/-- All that counts of the two readers is their runs. -/
lemma Follows.of_run {y' : Scan α} {x' : Step α} (h : Follows cs s' q' y x)
    (hy : y'.runAt cs s = y.runAt cs s') (hx : x'.run.run q = x.run.run q') :
    Follows cs s q y' x' := by
  cases h with
  | gives hy' hx' h => exact .gives (hy.trans hy') (hx.trans hx') h
  | faults hy' hx' hdeep hfar => exact .faults (hy.trans hy') (hx.trans hx') hdeep hfar

/-- The reader in the text goes ahead. -/
lemma Runs.follows {x : Step β} (hy : Runs cs s y a s') (h : Follows cs s' q (f a) x) :
    Follows cs s q (y >>= f) x :=
  h.of_run hy.runAt_bind rfl

/-- The reader of what is left goes ahead. -/
lemma follows_of_gives {y : Scan β} (hx : x.Gives q a q') (h : Follows cs s q' y (g a)) :
    Follows cs s q y (x >>= g) :=
  h.of_run rfl hx.run_bind

lemma follows_ahead {f : Char → Scan β} {g : Char → Step β} (h : s.Before cs w)
    (hf : Follows cs s (s.leaving w) (f (at' w n)) (g (at' w n))) :
    Follows cs s (s.leaving w) (ahead n >>= f) (Step.ahead n >>= g) :=
  (runs_ahead h).follows (follows_of_gives Step.gives_ahead hf)

lemma follows_atEnd {f : Bool → Scan β} {g : Bool → Step β} (h : s.Before cs w)
    (hf : Follows cs s (s.leaving w) (f w.isEmpty) (g w.isEmpty)) :
    Follows cs s (s.leaving w) (atEnd >>= f) (Step.atEnd >>= g) :=
  (runs_atEnd h).follows (follows_of_gives Step.gives_atEnd hf)

/-- The text that is left, for the reader that has nothing else. -/
lemma follows_rest {y : Scan β} {g : List Char → Step β}
    (hf : Follows cs s (s.leaving w) y (g w)) : Follows cs s (s.leaving w) y (Step.rest >>= g) :=
  follows_of_gives Step.gives_rest hf

lemma follows_get {f : Cursor → Scan β} {g : Progress → Step β}
    (hf : Follows cs s (s.leaving w) (f s) (g (s.leaving w))) :
    Follows cs s (s.leaving w) (get >>= f) (get >>= g) :=
  runs_get.follows (follows_of_gives Step.gives_get hf)

/-- Some characters are passed, and the text behind them is what is left. -/
lemma follows_setRest (h : s.Before cs w) (hn : n ≤ w.length) (hl : w.drop n = l) :
    Follows cs s (s.leaving v) (move n) (Step.setRest l) :=
  .gives runs_move rfl (hl ▸ h.moved hn)

lemma follows_drop (h : s.Before cs w) (hn : n ≤ w.length) :
    Follows cs s (s.leaving w) (move n) (Step.drop n) :=
  .gives runs_move rfl (h.moved hn)

/-- A character that is not NUL is there. -/
lemma follows_drop_one (h : s.Before cs w) (hc : at' w 0 = c) (hne : c ≠ '\x00') :
    Follows cs s (s.leaving w) (move 1) (Step.drop 1) :=
  follows_drop h (lt_of_at' hc hne)

/-! ### Blanks -/

lemma skipFrom_comment : skipFrom isBlank true w = skip (w.dropWhile (· != '\n')) := by
  induction w with
  | nil => rfl
  | cons c w ih =>
    by_cases hc : c = '\n'
    · subst hc
      rfl
    · rw [List.dropWhile_cons_of_pos (by simpa using hc), ← ih, skipFrom, bne_iff_ne.2 hc]

/-- A comment is passed in one turn, so the induction is on the number of turns. -/
lemma follows_blankTurns (h : s.Before cs w) (hn : w.length < n) :
    Follows cs s (s.leaving v) (blankTurns n) (Step.setRest (skip w)) := by
  induction n generalizing s w with
  | zero => exact absurd hn (Nat.not_lt_zero _)
  | succ n ih =>
    rw [blankTurns]
    refine (runs_atEnd h).follows ?_
    cases w with
    | nil => exact .gives runs_pure rfl h
    | cons c w =>
      refine (runs_look h).follows ?_
      have hw : w.length < n := Nat.lt_of_succ_lt_succ hn
      split_ifs with hhash hblank
      · obtain rfl := beq_iff_eq.1 hhash
        have hskip : skip ('#' :: w) = skip (('#' :: w).dropWhile (· != '\n')) := skipFrom_comment
        rw [hskip]
        refine (runs_passWhile tests_of_atEnd h).follows (ih (before_passWhile h) ?_)
        rw [List.dropWhile_cons_of_pos (by decide)]
        exact Nat.lt_of_le_of_lt (List.dropWhile_suffix _).length_le hw
      · rw [skip, skipFrom, if_neg hhash, if_pos hblank]
        exact runs_move.follows (ih h.next hw)
      · rw [skip, skipFrom, if_neg hhash, if_neg hblank]
        exact .gives runs_pure rfl h

lemma follows_blanks (h : s.Before cs w) : Follows cs s (s.leaving w) blanks Step.blanks :=
  runs_turns.follows ((follows_blankTurns h (lt_turns h)).of_run (q := s.leaving w) rfl rfl)

lemma runs_blanks (h : s.Before cs (c :: w)) (hc : Opens c) : Runs cs s blanks () s := by
  refine runs_turns.bind ?_
  rw [blankTurns]
  refine (runs_atEnd h).bind ((runs_look h).bind ?_)
  rw [if_neg (by simpa using hc.2), if_neg (by simpa using hc.1)]
  exact runs_pure

/-- A bracket or a mark that is ahead is what is expected. -/
lemma runs_expect (h : s.Before cs (c :: w)) (hc : Opens c) :
    Runs cs s (expect c) () (s.moved 1) := by
  refine (runs_blanks h hc).bind ((runs_look h).bind ?_)
  rw [if_neg (by simp)]
  exact runs_move

lemma follows_expect (h : s.Before cs w) (hne : c ≠ '\x00') :
    Follows cs s (s.leaving w) (expect c) (Step.expect c) := by
  refine (follows_blanks h).bind fun _ s w h => follows_rest ?_
  cases w with
  | nil =>
    refine (runs_ahead h).follows ?_
    rw [at'_nil, if_pos (bne_iff_ne.2 hne.symm)]
    exact (runs_atEnd h).follows (follows_fail h (by simp))
  | cons d w =>
    refine (runs_look h).follows ?_
    dsimp only
    by_cases hd : d = c
    · rw [if_neg (by simpa using hd), if_pos hd]
      exact follows_setRest h (by simp) rfl
    · rw [if_pos (bne_iff_ne.2 hd), if_neg hd]
      exact (runs_atEnd h).follows (follows_fail h (by simp))

/-! ### Pieces that a lexer reads -/

/-- What a lexer has read, or its fault. -/
def settled : Except (Fault × List Char) (α × List Char) → Step α
  | .ok (a, cs) => do Step.setRest cs; return a
  | .error (fault, cs) => do Step.setRest cs; throw fault

variable {r : Except (Fault × List Char) (List Char × List Char)}

lemma follows_lex {lx : Lexer α} (h : Follows cs s (s.leaving w) y (settled (lx w))) :
    Follows cs s (s.leaving w) y (Step.lex lx) := by
  refine follows_rest ?_
  cases hr : lx w with
  | ok p => rwa [hr] at h
  | error p => rwa [hr] at h

lemma run_lex_of_error {lx : Lexer α} (h : lx q.rest = .error (fault, l)) :
    (Step.lex lx >>= g).run.run q = (.error fault, { q with rest := l }) := by
  have hx : (Step.lex lx).run.run q = (.error fault, { q with rest := l }) := by
    refine Step.gives_rest.run_bind.trans ?_
    rw [h]
    rfl
  rw [ExceptT.run_bind, StateT.run_bind, hx]
  rfl

lemma settled_map {f : α → β} {r : Except (Fault × List Char) (α × List Char)} :
    settled (r.map fun (a, cs) => (f a, cs)) = (do return f (← settled r)) := by
  cases r <;> rfl

lemma follows_settled (h : s.Before cs w) :
    Follows cs s (s.leaving v) (pure a) (settled (.ok (a, w))) :=
  .gives runs_pure rfl h

lemma follows_fault (h : s.Before cs w) (hdeep : fault ≠ .tooDeep) :
    Follows cs s (s.leaving v) (fail fault : Scan α) (settled (.error (fault, w))) :=
  (follows_fail h hdeep).of_run rfl rfl

/-- The text behind a piece is what is left. -/
lemma Follows.bind_piece {y : Scan α} {x : Step β}
    (h : Follows cs s (s.leaving v) y (settled (.ok (a, l))))
    (hf : ∀ s', s'.Before cs l → Follows cs s' (s'.leaving l) (f a) x) :
    Follows cs s (s.leaving v) (y >>= f) (do Step.setRest l; x) := by
  refine (h.bind_gives (g := fun _ => x) fun b s' w _ hx h' => ?_).of_run rfl rfl
  obtain ⟨rfl, rfl⟩ : a = b ∧ l = w :=
    ⟨Except.ok.inj (Prod.mk.inj hx).1, congrArg Progress.rest (Prod.mk.inj hx).2⟩
  exact hf s' h'

/-- A loop passes a character and goes on. -/
lemma follows_cons {y : Scan (List Char)}
    (h : Follows cs (s.moved n) ((s.moved n).leaving v) y (settled r)) :
    Follows cs s (s.leaving v) (do move n; return c :: (← y))
      (settled (r.map fun (w, cs) => (c :: w, cs))) := by
  rw [settled_map]
  exact runs_move.follows (h.bind fun _ _ _ h => follows_pure h)

lemma follows_map {y : Scan (List Char)} (h : Follows cs s (s.leaving v) y (settled r)) :
    Follows cs s (s.leaving v) (do return String.ofList (← y))
      (settled (r.map fun (w, cs) => (String.ofList w, cs))) := by
  rw [settled_map]
  exact h.bind fun _ _ _ h => follows_pure h

end Scan

end Semlift.Rdf.Turtle
