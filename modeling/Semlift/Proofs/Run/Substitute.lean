import Mathlib.Data.List.GetD
import Semlift.Proofs.Except
import Semlift.Proofs.Lists
import Semlift.Proofs.Rdf.Prefixes
import Semlift.Proofs.Text.Numerals
import Semlift.Run.Parameter

/-!
Parameters put in all at once. A query is cut into its placeholders and the characters between them,
and every placeholder is filled with the text of its parameter. Putting the texts in one after the
other, the highest number first, comes to the same with other texts: each is searched for the
placeholders of lower numbers before it is put in. The texts of values never grow together with what
stands next to them, so it comes to the same with the texts themselves exactly if none of them has
the placeholder of a lower number in it.
-/

namespace Semlift.Run

open Semlift.Number Semlift.Rdf Semlift.Text

/-- The digits in the placeholder of a parameter; the parameters are counted from zero. -/
def digits (i : Nat) : List Char := (natText (i + 1)).toList

/-- The last of so many parameters whose digits a text begins with. -/
def index? : (count : Nat) → List Char → Option Nat
  | 0, _ => none
  | n + 1, cs => if digits n <+: cs then some n else index? n cs

/-- A piece of a query: a character, or the place of a parameter. -/
inductive Piece where
  | char (c : Char)
  | hole (i : Nat)

/-- The pieces of a query with so many parameters, after passing over a number of characters. -/
def pieces (count : Nat) : (pass : Nat) → List Char → List Piece
  | _, [] => []
  | n + 1, _ :: cs => pieces count n cs
  | 0, c :: cs =>
    match if c = '%' then index? count cs else none with
    | some i => .hole i :: pieces count (digits i).length cs
    | none => .char c :: pieces count 0 cs

def Piece.fill (texts : List String) : Piece → List Char
  | .char c => [c]
  | .hole i => (texts.getD i "").toList

/-- A query with every placeholder filled at once. -/
def simultaneous (texts : List String) (query : String) : String :=
  String.ofList ((pieces texts.length 0 query.toList).flatMap (Piece.fill texts))

variable {n i j : Nat} {c : Char} {cs rest t : List Char} {texts us : List String} {x : String}

/-! ### The longest number -/

lemma toList_placeholder : (placeholder (i + 1)).toList = '%' :: digits i := by
  simp [placeholder, digits]

lemma isDigit_of_mem_digits (h : c ∈ digits i) : c.isDigit = true := isDigit_of_mem_natText h

lemma percent_notMem_digits : '%' ∉ digits i :=
  fun h => absurd (isDigit_of_mem_digits h) (by decide)

lemma le_foldl_digits (ds : List Char) (m : Nat) :
    m ≤ ds.foldl (fun n d => 10 * n + (d.toNat - '0'.toNat)) m := by
  induction ds generalizing m with
  | nil => exact Nat.le_refl m
  | cons d ds ih =>
    have hstep := ih (10 * m + (d.toNat - '0'.toNat))
    rw [List.foldl_cons]
    omega

lemma le_of_prefix (h : digits i <+: digits j) : i ≤ j := by
  obtain ⟨more, hmore⟩ := h
  have hvalue : j + 1 = more.foldl (fun n d => 10 * n + (d.toNat - '0'.toNat)) (i + 1) := by
    calc j + 1 = digitsValue (digits j) := digitsValue_natText.symm
      _ = digitsValue (digits i ++ more) := by rw [hmore]
      _ = more.foldl _ (digitsValue (digits i)) := List.foldl_append
      _ = more.foldl _ (i + 1) := by rw [digits, digitsValue_natText]
  have hle := le_foldl_digits more (i + 1)
  omega

lemma index?_eq_some : index? n cs = some i ↔
    i < n ∧ digits i <+: cs ∧ ∀ j < n, digits j <+: cs → j ≤ i := by
  induction n with
  | zero => simp [index?]
  | succ n ih =>
    by_cases hn : digits n <+: cs
    · rw [index?, if_pos hn, Option.some.injEq]
      constructor
      · rintro rfl
        exact ⟨by omega, hn, fun j hj _ => by omega⟩
      · rintro ⟨hi, -, hlast⟩
        have := hlast n (by omega) hn
        omega
    · rw [index?, if_neg hn, ih]
      constructor
      · rintro ⟨hi, hpre, hlast⟩
        refine ⟨by omega, hpre, fun j hj hd => ?_⟩
        have hne : j ≠ n := by rintro rfl; exact hn hd
        exact hlast j (by omega) hd
      · rintro ⟨hi, hpre, hlast⟩
        have hne : i ≠ n := by rintro rfl; exact hn hpre
        exact ⟨by omega, hpre, fun j hj hd => hlast j (by omega) hd⟩

lemma length_digits_le_iff (hj : digits j <+: cs) (hi : digits i <+: cs) :
    (digits j).length ≤ (digits i).length ↔ j ≤ i := by
  constructor
  · exact fun h => le_of_prefix (List.prefix_of_prefix_length_le hj hi h)
  · intro h
    by_contra hlt
    have hle := le_of_prefix (List.prefix_of_prefix_length_le hi hj (by omega))
    have heq : j = i := by omega
    exact hlt (heq ▸ Nat.le_refl _)

/-- **The longest number counts**: of all parameters whose digits follow, the one with the most. -/
theorem index?_eq_some_iff : index? n cs = some i ↔ i < n ∧ digits i <+: cs ∧
    ∀ j < n, digits j <+: cs → (digits j).length ≤ (digits i).length := by
  rw [index?_eq_some]
  refine and_congr_right fun _ => and_congr_right fun hi => ?_
  exact forall_congr' fun j => forall_congr' fun _ => forall_congr' fun hj =>
    (length_digits_le_iff hj hi).symm

lemma index?_eq_none : index? n cs = none ↔ ∀ i < n, ¬ digits i <+: cs := by
  induction n with
  | zero => simp [index?]
  | succ n ih =>
    by_cases hn : digits n <+: cs
    · simp only [index?, if_pos hn, reduceCtorEq, false_iff, not_forall, not_not]
      exact ⟨n, by omega, hn⟩
    · rw [index?, if_neg hn, ih]
      constructor
      · intro h i hi hd
        have hne : i ≠ n := by rintro rfl; exact hn hd
        exact h i (by omega) hd
      · exact fun h i hi => h i (by omega)

lemma prefix_takeWhile (i : Nat) (cs : List Char) :
    digits i <+: cs.takeWhile Char.isDigit ↔ digits i <+: cs := by
  constructor
  · exact fun h => h.trans (List.takeWhile_prefix _)
  · rintro ⟨rest, rfl⟩
    rw [List.takeWhile_append_of_pos fun _ => isDigit_of_mem_digits]
    exact List.prefix_append _ _

/-- Only the digits in front matter. -/
lemma index?_congr (h : cs.takeWhile Char.isDigit = rest.takeWhile Char.isDigit) :
    index? n cs = index? n rest := by
  induction n with
  | zero => rfl
  | succ n ih =>
    have hpre : digits n <+: cs ↔ digits n <+: rest := by
      rw [← prefix_takeWhile, h, prefix_takeWhile]
    simp only [index?, ih, hpre]

/-! ### Pieces -/

lemma pieces_char (h : c = '%' → index? n cs = none) :
    pieces n 0 (c :: cs) = .char c :: pieces n 0 cs := by
  have hnone : (if c = '%' then index? n cs else none) = none := by
    split_ifs with hc
    · exact h hc
    · rfl
  rw [pieces, hnone]

lemma pieces_pass (ds : List Char) : pieces n ds.length (ds ++ rest) = pieces n 0 rest := by
  induction ds with
  | nil => rfl
  | cons d ds ih => rw [List.length_cons, List.cons_append, pieces, ih]

lemma pieces_hole (h : index? n (digits i ++ rest) = some i) :
    pieces n 0 ('%' :: (digits i ++ rest)) = .hole i :: pieces n 0 rest := by
  rw [pieces, if_pos rfl, h]
  exact congrArg _ (pieces_pass _)

/-- A text is read piece by piece. -/
lemma pieces_induction (n : Nat) {motive : List Char → Prop} (nil : motive [])
    (char : ∀ c cs, (c = '%' → index? n cs = none) → motive cs → motive (c :: cs))
    (hole : ∀ i rest, index? n (digits i ++ rest) = some i → motive rest →
      motive ('%' :: (digits i ++ rest))) (cs : List Char) : motive cs := by
  induction hlen : cs.length using Nat.strongRecOn generalizing cs with
  | ind len ih =>
    subst hlen
    cases cs with
    | nil => exact nil
    | cons c cs =>
      by_cases hc : c = '%' ∧ ∃ i, index? n cs = some i
      · obtain ⟨rfl, i, hi⟩ := hc
        obtain ⟨rest, rfl⟩ := (index?_eq_some.1 hi).2.1
        have hshort : rest.length < ('%' :: (digits i ++ rest)).length := by
          rw [List.length_cons, List.length_append]
          omega
        exact hole i rest hi (ih _ hshort rest rfl)
      · refine char c cs (fun h => ?_) (ih _ (by simp) cs rfl)
        exact Option.eq_none_iff_forall_ne_some.2 fun i hi => hc ⟨h, i, hi⟩

/-- The pieces of a text, as they stand in it. -/
def Piece.spell : Piece → List Char
  | .char c => [c]
  | .hole i => '%' :: digits i

lemma flatMap_spell (n : Nat) (cs : List Char) : (pieces n 0 cs).flatMap Piece.spell = cs := by
  induction cs using pieces_induction n with
  | nil => rfl
  | char c cs h ih => rw [pieces_char h, List.flatMap_cons, ih]; rfl
  | hole i rest h ih => rw [pieces_hole h, List.flatMap_cons, ih]; rfl

lemma lt_of_hole_mem (h : .hole i ∈ pieces n 0 cs) : i < n := by
  induction cs using pieces_induction n with
  | nil => simp [pieces] at h
  | char c cs hc ih =>
    rw [pieces_char hc] at h
    exact ih (by simpa using h)
  | hole j rest hj ih =>
    rw [pieces_hole hj] at h
    rcases List.mem_cons.1 h with heq | h
    · cases heq
      exact (index?_eq_some.1 hj).1
    · exact ih h

lemma pieces_eq_char (h : ∀ i, .hole i ∉ pieces n 0 (c :: cs)) :
    (c = '%' → index? n cs = none) ∧ ∀ i, .hole i ∉ pieces n 0 cs := by
  have hnone : c = '%' → index? n cs = none := by
    rintro rfl
    refine Option.eq_none_iff_forall_ne_some.2 fun i hi => h i ?_
    obtain ⟨rest, rfl⟩ := (index?_eq_some.1 hi).2.1
    rw [pieces_hole hi]
    exact List.mem_cons_self
  refine ⟨hnone, fun i hi => h i ?_⟩
  rw [pieces_char hnone]
  exact List.mem_cons_of_mem _ hi

/-- A text has places for parameters exactly if it has one of their placeholders in it. -/
lemma exists_hole_iff :
    (∃ i, .hole i ∈ pieces n 0 cs) ↔ ∃ j < n, (placeholder (j + 1)).toList <:+: cs := by
  simp only [toList_placeholder]
  constructor
  · rintro ⟨i, hi⟩
    refine ⟨i, lt_of_hole_mem hi, ?_⟩
    obtain ⟨before, after, hsplit⟩ := List.append_of_mem hi
    have hspell := flatMap_spell n cs
    rw [hsplit, List.flatMap_append, List.flatMap_cons, ← List.append_assoc] at hspell
    exact ⟨_, _, hspell⟩
  · rintro ⟨j, hj, before, after, rfl⟩
    by_contra hno
    simp only [not_exists] at hno
    induction before with
    | nil =>
      have hnone := (pieces_eq_char hno).1 rfl
      exact index?_eq_none.1 hnone j hj (List.prefix_append _ _)
    | cons c before ih => exact ih (pieces_eq_char hno).2

/-! ### One pass -/

/-- A text that makes no placeholder with what it is put next to: no digit stands at its beginning
and no percent sign with nothing but digits behind it at its end. Nor does it begin with a percent
sign, so it is told apart from a placeholder by its first character. -/
structure Sealed (t : List Char) : Prop where
  head : ∃ c ∈ t.head?, c.isDigit = false ∧ c ≠ '%'
  last : ∀ ds, '%' :: ds <:+ t → ds.all Char.isDigit = false

/-- The pieces of two texts next to each other. -/
lemma pieces_append (h : ∀ ds, '%' :: ds <:+ t → ds.all Char.isDigit = false) :
    pieces n 0 (t ++ rest) = pieces n 0 t ++ pieces n 0 rest := by
  have hcongr {cs : List Char} (hcs : '%' :: cs <:+ t) : index? n (cs ++ rest) = index? n cs :=
    index?_congr (takeWhile_append_of_all (h cs hcs))
  induction t using pieces_induction n with
  | nil => rfl
  | char c cs hc ih =>
    have hrest : c = '%' → index? n (cs ++ rest) = none := by
      rintro rfl
      rw [hcongr List.suffix_rfl, hc rfl]
    have hsuffix := List.suffix_cons c cs
    rw [List.cons_append, pieces_char hrest, pieces_char hc, List.cons_append,
      ih (fun ds hds => h ds (hds.trans hsuffix)) fun hcs => hcongr (hcs.trans hsuffix)]
  | hole i cs hi ih =>
    have hrest : index? n (digits i ++ (cs ++ rest)) = some i := by
      rw [← List.append_assoc, hcongr List.suffix_rfl, hi]
    have hsuffix : cs <:+ '%' :: (digits i ++ cs) :=
      (List.suffix_append _ _).trans (List.suffix_cons _ _)
    rw [List.cons_append, List.append_assoc, pieces_hole hrest, pieces_hole hi, List.cons_append,
      ih (fun ds hds => h ds (hds.trans hsuffix)) fun hcs => hcongr (hcs.trans hsuffix)]

/-- Puts a text in place of one placeholder. -/
def onePass (n : Nat) (t : List Char) : List Char → List Char := replaceFrom ('%' :: digits n) t 0

lemma isSome_afterPrefix? {start : List Char} :
    (afterPrefix? start cs).isSome = true ↔ start <+: cs := by
  rw [Option.isSome_iff_exists]
  exact exists_congr fun rest => afterPrefix?_eq_some_iff.trans eq_comm

lemma onePass_char (h : c = '%' → ¬ digits n <+: cs) :
    onePass n t (c :: cs) = c :: onePass n t cs := by
  have hno : ¬ (afterPrefix? ('%' :: digits n) (c :: cs)).isSome = true := by
    rw [isSome_afterPrefix?, List.cons_prefix_cons]
    exact fun ⟨hc, hpre⟩ => h hc.symm hpre
  rw [onePass, replaceFrom, if_neg hno]

lemma replaceFrom_pass {old : List Char} (ds : List Char) :
    replaceFrom old t ds.length (ds ++ rest) = replaceFrom old t 0 rest := by
  induction ds with
  | nil => rfl
  | cons d ds ih => rw [List.length_cons, List.cons_append, replaceFrom, ih]

lemma onePass_hole : onePass n t ('%' :: (digits n ++ rest)) = t ++ onePass n t rest := by
  have hyes : (afterPrefix? ('%' :: digits n) ('%' :: (digits n ++ rest))).isSome = true :=
    isSome_afterPrefix?.2 (List.prefix_append ('%' :: digits n) rest)
  rw [onePass, replaceFrom, if_pos hyes]
  exact congrArg _ (replaceFrom_pass _)

lemma onePass_append {ds : List Char} (h : '%' ∉ ds) :
    onePass n t (ds ++ rest) = ds ++ onePass n t rest := by
  induction ds with
  | nil => rfl
  | cons d ds ih =>
    rw [List.mem_cons, not_or] at h
    rw [List.cons_append, onePass_char fun hd => absurd hd.symm h.1, ih h.2, List.cons_append]

/-- No digits come to stand in front. -/
lemma takeWhile_onePass (h : ∃ c ∈ t.head?, c.isDigit = false ∧ c ≠ '%') :
    (onePass n t cs).takeWhile Char.isDigit = cs.takeWhile Char.isDigit := by
  induction cs with
  | nil => rfl
  | cons c cs ih =>
    by_cases hhit : c = '%' ∧ digits n <+: cs
    · obtain ⟨rfl, rest, rfl⟩ := hhit
      obtain ⟨d, hd, hdigit, -⟩ := h
      obtain ⟨more, rfl⟩ := List.head?_eq_some_iff.1 hd
      rw [onePass_hole, List.cons_append, List.takeWhile_cons_of_neg (by simp [hdigit]),
        List.takeWhile_cons_of_neg (by decide)]
    · rw [onePass_char fun hc hpre => hhit ⟨hc, hpre⟩, List.takeWhile_cons, List.takeWhile_cons, ih]

/-- A piece after the text of the last parameter is put in, cut into pieces for the others. -/
def Piece.put (n : Nat) (t : List Char) : Piece → List Piece
  | .char c => [.char c]
  | .hole i => if i = n then pieces n 0 t else [.hole i]

/-- **One pass** fills the places of the last parameter and leaves those of the others. -/
lemma pieces_onePass (ht : Sealed t) :
    pieces n 0 (onePass n t cs) = (pieces (n + 1) 0 cs).flatMap (Piece.put n t) := by
  have hcongr (cs : List Char) : index? n (onePass n t cs) = index? n cs :=
    index?_congr (takeWhile_onePass ht.head)
  induction cs using pieces_induction (n + 1) with
  | nil => rfl
  | char c cs hc ih =>
    have hpre : c = '%' → ¬ digits n <+: cs := fun h => index?_eq_none.1 (hc h) n (by omega)
    have hnone : c = '%' → index? n (onePass n t cs) = none := by
      intro h
      rw [hcongr, index?_eq_none]
      exact fun i hi => index?_eq_none.1 (hc h) i (by omega)
    rw [onePass_char hpre, pieces_char hnone, pieces_char hc, ih, List.flatMap_cons]
    rfl
  | hole i rest hi ih =>
    rw [pieces_hole hi, List.flatMap_cons, ← ih, Piece.put]
    by_cases hin : i = n
    · rw [if_pos hin, hin, onePass_hole, pieces_append ht.last]
    · obtain ⟨hlt, -, hlast⟩ := index?_eq_some.1 hi
      have hpre : ¬ digits n <+: digits i ++ rest := by
        intro h
        have := hlast n (by omega) h
        omega
      have hhole : index? n (digits i ++ onePass n t rest) = some i := by
        rw [← onePass_append percent_notMem_digits, hcongr]
        rwa [index?, if_neg hpre] at hi
      rw [if_neg hin, onePass_char fun _ => hpre, onePass_append percent_notMem_digits,
        pieces_hole hhole]
      rfl

/-! ### All passes -/

/-- The texts that are there in the end: each with the texts of the parameters before it put in. -/
def nested (texts : List String) : List String :=
  texts.zipIdx.map fun (x, i) => substitute (texts.take i) x

@[simp] lemma length_nested : (nested texts).length = texts.length := by simp [nested]

lemma getElem_nested {k : Nat} (hk : k < texts.length) (hn : k < (nested texts).length) :
    (nested texts)[k] = substitute (texts.take k) texts[k] := by
  simp [nested]

lemma nested_concat : nested (texts ++ [x]) = nested texts ++ [substitute texts x] := by
  refine List.ext_getElem (by simp) fun k hk hk' => ?_
  rw [length_nested, List.length_append, List.length_singleton] at hk
  rw [getElem_nested (by simpa using hk)]
  rcases Nat.lt_or_ge k texts.length with hlt | hge
  · rw [List.take_append_of_le_length (by omega), List.getElem_append_left hlt,
      List.getElem_append_left (by simpa using hlt), getElem_nested hlt]
  · obtain rfl : k = texts.length := by omega
    simp

lemma substitute_concat {query : String} : substitute (texts ++ [x]) query =
    substitute texts (replace (placeholder (texts.length + 1)) x query) := by
  simp [substitute, List.zipIdx_append]

lemma toList_replace {query : String} :
    (replace (placeholder (n + 1)) x query).toList = onePass n x.toList query.toList := by
  rw [replace, String.toList_ofList, toList_placeholder, onePass]

lemma pieces_zero : (pieces 0 0 cs).flatMap (Piece.fill us) = cs := by
  induction cs with
  | nil => rfl
  | cons c cs ih => rw [pieces_char fun _ => rfl, List.flatMap_cons, ih]; rfl

lemma toList_substitute (h : ∀ x ∈ texts, Sealed x.toList) (query : String) :
    (substitute texts query).toList =
      (pieces texts.length 0 query.toList).flatMap (Piece.fill (nested texts)) := by
  induction texts using List.reverseRecOn generalizing query with
  | nil => exact pieces_zero.symm
  | append_singleton texts x ih =>
    have ih := ih fun x hx => h x (List.mem_append_left _ hx)
    have hput : ∀ p ∈ pieces (texts.length + 1) 0 query.toList,
        (p.put texts.length x.toList).flatMap (Piece.fill (nested texts)) =
          p.fill (nested (texts ++ [x])) := by
      intro p hp
      cases p with
      | char c => rfl
      | hole i =>
        rw [Piece.put, Piece.fill, nested_concat]
        split_ifs with hi
        · rw [hi, ← ih]
          simp
        · have hlt := lt_of_hole_mem hp
          have hlen : i < (nested texts).length := by
            rw [length_nested]
            omega
          rw [List.flatMap_singleton, Piece.fill, List.getD_append _ _ _ _ hlen]
    calc (substitute (texts ++ [x]) query).toList
        = (pieces texts.length 0 (onePass texts.length x.toList query.toList)).flatMap
            (Piece.fill (nested texts)) := by rw [substitute_concat, ih, toList_replace]
      _ = (pieces (texts.length + 1) 0 query.toList).flatMap fun p =>
            (p.put texts.length x.toList).flatMap (Piece.fill (nested texts)) := by
          rw [pieces_onePass (h x (by simp)), List.flatMap_assoc]
      _ = (pieces (texts.length + 1) 0 query.toList).flatMap
            (Piece.fill (nested (texts ++ [x]))) := List.flatMap_congr hput
      _ = _ := by rw [List.length_append, List.length_singleton]

/-- **One after the other is all at once**, with texts that have had their turn before. -/
theorem substitute_eq_nested (h : ∀ x ∈ texts, Sealed x.toList) (query : String) :
    substitute texts query = simultaneous (nested texts) query := by
  rw [simultaneous, length_nested, ← toList_substitute h, String.ofList_toList]

/-! ### When the texts stay as they are -/

lemma head?_substitute (h : ∀ x ∈ texts, Sealed x.toList) {query : String}
    (hq : ∃ c ∈ query.toList.head?, c.isDigit = false ∧ c ≠ '%') :
    (substitute texts query).toList.head? = query.toList.head? := by
  obtain ⟨c, hc, -, hne⟩ := hq
  obtain ⟨cs, hcs⟩ := List.head?_eq_some_iff.1 hc
  rw [toList_substitute h, hcs, pieces_char fun h => absurd h hne, List.flatMap_cons]
  rfl

lemma flatMap_fill_eq_iff {ps : List Piece}
    (hus : ∀ i, .hole i ∈ ps → ∃ c ∈ (us.getD i "").toList.head?, c ≠ '%') :
    ps.flatMap (Piece.fill us) = ps.flatMap Piece.spell ↔ ∀ i, .hole i ∉ ps := by
  induction ps with
  | nil => simp
  | cons p ps ih =>
    have ih := ih fun i hi => hus i (List.mem_cons_of_mem _ hi)
    cases p with
    | char c => simp [Piece.fill, Piece.spell, ih]
    | hole i =>
      obtain ⟨c, hc, hne⟩ := hus i List.mem_cons_self
      obtain ⟨more, hmore⟩ := List.head?_eq_some_iff.1 hc
      refine iff_of_false (fun heq => ?_) fun hno => hno i List.mem_cons_self
      rw [List.flatMap_cons, List.flatMap_cons, Piece.fill, Piece.spell, hmore] at heq
      exact hne (List.cons.inj heq).1

/-- A text stays as it is exactly if it has no placeholder in it. -/
lemma substitute_eq_self_iff (h : ∀ x ∈ texts, Sealed x.toList) {query : String} :
    substitute texts query = query ↔
      ∀ j < texts.length, ¬ (placeholder (j + 1)).toList <:+: query.toList := by
  have hheads : ∀ i, .hole i ∈ pieces texts.length 0 query.toList →
      ∃ c ∈ ((nested texts).getD i "").toList.head?, c ≠ '%' := by
    intro i hi
    have hlt := lt_of_hole_mem hi
    have hsealed := h texts[i] (List.getElem_mem hlt)
    obtain ⟨c, hc, hdigit, hne⟩ := hsealed.head
    refine ⟨c, ?_, hne⟩
    rw [List.getD_eq_getElem _ _ (by simpa using hlt), getElem_nested hlt,
      head?_substitute (fun x hx => h x (List.mem_of_mem_take hx)) ⟨c, hc, hdigit, hne⟩]
    exact hc
  calc substitute texts query = query
      ↔ (substitute texts query).toList = query.toList := String.toList_inj.symm
    _ ↔ (pieces texts.length 0 query.toList).flatMap (Piece.fill (nested texts)) =
          (pieces texts.length 0 query.toList).flatMap Piece.spell := by
        rw [toList_substitute h, flatMap_spell]
    _ ↔ ∀ i, .hole i ∉ pieces texts.length 0 query.toList := flatMap_fill_eq_iff hheads
    _ ↔ ∀ j < texts.length, ¬ (placeholder (j + 1)).toList <:+: query.toList := by
        rw [← not_exists, exists_hole_iff]
        simp only [not_exists, not_and]

lemma simultaneous_placeholder {k : Nat} (hk : k < us.length) :
    simultaneous us (placeholder (k + 1)) = us[k] := by
  have hindex : index? us.length (digits k ++ []) = some k := by
    rw [List.append_nil, index?_eq_some]
    exact ⟨hk, List.prefix_rfl, fun j _ hj => le_of_prefix hj⟩
  have hpieces : pieces us.length 0 (placeholder (k + 1)).toList = [.hole k] := by
    rw [toList_placeholder, ← List.append_nil (digits k), pieces_hole hindex]
    rfl
  rw [simultaneous, hpieces, List.flatMap_singleton, Piece.fill, List.getD_eq_getElem _ _ hk,
    String.ofList_toList]

/-- Nothing changes for the texts exactly if none has the placeholder of one before it in it. -/
lemma simultaneous_iff (h : ∀ x ∈ texts, Sealed x.toList) :
    (∀ query, substitute texts query = simultaneous texts query) ↔
      ∀ k (hk : k < texts.length), ∀ j < k,
        ¬ (placeholder (j + 1)).toList <:+: texts[k].toList := by
  have htake (k : Nat) : ∀ x ∈ texts.take k, Sealed x.toList :=
    fun x hx => h x (List.mem_of_mem_take hx)
  have hself {k : Nat} (hk : k < texts.length) : substitute (texts.take k) texts[k] = texts[k] ↔
      ∀ j < k, ¬ (placeholder (j + 1)).toList <:+: texts[k].toList := by
    rw [substitute_eq_self_iff (htake k), List.length_take, Nat.min_eq_left (Nat.le_of_lt hk)]
  constructor
  · intro hall k hk
    have halone := hall (placeholder (k + 1))
    rw [substitute_eq_nested h, simultaneous_placeholder (by simpa using hk), getElem_nested hk,
      simultaneous_placeholder hk] at halone
    exact (hself hk).1 halone
  · intro hnone query
    have hnested : nested texts = texts := by
      refine List.ext_getElem length_nested fun k hk hk' => ?_
      rw [getElem_nested hk', (hself hk').2 (hnone k hk')]
    rw [substitute_eq_nested h, hnested]

/-! ### The texts of values -/

/-- A character that no placeholder has, and no percent sign behind it. -/
lemma all_isDigit_of_suffix {a b ds : List Char} (hc : c.isDigit = false) (hne : c ≠ '%')
    (hb : '%' ∉ b) (h : '%' :: ds <:+ a ++ c :: b) : ds.all Char.isDigit = false := by
  obtain ⟨before, hbefore⟩ := h
  rcases List.append_eq_append_iff.1 hbefore with ⟨mid, rfl, hmid⟩ | ⟨mid, rfl, hmid⟩
  · cases mid with
    | nil => exact absurd (List.cons.inj hmid).1.symm hne
    | cons d mid =>
      rw [(List.cons.inj hmid).2]
      simp [hc]
  · cases mid with
    | nil => exact absurd (List.cons.inj hmid).1 hne
    | cons d mid =>
      refine absurd ?_ hb
      rw [(List.cons.inj hmid).2]
      simp

/-- Behind a character that no placeholder has there is no percent sign. -/
def Shut (t : List Char) : Prop :=
  ∃ a c b, t = a ++ c :: b ∧ c.isDigit = false ∧ c ≠ '%' ∧ '%' ∉ b

lemma Shut.last {ds : List Char} (h : Shut t) (hds : '%' :: ds <:+ t) :
    ds.all Char.isDigit = false := by
  obtain ⟨a, c, b, rfl, hc, hne, hb⟩ := h
  exact all_isDigit_of_suffix hc hne hb hds

lemma Shut.append (h : Shut t) (before : List Char) : Shut (before ++ t) := by
  obtain ⟨a, c, b, rfl, hc, hne, hb⟩ := h
  exact ⟨before ++ a, c, b, (List.append_assoc ..).symm, hc, hne, hb⟩

/-- No declared prefix begins with a digit or with a percent sign. -/
def PrefixesApart (p : Prefixes) : Prop :=
  ∀ e ∈ p.entries, ∀ c ∈ e.1.toList.head?, c.isDigit = false ∧ c ≠ '%'

instance {p : Prefixes} : Decidable (PrefixesApart p) :=
  decidable_of_iff (∀ e ∈ p.entries, e.1.toList.head?.all fun c => !c.isDigit && c != '%')
    (by simp [PrefixesApart, Option.all_eq_true])

variable {p : Prefixes} {iri s : String}

lemma shut_compact : Shut (p.compact iri).toList := by
  rcases p.compact_cases iri with heq | ⟨name, ns, rest, -, -, hplain, heq⟩
  · exact ⟨("<" ++ iri).toList, '>', [], by simp [heq], by decide, by decide, by simp⟩
  · refine ⟨name.toList, ':', rest, by simp [heq], by decide, by decide, fun hmem => ?_⟩
    exact absurd (hplain _ hmem) (by decide)

lemma sealed_compact (hp : PrefixesApart p) : Sealed (p.compact iri).toList := by
  refine ⟨?_, fun ds => shut_compact.last⟩
  rcases p.compact_cases iri with heq | ⟨name, ns, rest, hmem, -, -, heq⟩
  · exact ⟨'<', by simp [heq], by decide, by decide⟩
  · cases hname : name.toList with
    | nil => exact ⟨':', by simp [heq, hname], by decide, by decide⟩
    | cons c cs => exact ⟨c, by simp [heq, hname], hp _ hmem c (by simp [hname])⟩

lemma sealed_literal {datatype : String} :
    Sealed ((Term.typed s datatype).turtle p).toList := by
  have hquote : Shut (quote s).toList :=
    ⟨'"' :: (escape s).toList, '"', [], by simp [quote], by decide, by decide, by simp⟩
  rw [Term.typed, Term.turtle, if_neg (by decide)]
  split_ifs
  · exact ⟨⟨'"', by simp [quote], by decide, by decide⟩, fun ds => hquote.last⟩
  · refine ⟨⟨'"', by simp [quote], by decide, by decide⟩, fun ds => Shut.last ?_⟩
    rw [String.toList_append]
    exact shut_compact.append _

lemma sealed_of_lift? {names : Lift.Namespaces} {v : Value} {a : Term} (hp : PrefixesApart p)
    (h : names.lift? v = some a) : Sealed (a.turtle p).toList := by
  cases v with
  | null => cases h
  | object r =>
    cases h
    exact sealed_compact hp
  | _ =>
    cases h
    exact sealed_literal

lemma sealed_of_parameterTexts {names : Lift.Namespaces} {vs : List Value} (hp : PrefixesApart p)
    (h : parameterTexts names p vs = .ok texts) : ∀ x ∈ texts, Sealed x.toList := by
  intro x hx
  obtain ⟨⟨v, i⟩, -, hv⟩ := exists_of_mem_mapM h hx
  unfold parameterText at hv
  dsimp only at hv
  split at hv
  · rename_i a ha
    cases hv
    exact sealed_of_lift? hp ha
  · cases hv

/-- **When parameters are put in all at once.** The texts of the values of an access are put into
every query as if at once, exactly if none of them has the placeholder of a parameter before it in
it: that would be filled as well. -/
theorem substitute_eq_simultaneous_iff {names : Lift.Namespaces} {vs : List Value}
    (hp : PrefixesApart p) (h : parameterTexts names p vs = .ok texts) :
    (∀ query, substitute texts query = simultaneous texts query) ↔
      ∀ k (hk : k < texts.length), ∀ j < k,
        ¬ (placeholder (j + 1)).toList <:+: texts[k].toList :=
  simultaneous_iff (sealed_of_parameterTexts hp h)

def accessNames : Lift.Namespaces := ⟨"urn:prog#", "urn:run#", "urn:smol#", "urn:dom#"⟩

/-- A placeholder in the text of a parameter is left alone if its own parameter comes later. -/
theorem substitute_eq_simultaneous_iff_later : PrefixesApart Prefixes.standard ∧
    ∃ texts, parameterTexts accessNames Prefixes.standard [.str "%2", .int 42] = .ok texts ∧
      texts = ["\"%2\"", "\"42\"^^xsd:integer"] ∧
      (∀ query, substitute texts query = simultaneous texts query) ∧
      substitute texts "%1 %2 %3" = "\"%2\" \"42\"^^xsd:integer %3" := by
  have hp : PrefixesApart Prefixes.standard := by decide +kernel
  have htexts : parameterTexts accessNames Prefixes.standard [.str "%2", .int 42] =
      .ok ["\"%2\"", "\"42\"^^xsd:integer"] := by decide +kernel
  exact ⟨hp, _, htexts, rfl, (substitute_eq_simultaneous_iff hp htexts).2 (by decide +kernel),
    by decide +kernel⟩

def accessQuery : String := "SELECT ?obj WHERE \x7b ?obj prog:A_x %1 . ?obj prog:A_y %2 . \x7d"

/-- The placeholder of the first parameter is filled within the text of the second. -/
theorem inserted_text_filled : ∃ texts,
    parameterTexts accessNames Prefixes.standard [.str "one", .str "%1"] = .ok texts ∧
      simultaneous texts accessQuery = "SELECT ?obj WHERE \x7b ?obj prog:A_x \"one\" . " ++
        "?obj prog:A_y \"%1\" . \x7d" ∧
      substitute texts accessQuery = "SELECT ?obj WHERE \x7b ?obj prog:A_x \"one\" . " ++
        "?obj prog:A_y \"\"one\"\" . \x7d" := by
  have htexts : parameterTexts accessNames Prefixes.standard [.str "one", .str "%1"] =
      .ok ["\"one\"", "\"%1\""] := by decide +kernel
  exact ⟨_, htexts, by decide +kernel, by decide +kernel⟩

end Semlift.Run
