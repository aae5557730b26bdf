import Semlift.Lift.Names
import Semlift.Proofs.Number.Nearest
import Semlift.Query.Filter

/-!
Integers in filters. A filter reads the literal of an integer as a double and goes on with that, in
comparisons as it is and in sums, differences and products without its fraction. So it takes every
integer for the one of 53 digits that is nearest to it.
-/

namespace Semlift.Query

open Semlift.Lift Semlift.Number Semlift.Rdf

variable {x y z : Int64} {i j : ℤ} {r : Relation} {o : Operation} {b : Binding}

/-! ### Literals of integers -/

lemma intText_injective : Function.Injective intText := by
  intro i j h
  have htake := congrArg (fun s => takeNumber? s.toList) h
  simp only [takeNumber?_intText, Option.some.injEq, Prod.mk.injEq, Reading.decimal.injEq,
    Decimal.mk.injEq, decide_eq_decide, and_true] at htake
  omega

lemma integer_injective : Function.Injective Term.integer := by
  intro x y h
  have htext : intText x.toInt = intText y.toInt := by simpa [Term.integer, Term.typed] using h
  exact Int64.toInt_inj.1 (intText_injective htext)

lemma boolean_injective : Function.Injective Term.boolean := by
  unfold Function.Injective
  decide

lemma natAbs_toInt_le : x.toInt.natAbs ≤ 2 ^ 63 := by
  have := x.toInt_lt
  have := x.le_toInt
  omega

/-- The number that the literal of an integer spells. -/
lemma number?_integer : ∃ d, (Term.integer x).number? = some d ∧ Whole d (roundInt x.toInt) := by
  obtain ⟨d, hd, hwhole⟩ := readDouble?_intText (i := x.toInt)
    (Nat.lt_of_le_of_lt natAbs_toInt_le (by decide))
  refine ⟨d, ?_, hwhole⟩
  have hplain : ∀ cs, (intText x.toInt).toList ≠ '+' :: cs := by
    intro cs h
    have htake := takeNumber?_intText (i := x.toInt)
    rw [h] at htake
    cases htake
  unfold Term.number? Term.integer Term.typed
  dsimp only
  rw [if_pos (by decide)]
  split
  · rename_i cs h
    exact absurd h (hplain cs)
  · exact hd

/-! ### What filters make of them -/

/-- The exact sum, difference or product. -/
def Operation.exact : Operation → ℤ → ℤ → Option ℤ
  | .add, i, j => some (i + j)
  | .sub, i, j => some (i - j)
  | .mul, i, j => some (i * j)
  | .div, _, _ => none

lemma relate?_integer : relate? r (.integer x) (.integer y) =
    some (.boolean (r.holds (compare (roundInt x.toInt) (roundInt y.toInt)))) := by
  obtain ⟨d, hd, hx⟩ := number?_integer (x := x)
  obtain ⟨e, he, hy⟩ := number?_integer (x := y)
  have hcompare : compare? (.integer x) (.integer y) =
      some (compare (roundInt x.toInt) (roundInt y.toInt)) := by
    rw [← hx.order hy]
    simp [compare?, hd, he]
  have hequal : equal (.integer x) (.integer y) =
      (compare (roundInt x.toInt) (roundInt y.toInt)).isEq := by
    show (compare? (.integer x) (.integer y) == some .eq) = _
    rw [hcompare]
    cases compare (roundInt x.toInt) (roundInt y.toInt) <;> rfl
  cases r with
  | eq => rw [relate?, hequal]; rfl
  | ne =>
    rw [relate?, hequal]
    cases compare (roundInt x.toInt) (roundInt y.toInt) <;> rfl
  | lt | le | gt | ge => simp [relate?, hcompare]

lemma operate?_integer (ho : o.exact (roundInt x.toInt) (roundInt y.toInt) = some i) :
    operate? o (.integer x) (.integer y) = some (.integer (Int64.ofInt i)) := by
  obtain ⟨d, hd, hx⟩ := number?_integer (x := x)
  obtain ⟨e, he, hy⟩ := number?_integer (x := y)
  have hx := hx.truncate (natAbs_roundInt_le natAbs_toInt_le)
  have hy := hy.truncate (natAbs_roundInt_le natAbs_toInt_le)
  unfold operate?
  rw [hd, he]
  cases o with
  | add =>
    obtain rfl := Option.some_inj.1 ho
    show some (Term.integer (truncate d + truncate e)) = _
    rw [hx, hy, Int64.ofInt_add]
  | sub =>
    obtain rfl := Option.some_inj.1 ho
    show some (Term.integer (truncate d - truncate e)) = _
    rw [hx, hy, Int64.ofInt_sub]
  | mul =>
    obtain rfl := Option.some_inj.1 ho
    show some (Term.integer (truncate d * truncate e)) = _
    rw [hx, hy, Int64.ofInt_mul]
  | div => cases ho

/-! ### Where they are exact -/

/-- Two variables of a row are bound to what two integers are lifted to. -/
structure Row (ns : Namespaces) (b : Binding) (l r : String) (x y : Int64) : Prop where
  left : b.find? l = ns.lift? (.int x)
  right : b.find? r = ns.lift? (.int y)

/-- Every comparison of two integers in a filter agrees with the order of the integers. -/
def Compared (x y : Int64) : Prop :=
  ∀ (ns : Namespaces) (b : Binding) (l r : String), Row ns b l r x y → ∀ rel : Relation,
    (Filter.relate rel (.var l) (.var r)).value? b =
      some (.boolean (rel.holds (compare x.toInt y.toInt)))

/-- The sum, the difference and the product of two integers in a filter are the literals of the
exact ones, where these fit into 64 bits. -/
def Computed (x y : Int64) : Prop :=
  ∀ (ns : Namespaces) (b : Binding) (l r : String), Row ns b l r x y →
    ∀ (op : Operation) (z : Int64), op.exact x.toInt y.toInt = some z.toInt →
      (Filter.operate op (.var l) (.var r)).value? b = some (.integer z)

lemma Row.relate {ns : Namespaces} {l k : String} (h : Row ns b l k x y) :
    (Filter.relate r (.var l) (.var k)).value? b = relate? r (.integer x) (.integer y) := by
  simp only [Filter.value?, h.left, h.right]
  rfl

lemma Row.operate {ns : Namespaces} {l k : String} (h : Row ns b l k x y) :
    (Filter.operate o (.var l) (.var k)).value? b = operate? o (.integer x) (.integer y) := by
  simp only [Filter.value?, h.left, h.right]
  rfl

lemma exists_row (x y : Int64) : ∃ ns b l r, Row ns b l r x y :=
  ⟨⟨"", "", "", ""⟩, [("l", .integer x), ("r", .integer y)], "l", "r", rfl, rfl⟩

/-- Rounding tells two integers apart, or they are compared as equal. -/
lemma compare_roundInt_iff : compare (roundInt i) (roundInt j) = compare i j ↔
    i = j ∨ roundInt i ≠ roundInt j := by
  rcases lt_trichotomy i j with h | rfl | h
  · rw [compare_lt_iff_lt.2 h, compare_lt_iff_lt, or_iff_right h.ne]
    exact (roundInt_mono h.le).lt_iff_ne
  · exact iff_of_true (by rw [compare_eq_iff_eq.2 rfl, compare_eq_iff_eq.2 rfl]) (.inl rfl)
  · rw [compare_gt_iff_gt.2 h, compare_gt_iff_gt, or_iff_right h.ne']
    exact (roundInt_mono h.le).lt_iff_ne.trans ne_comm

lemma compared_iff : Compared x y ↔ x = y ∨ roundInt x.toInt ≠ roundInt y.toInt := by
  rw [← Int64.toInt_inj, ← compare_roundInt_iff]
  constructor
  · intro h
    obtain ⟨ns, b, l, r, hrow⟩ := exists_row x y
    have hholds (rel : Relation) : rel.holds (compare (roundInt x.toInt) (roundInt y.toInt)) =
        rel.holds (compare x.toInt y.toInt) := by
      have hvalue := h ns b l r hrow rel
      rw [hrow.relate, relate?_integer] at hvalue
      exact boolean_injective (Option.some_inj.1 hvalue)
    have hlt := hholds .lt
    have hgt := hholds .gt
    revert hlt hgt
    generalize compare (roundInt x.toInt) (roundInt y.toInt) = o
    generalize compare x.toInt y.toInt = o'
    revert o o'
    decide
  · intro h ns b l r hrow rel
    rw [hrow.relate, relate?_integer, h]

lemma computed_iff : Computed x y ↔ ∀ (op : Operation) (z : Int64),
    op.exact x.toInt y.toInt = some z.toInt →
      ∃ i, op.exact (roundInt x.toInt) (roundInt y.toInt) = some i ∧ Int64.ofInt i = z := by
  have hexact {op : Operation} {k : ℤ} (hk : op.exact x.toInt y.toInt = some k) :
      ∃ i, op.exact (roundInt x.toInt) (roundInt y.toInt) = some i := by
    cases op with
    | add | sub | mul => exact ⟨_, rfl⟩
    | div => cases hk
  constructor
  · intro h op z hz
    obtain ⟨ns, b, l, r, hrow⟩ := exists_row x y
    obtain ⟨i, hi⟩ := hexact hz
    have hvalue := h ns b l r hrow op z hz
    rw [hrow.operate, operate?_integer hi] at hvalue
    exact ⟨i, hi, integer_injective (Option.some_inj.1 hvalue)⟩
  · intro h ns b l r hrow op z hz
    obtain ⟨i, hi, rfl⟩ := h op z hz
    rw [hrow.operate, operate?_integer hi]

lemma exact_of_le (hx : x.toInt.natAbs ≤ 2 ^ 53) (hy : y.toInt.natAbs ≤ 2 ^ 53) :
    Compared x y ∧ Computed x y := by
  rw [compared_iff, computed_iff, roundInt_of_le hx, roundInt_of_le hy]
  refine ⟨?_, fun op z hz => ⟨z.toInt, hz, Int64.ofInt_toInt z⟩⟩
  rw [Ne, Int64.toInt_inj]
  exact em (x = y)

/-- **Filters take integers for the nearest ones of 53 digits.** Two integers are compared as they
are if these are apart, and a sum, a difference or a product is exact if it is the one of these, in
64 bits. So filters are exact for all integers up to a bound just if the bound is at most two to the
power of 53. -/
theorem integers_exact_iff (x y : Int64) (n : ℕ) :
    (Compared x y ↔ x = y ∨ roundInt x.toInt ≠ roundInt y.toInt) ∧
    (Computed x y ↔ ∀ (op : Operation) (z : Int64),
      op.exact x.toInt y.toInt = some z.toInt →
        ∃ i, op.exact (roundInt x.toInt) (roundInt y.toInt) = some i ∧ Int64.ofInt i = z) ∧
    ((∀ x y : Int64, x.toInt.natAbs ≤ n → y.toInt.natAbs ≤ n → Compared x y ∧ Computed x y) ↔
      n ≤ 2 ^ 53) := by
  refine ⟨compared_iff, computed_iff, fun h => ?_, fun h => ?_⟩
  · by_contra hn
    have hcompared := (h 9007199254740993 9007199254740992
      ((by decide : _ ≤ 2 ^ 53 + 1).trans (by omega)) ((by decide : _ ≤ 2 ^ 53).trans (by omega))).1
    rw [compared_iff] at hcompared
    exact absurd hcompared (by decide +kernel)
  · exact fun x y hx hy => exact_of_le (hx.trans h) (hy.trans h)

/-- Two integers past the bound that rounding keeps apart, and two small ones. -/
theorem integers_exact_iff_apart :
    Compared 9007199254740995 9007199254740992 ∧ Compared 7 (-5) ∧ Computed 7 (-5) ∧
      Computed 9007199254740994 4 := by
  have hsmall := (integers_exact_iff 7 (-5) 7).2.2.2 (by decide) 7 (-5) (by decide) (by decide)
  refine ⟨(integers_exact_iff _ _ 0).1.2 (by decide +kernel), hsmall.1, hsmall.2,
    (integers_exact_iff _ _ 0).2.1.2 fun op z hz => ⟨z.toInt, ?_, Int64.ofInt_toInt z⟩⟩
  rw [← hz]
  cases op <;> decide +kernel

/-- Two integers that differ count as equal, and one more than the larger is the larger. -/
theorem integers_confused :
    (Filter.relate .eq (.var "x") (.var "y")).value?
        [("x", .integer 9007199254740993), ("y", .integer 9007199254740992)] =
      some (.boolean true) ∧
    (Filter.relate .lt (.var "y") (.var "x")).value?
        [("x", .integer 9007199254740993), ("y", .integer 9007199254740992)] =
      some (.boolean false) ∧
    (Filter.operate .add (.var "x") (.var "y")).value?
        [("x", .integer 9007199254740993), ("y", .integer 1)] = some (.integer 9007199254740993) ∧
    (9007199254740992 : Int64) < 9007199254740993 ∧
    (9007199254740993 : Int64).toInt + (1 : Int64).toInt = (9007199254740994 : Int64).toInt := by
  decide +kernel

end Semlift.Query
