import Mathlib.Data.Prod.Lex
import Mathlib.Order.Compare
import Mathlib.Tactic.Lemma
import Semlift.Number.Double

/-!
The order of doubles. What is no number is less than nothing and nothing is less than it. The other
doubles are ordered by a weight: the two infinities are outermost, zeros are in the middle whatever
their sign, and between them a number is ordered by its exponent and then by its mantissa.
-/

namespace Semlift.Number

open Float.Model

variable {u v : UnpackedFloat} {x y z : Double}

/-! ### Weights -/

/-- The place of a number among the others. -/
def weight : UnpackedFloat → ℤ ×ₗ ℤ ×ₗ ℤ
  | .infinity .positive => toLex (2, toLex (0, 0))
  | .finite .positive m e _ => toLex (1, toLex (e, m))
  | .zero _ | .notANumber => toLex (0, toLex (0, 0))
  | .finite .negative m e _ => toLex (-1, toLex (-e, -m))
  | .infinity .negative => toLex (-2, toLex (0, 0))

/-- Of one sign, exponents decide, and between equal ones mantissas. -/
lemma weight_finite_lt {m n : ℕ} {d e : ℤ} (k : ℤ) :
    toLex (k, toLex (d, (m : ℤ))) < toLex (k, toLex (e, (n : ℤ))) ↔
      (compare d e).then (compare m n) = .lt := by
  rw [Ordering.then_eq_lt, compare_lt_iff_lt, compare_eq_iff_eq, compare_lt_iff_lt]
  simp [Prod.Lex.toLex_lt_toLex]

lemma weight_finite_gt {m n : ℕ} {d e : ℤ} (k : ℤ) :
    toLex (k, toLex (-d, -(m : ℤ))) < toLex (k, toLex (-e, -(n : ℤ))) ↔
      ((compare d e).then (compare m n)).swap = .lt := by
  rw [Ordering.swap_eq_lt, Ordering.then_eq_gt, compare_gt_iff_gt, compare_eq_iff_eq,
    compare_gt_iff_gt]
  simp [Prod.Lex.toLex_lt_toLex]

/-- Numbers are ordered by their weights. -/
lemma lt_eq_true_iff (hu : u ≠ .notANumber) (hv : v ≠ .notANumber) :
    u.lt v = true ↔ weight u < weight v := by
  rw [UnpackedFloat.lt, beq_iff_eq]
  cases u with
  | notANumber => exact absurd rfl hu
  | infinity s =>
    cases v with
    | notANumber => exact absurd rfl hv
    | infinity t => cases s <;> cases t <;> decide
    | zero t =>
      cases s <;> dsimp only [UnpackedFloat.compare, weight] <;> simp [Prod.Lex.toLex_lt_toLex]
    | finite t =>
      cases s <;> cases t <;> dsimp only [UnpackedFloat.compare, weight] <;>
        simp [Prod.Lex.toLex_lt_toLex]
  | zero s =>
    cases v with
    | notANumber => exact absurd rfl hv
    | infinity t =>
      cases t <;> dsimp only [UnpackedFloat.compare, weight] <;> simp [Prod.Lex.toLex_lt_toLex]
    | zero t => exact iff_of_false nofun (lt_irrefl _)
    | finite t =>
      cases t <;> dsimp only [UnpackedFloat.compare, weight] <;> simp [Prod.Lex.toLex_lt_toLex]
  | finite s m d =>
    cases v with
    | notANumber => exact absurd rfl hv
    | infinity t =>
      cases s <;> cases t <;> dsimp only [UnpackedFloat.compare, weight] <;>
        simp [Prod.Lex.toLex_lt_toLex]
    | zero t =>
      cases s <;> dsimp only [UnpackedFloat.compare, weight] <;> simp [Prod.Lex.toLex_lt_toLex]
    | finite t n e =>
      cases s <;> cases t
      case positive.positive => exact Option.some_inj.trans (weight_finite_lt 1).symm
      case negative.negative => exact Option.some_inj.trans (weight_finite_gt (-1)).symm
      all_goals
        dsimp only [UnpackedFloat.compare, weight]
        simp [Prod.Lex.toLex_lt_toLex]

lemma lt_notANumber : u.lt .notANumber = false := by
  cases u <;> rfl

lemma notANumber_lt : UnpackedFloat.lt .notANumber v = false := rfl

/-! ### What is no number -/

section Bits

open UnpackedFloat hiding unpack pack

variable {f : Format}

/-- The bits of what is no number: an exponent of ones and some mantissa. -/
lemma unpack_eq_notANumber {b : BitVec f.numBits} (h : UnpackedFloat.unpack f b = .notANumber) :
    unpackExponent b = -1#_ ∧ unpackMantissa b ≠ 0#_ := by
  unfold UnpackedFloat.unpack at h
  dsimp only at h
  by_cases hexp : unpackExponent b = -1#_
  · rw [if_pos hexp] at h
    refine ⟨hexp, fun hman => ?_⟩
    rw [if_pos hman] at h
    cases h
  · rw [if_neg hexp] at h
    by_cases hzero : unpackExponent b = 0#_
    · rw [if_pos hzero] at h
      by_cases hman : unpackMantissa b = 0#_
      · rw [dif_pos hman] at h
        cases h
      · rw [dif_neg hman] at h
        cases h
    · rw [if_neg hzero] at h
      cases h

/-- Numbers with an exponent of ones are packed without a mantissa. -/
lemma unpackMantissa_pack (hu : u ≠ .notANumber) :
    unpackExponent (UnpackedFloat.pack f u) = -1#_ →
      unpackMantissa (UnpackedFloat.pack f u) = 0#_ := by
  fun_cases UnpackedFloat.pack with
  | case1 => exact absurd rfl hu
  | case2 s => simp [packedInfinity]
  | case3 s => simp [packedZero]
  | case4 s m e hm biased hle => simp [packedInfinity]
  | case5 s m e hm bits biased hlt hnormal =>
    intro hexp
    have hones := congrArg BitVec.toNat hexp
    have hsmall : biased < 2 ^ f.exponentBits := by omega
    simp [BitVec.neg_one_eq_allOnes, Nat.mod_eq_of_lt hsmall] at hones
    omega
  | case6 s m e hm bits biased hlt hsubnormal =>
    intro hexp
    have hones := congrArg BitVec.toNat hexp
    have hone : 2 ^ 1 ≤ 2 ^ f.exponentBits := Nat.pow_le_pow_right (by omega) f.he
    simp [BitVec.neg_one_eq_allOnes] at hones
    omega

/-- Packing a number makes the bits of a number. -/
lemma unpack_pack_ne (hu : u ≠ .notANumber) :
    UnpackedFloat.unpack f (UnpackedFloat.pack f u) ≠ .notANumber := by
  intro h
  obtain ⟨hexp, hman⟩ := unpack_eq_notANumber h
  exact hman (unpackMantissa_pack hu hexp)

/-- A double is a number unless its bits are above those of infinity. -/
lemma unpack_bits_ne (hx : x.isNaN = false) :
    UnpackedFloat.unpack Format.binary64 x.bits.toBitVec ≠ .notANumber := by
  intro h
  obtain ⟨hexp, hman⟩ := unpack_eq_notANumber h
  have hones := congrArg BitVec.toNat hexp
  have hsome : 0 < (@unpackMantissa .binary64 x.bits.toBitVec).toNat :=
    BitVec.toNat_pos_of_ne_zero hman
  have hlt := x.bits.toNat_lt
  simp [unpackExponent, unpackMantissa, Nat.shiftRight_eq_div_pow] at hones hsome
  have hsmall : x.bits.toNat % signBit ≤ infinityBits := by
    rw [Double.isNaN, decide_eq_false_iff_not, not_lt] at hx
    exact hx
  unfold signBit infinityBits at hsmall
  omega

end Bits

/-! ### Doubles -/

namespace Double

/-- The place of a double among the others. -/
def weight (x : Double) : ℤ ×ₗ ℤ ×ₗ ℤ := Number.weight x.toFloat.toModel.unpack

lemma less_eq : x.less y = x.toFloat.toModel.unpack.lt y.toFloat.toModel.unpack := by
  rw [Bool.eq_iff_iff, less, decide_eq_true_iff]
  show decide (x.toFloat.toModel < y.toFloat.toModel) = true ↔ _
  rw [decide_eq_true_iff]
  rfl

/-- A double that is a number is a number among the floating-point numbers. -/
lemma unpack_ne_notANumber (hx : x.isNaN = false) :
    x.toFloat.toModel.unpack ≠ .notANumber :=
  unpack_pack_ne (f := .binary64) (unpack_bits_ne hx)

/-- **Numbers are ordered by weight.** -/
theorem less_eq_true_iff (hx : x.isNaN = false) (hy : y.isNaN = false) :
    x.less y = true ↔ x.weight < y.weight := by
  rw [less_eq]
  exact lt_eq_true_iff (unpack_ne_notANumber hx) (unpack_ne_notANumber hy)

/-- Of two doubles at most one is less than the other, also if they are no numbers. -/
lemma less_asymm (h : x.less y = true) : y.less x = false := by
  rw [less_eq] at h ⊢
  by_cases hx : x.toFloat.toModel.unpack = .notANumber
  · rw [hx, notANumber_lt] at h
    cases h
  by_cases hy : y.toFloat.toModel.unpack = .notANumber
  · rw [hy, lt_notANumber] at h
    cases h
  rw [lt_eq_true_iff hx hy] at h
  rw [Bool.eq_false_iff, Ne, lt_eq_true_iff hy hx]
  exact not_lt_of_gt h

lemma less_self : x.less x = false := by
  cases h : x.less x with
  | false => rfl
  | true => rw [← h, less_asymm h]

lemma order_swap : y.order x = (x.order y).swap := by
  unfold order
  cases hxy : x.less y with
  | true => simp [less_asymm hxy]
  | false => cases y.less x <;> rfl

lemma isLE_order : (x.order y).isLE ↔ y.less x = false := by
  unfold order
  cases hxy : x.less y with
  | true => simp [less_asymm hxy]
  | false => cases y.less x <;> simp

/-- Not being less is transitive for numbers. -/
lemma less_trans_false (hx : x.isNaN = false) (hy : y.isNaN = false) (hz : z.isNaN = false)
    (hxy : y.less x = false) (hyz : z.less y = false) : z.less x = false := by
  rw [Bool.eq_false_iff, Ne, less_eq_true_iff hy hx, not_lt] at hxy
  rw [Bool.eq_false_iff, Ne, less_eq_true_iff hz hy, not_lt] at hyz
  rw [Bool.eq_false_iff, Ne, less_eq_true_iff hz hx, not_lt]
  exact hxy.trans hyz

end Double

end Semlift.Number
