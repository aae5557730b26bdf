import Semlift.Proofs.Number.Order
import Semlift.Number.Truncate

/-!
Equality of doubles. What is no number equals nothing; numbers are equal if their weights are, so
equality is transitive. A comparison that says of two doubles which one is less counts those as
equal of which neither is, and so what is no number with everything.
-/

namespace Semlift.Number

open Float.Model

variable {u v : UnpackedFloat} {x y z : Double}

/-! ### Equality -/

lemma compare_swap : v.compare u = (u.compare v).map Ordering.swap := by
  cases u with
  | notANumber => cases v <;> rfl
  | infinity s =>
    cases v with
    | infinity t => cases s <;> cases t <;> rfl
    | notANumber | zero | finite => cases s <;> rfl
  | zero s =>
    cases v with
    | infinity t | finite t => cases t <;> rfl
    | notANumber | zero => rfl
  | finite s m d =>
    cases v with
    | notANumber => rfl
    | infinity t | zero t => cases s <;> cases t <;> rfl
    | finite t n e =>
      have hswap : (compare e d).then (compare n m) = ((compare d e).then (compare m n)).swap := by
        rw [Ordering.swap_then, ← Int.compare_swap, Nat.compare_swap]
      cases s with
      | positive =>
        cases t with
        | positive => exact congrArg some hswap
        | negative => rfl
      | negative =>
        cases t with
        | positive => rfl
        | negative => exact congrArg some (congrArg Ordering.swap hswap)

lemma compare_isSome (hu : u ≠ .notANumber) (hv : v ≠ .notANumber) :
    ∃ o, u.compare v = some o := by
  unfold UnpackedFloat.compare
  split
  · exact absurd rfl hu
  · exact absurd rfl hv
  all_goals exact ⟨_, rfl⟩

/-- Two numbers are equal if neither is less than the other. -/
lemma beq_eq (hu : u ≠ .notANumber) (hv : v ≠ .notANumber) :
    u.beq v = (!u.lt v && !v.lt u) := by
  obtain ⟨o, ho⟩ := compare_isSome hu hv
  unfold UnpackedFloat.beq UnpackedFloat.lt
  rw [@compare_swap u v, ho]
  cases o <;> rfl

namespace Double

lemma same_eq : x.same y = x.toFloat.toModel.unpack.beq y.toFloat.toModel.unpack := rfl

/-- A double that is a number. -/
def IsNumber (x : Double) : Prop := x.toFloat.toModel.unpack ≠ .notANumber

lemma isNumber_of_isNaN (hx : x.isNaN = false) : x.IsNumber := unpack_ne_notANumber hx

/-- What is equal to anything is a number. -/
lemma isNumber_of_same (h : x.same y = true) : x.IsNumber ∧ y.IsNumber := by
  rw [same_eq] at h
  constructor
  · intro hx
    rw [hx] at h
    cases h
  · intro hy
    rw [hy] at h
    revert h
    cases x.toFloat.toModel.unpack <;> exact Bool.noConfusion

lemma IsNumber.less_iff (hx : x.IsNumber) (hy : y.IsNumber) :
    x.less y = true ↔ x.weight < y.weight := by
  rw [less_eq]
  exact lt_eq_true_iff hx hy

lemma IsNumber.same_iff (hx : x.IsNumber) (hy : y.IsNumber) :
    x.same y = true ↔ x.weight = y.weight := by
  rw [same_eq, beq_eq hx hy, ← less_eq, ← less_eq, Bool.and_eq_true, Bool.not_eq_true',
    Bool.not_eq_true', Bool.eq_false_iff, Bool.eq_false_iff, Ne, Ne, hx.less_iff hy, hy.less_iff hx,
    not_lt, not_lt]
  exact ⟨fun h => le_antisymm h.2 h.1, fun h => ⟨h.ge, h.le⟩⟩

/-- Equal are the numbers that are ordered as equal. -/
lemma IsNumber.order_eq_iff (hx : x.IsNumber) (hy : y.IsNumber) :
    x.order y = .eq ↔ x.same y = true := by
  rw [same_eq, beq_eq hx hy, ← less_eq, ← less_eq]
  unfold order
  cases x.less y <;> cases y.less x <;> simp

/-- Equality is transitive, also where it holds of nothing. -/
lemma same_trans (hxy : x.same y = true) (hyz : y.same z = true) : x.same z = true := by
  obtain ⟨hx, hy⟩ := isNumber_of_same hxy
  obtain ⟨-, hz⟩ := isNumber_of_same hyz
  rw [hx.same_iff hz, (hx.same_iff hy).1 hxy, (hy.same_iff hz).1 hyz]

lemma order_of_not_isNumber (h : ¬ (x.IsNumber ∧ y.IsNumber)) : x.order y = .eq := by
  have hless : x.less y = false ∧ y.less x = false := by
    rw [less_eq, less_eq]
    by_cases hx : x.IsNumber
    · have hy : y.toFloat.toModel.unpack = .notANumber :=
        not_not.1 fun hy => h ⟨hx, hy⟩
      rw [hy]
      exact ⟨lt_notANumber, notANumber_lt⟩
    · have hx : x.toFloat.toModel.unpack = .notANumber := not_not.1 hx
      rw [hx]
      exact ⟨notANumber_lt, lt_notANumber⟩
  simp [order, hless]

/-- Being ordered as equal goes on past a number. -/
lemma IsNumber.order_trans (hy : y.IsNumber) (hxy : x.order y = .eq) (hyz : y.order z = .eq) :
    x.order z = .eq := by
  by_cases h : x.IsNumber ∧ z.IsNumber
  · rw [h.1.order_eq_iff hy] at hxy
    rw [hy.order_eq_iff h.2] at hyz
    exact (h.1.order_eq_iff h.2).2 (same_trans hxy hyz)
  · exact order_of_not_isNumber h

/-! ### Integers as doubles -/

lemma isNumber_ofFloat {x : Float} (h : x.toModel.unpack ≠ .notANumber) :
    (ofFloat x).IsNumber := unpack_pack_ne h

lemma roundWithAccuracy_ne {s : UnpackedFloat.Sign} {m : ℕ} {e : ℤ}
    {r : UnpackedFloat.Accuracy} :
    UnpackedFloat.roundWithAccuracy .binary64 s m e r ≠ .notANumber := by
  intro h
  unfold UnpackedFloat.roundWithAccuracy at h
  rcases dite_eq_iff.1 h with ⟨_, heq⟩ | ⟨_, heq⟩ <;> cases heq

lemma mul_finite_ne {m : ℕ} {e : ℤ} {s : UnpackedFloat.Sign} {hm : 0 < m}
    (hu : u ≠ .notANumber) :
    UnpackedFloat.mul .binary64 u (.finite s m e hm) ≠ .notANumber := by
  cases u with
  | notANumber => exact absurd rfl hu
  | infinity t | zero t =>
    intro h
    cases h
  | finite t n d => exact roundWithAccuracy_ne

lemma normalize_ne {n : ℤ} {s : UnpackedFloat.Sign} :
    UnpackedFloat.normalize .binary64 n 0 s ≠ .notANumber := by
  have hround {t : UnpackedFloat.Sign} {m : ℕ} :
      UnpackedFloat.round .binary64 t m 0 ≠ .notANumber := roundWithAccuracy_ne
  unfold UnpackedFloat.normalize
  split
  · exact hround
  · exact UnpackedFloat.noConfusion
  · exact hround

lemma ofNat_ne (n : ℕ) : (Float.ofNat n).toModel.unpack ≠ .notANumber := by
  unfold Float.ofNat OfScientific.ofScientific instOfScientificFloat Float.ofScientific
  dsimp only
  split
  · have hone : Float.exactlyRepresentablePowersOfTen[0].toModel.unpack =
        .finite .positive (2 ^ 52) (-52) (by decide) := rfl
    refine unpack_pack_ne (f := .binary64) ?_
    show UnpackedFloat.mul _ _ Float.exactlyRepresentablePowersOfTen[0].toModel.unpack ≠ _
    rw [hone]
    exact mul_finite_ne (unpack_pack_ne (f := .binary64) normalize_ne)
  · refine unpack_pack_ne (f := .binary64) ?_
    unfold UnpackedFloat.ofScientific
    by_cases hn : n = 0
    · rw [dif_pos hn]
      exact UnpackedFloat.noConfusion
    · have hlog : ¬ (if false = true then Int.negOfNat 0 else Int.ofNat 0) <
          -(2 ^ Format.binary64.exponentBits + (n.log2 : ℤ)) := by
        have hbits : (2 : ℤ) ^ Format.binary64.exponentBits = 2048 := by decide
        show ¬ (0 : ℤ) < _
        omega
      rw [dif_neg hn, if_neg (by decide), if_neg hlog, if_pos (by decide)]
      exact mul_finite_ne UnpackedFloat.noConfusion

lemma isNumber_ofInt64 (n : Int64) : (ofInt64 n).IsNumber := by
  refine isNumber_ofFloat ?_
  unfold Float.ofInt
  split
  · exact ofNat_ne _
  · refine unpack_pack_ne (f := .binary64) ?_
    have h := ofNat_ne (Nat.succ ‹_›)
    revert h
    cases (Float.ofNat (Nat.succ _)).toModel.unpack with
    | notANumber => exact fun h => absurd rfl h
    | infinity | zero | finite => exact fun _ => UnpackedFloat.noConfusion

end Double

end Semlift.Number
