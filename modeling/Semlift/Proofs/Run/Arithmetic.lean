import Mathlib.Tactic.Ring
import Semlift.Run.Eval

/-!
The arithmetic of integers in a program. Sums, differences, products and negations are the exact
ones reduced to 64 bits, and so is a quotient, which is exact in all cases but one: the least
integer divided by minus one wraps around to itself. A remainder is exact, smaller than the divisor
and of the sign of the dividend. Put together again, quotient and remainder give the dividend, also
where the quotient has wrapped around.
-/

namespace Semlift.Run

open Semlift.Lang Semlift.Store

variable {a b : Int64} {h : Heap} {f : Frame} {x y : Expr} {v w : Value}

/-! ### Words -/

/-- **Quotient and remainder give the dividend**, each step wrapping around. -/
theorem div_mul_add_mod (a b : Int64) : a / b * b + a % b = a := by
  rw [← Int64.toInt_inj]
  calc (a / b * b + a % b).toInt
      = (((a.toInt.tdiv b.toInt).bmod (2 ^ 64) * b.toInt).bmod (2 ^ 64) +
          a.toInt.tmod b.toInt).bmod (2 ^ 64) := by
        rw [Int64.toInt_add, Int64.toInt_mul, Int64.toInt_div, Int64.toInt_mod]
    _ = (a.toInt.tdiv b.toInt * b.toInt + a.toInt.tmod b.toInt).bmod (2 ^ 64) := by
        rw [Int.bmod_mul_bmod, Int.bmod_add_bmod]
    _ = a.toInt.bmod (2 ^ 64) := by rw [Int.tdiv_mul_add_tmod]
    _ = a.toInt := a.toInt_bmod

/-- **Division is exact** but for the least integer divided by minus one. -/
theorem toInt_div (hcorner : ¬ (a = Int64.minValue ∧ b = -1)) :
    (a / b).toInt = a.toInt.tdiv b.toInt := by
  by_cases ha : a = Int64.minValue
  · exact Int64.toInt_div_of_ne_right a b fun hb => hcorner ⟨ha, hb⟩
  · exact Int64.toInt_div_of_ne_left a b ha

lemma natAbs_mod_lt (hb : b ≠ 0) : (a % b).toInt.natAbs < b.toInt.natAbs := by
  have hpos : 0 < b.toInt.natAbs := Int.natAbs_pos.2 fun he => hb (Int64.toInt_inj.1 he)
  rw [Int64.toInt_mod, Int.natAbs_tmod]
  exact Nat.mod_lt _ hpos

lemma sign_mod (a b : Int64) : a % b = 0 ∨ (a % b).toInt.sign = a.toInt.sign := by
  have hsign := Int.sign_tmod a.toInt b.toInt
  rw [← Int64.toInt_mod] at hsign
  split at hsign
  · exact .inl (Int64.toInt_inj.1 (Int.sign_eq_zero_iff_zero.1 hsign))
  · exact .inr hsign

/-! ### Expressions -/

/-- Both operands of an operator are evaluated, if it is none that looks at the left one first. -/
lemma eval_binary {op : BinaryOp} (hand : op ≠ .and) (hor : op ≠ .or) (hx : eval h f x = .ok v)
    (hy : eval h f y = .ok w) : eval h f (.binary op x y) = applyBinary op v w := by
  cases op with
  | and => exact absurd rfl hand
  | or => exact absurd rfl hor
  | _ =>
    simp only [eval, hx, hy]
    rfl

/-- An operation of two integers gives an integer, unless it divides by zero. -/
lemma eval_ints {op : BinaryOp} (o : Arithmetic) (hand : op ≠ .and) (hor : op ≠ .or)
    (ho : applyBinary op (.int a) (.int b) = o.apply op.text (.int a) (.int b))
    (hb : o.divides = false ∨ b ≠ 0) (hx : eval h f x = .ok (.int a))
    (hy : eval h f y = .ok (.int b)) : eval h f (.binary op x y) = .ok (.int (o.ints a b)) := by
  rw [eval_binary hand hor hx hy, ho, Arithmetic.apply, numbers?]
  rcases hb with hb | hb <;> simp [hb]

lemma eval_add (hx : eval h f x = .ok (.int a)) (hy : eval h f y = .ok (.int b)) :
    eval h f (.binary .add x y) = .ok (.int (a + b)) :=
  eval_ints addition (by simp) (by simp) rfl (.inl rfl) hx hy

lemma eval_sub (hx : eval h f x = .ok (.int a)) (hy : eval h f y = .ok (.int b)) :
    eval h f (.binary .sub x y) = .ok (.int (a - b)) :=
  eval_ints subtraction (by simp) (by simp) rfl (.inl rfl) hx hy

lemma eval_mul (hx : eval h f x = .ok (.int a)) (hy : eval h f y = .ok (.int b)) :
    eval h f (.binary .mul x y) = .ok (.int (a * b)) :=
  eval_ints multiplication (by simp) (by simp) rfl (.inl rfl) hx hy

lemma eval_div (hb : b ≠ 0) (hx : eval h f x = .ok (.int a)) (hy : eval h f y = .ok (.int b)) :
    eval h f (.binary .div x y) = .ok (.int (a / b)) :=
  eval_ints division (by simp) (by simp) rfl (.inr hb) hx hy

lemma eval_mod (hb : b ≠ 0) (hx : eval h f x = .ok (.int a)) (hy : eval h f y = .ok (.int b)) :
    eval h f (.binary .mod x y) = .ok (.int (a % b)) :=
  eval_ints remainder (by simp) (by simp) rfl (.inr hb) hx hy

lemma eval_negate (hx : eval h f x = .ok (.int a)) :
    eval h f (.unary .negate x) = .ok (.int (-a)) := by
  simp only [eval, hx]
  rfl

/-- A frame that knows the least integer and minus one. -/
def extremes : Frame :=
  { active := none, locals := [("least", .int Int64.minValue), ("down", .int (-1))],
    owner := ⟨0, "Meter"⟩, id := 0, returnsValue := false }

end Semlift.Run
