import Mathlib.Tactic.Ring
import Semlift.Proofs.Number.Equality
import Semlift.Proofs.Text.Numerals
import Semlift.Number.Read

/-!
Integers read as doubles. Up to 53 binary digits an integer is a double; a longer one is rounded to
53 digits and keeps its place among the others, but not always a place of its own. The double is
ordered as the rounded integer is, and dropping its fraction gives the rounded integer back.
-/

namespace Semlift.Number

open Float.Model BinaryFormat

variable {m n d a : ℕ}

/-! ### Rounded quotients -/

lemma quotient_mul (hd : 0 < d) : quotient (a * d) d = a := by
  simp [quotient, Nat.mul_div_cancel a hd]
  omega

lemma quotient_mono (h : m ≤ n) : quotient m d ≤ quotient n d := by
  have hm := Nat.div_add_mod m d
  have hn := Nat.div_add_mod n d
  rcases (Nat.div_le_div_right (c := d) h).eq_or_lt with heq | hlt
  · have hmod : m % d ≤ n % d := by
      rw [heq] at hm
      omega
    unfold quotient
    simp only [heq, Bool.or_eq_true, Bool.and_eq_true, decide_eq_true_eq]
    split_ifs <;> omega
  · calc quotient m d ≤ m / d + 1 := by unfold quotient; dsimp only; split <;> omega
      _ ≤ n / d := hlt
      _ ≤ quotient n d := by unfold quotient; dsimp only; split <;> omega

/-! ### Rounding to 53 digits -/

/-- The distance of the doubles from the number to the next power of two. -/
def gap (m : ℕ) : ℕ := 2 ^ (m.log2 - 52)

/-- A natural number rounded to 53 digits. -/
def roundNat (m : ℕ) : ℕ := quotient m (gap m) * gap m

lemma gap_pos : 0 < gap m := Nat.two_pow_pos _

lemma two_pow_log2 (h : 52 ≤ m.log2) : 2 ^ m.log2 = 2 ^ 52 * gap m := by
  rw [gap, ← Nat.pow_add, Nat.add_sub_cancel' h]

lemma roundNat_of_lt (h : m < 2 ^ 53) : roundNat m = m := by
  have hlog : m.log2 ≤ 52 := by
    by_cases hm : m = 0
    · subst hm
      decide
    · exact Nat.le_of_lt_succ ((Nat.log2_lt hm).2 h)
  have hgap : gap m = 1 := by rw [gap, Nat.sub_eq_zero_of_le hlog, Nat.pow_zero]
  have h1 : quotient (m * 1) 1 = m := quotient_mul Nat.one_pos
  rw [Nat.mul_one] at h1
  rw [roundNat, hgap, h1, Nat.mul_one]

/-- The digits that a number is rounded to. -/
lemma quotient_gap (h : 52 ≤ m.log2) :
    2 ^ 52 ≤ quotient m (gap m) ∧ quotient m (gap m) ≤ 2 ^ 53 := by
  have hm : m ≠ 0 := by
    rintro rfl
    simp at h
  have hlow := Nat.log2_self_le hm
  have hhigh := @Nat.lt_log2_self m
  rw [two_pow_log2 h] at hlow
  rw [Nat.pow_succ, two_pow_log2 h] at hhigh
  constructor
  · calc 2 ^ 52 = quotient (2 ^ 52 * gap m) (gap m) := (quotient_mul gap_pos).symm
      _ ≤ quotient m (gap m) := quotient_mono hlow
  · calc quotient m (gap m) ≤ quotient (2 ^ 53 * gap m) (gap m) := quotient_mono (by omega)
      _ = 2 ^ 53 := quotient_mul gap_pos

/-- Rounding stays between two powers of two. -/
lemma roundNat_bounds (hm : m ≠ 0) : 2 ^ m.log2 ≤ roundNat m ∧ roundNat m ≤ 2 ^ (m.log2 + 1) := by
  by_cases h : 52 ≤ m.log2
  · obtain ⟨hlow, hhigh⟩ := quotient_gap h
    rw [Nat.pow_succ, two_pow_log2 h, roundNat]
    have h₁ := Nat.mul_le_mul_right (gap m) hlow
    have h₂ := Nat.mul_le_mul_right (gap m) hhigh
    omega
  · have hlt : m < 2 ^ 53 := (Nat.log2_lt hm).1 (by omega)
    rw [roundNat_of_lt hlt]
    exact ⟨Nat.log2_self_le hm, Nat.lt_log2_self.le⟩

/-- **Rounding keeps the order**, though not strictly. -/
theorem roundNat_mono (h : m ≤ n) : roundNat m ≤ roundNat n := by
  by_cases hm : m = 0
  · rw [hm, roundNat_of_lt (by decide)]
    exact Nat.zero_le _
  have hn : n ≠ 0 := by omega
  have hlog : m.log2 ≤ n.log2 := by
    rw [Nat.le_log2 hn]
    exact (Nat.log2_self_le hm).trans h
  rcases hlog.eq_or_lt with heq | hlt
  · have hgap : gap m = gap n := by rw [gap, heq, gap]
    rw [roundNat, roundNat, hgap]
    exact Nat.mul_le_mul_right _ (quotient_mono h)
  · calc roundNat m ≤ 2 ^ (m.log2 + 1) := (roundNat_bounds hm).2
      _ ≤ 2 ^ n.log2 := Nat.pow_le_pow_right (by decide) hlt
      _ ≤ roundNat n := (roundNat_bounds hn).1

/-! ### Doubles of 53 digits -/

/-- The digits and the exponent of a double, the first digit not zero. -/
structure Normal (M : ℕ) (e : ℤ) : Prop where
  low : 2 ^ 52 ≤ M
  high : M < 2 ^ 53
  least : -52 ≤ e
  greatest : e ≤ 12

/-- What is left of a number is its sign, 53 digits and the place of the last one. -/
def Spells (M : ℕ) (e : ℤ) (k : ℕ) : Prop := M * 2 ^ (e + 52).toNat = k * 2 ^ 52

lemma leading_one (hm : m ≠ 0) : leading m 1 = m.log2 := by
  have hone : Nat.log2 1 = 0 := by decide
  have hle : 1 <<< m.log2 ≤ m := by
    rw [Nat.one_shiftLeft]
    exact Nat.log2_self_le hm
  simp [leading, hone, hle]

/-- **The nearest double** of a number is the number rounded to 53 digits. -/
lemma nearest_eq (negative : Bool) (hm : m ≠ 0) (h64 : m < 2 ^ 64) :
    ∃ M e, BinaryFormat.double.nearest negative m 1 = .finite negative M e ∧ Normal M e ∧
      Spells M e (roundNat m) := by
  have hlog : m.log2 < 64 := (Nat.log2_lt hm).2 h64
  have hexp : max (leading m 1 - ((53 : ℕ) - 1)) (-1074) = (m.log2 : ℤ) - 52 := by
    rw [leading_one hm]
    omega
  unfold BinaryFormat.nearest
  rw [if_neg hm]
  simp only [BinaryFormat.double, hexp, Nat.shiftLeft_eq, Nat.one_mul]
  by_cases h : 52 ≤ m.log2
  · -- the digits past the 53rd are rounded away, and the first one may move on
    have hneg : (-((m.log2 : ℤ) - 52)).toNat = 0 := by omega
    have hpos : ((m.log2 : ℤ) - 52).toNat = m.log2 - 52 := by omega
    have hlift : ((m.log2 : ℤ) - 52 + 52).toNat = (m.log2 - 52) + 52 := by omega
    have hlift' : ((m.log2 : ℤ) - 52 + 1 + 52).toNat = (m.log2 - 52) + 1 + 52 := by omega
    rw [hneg, hpos, Nat.pow_zero, Nat.mul_one, ← gap]
    obtain ⟨hlow, hhigh⟩ := quotient_gap h
    by_cases hcarry : quotient m (gap m) = 2 ^ 53
    · refine ⟨2 ^ 52, m.log2 - 52 + 1, ?_, ⟨by omega, by omega, by omega, by omega⟩, ?_⟩
      · rw [if_pos hcarry, if_neg (by dsimp only; omega), hcarry]
        rfl
      · rw [Spells, hlift', roundNat, hcarry, gap, Nat.pow_add, Nat.pow_succ]
        ring
    · refine ⟨_, m.log2 - 52, ?_, ⟨hlow, by omega, by omega, by omega⟩, ?_⟩
      · rw [if_neg hcarry, if_neg (by dsimp only; omega)]
      · rw [Spells, hlift, roundNat, gap, Nat.pow_add]
        ring
  · have hneg : (-((m.log2 : ℤ) - 52)).toNat = 52 - m.log2 := by omega
    have hpos : ((m.log2 : ℤ) - 52).toNat = 0 := by omega
    have hlift : ((m.log2 : ℤ) - 52 + 52).toNat = m.log2 := by omega
    have hexact := quotient_mul (a := m * 2 ^ (52 - m.log2)) Nat.one_pos
    rw [Nat.mul_one] at hexact
    rw [hneg, hpos, Nat.pow_zero, hexact]
    have hpow : 2 ^ m.log2 * 2 ^ (52 - m.log2) = 2 ^ 52 := by rw [← Nat.pow_add]; congr 1; omega
    have hlow : 2 ^ 52 ≤ m * 2 ^ (52 - m.log2) := by
      rw [← hpow]
      exact Nat.mul_le_mul_right _ (Nat.log2_self_le hm)
    have hhigh : m * 2 ^ (52 - m.log2) < 2 ^ 53 := by
      calc m * 2 ^ (52 - m.log2) < 2 ^ (m.log2 + 1) * 2 ^ (52 - m.log2) :=
            Nat.mul_lt_mul_of_pos_right Nat.lt_log2_self (Nat.two_pow_pos _)
        _ = 2 ^ 53 := by rw [Nat.pow_succ, Nat.mul_right_comm, hpow]; rfl
    refine ⟨_, m.log2 - 52, ?_, ⟨hlow, hhigh, by omega, by omega⟩, ?_⟩
    · rw [if_neg hhigh.ne, if_neg (by dsimp only; omega)]
    · rw [Spells, hlift, roundNat_of_lt ((Nat.log2_lt hm).1 (by omega)), Nat.mul_assoc,
        Nat.mul_comm (2 ^ (52 - m.log2)), hpow]

/-! ### Their bits -/

variable {M N : ℕ} {e : ℤ} {negative : Bool}

/-- The exponent behind the digits, of which the first is not stored. -/
def normalBits (M : ℕ) (e : ℤ) : ℕ := (e + 1075).toNat * 2 ^ 52 + (M - 2 ^ 52)

lemma Normal.log2 (h : Normal M e) : M.log2 = 52 := by
  obtain ⟨hlow, hhigh, -, -⟩ := h
  refine le_antisymm (Nat.le_of_lt_succ ((Nat.log2_lt (by omega)).2 hhigh)) ?_
  exact (Nat.le_log2 (by omega)).2 hlow

lemma Normal.encode (h : Normal M e) : Double.encode M e = normalBits M e := by
  have hlog := h.log2
  obtain ⟨hlow, hhigh, hleast, hgreatest⟩ := h
  have hexp : max (e - ((52 - 52 : ℕ) : ℤ)) (-1074) = e := by omega
  unfold Double.encode
  rw [if_neg (by omega)]
  dsimp only
  rw [hlog, hexp, Int.sub_self, Int.toNat_zero, Nat.shiftLeft_zero, if_neg]
  · rfl
  · exact Nat.not_lt.2 hlow

/-- A double of a sign, digits and an exponent. -/
def normalDouble (negative : Bool) (M : ℕ) (e : ℤ) : Double :=
  .ofMagnitude negative (normalBits M e)

lemma ofRounded_normal (h : Normal M e) :
    Double.ofRounded (.finite negative M e) = normalDouble negative M e := by
  rw [Double.ofRounded, h.encode, normalDouble]

lemma Normal.normalBits (h : Normal M e) : 2 ^ 52 ≤ normalBits M e ∧
    normalBits M e < infinityBits ∧ normalBits M e / 2 ^ 52 = (e + 1075).toNat ∧
    normalBits M e % 2 ^ 52 = M - 2 ^ 52 := by
  obtain ⟨hlow, hhigh, hleast, hgreatest⟩ := h
  unfold Number.normalBits infinityBits
  omega

lemma Normal.bits (h : Normal M e) (negative : Bool) : (normalDouble negative M e).bits.toNat =
    Number.normalBits M e + if negative then signBit else 0 := by
  obtain ⟨-, hsmall, -⟩ := h.normalBits
  unfold infinityBits at hsmall
  refine UInt64.toNat_ofNat_of_lt' ?_
  unfold signBit
  split <;> simp only [UInt64.size] <;> omega

lemma Normal.magnitude (h : Normal M e) :
    (normalDouble negative M e).magnitude = Number.normalBits M e := by
  obtain ⟨-, hsmall, -⟩ := h.normalBits
  unfold infinityBits at hsmall
  unfold Double.magnitude
  rw [h.bits]
  unfold signBit
  split <;> omega

lemma Normal.isNegative (h : Normal M e) : (normalDouble negative M e).isNegative = negative := by
  obtain ⟨-, hsmall, -⟩ := h.normalBits
  unfold infinityBits at hsmall
  unfold Double.isNegative
  rw [h.bits]
  cases negative with
  | false =>
    simp only [Bool.false_eq_true, if_false, decide_eq_false_iff_not, signBit]
    omega
  | true =>
    simp only [if_true, decide_eq_true_eq, signBit]
    omega

lemma Normal.finite (h : Normal M e) (negative : Bool) : (normalDouble negative M e).isNaN = false ∧
    (normalDouble negative M e).isInf = false ∧ (normalDouble negative M e).isZero = false := by
  obtain ⟨hlow, hsmall, -⟩ := h.normalBits
  unfold Double.isNaN Double.isInf Double.isZero
  rw [h.magnitude]
  refine ⟨decide_eq_false (by omega), beq_eq_false_iff_ne.2 hsmall.ne, beq_eq_false_iff_ne.2 ?_⟩
  omega

/-! ### Their places among the doubles -/

section Unpacked

open UnpackedFloat hiding unpack pack

variable {s : Sign} {E : BitVec Format.binary64.exponentBits}
  {F : BitVec Format.binary64.mantissaBitsWithoutImplicit}

lemma sign_packComponents :
    Sign.ofBitVec (unpackSign (packComponents .binary64 s E F)) = s := by
  show Sign.ofBitVec (BitVec.extractLsb' _ _ (s.toBitVec ++ E ++ F)) = s
  rw [BitVec.extractLsb'_append_eq_of_le (Nat.le_add_right 52 11),
    BitVec.extractLsb'_append_eq_of_le (Nat.le_refl 11)]
  cases s <;> rfl

lemma toNat_hidden : (1#1 ++ F).toNat = 2 ^ 52 + F.toNat := by
  have hF := F.isLt
  rw [BitVec.toNat_append, ← Nat.shiftLeft_add_eq_or_of_lt hF]
  simp [Nat.shiftLeft_eq]

/-- The bits of a sign, an exponent that is neither least nor greatest, and digits. -/
lemma unpack_packComponents (hones : E ≠ -1#_) (hzero : E ≠ 0#_) :
    UnpackedFloat.unpack .binary64 (packComponents .binary64 s E F) =
      .finite s (1#1 ++ F).toNat (E.toNat - 1075) (by rw [toNat_hidden]; omega) := by
  have hE : unpackExponent (packComponents .binary64 s E F) = E := unpackExponent_packComponents
  have hF : unpackMantissa (packComponents .binary64 s E F) = F := unpackMantissa_packComponents
  unfold UnpackedFloat.unpack
  dsimp only
  rw [if_neg (by rwa [hE]), if_neg (by rwa [hE]), UnpackedFloat.finite.injEq, hE, hF]
  exact ⟨sign_packComponents, rfl, rfl⟩

/-- The bits of a double of 53 digits, as the parts that it is packed from. -/
lemma Normal.toBitVec (h : Normal M e) : (normalDouble negative M e).bits.toBitVec =
    packComponents .binary64 (if negative then .negative else .positive)
      (BitVec.ofNat _ (e + 1075).toNat) (BitVec.ofNat _ M) := by
  have hbits := h.bits negative
  obtain ⟨hlow, hhigh, hleast, hgreatest⟩ := h
  have hE : (e + 1075).toNat < 2 ^ 11 := by omega
  apply BitVec.eq_of_toNat_eq
  show (normalDouble negative M e).bits.toNat = _
  rw [hbits, packComponents, BitVec.toNat_append, BitVec.toNat_append,
    ← Nat.shiftLeft_add_eq_or_of_lt (BitVec.isLt _),
    ← Nat.shiftLeft_add_eq_or_of_lt (BitVec.isLt _)]
  simp only [BitVec.toNat_ofNat, Nat.shiftLeft_eq]
  rw [Nat.mod_eq_of_lt hE]
  unfold Number.normalBits signBit
  cases negative <;> simp [Sign.toBitVec] <;> omega

lemma Normal.pos (h : Normal M e) : 0 < M := Nat.lt_of_lt_of_le (Nat.two_pow_pos 52) h.low

lemma Normal.unpack_pack (h : Normal M e) : UnpackedFloat.unpack .binary64
    (packComponents .binary64 s (BitVec.ofNat _ (e + 1075).toNat) (BitVec.ofNat _ M)) =
      .finite s M e h.pos := by
  obtain ⟨hlow, hhigh, hleast, hgreatest⟩ := h
  have hE : (BitVec.ofNat 11 (e + 1075).toNat).toNat = (e + 1075).toNat :=
    Nat.mod_eq_of_lt (by omega)
  have hF : (BitVec.ofNat 52 M).toNat = M - 2 ^ 52 := by
    rw [BitVec.toNat_ofNat]
    omega
  rw [unpack_packComponents]
  · rw [UnpackedFloat.finite.injEq, toNat_hidden, hE, hF]
    exact ⟨rfl, by omega, by omega⟩
  · intro hones
    have := congrArg BitVec.toNat hones
    rw [hE] at this
    simp at this
    omega
  · intro hzero
    have := congrArg BitVec.toNat hzero
    rw [hE] at this
    simp at this
    omega

lemma Normal.pack (h : Normal M e) : UnpackedFloat.pack .binary64 (.finite s M e h.pos) =
    packComponents .binary64 s (BitVec.ofNat _ (e + 1075).toNat) (BitVec.ofNat _ M) := by
  have hlog := h.log2
  obtain ⟨hlow, hhigh, hleast, hgreatest⟩ := h
  have hbiased : (e + (Format.binary64.exponentBias : ℤ) + (52 : ℕ)).toNat = (e + 1075).toNat := by
    congr 1
    simp [Format.exponentBias]
    omega
  unfold UnpackedFloat.pack
  simp only [hbiased, hlog]
  rw [if_neg (by simp; omega), if_pos (by rfl)]

/-- A double of 53 digits, among the floating-point numbers. -/
lemma Normal.unpack_toFloat (h : Normal M e) :
    (normalDouble negative M e).toFloat.toModel.unpack =
      .finite (if negative then .negative else .positive) M e h.pos := by
  show UnpackedFloat.unpack _ (UnpackedFloat.pack _ (UnpackedFloat.unpack .binary64
    (normalDouble negative M e).bits.toBitVec)) = _
  rw [h.toBitVec, h.unpack_pack, h.pack, h.unpack_pack]

end Unpacked

/-! ### Doubles of whole numbers -/

variable {k l : ℕ} {f : ℤ} {x y : Double} {i j : ℤ}

lemma Spells.pos (h : Normal M e) (hk : Spells M e k) : 0 < k := by
  have hpos : 0 < M * 2 ^ (e + 52).toNat := Nat.mul_pos h.pos (Nat.two_pow_pos _)
  rw [hk] at hpos
  exact Nat.pos_of_mul_pos_right hpos

/-- Of two numbers the one with the smaller exponent is smaller. -/
lemma Spells.lt_of_exponent (h : Normal M e) (h' : Normal N f) (hk : Spells M e k)
    (hl : Spells N f l) (hlt : e < f) : k < l := by
  have hstep : (e + 52).toNat + 1 ≤ (f + 52).toNat := by
    have := h.least
    omega
  refine Nat.lt_of_mul_lt_mul_right (a := 2 ^ 52) ?_
  calc k * 2 ^ 52 = M * 2 ^ (e + 52).toNat := hk.symm
    _ < 2 ^ 53 * 2 ^ (e + 52).toNat := Nat.mul_lt_mul_of_pos_right h.high (Nat.two_pow_pos _)
    _ = 2 ^ 52 * 2 ^ ((e + 52).toNat + 1) := by rw [Nat.pow_succ]; ring
    _ ≤ N * 2 ^ (f + 52).toNat := Nat.mul_le_mul h'.low (Nat.pow_le_pow_right (by decide) hstep)
    _ = l * 2 ^ 52 := hl

/-- Numbers are ordered by their exponents and then by their digits. -/
lemma Spells.lex_lt_iff (h : Normal M e) (h' : Normal N f) (hk : Spells M e k)
    (hl : Spells N f l) : e < f ∨ e = f ∧ M < N ↔ k < l := by
  rcases lt_trichotomy e f with hlt | rfl | hgt
  · exact iff_of_true (.inl hlt) (hk.lt_of_exponent h h' hl hlt)
  · have hpow : 0 < 2 ^ (e + 52).toNat := Nat.two_pow_pos _
    have hscale : M * 2 ^ (e + 52).toNat < N * 2 ^ (e + 52).toNat ↔ k * 2 ^ 52 < l * 2 ^ 52 := by
      rw [hk, hl]
    rw [Nat.mul_lt_mul_right hpow, Nat.mul_lt_mul_right (by decide)] at hscale
    simpa using hscale
  · have := hl.lt_of_exponent h' h hk hgt
    exact iff_of_false (by omega) (by omega)

/-- A double of a whole number that takes at most 53 digits between its first and its last. -/
inductive Whole : Double → ℤ → Prop where
  | zero : Whole (.ofMagnitude false 0) 0
  | normal {negative : Bool} {M : ℕ} {e : ℤ} {k : ℕ} : Normal M e → Spells M e k →
      Whole (normalDouble negative M e) (if negative then -k else k)

lemma unpack_zero : (Double.ofMagnitude false 0).toFloat.toModel.unpack = .zero .positive := rfl

lemma Whole.isNumber (hx : Whole x i) : x.IsNumber := by
  unfold Double.IsNumber
  cases hx with
  | zero =>
    rw [unpack_zero]
    exact UnpackedFloat.noConfusion
  | normal h =>
    rw [h.unpack_toFloat]
    exact UnpackedFloat.noConfusion

lemma weight_zero : (Double.ofMagnitude false 0).weight = toLex (0, toLex (0, 0)) := by
  rw [Double.weight, unpack_zero]
  rfl

lemma Normal.weight (h : Normal M e) : (normalDouble negative M e).weight =
    if negative then toLex (-1, toLex (-e, -(M : ℤ))) else toLex (1, toLex (e, (M : ℤ))) := by
  rw [Double.weight, h.unpack_toFloat]
  cases negative <;> rfl

/-- Doubles of whole numbers are ordered as these are. -/
lemma Whole.less_iff (hx : Whole x i) (hy : Whole y j) : x.less y = true ↔ i < j := by
  rw [hx.isNumber.less_iff hy.isNumber]
  cases hx with
  | zero =>
    rw [weight_zero]
    cases hy with
    | zero => simp [weight_zero]
    | @normal negative M e k h hk =>
      have := hk.pos h
      rw [h.weight]
      cases negative <;> simp [Prod.Lex.toLex_lt_toLex, this]
  | @normal negative M e k h hk =>
    have hpos := hk.pos h
    rw [h.weight]
    cases hy with
    | zero =>
      rw [weight_zero]
      cases negative <;> simp [Prod.Lex.toLex_lt_toLex, hpos]
    | @normal negative' N f l h' hl =>
      have hpos' := hl.pos h'
      have hlex := hk.lex_lt_iff h h' hl
      have hlex' := hl.lex_lt_iff h' h hk
      rw [h'.weight]
      cases negative <;> cases negative' <;> simp [Prod.Lex.toLex_lt_toLex] <;> omega

lemma Whole.order (hx : Whole x i) (hy : Whole y j) : x.order y = compare i j := by
  have hxy := hx.less_iff hy
  have hyx := hy.less_iff hx
  unfold Double.order
  rcases lt_trichotomy i j with h | rfl | h
  · rw [if_pos (hxy.2 h), compare_lt_iff_lt.2 h]
  · rw [if_neg (mt hxy.1 (lt_irrefl i)), if_neg (mt hyx.1 (lt_irrefl i)),
      compare_eq_iff_eq.2 rfl]
  · rw [if_neg (mt hxy.1 h.asymm), if_pos (hyx.2 h), compare_gt_iff_gt.2 h]

lemma Normal.ofBits? (h : Normal M e) :
    ∃ binade, Dyadic.ofBits? (Number.normalBits M e) = some ⟨M, e, binade⟩ := by
  obtain ⟨-, -, hdiv, hmod⟩ := h.normalBits
  obtain ⟨hlow, hhigh, hleast, hgreatest⟩ := h
  refine ⟨(M - 2 ^ 52 == 0 && (e + 1075).toNat != 1), ?_⟩
  have hbiased : Number.normalBits M e / hiddenBit % 0x800 = (e + 1075).toNat := by
    rw [show hiddenBit = 2 ^ 52 from rfl, hdiv]
    omega
  have hdigits : hiddenBit + (M - 2 ^ 52) = M := by
    unfold hiddenBit
    omega
  have hexp : ((e + 1075).toNat : ℤ) - 1075 = e := by omega
  unfold Dyadic.ofBits?
  dsimp only
  rw [hbiased, if_neg (by omega), show Number.normalBits M e % hiddenBit = M - 2 ^ 52 from hmod,
    hdigits, hexp]

lemma Spells.floor {binade : Bool} (h : Normal M e) (hk : Spells M e k) :
    Dyadic.floor ⟨M, e, binade⟩ = k := by
  unfold Dyadic.floor
  unfold Spells at hk
  dsimp only
  split_ifs with he
  · have hexp : (e + 52).toNat = e.toNat + 52 := by omega
    rw [hexp, Nat.pow_add, ← Nat.mul_assoc] at hk
    rw [Nat.shiftLeft_eq]
    exact Nat.eq_of_mul_eq_mul_right (by decide) hk
  · have hexp : 52 = (-e).toNat + (e + 52).toNat := by
      have := h.least
      omega
    have hpow : 2 ^ 52 = 2 ^ (-e).toNat * 2 ^ (e + 52).toNat := by rw [← Nat.pow_add, ← hexp]
    rw [hpow, ← Nat.mul_assoc] at hk
    rw [Nat.eq_of_mul_eq_mul_right (Nat.two_pow_pos _) hk, Nat.shiftRight_eq_div_pow,
      Nat.mul_div_cancel _ (Nat.two_pow_pos _)]

/-- Dropping the fraction of a whole number gives it back, but one past the range wraps around. -/
lemma Whole.truncate (hx : Whole x i) (hi : i.natAbs ≤ 2 ^ 63) :
    truncate x = Int64.ofInt i := by
  cases hx with
  | zero => rfl
  | @normal negative M e k h hk =>
    obtain ⟨hnan, hinf, -⟩ := h.finite negative
    obtain ⟨binade, hdyadic⟩ := h.ofBits?
    unfold Number.truncate
    rw [hnan, hinf, h.magnitude, hdyadic, h.isNegative]
    simp only [hk.floor h, Bool.false_or, Bool.false_eq_true, if_false]
    generalize (if negative = true then -(k : ℤ) else k) = i at hi
    split_ifs with hrange
    · rfl
    · have hi : i = 2 ^ 63 := by
        have hleast : Int64.minValue.toInt = -2 ^ 63 := rfl
        have hgreatest : Int64.maxValue.toInt = 2 ^ 63 - 1 := rfl
        rw [hleast, hgreatest, Bool.and_eq_true, decide_eq_true_eq, decide_eq_true_eq] at hrange
        omega
      rw [hi]
      rfl

/-! ### Integers as they are written -/

/-- An integer rounded to 53 digits. -/
def roundInt (i : ℤ) : ℤ := if i < 0 then -roundNat i.natAbs else roundNat i.natAbs

lemma roundInt_of_le (h : i.natAbs ≤ 2 ^ 53) : roundInt i = i := by
  have hround : roundNat i.natAbs = i.natAbs := by
    rcases h.eq_or_lt with h | h
    · rw [h]
      decide +kernel
    · exact roundNat_of_lt h
  unfold roundInt
  rw [hround]
  split_ifs <;> omega

/-- **Rounding keeps the order of integers**, though not strictly. -/
theorem roundInt_mono (h : i ≤ j) : roundInt i ≤ roundInt j := by
  unfold roundInt
  split_ifs with hi hj hj
  · have := roundNat_mono (m := j.natAbs) (n := i.natAbs) (by omega)
    omega
  · omega
  · omega
  · have := roundNat_mono (m := i.natAbs) (n := j.natAbs) (by omega)
    omega

lemma natAbs_roundInt_le (h : i.natAbs ≤ 2 ^ 63) : (roundInt i).natAbs ≤ 2 ^ 63 := by
  have hround : roundNat i.natAbs ≤ 2 ^ 63 := by
    calc roundNat i.natAbs ≤ roundNat (2 ^ 63) := roundNat_mono h
      _ = 2 ^ 63 := by decide +kernel
  unfold roundInt
  split_ifs <;> omega

lemma takeDecimal?_natText :
    takeDecimal? negative (natText m).toList = some (⟨negative, m, 0⟩, []) := by
  have hdigits : ∀ c ∈ (natText m).toList, Char.isDigit c = true :=
    fun c hc => isDigit_of_mem_natText hc
  have hne : (natText m).toList.isEmpty = false := by
    rw [toList_natText]
    simp
  unfold takeDecimal?
  have htake : ((natText m).toList ++ []).takeWhile Char.isDigit = (natText m).toList ++ [] :=
    List.takeWhile_append_of_pos hdigits
  have hdrop : ((natText m).toList ++ []).dropWhile Char.isDigit = [] :=
    List.dropWhile_append_of_pos hdigits
  rw [List.append_nil] at htake hdrop
  rw [htake, hdrop]
  simp [hne, takeExponent, digitsValue_natText]

lemma takeNumber?_intText : takeNumber? (intText i).toList =
    some (.decimal ⟨decide (i < 0), i.natAbs, 0⟩, []) := by
  unfold intText
  split_ifs with hi
  · rw [String.toList_append]
    show takeUnsigned? true (natText i.natAbs).toList = _
    rw [takeUnsigned?, takeDecimal?_natText, decide_eq_true hi]
  · have hminus : takeNumber? (natText i.toNat).toList =
        takeUnsigned? false (natText i.toNat).toList := by
      unfold takeNumber?
      split
      · rename_i cs h
        have := isDigit_of_mem_natText (n := i.toNat) (c := '-') (by simp [h])
        cases this
      · rfl
    rw [hminus, takeUnsigned?, takeDecimal?_natText, decide_eq_false hi]
    simp
    omega

lemma round_eq (negative : Bool) (hm : m ≠ 0) (h64 : m < 2 ^ 64) :
    Decimal.round ⟨negative, m, 0⟩ .double = BinaryFormat.double.nearest negative m 1 := by
  have hlength : (Nat.toDigits 10 m).length ≤ 20 :=
    (Nat.length_toDigits_le_iff (by decide) (by decide)).2 (by omega)
  unfold Decimal.round
  dsimp only
  rw [if_neg, if_neg]
  · simp
  · simp [BinaryFormat.double]
    omega
  · simp [BinaryFormat.double, hm]

/-- **An integer is read** as the double of the integer rounded to 53 digits. -/
theorem readDouble?_intText (h64 : i.natAbs < 2 ^ 64) :
    ∃ x, readDouble? (intText i).toList = some x ∧ Whole x (roundInt i) := by
  unfold readDouble?
  rw [takeNumber?_intText]
  dsimp only
  by_cases hi : i = 0
  · subst hi
    exact ⟨_, rfl, .zero⟩
  · have hm : i.natAbs ≠ 0 := by omega
    obtain ⟨M, e, hnearest, h, hk⟩ := nearest_eq (decide (i < 0)) hm h64
    have hround := round_eq (decide (i < 0)) hm h64
    rw [hnearest] at hround
    have hrange : Decimal.inRange ⟨decide (i < 0), i.natAbs, 0⟩ = true := by
      obtain ⟨-, hinf, hzero⟩ := h.finite (decide (i < 0))
      unfold Decimal.inRange
      rw [hround, ofRounded_normal h]
      simp [hinf, hzero]
    refine ⟨normalDouble (decide (i < 0)) M e, ?_, ?_⟩
    · rw [if_pos hrange, Reading.double, Reading.round, hround, ofRounded_normal h]
    · have hwhole : Whole (normalDouble (decide (i < 0)) M e)
          (if decide (i < 0) = true then -(roundNat i.natAbs : ℤ) else roundNat i.natAbs) :=
        .normal h hk
      simpa [roundInt] using hwhole

end Semlift.Number
