import Semlift.Proofs.Number.Equality
import Semlift.Query.Filter
import Semlift.Run.Eval

/-!
Comparisons of numbers, in programs and in filters. Where both operands are numbers, one of `<`,
`=` and `>` holds, and `<=` and `>=` hold of two of them; equality is transitive but for two
integers that a double lies between.
-/

namespace Semlift

open Lang Number Rdf Store

variable {b c : Bool}

/-! ### Programs -/

namespace Run

variable {h : Heap} {f : Frame} {l r : Expr} {x y z : Value}

/-- An integer or a double. -/
def Numeric : Value → Prop
  | .int _ | .double _ => True
  | _ => False

/-- A double that is no number. -/
def isNaN : Value → Bool
  | .double x => x.isNaN
  | _ => false

lemma isNumber_asDouble? {w : Double} (hx : isNaN x = false) (hw : asDouble? x = some w) :
    w.IsNumber := by
  cases x with
  | int n =>
    cases hw
    exact Double.isNumber_ofInt64 n
  | double v =>
    cases hw
    exact Double.isNumber_of_isNaN hx
  | null | bool | str | object => cases hw

/-- Two numbers are ordered, and ordered as equal if they are equal. -/
lemma order?_of_numeric (hx : Numeric x) (hy : Numeric y) (hx' : isNaN x = false)
    (hy' : isNaN y = false) : ∃ o, order? x y = some o ∧ sameValue x y = (o == .eq) := by
  have hdoubles {v w : Double} (hv : asDouble? x = some v) (hw : asDouble? y = some w) :
      v.same w = (v.order w == .eq) := by
    rw [Bool.eq_iff_iff, beq_iff_eq]
    exact ((isNumber_asDouble? hx' hv).order_eq_iff (isNumber_asDouble? hy' hw)).symm
  cases x with
  | int m =>
    cases y with
    | int n =>
      refine ⟨compare m n, rfl, ?_⟩
      rw [Bool.eq_iff_iff, beq_iff_eq, Std.LawfulEqCmp.compare_eq_iff_eq]
      exact beq_iff_eq
    | double w => exact ⟨_, rfl, hdoubles rfl rfl⟩
    | null | bool | str | object => exact absurd hy id
  | double v =>
    cases y with
    | int | double => exact ⟨_, rfl, hdoubles rfl rfl⟩
    | null | bool | str | object => exact absurd hy id
  | null | bool | str | object => exact absurd hx id

/-- Equality is transitive, but for two integers with a double between them. -/
lemma sameValue_trans (hx : Numeric x) (hy : Numeric y) (hz : Numeric z)
    (hxy : sameValue x y = true) (hyz : sameValue y z = true)
    (hbetween : ¬ ∃ m w n, x = .int m ∧ y = .double w ∧ z = .int n ∧ m ≠ n) :
    sameValue x z = true := by
  cases y with
  | int n =>
    cases x with
    | int m =>
      obtain rfl : m = n := beq_iff_eq.1 hxy
      exact hyz
    | double v =>
      cases z with
      | int k =>
        obtain rfl : n = k := beq_iff_eq.1 hyz
        exact hxy
      | double w => exact Double.same_trans hxy hyz
      | null | bool | str | object => exact absurd hz id
    | null | bool | str | object => exact absurd hx id
  | double u =>
    cases x with
    | int m =>
      cases z with
      | int k => exact beq_iff_eq.2 (not_not.1 fun h => hbetween ⟨m, u, k, rfl, rfl, rfl, h⟩)
      | double w => exact Double.same_trans hxy hyz
      | null | bool | str | object => exact absurd hz id
    | double v =>
      cases z with
      | int | double => exact Double.same_trans hxy hyz
      | null | bool | str | object => exact absurd hz id
    | null | bool | str | object => exact absurd hx id
  | null | bool | str | object => exact absurd hy id

/-- Equality of two expressions with values. -/
lemma eval_eq (hl : eval h f l = .ok x) (hr : eval h f r = .ok y) :
    eval h f (.binary .eq l r) = .ok (.bool (sameValue x y)) := by
  simp only [eval, hl, hr]
  rfl

/-- The other comparisons of two expressions whose values are ordered. -/
lemma eval_comparisons {o : Ordering} (hl : eval h f l = .ok x) (hr : eval h f r = .ok y)
    (ho : order? x y = some o) :
    eval h f (.binary .lt l r) = .ok (.bool o.isLT) ∧
      eval h f (.binary .gt l r) = .ok (.bool o.isGT) ∧
      eval h f (.binary .le l r) = .ok (.bool o.isLE) ∧
      eval h f (.binary .ge l r) = .ok (.bool o.isGE) := by
  have hcomparison (holds : Ordering → Bool) (op : String) :
      comparison holds op x y = .ok (.bool (holds o)) := by rw [comparison, ho]
  simp only [eval, hl, hr]
  exact ⟨hcomparison _ _, hcomparison _ _, hcomparison _ _, hcomparison _ _⟩

lemma eval_laws (hl : eval h f l = .ok x) (hr : eval h f r = .ok y) (hx : Numeric x)
    (hy : Numeric y) (hx' : isNaN x = false) (hy' : isNaN y = false) :
    ∃ lt eq gt, eval h f (.binary .lt l r) = .ok (.bool lt) ∧
      eval h f (.binary .eq l r) = .ok (.bool eq) ∧
      eval h f (.binary .gt l r) = .ok (.bool gt) ∧
      eval h f (.binary .le l r) = .ok (.bool (lt || eq)) ∧
      eval h f (.binary .ge l r) = .ok (.bool (gt || eq)) := by
  obtain ⟨o, ho, hsame⟩ := order?_of_numeric hx hy hx' hy'
  obtain ⟨hlt, hgt, hle, hge⟩ := eval_comparisons hl hr ho
  have heq := eval_eq hl hr
  rw [hsame] at heq
  refine ⟨_, _, _, hlt, heq, hgt, ?_, ?_⟩
  · rw [hle]
    cases o <;> rfl
  · rw [hge]
    cases o <;> rfl

end Run

/-! ### Filters -/

namespace Query

variable {e₁ e₂ : Filter} {s t u : Term} {bound : Binding} {r : Relation}

lemma truth?_boolean : truth? (.boolean b) = some b := by
  cases b <;> rfl

lemma keeps_relate (hs : e₁.value? bound = some s) (ht : e₂.value? bound = some t) :
    (Filter.relate r e₁ e₂).keeps bound = ((relate? r s t).bind truth? == some true) := by
  rw [Filter.keeps, Filter.value?, hs, ht]

lemma keeps_eq (hs : e₁.value? bound = some s) (ht : e₂.value? bound = some t) :
    (Filter.relate .eq e₁ e₂).keeps bound = equal s t := by
  rw [keeps_relate hs ht, relate?, Option.bind_some, truth?_boolean]
  cases equal s t <;> rfl

/-- The comparisons of two terms with an order hold as it says, and without one they do not. -/
lemma keeps_of_compare? (hs : e₁.value? bound = some s) (ht : e₂.value? bound = some t)
    (hr : r ≠ .eq ∧ r ≠ .ne) :
    (Filter.relate r e₁ e₂).keeps bound = (compare? s t).any r.holds := by
  have hrelate : relate? r s t = (compare? s t).map fun o => .boolean (r.holds o) := by
    cases r with
    | eq => exact absurd rfl hr.1
    | ne => exact absurd rfl hr.2
    | lt | le | gt | ge => rfl
  rw [keeps_relate hs ht, hrelate]
  cases compare? s t with
  | none => rfl
  | some o =>
    rw [Option.map_some, Option.bind_some, truth?_boolean, Option.any_some]
    cases r.holds o <;> rfl

lemma keeps_laws (hs : e₁.value? bound = some s) (ht : e₂.value? bound = some t)
    (hs' : s.isNumeric = true) (ht' : t.isNumeric = true) :
    (Filter.relate .le e₁ e₂).keeps bound =
        ((Filter.relate .lt e₁ e₂).keeps bound || (Filter.relate .eq e₁ e₂).keeps bound) ∧
      (Filter.relate .ge e₁ e₂).keeps bound =
        ((Filter.relate .gt e₁ e₂).keeps bound || (Filter.relate .eq e₁ e₂).keeps bound) := by
  have heq : equal s t = (compare? s t == some .eq) := by simp [equal, hs', ht']
  rw [keeps_eq hs ht, heq, keeps_of_compare? hs ht (by decide), keeps_of_compare? hs ht (by decide),
    keeps_of_compare? hs ht (by decide), keeps_of_compare? hs ht (by decide)]
  rcases compare? s t with _ | _ | _ | _ <;> exact ⟨rfl, rfl⟩

/-- Literals of one text and one datatype; their languages may differ. -/
def SameSpelling (s t : Term) : Prop :=
  ∃ lexical datatype tag tag',
    s = .literal lexical datatype tag ∧ t = .literal lexical datatype tag'

lemma SameSpelling.number? (h : SameSpelling s t) : s.number? = t.number? := by
  obtain ⟨_, _, _, _, rfl, rfl⟩ := h
  rfl

/-- Two literals of numbers are equal if their values are ordered as equal, or if they are spelled
alike and have no value. -/
lemma equal_iff (hs : s.isNumeric = true) (ht : t.isNumeric = true) : equal s t = true ↔
    (∃ x y, s.number? = some x ∧ t.number? = some y ∧ x.order y = .eq) ∨
      s.number? = none ∧ SameSpelling s t := by
  have heq : equal s t = true ↔ compare? s t = some .eq := by simp [equal, hs, ht]
  -- where a value is missing the texts are compared, and then neither has one
  have htexts (hnone : s.number? = none ∨ t.number? = none) :
      compare? s t = some .eq ↔ SameSpelling s t := by
    cases s with
    | iri | blank => cases hs
    | literal w d g =>
    cases t with
    | iri | blank => cases ht
    | literal w' d' g' =>
    have hcompare : compare? (.literal w d g) (.literal w' d' g') =
        if d = d' then some (compare w w') else none := by
      unfold compare?
      rcases hnone with h | h <;> rw [h]
      cases (Term.literal w d g).number? <;> rfl
    rw [hcompare]
    constructor
    · intro h
      split_ifs at h with hd
      obtain rfl : w = w' := Std.LawfulEqCmp.compare_eq_iff_eq.1 (Option.some_inj.1 h)
      exact ⟨w, d, g, g', rfl, by rw [hd]⟩
    · rintro ⟨_, _, _, _, h, h'⟩
      cases h
      cases h'
      rw [if_pos rfl]
      exact congrArg some (Std.LawfulEqCmp.compare_eq_iff_eq.2 rfl)
  rw [heq]
  cases hx : s.number? with
  | none =>
    rw [htexts (.inl hx)]
    simp
  | some x =>
    cases hy : t.number? with
    | none =>
      rw [htexts (.inr hy)]
      refine iff_of_false (fun h => ?_) (by simp)
      rw [h.number?, hy] at hx
      cases hx
    | some y => simp [compare?, hx, hy]

/-- Equality of numbers goes on past what is a number. -/
lemma equal_trans (hs : s.isNumeric = true) (ht : t.isNumeric = true) (hu : u.isNumeric = true)
    (hnan : ∀ y, t.number? = some y → y.isNaN = false) (hst : equal s t = true)
    (htu : equal t u = true) : equal s u = true := by
  rw [equal_iff hs ht] at hst
  rw [equal_iff ht hu] at htu
  rw [equal_iff hs hu]
  rcases hst with ⟨x, y, hx, hy, hxy⟩ | ⟨hs', w, d, g, g', rfl, rfl⟩
  · rcases htu with ⟨y', z, hy', hz, hyz⟩ | ⟨ht', -⟩
    · cases hy.symm.trans hy'
      exact .inl ⟨x, z, hx, hz, (Double.isNumber_of_isNaN (hnan y hy)).order_trans hxy hyz⟩
    · cases hy.symm.trans ht'
  · rcases htu with ⟨y', z, hy', -⟩ | ⟨-, w', d', k, k', h, rfl⟩
    · cases hs'.symm.trans hy'
    · cases h
      exact .inr ⟨hs', w, d, g, k', rfl, rfl⟩

end Query

/-! ### Both -/

open Run Query

/-- **Comparisons are coherent.** Of two numbers in a program `<=` holds if `<` or `==` does, and
`>=` if `>` or `==` does, and equality is transitive, except for two integers with a double between
them, which are compared with it as doubles and with each other as integers. In filters the laws
hold of all literals of numbers, and equality goes on past all that are numbers. -/
theorem comparisons_coherent :
    (∀ (h : Heap) (f : Frame) (l r : Expr) (x y : Value), eval h f l = .ok x →
      eval h f r = .ok y → Numeric x → Numeric y → isNaN x = false → isNaN y = false →
      ∃ lt eq gt, eval h f (.binary .lt l r) = .ok (.bool lt) ∧
        eval h f (.binary .eq l r) = .ok (.bool eq) ∧
        eval h f (.binary .gt l r) = .ok (.bool gt) ∧
        eval h f (.binary .le l r) = .ok (.bool (lt || eq)) ∧
        eval h f (.binary .ge l r) = .ok (.bool (gt || eq))) ∧
    (∀ (h : Heap) (f : Frame) (e₁ e₂ e₃ : Expr) (x y z : Value), eval h f e₁ = .ok x →
      eval h f e₂ = .ok y → eval h f e₃ = .ok z → Numeric x → Numeric y → Numeric z →
      eval h f (.binary .eq e₁ e₂) = .ok (.bool true) →
      eval h f (.binary .eq e₂ e₃) = .ok (.bool true) →
      (¬ ∃ m w n, x = .int m ∧ y = .double w ∧ z = .int n ∧ m ≠ n) →
      eval h f (.binary .eq e₁ e₃) = .ok (.bool true)) ∧
    (∀ (b : Binding) (l r : Filter) (s t : Term), l.value? b = some s → r.value? b = some t →
      s.isNumeric = true → t.isNumeric = true →
      (Filter.relate .le l r).keeps b =
          ((Filter.relate .lt l r).keeps b || (Filter.relate .eq l r).keeps b) ∧
        (Filter.relate .ge l r).keeps b =
          ((Filter.relate .gt l r).keeps b || (Filter.relate .eq l r).keeps b)) ∧
    ∀ (b : Binding) (e₁ e₂ e₃ : Filter) (s t u : Term), e₁.value? b = some s →
      e₂.value? b = some t → e₃.value? b = some u → s.isNumeric = true → t.isNumeric = true →
      u.isNumeric = true → (∀ y, t.number? = some y → y.isNaN = false) →
      (Filter.relate .eq e₁ e₂).keeps b = true → (Filter.relate .eq e₂ e₃).keeps b = true →
      (Filter.relate .eq e₁ e₃).keeps b = true := by
  refine ⟨fun h f l r x y hl hr => eval_laws hl hr, ?_, fun b l r s t hl hr => keeps_laws hl hr, ?_⟩
  · intro h f e₁ e₂ e₃ x y z h₁ h₂ h₃ hx hy hz hxy hyz hbetween
    rw [eval_eq h₁ h₂] at hxy
    rw [eval_eq h₂ h₃] at hyz
    rw [eval_eq h₁ h₃]
    simp only [Except.ok.injEq, Value.bool.injEq] at hxy hyz ⊢
    exact sameValue_trans hx hy hz hxy hyz hbetween
  · intro b e₁ e₂ e₃ s t u h₁ h₂ h₃ hs ht hu hnan hst htu
    rw [keeps_eq h₁ h₂] at hst
    rw [keeps_eq h₂ h₃] at htu
    rw [keeps_eq h₁ h₃]
    exact equal_trans hs ht hu hnan hst htu

/-- A frame with nothing in it. -/
def bareFrame : Frame := ⟨none, [], ⟨0, "Entry"⟩, 0, false⟩

/-- Two to the power of 53, the last of the integers that are all doubles. -/
def lastExact : Double := ⟨0x4340000000000000⟩

/-- An integer, its double and one more double of the same number; in a filter an integer, a
decimal and a double. -/
theorem comparisons_coherent_seven :
    (∃ lt eq gt, eval .empty bareFrame (.binary .lt (.lit (.int 7)) (.lit (.double lastExact))) =
        .ok (.bool lt) ∧
      eval .empty bareFrame (.binary .eq (.lit (.int 7)) (.lit (.double lastExact))) =
        .ok (.bool eq) ∧
      eval .empty bareFrame (.binary .gt (.lit (.int 7)) (.lit (.double lastExact))) =
        .ok (.bool gt) ∧
      eval .empty bareFrame (.binary .le (.lit (.int 7)) (.lit (.double lastExact))) =
        .ok (.bool (lt || eq)) ∧
      eval .empty bareFrame (.binary .ge (.lit (.int 7)) (.lit (.double lastExact))) =
        .ok (.bool (gt || eq))) ∧
    eval .empty bareFrame (.binary .eq (.lit (.int 9007199254740992))
      (.lit (.double (ofInt64 9007199254740992)))) = .ok (.bool true) ∧
    ((Filter.relate .le (.const (.typed "7" Vocabulary.xsdInteger))
        (.const (.typed "nan" Vocabulary.xsdDouble))).keeps [] =
      ((Filter.relate .lt (.const (.typed "7" Vocabulary.xsdInteger))
          (.const (.typed "nan" Vocabulary.xsdDouble))).keeps [] ||
        (Filter.relate .eq (.const (.typed "7" Vocabulary.xsdInteger))
          (.const (.typed "nan" Vocabulary.xsdDouble))).keeps [])) ∧
    (Filter.relate .eq (.const (.typed "7" Vocabulary.xsdInteger))
      (.const (.typed "7e0" Vocabulary.xsdDouble))).keeps [] = true := by
  refine ⟨?_, ?_, ?_, ?_⟩
  · exact comparisons_coherent.1 _ _ _ _ _ _ rfl rfl trivial trivial rfl (by decide)
  · exact comparisons_coherent.2.1 _ _ _ (.lit (.double lastExact)) _ _ _ _ rfl rfl rfl trivial
      trivial trivial (by decide +kernel) (by decide +kernel) (by rintro ⟨_, _, _, _, _, ⟨⟩, _⟩)
  · exact (comparisons_coherent.2.2.1 _ _ _ _ _ rfl rfl rfl rfl).1
  · exact comparisons_coherent.2.2.2 _ _ (.const (.typed "7.0" Vocabulary.xsdDecimal)) _ _ _ _ rfl
      rfl rfl rfl rfl rfl (by decide +kernel) (by decide +kernel) (by decide +kernel)

/-- A double lies between two integers, and equals them both. In a program what is no number is
`<=` a number without being less than it or equal to it; in a filter it is equal to every number. -/
theorem comparisons_torn :
    (eval .empty bareFrame (.binary .eq (.lit (.int 9007199254740993)) (.lit (.double lastExact))) =
        .ok (.bool true) ∧
      eval .empty bareFrame
        (.binary .eq (.lit (.double lastExact)) (.lit (.int 9007199254740992))) =
        .ok (.bool true) ∧
      eval .empty bareFrame
        (.binary .eq (.lit (.int 9007199254740993)) (.lit (.int 9007199254740992))) =
        .ok (.bool false)) ∧
    (eval .empty bareFrame (.binary .le (.lit (.double (.noNumber false))) (.lit (.int 1))) =
        .ok (.bool true) ∧
      eval .empty bareFrame (.binary .lt (.lit (.double (.noNumber false))) (.lit (.int 1))) =
        .ok (.bool false) ∧
      eval .empty bareFrame (.binary .eq (.lit (.double (.noNumber false))) (.lit (.int 1))) =
        .ok (.bool false)) ∧
    (Filter.relate .eq (.const (.integer 1)) (.const (.double (.noNumber false)))).keeps [] = true ∧
    (Filter.relate .eq (.const (.double (.noNumber false))) (.const (.integer 2))).keeps [] = true ∧
    (Filter.relate .eq (.const (.integer 1)) (.const (.integer 2))).keeps [] = false := by
  decide +kernel

end Semlift
