import Mathlib.Data.List.Permutation
import Mathlib.Data.Set.Image
import Mathlib.Data.String.Basic
import Semlift.Proofs.Number.Order
import Semlift.Proofs.Query.Monotone

/-!
When answers can be ordered. Of any two cells the comparison says opposite things when they are
turned round. But numbers are compared by value and a number with another literal by text, so three
literals can stand each before the next in a circle: 9 before 10 as a number, 10 before the string
5 as a text, and 5 before 9. Exactly where no text lies between two numbers that are not in the
order of their values the comparison is transitive, and then the rows of a query are in order.
-/

namespace Semlift.Query

open Semlift.Rdf Semlift.Number

variable {l m n t : Term} {a b c : Option Term} {x y z : Double} {S : Set (Option Term)}
  {q : Select} {source : Source}

/-! ### Two cells -/

/-- Terms of one rank: numbers by value, others by text. -/
def compareAlike (l r : Term) : Ordering :=
  match l.number?, r.number? with
  | some x, some y => x.order y
  | _, _ => compare l.content r.content

lemma compareAlike_eq : (compare? l m).getD (compare l.content m.content) = compareAlike l m := by
  unfold compare? compareAlike
  cases l.number? <;> cases m.number?
  case some.some => rfl
  all_goals
    dsimp only
    split
    · split <;> rfl
    · rfl

lemma compareTerms_of_rank_eq (h : rank l = rank m) : compareTerms l m = compareAlike l m := by
  rw [compareTerms, if_neg (by simpa using h), compareAlike_eq]

lemma compareTerms_of_rank_ne (h : rank l ≠ rank m) :
    compareTerms l m = compare (rank l) (rank m) := if_pos h

lemma compareAlike_swap (l m : Term) : compareAlike m l = (compareAlike l m).swap := by
  unfold compareAlike
  cases l.number? <;> cases m.number?
  case some.some x y => exact Double.order_swap
  all_goals exact Std.OrientedOrd.eq_swap

lemma compareTerms_swap (l m : Term) : compareTerms m l = (compareTerms l m).swap := by
  by_cases h : rank l = rank m
  · rw [compareTerms_of_rank_eq h, compareTerms_of_rank_eq h.symm]
    exact compareAlike_swap l m
  · rw [compareTerms_of_rank_ne h, compareTerms_of_rank_ne (Ne.symm h)]
    exact Std.OrientedOrd.eq_swap

/-- **Turned round**, the comparison of two cells says the opposite. -/
theorem compareCells_swap (a b : Option Term) : compareCells b a = (compareCells a b).swap := by
  cases a <;> cases b
  case some.some l m => exact compareTerms_swap l m
  all_goals rfl

/-! ### At or before -/

lemma isLE_compareAlike_numbers (hx : l.number? = some x) (hy : m.number? = some y) :
    (compareAlike l m).isLE ↔ y.less x = false := by
  rw [compareAlike, hx, hy]
  exact Double.isLE_order

lemma isLE_compareAlike_text (h : l.number? = none ∨ m.number? = none) :
    (compareAlike l m).isLE ↔ l.content ≤ m.content := by
  have htext : compareAlike l m = compare l.content m.content := by
    unfold compareAlike
    obtain h | h := h
    · rw [h]
    · rw [h]
      cases l.number? <;> rfl
  rw [htext]
  exact Std.LawfulBCmp.isLE_iff_le

lemma rank_le_of_isLE (h : (compareTerms l m).isLE) : rank l ≤ rank m := by
  by_cases hrank : rank l = rank m
  · exact hrank.le
  · rw [compareTerms_of_rank_ne hrank] at h
    exact Std.LawfulBCmp.isLE_iff_le.mp h

lemma isLE_of_rank_lt (h : rank l < rank m) : (compareTerms l m).isLE := by
  rw [compareTerms_of_rank_ne h.ne]
  exact Std.LawfulBCmp.isLE_iff_le.mpr h.le

/-! ### Three cells -/

/-- No cell is a literal of a numeric type that spells what is no number. -/
def Numbers (S : Set (Option Term)) : Prop :=
  ∀ t, some t ∈ S → ∀ x, t.number? = some x → x.isNaN = false

/-- No literal without a value has its text between those of two different numbers, unless these
are in the order of their values. -/
def Unmixed (S : Set (Option Term)) : Prop :=
  ∀ l m n : Term, some l ∈ S → some m ∈ S → some n ∈ S → ∀ x y : Double,
    l.number? = some x → m.isLiteral → m.number? = none → n.number? = some y →
    l.content ≤ m.content → m.content ≤ n.content → l.content ≠ n.content → x.less y = true

/-- Whether the comparison is transitive on a set of cells. -/
def Transitive (S : Set (Option Term)) : Prop :=
  ∀ a ∈ S, ∀ b ∈ S, ∀ c ∈ S, (compareCells a b).isLE → (compareCells b c).isLE →
    (compareCells a c).isLE

lemma rank_eq_two (h : t.number? = some x) : rank t = 2 := by
  cases t <;> first | rfl | cases h

lemma isLiteral_of_rank (h : rank t = 2) : t.isLiteral := by
  cases t <;> first | rfl | cases h

/-- The value of a number is that of its text. -/
lemma number?_eq_of_content (hx : l.number? = some x) (hy : m.number? = some y)
    (h : l.content = m.content) : x = y := by
  cases l with
  | iri | blank => simp [Term.number?] at hx
  | literal s d =>
    cases m with
    | iri | blank => simp [Term.number?] at hy
    | literal s' d' =>
      obtain rfl : s = s' := h
      rw [Term.number?] at hx hy
      split at hx
      · split at hy
        · exact Option.some_inj.mp (hx.symm.trans hy)
        · cases hy
      · cases hx

lemma isLE_trans_alike (hnum : Numbers S) (hun : Unmixed S) (hl : some l ∈ S) (hm : some m ∈ S)
    (hn : some n ∈ S) (hlm : rank l = rank m) (hmn : rank m = rank n)
    (h₁ : (compareAlike l m).isLE) (h₂ : (compareAlike m n).isLE) : (compareAlike l n).isLE := by
  cases hx : l.number? with
  | none =>
    rw [isLE_compareAlike_text (.inl hx)] at h₁ ⊢
    cases hy : m.number? with
    | none =>
      rw [isLE_compareAlike_text (.inl hy)] at h₂
      exact h₁.trans h₂
    | some y =>
      cases hz : n.number? with
      | none =>
        rw [isLE_compareAlike_text (.inr hz)] at h₂
        exact h₁.trans h₂
      | some z =>
        rw [isLE_compareAlike_numbers hy hz] at h₂
        by_contra hlt
        have hnl : n.content < l.content := not_le.mp hlt
        have hlit := isLiteral_of_rank (hlm.trans (rank_eq_two hy))
        have hless := hun n l m hn hl hm z y hz hlit hx hy hnl.le h₁ (hnl.trans_le h₁).ne
        rw [h₂] at hless
        cases hless
  | some x =>
    cases hy : m.number? with
    | none =>
      rw [isLE_compareAlike_text (.inr hy)] at h₁
      rw [isLE_compareAlike_text (.inl hy)] at h₂
      cases hz : n.number? with
      | none =>
        rw [isLE_compareAlike_text (.inr hz)]
        exact h₁.trans h₂
      | some z =>
        rw [isLE_compareAlike_numbers hx hz]
        by_cases hln : l.content = n.content
        · rw [number?_eq_of_content hx hz hln]
          exact Double.less_self
        · have hlit := isLiteral_of_rank (hlm.symm.trans (rank_eq_two hx))
          exact Double.less_asymm (hun l m n hl hm hn x z hx hlit hy hz h₁ h₂ hln)
    | some y =>
      rw [isLE_compareAlike_numbers hx hy] at h₁
      cases hz : n.number? with
      | none =>
        rw [isLE_compareAlike_text (.inr hz)] at h₂ ⊢
        by_contra hlt
        have hnl : n.content < l.content := not_le.mp hlt
        have hlit := isLiteral_of_rank (hmn.symm.trans (rank_eq_two hy))
        have hless := hun m n l hm hn hl y x hy hlit hz hx h₂ hnl.le (h₂.trans_lt hnl).ne
        rw [h₁] at hless
        cases hless
      | some z =>
        rw [isLE_compareAlike_numbers hy hz] at h₂
        rw [isLE_compareAlike_numbers hx hz]
        exact Double.less_trans_false (hnum l hl x hx) (hnum m hm y hy) (hnum n hn z hz) h₁ h₂

lemma transitive_of_unmixed (hnum : Numbers S) (hun : Unmixed S) : Transitive S := by
  intro a ha b hb c hc h₁ h₂
  cases a with
  | none => cases c <;> rfl
  | some l =>
    cases b with
    | none => cases h₁
    | some m =>
      cases c with
      | none => cases h₂
      | some n =>
        have hlm := rank_le_of_isLE h₁
        have hmn := rank_le_of_isLE h₂
        obtain hlt | heq := (hlm.trans hmn).lt_or_eq
        · exact isLE_of_rank_lt hlt
        have hlm' : rank l = rank m := by omega
        have hmn' : rank m = rank n := by omega
        change (compareTerms l m).isLE at h₁
        change (compareTerms m n).isLE at h₂
        change (compareTerms l n).isLE
        rw [compareTerms_of_rank_eq hlm'] at h₁
        rw [compareTerms_of_rank_eq hmn'] at h₂
        rw [compareTerms_of_rank_eq heq]
        exact isLE_trans_alike hnum hun ha hb hc hlm' hmn' h₁ h₂

lemma isLE_literals (hl : rank l = 2) (hm : rank m = 2) :
    (compareCells (some l) (some m)).isLE ↔ (compareAlike l m).isLE := by
  have heq : compareCells (some l) (some m) = compareAlike l m :=
    compareTerms_of_rank_eq (hl.trans hm.symm)
  rw [heq]

/-- A text between two numbers in the wrong order makes a circle. -/
lemma unmixed_of_transitive (ht : Transitive S) : Unmixed S := by
  intro l m n hl hm hn x y hx hlit hnone hy hlm hmn hne
  have hrl := rank_eq_two hx
  have hrn := rank_eq_two hy
  have hrm : rank m = 2 := by cases m <;> first | rfl | cases hlit
  by_contra hless
  rw [Bool.not_eq_true] at hless
  have hnl : (compareCells (some n) (some l)).isLE := by
    rw [isLE_literals hrn hrl, isLE_compareAlike_numbers hy hx]
    exact hless
  have hlm' : (compareCells (some l) (some m)).isLE := by
    rw [isLE_literals hrl hrm, isLE_compareAlike_text (.inr hnone)]
    exact hlm
  have hmn' : (compareCells (some m) (some n)).isLE := by
    rw [isLE_literals hrm hrn, isLE_compareAlike_text (.inl hnone)]
    exact hmn
  have hml := ht _ hm _ hn _ hl hmn' hnl
  have hnm := ht _ hn _ hl _ hm hnl hlm'
  rw [isLE_literals hrm hrl, isLE_compareAlike_text (.inl hnone)] at hml
  rw [isLE_literals hrn hrm, isLE_compareAlike_text (.inr hnone)] at hnm
  exact hne (le_antisymm (hlm.trans hmn) (hnm.trans hml))

/-- **The comparison is transitive** exactly where no text lies between two numbers that are not in
the order of their values. -/
theorem transitive_iff (hnum : Numbers S) : Transitive S ↔ Unmixed S :=
  ⟨unmixed_of_transitive, transitive_of_unmixed hnum⟩

/-! ### Bindings -/

variable {B : Set Binding} {keys : List OrderKey} {k : OrderKey} {u v w : Binding}

/-- What some bindings have for one name. -/
def column (name : String) (B : Set Binding) : Set (Option Term) := (·.find? name) '' B

/-- How one key orders two bindings. -/
def OrderKey.compare (k : OrderKey) (u v : Binding) : Ordering :=
  if k.descending then compareCells (v.find? k.name) (u.find? k.name)
  else compareCells (u.find? k.name) (v.find? k.name)

def compareBy : List OrderKey → Binding → Binding → Ordering
  | [], _, _ => .eq
  | k :: more, u, v => (k.compare u v).then (compareBy more u v)

lemma before_eq : before keys u v = (compareBy keys u v == .lt) := by
  induction keys with
  | nil => rfl
  | cons k more ih =>
    rw [before, compareBy, OrderKey.compare, compareCells_swap (u.find? k.name), ih]
    cases compareCells (u.find? k.name) (v.find? k.name) <;> cases k.descending <;> rfl

lemma OrderKey.compare_swap : k.compare v u = (k.compare u v).swap := by
  unfold OrderKey.compare
  split <;> exact compareCells_swap _ _

lemma OrderKey.transCmp (h : Transitive (column k.name B)) :
    Std.TransCmp fun u v : B => k.compare u v where
  eq_swap := OrderKey.compare_swap
  isLE_trans := by
    intro u v w huv hvw
    have hcell : ∀ u : B, u.1.find? k.name ∈ column k.name B := fun u => ⟨u, u.2, rfl⟩
    unfold OrderKey.compare at huv hvw ⊢
    split at huv
    · rw [if_pos ‹_›] at hvw ⊢
      exact h _ (hcell w) _ (hcell v) _ (hcell u) hvw huv
    · rw [if_neg ‹_›] at hvw ⊢
      exact h _ (hcell u) _ (hcell v) _ (hcell w) huv hvw

/-- Keys of transitive columns compare transitively one after another. -/
lemma transCmp_compareBy (h : ∀ k ∈ keys, Transitive (column k.name B)) :
    Std.TransCmp fun u v : B => compareBy keys u v := by
  induction keys with
  | nil => exact { eq_swap := rfl, isLE_trans := fun _ _ => rfl }
  | cons k more ih =>
    have hfirst := OrderKey.transCmp (h k (by simp))
    have hmore := ih fun k hk => h k (by simp [hk])
    exact inferInstanceAs (Std.TransCmp (compareLex (fun u v : B => k.compare u v)
      fun u v => compareBy more u v))

/-- Being less by a transitive comparison is a strict weak order. -/
lemma isStrictWeakOrder_of_transCmp {α : Type} (cmp : α → α → Ordering) [Std.TransCmp cmp] :
    IsStrictWeakOrder α fun x y => cmp x y = .lt where
  irrefl x h := by
    have hself : cmp x x = .eq := Std.ReflCmp.compare_self
    rw [hself] at h
    cases h
  trans _ _ _ := Std.TransCmp.lt_trans
  incomp_trans x y z hxy hyz := by
    have htie : ∀ x y : α, ¬cmp x y = .lt ∧ ¬cmp y x = .lt → cmp x y = .eq := by
      intro x y ⟨hxy, hyx⟩
      have hswap : cmp y x = (cmp x y).swap := Std.OrientedCmp.eq_swap
      rw [hswap] at hyx
      cases h : cmp x y with
      | lt => exact absurd h hxy
      | eq => rfl
      | gt => exact absurd (by rw [h]; rfl) hyx
    have hxz : cmp x z = .eq := Std.TransCmp.eq_trans (htie x y hxy) (htie y z hyz)
    have hzx : cmp z x = .eq := Std.OrientedCmp.eq_symm hxz
    simp [hxz, hzx]

lemma weakOn_before (h : ∀ k ∈ keys, Transitive (column k.name B)) :
    Sorting.WeakOn (before keys) B := by
  have hcmp := transCmp_compareBy h
  have hless : (fun u v : B => before keys u v = true) =
      fun u v : B => compareBy keys u v = .lt := by
    funext u v
    rw [before_eq, beq_iff_eq]
  rw [Sorting.WeakOn, hless]
  exact isStrictWeakOrder_of_transCmp _

lemma before_single {name : String} : before [⟨name, false⟩] v u = false ↔
    (compareCells (u.find? name) (v.find? name)).isLE := by
  rw [before_eq, compareCells_swap (v.find? name)]
  simp only [compareBy, OrderKey.compare]
  cases compareCells (v.find? name) (u.find? name) <;> simp

/-- A single ascending key shows its column. -/
lemma transitive_of_weakOn {name : String} (h : Sorting.WeakOn (before [⟨name, false⟩]) B) :
    Transitive (column name B) := by
  rintro _ ⟨u, hu, rfl⟩ _ ⟨v, hv, rfl⟩ _ ⟨w, hw, rfl⟩ huv hvw
  rw [← before_single] at huv hvw ⊢
  exact h.trans_false hu hv hw huv hvw

/-! ### Rows in order -/

/-- The rows of a query are in order where each of its keys has a column of numbers and texts that
are not mixed. -/
lemma pairwise_solutions (h : ∀ k ∈ q.order,
    Numbers (column k.name {u | u ∈ q.solutions source}) ∧
      Unmixed (column k.name {u | u ∈ q.solutions source})) :
    (q.solutions source).Pairwise fun u v => before q.order v u = false := by
  have hweak : Sorting.WeakOn (before q.order) {u | u ∈ q.solutions source} :=
    weakOn_before fun k hk => transitive_of_unmixed (h k hk).1 (h k hk).2
  unfold Select.solutions at hweak ⊢
  dsimp only at hweak ⊢
  split
  · rename_i hempty
    rw [List.isEmpty_iff.mp hempty]
    exact List.pairwise_of_forall fun _ _ => rfl
  · rename_i hsome
    rw [if_neg hsome] at hweak
    exact Sorting.pairwise_stable hweak fun u hu => (Sorting.stable_perm _).mem_iff.mpr hu

/-- **When answers are in order.** Turned round, the comparison of two cells says the opposite. On
numbers and texts it is transitive, and by any keys a strict weak order of the bindings, exactly
where no text lies between two numbers that are not in the order of their values; and of a query
with such columns no row is less than one before it. -/
theorem answers_ordered_iff (a b : Option Term) (S : Set (Option Term)) (B : Set Binding)
    (q : Select) (source : Source) :
    compareCells b a = (compareCells a b).swap ∧
    (Numbers S → (Transitive S ↔ Unmixed S)) ∧
    ((∀ name, Numbers (column name B)) →
      ((∀ keys, Sorting.WeakOn (before keys) B) ↔ ∀ name, Unmixed (column name B))) ∧
    ((∀ k ∈ q.order,
        Numbers (column k.name {u | u ∈ q.solutions source}) ∧
          Unmixed (column k.name {u | u ∈ q.solutions source})) →
      (q.solutions source).Pairwise fun u v => before q.order v u = false) := by
  refine ⟨compareCells_swap a b, transitive_iff, fun hnum => ?_, pairwise_solutions⟩
  constructor
  · intro h name
    exact unmixed_of_transitive (transitive_of_weakOn (h [⟨name, false⟩]))
  · intro h keys
    exact weakOn_before fun k _ => transitive_of_unmixed (hnum k.name) (h k.name)

/-- Things with a weight each. -/
def weights (ts : List Term) : Graph :=
  .ofList (ts.map fun t => ⟨.iri ("urn:" ++ t.content), .iri "urn:weight", t⟩)

def byWeight : Select where
  distinct := false
  projection := .these ["w"]
  patterns := [⟨.var "s", .term (.iri "urn:weight"), .var "w"⟩]
  filters := []
  order := [⟨"w", false⟩]
  limit := none
  offset := none

/-- Numbers of two types, and a word that comes behind them all. -/
def heavyWeights : List Term :=
  [.string "heavy", .integer 10, .typed "9.5" Vocabulary.xsdDouble, .integer 9]

lemma mem_column_byWeight {ts : List Term}
    (h : ∀ u ∈ join (weights ts).matching byWeight.patterns, ∀ t ∈ u.find? "w", t ∈ ts)
    (ht : some t ∈ column "w" {u | u ∈ byWeight.solutions (weights ts).matching}) : t ∈ ts := by
  obtain ⟨u, hu, hut⟩ := ht
  exact h u (mem_solutions.mp hu).1 t hut

theorem answers_ordered_iff_weights :
    let source := (weights heavyWeights).matching
    let S := column "w" {u | u ∈ byWeight.solutions source}
    Numbers S ∧ Unmixed S ∧ Transitive S ∧
      (byWeight.solutions source).Pairwise fun u v => before byWeight.order v u = false := by
  intro source S
  have hmem : ∀ t, some t ∈ S → t ∈ heavyWeights :=
    fun t => mem_column_byWeight (by decide +kernel)
  have hnum : Numbers S := by
    have h : ∀ t ∈ heavyWeights, ∀ x, t.number? = some x → x.isNaN = false := by decide +kernel
    exact fun t ht => h t (hmem t ht)
  have hun : Unmixed S := by
    have h : ∀ l ∈ heavyWeights, ∀ m ∈ heavyWeights, ∀ n ∈ heavyWeights,
        ∀ x, l.number? = some x → ∀ y, n.number? = some y → m.isLiteral → m.number? = none →
          l.content ≤ m.content → m.content ≤ n.content → l.content ≠ n.content →
            x.less y = true := by decide +kernel
    intro l m n hl hm hn x y hx hlit hnone hy
    exact h l (hmem l hl) m (hmem m hm) n (hmem n hn) x hx y hy hlit hnone
  obtain ⟨-, htrans, -, hrows⟩ := answers_ordered_iff none none S ∅ byWeight source
  refine ⟨hnum, hun, (htrans hnum).mpr hun, hrows ?_⟩
  intro k hk
  obtain rfl := List.mem_singleton.mp hk
  exact ⟨hnum, hun⟩

/-- Nine before ten before the string five before nine: these have no order, however the rows are
put. -/
theorem circle_of_weights :
    let ts : List Term := [.integer 10, .string "5", .integer 9]
    Numbers {c | c ∈ ts.map some} ∧ ¬Transitive {c | c ∈ ts.map some} ∧
      ¬(byWeight.solutions (weights ts).matching).Pairwise
        fun u v => before byWeight.order v u = false := by
  intro ts
  refine ⟨?_, ?_, ?_⟩
  · have h : ∀ t ∈ ts, ∀ x, t.number? = some x → x.isNaN = false := by decide +kernel
    intro t ht
    obtain ⟨s, hs, heq⟩ := List.mem_map.mp ht
    exact h t (Option.some_inj.mp heq ▸ hs)
  · intro h
    have hle := h (some (.integer 9)) (by decide) (some (.integer 10)) (by decide)
      (some (.string "5")) (by decide) (by decide +kernel) (by decide +kernel)
    exact absurd hle (by decide +kernel)
  · have hall : ∀ us ∈ (join (weights ts).matching byWeight.patterns).permutations',
        ¬us.Pairwise fun u v => before byWeight.order v u = false := by decide +kernel
    have hperm : (byWeight.solutions (weights ts).matching).Perm
        (join (weights ts).matching byWeight.patterns) := by
      have hkept : (join (weights ts).matching byWeight.patterns).filter
          (fun b => byWeight.filters.all (·.keeps b)) =
            join (weights ts).matching byWeight.patterns := by simp [byWeight]
      rw [Select.solutions, hkept]
      exact Sorting.stable_perm _
    exact hall _ (List.mem_permutations'.mpr hperm)

end Semlift.Query
