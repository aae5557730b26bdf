import Mathlib.Data.List.Perm.Basic
import Mathlib.Data.Set.List
import Mathlib.Order.Defs.Unbundled
import Mathlib.Tactic.Lemma
import Mathlib.Tactic.Lift
import Semlift.Query.Order

/-!
Sorting rearranges. Whatever the comparison says, and also if it is no order at all, the sort gives
back the elements that it was given: each of its steps is a permutation. Where the comparison is a
strict weak order of the elements, each step keeps the runs sorted, and the whole is sorted.
-/

namespace Semlift.Query.Sorting

variable {α : Type} {lt : α → α → Bool} {x : α} {xs ys run : List α} {rs : List (List α)}
  {size : Nat}

lemma insertBack_perm : (insertBack lt x ys).Perm (x :: ys) := by
  induction ys with
  | nil => exact .refl _
  | cons y ys ih =>
    rw [insertBack]
    split
    · exact (ih.cons y).trans (.swap x y ys)
    · exact .refl _

lemma insert_perm : (insert lt run x).Perm (x :: run) := by
  unfold insert
  split
  · exact .refl _
  · rename_i first more
    split
    · exact .refl _
    · exact (List.reverse_perm _).trans
        (insertBack_perm.trans ((List.reverse_perm _).cons x))

lemma foldl_insert_perm : (xs.foldl (insert lt) run).Perm (xs ++ run) := by
  induction xs generalizing run with
  | nil => exact .refl _
  | cons x xs ih =>
    rw [List.foldl_cons]
    exact ih.trans ((insert_perm.append_left xs).trans List.perm_middle)

lemma runs_perm : (runs lt size xs).flatten.Perm xs := by
  fun_induction runs lt size xs with
  | case1 => exact .refl _
  | case2 x more ih =>
    have hrun : ((x :: more.take size).foldl (insert lt) []).Perm (x :: more.take size) :=
      foldl_insert_perm.trans (.of_eq (List.append_nil _))
    have hsplit : (x :: more.take size) ++ more.drop size = x :: more := by simp
    rw [List.flatten_cons]
    exact (hrun.append ih).trans (.of_eq hsplit)

lemma merge_perm : (merge lt xs ys).Perm (xs ++ ys) := List.merge_perm_append _

lemma mergeBack_perm : (mergeBack lt xs ys).Perm (xs ++ ys) :=
  calc (mergeBack lt xs ys).Perm (List.merge ys.reverse xs.reverse fun y x => !lt y x) :=
        List.reverse_perm _
    List.Perm _ (ys.reverse ++ xs.reverse) := List.merge_perm_append _
    List.Perm _ (xs ++ ys) := by
      rw [← List.reverse_append]
      exact List.reverse_perm _

lemma mergePairs_perm : (mergePairs lt rs).flatten.Perm rs.flatten := by
  fun_induction mergePairs lt rs with
  | case1 a b more ih =>
    simp only [List.flatten_cons]
    exact (merge_perm.append ih).trans (.of_eq (List.append_assoc _ _ _))
  | case2 => exact .refl _

lemma mergeAll_perm : (mergeAll lt rs).Perm rs.flatten := by
  fun_induction Sorting.mergeAll lt rs with
  | case1 => exact .refl _
  | case2 r => exact .of_eq (by simp)
  | case3 a b more ih => exact ih.trans mergePairs_perm

lemma half_perm : (half lt xs).Perm xs := mergeAll_perm.trans runs_perm

/-- **The sort is a permutation**, whatever it compares by. -/
theorem stable_perm (xs : List α) : (stable lt xs).Perm xs := by
  have hsplit := List.take_append_drop ((xs.length + 1) / 2) xs
  have hhalves : (half lt (xs.take ((xs.length + 1) / 2)) ++
      half lt (xs.drop ((xs.length + 1) / 2))).Perm xs :=
    (half_perm.append half_perm).trans (.of_eq hsplit)
  unfold stable
  dsimp only
  split
  · exact merge_perm.trans hhalves
  · exact mergeBack_perm.trans hhalves

/-! ### Sorted runs -/

variable {S : Set α} {y z : α}

/-- Whether a comparison is a strict weak order of the elements of a set. -/
def WeakOn (lt : α → α → Bool) (S : Set α) : Prop :=
  IsStrictWeakOrder S fun x y => lt x y = true

lemma WeakOn.asymm (h : WeakOn lt S) (hx : x ∈ S) (hy : y ∈ S) (hlt : lt x y = true) :
    lt y x = false := by
  rw [Bool.eq_false_iff]
  intro hgt
  exact h.irrefl ⟨x, hx⟩ (h.trans ⟨x, hx⟩ ⟨y, hy⟩ ⟨x, hx⟩ hlt hgt)

/-- What is not less than what is not less is not less. -/
lemma WeakOn.trans_false (h : WeakOn lt S) (hx : x ∈ S) (hy : y ∈ S) (hz : z ∈ S)
    (hyx : lt y x = false) (hzy : lt z y = false) : lt z x = false := by
  rw [Bool.eq_false_iff] at hyx hzy ⊢
  intro hzx
  have hxy : ¬lt x y = true := fun hxy => hzy (h.trans ⟨z, hz⟩ ⟨x, hx⟩ ⟨y, hy⟩ hzx hxy)
  have hyz : ¬lt y z = true := fun hyz => hyx (h.trans ⟨y, hy⟩ ⟨z, hz⟩ ⟨x, hx⟩ hyz hzx)
  have hties := h.incomp_trans ⟨x, hx⟩ ⟨y, hy⟩ ⟨z, hz⟩ ⟨hxy, hyx⟩ ⟨hyz, hzy⟩
  exact hties.2 hzx

/-- Elements of a set of which none is less than one before it. -/
structure Run (lt : α → α → Bool) (S : Set α) (xs : List α) : Prop where
  mem : ∀ x ∈ xs, x ∈ S
  ordered : xs.Pairwise fun x y => lt y x = false

lemma Run.nil : Run lt S [] := ⟨by simp, .nil⟩

lemma pairwise_insertBack (h : WeakOn lt S) (hx : x ∈ S) (hys : ∀ y ∈ ys, y ∈ S)
    (hp : ys.Pairwise fun x y => lt x y = false) :
    (insertBack lt x ys).Pairwise fun x y => lt x y = false := by
  induction ys with
  | nil => exact List.pairwise_singleton _ _
  | cons y ys ih =>
    have hy : y ∈ S := hys y (by simp)
    have hrest : ∀ z ∈ ys, z ∈ S := fun z hz => hys z (by simp [hz])
    obtain ⟨hfirst, htail⟩ := List.pairwise_cons.mp hp
    rw [insertBack]
    split
    · rename_i hlt
      refine List.pairwise_cons.mpr ⟨fun z hz => ?_, ih hrest htail⟩
      obtain rfl | hz := List.mem_cons.mp (insertBack_perm.mem_iff.mp hz)
      · exact h.asymm hx hy hlt
      · exact hfirst z hz
    · rename_i hlt
      have hxy : lt x y = false := Bool.eq_false_iff.mpr hlt
      refine List.pairwise_cons.mpr ⟨fun z hz => ?_, hp⟩
      obtain rfl | hz := List.mem_cons.mp hz
      · exact hxy
      · exact h.trans_false (hrest z hz) hy hx (hfirst z hz) hxy

/-- An element inserted into a sorted run. -/
lemma Run.insert (h : WeakOn lt S) (hx : x ∈ S) (hr : Run lt S run) :
    Run lt S (insert lt run x) := by
  constructor
  · intro y hy
    obtain rfl | hy := List.mem_cons.mp (insert_perm.mem_iff.mp hy)
    · exact hx
    · exact hr.mem y hy
  unfold Sorting.insert
  split
  · exact List.pairwise_singleton _ _
  rename_i first more
  split
  · rename_i hlt
    have hfirst : first ∈ S := hr.mem first (by simp)
    have hnot := h.asymm hx hfirst hlt
    refine List.pairwise_cons.mpr ⟨fun y hy => ?_, hr.ordered⟩
    obtain rfl | hmore := List.mem_cons.mp hy
    · exact hnot
    · exact h.trans_false hx hfirst (hr.mem y hy) hnot
        ((List.pairwise_cons.mp hr.ordered).1 y hmore)
  · rw [List.pairwise_reverse]
    refine pairwise_insertBack h hx (fun y hy => hr.mem y (List.mem_reverse.mp hy)) ?_
    exact List.pairwise_reverse.mpr hr.ordered

lemma Run.foldl_insert (h : WeakOn lt S) (hr : Run lt S run) (hxs : ∀ x ∈ xs, x ∈ S) :
    Run lt S (xs.foldl (Sorting.insert lt) run) := by
  induction xs generalizing run with
  | nil => exact hr
  | cons x xs ih =>
    rw [List.foldl_cons]
    exact ih (hr.insert h (hxs x (by simp))) fun y hy => hxs y (by simp [hy])

lemma run_of_mem_runs (h : WeakOn lt S) (hxs : ∀ x ∈ xs, x ∈ S) :
    ∀ r ∈ runs lt size xs, Run lt S r := by
  fun_induction runs lt size xs with
  | case1 => simp
  | case2 x more ih =>
    have hrest : ∀ y ∈ more.drop size, y ∈ S :=
      fun y hy => hxs y (List.mem_cons_of_mem _ (List.mem_of_mem_drop hy))
    have hfront : ∀ y ∈ x :: more.take size, y ∈ S := by
      intro y hy
      obtain rfl | hy := List.mem_cons.mp hy
      · exact hxs y (by simp)
      · exact hxs y (List.mem_cons_of_mem _ (List.mem_of_mem_take hy))
    intro r hr
    obtain rfl | hr := List.mem_cons.mp hr
    · exact Run.nil.foldl_insert h hfront
    · exact ih hrest r hr

/-! ### Sorted merges -/

/-- Merging keeps an order of the elements of a set. -/
lemma pairwise_merge_on {le : α → α → Bool}
    (htrans : ∀ x ∈ S, ∀ y ∈ S, ∀ z ∈ S, le x y = true → le y z = true → le x z = true)
    (htotal : ∀ x ∈ S, ∀ y ∈ S, le x y = true ∨ le y x = true)
    (hxs : ∀ x ∈ xs, x ∈ S) (hys : ∀ y ∈ ys, y ∈ S)
    (hx : xs.Pairwise fun x y => le x y = true) (hy : ys.Pairwise fun x y => le x y = true) :
    (List.merge xs ys le).Pairwise fun x y => le x y = true := by
  lift xs to List S using hxs
  lift ys to List S using hys
  rw [List.pairwise_map] at hx hy
  rw [← List.map_merge (r := fun x y : S => le x y) fun _ _ _ _ => rfl, List.pairwise_map]
  refine List.pairwise_merge (fun (x y z : S) => htrans x x.2 y y.2 z z.2)
    (fun (x y : S) => ?_) _ _ hx hy
  rw [Bool.or_eq_true]
  exact htotal x x.2 y y.2

lemma WeakOn.total_false (h : WeakOn lt S) (hx : x ∈ S) (hy : y ∈ S) :
    lt x y = false ∨ lt y x = false := by
  cases hlt : lt x y with
  | false => exact .inl rfl
  | true => exact .inr (h.asymm hx hy hlt)

lemma Run.merge (h : WeakOn lt S) (hx : Run lt S xs) (hy : Run lt S ys) :
    Run lt S (merge lt xs ys) := by
  constructor
  · intro z hz
    obtain hz | hz := List.mem_append.mp (merge_perm.mem_iff.mp hz)
    · exact hx.mem z hz
    · exact hy.mem z hz
  have hle : ∀ zs : List α, (zs.Pairwise fun x y => lt y x = false) ↔
      zs.Pairwise fun x y => (!lt y x) = true := fun zs => by simp only [Bool.not_eq_true']
  rw [hle]
  refine pairwise_merge_on (S := S) ?_ ?_ hx.mem hy.mem ((hle xs).mp hx.ordered)
    ((hle ys).mp hy.ordered)
  · intro x hx y hy z hz hxy hyz
    rw [Bool.not_eq_true'] at hxy hyz ⊢
    exact h.trans_false hx hy hz hxy hyz
  · intro x hx y hy
    simpa only [Bool.not_eq_true'] using (h.total_false hx hy).symm

lemma Run.mergeBack (h : WeakOn lt S) (hx : Run lt S xs) (hy : Run lt S ys) :
    Run lt S (mergeBack lt xs ys) := by
  constructor
  · intro z hz
    obtain hz | hz := List.mem_append.mp (mergeBack_perm.mem_iff.mp hz)
    · exact hx.mem z hz
    · exact hy.mem z hz
  have hle : ∀ zs : List α, (zs.Pairwise fun x y => lt y x = false) ↔
      zs.reverse.Pairwise fun y x => (!lt y x) = true := fun zs => by
    simp only [List.pairwise_reverse, Bool.not_eq_true']
  rw [hle, Sorting.mergeBack, List.reverse_reverse]
  refine pairwise_merge_on (S := S) ?_ ?_ (fun y h => hy.mem y (List.mem_reverse.mp h))
    (fun x h => hx.mem x (List.mem_reverse.mp h)) ((hle ys).mp hy.ordered) ((hle xs).mp hx.ordered)
  · intro x hx y hy z hz hxy hyz
    rw [Bool.not_eq_true'] at hxy hyz ⊢
    exact h.trans_false hz hy hx hyz hxy
  · intro x hx y hy
    simpa only [Bool.not_eq_true'] using h.total_false hx hy

lemma run_of_mem_mergePairs (h : WeakOn lt S) (hrs : ∀ r ∈ rs, Run lt S r) :
    ∀ r ∈ mergePairs lt rs, Run lt S r := by
  fun_induction mergePairs lt rs with
  | case1 a b more ih =>
    intro r hr
    obtain rfl | hr := List.mem_cons.mp hr
    · exact (hrs a (by simp)).merge h (hrs b (by simp))
    · exact ih (fun r hr => hrs r (by simp [hr])) r hr
  | case2 => exact hrs

lemma Run.mergeAll (h : WeakOn lt S) (hrs : ∀ r ∈ rs, Run lt S r) : Run lt S (mergeAll lt rs) := by
  fun_induction Sorting.mergeAll lt rs with
  | case1 => exact .nil
  | case2 r => exact hrs r (by simp)
  | case3 a b more ih => exact ih (run_of_mem_mergePairs h hrs)

lemma Run.half (h : WeakOn lt S) (hxs : ∀ x ∈ xs, x ∈ S) : Run lt S (half lt xs) :=
  Run.mergeAll h (run_of_mem_runs h hxs)

/-- **The sort sorts** by a comparison that is a strict weak order of the elements. -/
theorem pairwise_stable (h : WeakOn lt S) (hxs : ∀ x ∈ xs, x ∈ S) :
    (stable lt xs).Pairwise fun x y => lt y x = false := by
  have hfront : ∀ x ∈ xs.take ((xs.length + 1) / 2), x ∈ S :=
    fun x hx => hxs x (List.mem_of_mem_take hx)
  have hback : ∀ x ∈ xs.drop ((xs.length + 1) / 2), x ∈ S :=
    fun x hx => hxs x (List.mem_of_mem_drop hx)
  unfold stable
  dsimp only
  split
  · exact ((Run.half h hfront).merge h (Run.half h hback)).ordered
  · exact ((Run.half h hfront).mergeBack h (Run.half h hback)).ordered

end Semlift.Query.Sorting
