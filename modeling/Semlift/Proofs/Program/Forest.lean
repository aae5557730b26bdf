import Mathlib.Logic.Relation
import Mathlib.Order.WellFounded
import Semlift.Proofs.Program.Arranged

/-!
Superclasses as a forest. The lineage of a class holds exactly the classes that a chain of
superclasses leads to: every class on a shortest chain but the last is declared, so no chain outlasts
the number of classes.

Every program is built or refused for its flaws, since classes that pass the checks of their
superclasses can be put in order. In the table that is laid out then every climb through superclasses
ends, so being a subclass is a partial order, and the listing of subclasses is the superclass
relation read backwards.
-/

namespace Semlift.Program.ClassTable

open Relation

variable {t : ClassTable} {a b c : String} {n : Nat} {r : String → String → Prop}

/-- A class has another as its superclass. -/
def Extends (t : ClassTable) (a b : String) : Prop := t.superclass? a = some b

lemma mem_names_of_find? {i : ClassInfo} (h : t.find? a = some i) : a ∈ t.names := by
  have hname : i.name = a := by simpa using List.find?_some h
  exact hname ▸ List.mem_map_of_mem (List.mem_of_find?_eq_some h)

lemma mem_names_of_extends (h : t.Extends a b) : a ∈ t.names := by
  have h : (t.find? a).bind (·.superclass) = some b := h
  cases hf : t.find? a with
  | none => simp [hf] at h
  | some i => exact mem_names_of_find? hf

lemma lineageFrom_zero : t.lineageFrom 0 a = [a] := rfl

lemma lineageFrom_succ : t.lineageFrom (n + 1) a =
    (t.superclass? a).elim [a] fun s => a :: t.lineageFrom n s := by
  cases hs : t.superclass? a <;> simp [lineageFrom, hs]

lemma self_mem_lineageFrom : a ∈ t.lineageFrom n a := by
  cases n with
  | zero => exact List.mem_singleton_self a
  | succ n => cases hs : t.superclass? a <;> simp [lineageFrom_succ, hs]

lemma lineageFrom_of_extends (h : t.Extends a b) :
    t.lineageFrom (n + 1) a = a :: t.lineageFrom n b := by
  have h : t.superclass? a = some b := h
  rw [lineageFrom_succ, h, Option.elim_some]

lemma reflTransGen_of_mem_lineageFrom (h : b ∈ t.lineageFrom n a) :
    ReflTransGen t.Extends a b := by
  induction n generalizing a with
  | zero =>
    rw [lineageFrom_zero, List.mem_singleton] at h
    exact h ▸ .refl
  | succ n ih =>
    cases hs : t.superclass? a with
    | none =>
      rw [lineageFrom_succ, hs, Option.elim_none, List.mem_singleton] at h
      exact h ▸ .refl
    | some s =>
      rw [lineageFrom_of_extends hs] at h
      rcases List.mem_cons.1 h with rfl | h
      · exact .refl
      · exact (ih h).head hs

/-- A chain need not come back to where it begins. -/
lemma eq_or_exists_of_reflTransGen (h : ReflTransGen r a b) :
    a = b ∨ ∃ c, r a c ∧ ReflTransGen (fun x y => r x y ∧ x ≠ a) c b := by
  induction h with
  | refl => exact .inl rfl
  | @tail x y _ hxy ih =>
    by_cases hx : x = a
    · exact .inr ⟨y, hx ▸ hxy, .refl⟩
    · obtain rfl | ⟨c, hc, hchain⟩ := ih
      · exact absurd rfl hx
      · exact .inr ⟨c, hc, hchain.tail ⟨hxy, hx⟩⟩

/-- A chain through so many classes ends within as many steps. -/
lemma mem_lineageFrom_of_reflTransGen (through : List String)
    (hr : ∀ x y, r x y → t.Extends x y ∧ x ∈ through) (hn : through.length ≤ n)
    (h : ReflTransGen r a b) : b ∈ t.lineageFrom n a := by
  induction n generalizing r through a with
  | zero =>
    obtain rfl | ⟨c, hac, -⟩ := eq_or_exists_of_reflTransGen h
    · exact self_mem_lineageFrom
    · have := List.length_pos_of_mem (hr a c hac).2
      omega
  | succ n ih =>
    obtain rfl | ⟨c, hac, hchain⟩ := eq_or_exists_of_reflTransGen h
    · exact self_mem_lineageFrom
    · obtain ⟨hextends, ha⟩ := hr a c hac
      rw [lineageFrom_of_extends hextends]
      refine List.mem_cons_of_mem _ (ih (through.filter (· ≠ a)) ?_ ?_ hchain)
      · rintro x y ⟨hxy, hx⟩
        exact ⟨(hr x y hxy).1, List.mem_filter.2 ⟨(hr x y hxy).2, by simpa using hx⟩⟩
      · have hlt : (through.filter (· ≠ a)).length < through.length :=
          List.length_filter_lt_length_iff_exists.2 ⟨a, ha, by simp⟩
        omega

/-- **The classes above a class** are those that a chain of superclasses leads to. -/
theorem mem_lineage : b ∈ t.lineage a ↔ ReflTransGen t.Extends a b := by
  constructor
  · exact reflTransGen_of_mem_lineageFrom
  · refine mem_lineageFrom_of_reflTransGen t.names (fun x y h => ⟨h, ?_⟩) (by simp [names])
    exact mem_names_of_extends h

lemma isSubclass_iff : t.isSubclass a b ↔ ReflTransGen t.Extends a b := by
  rw [isSubclass, List.contains_iff_mem, mem_lineage]

end Semlift.Program.ClassTable

namespace Semlift.Program

open Relation Semlift.Lang

variable {p : Source} {t : ClassTable} {a b : String}

/-- The table that is laid out for a program, before methods and bodies are checked in it. -/
def Source.LaysOut (p : Source) (t : ClassTable) : Prop :=
  (declared p.classes).2 = [] ∧
    (declared p.classes).1.flatMap (ClassDecl.superclassFlaws (declared p.classes).1) = [] ∧
    ∃ ordered, arrange (declared p.classes).1.length [] (declared p.classes).1 = some ordered ∧
      t = (ordered.foldl layOut ⟨[], [], []⟩).table (declared p.classes).1 p.main

/-- The classes of a table stand in a forest: each has at most one superclass, both are declared,
and no climb through superclasses is endless. -/
structure ClassTable.Forest (p : Source) (t : ClassTable) : Prop where
  declared : ∀ a b, t.superclass? a = some b →
    a ∈ p.classes.map (·.name) ∧ b ∈ p.classes.map (·.name)
  climb : WellFounded fun b a => t.superclass? a = some b
  subclass : ∀ a b, t.isSubclass a b ↔ ReflTransGen (fun a b => t.superclass? a = some b) a b
  order : IsPartialOrder String fun a b => t.isSubclass a b
  subclasses : ∀ a b, b ∈ t.subclasses a ↔ t.superclass? b = some a

/-! ### Every program is built or refused -/

lemma build_ne_unordered (p : Source) : p.build ≠ .error .unordered := by
  unfold Source.build
  dsimp only
  generalize (if p.main.isNone then [Flaw.noMain] else []) = missing
  split
  · simp
  · rename_i hflaws
    rw [Bool.not_eq_true, Bool.not_eq_false', List.isEmpty_iff, List.append_eq_nil_iff,
      List.append_eq_nil_iff] at hflaws
    obtain ⟨⟨-, hdeclared⟩, hsuper⟩ := hflaws
    obtain ⟨hknown, hnodup⟩ := declared_of_flawless hdeclared
    have hnames : ((declared p.classes).1.map (·.name)).Nodup := by
      rw [hknown]
      exact hnodup
    obtain ⟨ordered, hordered⟩ := exists_arrange hnames hsuper
    rw [hordered]
    simp only
    split <;> simp

lemma laysOut_of_build (h : p.build = .ok t) : p.LaysOut t := by
  obtain ⟨-, hdeclared, hsuper, ordered, hordered, ht, -⟩ := build_eq_ok h
  exact ⟨hdeclared, hsuper, ordered, hordered, ht⟩

/-! ### The table that is laid out -/

/-- The superclasses of the table are the declared ones. -/
lemma superclass?_of_laysOut (h : p.LaysOut t) :
    t.superclass? a = some b ↔ Below p.classes b a := by
  obtain ⟨hdeclared, hsuper, ordered, hordered, ht⟩ := h
  obtain ⟨hknown, hnodup⟩ := declared_of_flawless hdeclared
  rw [hknown] at hordered ht
  have hmem : ∀ c, c ∈ ordered ↔ c ∈ p.classes := fun c =>
    ⟨mem_arrange hordered, mem_arrange_of_mem hordered⟩
  have hown : ∀ c ∈ p.classes, isBuiltin c.name = false := fun c hc =>
    (mem_declared (hknown.symm ▸ hc : c ∈ (Program.declared p.classes).1)).2
  constructor
  · intro hs
    obtain ⟨i, hi, hb⟩ := Option.bind_eq_some_iff.1 hs
    have hname : i.name = a := by simpa using List.find?_some hi
    have hentry := List.mem_of_find?_eq_some hi
    rw [ht] at hentry
    rcases declares_table (fun c hc => (hmem c).1 hc) hentry with ⟨c, hc, hdecl⟩ | rfl | rfl
    · rw [Below, ← hname, hdecl.name, superOf_name hnodup hc, ← hdecl.superclass, hb]
    · cases hb
    · cases hb
  · intro hs
    obtain ⟨c, hc, rfl, hb⟩ := exists_of_below hs
    obtain ⟨i, hi, hdecl⟩ := exists_find?_table p.main hmem hown hnodup hc
    rw [ClassTable.superclass?, ht, hi, Option.bind_some, hdecl.superclass, hb]

lemma mem_subclasses_of_laysOut (h : p.LaysOut t) :
    b ∈ t.subclasses a ↔ t.superclass? b = some a := by
  simp only [ClassTable.subclasses, Text.mem_sortNames, List.mem_map, List.mem_filter, beq_iff_eq]
  constructor
  · rintro ⟨i, ⟨hi, hs⟩, rfl⟩
    rw [superclass?_of_laysOut h]
    obtain ⟨hdeclared, -, ordered, hordered, ht⟩ := h
    obtain ⟨hknown, hnodup⟩ := declared_of_flawless hdeclared
    rw [hknown] at hordered ht
    rw [ht] at hi
    rcases declares_table (fun c hc => mem_arrange hordered hc) hi with ⟨c, hc, hdecl⟩ | rfl | rfl
    · rw [Below, hdecl.name, superOf_name hnodup hc, ← hdecl.superclass, hs]
    · cases hs
    · cases hs
  · intro hs
    obtain ⟨i, hi, hb⟩ := Option.bind_eq_some_iff.1 hs
    exact ⟨i, ⟨List.mem_of_find?_eq_some hi, hb⟩, by simpa using List.find?_some hi⟩

/-- Where no climb is endless, being a subclass is a partial order. -/
lemma order_of_climb (h : WellFounded fun b a => t.superclass? a = some b) :
    IsPartialOrder String fun a b => t.isSubclass a b where
  refl a := ClassTable.isSubclass_iff.2 .refl
  trans a b c hab hbc :=
    ClassTable.isSubclass_iff.2
      ((ClassTable.isSubclass_iff.1 hab).trans (ClassTable.isSubclass_iff.1 hbc))
  antisymm a b hab hba := by
    rcases reflTransGen_iff_eq_or_transGen.1 (ClassTable.isSubclass_iff.1 hab) with hab | hab
    · exact hab.symm
    · -- a chain that comes back could be climbed without end
      have hcircle : TransGen t.Extends a a := hab.trans_left (ClassTable.isSubclass_iff.1 hba)
      exact absurd (transGen_swap.2 hcircle) (h.transGen.irrefl.irrefl a)

lemma forest_of_laysOut (h : p.LaysOut t) : t.Forest p := by
  have hsuper : p.classes.flatMap (ClassDecl.superclassFlaws p.classes) = [] :=
    (declared_of_flawless h.1).1 ▸ h.2.1
  have hclimb : WellFounded fun b a => t.superclass? a = some b :=
    Subrelation.wf (fun hs => (superclass?_of_laysOut h).1 hs) (wellFounded_below hsuper)
  refine ⟨fun a b hs => ?_, hclimb, fun a b => ClassTable.isSubclass_iff, order_of_climb hclimb,
    fun a b => mem_subclasses_of_laysOut h⟩
  obtain ⟨c, hc, rfl, hb⟩ := exists_of_below ((superclass?_of_laysOut h).1 hs)
  exact ⟨List.mem_map_of_mem hc, mem_names_of_flawless hsuper hc hb⟩

/-- **Every program is built or refused for its flaws**: the search for circles ends, and the
classes that pass it can be put in order. The classes of the table laid out then, and so of the
table of an accepted program, stand in a forest. -/
theorem build_forest (p : Source) :
    (∀ c ∈ (declared p.classes).1, Climbs (declared p.classes).1 [c.name] c.superclass
      (runsInCircle (declared p.classes).1 ((declared p.classes).1.length + 1) [c.name]
        c.superclass)) ∧
      p.build ≠ .error .unordered ∧
      (∀ t, p.LaysOut t → t.Forest p) ∧ ∀ t, p.build = .ok t → t.Forest p :=
  ⟨fun c _ => climbs_superclasses _ c, build_ne_unordered p, fun _ h => forest_of_laysOut h,
    fun _ h => forest_of_laysOut (laysOut_of_build h)⟩

/-- Superclasses stand behind their subclasses in the text. -/
def figures : Source :=
  ⟨[⟨"Square", some "Rectangle", [], [], "", false⟩, ⟨"Rectangle", some "Shape", [], [], "", false⟩,
      ⟨"Circle", some "Shape", [], [], "", false⟩, ⟨"Shape", none, [], [], "", true⟩],
    some (.skip 1)⟩

/-- Three passes put the figures in order; squares are shapes through rectangles. -/
theorem build_forest_figures : ∃ t, figures.build = .ok t ∧ figures.LaysOut t ∧ t.Forest figures ∧
    t.superclass? "Square" = some "Rectangle" ∧ t.subclasses "Shape" = ["Circle", "Rectangle"] ∧
    t.isSubclass "Square" "Shape" ∧ ¬t.isSubclass "Shape" "Square" := by
  obtain ⟨-, -, hlaid, hbuilt⟩ := build_forest figures
  have hlaysOut : figures.LaysOut _ := ⟨rfl, rfl, _, rfl, rfl⟩
  refine ⟨_, rfl, hlaysOut, hlaid _ hlaysOut, rfl, rfl, rfl, fun h => ?_⟩
  exact absurd ((hbuilt _ rfl).order.antisymm _ _ h rfl) (by decide)

/-- The superclasses of a class may run into a circle that it is not part of. -/
example : (⟨[⟨"A", some "B", [], [], "", false⟩, ⟨"B", some "C", [], [], "", false⟩,
    ⟨"C", some "B", [], [], "", false⟩], some (.skip 1)⟩ : Source).build =
    .error (.flawed [.cycle "A", .cycle "B", .cycle "C"]) := rfl

end Semlift.Program
