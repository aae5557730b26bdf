import Mathlib.Data.List.Induction
import Semlift.Proofs.Lists
import Semlift.Proofs.Program.Accepted

/-!
Classes that objects may be made of. In the table of an accepted program every declared class stands
under its own name, every class that a body makes objects of is concrete, and whatever method is
looked up in a concrete class has a body to run.
-/

namespace Semlift.Program

open Semlift.Lang Semlift.Text

variable {p : Source} {t : ClassTable} {c d : ClassDecl} {i : ClassInfo} {l : Layout}
  {cs known pending ordered : List ClassDecl} {m : MethodInfo} {className method : String}

/-- A class of the table that objects may be made of. -/
structure ClassTable.Concrete (t : ClassTable) (className : String) : Prop where
  has : t.has className = true
  notAbstract : t.isAbstract className = false

lemma concrete_of_find? (hf : t.find? className = some i) (ha : i.abstract = false) :
    t.Concrete className :=
  ⟨by simp [ClassTable.has, hf], by simp [ClassTable.isAbstract, hf, ha]⟩

/-! ### Every class is laid out -/

/-- Without a flaw all classes are known, under names of their own. -/
lemma declared_of_flawless (h : (declared cs).2 = []) :
    (declared cs).1 = cs ∧ (cs.map (·.name)).Nodup := by
  induction cs using List.reverseRecOn with
  | nil => exact ⟨rfl, .nil⟩
  | append_singleton cs c ih =>
    simp only [declared, List.foldl_concat] at h ih ⊢
    split at h
    · simp at h
    · rename_i hbuiltin
      split at h
      · simp at h
      · rename_i hnew
        obtain ⟨hknown, hnodup⟩ := ih (List.append_eq_nil_iff.1 h).1
        rw [if_neg hbuiltin, if_neg hnew, hknown]
        refine ⟨rfl, ?_⟩
        rw [hknown, Bool.not_eq_true, List.contains_eq_mem, decide_eq_false_iff_not] at hnew
        rw [List.map_append]
        refine List.nodup_append.2 ⟨hnodup, by simp, fun a ha b hb e => hnew ?_⟩
        simp only [List.map_cons, List.map_nil, List.mem_singleton] at hb
        exact hb ▸ e ▸ ha

lemma mem_pass_of_mem {done : List String} (h : c ∈ pending) :
    c ∈ (pass done pending).1 ∨ c ∈ (pass done pending).2 := by
  induction pending using List.reverseRecOn with
  | nil => simp at h
  | append_singleton pending d ih =>
    simp only [pass, List.foldl_concat] at ih ⊢
    -- the last class goes to one of the two lists, those before it stay where they are
    rcases List.mem_append.1 h with h | h
    · have := ih h
      split <;> (try split) <;> simp only [List.mem_append] <;> tauto
    · rw [List.mem_singleton.1 h]
      split <;> (try split) <;> simp

lemma mem_arrange_of_mem {n : Nat} {done : List String}
    (h : arrange n done pending = some ordered) (hc : c ∈ pending) : c ∈ ordered := by
  induction n generalizing done pending ordered with
  | zero =>
    cases pending with
    | nil => simp at hc
    | cons => simp [arrange] at h
  | succ n ih =>
    cases pending with
    | nil => simp at hc
    | cons d more =>
      simp only [arrange] at h
      split at h
      · simp at h
      · obtain ⟨later, hlater, rfl⟩ := Option.map_eq_some_iff.1 h
        rcases mem_pass_of_mem hc with hnow | hpending
        · exact List.mem_append_left _ hnow
        · exact List.mem_append_right _ (ih hlater hpending)

/-- What the table keeps of a declaration, besides the fields. -/
structure ClassInfo.Declares (i : ClassInfo) (c : ClassDecl) : Prop where
  name : i.name = c.name
  superclass : i.superclass = c.superclass
  abstract : i.abstract = c.abstract
  methods : i.methods =
    c.methods.map fun m => ⟨m.name, m.params, m.returnType, m.body, m.abstract, c.name⟩

lemma declares_layout (hi : i ∈ (ordered.foldl layOut ⟨[], [], []⟩).classes) :
    ∃ c ∈ ordered, i.Declares c := by
  induction ordered using List.reverseRecOn with
  | nil => simp at hi
  | append_singleton ordered c ih =>
    rw [List.foldl_concat, layOut, List.mem_append, List.mem_singleton] at hi
    rcases hi with hi | rfl
    · obtain ⟨d, hd, hdecl⟩ := ih hi
      exact ⟨d, List.mem_append_left _ hd, hdecl⟩
    · exact ⟨c, by simp, rfl, rfl, rfl, rfl⟩

lemma exists_layout (hc : c ∈ ordered) :
    ∃ i ∈ (ordered.foldl layOut ⟨[], [], []⟩).classes, i.name = c.name := by
  induction ordered using List.reverseRecOn with
  | nil => simp at hc
  | append_singleton ordered d ih =>
    simp only [List.foldl_concat, layOut, List.mem_append, List.mem_singleton]
    rcases List.mem_append.1 hc with hc | hc
    · obtain ⟨i, hi, hname⟩ := ih hc
      exact ⟨i, .inl hi, hname⟩
    · exact ⟨_, .inr rfl, by rw [List.mem_singleton.1 hc]⟩

/-! ### The entries of the table -/

/-- An entry of the table is declared or built in. -/
lemma declares_table {main : Option Stmt} (ho : ∀ c ∈ ordered, c ∈ known)
    (hi : i ∈ ((ordered.foldl layOut ⟨[], [], []⟩).table known main).classes) :
    (∃ c ∈ known, i.Declares c) ∨ i = listInfo ∨ i = entryInfo := by
  simp only [Layout.table, List.mem_append, List.mem_filterMap, List.mem_cons, List.not_mem_nil,
    or_false] at hi
  rcases hi with ⟨c, -, hf⟩ | hbuiltin
  · obtain ⟨d, hd, hdeclares⟩ := declares_layout (List.mem_of_find?_eq_some hf)
    exact .inl ⟨d, ho d hd, hdeclares⟩
  · exact .inr hbuiltin

/-- The only entry of the table under the name of a class comes from its declaration. -/
lemma exists_find?_table (main : Option Stmt) (ho : ∀ c, c ∈ ordered ↔ c ∈ known)
    (hb : ∀ c ∈ known, isBuiltin c.name = false) (hn : (known.map (·.name)).Nodup)
    (hc : c ∈ known) :
    ∃ i, ((ordered.foldl layOut ⟨[], [], []⟩).table known main).find? c.name = some i ∧
      i.Declares c := by
  obtain ⟨i, hi, hname⟩ := exists_layout ((ho c).2 hc)
  obtain ⟨k, hk⟩ : ∃ k, (ordered.foldl layOut ⟨[], [], []⟩).classes.find?
      (·.name == c.name) = some k := Option.isSome_iff_exists.1 <|
    List.find?_isSome.2 ⟨i, hi, by simp [hname]⟩
  have hmem : k ∈ ((ordered.foldl layOut ⟨[], [], []⟩).table known main).classes :=
    List.mem_append_left _ (List.mem_filterMap.2 ⟨c, hc, hk⟩)
  have hkname : k.name = c.name := by simpa using List.find?_some hk
  obtain ⟨j, hj⟩ : ∃ j, ((ordered.foldl layOut ⟨[], [], []⟩).table known main).find? c.name =
      some j := Option.isSome_iff_exists.1 <| List.find?_isSome.2 ⟨k, hmem, by simp [hkname]⟩
  have hjname : j.name = c.name := by simpa using List.find?_some hj
  refine ⟨j, hj, ?_⟩
  have hown := hb c hc
  rcases declares_table (fun d hd => (ho d).1 hd) (List.mem_of_find?_eq_some hj) with
    ⟨d, hd, hdeclares⟩ | rfl | rfl
  · exact List.inj_on_of_nodup_map hn hd hc (hdeclares.name ▸ hjname) ▸ hdeclares
  · rw [← hjname] at hown
    simp [listInfo, isBuiltin] at hown
  · rw [← hjname] at hown
    simp [entryInfo, isBuiltin] at hown

/-! ### Methods without flaws -/

lemma flaws_addField {st : List FieldInfo × List (String × String) × List Flaw} {f : FieldDecl}
    (h : (addField className st f).2.2 = []) : st.2.2 = [] := by
  obtain ⟨fields, models, flaws⟩ := st
  unfold addField at h
  dsimp only at h ⊢
  split at h
  · dsimp only at h
    split at h
    · exact h
    · exact (List.append_eq_nil_iff.1 h).1
  · split at h
    · exact h
    · dsimp only at h
      split at h
      · exact h
      · exact (List.append_eq_nil_iff.1 h).1

lemma flaws_foldl_addField {st : List FieldInfo × List (String × String) × List Flaw}
    (fs : List FieldDecl) (h : (fs.foldl (addField className) st).2.2 = []) : st.2.2 = [] := by
  induction fs generalizing st with
  | nil => exact h
  | cons f fs ih => exact flaws_addField (ih h)

lemma flaws_layOut (h : (layOut l c).flaws = []) :
    l.flaws = [] ∧ c.methods.flatMap (MethodDecl.flaws c) = [] := by
  simp only [layOut, List.append_eq_nil_iff] at h
  exact ⟨flaws_foldl_addField _ h.1.1, h.1.2⟩

lemma methodFlaws_of_layout (h : (ordered.foldl layOut ⟨[], [], []⟩).flaws = [])
    (hc : c ∈ ordered) : c.methods.flatMap (MethodDecl.flaws c) = [] := by
  induction ordered using List.reverseRecOn with
  | nil => simp at hc
  | append_singleton ordered d ih =>
    rw [List.foldl_concat] at h
    obtain ⟨hbefore, hd⟩ := flaws_layOut h
    rcases List.mem_append.1 hc with hc | hc
    · exact ih hbefore hc
    · rw [List.mem_singleton.1 hc]
      exact hd

lemma body_of_flawless {m : MethodDecl} (h : MethodDecl.flaws c m = []) (ha : m.abstract = false) :
    m.body.isSome = true := by
  simp only [MethodDecl.flaws, ha, Bool.false_and, Bool.not_false, Bool.true_and,
    List.append_eq_nil_iff] at h
  have hbody := h.2
  split at hbody
  · simp at hbody
  · rename_i hb
    simpa [Option.isSome_iff_ne_none] using hb

/-! ### The finished table -/

/-- What the checks of the finished table promise. -/
structure ClassTable.Checked (p : Source) (t : ClassTable) : Prop where
  /-- A class of the table is a declared one or has neither methods nor a superclass. -/
  declared : ∀ {className i}, t.find? className = some i →
    (∃ c ∈ p.classes, i.Declares c) ∨ i.methods = [] ∧ i.superclass = none
  classes : ∀ c ∈ p.classes, ∃ i, t.find? c.name = some i ∧ i.Declares c
  bodies : ∀ c ∈ p.classes, ∀ m ∈ c.methods, m.abstract = false → m.body.isSome = true
  missing : ∀ c ∈ p.classes, missingMethods t c = []
  main : t.main = p.main
  list : t.Concrete listClass
  entry : t.Concrete entryClass
  created : ∀ i ∈ t.classes, ∀ m ∈ i.methods, methodFlaws t i m = []
  createdMain : ∀ b, t.main = some b → bodyFlaws t b [] .main = []

lemma checked_of_build (h : p.build = .ok t) : t.Checked p := by
  obtain ⟨-, hflawless, -, ordered, ho, ht, hlayout, htable⟩ := build_eq_ok h
  obtain ⟨hknown, hnodup⟩ := declared_of_flawless hflawless
  rw [hknown] at ho ht
  have hordered : ∀ c, c ∈ ordered ↔ c ∈ p.classes := fun c =>
    ⟨mem_arrange ho, mem_arrange_of_mem ho⟩
  have hown : ∀ c ∈ p.classes, isBuiltin c.name = false := fun c hc =>
    (mem_declared (hknown.symm ▸ hc : c ∈ (Program.declared p.classes).1)).2
  have hbuiltin : ∀ name, isBuiltin name = true →
      t.find? name = [listInfo, entryInfo].find? (·.name == name) := fun name hn =>
    ht ▸ find?_table_builtin hown hn
  simp only [tableFlaws, List.append_eq_nil_iff, List.flatMap_eq_nil_iff] at htable
  obtain ⟨⟨hmissing, hmethods⟩, hmain⟩ := htable
  refine ⟨fun {className i} hf => ?_, fun c hc => ?_, fun c hc m hm ha => ?_, hmissing,
    by rw [ht]; rfl, ?_, ?_, hmethods, fun b hb => ?_⟩
  · have hi := List.mem_of_find?_eq_some hf
    rw [ht] at hi
    rcases declares_table (fun c hc => (hordered c).1 hc) hi with hdeclares | rfl | rfl
    · exact .inl hdeclares
    · exact .inr ⟨rfl, rfl⟩
    · exact .inr ⟨rfl, rfl⟩
  · rw [ht]
    exact exists_find?_table p.main hordered hown hnodup hc
  · have hflaws := methodFlaws_of_layout hlayout ((hordered c).2 hc)
    exact body_of_flawless (List.flatMap_eq_nil_iff.1 hflaws m hm) ha
  · exact concrete_of_find? (hbuiltin _ (by decide)) rfl
  · exact concrete_of_find? (hbuiltin _ (by decide)) rfl
  · rw [hb] at hmain
    exact hmain

/-! ### Methods that are looked up -/

lemma ClassTable.mem_methods_of_lookup? (h : t.lookup? className method = some m) :
    ∃ d ∈ t.lineage className, m ∈ t.methods d ∧ m.name = method := by
  obtain ⟨d, hd, hf⟩ := List.exists_of_findSome?_eq_some h
  exact ⟨d, hd, List.mem_of_find?_eq_some hf, by simpa using List.find?_some hf⟩

/-- A class without methods and superclass answers no call. -/
lemma ClassTable.lookup?_of_bare (hf : t.find? className = some i) (hm : i.methods = [])
    (hs : i.superclass = none) : t.lookup? className method = none := by
  have hlineage : t.lineage className = [className] := by
    unfold lineage
    cases t.classes.length with
    | zero => rfl
    | succ n => simp [lineageFrom, superclass?, hf, hs]
  simp [lookup?, hlineage, methods, hf, hm]

/-- **Concrete classes implement their methods**: what is looked up in one has a body. -/
theorem ClassTable.Checked.body_of_lookup? (ht : t.Checked p) (hc : t.Concrete className)
    (hl : t.lookup? className method = some m) :
    m.abstract = false ∧ ∃ b, m.body = some b := by
  obtain ⟨i, hi⟩ := Option.isSome_iff_exists.1 hc.has
  obtain ⟨d, hd, hmem, hname⟩ := mem_methods_of_lookup? hl
  have habstract : m.abstract = false := by
    rcases ht.declared hi with ⟨c, hcp, hdecl⟩ | ⟨hm, hs⟩
    · have hconcrete : c.abstract = false := by
        have := hc.notAbstract
        rw [isAbstract, hi] at this
        exact hdecl.abstract ▸ this
      have hcname : c.name = className := by
        rw [← hdecl.name]
        simpa using List.find?_some hi
      have hmissing := ht.missing c hcp
      simp only [missingMethods, hconcrete, Bool.false_eq_true, if_false, List.map_eq_nil_iff,
        List.filter_eq_nil_iff, mem_sortNames, hcname, List.mem_flatMap, List.mem_map] at hmissing
      have := hmissing method ⟨d, hd, m, hmem, hname⟩
      simpa [hl] using this
    · rw [lookup?_of_bare hi hm hs] at hl
      simp at hl
  refine ⟨habstract, Option.isSome_iff_exists.1 ?_⟩
  -- the method is one of a declared class, and only abstract ones may lack a body
  cases hj : t.find? d with
  | none => simp [methods, hj] at hmem
  | some j =>
    simp only [methods, hj, Option.map_some, Option.getD_some] at hmem
    rcases ht.declared hj with ⟨e, he, hdecl⟩ | ⟨hm, -⟩
    · rw [hdecl.methods] at hmem
      obtain ⟨n, hn, rfl⟩ := List.mem_map.1 hmem
      exact ht.bodies e he n hn habstract
    · simp [hm] at hmem

/-! ### Objects that bodies make -/

/-- Statements that make objects of a class which is not concrete. -/
def createsOther (t : ClassTable) : Stmt → Bool
  | .create _ _ className _ => !t.has className || t.isAbstract className
  | _ => false

lemma authored_createsOther : Stmt.Authored (createsOther t) :=
  ⟨fun _ _ _ => rfl, fun _ _ _ => rfl, fun _ => rfl⟩

/-- The walk over a body finds the class of every object that it may make. -/
lemma mem_creates {a : Stmt} {line : Int} {target : Loc} {args : List Expr}
    (h : .create line target className args ∈ a.parts) :
    className ∈ (Stmt.usage a).creates := by
  induction a with
  | seq n first second ihf ihs =>
    simp only [Stmt.parts, List.mem_cons, reduceCtorEq, List.mem_append, false_or] at h
    exact List.mem_append.2 (h.imp ihf ihs)
  | ifThen n condition body ih =>
    simp only [Stmt.parts, List.mem_cons, reduceCtorEq, false_or] at h
    exact List.mem_append_right _ (ih h)
  | ifElse n condition body other ihb iho =>
    simp only [Stmt.parts, List.mem_cons, reduceCtorEq, List.mem_append, false_or] at h
    exact List.mem_append.2 (h.imp (fun hb => List.mem_append_right _ (ihb hb)) iho)
  | «while» n condition body ih =>
    simp only [Stmt.parts, List.mem_cons, reduceCtorEq, false_or] at h
    exact List.mem_append_right _ (ih h)
  | create n target className args =>
    simp only [Stmt.parts, List.mem_singleton, Stmt.create.injEq] at h
    obtain ⟨-, -, rfl, -⟩ := h
    exact List.mem_append_right _ (List.mem_singleton_self _)
  | _ => simp [Stmt.parts] at h

lemma without_of_bodyFlaws {b : Stmt} {params : List ParamDecl} {place : Place}
    (h : bodyFlaws t b params place = []) : b.Without (createsOther t) := by
  intro a ha
  cases a with
  | create line target className args =>
    have hflaw := List.filterMap_eq_nil_iff.1 (List.append_eq_nil_iff.1 h).2 _ (mem_creates ha)
    simp only [createdFlaw] at hflaw
    split at hflaw
    · simp at hflaw
    · split at hflaw
      · simp at hflaw
      · simp_all [createsOther]
  | _ => rfl

/-- **No body makes an object of another class** than a concrete one. -/
theorem ClassTable.Checked.without_createsOther (ht : t.Checked p) :
    p.Without (createsOther t) := by
  intro b hb
  simp only [Source.bodies, List.mem_append, Option.mem_toList, List.mem_flatMap,
    List.mem_filterMap] at hb
  rcases hb with hb | ⟨c, hc, m, hm, hb⟩
  · exact without_of_bodyFlaws (ht.createdMain b (ht.main.trans hb))
  · obtain ⟨i, hi, hdecl⟩ := ht.classes c hc
    have hmem : (⟨m.name, m.params, m.returnType, m.body, m.abstract, c.name⟩ : MethodInfo) ∈
        i.methods := by
      rw [hdecl.methods]
      exact List.mem_map_of_mem hm
    have hflaws := ht.created i (List.mem_of_find?_eq_some hi) _ hmem
    simp only [methodFlaws, hb] at hflaws
    exact without_of_bodyFlaws hflaws

end Semlift.Program
