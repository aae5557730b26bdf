import Semlift.Proofs.Lang.Nesting
import Semlift.Proofs.Program.Accepted

/-!
Programs that differ in how sequences are nested. They are laid out alike: their class tables differ
in the nesting only, and a class table says the same of classes, fields and methods however the
bodies are nested.
-/

namespace Semlift.Program

open Semlift.Lang

/-! ### Programs and tables in one form -/

def MethodDecl.tidy (m : MethodDecl) : MethodDecl := { m with body := m.body.map Stmt.tidy }

def ClassDecl.tidy (c : ClassDecl) : ClassDecl :=
  { c with methods := c.methods.map MethodDecl.tidy }

/-- The program with all sequences nested to the right. -/
def Source.tidy (p : Source) : Source := ⟨p.classes.map ClassDecl.tidy, p.main.map Stmt.tidy⟩

def MethodInfo.tidy (m : MethodInfo) : MethodInfo := { m with body := m.body.map Stmt.tidy }

def ClassInfo.tidy (c : ClassInfo) : ClassInfo :=
  { c with methods := c.methods.map MethodInfo.tidy }

def Layout.tidy (l : Layout) : Layout := { l with classes := l.classes.map ClassInfo.tidy }

/-- The table with all sequences nested to the right. -/
def ClassTable.tidy (t : ClassTable) : ClassTable :=
  ⟨t.classes.map ClassInfo.tidy, t.models, t.main.map Stmt.tidy⟩

/-! ### Programs that differ in the nesting only -/

structure MethodDecl.Renested (m m' : MethodDecl) : Prop where
  name : m.name = m'.name
  params : m.params = m'.params
  returnType : m.returnType = m'.returnType
  body : Option.Rel Stmt.Renested m.body m'.body
  abstract : m.abstract = m'.abstract

structure ClassDecl.Renested (c c' : ClassDecl) : Prop where
  name : c.name = c'.name
  superclass : c.superclass = c'.superclass
  fields : c.fields = c'.fields
  methods : List.Forall₂ MethodDecl.Renested c.methods c'.methods
  models : c.models = c'.models
  abstract : c.abstract = c'.abstract

/-- The programs differ only in how sequences are nested in their bodies. -/
structure Source.Renested (p q : Source) : Prop where
  classes : List.Forall₂ ClassDecl.Renested p.classes q.classes
  main : Option.Rel Stmt.Renested p.main q.main

lemma map_eq_of_forall₂ {α β : Type} {R : α → α → Prop} {l m : List α} (f : α → β)
    (hf : ∀ a b, R a b → f a = f b) (h : List.Forall₂ R l m) : l.map f = m.map f := by
  induction h with
  | nil => rfl
  | cons hab _ ih => rw [List.map_cons, List.map_cons, hf _ _ hab, ih]

/-- A fold over a list that was changed, where each step changes its result alike. -/
lemma foldl_map_hom {α α' β β' : Type} {f : α → α'} {g : β → α → β} {g' : β' → α' → β'}
    {l : List α} {b : β} {b' : β'} (F : β → β') (hb : F b = b')
    (h : ∀ b a, g' (F b) (f a) = F (g b a)) : (l.map f).foldl g' b' = F (l.foldl g b) := by
  rw [List.foldl_map, ← hb]
  exact List.foldl_hom F h

lemma map_tidy_of_rel {x y : Option Stmt} (h : Option.Rel Stmt.Renested x y) :
    x.map Stmt.tidy = y.map Stmt.tidy := by
  cases h with
  | none => rfl
  | some h => exact congrArg some (Stmt.renested_iff.1 h)

lemma MethodDecl.Renested.tidy {m m' : MethodDecl} (h : m.Renested m') : m.tidy = m'.tidy := by
  rw [MethodDecl.tidy, MethodDecl.tidy, map_tidy_of_rel h.body, h.name, h.params, h.returnType,
    h.abstract]

lemma ClassDecl.Renested.tidy {c c' : ClassDecl} (h : c.Renested c') : c.tidy = c'.tidy := by
  have hmethods : c.methods.map MethodDecl.tidy = c'.methods.map MethodDecl.tidy :=
    map_eq_of_forall₂ _ (fun _ _ h => h.tidy) h.methods
  rw [ClassDecl.tidy, ClassDecl.tidy, hmethods, h.name, h.superclass, h.fields, h.models,
    h.abstract]

lemma Source.Renested.tidy {p q : Source} (h : p.Renested q) : p.tidy = q.tidy := by
  have hclasses : p.classes.map ClassDecl.tidy = q.classes.map ClassDecl.tidy :=
    map_eq_of_forall₂ _ (fun _ _ h => h.tidy) h.classes
  rw [Source.tidy, Source.tidy, hclasses, map_tidy_of_rel h.main]

variable {p q : Source} {t u : ClassTable} {c : ClassDecl} {m : MethodDecl}
  {known pending : List ClassDecl} {l : Layout} {name : String}

/-! ### How programs are laid out -/

lemma repeatedMembers_tidy : c.tidy.repeatedMembers = c.repeatedMembers := by
  simp [ClassDecl.repeatedMembers, ClassDecl.tidy, MethodDecl.tidy, Function.comp_def]

lemma names_map_tidy : (known.map ClassDecl.tidy).map (·.name) = known.map (·.name) := by
  simp [ClassDecl.tidy, Function.comp_def]

lemma declared_tidy : declared (known.map ClassDecl.tidy) =
    ((declared known).1.map ClassDecl.tidy, (declared known).2) := by
  refine foldl_map_hom
    (fun st : List ClassDecl × List Flaw => (st.1.map ClassDecl.tidy, st.2)) rfl ?_
  rintro ⟨known, flaws⟩ c
  have hname : c.tidy.name = c.name := rfl
  simp only [names_map_tidy, repeatedMembers_tidy, hname]
  split
  · rfl
  · split
    · rfl
    · simp

lemma pass_tidy (done : List String) (pending : List ClassDecl) :
    pass done (pending.map ClassDecl.tidy) =
    ((pass done pending).1.map ClassDecl.tidy, (pass done pending).2.map ClassDecl.tidy) := by
  refine foldl_map_hom (fun st : List ClassDecl × List ClassDecl =>
    (st.1.map ClassDecl.tidy, st.2.map ClassDecl.tidy)) rfl ?_
  rintro ⟨now, later⟩ c
  have hsuper : c.tidy.superclass = c.superclass := rfl
  simp only [names_map_tidy, hsuper]
  split
  · split <;> simp
  · simp

lemma arrange_tidy {n : Nat} {done : List String} :
    arrange n done (pending.map ClassDecl.tidy) =
      (arrange n done pending).map (·.map ClassDecl.tidy) := by
  induction n generalizing done pending with
  | zero => cases pending <;> rfl
  | succ n ih =>
    cases pending with
    | nil => rfl
    | cons c pending =>
      have hpass := pass_tidy done (c :: pending)
      rw [List.map_cons] at hpass ⊢
      simp only [arrange, hpass, ih, names_map_tidy, List.isEmpty_map]
      split
      · rfl
      · simp [Option.map_map, Function.comp_def]

lemma find?_map_tidy {infos : List ClassInfo} :
    (infos.map ClassInfo.tidy).find? (·.name == name) =
      (infos.find? (·.name == name)).map ClassInfo.tidy := by
  rw [List.find?_map]
  rfl

lemma flaws_tidy : MethodDecl.flaws c.tidy m.tidy = MethodDecl.flaws c m := by
  simp [MethodDecl.flaws, ClassDecl.tidy, MethodDecl.tidy]

lemma layOut_tidy : layOut l.tidy c.tidy = (layOut l c).tidy := by
  have hflaws : c.tidy.methods.flatMap (MethodDecl.flaws c.tidy) =
      c.methods.flatMap (MethodDecl.flaws c) := by
    rw [ClassDecl.tidy, List.flatMap_map]
    exact List.flatMap_congr fun m _ => flaws_tidy
  have hinherited (s : String) : ((l.tidy.classes.find? (·.name == s)).map (·.fields)).getD [] =
      ((l.classes.find? (·.name == s)).map (·.fields)).getD [] := by
    rw [Layout.tidy, find?_map_tidy, Option.map_map]
    rfl
  have hsuper : c.tidy.superclass = c.superclass := rfl
  simp only [layOut, hflaws, hinherited, hsuper]
  simp only [Layout.tidy, ClassDecl.tidy, ClassInfo.tidy, List.map_append, List.map_map,
    List.map_cons, List.map_nil]
  rfl

lemma foldl_layOut_tidy {ordered : List ClassDecl} :
    (ordered.map ClassDecl.tidy).foldl layOut l.tidy = (ordered.foldl layOut l).tidy :=
  foldl_map_hom Layout.tidy rfl fun _ _ => layOut_tidy

lemma table_tidy {main : Option Stmt} :
    l.tidy.table (known.map ClassDecl.tidy) (main.map Stmt.tidy) = (l.table known main).tidy := by
  have hfind (c : ClassDecl) : l.tidy.classes.find? (·.name == c.tidy.name) =
      (l.classes.find? (·.name == c.name)).map ClassInfo.tidy := find?_map_tidy
  have hbuiltin : [listInfo, entryInfo].map ClassInfo.tidy = [listInfo, entryInfo] := rfl
  simp only [Layout.table, ClassTable.tidy, List.filterMap_map, Function.comp_def, hfind,
    List.map_append, hbuiltin, List.map_filterMap]
  rfl

/-- **Programs that differ in the nesting only** have tables that differ in it only. -/
theorem tidy_of_build (hpq : p.tidy = q.tidy) (hp : p.build = .ok t) (hq : q.build = .ok u) :
    t.tidy = u.tidy := by
  have hclasses : p.classes.map ClassDecl.tidy = q.classes.map ClassDecl.tidy :=
    congrArg Source.classes hpq
  have hmain : p.main.map Stmt.tidy = q.main.map Stmt.tidy := congrArg Source.main hpq
  have hknown : (declared p.classes).1.map ClassDecl.tidy =
      (declared q.classes).1.map ClassDecl.tidy := by
    have h := congrArg declared hclasses
    rw [declared_tidy, declared_tidy] at h
    exact congrArg Prod.fst h
  have hlength : (declared p.classes).1.length = (declared q.classes).1.length := by
    have h := congrArg List.length hknown
    rwa [List.length_map, List.length_map] at h
  obtain ⟨-, -, -, ordered, ho, rfl, -, -⟩ := build_eq_ok hp
  obtain ⟨-, -, -, ordered', ho', rfl, -, -⟩ := build_eq_ok hq
  have hordered : ordered.map ClassDecl.tidy = ordered'.map ClassDecl.tidy := by
    have h := congrArg (arrange (declared p.classes).1.length []) hknown
    rw [arrange_tidy, arrange_tidy, ho, hlength, ho'] at h
    exact Option.some.inj h
  rw [← table_tidy, ← table_tidy, ← foldl_layOut_tidy, ← foldl_layOut_tidy, hordered, hknown,
    hmain]

/-! ### What a table says -/

namespace ClassTable

lemma tidy_tidy : t.tidy.tidy = t.tidy := by
  have hmethod (m : MethodInfo) : m.tidy.tidy = m.tidy := by
    simp only [MethodInfo.tidy, Stmt.map_tidy_map_tidy]
  have hinfo (i : ClassInfo) : i.tidy.tidy = i.tidy := by
    simp only [ClassInfo.tidy, List.map_map, Function.comp_def, hmethod]
  simp only [tidy, List.map_map, Function.comp_def, hinfo, Stmt.map_tidy_map_tidy]

lemma find?_tidy : t.tidy.find? name = (t.find? name).map ClassInfo.tidy := find?_map_tidy

lemma has_tidy : t.tidy.has name = t.has name := by
  rw [has, find?_tidy, Option.isSome_map, has]

lemma isAbstract_tidy : t.tidy.isAbstract name = t.isAbstract name := by
  rw [isAbstract, find?_tidy, Option.map_map]
  rfl

lemma fields_tidy : t.tidy.fields name = t.fields name := by
  rw [fields, find?_tidy, Option.map_map]
  rfl

lemma field?_tidy {field : String} : t.tidy.field? name field = t.field? name field := by
  rw [field?, fields_tidy, field?]

lemma methods_tidy : t.tidy.methods name = (t.methods name).map MethodInfo.tidy := by
  rw [methods, methods, find?_tidy]
  cases t.find? name <;> rfl

lemma superclass?_tidy : t.tidy.superclass? name = t.superclass? name := by
  rw [superclass?, superclass?, find?_tidy]
  cases t.find? name <;> rfl

lemma lineageFrom_tidy {above : Nat} :
    t.tidy.lineageFrom above name = t.lineageFrom above name := by
  induction above generalizing name with
  | zero => rfl
  | succ n ih => simp only [lineageFrom, superclass?_tidy, ih]

lemma lineage_tidy : t.tidy.lineage name = t.lineage name := by
  rw [lineage, lineageFrom_tidy, lineage, tidy, List.length_map]

lemma lookup?_tidy {method : String} :
    t.tidy.lookup? name method = (t.lookup? name method).map MethodInfo.tidy := by
  have hfind (c : String) : ((t.methods c).map MethodInfo.tidy).find? (·.name == method) =
      ((t.methods c).find? (·.name == method)).map MethodInfo.tidy := by
    rw [List.find?_map]
    rfl
  simp only [lookup?, lineage_tidy, methods_tidy, hfind, List.map_findSome?]
  rfl

lemma classModels_tidy : t.tidy.classModels name = t.classModels name := rfl

lemma fieldModels_tidy {field : String} :
    t.tidy.fieldModels name field = t.fieldModels name field :=
  rfl

lemma names_tidy : t.tidy.names = t.names := by
  simp [names, tidy, ClassInfo.tidy, Function.comp_def]

end ClassTable

end Semlift.Program
