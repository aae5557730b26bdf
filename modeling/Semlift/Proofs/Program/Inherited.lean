import Mathlib.Data.List.Perm.Subperm
import Semlift.Proofs.Program.Forest

/-!
What classes inherit. The fields of a class are laid out once those of its superclass are: they are
the inherited ones and then its own, and none is left out, since members of one class with one name
are flaws, and so is a field under an inherited name. Level by level they are the declared fields
from the top of the chain of superclasses down to the class.

Methods are not copied: the lookup climbs the same chain and stops at the nearest class that
declares the method. No class is above itself, so the number of classes is bound enough for the
climb.
-/

namespace Semlift.Program

open Semlift.Lang

variable {p : Source} {t : ClassTable} {c d : ClassDecl} {l : Layout} {m : MethodInfo}
  {chain known ordered : List ClassDecl} {className name : String}

/-! ### Declarations -/

/-- The fields that a class declares itself. -/
def ClassDecl.ownFields (c : ClassDecl) : List FieldInfo :=
  c.fields.map fun f => ⟨f.name, f.type, c.name⟩

/-- The methods that a class declares itself. -/
def ClassDecl.ownMethods (c : ClassDecl) : List MethodInfo :=
  c.methods.map fun m => ⟨m.name, m.params, m.returnType, m.body, m.abstract, c.name⟩

/-- The built-in classes as declarations. -/
def builtinDecls : List ClassDecl :=
  [⟨listClass, none, [⟨contentField, "T", ""⟩, ⟨nextField, listClass, ""⟩], [], "", false⟩,
    ⟨entryClass, none, [], [], "", false⟩]

/-- The declared classes and the built-in ones. -/
def Source.allClasses (p : Source) : List ClassDecl := p.classes ++ builtinDecls

/-- The classes from one to the top, the nearest first: each but the last extends the next. -/
inductive Source.Chain (p : Source) : ClassDecl → List ClassDecl → Prop
  | top {c : ClassDecl} (hc : c ∈ p.allClasses) (hs : c.superclass = none) : Chain p c [c]
  | up {c d : ClassDecl} {above : List ClassDecl} (hc : c ∈ p.allClasses)
      (hs : c.superclass = some d.name) (more : Chain p d above) : Chain p c (c :: above)

/-- The method is the declaration of its name in the nearest class that has one. -/
def Nearest (chain : List ClassDecl) (name : String) (m : MethodInfo) : Prop :=
  ∃ nearer d further, chain = nearer ++ d :: further ∧
    (∀ e ∈ nearer, name ∉ e.methods.map (·.name)) ∧ m ∈ d.ownMethods ∧ m.name = name

/-- What a class has from the classes of its chain. -/
structure ClassTable.Inherits (t : ClassTable) (c : ClassDecl) (chain : List ClassDecl) : Prop where
  lineage : t.lineage c.name = chain.map (·.name)
  fields : t.fields c.name = chain.reverse.flatMap (·.ownFields)
  distinct : ((t.fields c.name).map (·.name)).Nodup
  ancestors : ∀ d ∈ chain, t.fields d.name <+: t.fields c.name
  lookup : ∀ name m, t.lookup? c.name name = some m ↔ Nearest chain name m
  implemented : c.abstract = false → ∀ name m, t.lookup? c.name name = some m →
    m.abstract = false ∧ m.body.isSome

/-! ### Members of one class -/

/-- What was seen are the names in front. -/
lemma mem_seen {names : List String} {n : String} :
    n ∈ (names.foldl (fun (seen, twice) n =>
      if n ∈ seen then (seen, twice ++ [n]) else (n :: seen, twice))
      (([], []) : List String × List String)).1 ↔ n ∈ names := by
  induction names using List.reverseRecOn with
  | nil => rfl
  | append_singleton names k ih =>
    rw [List.foldl_concat, List.mem_append, List.mem_singleton, ← ih]
    dsimp only
    split
    · rename_i hk
      exact ⟨.inl, fun h => h.elim id fun h => h ▸ hk⟩
    · rw [List.mem_cons, or_comm]

/-- Names of which none is repeated are distinct. -/
lemma nodup_of_repeated {names : List String} (h : repeated names = []) : names.Nodup := by
  induction names using List.reverseRecOn with
  | nil => exact .nil
  | append_singleton names n ih =>
    simp only [repeated, List.foldl_concat] at h ih
    split at h
    · simp at h
    · rename_i hn
      rw [← List.concat_eq_append]
      exact .concat (fun hmem => hn (mem_seen.2 hmem)) (ih h)

/-- In a program without flaws in its declarations the members of a class are distinct. -/
lemma nodup_members (h : (declared known).2 = []) (hc : c ∈ known) :
    (c.fields.map (·.name)).Nodup ∧ (c.methods.map (·.name)).Nodup := by
  induction known using List.reverseRecOn with
  | nil => cases hc
  | append_singleton known d ih =>
    simp only [declared, List.foldl_concat] at h ih
    split at h
    · simp at h
    · split at h
      · simp at h
      · obtain ⟨hbefore, hmembers⟩ := List.append_eq_nil_iff.1 h
        rcases List.mem_append.1 hc with hc | hc
        · exact ih hbefore hc
        · obtain rfl := List.mem_singleton.1 hc
          simp only [ClassDecl.repeatedMembers, List.append_eq_nil_iff,
            List.map_eq_nil_iff] at hmembers
          exact ⟨nodup_of_repeated hmembers.1, nodup_of_repeated hmembers.2⟩

/-! ### Fields level by level -/

/-- The fields of a class that is laid out. -/
def Layout.fields (l : Layout) (name : String) : List FieldInfo :=
  ((l.classes.find? (·.name == name)).map (·.fields)).getD []

/-- The fields of the superclass. -/
def ClassDecl.inherited (c : ClassDecl) (fields : String → List FieldInfo) : List FieldInfo :=
  (c.superclass.map fields).getD []

/-- A field that no field of the class itself clashes with is added, or there is a flaw. -/
lemma fields_addField {st : List FieldInfo × List (String × String) × List Flaw} {f : FieldDecl}
    (hf : ∀ g ∈ st.1, g.declaring = className → g.name ≠ f.name)
    (h : (addField className st f).2.2 = []) :
    (addField className st f).1 = st.1 ++ [⟨f.name, f.type, className⟩] := by
  obtain ⟨fields, models, flaws⟩ := st
  unfold addField at h ⊢
  dsimp only at h ⊢
  split
  · rename_i clash hclash
    have hname : clash.name = f.name := by simpa using List.find?_some hclash
    have hmem : clash ∈ fields := List.mem_reverse.1 (List.mem_of_find?_eq_some hclash)
    have hother : clash.declaring ≠ className := fun hown => hf clash hmem hown hname
    rw [hclash] at h
    simp [hother] at h
  · split <;> rfl

/-- **Own fields follow the inherited ones**: with distinct names and no flaw none is left out. -/
lemma fields_foldl_addField {inherited : List FieldInfo} {models : List (String × String)}
    {flaws : List Flaw} {fs : List FieldDecl} (hn : (fs.map (·.name)).Nodup)
    (hi : ∀ f ∈ inherited, f.declaring ≠ className)
    (h : (fs.foldl (addField className) (inherited, models, flaws)).2.2 = []) :
    (fs.foldl (addField className) (inherited, models, flaws)).1 =
      inherited ++ fs.map fun f => ⟨f.name, f.type, className⟩ := by
  induction fs using List.reverseRecOn with
  | nil => simp
  | append_singleton fs f ih =>
    rw [List.map_append, List.nodup_append] at hn
    rw [List.foldl_concat] at h ⊢
    have hbefore := ih hn.1 (flaws_addField h)
    rw [fields_addField ?_ h, hbefore, List.map_append, List.append_assoc]
    · rfl
    · rw [hbefore]
      intro g hg hown
      rcases List.mem_append.1 hg with hg | hg
      · exact absurd hown (hi g hg)
      · obtain ⟨k, hk, rfl⟩ := List.mem_map.1 hg
        exact hn.2.2 k.name (List.mem_map_of_mem hk) f.name (by simp)

/-- The fields and the flaws once the own fields of a class are added to the inherited ones. -/
def Layout.withOwn (l : Layout) (c : ClassDecl) :
    List FieldInfo × List (String × String) × List Flaw :=
  c.fields.foldl (addField c.name) (c.inherited l.fields, l.models, l.flaws)

lemma classes_layOut : (layOut l c).classes =
    l.classes ++ [⟨c.name, c.superclass, c.abstract, (l.withOwn c).1, c.ownMethods⟩] := by
  unfold layOut Layout.withOwn ClassDecl.inherited Layout.fields
  cases c.superclass <;> rfl

lemma flaws_withOwn (h : (layOut l c).flaws = []) : (l.withOwn c).2.2 = [] := by
  have hflaws : ∃ rest, (layOut l c).flaws = (l.withOwn c).2.2 ++ rest := by
    unfold layOut Layout.withOwn ClassDecl.inherited Layout.fields
    cases c.superclass <;> exact ⟨_, List.append_assoc ..⟩
  obtain ⟨rest, hrest⟩ := hflaws
  rw [hrest] at h
  exact (List.append_eq_nil_iff.1 h).1

lemma fields_layOut_of_ne (h : name ≠ c.name) : (layOut l c).fields name = l.fields name := by
  have hlast : (c.name == name) = false := beq_eq_false_iff_ne.2 h.symm
  rw [Layout.fields, classes_layOut, List.find?_append]
  simp [hlast, Layout.fields]

lemma fields_layOut (hnew : c.name ∉ l.classes.map (·.name)) :
    (layOut l c).fields c.name = (l.withOwn c).1 := by
  have hfind : l.classes.find? (·.name == c.name) = none := by
    refine List.find?_eq_none.2 fun i hi hname => hnew ?_
    exact beq_iff_eq.1 hname ▸ List.mem_map_of_mem hi
  rw [Layout.fields, classes_layOut, List.find?_append, hfind]
  simp

/-- What a layout without flaws keeps while classes are added, superclasses first. -/
structure Layout.Levelled (l : Layout) (ordered : List ClassDecl) : Prop where
  names : l.classes.map (·.name) = ordered.map (·.name)
  above : ∀ c ∈ ordered, ∀ s, c.superclass = some s → s ∈ ordered.map (·.name)
  fields : ∀ c ∈ ordered, l.fields c.name = c.inherited l.fields ++ c.ownFields
  declaring : ∀ name, ∀ f ∈ l.fields name, f.declaring ∈ ordered.map (·.name)

lemma inherited_congr {f g : String → List FieldInfo}
    (h : ∀ s, c.superclass = some s → f s = g s) : c.inherited f = c.inherited g := by
  unfold ClassDecl.inherited
  cases hs : c.superclass with
  | none => rfl
  | some s => rw [Option.map_some, Option.map_some, h s hs]

lemma Layout.Levelled.declaring_inherited (hl : l.Levelled ordered) :
    ∀ f ∈ c.inherited l.fields, f.declaring ∈ ordered.map (·.name) := by
  unfold ClassDecl.inherited
  cases c.superclass with
  | none => simp
  | some s => exact hl.declaring s

/-- **One more level**: a class whose superclass is laid out. -/
lemma Layout.Levelled.layOut (hl : l.Levelled ordered) (hnew : c.name ∉ ordered.map (·.name))
    (hs : ∀ s, c.superclass = some s → s ∈ ordered.map (·.name))
    (hn : (c.fields.map (·.name)).Nodup) (h : (layOut l c).flaws = []) :
    (layOut l c).Levelled (ordered ++ [c]) := by
  have hlast : (Program.layOut l c).fields c.name = c.inherited l.fields ++ c.ownFields := by
    rw [fields_layOut (hl.names ▸ hnew)]
    refine fields_foldl_addField hn (fun f hf hown => hnew ?_) (flaws_withOwn h)
    exact hown ▸ hl.declaring_inherited f hf
  -- a superclass is not the new class, so its fields stay as they are
  have hkept : ∀ s ∈ ordered.map (·.name), (Program.layOut l c).fields s = l.fields s :=
    fun s hs => fields_layOut_of_ne fun e => hnew (e ▸ hs)
  refine ⟨?_, fun d hd s hds => ?_, fun d hd => ?_, fun name f hf => ?_⟩
  · rw [classes_layOut, List.map_append, List.map_append, hl.names]
    rfl
  · rw [List.map_append, List.mem_append]
    rcases List.mem_append.1 hd with hd | hd
    · exact .inl (hl.above d hd s hds)
    · exact .inl (hs s (List.mem_singleton.1 hd ▸ hds))
  · rcases List.mem_append.1 hd with hd | hd
    · rw [hkept d.name (List.mem_map_of_mem hd), hl.fields d hd]
      rw [inherited_congr fun s hds => hkept s (hl.above d hd s hds)]
    · obtain rfl := List.mem_singleton.1 hd
      rw [hlast, inherited_congr fun s hds => hkept s (hs s hds)]
  · rw [List.map_append, List.mem_append]
    by_cases hname : name = c.name
    · rw [hname, hlast] at hf
      rcases List.mem_append.1 hf with hf | hf
      · exact .inl (hl.declaring_inherited f hf)
      · obtain ⟨g, -, rfl⟩ := List.mem_map.1 hf
        exact .inr (List.mem_singleton_self _)
    · rw [fields_layOut_of_ne hname] at hf
      exact .inl (hl.declaring name f hf)

/-- **Every level**: in classes that are put in order. -/
lemma levelled_layout (ho : Arranged [] ordered) (hn : (ordered.map (·.name)).Nodup)
    (hf : ∀ c ∈ ordered, (c.fields.map (·.name)).Nodup)
    (h : (ordered.foldl layOut ⟨[], [], []⟩).flaws = []) :
    (ordered.foldl layOut ⟨[], [], []⟩).Levelled ordered := by
  induction ho with
  | nil => exact ⟨rfl, by simp, by simp, by simp [Layout.fields]⟩
  | @concat ordered c _ hs ih =>
    rw [List.foldl_concat] at h ⊢
    rw [List.map_append, List.nodup_append] at hn
    have hnew : c.name ∉ ordered.map (·.name) := fun hc => hn.2.2 _ hc c.name (by simp) rfl
    have hbefore := ih hn.1 (fun d hd => hf d (List.mem_append_left _ hd)) (flaws_layOut h).1
    refine hbefore.layOut hnew (fun s hcs => ?_) (hf c (by simp)) h
    simpa using hs s hcs

/-! ### Classes in the finished table -/

/-- The entry of a declared class in the table is the one that was laid out. -/
lemma fields_table (main : Option Stmt) (ho : ∀ c, c ∈ ordered ↔ c ∈ known)
    (hb : ∀ c ∈ known, isBuiltin c.name = false) (hn : (known.map (·.name)).Nodup)
    (hname : name ∈ known.map (·.name)) :
    ((ordered.foldl layOut ⟨[], [], []⟩).table known main).fields name =
      (ordered.foldl layOut ⟨[], [], []⟩).fields name := by
  obtain ⟨c, hc, rfl⟩ := List.mem_map.1 hname
  obtain ⟨i, hi, hdecl⟩ := exists_find?_table main ho hb hn hc
  have hentry := List.mem_of_find?_eq_some hi
  simp only [Layout.table, List.mem_append, List.mem_filterMap, List.mem_cons, List.not_mem_nil,
    or_false] at hentry
  have hown := hb c hc
  rcases hentry with ⟨d, -, hfind⟩ | rfl | rfl
  · have hd : d.name = c.name := by
      have hname : i.name = d.name := by simpa using List.find?_some hfind
      rw [← hname, hdecl.name]
    rw [ClassTable.fields, hi, Layout.fields, ← hd, hfind]
  · rw [← hdecl.name] at hown
    simp [listInfo, isBuiltin] at hown
  · rw [← hdecl.name] at hown
    simp [entryInfo, isBuiltin] at hown

/-- What the table keeps of a class: its fields are one level more than its superclass has. -/
structure ClassTable.Keeps (t : ClassTable) (c : ClassDecl) : Prop where
  mem : c.name ∈ t.names
  superclass : t.superclass? c.name = c.superclass
  concrete : c.abstract = false → t.Concrete c.name
  fields : t.fields c.name = c.inherited t.fields ++ c.ownFields
  methods : t.methods c.name = c.ownMethods
  distinct : (c.methods.map (·.name)).Nodup

lemma keeps_of_declares {i : ClassInfo} (hi : t.find? c.name = some i) (hdecl : i.Declares c)
    (hf : t.fields c.name = c.inherited t.fields ++ c.ownFields)
    (hn : (c.methods.map (·.name)).Nodup) : t.Keeps c where
  mem := ClassTable.mem_names_of_find? hi
  superclass := by rw [ClassTable.superclass?, hi, Option.bind_some, hdecl.superclass]
  concrete ha := concrete_of_find? hi (hdecl.abstract.trans ha)
  fields := hf
  methods := by
    rw [ClassTable.methods, hi]
    exact hdecl.methods
  distinct := hn

lemma keeps_of_mem (h : p.build = .ok t) (hc : c ∈ p.classes) : t.Keeps c := by
  obtain ⟨-, hflawless, hsuper, ordered, ho, ht, hlayout, -⟩ := build_eq_ok h
  obtain ⟨hknown, hnodup⟩ := declared_of_flawless hflawless
  rw [hknown] at hsuper ho ht
  obtain ⟨hperm, harranged⟩ := arranged_arrange ho
  have hown : ∀ c ∈ p.classes, isBuiltin c.name = false := fun c hc =>
    (mem_declared (hknown.symm ▸ hc : c ∈ (declared p.classes).1)).2
  have hlevelled : (ordered.foldl layOut ⟨[], [], []⟩).Levelled ordered :=
    levelled_layout harranged ((hperm.map _).nodup_iff.2 hnodup)
      (fun d hd => (nodup_members hflawless (hperm.mem_iff.1 hd)).1) hlayout
  have htable : ∀ s ∈ p.classes.map (·.name),
      t.fields s = (ordered.foldl layOut ⟨[], [], []⟩).fields s := fun s hs =>
    ht ▸ fields_table p.main (fun _ => hperm.mem_iff) hown hnodup hs
  obtain ⟨i, hi, hdecl⟩ := exists_find?_table p.main (fun _ => hperm.mem_iff) hown hnodup hc
  rw [← ht] at hi
  refine keeps_of_declares hi hdecl ?_ (nodup_members hflawless hc).2
  rw [htable _ (List.mem_map_of_mem hc), hlevelled.fields c (hperm.mem_iff.2 hc)]
  rw [inherited_congr fun s hs => (htable s (mem_names_of_flawless hsuper hc hs)).symm]

lemma keeps_builtin (h : p.build = .ok t) (hc : c ∈ builtinDecls) : t.Keeps c := by
  obtain ⟨-, -, -, ordered, -, ht, -, -⟩ := build_eq_ok h
  have hbuiltin : ∀ name, isBuiltin name = true →
      t.find? name = [listInfo, entryInfo].find? (·.name == name) := fun name hn =>
    ht ▸ find?_table_builtin (fun d hd => (mem_declared hd).2) hn
  simp only [builtinDecls, List.mem_cons, List.not_mem_nil, or_false] at hc
  rcases hc with rfl | rfl
  · have hi : t.find? listClass = some listInfo := hbuiltin _ (by decide)
    refine keeps_of_declares hi ⟨rfl, rfl, rfl, rfl⟩ ?_ .nil
    rw [ClassTable.fields, hi]
    rfl
  · have hi : t.find? entryClass = some entryInfo := hbuiltin _ (by decide)
    refine keeps_of_declares hi ⟨rfl, rfl, rfl, rfl⟩ ?_ .nil
    rw [ClassTable.fields, hi]
    rfl

lemma keeps_of_build (h : p.build = .ok t) (hc : c ∈ p.allClasses) : t.Keeps c :=
  (List.mem_append.1 hc).elim (keeps_of_mem h) (keeps_builtin h)

/-! ### Along the chain -/

/-- The chain begins with the class itself. -/
lemma Source.Chain.eq_cons (h : p.Chain c chain) : ∃ above, chain = c :: above := by
  cases h with
  | top => exact ⟨[], rfl⟩
  | up => exact ⟨_, rfl⟩

lemma exists_chain (h : p.build = .ok t) (hc : c ∈ p.allClasses) : ∃ chain, p.Chain c chain := by
  have hforest : t.Forest p := forest_of_laysOut (laysOut_of_build h)
  generalize ha : c.name = a
  induction a using hforest.climb.induction generalizing c with
  | h a ih =>
    cases hs : c.superclass with
    | none => exact ⟨[c], .top hc hs⟩
    | some s =>
      have hsuper : t.superclass? a = some s := by
        rw [← ha, (keeps_of_build h hc).superclass, hs]
      obtain ⟨d, hd, rfl⟩ := List.mem_map.1 (hforest.declared a s hsuper).2
      obtain ⟨above, habove⟩ := ih d.name hsuper (List.mem_append_left _ hd) rfl
      exact ⟨c :: above, .up hc hs habove⟩

lemma Source.Chain.mem_of_mem (h : p.Chain c chain) (hd : d ∈ chain) : d ∈ p.allClasses := by
  induction h with
  | top hc => exact List.mem_singleton.1 hd ▸ hc
  | up hc _ _ ih => exact (List.mem_cons.1 hd).elim (fun e => e ▸ hc) ih

section Kept

variable (hk : ∀ d ∈ p.allClasses, t.Keeps d)
include hk

lemma Source.Chain.reflTransGen (h : p.Chain c chain) (hd : d ∈ chain) :
    Relation.ReflTransGen t.Extends c.name d.name := by
  induction h with
  | top => exact List.mem_singleton.1 hd ▸ .refl
  | up hc hs _ ih =>
    rcases List.mem_cons.1 hd with rfl | hd
    · exact .refl
    · exact (ih hd).head (((hk _ hc).superclass).trans hs)

/-- No class is above itself, so a chain holds no class twice. -/
lemma Source.Chain.nodup (hclimb : WellFounded fun b a => t.superclass? a = some b)
    (h : p.Chain c chain) : (chain.map (·.name)).Nodup := by
  induction h with
  | top => exact List.nodup_singleton _
  | @up c d above hc hs more ih =>
    refine List.nodup_cons.2 ⟨fun hmem => ?_, ih⟩
    obtain ⟨e, he, hname⟩ := List.mem_map.1 hmem
    have hextends : t.Extends c.name d.name := ((hk c hc).superclass).trans hs
    have hback : Relation.ReflTransGen t.Extends d.name c.name := by
      have := more.reflTransGen hk he
      rwa [hname] at this
    have hcircle : Relation.TransGen t.Extends c.name c.name := .head' hextends hback
    exact hclimb.transGen.irrefl.irrefl c.name (Relation.transGen_swap.2 hcircle)

lemma Source.Chain.length_le (hclimb : WellFounded fun b a => t.superclass? a = some b)
    (h : p.Chain c chain) : chain.length ≤ t.classes.length := by
  have hsubset : chain.map (·.name) ⊆ t.names := by
    intro name hname
    obtain ⟨d, hd, rfl⟩ := List.mem_map.1 hname
    exact (hk d (h.mem_of_mem hd)).mem
  have hle : (chain.map (·.name)).length ≤ t.names.length :=
    ((h.nodup hk hclimb).subperm hsubset).length_le
  simpa [ClassTable.names] using hle

/-- A lookup that may climb far enough climbs the chain. -/
lemma Source.Chain.lineageFrom (h : p.Chain c chain) {n : Nat} (hn : chain.length ≤ n + 1) :
    t.lineageFrom n c.name = chain.map (·.name) := by
  induction h generalizing n with
  | @top c hc hs =>
    cases n with
    | zero => rfl
    | succ n =>
      rw [ClassTable.lineageFrom_succ, (hk c hc).superclass, hs]
      rfl
  | @up c d above hc hs more ih =>
    obtain ⟨rest, rfl⟩ := more.eq_cons
    rw [List.length_cons] at hn
    obtain ⟨n, rfl⟩ : ∃ k, n = k + 1 :=
      Nat.exists_eq_succ_of_ne_zero (by rw [List.length_cons] at hn; omega)
    have hextends : t.Extends c.name d.name := ((hk c hc).superclass).trans hs
    rw [ClassTable.lineageFrom_of_extends hextends, ih (by omega)]
    rfl

/-- **The fields of a class** are those of its chain, from the top down. -/
lemma Source.Chain.fields (h : p.Chain c chain) :
    t.fields c.name = chain.reverse.flatMap (·.ownFields) := by
  induction h with
  | @top c hc hs =>
    rw [(hk c hc).fields, ClassDecl.inherited, hs]
    simp
  | @up c d above hc hs more ih =>
    rw [(hk c hc).fields, ClassDecl.inherited, hs, Option.map_some, Option.getD_some, ih]
    simp

lemma Source.Chain.fields_isPrefix (h : p.Chain c chain) (hd : d ∈ chain) :
    t.fields d.name <+: t.fields c.name := by
  induction h with
  | top => exact List.mem_singleton.1 hd ▸ List.prefix_refl _
  | @up c e above hc hs more ih =>
    rcases List.mem_cons.1 hd with rfl | hd
    · exact List.prefix_refl _
    · refine (ih hd).trans ?_
      rw [(hk c hc).fields, ClassDecl.inherited, hs]
      exact List.prefix_append _ _

/-! ### The nearest declaration -/

omit hk in
lemma find?_ownMethods (hn : (c.methods.map (·.name)).Nodup) :
    c.ownMethods.find? (·.name == name) = some m ↔ m ∈ c.ownMethods ∧ m.name = name := by
  have hnames : c.ownMethods.map (·.name) = c.methods.map (·.name) := by
    simp [ClassDecl.ownMethods]
  exact find?_iff_of_nodup _ (hnames ▸ hn)

omit hk in
lemma find?_ownMethods_eq_none :
    c.ownMethods.find? (·.name == name) = none ↔ name ∉ c.methods.map (·.name) := by
  simp [ClassDecl.ownMethods, List.find?_eq_none]

/-- **The method that is looked up** is the nearest declaration. -/
lemma Source.Chain.lookup?_iff (h : p.Chain c chain)
    (hl : t.lineage c.name = chain.map (·.name)) :
    t.lookup? c.name name = some m ↔ Nearest chain name m := by
  rw [ClassTable.lookup?, hl, List.findSome?_map, List.findSome?_eq_some_iff]
  unfold Nearest
  refine exists_congr fun nearer => exists_congr fun d => exists_congr fun further =>
    and_congr_right fun hchain => ?_
  have hd : d ∈ p.allClasses := h.mem_of_mem (by simp [hchain])
  have hnearer : ∀ e ∈ nearer, e ∈ p.allClasses := fun e he =>
    h.mem_of_mem (hchain ▸ List.mem_append_left _ he)
  simp only [Function.comp_apply]
  rw [(hk d hd).methods, find?_ownMethods (hk d hd).distinct, and_comm]
  refine and_congr_left fun _ => forall₂_congr fun e he => ?_
  rw [(hk e (hnearer e he)).methods, find?_ownMethods_eq_none]

end Kept

/-- **What classes inherit**: above every class of an accepted program there is a chain of
superclasses, wherever they stand in the text. Its fields are those of the chain from the top down,
with distinct names, and those of a class above come first. A method is looked up in the nearest
class that declares it, and in a concrete class it has a body. -/
theorem inherits_of_build (h : p.build = .ok t) (hc : c ∈ p.allClasses) :
    (∃ chain, p.Chain c chain) ∧ ∀ chain, p.Chain c chain → t.Inherits c chain := by
  have hk : ∀ d ∈ p.allClasses, t.Keeps d := fun d hd => keeps_of_build h hd
  have hclimb := (forest_of_laysOut (laysOut_of_build h)).climb
  refine ⟨exists_chain h hc, fun chain hchain => ?_⟩
  have hlineage : t.lineage c.name = chain.map (·.name) :=
    hchain.lineageFrom hk ((hchain.length_le hk hclimb).trans (Nat.le_succ _))
  refine ⟨hlineage, hchain.fields hk, (proper_of_build h).fields c.name,
    fun d hd => hchain.fields_isPrefix hk hd, fun name m => hchain.lookup?_iff hk hlineage,
    fun ha name m hl => ?_⟩
  obtain ⟨habstract, body, hbody⟩ := (checked_of_build h).body_of_lookup? ((hk c hc).concrete ha) hl
  exact ⟨habstract, by rw [hbody, Option.isSome_some]⟩

/-- Trucks stand in front of cars, which implement what vehicles leave open. -/
def vehicles : Source :=
  ⟨[⟨"Truck", some "Car", [⟨"load", "Int", ""⟩], [], "", false⟩,
      ⟨"Car", some "Vehicle", [⟨"doors", "Int", ""⟩, ⟨"plate", "String", ""⟩],
        [⟨"drive", [], "Unit", some (.skip 3), false⟩], "", false⟩,
      ⟨"Vehicle", none, [⟨"owner", "String", ""⟩], [⟨"drive", [], "Unit", none, true⟩], "", true⟩],
    some (.skip 1)⟩

/-- Trucks have the fields of vehicles and cars in front of their own, and drive as cars do. -/
theorem inherits_of_build_vehicles : ∃ t truck chain, vehicles.build = .ok t ∧
    truck ∈ vehicles.allClasses ∧ truck.name = "Truck" ∧ vehicles.Chain truck chain ∧
    t.Inherits truck chain ∧
    (t.fields "Truck").map (fun f => (f.name, f.declaring)) =
      [("owner", "Vehicle"), ("doors", "Car"), ("plate", "Car"), ("load", "Truck")] ∧
    (t.lookup? "Truck" "drive").map (·.declaring) = some "Car" := by
  obtain ⟨⟨chain, hchain⟩, hinherits⟩ :=
    inherits_of_build (p := vehicles) (c := vehicles.classes[0]) rfl (by decide)
  exact ⟨_, _, chain, rfl, by decide, rfl, hchain, hinherits chain hchain, rfl, rfl⟩

end Semlift.Program
