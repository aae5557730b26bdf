import Mathlib.Tactic.Tauto
import Semlift.Program.Build
import Semlift.Proofs.Lang.Mentions
import Semlift.Proofs.Lang.Parts

/-!
The class tables of accepted programs. The fields of a class have names of their own, the two
built-in classes have the fields that the running program relies on, and every body in the table is
a body of the program.
-/

namespace Semlift.Program

open Semlift.Lang

/-- The bodies of a program: its main block and those of its methods. -/
def Source.bodies (p : Source) : List Stmt :=
  p.main.toList ++ p.classes.flatMap fun c => c.methods.filterMap (·.body)

/-- No literal of the program is an object. -/
def Source.ObjectFree (p : Source) : Prop := ∀ b ∈ p.bodies, ∀ r, ¬ b.Mentions r

lemma Source.objectFree_iff {p : Source} : p.ObjectFree ↔ ∀ b ∈ p.bodies, b.refs = [] := by
  simp only [ObjectFree, ← Stmt.mem_refs, List.eq_nil_iff_forall_not_mem]

instance {p : Source} : Decidable p.ObjectFree := decidable_of_iff' _ Source.objectFree_iff

/-- No part of the program is a statement of the kind. -/
def Source.Without (q : Stmt → Bool) (p : Source) : Prop := ∀ b ∈ p.bodies, b.Without q

instance {q : Stmt → Bool} {p : Source} : Decidable (p.Without q) :=
  inferInstanceAs (Decidable (∀ b ∈ p.bodies, b.Without q))

variable {p : Source} {t : ClassTable} {c : ClassDecl} {known pending : List ClassDecl}

/-- **What acceptance means**: no flaw is found at any stage, the classes can be put in order, and
the table is the one laid out in that order. -/
theorem build_eq_ok (h : p.build = .ok t) :
    p.main.isSome ∧ (declared p.classes).2 = [] ∧
      ((declared p.classes).1.flatMap (ClassDecl.superclassFlaws (declared p.classes).1)) = [] ∧
      ∃ ordered, arrange (declared p.classes).1.length [] (declared p.classes).1 = some ordered ∧
        t = (ordered.foldl layOut ⟨[], [], []⟩).table (declared p.classes).1 p.main ∧
        (ordered.foldl layOut ⟨[], [], []⟩).flaws = [] ∧ tableFlaws t p.classes = [] := by
  have hmain : p.main.isSome := by
    cases hm : p.main with
    | none => simp [Source.build, hm] at h
    | some b => rfl
  unfold Source.build at h
  simp only [Option.isNone_iff_eq_none, Option.isSome_iff_ne_none.1 hmain, if_false,
    List.nil_append] at h
  split at h
  · simp at h
  · rename_i hf
    rw [Bool.not_eq_true, Bool.not_eq_false', List.isEmpty_iff, List.append_eq_nil_iff] at hf
    split at h
    · simp at h
    · rename_i ordered ho
      split at h
      · rename_i hl
        rw [List.isEmpty_iff, List.append_eq_nil_iff] at hl
        cases h
        exact ⟨hmain, hf.1, hf.2, ordered, ho, rfl, hl⟩
      · simp at h

/-! ### Where the classes come from -/

lemma mem_declared (h : c ∈ (declared p.classes).1) : c ∈ p.classes ∧ isBuiltin c.name = false := by
  have key : ∀ d ∈ (declared p.classes).1, d ∈ p.classes ∧ isBuiltin d.name = false := by
    refine List.foldlRecOn
      (motive := fun acc : List ClassDecl × List Flaw =>
        ∀ d ∈ acc.1, d ∈ p.classes ∧ isBuiltin d.name = false)
      p.classes _ (by simp) fun acc ih d hd e he => ?_
    obtain ⟨known, flaws⟩ := acc
    dsimp only at he
    split at he
    · exact ih e he
    · rename_i hb
      split at he
      · exact ih e he
      · rcases List.mem_append.1 he with he | he
        · exact ih e he
        · rw [List.mem_singleton.1 he]
          exact ⟨hd, by simpa using hb⟩
  exact key c h

lemma mem_pass {done : List String}
    (h : c ∈ (pass done pending).1 ∨ c ∈ (pass done pending).2) : c ∈ pending := by
  have key : ∀ d, d ∈ (pass done pending).1 ∨ d ∈ (pass done pending).2 → d ∈ pending := by
    refine List.foldlRecOn
      (motive := fun acc : List ClassDecl × List ClassDecl =>
        ∀ d, d ∈ acc.1 ∨ d ∈ acc.2 → d ∈ pending)
      pending _ (by simp) fun acc ih d hd e he => ?_
    obtain ⟨now, later⟩ := acc
    dsimp only at he ⊢
    have hcases : (e ∈ now ∨ e ∈ later) ∨ e = d := by
      split at he
      · split at he <;> simp only [List.mem_append, List.mem_singleton] at he <;> tauto
      · simp only [List.mem_append, List.mem_singleton] at he
        tauto
    rcases hcases with he | rfl
    · exact ih e he
    · exact hd
  exact key c h

lemma mem_arrange {n : Nat} {done : List String} {ordered : List ClassDecl}
    (h : arrange n done pending = some ordered) (hc : c ∈ ordered) : c ∈ pending := by
  induction n generalizing done pending ordered with
  | zero =>
    cases pending with
    | nil => simp only [arrange, Option.some.injEq] at h; simp [← h] at hc
    | cons => simp [arrange] at h
  | succ n ih =>
    cases pending with
    | nil => simp only [arrange, Option.some.injEq] at h; simp [← h] at hc
    | cons d more =>
      simp only [arrange] at h
      split at h
      · simp at h
      · obtain ⟨later, hl, rfl⟩ := Option.map_eq_some_iff.1 h
        rcases List.mem_append.1 hc with hc | hc
        · exact mem_pass (.inl hc)
        · exact mem_pass (.inr (ih hl hc))

/-! ### What is laid out -/

/-- What every class of a layout has: fields with names of their own, and bodies of the program. -/
structure ClassInfo.Proper (bodies : List Stmt) (c : ClassInfo) : Prop where
  fields : (c.fields.map (·.name)).Nodup
  bodies : ∀ m ∈ c.methods, ∀ b, m.body = some b → b ∈ bodies

/-- A field is added under a new name only, whatever flaws there are. -/
lemma nodup_addField {className : String}
    {st : List FieldInfo × List (String × String) × List Flaw} {f : FieldDecl}
    (h : (st.1.map (·.name)).Nodup) : ((addField className st f).1.map (·.name)).Nodup := by
  obtain ⟨fields, models, flaws⟩ := st
  unfold addField
  simp only
  split
  · exact h
  · rename_i hf
    have hn : f.name ∉ fields.map (·.name) := by
      intro hm
      obtain ⟨g, hg, he⟩ := List.mem_map.1 hm
      have := List.find?_eq_none.1 hf g (List.mem_reverse.2 hg)
      simp [he] at this
    have hadd : ((fields ++ [(⟨f.name, f.type, className⟩ : FieldInfo)]).map (·.name)).Nodup := by
      rw [List.map_append]
      refine List.nodup_append.2 ⟨h, by simp, fun a ha b hb e => ?_⟩
      simp only [List.map_cons, List.map_nil, List.mem_singleton] at hb
      exact hn (hb ▸ e ▸ ha)
    split <;> exact hadd

lemma nodup_foldl_addField {className : String} (fs : List FieldDecl)
    {st : List FieldInfo × List (String × String) × List Flaw}
    (h : (st.1.map (·.name)).Nodup) :
    ((fs.foldl (addField className) st).1.map (·.name)).Nodup :=
  List.foldlRecOn
    (motive := fun s : List FieldInfo × List (String × String) × List Flaw =>
      (s.1.map (·.name)).Nodup)
    fs _ h fun _ hs _ _ => nodup_addField hs

lemma proper_layOut {bodies : List Stmt} {l : Layout}
    (hl : ∀ i ∈ l.classes, i.Proper bodies)
    (hc : ∀ m ∈ c.methods, ∀ b, m.body = some b → b ∈ bodies) :
    ∀ i ∈ (layOut l c).classes, i.Proper bodies := by
  intro i hi
  simp only [layOut, List.mem_append, List.mem_singleton] at hi
  rcases hi with hi | rfl
  · exact hl i hi
  · refine ⟨nodup_foldl_addField _ ?_, ?_⟩
    · -- the inherited fields are those of a class laid out before
      simp only
      split
      · simp
      · rename_i s hs
        cases hf : l.classes.find? (·.name == s) with
        | none => simp
        | some d => exact (hl d (List.mem_of_find?_eq_some hf)).fields
    · intro m hm b hb
      obtain ⟨d, hd, rfl⟩ := List.mem_map.1 hm
      exact hc d hd b hb

lemma proper_layout {bodies : List Stmt} {ordered : List ClassDecl}
    (h : ∀ c ∈ ordered, ∀ m ∈ c.methods, ∀ b, m.body = some b → b ∈ bodies) :
    ∀ i ∈ (ordered.foldl layOut ⟨[], [], []⟩).classes, i.Proper bodies :=
  List.foldlRecOn (motive := fun l : Layout => ∀ i ∈ l.classes, i.Proper bodies) ordered _
    (by simp) fun _ hl c hc => proper_layOut hl (h c hc)

/-! ### The finished table -/

/-- What the table of an accepted program promises to the running program. -/
structure ClassTable.Proper (p : Source) (t : ClassTable) : Prop where
  fields : ∀ c, ((t.fields c).map (·.name)).Nodup
  list : (t.fields listClass).map (·.name) = [contentField, nextField]
  entry : t.fields entryClass = []
  bodies : ∀ c, ∀ m ∈ t.methods c, ∀ b, m.body = some b → b ∈ p.bodies
  main : t.main = p.main

lemma ClassTable.Proper.mem_bodies_of_main {a : Stmt} (ht : t.Proper p) (ha : t.main = some a) :
    a ∈ p.bodies := by
  simp only [Source.bodies, List.mem_append, Option.mem_toList]
  exact .inl (ht.main ▸ ha)

lemma find?_table_builtin {l : Layout} {name : String} {main : Option Stmt}
    (hk : ∀ c ∈ known, isBuiltin c.name = false) (hn : isBuiltin name = true) :
    (l.table known main).find? name = [listInfo, entryInfo].find? (·.name == name) := by
  unfold ClassTable.find? Layout.table
  rw [List.find?_append, List.find?_eq_none.2 ?_, Option.none_or]
  intro i hi he
  obtain ⟨c, hc, hf⟩ := List.mem_filterMap.1 hi
  have h1 : i.name = c.name := by simpa using List.find?_some hf
  have h2 : i.name = name := by simpa using he
  rw [← h2, h1, hk c hc] at hn
  simp at hn

/-- **Accepted programs have proper tables.** -/
theorem proper_of_build (h : p.build = .ok t) : t.Proper p := by
  obtain ⟨-, -, -, ordered, ho, ht, -, -⟩ := build_eq_ok h
  have hbuiltin : ∀ name, isBuiltin name = true →
      t.find? name = [listInfo, entryInfo].find? (·.name == name) := fun name hn =>
    ht ▸ find?_table_builtin (fun c hc => (mem_declared hc).2) hn
  have hlayout : ∀ i ∈ (ordered.foldl layOut ⟨[], [], []⟩).classes, i.Proper p.bodies := by
    refine proper_layout fun c hc m hm b hb => ?_
    have hp := (mem_declared (mem_arrange ho hc)).1
    simp only [Source.bodies, List.mem_append, List.mem_flatMap, List.mem_filterMap]
    exact .inr ⟨c, hp, m, hm, hb⟩
  have hinfo : ∀ name i, t.find? name = some i → i.Proper p.bodies := by
    intro name i hi
    have hm := List.mem_of_find?_eq_some hi
    rw [ht] at hm
    simp only [Layout.table, List.mem_append, List.mem_filterMap, List.mem_cons,
      List.not_mem_nil, or_false] at hm
    rcases hm with ⟨c, -, hf⟩ | rfl | rfl
    · exact hlayout i (List.mem_of_find?_eq_some hf)
    · exact ⟨by decide, by simp [listInfo]⟩
    · exact ⟨by decide, by simp [entryInfo]⟩
  refine ⟨fun name => ?_, ?_, ?_, fun name m hm b hb => ?_, ht ▸ rfl⟩
  · unfold ClassTable.fields
    cases hi : t.find? name with
    | none => exact .nil
    | some i => exact (hinfo name i hi).fields
  · unfold ClassTable.fields
    rw [hbuiltin _ (by decide)]
    rfl
  · unfold ClassTable.fields
    rw [hbuiltin _ (by decide)]
    rfl
  · unfold ClassTable.methods at hm
    cases hi : t.find? name with
    | none => simp [hi] at hm
    | some i =>
      rw [hi] at hm
      exact (hinfo name i hi).bodies m hm b hb

end Semlift.Program
