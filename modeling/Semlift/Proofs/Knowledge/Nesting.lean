import Semlift.Proofs.Knowledge.Load
import Semlift.Proofs.Program.Nesting

/-!
What is known of programs that differ in how sequences are nested. Lifting looks at classes, fields
and the names of methods, never into a body: so the sources, the answers to queries and the members
of classes are the same.
-/

namespace Semlift

open Semlift.Program Semlift.Rdf Semlift.Store

namespace Lift.Lifter

variable {l : Lifter} {t : ClassTable} {names : Namespaces} {prefixes : Prefixes} {s : State}
  {guarded : Bool} {c : String}

/-- The lifter of the table with all sequences nested to the right. -/
def tidy (l : Lifter) : Lifter := { l with table := l.table.tidy }

lemma addClass_tidy {i : ClassInfo} :
    addClass prefixes l.tidy i.tidy = (addClass prefixes l i).map tidy := by
  have htemplate : readTemplate prefixes l.tidy.table i.name =
      readTemplate prefixes l.table i.name := by
    rw [readTemplate, readTemplate, tidy, ClassTable.classModels_tidy]
  have hpredicate : readPredicate prefixes l.tidy.table i.name =
      readPredicate prefixes l.table i.name := by
    funext f
    rw [readPredicate, readPredicate, tidy, ClassTable.fieldModels_tidy]
  have hname : i.tidy.name = i.name := rfl
  have hfields : i.tidy.fields = i.fields := rfl
  simp only [addClass, hname, htemplate, hpredicate, hfields]
  generalize readTemplate prefixes l.table i.name = x
  generalize i.fields.mapM (readPredicate prefixes l.table i.name) = y
  cases x with
  | error d => rfl
  | ok templates => cases y <;> rfl

lemma new_tidy : new t.tidy names prefixes = (new t names prefixes).map tidy := by
  have hfold (infos : List ClassInfo) (l : Lifter) :
      (infos.map ClassInfo.tidy).foldlM (addClass prefixes) l.tidy =
        (infos.foldlM (addClass prefixes) l).map tidy := by
    induction infos generalizing l with
    | nil => rfl
    | cons i infos ih =>
      rw [List.map_cons, List.foldlM_cons, List.foldlM_cons, addClass_tidy]
      cases addClass prefixes l i with
      | error d => rfl
      | ok l' => exact ih l'
  exact hfold t.classes ⟨t, names, [], []⟩

/-! ### What is lifted -/

lemma template?_tidy : l.tidy.template? c = l.template? c := by
  simp only [template?, tidy, ClassTable.lineage_tidy]

lemma objectTriples_tidy : l.tidy.objectTriples = l.objectTriples := by
  funext o
  have hfields : l.tidy.table.fields o.ref.className = l.table.fields o.ref.className :=
    ClassTable.fields_tidy
  have htemplates : l.tidy.templateTriples o = l.templateTriples o := by
    simp only [templateTriples, template?_tidy]
    rfl
  simp only [objectTriples, hfields, htemplates]
  rfl

lemma classTriples_tidy : l.tidy.classTriples = l.classTriples := by
  funext c
  have hmethods : (l.tidy.table.methods c).flatMap (l.tidy.methodTriples c) =
      (l.table.methods c).flatMap (l.methodTriples c) := by
    rw [tidy, ClassTable.methods_tidy, List.flatMap_map]
    rfl
  have hsuper : l.tidy.table.superclass? c = l.table.superclass? c := ClassTable.superclass?_tidy
  have hfields : l.tidy.table.fields c = l.table.fields c := ClassTable.fields_tidy
  simp only [classTriples, hmethods, hsuper, hfields]
  rfl

lemma mayHave_tidy {predicate : Term} : l.tidy.mayHave c predicate = l.mayHave c predicate := by
  have hhas : l.tidy.table.has c = l.table.has c := ClassTable.has_tidy
  have hpredicates : l.tidy.predicatesOf c = l.predicatesOf c := by
    have hfields : l.tidy.table.fields c = l.table.fields c := ClassTable.fields_tidy
    simp only [predicatesOf, hfields, template?_tidy]
    rfl
  rw [mayHave, mayHave, hhas, hpredicates]

lemma stateSource_tidy : l.tidy.stateSource s guarded = l.stateSource s guarded := by
  funext p
  have hcandidates : l.tidy.candidates s guarded p = l.candidates s guarded p := by
    have howner : l.tidy.owner? = l.owner? := by
      funext t
      cases t <;> rfl
    simp only [candidates, mayHave_tidy, howner]
  simp only [stateSource, hcandidates, objectTriples_tidy]
  rfl

lemma tableSource_tidy : l.tidy.tableSource guarded = l.tableSource guarded := by
  funext p
  have hnames : l.tidy.table.names = l.table.names := ClassTable.names_tidy
  simp only [tableSource, classesOf, hnames, classTriples_tidy]

end Lift.Lifter

namespace Knowledge.Base

open Semlift.Lift (Lifter)

variable {b b' : Base} {s : State} {v : View} {text : String}

/-- The knowledge with all sequences of the program nested to the right. -/
def tidy (b : Base) : Base := { b with lifter := b.lifter.tidy }

lemma tidy_tidy : b.tidy.tidy = b.tidy := by
  simp only [tidy, Lifter.tidy, ClassTable.tidy_tidy]

lemma sourceOf_tidy : b.tidy.sourceOf s v = b.sourceOf s v := by
  funext k
  cases k with
  | heap => simp only [sourceOf, tidy, Lifter.stateSource_tidy]
  | classTable => simp only [sourceOf, tidy, Lifter.tableSource_tidy]
  | coreVocabulary | background => rfl

lemma graph_tidy : b.tidy.graph s v = b.graph s v := by
  simp only [graph, source, sourceOf_tidy]

/-- **Queries** have the same answers. -/
lemma query_tidy : b.tidy.query s v text = b.query s v text := by
  have hqueried : b.tidy.queried s v = b.queried s v := by
    simp only [queried, graph_tidy, source, sourceOf_tidy]
  simp only [query, hqueried]
  rfl

/-- **Classes** have the same members. -/
lemma members_tidy : b.tidy.members s v text = b.members s v text := by
  simp only [members, graph_tidy]
  rfl

/-- Asking for members leaves the same files. -/
lemma afterMembers_tidy : b.tidy.afterMembers s v text = (b.afterMembers s v text).tidy := by
  have hreasoner : b.tidy.reasoner v.mode = b.reasoner v.mode := rfl
  have hprefixes : b.tidy.prefixes = b.prefixes := rfl
  have hdomain : b.tidy.domain = b.domain := rfl
  simp only [afterMembers, hreasoner, hprefixes, hdomain, graph_tidy]
  split <;> rfl

/-- **Knowledge is loaded alike** for tables that differ in the nesting only. -/
lemma load_tidy {t u : ClassTable} {settings : Config.Settings} {tree : Files.Tree}
    (htu : t.tidy = u.tidy) (hb : Base.load t settings tree = .ok b) :
    ∃ b', Base.load u settings tree = .ok b' ∧ b.tidy = b'.tidy := by
  obtain ⟨lifter, core, background, hl, hc, hbg, rfl⟩ := load_eq_ok.1 hb
  have hnew : (Lifter.new u settings.namespaces settings.prefixes).map Lifter.tidy =
      .ok lifter.tidy := by
    rw [← Lifter.new_tidy, ← htu, Lifter.new_tidy, hl]
    rfl
  obtain ⟨lifter', hl', hlifter⟩ := map_eq_ok.1 hnew
  refine ⟨_, load_eq_ok.2 ⟨lifter', core, background, hl', hc, hbg, rfl⟩, ?_⟩
  rw [tidy, tidy, hlifter]

end Knowledge.Base

end Semlift
