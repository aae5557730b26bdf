import Semlift.Config.Read
import Semlift.Knowledge.Load
import Semlift.Proofs.Except
import Semlift.Proofs.Knowledge.Core
import Semlift.Proofs.Rdf.Prefixes

/-!
The knowledge that a program is loaded with. Loading succeeds if the templates, the core vocabulary
and the background are read, and what is loaded is computed from the program, its settings and the
files. Names in queries are resolved in the namespaces that things are lifted in, as far as the
extra prefixes leave them alone.
-/

namespace Semlift.Knowledge

open Semlift.Rdf Semlift.Files Semlift.Program

lemma coreGraph_eq {ps : Prefixes} {g : Graph} (h : core ps = .ok g) : coreGraph ps = .ok g := by
  -- unfolded as a function, so that no comparison of two texts of it runs the reader
  have hgraph : coreGraph = coreGraph := rfl
  conv at hgraph => rhs; delta coreGraph
  simp only [hgraph, h]

lemma core_of_coreGraph {ps : Prefixes} {g : Graph} (h : coreGraph ps = .ok g) :
    core ps = .ok g := by
  have hgraph : coreGraph = coreGraph := rfl
  conv at hgraph => rhs; delta coreGraph
  rw [hgraph] at h
  beta_reduce at h
  generalize core ps = c at h ⊢
  cases c with
  | error e => cases h
  | ok g' =>
    cases h
    rfl

namespace Base

variable {t : ClassTable} {settings : Config.Settings} {tree : Tree} {b : Base}

lemma load_eq_ok : Base.load t settings tree = .ok b ↔ ∃ lifter core background,
    Lift.Lifter.new t settings.namespaces settings.prefixes = .ok lifter ∧
      coreGraph settings.prefixes = .ok core ∧
      readBackground settings.prefixes tree settings.background = .ok background ∧
      b = ⟨settings.prefixes, settings.domain, lifter, core, background, some .schema,
        externalReasoner settings, tree⟩ := by
  simp only [load, bind_eq_ok, pure_eq_ok]
  constructor
  · rintro ⟨lifter, hl, core, hc, background, hbg, rfl⟩
    exact ⟨lifter, core, background, hl, hc, hbg, rfl⟩
  · rintro ⟨lifter, core, background, hl, hc, hbg, rfl⟩
    exact ⟨lifter, hl, core, hc, background, hbg, rfl⟩

end Base

end Semlift.Knowledge

/-! ### Names -/

namespace Semlift.Lift

open Semlift.Rdf

/-- The namespaces under the prefixes that are meant for them. -/
def Namespaces.entries (names : Namespaces) : List (String × String) :=
  [("prog", names.program), ("run", names.run), ("smol", names.language), ("domain", names.domain)]

lemma Lifter.names_of_new {t : Program.ClassTable} {names : Namespaces} {prefixes : Prefixes}
    {l : Lifter} (h : Lifter.new t names prefixes = .ok l) : l.names = names := by
  refine foldlM_keeps (P := fun l => l.names = names) (fun c _ k k' hk hp => ?_) h rfl
  simp only [addClass, bind_eq_ok, pure_eq_ok] at hk
  obtain ⟨_, -, _, -, rfl⟩ := hk
  exact hp

end Semlift.Lift

namespace Semlift.Config.Settings

open Semlift.Rdf

variable {s : Settings} {e : String × String} {name ns loc : String}

/-- The namespace that the extra prefixes give a name; of several the last one counts. -/
def redefinition? (s : Settings) (name : String) : Option String :=
  (s.extra.reverse.find? (·.1 == name)).map Prod.snd

/-- No extra prefix takes a name away from its namespace, or a later one gives it back. -/
def Leaves (s : Settings) (e : String × String) : Prop := ∀ ns ∈ s.redefinition? e.1, ns = e.2

instance : Decidable (s.Leaves e) :=
  decidable_of_iff ((s.redefinition? e.1).all (· == e.2))
    (by simp [Leaves, Option.all_eq_true])

/-- A name of a namespace stands for it, or for what an extra prefix makes of it. -/
lemma find?_prefixes (he : e ∈ s.namespaces.entries) :
    s.prefixes.find? e.1 = some ((s.redefinition? e.1).getD e.2) := by
  have hstandard : Prefixes.standard.entries.reverse.find? (·.1 == e.1) = none := by
    have hnames : ∀ n ∈ ["prog", "run", "smol", "domain"],
        Prefixes.standard.entries.reverse.find? (·.1 == n) = none := by decide +kernel
    have hmem : e.1 ∈ s.namespaces.entries.map Prod.fst := List.mem_map_of_mem he
    exact hnames e.1 hmem
  have hown : (Prefixes.empty.addAll [("domain", s.domain), ("smol", s.language),
      ("prog", s.program), ("run", s.run)]).find? e.1 = some e.2 := by
    refine Prefixes.find?_addAll (by simp) ?_
    simp only [Lift.Namespaces.entries, namespaces, List.mem_cons, List.not_mem_nil,
      or_false] at he ⊢
    tauto
  have hextra : s.prefixes.find? e.1 = (s.redefinition? e.1).or (some e.2) := by
    rw [prefixes, Prefixes.find?_addAll_eq, Prefixes.find?_addAll_eq, hstandard, hown]
    rfl
  rw [hextra]
  cases s.redefinition? e.1 <;> rfl

lemma find?_prefixes_iff (he : e ∈ s.namespaces.entries) :
    s.prefixes.find? e.1 = some e.2 ↔ s.Leaves e := by
  rw [find?_prefixes he, Leaves]
  cases s.redefinition? e.1 <;> simp

/-- So a prefixed name lies in the namespace or in that of the extra prefix. -/
lemma expand_prefixes_iff (he : (name, ns) ∈ s.namespaces.entries) :
    s.prefixes.expand (name ++ ":" ++ loc) = .ok (ns ++ loc) ↔ s.Leaves (name, ns) := by
  have hname : Prefixes.IsName name := by
    have hnames : ∀ n ∈ ["prog", "run", "smol", "domain"], Prefixes.IsName n := by decide +kernel
    have hmem : name ∈ s.namespaces.entries.map Prod.fst := List.mem_map_of_mem he
    exact hnames name hmem
  obtain ⟨cs, rfl⟩ : ∃ cs, loc = String.ofList cs := ⟨loc.toList, String.ofList_toList.symm⟩
  rw [Prefixes.expand_name hname (find?_prefixes he), Leaves]
  cases s.redefinition? name <;> simp

end Semlift.Config.Settings

namespace Semlift.Knowledge

open Semlift.Rdf Semlift.Config Semlift.Files Semlift.Program

/-- **Queries and lifted triples name things alike** where no extra prefix takes a name away: each
of the four names stands for the namespace that things are lifted in, and the names of an object and
of a class are resolved as they are lifted, exactly if the extra prefixes leave the name alone. A
program is loaded with these prefixes and namespaces. -/
theorem names_agree_iff (s : Settings) :
    (∀ e ∈ s.namespaces.entries, s.prefixes.find? e.1 = some e.2 ↔ s.Leaves e) ∧
      (∀ o : ObjectRef, (s.prefixes.expand ("run:" ++ o.name)).map Term.iri =
        .ok (s.namespaces.object o) ↔ s.Leaves ("run", s.run)) ∧
      (∀ className, (s.prefixes.expand ("prog:" ++ className)).map Term.iri =
        .ok (s.namespaces.classIri className) ↔ s.Leaves ("prog", s.program)) ∧
      ∀ (t : ClassTable) (tree : Tree) (b : Base), Base.load t s tree = .ok b →
        b.prefixes = s.prefixes ∧ b.lifter.names = s.namespaces := by
  have hiri {x : Checked String} {iri : String} :
      x.map Term.iri = .ok (.iri iri) ↔ x = .ok iri := by
    cases x <;> simp [Except.map]
  have hrun : ("run", s.namespaces.run) ∈ s.namespaces.entries := by
    simp [Lift.Namespaces.entries, Settings.namespaces]
  have hprog : ("prog", s.namespaces.program) ∈ s.namespaces.entries := by
    simp [Lift.Namespaces.entries, Settings.namespaces]
  refine ⟨fun e he => Settings.find?_prefixes_iff he, fun o => ?_, fun className => ?_,
    fun t tree b hb => ?_⟩
  · rw [Lift.Namespaces.object, hiri, show "run:" = "run" ++ ":" by simp]
    exact Settings.expand_prefixes_iff hrun
  · rw [Lift.Namespaces.classIri, hiri, show "prog:" = "prog" ++ ":" by simp]
    exact Settings.expand_prefixes_iff hprog
  · obtain ⟨lifter, _, _, hlifter, -, -, rfl⟩ := Base.load_eq_ok.1 hb
    exact ⟨rfl, Lift.Lifter.names_of_new hlifter⟩

/-- A document with an extra prefix under the name of the namespace of objects. -/
def shadowingDocument : Document :=
  .tree (.mapping 0
    [(.scalar 0 "prefixes", .mapping 1 [(.scalar 1 "run", .scalar 1 "urn:run#")]),
      (.scalar 2 "extra_prefixes", .mapping 3 [(.scalar 3 "run", .scalar 3 "urn:other#")])])

/-- **A name is taken away** by an extra prefix: objects are lifted in one namespace, and their
names in queries lie in another one. -/
theorem run_prefix_shadowed :
    ∃ s, Config.read "/" "0" shadowingDocument = .ok s ∧
      ("run", "urn:run#") ∈ s.namespaces.entries ∧
      s.prefixes.find? "run" = some "urn:other#" ∧
      s.namespaces.object ⟨1, "A"⟩ = .iri "urn:run#obj1" ∧
      s.prefixes.expand "run:obj1" = .ok "urn:other#obj1" := by
  exact ⟨_, rfl, by decide +kernel, by decide +kernel, by decide +kernel, by decide +kernel⟩

end Semlift.Knowledge
