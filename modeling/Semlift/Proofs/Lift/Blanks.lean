import Semlift.Proofs.Except
import Semlift.Proofs.Knowledge.Load
import Semlift.Proofs.Lift.Subject
import Semlift.Proofs.Query.Distinct

/-!
Blank nodes that are lifted. An object has one for each label of the template of its class, a
simulation unit two for each of its samples, the sample and its port. Their labels begin with the
name of the object and go on with what tells the nodes of one object apart, so a node is of one
object and of one kind only. The labels of the core vocabulary and of the background ontology begin
with prefixes of their own, so no blank node of a document is lifted.
-/

namespace Semlift.Rdf

/-- The term stands in the triple. -/
def Triple.Has (x : Triple) (n : Term) : Prop := x.subject = n ∨ x.predicate = n ∨ x.object = n

end Semlift.Rdf

namespace Semlift.Lift

open Semlift.Number Semlift.Program Semlift.Rdf Semlift.Store

variable {l : Lifter} {t : ClassTable} {o : Object} {u : SimUnit} {r d : ObjectRef} {x : Triple}
  {n : Term} {T : Template}

/-! ### Labels -/

/-- The blank nodes of one object. -/
inductive NodeKind where
  | template (label : String)
  | sample (i : Nat)
  | port (i : Nat)
  deriving DecidableEq, Repr

def NodeKind.label : NodeKind → String
  | .template label => "t_" ++ label
  | .sample i => "s" ++ natText i
  | .port i => "s" ++ natText i ++ "_port"

def node (r : ObjectRef) (k : NodeKind) : Term := .blank (r.name ++ "_" ++ k.label)

/-- The number of a sample is not that of a port: it has no underscore. -/
lemma natText_ne_port {i j : Nat} : natText i ≠ natText j ++ "_port" := by
  intro h
  have hmem : '_' ∈ (natText i).toList := by
    rw [h]
    simp
  exact underscore_notMem_natText hmem

lemma NodeKind.label_injective : Function.Injective NodeKind.label := by
  intro k k' h
  have hlist := congrArg String.toList h
  cases k with
  | template label =>
    cases k' with
    | template label' => rw [(String.append_right_inj _).mp h]
    | sample i => simp [NodeKind.label] at hlist
    | port i => simp [NodeKind.label] at hlist
  | sample i =>
    cases k' with
    | template label => simp [NodeKind.label] at hlist
    | sample j => rw [natText_injective ((String.append_right_inj _).mp h)]
    | port j =>
      rw [NodeKind.label, NodeKind.label, String.append_assoc] at h
      exact absurd ((String.append_right_inj _).mp h) natText_ne_port
  | port i =>
    cases k' with
    | template label => simp [NodeKind.label] at hlist
    | sample j =>
      rw [NodeKind.label, NodeKind.label, String.append_assoc] at h
      exact absurd ((String.append_right_inj _).mp h).symm natText_ne_port
    | port j =>
      have hs := (String.append_left_inj _).mp h
      rw [natText_injective ((String.append_right_inj _).mp hs)]

lemma node_template {label : String} :
    node r (.template label) = .blank (r.name ++ "_t_" ++ label) := by
  simp [node, NodeKind.label, ← String.toList_inj]

lemma node_sample {i : Nat} :
    node u.ref (.sample i) = .blank (Lifter.sampleLabel u i) := by
  simp [node, NodeKind.label, Lifter.sampleLabel, ← String.toList_inj]

lemma node_port {i : Nat} :
    node u.ref (.port i) = .blank (Lifter.sampleLabel u i ++ "_port") := by
  simp [node, NodeKind.label, Lifter.sampleLabel, ← String.toList_inj]

lemma toList_name_append {label : String} : (r.name ++ "_" ++ label).toList =
    "obj".toList ++ ((natText r.serial).toList ++ '_' :: label.toList) := by
  simp [ObjectRef.name]

/-- **A blank node is of one object and of one kind.** -/
theorem node_eq_node_iff {k k' : NodeKind} :
    node r k = node d k' ↔ r.serial = d.serial ∧ k = k' := by
  constructor
  · intro h
    have hlist := congrArg String.toList (Term.blank.inj h)
    rw [toList_name_append, toList_name_append, List.append_cancel_left_eq] at hlist
    obtain ⟨hserial, hlabel⟩ :=
      Query.toList_inj_of_append underscore_notMem_natText underscore_notMem_natText hlist
    exact ⟨natText_injective hserial, NodeKind.label_injective (String.toList_injective hlabel)⟩
  · rintro ⟨hserial, rfl⟩
    rw [node, node, ObjectRef.name, ObjectRef.name, hserial]

/-- No lifted node has a prefix that begins with another letter than the names of objects. -/
lemma not_under_node {pre : String} {k : NodeKind} (hpre : pre.toList.head? ≠ some 'o')
    (hne : pre.toList ≠ []) : ¬(node r k).Under pre := by
  rintro ⟨label, h⟩
  have hlist := congrArg String.toList (Term.blank.inj h)
  rw [toList_name_append, String.toList_append] at hlist
  obtain ⟨c, cs, hcs⟩ := List.exists_cons_of_ne_nil hne
  rw [hcs] at hlist hpre
  have hc : c = 'o' := (List.cons.inj hlist).1.symm
  exact hpre (congrArg some hc)

/-! ### Entries -/

/-- What is lifted of a state: objects of the heap and simulation units. -/
inductive Entry where
  | object (o : Object)
  | unit (u : SimUnit)

namespace Entry

def ref : Entry → ObjectRef
  | .object o => o.ref
  | .unit u => u.ref

def triples (l : Lifter) : Entry → List Triple
  | .object o => l.objectTriples o
  | .unit u => l.unitTriples u

/-- The kinds of nodes that an entry has: the labels of its template, or the numbers of its
samples. -/
inductive Mints (l : Lifter) : Entry → NodeKind → Prop where
  | template {o : Object} {T : Template} {x : Triple} {label : String}
      (hT : l.template? o.ref.className = some T) (hx : x ∈ T.triples)
      (hl : x.subject = .blank label ∨ x.object = .blank label) :
      Mints l (.object o) (.template label)
  | sample {u : SimUnit} {i : Nat} (h : i < u.samples.length) : Mints l (.unit u) (.sample i)
  | port {u : SimUnit} {i : Nat} (h : i < u.samples.length) : Mints l (.unit u) (.port i)

end Entry

/-! ### Nodes of templates -/

/-- Where neither the instance nor a value is blank, blank nodes are those of the template. -/
lemma Template.fillTerm_eq_blank {self a : Term} {value : String → Option Term}
    {blankPrefix label : String} (hself : self.isBlank = false)
    (hvalue : ∀ f t, value f = some t → t.isBlank = false)
    (h : fillTerm self value blankPrefix a = some (.blank label)) :
    ∃ inner, a = .blank inner ∧ label = blankPrefix ++ inner := by
  cases a with
  | blank inner =>
    rw [fillTerm, Option.some.injEq, Term.blank.injEq] at h
    exact ⟨inner, rfl, h.symm⟩
  | literal lexical datatype language => cases h
  | iri name =>
    rw [fillTerm] at h
    split at h
    · rw [Option.some.inj h] at hself
      cases hself
    · split at h
      · cases hvalue _ _ h
      · cases h

lemma isBlank_of_lift? {ns : Namespaces} {v : Value} {t : Term} (h : ns.lift? v = some t) :
    t.isBlank = false := by
  cases v <;> cases h <;> rfl

lemma isBlank_of_fieldTerm? {f : String} {t : Term} (h : l.fieldTerm? o f = some t) :
    t.isBlank = false := by
  obtain ⟨v, -, hlift⟩ := Option.bind_eq_some_iff.mp h
  exact isBlank_of_lift? hlift

lemma mints_of_mem_templateTriples (hx : x ∈ l.templateTriples o) (hn : n.isBlank)
    (h : x.Has n) : ∃ k, Entry.Mints l (.object o) k ∧ n = node o.ref k := by
  unfold Lifter.templateTriples at hx
  split at hx
  · cases hx
  rename_i T hT
  obtain ⟨y, hy, hfill⟩ := List.mem_filterMap.mp hx
  obtain ⟨hs, -, ho, -, hp⟩ := Template.fillTriple_eq_some.mp hfill
  have hnode : ∀ a, Template.fillTerm (l.names.object o.ref) (l.fieldTerm? o)
      (o.ref.name ++ "_t_") a = some n → ∃ inner, a = .blank inner ∧
        n = node o.ref (.template inner) := by
    intro a ha
    cases n with
    | blank label =>
      obtain ⟨inner, rfl, rfl⟩ :=
        Template.fillTerm_eq_blank rfl (fun _ _ => isBlank_of_fieldTerm?) ha
      exact ⟨inner, rfl, node_template.symm⟩
    | iri | literal => cases hn
  rcases h with rfl | rfl | rfl
  · obtain ⟨inner, hinner, heq⟩ := hnode _ hs
    exact ⟨_, .template hT hy (.inl hinner), heq⟩
  · cases hpred : x.predicate <;> simp [hpred, Term.isIri, Term.isBlank] at hp hn
  · obtain ⟨inner, hinner, heq⟩ := hnode _ ho
    exact ⟨_, .template hT hy (.inr hinner), heq⟩

/-! ### Nodes of objects and units -/

/-- The predicates that fields are lifted under besides their own are names. -/
def Lifter.Named (l : Lifter) : Prop := ∀ e ∈ l.predicates, e.2.isIri

lemma Lifter.named_of_new {names : Namespaces} {prefixes : Prefixes}
    (h : Lifter.new t names prefixes = .ok l) : l.Named := by
  refine foldlM_keeps (P := Lifter.Named) (fun c _ k k' hk hp => ?_) h (by simp [Named])
  simp only [addClass, bind_eq_ok, pure_eq_ok] at hk
  obtain ⟨templates, -, predicates, hpred, rfl⟩ := hk
  intro e he
  obtain he | he := List.mem_append.mp he
  · exact hp e he
  obtain ⟨es, hes, he⟩ := List.mem_flatten.mp he
  obtain ⟨f, -, hf⟩ := exists_of_mem_mapM hpred hes
  unfold readPredicate at hf
  dsimp only at hf
  split at hf
  · cases hf
    cases he
  · split at hf
    · cases hf
      rw [List.mem_singleton.mp he]
      rfl
    · cases hf

lemma mints_of_mem_objectTriples (hl : l.Named) (hx : x ∈ l.objectTriples o) (hn : n.isBlank)
    (h : x.Has n) : ∃ k, Entry.Mints l (.object o) k ∧ n = node o.ref k := by
  simp only [Lifter.objectTriples, List.cons_append, List.mem_cons, List.mem_append,
    List.mem_flatMap] at hx
  obtain rfl | ⟨f, -, hx⟩ | hx := hx
  · obtain rfl | rfl | rfl := h <;> cases hn
  · unfold Lifter.fieldTriples at hx
    split at hx
    · cases hx
    rename_i value hvalue
    simp only [List.mem_cons, List.mem_map, Option.mem_toList] at hx
    have hobject := isBlank_of_fieldTerm? hvalue
    obtain rfl | ⟨p, hp, rfl⟩ := hx
    · obtain rfl | rfl | rfl := h
      · cases hn
      · cases hn
      · rw [hn] at hobject
        cases hobject
    · obtain ⟨e, he, rfl⟩ := Option.map_eq_some_iff.mp hp
      have hpred := hl e (List.mem_of_find?_eq_some he)
      obtain rfl | rfl | rfl := h
      · cases hn
      · cases hterm : e.2 <;> simp [hterm, Term.isIri, Term.isBlank] at hpred hn
      · rw [hn] at hobject
        cases hobject
  · exact mints_of_mem_templateTriples hx hn h

lemma lt_of_mem_zipIdx {a : Sample} {i : Nat} (h : (a, i) ∈ u.samples.zipIdx) :
    i < u.samples.length := by
  obtain ⟨hi, -⟩ := List.getElem?_eq_some_iff.mp (List.mem_zipIdx_iff_getElem?.mp h)
  exact hi

lemma mints_of_mem_unitTriples (hx : x ∈ l.unitTriples u) (hn : n.isBlank) (h : x.Has n) :
    ∃ k, Entry.Mints l (.unit u) k ∧ n = node u.ref k := by
  have hsample : ∀ {a i}, (a, i) ∈ u.samples.zipIdx → n = .blank (Lifter.sampleLabel u i) →
      ∃ k, Entry.Mints l (.unit u) k ∧ n = node u.ref k :=
    fun hi hn => ⟨_, .sample (lt_of_mem_zipIdx hi), hn.trans node_sample.symm⟩
  have hport : ∀ {a i}, (a, i) ∈ u.samples.zipIdx →
      n = .blank (Lifter.sampleLabel u i ++ "_port") →
      ∃ k, Entry.Mints l (.unit u) k ∧ n = node u.ref k :=
    fun hi hn => ⟨_, .port (lt_of_mem_zipIdx hi), hn.trans node_port.symm⟩
  cases Lifter.mem_unitTriples.mp hx with
  | role => obtain rfl | rfl | rfl := h <;> cases hn
  | sample hi =>
    obtain rfl | rfl | rfl := h
    · cases hn
    · cases hn
    · exact hsample hi rfl
  | sampleRole hi =>
    obtain rfl | rfl | rfl := h
    · exact hsample hi rfl
    · cases hn
    · cases hn
  | port hi =>
    obtain rfl | rfl | rfl := h
    · exact hsample hi rfl
    · cases hn
    · exact hport hi rfl
  | portName hi =>
    obtain rfl | rfl | rfl := h
    · exact hport hi rfl
    · cases hn
    · cases hn
  | value hi hv =>
    obtain rfl | rfl | rfl := h
    · exact hsample hi rfl
    · cases hn
    · rw [isBlank_of_lift? hv] at hn
      cases hn
  | time hi =>
    obtain rfl | rfl | rfl := h
    · exact hsample hi rfl
    · cases hn
    · cases hn

/-- **The blank nodes of an entry** are those of its template or of its samples. -/
theorem Entry.mints_of_mem_triples {e : Entry} (hl : l.Named) (hx : x ∈ e.triples l)
    (hn : n.isBlank) (h : x.Has n) : ∃ k, e.Mints l k ∧ n = node e.ref k := by
  cases e with
  | object o => exact mints_of_mem_objectTriples hl hx hn h
  | unit u => exact mints_of_mem_unitTriples hx hn h

/-- Every sample and every port has its node. -/
lemma exists_has_node {i : Nat} (hi : i < u.samples.length) :
    (∃ x ∈ l.unitTriples u, x.Has (node u.ref (.sample i))) ∧
      ∃ x ∈ l.unitTriples u, x.Has (node u.ref (.port i)) := by
  have hmem : (u.samples[i], i) ∈ u.samples.zipIdx :=
    List.mem_zipIdx_iff_getElem?.mpr (List.getElem?_eq_getElem hi)
  refine ⟨⟨_, Lifter.mem_unitTriples.mpr (.sample hmem), .inr (.inr ?_)⟩,
    ⟨_, Lifter.mem_unitTriples.mpr (.port hmem), .inr (.inr ?_)⟩⟩
  · exact node_sample.symm
  · exact node_port.symm

/-! ### Nodes of documents -/

open Semlift.Knowledge Semlift.Files

/-- The blank nodes of a document that is read have the prefix of the reader. -/
lemma under_of_has {reader : Turtle.Reader} {text : String} {g : Graph}
    (h : (reader.read text).1 = .ok g) (hx : x ∈ g.triples) (hn : n.isBlank) (hhas : x.Has n) :
    n.Under reader.blankPrefix := by
  obtain ⟨hs, hp, ho⟩ := Turtle.own_of_read h hx
  obtain rfl | rfl | rfl := hhas
  · exact hs hn
  · cases hterm : x.predicate <;> simp [hterm, Term.isIri, Term.isBlank] at hp hn
  · exact ho hn

lemma under_of_readCore {prefixes : Prefixes} {text : String} {g : Graph}
    (h : readCore prefixes text = .ok g) (hx : x ∈ g.triples) (hn : n.isBlank)
    (hhas : x.Has n) : n.Under "core_" :=
  under_of_has h hx hn hhas

lemma under_of_coreGraph {prefixes : Prefixes} {g : Graph} (h : coreGraph prefixes = .ok g)
    (hx : x ∈ g.triples) (hn : n.isBlank) (hhas : x.Has n) : n.Under "core_" := by
  have hcore : core prefixes = readCore prefixes coreText := rfl
  exact under_of_readCore (hcore.symm.trans (core_of_coreGraph h)) hx hn hhas

lemma under_of_readBackground {prefixes : Prefixes} {tree : Tree} {path : String} {g : Graph}
    (h : readBackground prefixes tree path = .ok g) (hx : x ∈ g.triples) (hn : n.isBlank)
    (hhas : x.Has n) : n.Under "bg_" := by
  unfold readBackground at h
  split at h
  · cases h
    cases hx
  · cases hcontent : tree.read? path with
    | none =>
      rw [hcontent] at h
      cases h
    | some text =>
      rw [hcontent, Turtle.Reader.readNamed] at h
      cases hread : (Turtle.Reader.new prefixes "bg_").read text with
      | mk result after =>
        rw [hread] at h
        cases result with
        | error e => cases h
        | ok g' =>
          cases h
          exact under_of_has (congrArg Prod.fst hread) hx hn hhas

variable {settings : Config.Settings} {tree : Tree} {b : Base}

/-- **Lifted blank nodes are fresh.** The blank nodes of an entry are those of the labels of its
template or of its samples and their ports. A node is of one serial number and of one kind, so
entries that share a blank node have one serial number, and no blank node of an entry is one of the
core vocabulary or of the background. -/
theorem lifted_blanks_fresh (h : Base.load t settings tree = .ok b) :
    (∀ e : Entry, ∀ x ∈ e.triples b.lifter, ∀ n, n.isBlank → x.Has n →
        ∃ k, e.Mints b.lifter k ∧ n = node e.ref k) ∧
    (∀ u : SimUnit, ∀ i < u.samples.length,
        (∃ x ∈ b.lifter.unitTriples u, x.Has (node u.ref (.sample i))) ∧
          ∃ x ∈ b.lifter.unitTriples u, x.Has (node u.ref (.port i))) ∧
    (∀ r d k k', node r k = node d k' ↔ r.serial = d.serial ∧ k = k') ∧
    (∀ e e' : Entry, ∀ x ∈ e.triples b.lifter, ∀ y ∈ e'.triples b.lifter, ∀ n, n.isBlank →
        x.Has n → y.Has n → e.ref.serial = e'.ref.serial) ∧
    ∀ e : Entry, ∀ x ∈ e.triples b.lifter, ∀ n, n.isBlank → x.Has n →
      ∀ y, y ∈ b.core.triples ∨ y ∈ b.background.triples → ¬y.Has n := by
  obtain ⟨lifter, core, background, hlifter, hcore, hbackground, rfl⟩ := Base.load_eq_ok.mp h
  have hnamed := Lifter.named_of_new hlifter
  refine ⟨fun e x hx n => Entry.mints_of_mem_triples hnamed hx, fun u i => exists_has_node,
    fun r d k k' => node_eq_node_iff, ?_, ?_⟩
  · intro e e' x hx y hy n hn hxn hyn
    obtain ⟨k, -, rfl⟩ := Entry.mints_of_mem_triples hnamed hx hn hxn
    obtain ⟨k', -, heq⟩ := Entry.mints_of_mem_triples hnamed hy hn hyn
    exact (node_eq_node_iff.mp heq).1
  · intro e x hx n hn hxn y hy hyn
    obtain ⟨k, -, rfl⟩ := Entry.mints_of_mem_triples hnamed hx hn hxn
    obtain hy | hy := hy
    · exact not_under_node (by decide) (by decide) (under_of_coreGraph hcore hy hn hyn)
    · exact not_under_node (by decide) (by decide) (under_of_readBackground hbackground hy hn hyn)

/-- A background that speaks of an unnamed thing of its own. -/
def boxTree : Tree := ⟨[(["box.ttl"], .file "<urn:box> <urn:of> _:wood .")]⟩

def boxSettings : Config.Settings := { Config.Settings.default "" with background := "box.ttl" }

def woodTriple : Triple := ⟨.iri "urn:box", .iri "urn:of", .blank "bg_wood"⟩

/-- What is in the seventh object, a box, is not what the background says boxes are of. -/
theorem lifted_blanks_fresh_box : ∃ t b, Lifter.boxProgram.build = .ok t ∧
    Base.load t boxSettings boxTree = .ok b ∧ woodTriple ∈ b.background.triples ∧
    ⟨.blank "obj7_t_b0", .iri "urn:size", .integer 1⟩ ∈
      b.lifter.objectTriples ⟨⟨7, "Box"⟩, [("size", .int 1)]⟩ ∧
    ∀ e : Entry, ∀ x ∈ e.triples b.lifter, ¬x.Has (.blank "bg_wood") := by
  obtain ⟨t, l, hbuild, hl, hrun⟩ := Lifter.exists_new_of_build Lifter.boxProgram
    boxSettings.namespaces boxSettings.prefixes
    (fun l => decide (⟨.blank "obj7_t_b0", .iri "urn:size", .integer 1⟩ ∈
      l.objectTriples ⟨⟨7, "Box"⟩, [("size", .int 1)]⟩)) true (by decide +kernel)
  have hcore : core boxSettings.prefixes =
      .ok (.ofList (coreTriples fun n => (boxSettings.prefixes.find? n).getD "")) :=
    core_eq (by decide +kernel)
  obtain ⟨background, hbackground, hwood⟩ := exists_ok_of_any
    (x := readBackground boxSettings.prefixes boxTree boxSettings.background)
    (p := fun g => woodTriple ∈ g.triples) (by decide +kernel)
  have hload := Base.load_eq_ok.mpr
    ⟨l, _, background, hl, coreGraph_eq hcore, hbackground, rfl⟩
  have hmem : woodTriple ∈ background.triples := of_decide_eq_true hwood
  refine ⟨t, _, hbuild, hload, hmem, of_decide_eq_true hrun, ?_⟩
  intro e x hx hhas
  obtain ⟨-, -, -, -, hapart⟩ := lifted_blanks_fresh hload
  exact hapart e x hx _ rfl hhas woodTriple (.inr hmem) (.inr (.inr rfl))

end Semlift.Lift
