import Semlift.Lift.Names
import Semlift.Lift.Template
import Semlift.Program.ClassTable
import Semlift.Store.Heap
import Semlift.Store.Simulation

/-!
The triples of objects, of simulation units and of classes. An object gives its class, then the
values of its fields in the order of the class table, then the template of the nearest class above
it that has one. A class gives its declaration, its fields and its methods.
-/

namespace Semlift.Lift

open Semlift.Rdf Semlift.Program Semlift.Store

/-- A class table made ready for lifting. -/
structure Lifter where
  table : ClassTable
  names : Namespaces
  templates : List (String × Template)
  /-- The predicates that fields are lifted under besides their own, by class and field. -/
  predicates : List (String × Term)

namespace Lifter

def rdfType : Term := .iri Vocabulary.rdfType

def fieldKey (className field : String) : String := className ++ "." ++ field

/-- The template that a class declares, if any. -/
def readTemplate (prefixes : Prefixes) (t : ClassTable) (className : String) :
    Checked (List (String × Template)) :=
  let text := t.classModels className
  if text.isEmpty then .ok []
  else
    match Template.read prefixes text with
    | .ok template => .ok [(className, template)]
    | .error e =>
      .error (e.diagnostic.withNote ("in the models template of class '" ++ className ++ "'"))

/-- The predicate of a field that a class declares, if any. -/
def readPredicate (prefixes : Prefixes) (t : ClassTable) (className : String) (f : FieldInfo) :
    Checked (List (String × Term)) :=
  let models := t.fieldModels className f.name
  if f.declaring != className || models.isEmpty then .ok []
  else
    match prefixes.expand models with
    | .ok iri => .ok [(fieldKey className f.name, .iri iri)]
    | .error d =>
      .error (d.withNote
        ("in the models predicate of field '" ++ className ++ "." ++ f.name ++ "'"))

def addClass (prefixes : Prefixes) (l : Lifter) (c : ClassInfo) : Checked Lifter := do
  let templates ← readTemplate prefixes l.table c.name
  let predicates ← c.fields.mapM (readPredicate prefixes l.table c.name)
  return { l with
    templates := l.templates ++ templates
    predicates := l.predicates ++ predicates.flatten }

def new (t : ClassTable) (names : Namespaces) (prefixes : Prefixes) : Checked Lifter :=
  t.classes.foldlM (addClass prefixes) ⟨t, names, [], []⟩

def template? (l : Lifter) (className : String) : Option Template :=
  (l.table.lineage className).findSome? fun c => (l.templates.find? (·.1 == c)).map (·.2)

def predicate? (l : Lifter) (f : FieldInfo) : Option Term :=
  (l.predicates.find? (·.1 == fieldKey f.declaring f.name)).map (·.2)

def fieldIri (l : Lifter) (f : FieldInfo) : Term := l.names.field f.declaring f.name

/-- The term of a field of an object. -/
def fieldTerm? (l : Lifter) (o : Object) (field : String) : Option Term :=
  (o.fields.get? field).bind l.names.lift?

def fieldTriples (l : Lifter) (o : Object) (f : FieldInfo) : List Triple :=
  match l.fieldTerm? o f.name with
  | none => []
  | some value =>
    let self := l.names.object o.ref
    ⟨self, l.fieldIri f, value⟩ :: (l.predicate? f).toList.map fun p => ⟨self, p, value⟩

def templateTriples (l : Lifter) (o : Object) : List Triple :=
  match l.template? o.ref.className with
  | none => []
  | some t => t.instantiate (l.names.object o.ref) (l.fieldTerm? o) (o.ref.name ++ "_t_")

def objectTriples (l : Lifter) (o : Object) : List Triple :=
  ⟨l.names.object o.ref, rdfType, l.names.classIri o.ref.className⟩ ::
    (l.table.fields o.ref.className).flatMap (l.fieldTriples o) ++ l.templateTriples o

/-- The triples of a sample; its number is part of the names of its nodes. -/
def sampleTriples (l : Lifter) (u : SimUnit) (s : Sample) (i : Nat) : List Triple :=
  let label := u.ref.name ++ "_s" ++ Number.natText i
  let node := Term.blank label
  let port := Term.blank (label ++ "_port")
  [⟨l.names.object u.ref, l.names.word "hasSample", node⟩,
    ⟨node, l.names.word "roleName", .string u.role⟩,
    ⟨node, l.names.word "ofPort", port⟩,
    ⟨port, l.names.word "withName", .string s.port⟩] ++
    (l.names.lift? s.value).toList.map (fun v => ⟨node, l.names.word "withValue", v⟩) ++
    [⟨node, l.names.word "atTime", .double s.time⟩]

def unitTriples (l : Lifter) (u : SimUnit) : List Triple :=
  ⟨l.names.object u.ref, l.names.word "roleName", .string u.role⟩ ::
    u.samples.zipIdx.flatMap fun (s, i) => l.sampleTriples u s i

/-- A named part of a declaration. -/
def partTriples (l : Lifter) (whole : Term) (link : String) (part : Term) (kind name : String) :
    List Triple :=
  [⟨whole, l.names.word link, part⟩, ⟨part, rdfType, l.names.word kind⟩,
    ⟨part, l.names.word "hasName", .string name⟩]

def methodTriples (l : Lifter) (className : String) (m : MethodInfo) : List Triple :=
  let method := l.names.method className m.name
  l.partTriples (l.names.classIri className) "hasMethod" method "Method" m.name ++
    m.params.flatMap fun p =>
      l.partTriples method "hasParameter" (l.names.parameter className m.name p.name)
        "Parameter" p.name

def classTriples (l : Lifter) (className : String) : List Triple :=
  let cls := l.names.classIri className
  [⟨cls, rdfType, l.names.word "Class"⟩, ⟨cls, l.names.word "hasName", .string className⟩] ++
    (l.table.superclass? className).toList.map
      (fun s => ⟨cls, .iri Vocabulary.rdfsSubClassOf, l.names.classIri s⟩) ++
    ((l.table.fields className).filter (·.declaring == className)).flatMap
      (fun f => l.partTriples cls "hasField" (l.fieldIri f) "Field" f.name) ++
    (l.table.methods className).flatMap (l.methodTriples className)

end Lifter

end Semlift.Lift
