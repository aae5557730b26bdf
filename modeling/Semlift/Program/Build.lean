import Semlift.Program.ClassTable
import Semlift.Program.Flaw
import Semlift.Program.Placeholder
import Semlift.Program.Usage

/-!
From a program to its class table. Names and superclasses are checked first; a program with a flaw
there gets no further. Then the classes are laid out, superclasses before subclasses, and at last
abstract methods and bodies are checked in the finished table.
-/

namespace Semlift.Program

open Semlift.Lang Semlift.Text

/-- The members of a list that occur in front of them already. -/
def repeated (names : List String) : List String :=
  (names.foldl (fun (seen, twice) n =>
    if n ∈ seen then (seen, twice ++ [n]) else (n :: seen, twice)) ([], [])).2

def ClassDecl.repeatedMembers (c : ClassDecl) : List Flaw :=
  (repeated (c.fields.map (·.name))).map (.duplicateField · c.name) ++
    (repeated (c.methods.map (·.name))).map (.duplicateMethod · c.name)

/-- The classes that are declared under a new name, and the flaws found on the way. -/
def declared (classes : List ClassDecl) : List ClassDecl × List Flaw :=
  classes.foldl (fun (known, flaws) c =>
    if isBuiltin c.name then (known, flaws ++ [.redeclaresBuiltin c.name])
    else if (known.map (·.name)).contains c.name then (known, flaws ++ [.duplicateClass c.name])
    else (known ++ [c], flaws ++ ClassDecl.repeatedMembers c)) ([], [])

def superOf (known : List ClassDecl) (name : String) : Option String :=
  (known.find? (·.name == name)).bind (·.superclass)

/-- Whether the superclasses from a class on come back to one seen before. -/
def runsInCircle (known : List ClassDecl) : (limit : Nat) → (seen : List String) →
    Option String → Bool
  | _, _, none => false
  | 0, _, some _ => true
  | n + 1, seen, some c => seen.contains c || runsInCircle known n (c :: seen) (superOf known c)

def ClassDecl.superclassFlaws (known : List ClassDecl) (c : ClassDecl) : List Flaw :=
  match c.superclass with
  | none => []
  | some s =>
    if !(known.map (·.name)).contains s then [.unknownSuperclass c.name s]
    else if runsInCircle known (known.length + 1) [c.name] (some s) then [.cycle c.name]
    else []

/-- One pass: the classes whose superclass is done before them, and those left for later. -/
def pass (done : List String) (pending : List ClassDecl) : List ClassDecl × List ClassDecl :=
  pending.foldl (fun (now, later) c =>
    match c.superclass with
    | some s =>
      if done.contains s || (now.map (·.name)).contains s then (now ++ [c], later)
      else (now, later ++ [c])
    | none => (now ++ [c], later)) ([], [])

/-- The classes with every superclass before its subclasses; none if a pass makes no progress. -/
def arrange : (passes : Nat) → (done : List String) → List ClassDecl → Option (List ClassDecl)
  | _, _, [] => some []
  | 0, _, _ :: _ => none
  | n + 1, done, pending =>
    let (now, later) := pass done pending
    if now.isEmpty then none
    else (arrange n (done ++ now.map (·.name)) later).map (now ++ ·)

/-- A name in angle brackets without blanks, or a name with a colon and without brackets, quotes and
blanks. -/
def isPredicateName (text : String) : Bool :=
  let cs := text.toList
  let gap (c : Char) : Bool := c == ' ' || c == '\t' || c == '\n'
  if 2 ≤ cs.length && cs.head? == some '<' && cs.getLast? == some '>' then !cs.any gap
  else cs.contains ':' && !cs.any fun c => gap c || c == '<' || c == '>' || c == '"'

/-- The tables so far. -/
structure Layout where
  classes : List ClassInfo
  models : List (String × String)
  flaws : List Flaw

/-- Adds a field to those of a class, unless a field of its name is inherited. -/
def addField (className : String) (st : List FieldInfo × List (String × String) × List Flaw)
    (f : FieldDecl) : List FieldInfo × List (String × String) × List Flaw :=
  let (fields, models, flaws) := st
  match fields.reverse.find? (·.name == f.name) with
  | some clash =>
    (fields, models,
      if clash.declaring = className then flaws
      else flaws ++ [.shadowedField f.name className clash.declaring])
  | none =>
    let fields := fields ++ [⟨f.name, f.type, className⟩]
    if f.models.isEmpty then (fields, models, flaws)
    else (fields, models ++ [(className ++ "." ++ f.name, f.models)],
      if isPredicateName f.models then flaws
      else flaws ++ [.notPredicate className f.name f.models])

def MethodDecl.flaws (c : ClassDecl) (m : MethodDecl) : List Flaw :=
  (if m.abstract && !c.abstract then [.abstractInConcrete m.name c.name] else []) ++
    (if !m.abstract && m.body.isNone then [.noBody c.name m.name] else [])

def layOut (l : Layout) (c : ClassDecl) : Layout :=
  let inherited := match c.superclass with
    | none => []
    | some s => ((l.classes.find? (·.name == s)).map (·.fields)).getD []
  let (fields, models, flaws) := c.fields.foldl (addField c.name) (inherited, l.models, l.flaws)
  let methods := c.methods.map fun m =>
    ⟨m.name, m.params, m.returnType, m.body, m.abstract, c.name⟩
  let unknown := (placeholders c.models).filter fun p => !(fields.map (·.name)).contains p
  { classes := l.classes ++ [⟨c.name, c.superclass, c.abstract, fields, methods⟩]
    models := if c.models.isEmpty then models else models ++ [(c.name, c.models)]
    flaws := flaws ++ c.methods.flatMap (MethodDecl.flaws c) ++
      unknown.map (.unknownPlaceholder c.name) }

def listInfo : ClassInfo :=
  ⟨listClass, none, false,
    [⟨contentField, "T", listClass⟩, ⟨nextField, listClass, listClass⟩], []⟩

def entryInfo : ClassInfo := ⟨entryClass, none, false, [], []⟩

/-- The table of the classes in order of declaration. -/
def Layout.table (l : Layout) (known : List ClassDecl) (main : Option Stmt) : ClassTable :=
  { classes := known.filterMap (fun c => l.classes.find? (·.name == c.name)) ++
      [listInfo, entryInfo]
    models := l.models
    main := main }

/-- The abstract methods that a concrete class does not implement. -/
def missingMethods (t : ClassTable) (c : ClassDecl) : List Flaw :=
  if c.abstract then []
  else
    let names := sortNames ((t.lineage c.name).flatMap fun d => (t.methods d).map (·.name))
    (names.filter fun m => ((t.lookup? c.name m).map (·.abstract)).getD false).map
      (.notImplemented c.name)

def createdFlaw (t : ClassTable) (place : Place) (className : String) : Option Flaw :=
  if !t.has className then some (.unknownCreated place className)
  else if t.isAbstract className then some (.abstractCreated place className)
  else none

def bodyFlaws (t : ClassTable) (body : Stmt) (params : List ParamDecl) (place : Place) :
    List Flaw :=
  (freeVariables body params).map (.freeVariable · place) ++
    (Stmt.usage body).creates.filterMap (createdFlaw t place)

def methodFlaws (t : ClassTable) (c : ClassInfo) (m : MethodInfo) : List Flaw :=
  match m.body with
  | none => []
  | some body => bodyFlaws t body m.params (.method c.name m.name)

/-- The flaws that show only in the finished table. -/
def tableFlaws (t : ClassTable) (classes : List ClassDecl) : List Flaw :=
  classes.flatMap (missingMethods t) ++
    t.classes.flatMap (fun c => c.methods.flatMap (methodFlaws t c)) ++
    match t.main with
    | none => []
    | some body => bodyFlaws t body [] .main

def Source.build (p : Source) : Except BuildError ClassTable :=
  let (known, flaws) := declared p.classes
  let flaws := (if p.main.isNone then [.noMain] else []) ++ flaws ++
    known.flatMap (ClassDecl.superclassFlaws known)
  if !flaws.isEmpty then .error (.flawed flaws)
  else
    match arrange known.length [] known with
    | none => .error .unordered
    | some ordered =>
      let layout := ordered.foldl layOut ⟨[], [], []⟩
      let t := layout.table known p.main
      let flaws := layout.flaws ++ tableFlaws t p.classes
      if flaws.isEmpty then .ok t else .error (.flawed flaws)

end Semlift.Program
