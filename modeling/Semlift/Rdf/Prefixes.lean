import Semlift.Diagnostic
import Semlift.Rdf.Vocabulary
import Semlift.Text.Byte

/-!
Prefixes and the namespaces they stand for, in order of declaration. A prefix has one namespace:
declared again, it gets the new one and keeps its place.
-/

namespace Semlift.Rdf

open Semlift.Text

structure Prefixes where
  entries : List (String × String)
  nodup : (entries.map Prod.fst).Nodup

namespace Prefixes

def empty : Prefixes := ⟨[], .nil⟩

instance : Inhabited Prefixes := ⟨empty⟩

def set (name ns : String) : List (String × String) → List (String × String)
  | [] => [(name, ns)]
  | (n, old) :: more => if n = name then (n, ns) :: more else (n, old) :: set name ns more

theorem mem_set {name ns n : String} {es : List (String × String)} :
    n ∈ (set name ns es).map Prod.fst ↔ n = name ∨ n ∈ es.map Prod.fst := by
  induction es with
  | nil => simp [set]
  | cons e es ih =>
    obtain ⟨m, old⟩ := e
    by_cases h : m = name
    · simp [set, h]
    · simp only [set, h, if_false, List.map_cons, List.mem_cons, ih]
      constructor
      · rintro (rfl | rfl | h) <;> simp_all
      · rintro (rfl | rfl | h) <;> simp_all

theorem nodup_set {name ns : String} {es : List (String × String)} (h : (es.map Prod.fst).Nodup) :
    ((set name ns es).map Prod.fst).Nodup := by
  induction es with
  | nil => simp [set]
  | cons e es ih =>
    obtain ⟨m, old⟩ := e
    rw [List.map_cons, List.nodup_cons] at h
    by_cases hm : m = name
    · subst hm
      simp only [set, if_true, List.map_cons, List.nodup_cons]
      exact h
    · simp only [set, hm, if_false, List.map_cons, List.nodup_cons]
      exact ⟨fun hin => (mem_set.1 hin).elim hm h.1, ih h.2⟩

def add (p : Prefixes) (name ns : String) : Prefixes := ⟨set name ns p.entries, nodup_set p.nodup⟩

def addAll (p : Prefixes) (es : List (String × String)) : Prefixes :=
  es.foldl (fun p e => p.add e.1 e.2) p

def standard : Prefixes :=
  empty.addAll [("rdf", Vocabulary.rdf), ("rdfs", Vocabulary.rdfs), ("owl", Vocabulary.owl),
    ("xsd", Vocabulary.xsd)]

def find? (p : Prefixes) (name : String) : Option String :=
  (p.entries.find? (·.1 == name)).map (·.2)

/-- The IRI of `p:local` and of `<p:local>` for a declared prefix `p`; any other name in angle
brackets with a colon is an IRI itself. -/
def expand (p : Prefixes) (name : String) : Checked String :=
  let bracketed := match name.toList with
    | '<' :: cs => if cs.getLast? = some '>' then some cs.dropLast else none
    | _ => none
  let text := bracketed.getD name.toList
  match splitFirst? ':' text with
  | some (before, after) =>
    match p.find? (String.ofList before) with
    | some ns => .ok (ns ++ String.ofList after)
    | none =>
      if bracketed.isSome then .ok (String.ofList text)
      else .error (.host ("cannot resolve name '" ++ name ++ "'"))
  | none => .error (.host ("cannot resolve name '" ++ name ++ "'"))

/-- The longest namespace that begins an IRI, the first of equally long ones, with the rest of the
IRI. -/
def longest? (p : Prefixes) (iri : String) : Option (String × String × List Char) :=
  p.entries.foldl (fun best (name, ns) =>
    match afterPrefix? ns.toList iri.toList with
    | none => best
    | some rest =>
      match best with
      | none => some (name, ns, rest)
      | some (_, old, _) => if old.length < ns.length then some (name, ns, rest) else best) none

/-- Characters of a local name that may be written without brackets. -/
def isPlain (c : Char) : Bool := c.isAlphanum || c == '_' || c == '-'

/-- The prefixed name of an IRI, or the IRI in angle brackets where none can be written. -/
def compact (p : Prefixes) (iri : String) : String :=
  match p.longest? iri with
  | none => "<" ++ iri ++ ">"
  | some (name, _, rest) =>
    if rest.all isPlain then name ++ ":" ++ String.ofList rest else "<" ++ iri ++ ">"

/-- What follows the longest nonempty namespace in an IRI. -/
def localName? (p : Prefixes) (iri : String) : Option String :=
  match p.longest? iri with
  | none => none
  | some (_, ns, rest) => if ns.isEmpty then none else some (String.ofList rest)

def turtleHeader (p : Prefixes) : String :=
  String.join (p.entries.map fun (name, ns) => "@prefix " ++ name ++ ": <" ++ ns ++ "> .\n")

def queryHeader (p : Prefixes) : String :=
  String.join (p.entries.map fun (name, ns) => "PREFIX " ++ name ++ ": <" ++ ns ++ ">\n")

end Prefixes

end Semlift.Rdf
