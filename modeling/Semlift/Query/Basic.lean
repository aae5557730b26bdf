import Semlift.Rdf.Term

/-!
Queries: triple patterns with variables, filters over their bindings, and how the answers are
chosen, ordered and cut.
-/

namespace Semlift.Query

open Semlift.Rdf

/-- A position of a pattern. -/
inductive Node where
  | term (t : Term)
  | var (name : String)
  deriving DecidableEq, Repr

structure Pattern where
  subject : Node
  predicate : Node
  object : Node
  deriving DecidableEq, Repr

/-- The name of a variable that stands for a blank node of the query begins with this. -/
def blankMark : String := "_blank_"

def blankVar (label : String) : Node := .var (blankMark ++ label)

inductive Connective where
  | and
  | or
  deriving DecidableEq, Repr

inductive Relation where
  | eq | ne | lt | le | gt | ge
  deriving DecidableEq, Repr

inductive Operation where
  | add | sub | mul | div
  deriving DecidableEq, Repr

inductive Function where
  | bound | isIri | isUri | isLiteral | isBlank | str | lang | datatype | contains | strStarts
  deriving DecidableEq, Repr

def Function.all : List Function :=
  [.bound, .isIri, .isUri, .isLiteral, .isBlank, .str, .lang, .datatype, .contains, .strStarts]

def Function.text : Function → String
  | .bound => "BOUND"
  | .isIri => "ISIRI"
  | .isUri => "ISURI"
  | .isLiteral => "ISLITERAL"
  | .isBlank => "ISBLANK"
  | .str => "STR"
  | .lang => "LANG"
  | .datatype => "DATATYPE"
  | .contains => "CONTAINS"
  | .strStarts => "STRSTARTS"

inductive Filter where
  | var (name : String)
  | const (t : Term)
  | not (e : Filter)
  | neg (e : Filter)
  | connect (c : Connective) (l r : Filter)
  | relate (r : Relation) (a b : Filter)
  | operate (o : Operation) (l r : Filter)
  | call (f : Function) (args : List Filter)

structure OrderKey where
  name : String
  descending : Bool
  deriving DecidableEq, Repr

/-- Which variables an answer shows: all of the patterns, or these. -/
inductive Projection where
  | all
  | these (names : List String)
  deriving DecidableEq, Repr

structure Select where
  distinct : Bool
  projection : Projection
  patterns : List Pattern
  filters : List Filter
  order : List OrderKey
  limit : Option Nat
  offset : Option Nat

/-- The name of a position that shows in answers. -/
def Node.shown? : Node → Option String
  | .term _ => none
  | .var name => if Text.startsWith blankMark name then none else some name

def Pattern.nodes (p : Pattern) : List Node := [p.subject, p.predicate, p.object]

/-- The variables of the patterns in order of their first occurrence, without those that stand for
blank nodes. -/
def Select.shownNames (q : Select) : List String :=
  (q.patterns.flatMap fun p => p.nodes.filterMap Node.shown?).foldl
    (fun seen name => if name ∈ seen then seen else seen ++ [name]) []

/-- The columns of the answers. -/
def Select.columns (q : Select) : List String :=
  match q.projection with
  | .all => q.shownNames
  | .these names => names

end Semlift.Query
