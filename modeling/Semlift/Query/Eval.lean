import Semlift.Query.Order
import Semlift.Query.Table
import Semlift.Rdf.Graph

/-!
Answering a query from a source of triples. The patterns are joined in the order in which they are
written; the filters choose among the bindings, the keys order them, and repeated rows, the offset
and the limit cut them.
-/

namespace Semlift.Query

open Semlift.Rdf

/-- The term of a position under a binding: a hole for a variable that is not bound yet. -/
def Node.resolve (b : Binding) : Node → Option Term
  | .term t => some t
  | .var name => b.find? name

def Pattern.resolve (p : Pattern) (b : Binding) : TriplePattern :=
  ⟨p.subject.resolve b, p.predicate.resolve b, p.object.resolve b⟩

/-- Binds a position to a term, unless its variable is bound to another. -/
def Node.bind? (t : Term) (b : Binding) : Node → Option Binding
  | .term _ => some b
  | .var name =>
    match b.find? name with
    | none => some (b ++ [(name, t)])
    | some old => if old = t then some b else none

def Pattern.bind? (p : Pattern) (b : Binding) (t : Triple) : Option Binding := do
  let b ← p.subject.bind? t.subject b
  let b ← p.predicate.bind? t.predicate b
  p.object.bind? t.object b

/-- The extensions of a binding by the triples of one pattern. -/
def Pattern.extend (source : Source) (p : Pattern) (b : Binding) : List Binding :=
  (source (p.resolve b)).filterMap (p.bind? b)

/-- The bindings under which every pattern is answered. -/
def join (source : Source) (ps : List Pattern) : List Binding :=
  ps.foldl (fun bs p => bs.flatMap (p.extend source)) [[]]

def Select.solutions (q : Select) (source : Source) : List Binding :=
  let kept := (join source q.patterns).filter fun b => q.filters.all (·.keeps b)
  if q.order.isEmpty then kept else Sorting.stable (before q.order) kept

def row (columns : List String) (b : Binding) : List (Option Term) := columns.map b.find?

/-- The text by which repeated rows are found: the cells, each closed by a unit separator. -/
def rowKey (cells : List (Option Term)) : String :=
  String.join (cells.map fun c => (c.map Term.ntriples).getD "" ++ "\x1f")

/-- Drops every row whose key an earlier row has. -/
def dropRepeated (rows : List (List (Option Term))) : List (List (Option Term)) :=
  (rows.foldl (fun (seen, kept) r =>
    let key := rowKey r
    if key ∈ seen then (seen, kept) else (key :: seen, kept ++ [r])) ([], [])).2

def Select.cut (q : Select) (rows : List (List (Option Term))) : List (List (Option Term)) :=
  let rows := if q.distinct then dropRepeated rows else rows
  let rows := rows.drop (q.offset.getD 0)
  match q.limit with
  | none => rows
  | some n => rows.take n

def Select.eval (q : Select) (source : Source) : Table :=
  ⟨q.columns, q.cut ((q.solutions source).map (row q.columns))⟩

end Semlift.Query
