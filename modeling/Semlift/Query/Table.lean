import Semlift.Rdf.Writer
import Semlift.Text.Column

/-!
Answers: rows of cells under named columns, and their text as a table with a frame. The columns of
the frame are as wide as the longest text in bytes.
-/

namespace Semlift.Query

open Semlift.Rdf

/-- Every row has one cell for each column; a cell is empty when its variable is unbound. -/
structure Table where
  columns : List String
  rows : List (List (Option Term))
  deriving DecidableEq, Repr

namespace Table

/-- A row cut or filled up to a number of cells. -/
def fitRow (n : Nat) (row : List (Option Term)) : List (Option Term) :=
  row.take n ++ List.replicate (n - row.length) none

def add (t : Table) (row : List (Option Term)) : Table :=
  { t with rows := t.rows ++ [fitRow t.columns.length row] }

def get? (t : Table) (row : Nat) (name : String) : Option Term := do
  let cells ← t.rows[row]?
  let i ← t.columns.findIdx? (· == name)
  (cells[i]?).join

def cellText (prefixes : Prefixes) : Option Term → String
  | none => ""
  | some t => t.turtle prefixes

def widen (widths : List Nat) (cells : List String) : List Nat :=
  widths.zipWith (fun w s => max w s.length) cells

/-- The cells of a row between bars. -/
def line (widths : List Nat) (cells : List String) : String :=
  "|" ++ String.join ((cells.zip widths).map fun (s, w) => " " ++ Text.padRight w s ++ " |") ++ "\n"

def rule (c : Char) (n : Nat) : String := String.ofList (List.replicate n c) ++ "\n"

def text (t : Table) (prefixes : Prefixes) : String :=
  let cells := t.rows.map (·.map (cellText prefixes))
  let widths := cells.foldl widen (t.columns.map String.length)
  let total := widths.foldl (· + 3 + ·) 1
  rule '-' total ++ line widths t.columns ++ rule '=' total ++
    String.join (cells.map (line widths)) ++ rule '-' total

end Table

end Semlift.Query
