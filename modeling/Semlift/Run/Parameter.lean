import Semlift.Lift.Names
import Semlift.Rdf.Writer
import Semlift.Run.Fault
import Semlift.Text.Byte

/-!
Parameters of queries: `%1`, `%2`, … in the text of a query stand for the terms of values. The
highest number is replaced first, so that `%1` does not take the beginning of `%10`.
-/

namespace Semlift.Run

open Semlift.Rdf

def placeholder (number : Nat) : String := "%" ++ Number.natText number

/-- Puts texts in place of the placeholders, the first text for the number one. -/
def substitute (texts : List String) (query : String) : String :=
  texts.zipIdx.foldr (fun (t, i) q => Text.replace (placeholder (i + 1)) t q) query

/-- The text of a parameter. Null has no term. -/
def parameterText (ns : Lift.Namespaces) (prefixes : Prefixes) (v : Value) (index : Nat) :
    Except Fault String :=
  match ns.lift? v with
  | some t => .ok (t.turtle prefixes)
  | none => .error (.nullParameter (index + 1))

def parameterTexts (ns : Lift.Namespaces) (prefixes : Prefixes) (vs : List Value) :
    Except Fault (List String) :=
  vs.zipIdx.mapM fun (v, i) => parameterText ns prefixes v i

end Semlift.Run
