import Semlift.Number.Layout

/-!
The values of the language: null, truth values, 64-bit integers, doubles, strings and objects.
-/

namespace Semlift

/-- An object by its serial number, with the class it was made from. -/
structure ObjectRef where
  serial : Nat
  className : String
  deriving DecidableEq, Repr

/-- The printed identity, and the local name of the object in the lifted graph. -/
def ObjectRef.name (r : ObjectRef) : String := "obj" ++ Number.natText r.serial

inductive Value where
  | null
  | bool (b : Bool)
  | int (n : Int64)
  | double (x : Number.Double)
  | str (s : String)
  | object (r : ObjectRef)
  deriving DecidableEq

instance : Inhabited Value := ⟨.null⟩

namespace Value

def isNull : Value → Bool
  | .null => true
  | _ => false

def isObject : Value → Bool
  | .object _ => true
  | _ => false

def isNumeric : Value → Bool
  | .int _ | .double _ => true
  | _ => false

def object? : Value → Option ObjectRef
  | .object r => some r
  | _ => none

def typeName : Value → String
  | .null => "Null"
  | .bool _ => "Boolean"
  | .int _ => "Int"
  | .double _ => "Double"
  | .str _ => "String"
  | .object r => r.className

def boolText (b : Bool) : String := if b then "true" else "false"

/-- A value as the language spells it; strings are quoted without escapes. -/
def text : Value → String
  | .null => "null"
  | .bool b => boolText b
  | .int n => Number.intText n.toInt
  | .double x => Number.doubleText x
  | .str s => "\"" ++ s ++ "\""
  | .object r => r.name

end Value

end Semlift
