import Semlift.Text.Byte

/-!
Configuration documents as trees of scalars, sequences and mappings. Every node knows the line that
it stands on, counted from zero; `-1` is an unknown line.
-/

namespace Semlift.Config

open Semlift.Text

inductive Node where
  | null (line : Int)
  | scalar (line : Int) (text : String)
  | sequence (line : Int) (items : List Node)
  | mapping (line : Int) (entries : List (Node × Node))

namespace Node

def line : Node → Int
  | .null n | .scalar n _ | .sequence n _ | .mapping n _ => n

/-- The text of a node as a key; lists and mappings have none. -/
def keyText? : Node → Option String
  | .null _ => some "null"
  | .scalar _ text => some text
  | _ => none

def isScalar (text : String) : Node → Bool
  | .scalar _ t => t == text
  | _ => false

/-- The value of the first entry whose key is a scalar of a text. -/
def lookup? (key : String) (entries : List (Node × Node)) : Option Node :=
  (entries.find? fun e => e.1.isScalar key).map (·.2)

end Node

/-- A document: a tree, nothing at all, or a text that is no document. -/
inductive Document where
  | empty
  | tree (root : Node)
  | malformed (line : Int) (message : String)

/-- A word in lower case, in upper case, and in lower case with a capital. -/
def spellings (word : String) : List String :=
  let cs := word.toList
  [word, String.ofList (cs.map Char.toUpper),
    String.ofList ((cs.take 1).map Char.toUpper ++ cs.drop 1)]

def truth? (text : String) : Option Bool :=
  if text ∈ ["y", "yes", "true", "on"].flatMap spellings then some true
  else if text ∈ ["n", "no", "false", "off"].flatMap spellings then some false
  else none

def isOctal (c : Char) : Bool := '0' ≤ c && c ≤ '7'

def valueIn (base : Nat) (ds : List Char) : Nat := ds.foldl (fun n d => base * n + hexValue d) 0

/-- The longest number at the beginning of a text, in the digits of a base. -/
def takeNumber (base : Nat) (isDigit : Char → Bool) (cs : List Char) : Option (Nat × List Char) :=
  let ds := cs.takeWhile isDigit
  if ds.isEmpty then none else some (valueIn base ds, cs.dropWhile isDigit)

/-- A number without a sign: hexadecimal after `0x`, octal after `0`, else decimal. -/
def unsigned? : List Char → Option (Nat × List Char)
  | '0' :: 'x' :: cs | '0' :: 'X' :: cs => takeNumber 16 isHexDigit cs
  | '0' :: cs => takeNumber 8 isOctal ('0' :: cs)
  | cs => takeNumber 10 Char.isDigit cs

/-- The number of 64 bits that a text spells. A plus sign may stand before it and blanks behind. -/
def word? (text : String) : Option Nat :=
  let cs := match text.toList with
    | '+' :: cs => cs
    | cs => cs
  match unsigned? cs with
  | some (n, rest) => if n < UInt64.size && rest.all isBlank then some n else none
  | none => none

end Semlift.Config
