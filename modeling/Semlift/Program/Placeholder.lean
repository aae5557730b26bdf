/-!
Placeholders in templates: a percent sign and the name of a field. A percent sign before anything
else is an ordinary character.
-/

namespace Semlift.Program

def isPlaceholderChar (c : Char) : Bool := c.isAlphanum || c == '_'

/-- A piece of a template. -/
inductive Piece where
  | char (c : Char)
  | placeholder (name : String)
  deriving DecidableEq, Repr

/-- The pieces of a template, after passing over a number of characters. -/
def piecesFrom : (pass : Nat) → List Char → List Piece
  | _, [] => []
  | n + 1, _ :: cs => piecesFrom n cs
  | 0, c :: cs =>
    let name := cs.takeWhile isPlaceholderChar
    if c = '%' && !name.isEmpty then
      .placeholder (String.ofList name) :: piecesFrom name.length cs
    else .char c :: piecesFrom 0 cs

def pieces (template : String) : List Piece := piecesFrom 0 template.toList

def Piece.name? : Piece → Option String
  | .char _ => none
  | .placeholder name => some name

/-- The names of the placeholders, in order. -/
def placeholders (template : String) : List String := (pieces template).filterMap Piece.name?

def Piece.fill (f : String → String) : Piece → List Char
  | .char c => [c]
  | .placeholder name => (f name).toList

/-- A template with a text in place of each placeholder. -/
def fillPlaceholders (f : String → String) (template : String) : String :=
  String.ofList ((pieces template).flatMap (Piece.fill f))

end Semlift.Program
