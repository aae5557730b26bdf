import Semlift.Shell.Syntax
import Semlift.Text.Byte

/-!
Patterns of texts: a star stands for any text, a question mark for any character, brackets for one
of several. Quoted characters stand for themselves, and so does one behind a backslash.
-/

namespace Semlift.Shell

open Semlift.Text

/-- A character with whether it is quoted. -/
abbrev Marked := Char × Bool

/-- What brackets may hold. -/
inductive Member where
  | range (lo hi : Char)
  | charClass (name : String)
  deriving DecidableEq, Repr

inductive PatternPart where
  | any
  | one
  | exactly (c : Char)
  | among (negated : Bool) (members : List Member)
  deriving DecidableEq, Repr

/-- A printable character other than a space. -/
def isGraphic (c : Char) : Bool := '!' ≤ c && c ≤ '~'

/-- The classes of characters by their names. -/
def charClasses : List (String × (Char → Bool)) :=
  [("alnum", Char.isAlphanum), ("alpha", Char.isAlpha), ("blank", fun c => c == ' ' || c == '\t'),
    ("cntrl", fun c => c.toNat < 32 || c.toNat == 127), ("digit", Char.isDigit),
    ("graph", isGraphic), ("lower", Char.isLower), ("print", fun c => isGraphic c || c == ' '),
    ("punct", fun c => isGraphic c && !c.isAlphanum), ("space", isBlank), ("upper", Char.isUpper),
    ("xdigit", isHexDigit)]

def Member.has : Member → Char → Bool
  | .range lo hi, c => lo ≤ c && c ≤ hi
  | .charClass name, c => ((charClasses.find? (·.1 == name)).map (·.2 c)).getD false

/-- The class whose name stands between colons behind a bracket, with what follows its own closing
bracket. -/
def classAt? (cs : List Marked) : Option (String × List Marked) :=
  charClasses.findSome? fun (name, _) =>
    let spelled := (':' :: name.toList ++ [':', ']']).map (·, false)
    if cs.take spelled.length = spelled then some (name, cs.drop spelled.length) else none

/-- The range that begins with a character, with what follows it. -/
def rangeFrom (lo : Char) : List Marked → Member × List Marked
  | ('-', false) :: (']', false) :: cs => (.range lo lo, ('-', false) :: (']', false) :: cs)
  | ('-', false) :: ('\\', false) :: (hi, _) :: cs | ('-', false) :: (hi, _) :: cs =>
    (.range lo hi, cs)
  | cs => (.range lo lo, cs)

/-- What stands between brackets, with what follows them. A closing bracket right behind the opening
one stands for itself. -/
def bracketed? : (fuel : Nat) → (begun : Bool) → List Marked → Option (List Member × List Marked)
  | 0, _, _ | _, _, [] => none
  | n + 1, begun, (c, quoted) :: cs =>
    let more (m : Member) (rest : List Marked) : Option (List Member × List Marked) :=
      (bracketed? n true rest).map fun (ms, rest) => (m :: ms, rest)
    if c = ']' && !quoted && begun then some ([], cs)
    else
      match if c = '[' && !quoted then classAt? cs else none with
      | some (name, rest) => more (.charClass name) rest
      | none =>
        let (c, cs) := match cs with
          | (d, _) :: ds => if c = '\\' && !quoted then (d, ds) else (c, cs)
          | [] => (c, cs)
        let (m, rest) := rangeFrom c cs
        more m rest

/-- The parts of a pattern; as much fuel is enough as there are characters. -/
def partsOf : (fuel : Nat) → List Marked → List PatternPart
  | 0, _ | _, [] => []
  | n + 1, (c, quoted) :: cs =>
    if quoted then .exactly c :: partsOf n cs
    else if c = '*' then .any :: partsOf n cs
    else if c = '?' then .one :: partsOf n cs
    else if c = '\\' then
      match cs with
      | (d, _) :: ds => .exactly d :: partsOf n ds
      | [] => [.exactly c]
    else if c = '[' then
      let (negated, body) := match cs with
        | ('!', false) :: body => (true, body)
        | body => (false, body)
      match bracketed? (body.length + 1) false body with
      | some (members, rest) => .among negated members :: partsOf n rest
      | none => .exactly c :: partsOf n cs
    else .exactly c :: partsOf n cs

def patternOf (cs : List Marked) : List PatternPart := partsOf cs.length cs

def PatternPart.fitsChar : PatternPart → Char → Bool
  | .any, _ | .one, _ => true
  | .exactly c, d => c == d
  | .among negated members, d => (members.any (·.has d)) != negated

/-- Whether a whole text has a pattern. -/
def fits : List PatternPart → List Char → Bool
  | [], cs => cs.isEmpty
  | .any :: ps, cs => (List.range (cs.length + 1)).any fun n => fits ps (cs.drop n)
  | p :: ps, cs =>
    match cs with
    | [] => false
    | c :: cs => p.fitsChar c && fits ps cs

/-- A text without the part at its start or its end that has a pattern. A pattern never goes on
behind the mark, where the first part of the text ends. The longest end begins in that part, and the
longest start is looked for from the end of the whole text. -/
def Cut.apply (cut : Cut) (mark : Char) (p : List PatternPart) (cs : List Char) : List Char :=
  let upToMark (cs : List Char) : List Char := cs.takeWhile (· ≠ mark)
  let all := List.range (cs.length + 1)
  let ofFirst := List.range ((upToMark cs).length + 1)
  let hasEnd (n : Nat) : Bool := fits p (upToMark (cs.drop n))
  let hasStart (n : Nat) : Bool := fits p (upToMark (cs.take n))
  let taken : Option (List Char) := match cut with
    | .shortestEnd => (all.reverse.find? hasEnd).map cs.take
    | .longestEnd => (ofFirst.find? hasEnd).map cs.take
    | .shortestStart => (ofFirst.find? hasStart).map cs.drop
    | .longestStart => (all.reverse.find? hasStart).map cs.drop
  taken.getD cs

end Semlift.Shell
