import Semlift.Shell.Pattern
import Semlift.Shell.State

/-!
From expanded words to fields: words are split at separators, and a field with a pattern becomes the
paths that have it.
-/

namespace Semlift.Shell

open Semlift.Text Semlift.Files

/-- What a word is expanded for. -/
inductive Aim where
  /-- One text. -/
  | text
  /-- Fields; values are split. -/
  | fields
  /-- Fields, as a part of a word that stands beside a parameter; its own text is split too. -/
  | part
  deriving DecidableEq, Repr

/-- A piece of an expanded word. -/
inductive Atom where
  /-- A character that is quoted, or where fields may be split, or neither. -/
  | char (c : Char) (quoted splits : Bool)
  /-- An empty text that makes a field. -/
  | mark
  /-- The beginning of a value that is split, or of quoted parameters that are fields. -/
  | value (quoted : Bool)
  /-- The end of a parameter that is a field. -/
  | cut (quoted : Bool)
  deriving DecidableEq, Repr

abbrev Field := List Marked

/-! ### Fields -/

/-- How far a word is split into fields. -/
structure Splitting where
  separators : List Char
  /-- The field under way, reversed, if it has anything. -/
  started : Option Field
  /-- The present value is one of quoted parameters. -/
  quoted : Bool
  /-- The value before it was. Blanks are like any other separator then. -/
  afterQuoted : Bool
  /-- Only blanks of the present value stand behind the last field. They may surround another
  separator. -/
  gap : Bool

namespace Splitting

def start (separators : List Char) : Splitting := ⟨separators, none, false, false, false⟩

/-- The field under way, with the state behind it. -/
def close (p : Splitting) (gap : Bool) : List Field × Splitting :=
  ([(p.started.getD []).reverse], { p with started := none, gap := gap })

/-- What a separator does: blanks are left out before a field, and behind it up to the next
separator and with it. -/
def separate (p : Splitting) (blank : Bool) : List Field × Splitting :=
  let blank := blank && !p.afterQuoted
  if p.gap then ([], { p with gap := blank })
  else if blank && p.started.isNone then ([], p)
  else p.close blank

/-- The fields that an atom ends. -/
def step (p : Splitting) : Atom → List Field × Splitting
  | .value quoted =>
    ([], { p with quoted := quoted, afterQuoted := p.quoted, gap := false })
  | .mark => ([], { p with started := some (p.started.getD []), gap := false })
  | .cut true => p.close false
  | .cut false => p.separate true
  | .char c quoted splits =>
    if splits && c ∈ p.separators then p.separate (isBlank c)
    else ([], { p with started := some ((c, quoted) :: p.started.getD []), gap := false })

/-- The fields of atoms. The last of quoted parameters is a field even if it is empty. -/
def fields (p : Splitting) : List Atom → List Field
  | [] =>
    match p.started with
    | some f => [f.reverse]
    | none => if p.quoted then [[]] else []
  | a :: more =>
    let (ended, p) := p.step a
    ended ++ p.fields more

end Splitting

def Field.text (f : Field) : String := String.ofList (f.map (·.1))

/-- Atoms as one text, without splitting. -/
def unsplit (as : List Atom) : Field := as.filterMap fun
  | .char c quoted _ => some (c, quoted)
  | _ => none

/-! ### Values -/

/-- The character that stands between parameters that are fields. No value has it otherwise. -/
def fieldEnd : Char := '\x00'

/-- The value of a parameter in a word. Parameters that are fields have the end of a field between
them. -/
def valueIn? (s : Session) (aim : Aim) (name : String) (quoted : Bool) : Option String :=
  if aim ≠ .text && (name = "@" || (name = "*" && !quoted)) then
    some (join fieldEnd.toString s.params)
  else s.value? name

/-- The atoms of a value. -/
def valueAtoms (quoted : Bool) (value : String) : List Atom :=
  let atoms := value.toList.map fun c =>
    if c = fieldEnd then .cut quoted else .char c quoted !quoted
  if quoted then atoms else .value false :: atoms

/-- The atoms of the value of a parameter. -/
def parameterAtoms (s : Session) (name : String) (quoted : Bool) (value : String) : List Atom :=
  if quoted && name = "@" && !s.params.isEmpty then .value true :: valueAtoms true value
  else valueAtoms quoted value

/-- The atoms of a text of the script itself. -/
def textAtoms (aim : Aim) (quoted : Bool) (text : String) : List Atom :=
  if text.isEmpty then [.mark]
  else if aim = .part && !quoted then valueAtoms false text
  else text.toList.map fun c => .char c quoted false

/-- The output of a command as a value: line ends at its end are dropped, and zero bytes anywhere.
-/
def insertedText (text : String) : String :=
  String.ofList ((text.toList.filter (·.toNat ≠ 0)).reverse.dropWhile (· == '\n')).reverse

/-- A parameter without a value is an error if it is so wanted. -/
def checkSet (s : Session) (name : String) : Session :=
  if s.isOn 'u' && name ∉ ["@", "*"] && (s.value? name).isNone then
    s.fail (name ++ ": parameter not set")
  else s

/-- The atoms of a parameter. -/
def variableAtoms (s : Session) (aim : Aim) (name : String) (quoted : Bool) :
    List Atom × Session :=
  match valueIn? s aim name quoted with
  | some v => (parameterAtoms s name quoted v, s)
  | none => ([], checkSet s name)

/-- A parameter without what a pattern takes away from its value. -/
def cutAtoms (s : Session) (aim : Aim) (name : String) (quoted : Bool) (cut : Cut)
    (pattern : List PatternPart) : List Atom :=
  match valueIn? s aim name quoted with
  | some v => parameterAtoms s name quoted (String.ofList (cut.apply fieldEnd pattern v.toList))
  | none => []

/-- The value of a parameter unless it is missing; an empty value may count as missing. -/
def present? (s : Session) (aim : Aim) (name : String) (quoted emptyIsMissing : Bool) :
    Option String :=
  (valueIn? s aim name quoted).filter fun v => !(emptyIsMissing && v.isEmpty)

/-- What is said when a value is missing and no word says it. -/
def missingMessage (emptyIsMissing : Bool) : String :=
  "parameter not set" ++ if emptyIsMissing then " or null" else ""

/-! ### Homes -/

/-- The home of a user, or of the script's own user. -/
def home? (s : Session) (user : String) : Option String :=
  if user.isEmpty then s.lookup? "HOME" else if user = "root" then some "/root" else none

/-- The home that a tilde at the beginning of a text stands for, and the text behind it. The name of
a user ends at one of some characters, or where the word ends. -/
def homeAt? (s : Session) (ends : List Char) (isLast : Bool) :
    List Char → Option (String × List Char)
  | '~' :: cs =>
    let user := cs.takeWhile (· ∉ ends)
    let rest := cs.drop user.length
    if rest.isEmpty && !isLast then none else (home? s (String.ofList user)).map (·, rest)
  | _ => none

/-- A text with homes for the tildes at its beginning and, in an assignment, behind its colons. -/
def withHomes (s : Session) (assigned isLast : Bool) : (fuel : Nat) → (start : Bool) → List Char →
    List Piece
  | 0, _, cs => [.text (String.ofList cs) false]
  | n + 1, start, cs =>
    let ends := if assigned then ['/', ':'] else ['/']
    match if start then homeAt? s ends isLast cs else none with
    | some (home, rest) =>
      (if home.isEmpty then [] else [.text home true]) ++
        if rest.isEmpty then [] else withHomes s assigned isLast n false rest
    | none =>
      match if assigned then splitFirst? ':' cs else none with
      | some (before, after) =>
        .text (String.ofList (before ++ [':'])) false :: withHomes s assigned isLast n true after
      | none => if cs.isEmpty then [] else [.text (String.ofList cs) false]

/-- A word with homes in place of unquoted tildes. -/
def homesIn (s : Session) (assigned : Bool) (start : Bool) : Word → Word
  | .text t false :: more =>
    (if t.isEmpty then [.text t false]
      else withHomes s assigned more.isEmpty (t.length + 1) start t.toList) ++
      if assigned then homesIn s assigned false more else more
  | p :: more => p :: if assigned then homesIn s assigned false more else more
  | [] => []

/-! ### Paths -/

/-- Whether a text may be a pattern: it has a star, a question mark or a closed bracket that is not
quoted. -/
def mayBePattern : Field → Bool
  | [] => false
  | ('\\', false) :: _ :: cs => mayBePattern cs
  | (c, quoted) :: cs =>
    (!quoted && (c = '*' || c = '?' || (c = '[' && (cs.drop 1).any (·.1 == ']')))) ||
      mayBePattern cs

/-- A text without the backslashes that quote. -/
def unescaped : Field → List Char
  | [] => []
  | ('\\', false) :: (c, _) :: cs => c :: unescaped cs
  | (c, _) :: cs => c :: unescaped cs

/-- The names of a path with the slashes between them. -/
def namesOf : Field → List Field
  | [] => [[]]
  | (c, quoted) :: cs =>
    match namesOf cs with
    | [] => [[(c, quoted)]]
    | name :: more => if c = '/' then [] :: name :: more else ((c, quoted) :: name) :: more

/-- The names in a directory that have a pattern. A point at the beginning must be spelled. -/
def namesWith (t : Tree) (directory : String) (pattern : Field) : List String :=
  match t.place? directory with
  | none => []
  | some place =>
    if !t.isDirectoryAt place then []
    else
      let parts := patternOf pattern
      let hidden := (unescaped pattern).head? = some '.'
      let names := [".", ".."] ++ t.namesAt place
      names.filter fun n => (hidden || n.toList.head? ≠ some '.') && fits parts n.toList

/-- The paths that the names of a pattern lead to, behind a path that was found. -/
def pathsFrom (s : Session) : (found : String) → List Field → List String
  | found, [] => [found]
  | found, name :: more =>
    let next (n : String) : List String :=
      if more.isEmpty then [found ++ n] else pathsFrom s (found ++ n ++ "/") more
    if mayBePattern name then
      let directory := if found.isEmpty then "." else found
      (namesWith s.tree (s.path directory) name).flatMap next
    else if more.any mayBePattern then next (String.ofList (unescaped name))
    else
      let path := found ++ join "/" ((name :: more).map fun f => String.ofList (unescaped f))
      if s.tree.contains (s.path path) then [path] else []

/-- The texts of a field: the paths that have its pattern, in order, or itself if there is none. -/
def Field.paths (s : Session) (f : Field) : List String :=
  if s.isOn 'f' || !mayBePattern f then [f.text]
  else
    match pathsFrom s "" (namesOf f) with
    | [] => [f.text]
    | found => found.mergeSort fun a b => a ≤ b

end Semlift.Shell
