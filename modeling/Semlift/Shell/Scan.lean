import Semlift.Shell.Syntax
import Semlift.Text.Byte

/-!
Scanning scripts: the place in a script, what can be wrong there, and the small parts that are read
without looking into words and commands.
-/

namespace Semlift.Shell

open Semlift.Text

/-- What makes a text no script. -/
inductive SyntaxFault where
  | openQuote
  | openBrace
  | openParens
  | openBackquote
  | badLoopVariable
  | badFunctionName
  | unexpected (found : String) (expected : Option String)
  | tooDeep
  deriving DecidableEq, Repr

def SyntaxFault.message (f : SyntaxFault) : String :=
  "Syntax error: " ++ match f with
    | .openQuote => "Unterminated quoted string"
    | .openBrace => "Missing '\x7d'"
    | .openParens => "Missing '))'"
    | .openBackquote => "EOF in backquote substitution"
    | .badLoopVariable => "Bad for loop variable"
    | .badFunctionName => "Bad function name"
    | .unexpected found none => found ++ " unexpected"
    | .unexpected found (some e) => found ++ " unexpected (expecting " ++ e ++ ")"
    | .tooDeep => "nesting too deep"

/-- A text that stands in place of an alias. -/
structure Inset where
  name : String
  /-- How much text is left where it ends. -/
  behind : Nat
  /-- The word behind it may be an alias too. -/
  leadsOn : Bool

/-- The text that is left and the number of its line, with the aliases that it may use and those
that it is inside of. -/
structure Cursor where
  rest : List Char
  line : Nat
  aliases : List (String × String)
  insets : List Inset
  /-- The number of lines that were taken out of the text behind the present one. -/
  taken : Nat

def Cursor.ofText (text : List Char) (line : Nat) (aliases : List (String × String)) : Cursor :=
  ⟨text, line, aliases, [], 0⟩

/-- A fault comes with the number of its line. -/
abbrev Reading := StateT Cursor (Except (Nat × SyntaxFault))

namespace Reading

def rest : Reading (List Char) := return (← get).rest

def stop {α : Type} (f : SyntaxFault) : Reading α := do throw ((← get).line, f)

/-- Passes over characters and counts their lines. -/
def drop (n : Nat) : Reading Unit := modify fun c =>
  let passed := count '\n' (c.rest.take n)
  { c with
    rest := c.rest.drop n
    line := if passed = 0 then c.line else c.line + passed + c.taken
    taken := if passed = 0 then c.taken else 0 }

/-- Passes over all that is left and finds a fault there. -/
def stopAtEnd {α : Type} (f : SyntaxFault) : Reading α := do
  drop (← rest).length
  stop f

/-- Whether a text comes next; it is passed over if so. -/
def accept (s : String) : Reading Bool := do
  if (afterPrefix? s.toList (← rest)).isSome then
    drop s.length
    return true
  else return false

def isSpace (c : Char) : Bool := c == ' ' || c == '\t'

def isDelimiter (c : Char) : Bool :=
  isSpace c || c ∈ ['\n', ';', '&', '|', '<', '>', '(', ')']

def isNameStart (c : Char) : Bool := c.isAlpha || c == '_'
def isNameChar (c : Char) : Bool := c.isAlphanum || c == '_'

def isName (cs : List Char) : Bool :=
  (cs.head?.map isNameStart).getD false && cs.all isNameChar

/-- Passes over spaces, joined lines and a comment. -/
def spaces : (fuel : Nat) → Reading Unit
  | 0 => return
  | n + 1 => do
    match ← rest with
    | '\\' :: '\n' :: _ => drop 2; spaces n
    | '#' :: cs => drop (1 + (cs.takeWhile (· != '\n')).length)
    | c :: _ => if isSpace c then drop 1; spaces n
    | [] => return

/-- Passes over spaces and ends of lines. -/
def gaps : (fuel : Nat) → Reading Unit
  | 0 => return
  | n + 1 => do
    spaces (n + 1)
    match ← rest with
    | '\n' :: _ => drop 1; gaps n
    | _ => return

def blanks : Reading Unit := do spaces ((← rest).length + 1)
def lines : Reading Unit := do gaps ((← rest).length + 1)

def keywords : List String :=
  ["if", "then", "else", "elif", "fi", "while", "until", "do", "done", "for", "in", "case", "esac",
    "\x7b", "\x7d", "!"]

/-- Keywords that end a list of commands. -/
def closers : List String := ["then", "else", "elif", "fi", "do", "done", "esac", "\x7d"]

/-- The keyword that comes next. -/
def keyword? : Reading (Option String) := do
  let word := String.ofList ((← rest).takeWhile fun c => !isDelimiter c)
  return if word ∈ keywords then some word else none

/-- Signs of more than one character. -/
def longSigns : List String := [";;", "&&", "||"]

/-- The sign that comes next. -/
def sign? : Reading (Option String) := do
  let cs ← rest
  match longSigns.find? fun s => (afterPrefix? s.toList cs).isSome, cs with
  | some s, _ => return some s
  | none, c :: _ => return if isDelimiter c then some c.toString else none
  | none, [] => return none

/-- How a message names what comes next. -/
def nextName (cs : List Char) : String :=
  match cs with
  | [] => "end of file"
  | '\n' :: _ => "newline"
  | c :: _ =>
    let word := String.ofList (cs.takeWhile fun c => !isDelimiter c)
    if c ∈ ['<', '>'] then "redirection"
    else if word ∈ keywords then "\"" ++ word ++ "\""
    else if !word.isEmpty then "word"
    else
      match longSigns.find? fun s => (afterPrefix? s.toList cs).isSome with
      | some s => "\"" ++ s ++ "\""
      | none => "\"" ++ c.toString ++ "\""

/-- What comes next was not expected; the end of a line is found on the next one. -/
def failExpecting {α : Type} (expected : Option String) : Reading α := do
  let found := nextName (← rest)
  if (← rest).head? = some '\n' then drop 1
  stop (.unexpected found expected)

def fail {α : Type} : Reading α := failExpecting none

/-- How a message names a sign or a keyword. -/
def spelled (s : String) : String := "\"" ++ s ++ "\""

/-- The keyword that must come next. -/
def expectWord (word : String) : Reading Unit := do
  lines
  if (← keyword?) = some word then drop word.length else failExpecting (some (spelled word))

/-- Whether what comes next ends a list of commands. -/
def atEnd : Reading Bool := do
  match ← rest, ← keyword? with
  | [], _ | ')' :: _, _ | ';' :: ';' :: _, _ => return true
  | _, k => return (k.map (closers.contains ·)).getD false

/-- The sign that must come next. -/
def expect (s : String) : Reading Unit := do
  lines
  if !(← accept s) then failExpecting (some (spelled s))

/-- Whether a number sign behind an opening brace asks for the length of a parameter, and is not a
parameter itself. -/
def asksLength : List Char → Bool
  | '#' :: c :: d :: _ => isNameChar c || (c != '\x7d' && d == '\x7d')
  | _ => false

def specials : List Char := ['@', '*', '#', '?', '$', '!', '-']

/-- The name of a parameter, or `none` if none comes next. -/
def parameter? (braces : Bool) : Reading (Option String) := do
  match ← rest with
  | c :: cs =>
    if isNameStart c then
      let name := (c :: cs).takeWhile isNameChar
      drop name.length
      return some (String.ofList name)
    else if c.isDigit then
      let name := if braces then (c :: cs).takeWhile Char.isDigit else [c]
      drop name.length
      return some (String.ofList name)
    else if c ∈ specials then
      drop 1
      return some c.toString
    else return none
  | [] => return none

/-- A text up to a single quote, which is passed over. -/
def singleQuoted : Reading String := do
  let cs ← rest
  let inside := cs.takeWhile (· != '\'')
  if inside.length = cs.length then stopAtEnd .openQuote
  drop (inside.length + 1)
  return String.ofList inside

def isBackquote (c : Char) : Bool := c.toNat = 0x60

/-- A script up to a backquote, and how many characters it takes. A backslash before a backslash, a
dollar sign, a backquote or, between quotes, a quote is dropped. -/
def backquoted? (quoted : Bool) : List Char → Option (List Char × Nat)
  | [] => none
  | '\\' :: c :: cs => do
    let (script, n) ← backquoted? quoted cs
    let dropped := c = '\\' || c = '$' || isBackquote c || (quoted && c = '"')
    return ((if dropped then [c] else ['\\', c]) ++ script, n + 2)
  | c :: cs =>
    if isBackquote c then some ([], 1)
    else (backquoted? quoted cs).map fun (script, n) => (c :: script, n + 1)

/-- The name in front of an assignment's equals sign. -/
def assigned? : Reading (Option String) := do
  let cs ← rest
  let name := cs.takeWhile isNameChar
  if isName name && cs[name.length]? == some '=' then
    drop (name.length + 1)
    return some (String.ofList name)
  else return none

/-- The stream number, of one digit, and the sign of a redirection. -/
def redirection? : Reading (Option (Option Nat × Char)) := do
  let cs ← rest
  let ds := (cs.take 1).takeWhile Char.isDigit
  match cs.drop ds.length with
  | c :: _ =>
    if c == '<' || c == '>' then
      drop (ds.length + 1)
      return some (if ds.isEmpty then none else some (digitsValue ds), c)
    else return none
  | [] => return none

def joinLiterals : List Piece → List Piece
  | .text s q :: .text t r :: more =>
    if q = r then joinLiterals (.text (s ++ t) q :: more)
    else .text s q :: joinLiterals (.text t r :: more)
  | p :: more => p :: joinLiterals more
  | [] => []
termination_by ps => ps.length

/-- The literal text of a word. -/
def literal (w : Word) : List Char := w.flatMap fun
  | .text s _ => s.toList
  | _ => []

def isQuoted (w : Word) : Bool := w.any fun
  | .text _ quoted => quoted
  | _ => false

/-- The lines up to one that is a delimiter, and the lines after it. -/
def untilLine (delimiter : List Char) (strip : Bool) : List (List Char) →
    List (List Char) × List (List Char)
  | [] => ([], [])
  | line :: more =>
    let line := if strip then line.dropWhile (· == '\t') else line
    if line = delimiter then ([], more)
    else
      let (inside, after) := untilLine delimiter strip more
      (line :: inside, after)

def joinLines (ls : List (List Char)) : List Char := (ls.intersperse ['\n']).flatten

/-- The length of the line that a text begins with. A line may go on behind a quoted end. -/
def lineLength : (fuel : Nat) → List Char → Nat
  | 0, _ | _, [] => 0
  | n + 1, c :: cs =>
    let jump (m : Nat) : Nat := m + lineLength n ((c :: cs).drop m)
    if c = '\n' then 0
    else if c = '\\' then jump 2
    else if c = '\'' || c = '"' then
      let inside := quotedLength c cs
      if inside = cs.length then jump 1 else jump (inside + 2)
    else if isSpace c && cs.head? = some '#' then 1 + (cs.takeWhile (· != '\n')).length
    else jump 1
where
  quotedLength (quote : Char) : List Char → Nat
    | [] => 0
    | '\\' :: d :: cs =>
      if quote = '"' then 2 + quotedLength quote cs else 1 + quotedLength quote (d :: cs)
    | c :: cs => if c = quote then 0 else 1 + quotedLength quote cs

/-- Takes the lines after the present one, up to a delimiter, out of the text. -/
def takeLines (delimiter : List Char) (strip : Bool) : Reading (List Char) := do
  let c ← get
  let present := c.rest.take (lineLength c.rest.length c.rest)
  match c.rest.drop present.length with
  | [] => return []
  | _ :: below =>
    let ls := splitOn '\n' below
    let (inside, after) := untilLine delimiter strip ls
    set { c with
      rest := present ++ '\n' :: joinLines after
      taken := c.taken + (ls.length - after.length) }
    return if after.isEmpty && inside.length = ls.length then joinLines inside
      else inside.flatMap (· ++ ['\n'])

/-- Characters that make a word more than its plain text. -/
def isMarked (c : Char) : Bool := c ∈ ['\\', '\'', '"', '$'] || isBackquote c

/-- Puts the text of an alias in place of the word that comes next, if it is one. The text of an
alias does not use the alias again. -/
def expandAlias : Reading Bool := do
  let c ← get
  let word := c.rest.takeWhile fun c => !isDelimiter c
  let name := String.ofList word
  let inUse := c.insets.any fun i => i.name == name && i.behind < c.rest.length
  if word.isEmpty || word.any isMarked || inUse then return false
  else
    match c.aliases.find? (·.1 == name) with
    | none => return false
    | some (_, text) =>
      let after := c.rest.drop word.length
      let leadsOn := (text.toList.getLast?.map isSpace).getD false
      set { c with
        rest := text.toList ++ after
        insets := ⟨name, after.length, leadsOn⟩ :: c.insets }
      return true

/-- Whether an alias has just ended that lets the next word be one too. -/
def ledOn : Reading Bool := do
  let c ← get
  let (ended, active) := c.insets.partition fun i => c.rest.length ≤ i.behind
  set { c with insets := active }
  return ended.any (·.leadsOn)

end Reading

end Semlift.Shell
