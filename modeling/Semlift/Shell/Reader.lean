import Semlift.Shell.Scan

/-!
Reading scripts. A script is read line by line, so that what stands before a fault can still be run.
-/

namespace Semlift.Shell

open Semlift.Text

namespace Reading

/-- The end of a text that is read. -/
inductive Stop where
  | delimiter
  | quote
  | brace
  | parens
  /-- The text is read to its end, and quotes stand for themselves. -/
  | none
  deriving DecidableEq

/-- What is wrong with a text without its end. -/
def Stop.fault : Stop → SyntaxFault
  | .brace => .openBrace
  | .parens => .openParens
  | _ => .openQuote

/-- All parameters in quotes make no field when there are none. -/
def quotedPieces (inside : Word) : Word :=
  match inside with
  | [.variable "@" true] => inside
  | _ => .text "" true :: inside

mutual

/-- The pieces of a text up to its end. Between quotes, only dollar signs, backquotes and the
backslashes before them are read. -/
def pieces (stop : Stop) (quoted : Bool) : (fuel : Nat) → (depth : Nat) → Reading Word
  | 0, _ => Reading.stop .tooDeep
  | n + 1, depth => do
    match ← rest with
    | [] => if stop = .delimiter || stop = .none then return [] else Reading.stop stop.fault
    | '\\' :: c :: _ =>
      drop 2
      if c = '\n' then pieces stop quoted n depth
      else
        let escapes := c ∈ ['$', '\\'] || isBackquote c || (c = '"' && stop ≠ .none) ||
          (c = '\x7d' && stop = .brace)
        let kept := if quoted && !escapes then ['\\', c] else [c]
        return .text (String.ofList kept) true :: (← pieces stop quoted n depth)
    | '$' :: _ =>
      drop 1
      let p ← dollar quoted n
      return p :: (← pieces stop quoted n depth)
    | '\'' :: _ =>
      drop 1
      if quoted then return .text "'" true :: (← pieces stop quoted n depth)
      else
        let s ← singleQuoted
        return .text s true :: (← pieces stop quoted n depth)
    | '"' :: _ =>
      drop 1
      if stop = .quote then return []
      else if stop = .none || stop = .parens then
        return .text "\"" true :: (← pieces stop quoted n depth)
      else
        let inside ← pieces .quote true n 0
        return quotedPieces inside ++ (← pieces stop quoted n depth)
    | '(' :: _ =>
      if stop = .delimiter then return []
      else drop 1; return .text "(" quoted :: (← pieces stop quoted n (depth + 1))
    | ')' :: _ =>
      if stop = .delimiter then return []
      else if stop = .parens && depth = 0 then
        if ← accept "))" then return []
        drop 1
        return .text ")" quoted :: (← pieces stop quoted n depth)
      else drop 1; return .text ")" quoted :: (← pieces stop quoted n (depth - 1))
    | '\x7d' :: _ =>
      drop 1
      if stop = .brace then return []
      else return .text "\x7d" quoted :: (← pieces stop quoted n depth)
    | c :: cs =>
      if isBackquote c then
        drop 1
        match backquoted? quoted cs with
        | some (script, taken) =>
          drop taken
          let p ← embedded script quoted n
          return p :: (← pieces stop quoted n depth)
        | none => stopAtEnd .openBackquote
      else if stop = .delimiter && isDelimiter c then return []
      else drop 1; return .text c.toString quoted :: (← pieces stop quoted n depth)

/-- A script inside a word, read on its own. -/
def embedded (script : List Char) (quoted : Bool) : (fuel : Nat) → Reading Piece
  | 0 => stop .tooDeep
  | n + 1 => do
    let after ← get
    set (Cursor.ofText script 1 after.aliases)
    let c ← list true n
    if !(← rest).isEmpty then fail
    set after
    return .output c quoted

/-- What a dollar sign begins. -/
def dollar (quoted : Bool) : (fuel : Nat) → Reading Piece
  | 0 => stop .tooDeep
  | n + 1 => do
    if ← accept "((" then return .arithmetic (← pieces .parens true n 0) quoted
    else if ← accept "(" then
      let c ← list true n
      expect ")"
      return .output c quoted
    else if ← accept "\x7b" then braced quoted n
    else
      match ← parameter? false with
      | some name => return .variable name quoted
      | none => return .text "$" quoted

/-- A parameter in braces, after the opening one. -/
def braced (quoted : Bool) : (fuel : Nat) → Reading Piece
  | 0 => stop .tooDeep
  | n + 1 => do
    if asksLength (← rest) then
      drop 1
      match ← parameter? true with
      | some name => if ← accept "\x7d" then return .length name quoted else senseless n
      | none => senseless n
    else operated quoted n

/-- The rest of a parameter in braces that makes no sense. -/
def senseless : (fuel : Nat) → Reading Piece
  | 0 => stop .tooDeep
  | n + 1 => do
    let _ ← pieces .brace false n 0
    return .senseless

/-- A parameter in braces with what is done to its value. -/
def operated (quoted : Bool) : (fuel : Nat) → Reading Piece
  | 0 => stop .tooDeep
  | n + 1 => do
    match ← parameter? true with
    | none => senseless n
    | some name =>
      if ← accept "\x7d" then return .variable name quoted
      else if ← accept "%%" then
        return .cut name .longestEnd (← pieces .brace false n 0) quoted
      else if ← accept "%" then
        return .cut name .shortestEnd (← pieces .brace false n 0) quoted
      else if ← accept "##" then
        return .cut name .longestStart (← pieces .brace false n 0) quoted
      else if ← accept "#" then
        return .cut name .shortestStart (← pieces .brace false n 0) quoted
      else
        let orEmpty ← accept ":"
        if ← accept "-" then guarded name .fallback orEmpty quoted n
        else if ← accept "=" then guarded name .assign orEmpty quoted n
        else if ← accept "?" then guarded name .complain orEmpty quoted n
        else if ← accept "+" then guarded name .instead orEmpty quoted n
        else if (← rest).isEmpty then stop .openBrace
        else senseless n

def guarded (name : String) (purpose : Purpose) (orEmpty quoted : Bool) :
    (fuel : Nat) → Reading Piece
  | 0 => stop .tooDeep
  | n + 1 => return .guarded name purpose orEmpty (← pieces .brace quoted n 0) quoted

def word : (fuel : Nat) → Reading Word
  | 0 => stop .tooDeep
  | n + 1 => return joinLiterals (← pieces .delimiter false n 0)

/-- A text of the script as input, after its two signs. If the delimiter is quoted, nothing in it is
expanded. -/
def hereText (stream : Nat) : (fuel : Nat) → Reading Redirect
  | 0 => stop .tooDeep
  | n + 1 => do
    let strip ← accept "-"
    let delimiter ← target n
    let content ← takeLines (literal delimiter) strip
    if isQuoted delimiter then return .here stream [.text (String.ofList content) true]
    else
      let after ← get
      set (Cursor.ofText content (after.line + 1) after.aliases)
      let w ← pieces .none true n 0
      set after
      return .here stream (joinLiterals w)

/-- The word behind the sign of a redirection. -/
def target : (fuel : Nat) → Reading Word
  | 0 => stop .tooDeep
  | n + 1 => do
    blanks
    match ← rest with
    | [] => fail
    | c :: _ => if isDelimiter c then fail else word n

/-- The rest of a redirection after its sign. -/
def redirect (stream : Option Nat) (sign : Char) : (fuel : Nat) → Reading Redirect
  | 0 => stop .tooDeep
  | n + 1 => do
    if sign = '<' then
      let stream := stream.getD 0
      if ← accept "<" then hereText stream n
      else if ← accept "&" then return .sameAs stream (← target n)
      else if ← accept ">" then return .file stream .both (← target n)
      else return .file stream .input (← target n)
    else
      let stream := stream.getD 1
      if ← accept "&" then return .sameAs stream (← target n)
      else if ← accept ">" then return .file stream .append (← target n)
      else return .file stream (.output (← accept "|")) (← target n)

def redirects : (fuel : Nat) → Reading (List Redirect)
  | 0 => return []
  | n + 1 => do
    blanks
    match ← redirection? with
    | some (stream, sign) =>
      let r ← redirect stream sign n
      return r :: (← redirects n)
    | none => return []

/-- The assignments, words and redirections of a simple command. -/
def parts (start : Cursor) (assignments : List (String × Word)) (words : List Word)
    (rs : List Redirect) : (fuel : Nat) → Reading Command
  | 0 => stop .tooDeep
  | n + 1 => do
    blanks
    let mayBeAlias ← ledOn
    match ← redirection? with
    | some (stream, sign) =>
      let r ← redirect stream sign n
      parts start assignments words (rs ++ [r]) n
    | none =>
      match ← rest with
      | [] => return .simple start.line assignments words rs
      | c :: _ =>
        if c = '(' then
          match assignments, words, rs with
          | [], [name], [] => definition name n
          | _, _, _ => return .simple start.line assignments words rs
        else if isDelimiter c then return .simple start.line assignments words rs
        else if ← (if mayBeAlias || words.isEmpty then expandAlias else return false) then
          parts start assignments words rs n
        else
          match ← (if words.isEmpty then assigned? else return none) with
          | some name =>
            let w ← word n
            parts start (assignments ++ [(name, w)]) words rs n
          | none =>
            let w ← word n
            parts start assignments (words ++ [w]) rs n

/-- The rest of a definition, from its parentheses on. -/
def definition (name : Word) : (fuel : Nat) → Reading Command
  | 0 => stop .tooDeep
  | n + 1 => do
    drop 1
    blanks
    if !(← accept ")") then failExpecting (some (spelled ")"))
    match name with
    | [.text name false] =>
      if !isName name.toList || name ∈ specialNames then stop .badFunctionName
      lines
      return .define name (← command n)
    | _ => stop .badFunctionName

def simple : (fuel : Nat) → Reading Command
  | 0 => stop .tooDeep
  | n + 1 => do
    let c ← parts (← get) [] [] [] n
    match c with
    | .simple _ [] [] [] => fail
    | c => return c

/-- A command from a place on that may be followed by redirections of its own. -/
def compound (start : Cursor) (body : Command) : (fuel : Nat) → Reading Command
  | 0 => return body
  | n + 1 => do
    match ← redirects n with
    | [] => return body
    | rs => return .redirected start.line body rs

/-- The branches after a condition's keyword. -/
def branches : (fuel : Nat) → Reading Command
  | 0 => stop .tooDeep
  | n + 1 => do
    let condition ← list false n
    expectWord "then"
    let body ← list false n
    lines
    match ← keyword? with
    | some "elif" =>
      drop 4
      return .branch condition body (← branches n)
    | some "else" =>
      drop 4
      let other ← list false n
      expectWord "fi"
      return .branch condition body other
    | _ =>
      expectWord "fi"
      return .branch condition body .nothing

def loopBody : (fuel : Nat) → Reading Command
  | 0 => stop .tooDeep
  | n + 1 => do
    expectWord "do"
    let body ← list false n
    expectWord "done"
    return body

/-- Words up to the end of a list of them. -/
def wordList : (fuel : Nat) → Reading (List Word)
  | 0 => return []
  | n + 1 => do
    blanks
    match ← rest with
    | [] => return []
    | c :: _ =>
      if isDelimiter c then return []
      else
        let w ← word n
        return w :: (← wordList n)

def forLoop (start : Cursor) : (fuel : Nat) → Reading Command
  | 0 => stop .tooDeep
  | n + 1 => do
    blanks
    let name := (← rest).takeWhile fun c => !isDelimiter c
    if !isName name then
      if (← rest).head? = some '\n' then drop 1
      stop .badLoopVariable
    drop name.length
    lines
    let words ← if (← keyword?) = some "in" then
        drop 2
        let ws ← wordList n
        match ← rest with
        | '\n' :: _ => pure (some ws)
        | ';' :: ';' :: _ => fail
        | ';' :: _ => pure (some ws)
        | _ => fail
      else pure none
    blanks
    let _ ← accept ";"
    return .forEach start.line (String.ofList name) words (← loopBody n)

/-- The patterns of an arm, between bars. A sign in place of a pattern fits nothing. -/
def armPatterns : (fuel : Nat) → Reading (List Word)
  | 0 => stop .tooDeep
  | n + 1 => do
    blanks
    let first ← match ← sign? with
      | some s => drop s.length; pure []
      | none => pure [← word n]
    blanks
    match ← sign? with
    | some "|" =>
      drop 1
      return first ++ (← armPatterns n)
    | some ")" => return first
    | some _ => failExpecting (some (spelled ")"))
    | none =>
      stop (.unexpected (if (← rest).isEmpty then "end of file" else "word") (some (spelled ")")))

def arms : (fuel : Nat) → Reading (List (List Word × Command))
  | 0 => stop .tooDeep
  | n + 1 => do
    lines
    if (← keyword?) = some "esac" then
      drop 4
      return []
    else
      let _ ← accept "("
      let patterns ← armPatterns n
      drop 1
      let body ← list true n
      lines
      if (← keyword?) ≠ some "esac" then expect ";;"
      return (patterns, body) :: (← arms n)

def command : (fuel : Nat) → Reading Command
  | 0 => stop .tooDeep
  | n + 1 => do
    blanks
    let start ← get
    if ← accept "(" then
      let body ← list false n
      expect ")"
      compound start (.subshell body) n
    else if ← (if (← keyword?).isNone then expandAlias else return false) then command n
    else
      match ← keyword? with
      | some "\x7b" =>
        drop 1
        let body ← list false n
        expectWord "\x7d"
        compound start body n
      | some "if" =>
        drop 2
        let c ← branches n
        compound start c n
      | some "while" =>
        drop 5
        let condition ← list false n
        compound start (.loop true condition (← loopBody n)) n
      | some "until" =>
        drop 5
        let condition ← list false n
        compound start (.loop false condition (← loopBody n)) n
      | some "for" =>
        drop 3
        let c ← forLoop start n
        compound start c n
      | some "case" =>
        drop 4
        blanks
        if ((← rest).head?.map isDelimiter).getD true then failExpecting (some "word")
        let w ← word n
        expectWord "in"
        compound start (.choose start.line w (← arms n)) n
      | some _ => fail
      | none => simple n

/-- Commands whose outputs are the inputs of the next ones. -/
def piped : (fuel : Nat) → Reading Command
  | 0 => stop .tooDeep
  | n + 1 => do
    let first ← command n
    blanks
    match ← rest with
    | '|' :: '|' :: _ => return first
    | '|' :: _ =>
      drop 1
      lines
      return .pipe first (← piped n)
    | _ => return first

def pipeline : (fuel : Nat) → Reading Command
  | 0 => stop .tooDeep
  | n + 1 => do
    blanks
    if (← keyword?) = some "!" then
      drop 1
      return .not (← piped n)
    else piped n

/-- Commands joined by `&&` and `||`, which bind alike and to the left. -/
def joined (first : Command) : (fuel : Nat) → Reading Command
  | 0 => stop .tooDeep
  | n + 1 => do
    blanks
    if ← accept "&&" then
      lines
      let next ← pipeline n
      joined (.and first next) n
    else if ← accept "||" then
      lines
      let next ← pipeline n
      joined (.or first next) n
    else return first

/-- Joined commands with the sign behind them, and whether more may follow on the same line. -/
def item : (fuel : Nat) → Reading (Command × Bool)
  | 0 => stop .tooDeep
  | n + 1 => do
    let first ← pipeline n
    let c ← joined first n
    blanks
    match ← rest with
    | ';' :: ';' :: _ => return (c, false)
    | ';' :: _ => drop 1; return (c, true)
    | '&' :: _ => drop 1; return (.beside c, true)
    | _ => return (c, false)

/-- Commands after one another, up to what ends them. -/
def list (mayBeEmpty : Bool) : (fuel : Nat) → Reading Command
  | 0 => stop .tooDeep
  | n + 1 => do
    lines
    if (← rest).isEmpty || (mayBeEmpty && (← atEnd)) then return .nothing
    let (c, more) ← item n
    match ← rest with
    | '\n' :: _ => return .seq c (← list true n)
    | _ => if more then return .seq c (← list true n) else return c

end

/-- The commands of one line. -/
def oneLine : (fuel : Nat) → Reading Command
  | 0 => stop .tooDeep
  | n + 1 => do
    let (c, more) ← item n
    blanks
    match ← rest with
    | [] | '\n' :: _ => return c
    | _ => if more then return .seq c (← oneLine n) else fail

end Reading

/-- Reads the commands of the next line that has any, and what is left behind them. -/
def nextLine (c : Cursor) : Except (Nat × SyntaxFault) (Option Command × Cursor) :=
  let size := c.aliases.foldl (fun n (_, text) => n + text.length) c.rest.length
  let step : Reading (Option Command) := do
    Reading.lines
    if (← Reading.rest).isEmpty then return none
    else return some (← Reading.oneLine (20 * size + 20))
  step.run c

end Semlift.Shell
