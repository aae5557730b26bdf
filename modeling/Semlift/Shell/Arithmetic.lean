import Semlift.Text.Byte

/-!
Arithmetic expressions of scripts: integers of 64 bits, variables, the usual operators with their
strengths, and assignments. Every number but zero is true.
-/

namespace Semlift.Shell

open Semlift.Text

inductive ArithOp where
  | or | xor | and | eq | ne | lt | gt | le | ge | shiftLeft | shiftRight
  | add | sub | mul | div | mod
  deriving DecidableEq, Repr

inductive ArithFault where
  | noPrimary
  | noEnd
  | noParenthesis
  | noColon
  | divisionByZero
  | notNumber (value : String)
  deriving DecidableEq, Repr

inductive Arith where
  | number (n : Int64)
  | variable (name : String)
  | negative (e : Arith)
  | complement (e : Arith)
  | not (e : Arith)
  | binary (op : ArithOp) (l r : Arith)
  | both (l r : Arith)
  | either (l r : Arith)
  | choose (condition yes no : Arith)
  /-- The new value may be made from the old one by an operator. -/
  | assign (name : String) (op : Option ArithOp) (e : Arith)
  /-- There is no expression, or none that goes on to an end. -/
  | broken (f : ArithFault)
  | endedBy (e : Arith) (f : ArithFault)

def ArithFault.message (text : String) : ArithFault → String
  | .noPrimary => about "expecting primary"
  | .noEnd => about "expecting EOF"
  | .noParenthesis => about "expecting ')'"
  | .noColon => about "expecting ':'"
  | .divisionByZero => about "division by zero"
  | .notNumber value => "Illegal number: " ++ value
where
  about (what : String) : String := "arithmetic expression: " ++ what ++ ": \"" ++ text ++ "\""

/-- The number in the digits of a base; one that is too large becomes the greatest. -/
def digitsIn (base : Nat) (ds : List Char) : Int64 :=
  let n := ds.foldl (fun n d => base * n + hexValue d) 0
  if n ≤ Int64.maxValue.toInt then Int64.ofNat n else Int64.maxValue

/-- A number at the beginning of a text: hexadecimal after `0x`, binary after `0b`, octal after `0`,
else decimal. -/
def takeInteger : List Char → Int64 × List Char
  | '0' :: x :: d :: cs =>
    if (x == 'x' || x == 'X') && isHexDigit d then
      (digitsIn 16 ((d :: cs).takeWhile isHexDigit), (d :: cs).dropWhile isHexDigit)
    else if (x == 'b' || x == 'B') && isBinary d then
      (digitsIn 2 ((d :: cs).takeWhile isBinary), (d :: cs).dropWhile isBinary)
    else octal ('0' :: x :: d :: cs)
  | '0' :: cs => octal ('0' :: cs)
  | cs => (digitsIn 10 (cs.takeWhile Char.isDigit), cs.dropWhile Char.isDigit)
where
  isBinary (c : Char) : Bool := c == '0' || c == '1'
  octal (cs : List Char) : Int64 × List Char :=
    let isOctal (c : Char) : Bool := '0' ≤ c && c ≤ '7'
    (digitsIn 8 (cs.takeWhile isOctal), cs.dropWhile isOctal)

/-- The number that a whole text spells. -/
def wholeInteger? (text : List Char) : Option Int64 :=
  let (negative, ds) := match trim text with
    | '-' :: ds => (true, ds)
    | '+' :: ds => (false, ds)
    | ds => (false, ds)
  if !(ds.head?.map Char.isDigit).getD false then none
  else
    match takeInteger ds with
    | (n, []) => some (if negative then -n else n)
    | _ => none

namespace Arith

/-- The signs of operators, longer ones before their beginnings. -/
def signs : List String :=
  ["<<=", ">>=", "||", "&&", "==", "!=", "<=", ">=", "<<", ">>", "+=", "-=", "*=", "/=", "%=", "&=",
    "^=", "|=", "=", "<", ">", "+", "-", "*", "/", "%", "|", "^", "&", "!", "~", "?", ":", "(", ")"]

/-- The sign at the beginning of a text and what follows it. -/
def sign? (cs : List Char) : Option (String × List Char) :=
  let cs := cs.dropWhile isBlank
  signs.findSome? fun s => (afterPrefix? s.toList cs).map (s, ·)

/-- The operators of each strength, the weaker ones first. -/
def strengths : List (List (String × ArithOp)) :=
  [[("|", .or)], [("^", .xor)], [("&", .and)], [("==", .eq), ("!=", .ne)],
    [("<", .lt), (">", .gt), ("<=", .le), (">=", .ge)], [("<<", .shiftLeft), (">>", .shiftRight)],
    [("+", .add), ("-", .sub)], [("*", .mul), ("/", .div), ("%", .mod)]]

/-- The signs of assignments. -/
def assignments : List (String × Option ArithOp) :=
  [("=", none), ("+=", some .add), ("-=", some .sub), ("*=", some .mul), ("/=", some .div),
    ("%=", some .mod), ("<<=", some .shiftLeft), (">>=", some .shiftRight), ("&=", some .and),
    ("^=", some .xor), ("|=", some .or)]

def isNameStart (c : Char) : Bool := c.isAlpha || c == '_'
def isNameChar (c : Char) : Bool := c.isAlphanum || c == '_'

/-- A step of reading uses up text in front. After a fault nothing is left to read. -/
abbrev Step := StateM (List Char)

namespace Step

/-- Stops reading at a fault. -/
def stop (f : ArithFault) : Step Arith := do
  set ([] : List Char)
  return .broken f

/-- Stops reading at a fault behind an expression. -/
def stopAfter (e : Arith) (f : ArithFault) : Step Arith := do
  set ([] : List Char)
  return .endedBy e f

def accept (s : String) : Step Bool := do
  match sign? (← get) with
  | some (t, cs) => if s = t then set cs; return true else return false
  | none => return false

/-- What one of some signs stands for, if it comes next. -/
def among {α : Type} (table : List (String × α)) : Step (Option α) := do
  match sign? (← get) with
  | some (s, cs) =>
    match table.find? (·.1 == s) with
    | some (_, a) => set cs; return some a
    | none => return none
  | none => return none

/-- The name that comes next. -/
def name? : Step (Option String) := do
  let cs := (← get).dropWhile isBlank
  if (cs.head?.map isNameStart).getD false then
    set (cs.dropWhile isNameChar)
    return some (String.ofList (cs.takeWhile isNameChar))
  else return none

mutual

/-- An assignment, or an expression without one. -/
def whole : (fuel : Nat) → Step Arith
  | 0 => stop .noPrimary
  | n + 1 => do
    let start ← get
    match ← name? with
    | none => choice n
    | some name =>
      match ← among assignments with
      | some op => return .assign name op (← whole n)
      | none => set start; choice n

def choice : (fuel : Nat) → Step Arith
  | 0 => stop .noPrimary
  | n + 1 => do
    let c ← disjunction n
    if ← accept "?" then
      let yes ← whole n
      if ← accept ":" then return .choose c yes (← choice n)
      else return .choose c yes (← stop .noColon)
    else return c

def disjunction : (fuel : Nat) → Step Arith
  | 0 => stop .noPrimary
  | n + 1 => do
    let l ← conjunction n
    if ← accept "||" then return .either l (← disjunction n) else return l

def conjunction : (fuel : Nat) → Step Arith
  | 0 => stop .noPrimary
  | n + 1 => do
    let l ← operands n strengths
    if ← accept "&&" then return .both l (← conjunction n) else return l

/-- An expression of the operators from one strength on. -/
def operands : (fuel : Nat) → List (List (String × ArithOp)) → Step Arith
  | 0, _ => stop .noPrimary
  | n + 1, [] => primary n
  | n + 1, ops :: more => do
    let first ← operands n more
    chain ops more first n

/-- The operands after the first, taken in from the left. -/
def chain (ops : List (String × ArithOp)) (more : List (List (String × ArithOp))) (first : Arith) :
    (fuel : Nat) → Step Arith
  | 0 => stop .noPrimary
  | n + 1 => do
    match ← among ops with
    | none => return first
    | some op =>
      let second ← operands n more
      chain ops more (.binary op first second) n

/-- A number, a variable, a sign before one, or parentheses. -/
def primary : (fuel : Nat) → Step Arith
  | 0 => stop .noPrimary
  | n + 1 => do
    if ← accept "(" then
      let e ← whole n
      if ← accept ")" then return e else stopAfter e .noParenthesis
    else if ← accept "-" then return .negative (← primary n)
    else if ← accept "+" then primary n
    else if ← accept "~" then return .complement (← primary n)
    else if ← accept "!" then return .not (← primary n)
    else
      match ← name? with
      | some name => return .variable name
      | none =>
        let cs := (← get).dropWhile isBlank
        if !(cs.head?.map Char.isDigit).getD false then stop .noPrimary
        else
          let (value, cs) := takeInteger cs
          set cs
          return .number value

end

end Step

/-- Reads a whole expression. A fault stands in it where it was found, so that what is in front of
it is evaluated before. -/
def read (text : List Char) : Arith :=
  let (e, rest) := (Step.whole (16 * text.length + 32)).run text
  if rest.all isBlank then e else .endedBy e .noEnd

/-- The first fault in an expression. -/
def fault? : Arith → Option ArithFault
  | .number _ | .variable _ => none
  | .negative e | .complement e | .not e | .assign _ _ e => fault? e
  | .binary _ l r | .both l r | .either l r => (fault? l).or (fault? r)
  | .choose c yes no => ((fault? c).or (fault? yes)).or (fault? no)
  | .broken f => some f
  | .endedBy e f => some ((fault? e).getD f)

/-- Passes over an expression, which must be one. -/
def skip (e : Arith) : Except ArithFault Unit :=
  match fault? e with
  | some f => .error f
  | none => .ok ()

def ofTruth (b : Bool) : Int64 := if b then 1 else 0

end Arith

def ArithOp.apply (op : ArithOp) (a b : Int64) : Except ArithFault Int64 :=
  match op with
  | .or => .ok (a ||| b)
  | .xor => .ok (a ^^^ b)
  | .and => .ok (a &&& b)
  | .eq => .ok (Arith.ofTruth (a == b))
  | .ne => .ok (Arith.ofTruth (a != b))
  | .lt => .ok (Arith.ofTruth (a < b))
  | .gt => .ok (Arith.ofTruth (b < a))
  | .le => .ok (Arith.ofTruth (a ≤ b))
  | .ge => .ok (Arith.ofTruth (b ≤ a))
  | .shiftLeft => .ok (a <<< b)
  | .shiftRight => .ok (a >>> b)
  | .add => .ok (a + b)
  | .sub => .ok (a - b)
  | .mul => .ok (a * b)
  | .div => if b == 0 then .error .divisionByZero else .ok (a / b)
  | .mod => if b == 0 then .error .divisionByZero else .ok (a % b)

/-- The values of variables that were assigned, the latest first. -/
abbrev Assigned := List (String × Int64)

/-- The value of a variable: one that is not set is zero. -/
def variableValue (lookup : String → Option String) (assigned : Assigned) (name : String) :
    Except ArithFault Int64 :=
  match assigned.find? (·.1 == name) with
  | some (_, n) => .ok n
  | none =>
    match lookup name with
    | none => .ok 0
    | some "" => .ok 0
    | some value =>
      match wholeInteger? value.toList with
      | some n => .ok n
      | none => .error (.notNumber value)

/-- The value of an expression, and what it assigns. Of a choice only one side is evaluated. -/
def Arith.value (lookup : String → Option String) :
    Arith → Assigned → Except ArithFault (Int64 × Assigned)
  | .number n, s => .ok (n, s)
  | .variable name, s => do return (← variableValue lookup s name, s)
  | .negative e, s => do
    let (a, s) ← e.value lookup s
    return (-a, s)
  | .complement e, s => do
    let (a, s) ← e.value lookup s
    return (~~~a, s)
  | .not e, s => do
    let (a, s) ← e.value lookup s
    return (ofTruth (a == 0), s)
  | .binary op l r, s => do
    let (a, s) ← l.value lookup s
    let (b, s) ← r.value lookup s
    return (← op.apply a b, s)
  | .both l r, s => do
    let (a, s) ← l.value lookup s
    if a == 0 then
      r.skip
      return (0, s)
    let (b, s) ← r.value lookup s
    return (ofTruth (b != 0), s)
  | .either l r, s => do
    let (a, s) ← l.value lookup s
    if a != 0 then
      r.skip
      return (1, s)
    let (b, s) ← r.value lookup s
    return (ofTruth (b != 0), s)
  | .choose c yes no, s => do
    let (a, s) ← c.value lookup s
    if a != 0 then
      let answer ← yes.value lookup s
      no.skip
      return answer
    yes.skip
    no.value lookup s
  | .assign name op e, s => do
    let (b, s) ← e.value lookup s
    let n ← match op with
      | none => pure b
      | some op => do op.apply (← variableValue lookup s name) b
    return (n, (name, n) :: s)
  | .broken f, _ => .error f
  | .endedBy e f, s => do
    let _ ← e.value lookup s
    throw f

end Semlift.Shell
