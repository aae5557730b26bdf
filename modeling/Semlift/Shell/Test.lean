import Semlift.Shell.State

/-!
Conditions on texts, numbers and files. A condition is read from its arguments one by one; whether
an argument is an operator can depend on the two behind it.
-/

namespace Semlift.Shell

open Semlift.Files

namespace Test

inductive Fault where
  | notNumber (arg : String)
  | unexpected (arg : String)
  | noArgument (op : String)
  | noClosing
  deriving DecidableEq, Repr

def Fault.message : Fault → String
  | .notNumber arg => "Illegal number: " ++ arg
  | .unexpected arg => (if arg.isEmpty then "" else arg ++ ": ") ++ "unexpected operator"
  | .noArgument op => op ++ ": argument expected"
  | .noClosing => "closing paren expected"

inductive Token where
  | unary (op : String)
  | binary (op : String)
  | not
  | and
  | or
  | opening
  | closing
  | operand
  | none
  deriving DecidableEq, Repr

def unaryOps : List String :=
  ["-r", "-w", "-x", "-e", "-f", "-d", "-c", "-b", "-p", "-u", "-g", "-k", "-s", "-t", "-z", "-n",
    "-O", "-G", "-L", "-h", "-S"]

def binaryOps : List String :=
  ["=", "!=", "<", ">", "-eq", "-ne", "-gt", "-lt", "-ge", "-le", "-nt", "-ot", "-ef"]

/-- What the first of some arguments is. A unary operator is an operand where nothing follows it, or
a binary one with something behind. -/
def token : List String → Token
  | [] => .none
  | a :: more =>
    if a ∈ unaryOps then
      match more with
      | [] => .operand
      | [_] => .unary a
      | b :: _ => if b ∈ binaryOps then .operand else .unary a
    else if a ∈ binaryOps then .binary a
    else if a = "!" then .not
    else if a = "-a" then .and
    else if a = "-o" then .or
    else if a = "(" then if more.isEmpty then .operand else .opening
    else if a = ")" then .closing
    else .operand

def fileTest (s : Session) (op path : String) : Bool :=
  match s.tree.find? (s.path path) with
  | none => false
  | some entry =>
    if op ∈ ["-e", "-r", "-w", "-O", "-G"] then true
    else
      match entry with
      | .directory => op ∈ ["-d", "-x", "-s"]
      | .file content => op = "-f" || (op = "-s" && !content.isEmpty)
      | .program _ => op ∈ ["-f", "-x", "-s"]
      | .drain => op = "-c"
      | .stream _ => op ∈ ["-p", "-L", "-h"]

def unaryTest (s : Session) (op arg : String) : Except Fault Bool :=
  if op = "-n" then .ok !arg.isEmpty
  else if op = "-z" then .ok arg.isEmpty
  else if op = "-t" then
    if (Session.integer? arg).isSome then .ok false else .error (.notNumber arg)
  else .ok (fileTest s op arg)

def numberTest (f : Int → Int → Bool) (l r : String) : Except Fault Bool :=
  match Session.integer? l, Session.integer? r with
  | some a, some b => .ok (f a b)
  | none, _ => .error (.notNumber l)
  | _, none => .error (.notNumber r)

/-- Whether two paths lead to one place. -/
def samePlace (s : Session) (l r : String) : Bool :=
  match s.tree.place? (s.path l), s.tree.place? (s.path r) with
  | some a, some b => a = b && (s.tree.at? a).isSome
  | _, _ => false

def binaryTest (s : Session) (op l r : String) : Except Fault Bool :=
  match op with
  | "=" => .ok (l == r)
  | "!=" => .ok (l != r)
  | "<" => .ok (l < r)
  | ">" => .ok (r < l)
  | "-eq" => numberTest (· == ·) l r
  | "-ne" => numberTest (· != ·) l r
  | "-lt" => numberTest (· < ·) l r
  | "-le" => numberTest (· ≤ ·) l r
  | "-gt" => numberTest (· > ·) l r
  | "-ge" => numberTest (· ≥ ·) l r
  | "-ef" => .ok (samePlace s l r)
  | _ => .ok false

/-- A truth value with the arguments from the last one of its condition on. -/
abbrev Judged := Except Fault (Bool × List String)

mutual

/-- Conditions of which one must hold. -/
def anyOf (s : Session) : (fuel : Nat) → List String → Judged
  | 0, args => .ok (false, args)
  | n + 1, args => do
    let (b, at') ← allOf s n args
    if token (at'.drop 1) = .or then
      let (c, at') ← anyOf s n (at'.drop 2)
      return (b || c, at')
    else return (b, at')

/-- Conditions of which all must hold. -/
def allOf (s : Session) : (fuel : Nat) → List String → Judged
  | 0, args => .ok (false, args)
  | n + 1, args => do
    let (b, at') ← negated s n args
    if token (at'.drop 1) = .and then
      let (c, at') ← allOf s n (at'.drop 2)
      return (b && c, at')
    else return (b, at')

def negated (s : Session) : (fuel : Nat) → List String → Judged
  | 0, args => .ok (false, args)
  | n + 1, args => do
    if token args = .not then
      if token (args.drop 1) = .none then return (true, args)
      else
        let (b, at') ← negated s n (args.drop 1)
        return (!b, at')
    else primary s n args

def primary (s : Session) : (fuel : Nat) → List String → Judged
  | 0, args => .ok (false, args)
  | n + 1, args => do
    match token args, args with
    | .none, _ | _, [] => return (false, args)
    | .opening, _ :: inside =>
      if token inside = .closing then return (false, inside)
      else
        let (b, at') ← anyOf s n inside
        if token (at'.drop 1) = .closing then return (b, at'.drop 1) else throw .noClosing
    | .unary op, _ :: more =>
      match more with
      | [] => throw (.noArgument op)
      | arg :: _ => return (← unaryTest s op arg, more)
    | _, l :: more =>
      match token more, more with
      | .binary op, _ :: more =>
        match more with
        | [] => throw (.noArgument op)
        | r :: _ => return (← binaryTest s op l r, more)
      | _, _ => return (!l.isEmpty, args)

end

/-- Whether a whole condition holds. -/
def whole (s : Session) (args : List String) : Except Fault Bool := do
  let (b, at') ← anyOf s (4 * args.length + 4) args
  match at' with
  | a :: _ :: _ => throw (.unexpected a)
  | _ => return b

/-- Whether the condition that arguments make holds. Of three or four, the number decides what is
an operator. -/
def judge (s : Session) : (fuel : Nat) → List String → Except Fault Bool
  | 0, _ | _, [] => .ok false
  | n + 1, args =>
    let shorter : Except Fault Bool :=
      if args.head? = some "(" && args.getLast? = some ")" then whole s (args.dropLast.drop 1)
      else if args.head? = some "!" then (judge s n (args.drop 1)).map (!·)
      else whole s args
    match args with
    | [l, op, r] => if op ∈ binaryOps then binaryTest s op l r else shorter
    | [_, _, _, _] => shorter
    | _ => whole s args

end Test

def test (s : Session) (name : String) (args : List String) : Session :=
  match Test.judge s (args.length + 1) args with
  | .ok b => s.succeedIf b
  | .error fault => s.complain (name ++ ": " ++ fault.message) 2

/-- A test between brackets. -/
def bracketTest (s : Session) (args : List String) : Session :=
  if args.getLast? = some "]" then test s "[" args.dropLast else s.complain "[: missing ]" 2

end Semlift.Shell
