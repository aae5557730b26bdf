import Semlift.Diagnostic
import Semlift.Lang.Expr

/-!
Statements. Every statement carries the line it stands on, `-1` when no line is known. Besides what
a program may write there is the statement `store`, which a running frame holds while it waits for
the answer of a callee.
-/

namespace Semlift.Lang

inductive Stmt where
  | skip (line : Int)
  | assign (line : Int) (target : Loc) (value : Expr)
  | seq (line : Int) (first second : Stmt)
  | ifThen (line : Int) (condition : Expr) (body : Stmt)
  | ifElse (line : Int) (condition : Expr) (body other : Stmt)
  | while (line : Int) (condition : Expr) (body : Stmt)
  /-- Makes an object; the arguments are the values of its fields. -/
  | create (line : Int) (target : Loc) (className : String) (args : List Expr)
  | call (line : Int) (target : Option Loc) (receiver : Expr) (method : String) (args : List Expr)
  | ret (line : Int) (value : Option Expr)
  | print (line : Int) (value : Expr)
  | breakpoint (line : Int)
  /-- The members of a class expression, as a list. -/
  | member (line : Int) (target : Loc) (query : Expr)
  /-- The answers of a query, as a list; `%1`, `%2`, … in its text stand for the parameters. -/
  | access (line : Int) (target : Loc) (query : Expr) (params : List Expr)
  | store (line : Int) (target : Option Loc)
  deriving DecidableEq

namespace Stmt

def line : Stmt → Int
  | .skip n | .assign n .. | .seq n .. | .ifThen n .. | .ifElse n .. | .while n .. | .create n ..
  | .call n .. | .ret n .. | .print n .. | .breakpoint n | .member n .. | .access n ..
  | .store n .. => n

/-- The same statement on another line; its parts keep theirs. -/
def atLine (n : Int) : Stmt → Stmt
  | .skip _ => .skip n
  | .assign _ t v => .assign n t v
  | .seq _ a b => .seq n a b
  | .ifThen _ c b => .ifThen n c b
  | .ifElse _ c b o => .ifElse n c b o
  | .while _ c b => .while n c b
  | .create _ t c as => .create n t c as
  | .call _ t r m as => .call n t r m as
  | .ret _ v => .ret n v
  | .print _ v => .print n v
  | .breakpoint _ => .breakpoint n
  | .member _ t q => .member n t q
  | .access _ t q ps => .access n t q ps
  | .store _ t => .store n t

/-- Statements in a row: none is `skip`, one is itself, more nest to the right. -/
def block : List Stmt → Stmt
  | [] => .skip (-1)
  | [s] => s
  | s :: more => .seq (-1) s (block more)

/-- The first statement that is no sequence: the one executed next. -/
def head : Stmt → Stmt
  | .seq _ first _ => first.head
  | s => s

def targetText : Option Loc → String
  | none => ""
  | some t => t.text ++ " := "

def text : Stmt → String
  | .skip _ => "skip"
  | .assign _ t v => t.text ++ " := " ++ v.text
  | .seq _ a b => a.text ++ "; " ++ b.text
  | .ifThen _ c b => "if " ++ c.text ++ " then " ++ b.text ++ " end"
  | .ifElse _ c b o => "if " ++ c.text ++ " then " ++ b.text ++ " else " ++ o.text ++ " end"
  | .while _ c b => "while " ++ c.text ++ " do " ++ b.text ++ " end"
  | .create _ t c as => t.text ++ " := new " ++ c ++ "(" ++ Expr.listText as ++ ")"
  | .call _ t r m as => targetText t ++ r.text ++ "." ++ m ++ "(" ++ Expr.listText as ++ ")"
  | .ret _ none => "return"
  | .ret _ (some v) => "return " ++ v.text
  | .print _ v => "print(" ++ v.text ++ ")"
  | .breakpoint _ => "breakpoint"
  | .member _ t q => t.text ++ " := member(" ++ q.text ++ ")"
  | .access _ t q [] => t.text ++ " := access(" ++ q.text ++ ")"
  | .access _ t q ps => t.text ++ " := access(" ++ q.text ++ ", " ++ Expr.listText ps ++ ")"
  | .store _ none => "<await return>"
  | .store _ (some t) => t.text ++ " := <return>"

def headText (s : Stmt) : String := s.head.text

/-- The place of the statement executed next. -/
def headSpan (s : Stmt) : Span := ⟨s.head.line, s.head.text⟩

end Stmt

end Semlift.Lang
