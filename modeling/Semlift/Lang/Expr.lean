import Semlift.Text.Byte
import Semlift.Value

/-!
Expressions and assignable locations, with their surface text.
-/

namespace Semlift.Lang

inductive UnaryOp where
  | not
  | negate
  deriving DecidableEq, Repr

inductive BinaryOp where
  | add | sub | mul | div | mod
  | eq | ne | lt | le | gt | ge
  | and | or
  deriving DecidableEq, Repr

inductive Expr where
  | lit (v : Value)
  | var (name : String)
  /-- A field of the object that runs. -/
  | own (field : String)
  | field (object : Expr) (field : String)
  | this
  | unary (op : UnaryOp) (operand : Expr)
  | binary (op : BinaryOp) (lhs rhs : Expr)
  deriving DecidableEq

inductive Loc where
  | var (name : String)
  | own (field : String)
  | field (object : Expr) (field : String)
  deriving DecidableEq

def UnaryOp.text : UnaryOp → String
  | .not => "!"
  | .negate => "-"

def BinaryOp.text : BinaryOp → String
  | .add => "+"
  | .sub => "-"
  | .mul => "*"
  | .div => "/"
  | .mod => "%"
  | .eq => "=="
  | .ne => "!="
  | .lt => "<"
  | .le => "<="
  | .gt => ">"
  | .ge => ">="
  | .and => "&&"
  | .or => "||"

def Expr.text : Expr → String
  | .lit v => v.text
  | .var name => name
  | .own f => "this." ++ f
  | .field object f => object.text ++ "." ++ f
  | .this => "this"
  | .unary op operand => op.text ++ operand.text
  | .binary op lhs rhs => "(" ++ lhs.text ++ " " ++ op.text ++ " " ++ rhs.text ++ ")"

def Loc.text : Loc → String
  | .var name => name
  | .own f => "this." ++ f
  | .field object f => object.text ++ "." ++ f

/-- Expressions between commas. -/
def Expr.listText (es : List Expr) : String := Text.join ", " (es.map Expr.text)

end Semlift.Lang
