import Semlift.Number.Truncate
import Semlift.Query.Basic

/-!
The value of a filter under a binding of its variables. An expression without a value makes the
whole without one, but the connectives decide from one side where they can.
-/

namespace Semlift.Query

open Semlift.Rdf

/-- What the variables stand for, one term for each bound name. -/
abbrev Binding := List (String × Term)

def Binding.find? (b : Binding) (name : String) : Option Term :=
  (List.find? (fun e => e.1 == name) b).map (·.2)

def isInteger : Term → Bool
  | .literal _ datatype _ => datatype == Vocabulary.xsdInteger
  | _ => false

def isText : Term → Bool
  | .literal _ datatype _ =>
    datatype == Vocabulary.xsdString || datatype == Vocabulary.rdfLangString
  | _ => false

/-- The truth value of a term, if it has one. -/
def truth? : Term → Option Bool
  | t@(.literal lexical datatype _) =>
    if datatype = Vocabulary.xsdBoolean then some (lexical == "true" || lexical == "1")
    else
      match t.number? with
      | some x => some (!x.isZero && !x.isNaN)
      | none => if isText t then some (!lexical.isEmpty) else none
  | _ => none

/-- Numbers are compared by value, other literals of one datatype by their text. -/
def compare? (l r : Term) : Option Ordering :=
  match l.number?, r.number? with
  | some a, some b => some (a.order b)
  | _, _ =>
    match l, r with
    | .literal s d _, .literal t e _ => if d = e then some (compare s t) else none
    | _, _ => none

def equal (l r : Term) : Bool :=
  if l.isNumeric && r.isNumeric then compare? l r == some .eq else l == r

def Relation.holds (r : Relation) (o : Ordering) : Bool :=
  match r with
  | .eq => o.isEq
  | .ne => o.isNe
  | .lt => o.isLT
  | .le => o.isLE
  | .gt => o.isGT
  | .ge => o.isGE

def relate? (r : Relation) (a b : Term) : Option Term :=
  match r with
  | .eq => some (.boolean (equal a b))
  | .ne => some (.boolean (!equal a b))
  | r => (compare? a b).map fun o => .boolean (r.holds o)

/-- Sums, differences and products of integers are taken in 64 bits from their doubles; everything
else, and every quotient, is a double. -/
def operate? (o : Operation) (l r : Term) : Option Term := do
  let a ← l.number?
  let b ← r.number?
  let whole := isInteger l && isInteger r
  match o with
  | .add => some (if whole then .integer (Number.truncate a + Number.truncate b)
      else .double (a.add b))
  | .sub => some (if whole then .integer (Number.truncate a - Number.truncate b)
      else .double (a.sub b))
  | .mul => some (if whole then .integer (Number.truncate a * Number.truncate b)
      else .double (a.mul b))
  | .div => if b.isZero then none else some (.double (a.div b))

/-- The negative of a number: an integer's difference from zero, else the product with minus one. -/
def negate? (t : Term) : Option Term :=
  if isInteger t then operate? .sub (.integer 0) t
  else operate? .mul (.double (Number.ofInt64 (-1))) t

def connect? (c : Connective) (a b : Option Bool) : Option Bool :=
  match c with
  | .and =>
    if a = some false || b = some false then some false
    else if a = some true && b = some true then some true else none
  | .or =>
    if a = some true || b = some true then some true
    else if a = some false && b = some false then some false else none

/-- Whether a text occurs in another. -/
def occursIn (part : List Char) : List Char → Bool
  | [] => part.isEmpty
  | c :: cs => (Text.afterPrefix? part (c :: cs)).isSome || occursIn part cs

/-- The value of a function that takes values. -/
def Function.apply? : Function → List Term → Option Term
  | .isIri, [t] | .isUri, [t] => some (.boolean t.isIri)
  | .isLiteral, [t] => some (.boolean t.isLiteral)
  | .isBlank, [t] => some (.boolean t.isBlank)
  | .str, [t] => if t.isBlank then none else some (.string t.content)
  | .lang, [.literal _ _ tag] => some (.string tag)
  | .datatype, [.literal _ name _] => some (.iri name)
  | .contains, [l, r] =>
    if isText l && isText r then some (.boolean (occursIn r.content.toList l.content.toList))
    else none
  | .strStarts, [l, r] =>
    if isText l && isText r then some (.boolean (Text.startsWith r.content l.content)) else none
  | _, _ => none

mutual

def Filter.value? (b : Binding) : Filter → Option Term
  | .var name => b.find? name
  | .const t => some t
  | .not e => ((e.value? b).bind truth?).map fun x => .boolean (!x)
  | .neg e => (e.value? b).bind negate?
  | .connect c l r =>
    (connect? c ((l.value? b).bind truth?) ((r.value? b).bind truth?)).map .boolean
  | .relate r x y =>
    match x.value? b, y.value? b with
    | some s, some t => relate? r s t
    | _, _ => none
  | .operate o x y =>
    match x.value? b, y.value? b with
    | some s, some t => operate? o s t
    | _, _ => none
  | .call .bound [.var name] => some (.boolean (b.find? name).isSome)
  | .call .bound _ => none
  | .call f args => (Filter.values? b args).bind f.apply?

/-- The values of all arguments, if each has one. -/
def Filter.values? (b : Binding) : List Filter → Option (List Term)
  | [] => some []
  | e :: more =>
    match e.value? b with
    | none => none
    | some t => (Filter.values? b more).map (t :: ·)

end

/-- Whether a filter keeps a binding. -/
def Filter.keeps (e : Filter) (b : Binding) : Bool := (e.value? b).bind truth? == some true

end Semlift.Query
