import Semlift.Number.Layout
import Semlift.Number.Literal
import Semlift.Number.Places
import Semlift.Shell.Escape

/-!
Formats whose conversions write arguments. A format is used again as long as it takes arguments and
some are left.
-/

namespace Semlift.Shell.Format

open Semlift.Text Semlift.Number

/-- What differs between those who write by formats. -/
structure Dialect where
  /-- The format that real numbers are rounded to. -/
  reals : BinaryFormat
  escapes : EscapeStyle
  /-- The escapes of an argument that may have some. -/
  argumentEscapes : EscapeStyle

/-- The dialect of the command of the language, and that of the program. -/
def Dialect.command : Dialect := ⟨.double, ⟨false, false, false⟩, .whole false⟩
def Dialect.program : Dialect := ⟨.extended, ⟨false, true, true⟩, .whole true⟩

/-- What is wrong with an argument. -/
inductive Complaint where
  | notNumber (arg : String)
  | unfinished (arg : String)
  | outOfRange (arg : String)
  deriving DecidableEq, Repr

/-- Why a format cannot be used. -/
inductive Fault where
  | noLetter
  | badLetter (conversion : String)
  deriving DecidableEq, Repr

/-- A count in a conversion: written out, or taken from the arguments. -/
inductive Count where
  | given (n : Nat)
  | taken
  deriving DecidableEq, Repr

/-- A conversion as it is written: its flags, width, precision and letter. -/
structure Spec where
  flags : List Char
  width : Count
  precision : Option Count
  letter : Char

/-- A count at the beginning of a text, and how many characters it takes. -/
def countAt (cs : List Char) : Count × Nat :=
  match cs with
  | '*' :: _ => (.taken, 1)
  | cs =>
    let ds := cs.takeWhile Char.isDigit
    (.given (digitsValue ds), ds.length)

/-- The conversion after a percent sign and how many characters it takes. -/
def specAt? (cs : List Char) : Option (Spec × Nat) :=
  let flags := cs.takeWhile fun c => c ∈ ['-', '+', ' ', '#', '0']
  let (width, widthLength) := countAt (cs.drop flags.length)
  let taken := flags.length + widthLength
  let (precision, taken) := match cs.drop taken with
    | '.' :: more =>
      let (p, n) := countAt more
      (some p, taken + 1 + n)
    | _ => (none, taken)
  match cs.drop taken with
  | c :: _ => some (⟨flags, width, precision, c⟩, taken + 1)
  | [] => none

/-- A conversion with its counts. -/
structure Conversion where
  flags : List Char
  width : Nat
  precision : Option Nat
  letter : Char

def Conversion.has (c : Conversion) (flag : Char) : Bool := c.flags.contains flag

def integerLetters : List Char := ['d', 'i', 'u', 'x', 'X', 'o']
def realLetters : List Char := ['f', 'F', 'e', 'E', 'g', 'G', 'a', 'A']

/-- A text in a field of the width of a conversion. Digits may be filled up with zeros behind their
sign. -/
def Conversion.pad (c : Conversion) (zeros : Bool) (sign body : List Char) : List Char :=
  let missing := c.width - (sign.length + body.length)
  if c.has '-' then sign ++ body ++ List.replicate missing ' '
  else if zeros && c.has '0' then sign ++ List.replicate missing '0' ++ body
  else List.replicate missing ' ' ++ sign ++ body

def Conversion.sign (c : Conversion) (negative : Bool) : List Char :=
  if negative then ['-'] else if c.has '+' then ['+'] else if c.has ' ' then [' '] else []

/-- An integer written by a conversion. -/
def Conversion.integer (c : Conversion) (n : Int) : List Char :=
  let signed := c.letter = 'd' || c.letter = 'i'
  let magnitude := n.natAbs
  let digits :=
    if c.letter = 'x' then Nat.toDigits 16 magnitude
    else if c.letter = 'X' then (Nat.toDigits 16 magnitude).map Char.toUpper
    else if c.letter = 'o' then Nat.toDigits 8 magnitude
    else Nat.toDigits 10 magnitude
  let digits := if magnitude = 0 && c.precision = some 0 then [] else digits
  let digits := List.replicate (c.precision.getD 0 - digits.length) '0' ++ digits
  let digits := if c.letter = 'o' && c.has '#' && digits.head? ≠ some '0' then '0' :: digits
    else digits
  let start :=
    if signed then c.sign (n < 0)
    else if (c.letter = 'x' || c.letter = 'X') && c.has '#' && magnitude ≠ 0 then ['0', c.letter]
    else []
  c.pad c.precision.isNone start digits

/-- A real number written by a conversion. -/
def Conversion.real (c : Conversion) (f : BinaryFormat) (x : Rounded) : List Char :=
  let lower := c.letter.toLower
  let style : RealStyle :=
    if lower = 'f' then .fixed
    else if lower = 'e' then .scientific
    else if lower = 'g' then .general
    else .hexadecimal
  let body := RealLayout.write ⟨style, c.precision, c.has '#'⟩ f x
  let body := if c.letter.isUpper then body.map Char.toUpper else body
  let sign := c.sign x.isNegative
  match x with
  | .finite .. =>
    if style = .hexadecimal then c.pad true (sign ++ body.take 2) (body.drop 2)
    else c.pad true sign body
  | _ => c.pad false sign body

/-- The sign and the digits of an integer at the beginning of a text: hexadecimal after `0x`, octal
after `0`. -/
def integerAt (cs : List Char) : Int × List Char :=
  let (negative, ds) := match cs.dropWhile isBlank with
    | '-' :: ds => (true, ds)
    | '+' :: ds => (false, ds)
    | ds => (false, ds)
  let (n, rest) := match ds with
    | '0' :: x :: d :: more =>
      if (x = 'x' || x = 'X') && isHexDigit d then
        (hexDigitsValue ((d :: more).takeWhile isHexDigit), (d :: more).dropWhile isHexDigit)
      else (octalValue (ds.takeWhile isOctalDigit), ds.dropWhile isOctalDigit)
    | '0' :: _ => (octalValue (ds.takeWhile isOctalDigit), ds.dropWhile isOctalDigit)
    | _ => (digitsValue (ds.takeWhile Char.isDigit), ds.dropWhile Char.isDigit)
  if (ds.head?.map Char.isDigit).getD false then (if negative then -(n : Int) else n, rest)
  else (0, cs)

/-- What is wrong with an argument of which a part is left. -/
def leftOver (arg : String) (rest : List Char) (inRange : Bool) : Option Complaint :=
  if arg.isEmpty then none
  else if rest.length = arg.length then some (.notNumber arg)
  else if !rest.isEmpty then some (.unfinished arg)
  else if inRange then none
  else some (.outOfRange arg)

/-- The number of the character after a quote. -/
def quotedNumber? (arg : String) : Option Nat :=
  match arg.toList with
  | q :: cs => if q = '"' || q = '\'' then some ((cs.head?.map Char.toNat).getD 0) else none
  | [] => none

/-- The integer of an argument within 64 bits; without a sign, a negative one is taken modulo their
number. -/
def integerOf (signed : Bool) (arg : String) : Int × Option Complaint :=
  match quotedNumber? arg with
  | some n => (n, none)
  | none =>
    let (n, rest) := integerAt arg.toList
    let least : Int := if signed then Int64.minValue.toInt else 1 - (UInt64.size : Int)
    let greatest : Int := if signed then Int64.maxValue.toInt else (UInt64.size : Int) - 1
    let inRange := least ≤ n && n ≤ greatest
    let value :=
      if greatest < n || (n < least && !signed) then greatest
      else if n < least then least
      else if signed then n
      else n % UInt64.size
    (value, leftOver arg rest inRange)

/-- The real number of an argument. -/
def realOf (f : BinaryFormat) (arg : String) : Rounded × Option Complaint :=
  match quotedNumber? arg with
  | some n => (f.nearest false n 1, none)
  | none =>
    match takeLiteral? arg.toList with
    | none => (.finite false 0 f.least, leftOver arg arg.toList true)
    | some (l, rest) =>
      let x := l.round f
      let isZero : Bool := match l with
        | .plain (.decimal d) => d.mantissa == 0
        | .binary _ m _ => m == 0
        | _ => true
      let inRange := match x with
        | .finite _ m _ => m ≠ 0 || isZero
        | .infinity _ => isZero
        | .nan _ => true
      (x, leftOver arg rest inRange)

/-- What a format wrote: the text, the arguments that are left, what was wrong with arguments, and
why it could not be used further. -/
structure Written where
  text : List Char
  left : List String
  complaints : List Complaint
  fault : Option Fault
  /-- An escape ended all. -/
  ended : Bool

def Written.ofText (text : List Char) (left : List String) : Written :=
  ⟨text, left, [], none, false⟩

/-- A text in front of what is written. -/
def Written.after (text : List Char) (w : Written) : Written := { w with text := text ++ w.text }

/-- An argument written by a conversion, with what is wrong with it, or `none` if there is no such
conversion; and whether it ended all. -/
def Conversion.write (c : Conversion) (d : Dialect) (arg : String) :
    Option (List Char × Option Complaint × Bool) :=
  let cut (cs : List Char) := (c.precision.map cs.take).getD cs
  if c.letter = 's' then some (c.pad false [] (cut arg.toList), none, false)
  else if c.letter = 'b' then
    let (text, ended) := d.argumentEscapes.carryOut 0 arg.toList
    some (c.pad false [] (cut text), none, ended)
  else if c.letter = 'c' then some (c.pad false [] [arg.toList.headD (Char.ofNat 0)], none, false)
  else if c.letter ∈ integerLetters then
    let (n, complaint) := integerOf (c.letter = 'd' || c.letter = 'i') arg
    some (c.integer n, complaint, false)
  else if c.letter ∈ realLetters then
    let (x, complaint) := realOf d.reals arg
    some (c.real d.reals x, complaint, false)
  else none

/-- The count of a conversion, with the arguments that are left and what is wrong with the one that
was taken. -/
def Count.take (n : Count) (args : List String) : Int × List String × List Complaint :=
  match n with
  | .given n => (n, args, [])
  | .taken =>
    let (n, complaint) := integerOf true (args.headD "")
    (n, args.drop 1, complaint.toList)

/-- A conversion with its counts, with the arguments that are left and what was wrong with those
that were taken. A negative width is one on the left, and a negative precision is none. -/
def Spec.take (s : Spec) (args : List String) : Conversion × List String × List Complaint :=
  let (width, args, complaints) := s.width.take args
  let (precision, args, others) := match s.precision with
    | some p =>
      let (p, args, others) := p.take args
      (if p < 0 then none else some p.toNat, args, others)
    | none => (none, args, [])
  let flags := if width < 0 then '-' :: s.flags else s.flags
  (⟨flags, width.natAbs, precision, s.letter⟩, args, complaints ++ others)

/-- One pass over a format, after passing over some characters. -/
def once (d : Dialect) : (pass : Nat) → List Char → (args : List String) → Written
  | _, [], args => .ofText [] args
  | n + 1, _ :: cs, args => once d n cs args
  | 0, '%' :: cs, args =>
    match cs with
    | '%' :: _ => (once d 1 cs args).after ['%']
    | _ =>
      match specAt? cs with
      | none => { Written.ofText [] args with fault := some .noLetter }
      | some (spec, n) =>
        let (c, args, complaints) := spec.take args
        match c.write d (args.headD "") with
        | none =>
          { Written.ofText [] args with
            complaints := complaints
            fault := some (.badLetter (String.ofList ('%' :: cs.take n))) }
        | some (text, complaint, ended) =>
          let w := if ended then { Written.ofText [] (args.drop 1) with ended := true }
            else once d n cs (args.drop 1)
          { w.after text with complaints := complaints ++ complaint.toList ++ w.complaints }
  | 0, '\\' :: cs, args =>
    match d.escapes.read cs with
    | .char c taken => (once d taken cs args).after [c]
    | .stop => { Written.ofText [] args with ended := true }
  | 0, c :: cs, args => (once d 0 cs args).after [c]

/-- The format is used again as long as it takes arguments and some are left. -/
def repeated (d : Dialect) : (fuel : Nat) → List Char → List String → Written
  | 0, _, args => .ofText [] args
  | n + 1, f, args =>
    let w := once d 0 f args
    if w.ended || w.fault.isSome || w.left.isEmpty || w.left.length = args.length then w
    else
      let more := repeated d n f w.left
      { more.after w.text with complaints := w.complaints ++ more.complaints }

def write (d : Dialect) (format : String) (args : List String) : Written :=
  repeated d (args.length + 1) format.toList args

end Semlift.Shell.Format
