/-!
How many columns a text takes on a display: one for each code point of its UTF-8 reading, two for
the wide ones, and one for each byte that belongs to no code point.
-/

namespace Semlift.Text

/-- East Asian wide forms, and the pictographs. -/
def wideRanges : List (Nat × Nat) :=
  [(0x1100, 0x115f), (0x2329, 0x2329), (0x232a, 0x232a), (0x2e80, 0x303e), (0x3040, 0xa4cf),
    (0xac00, 0xd7a3), (0xf900, 0xfaff), (0xfe10, 0xfe19), (0xfe30, 0xfe6f), (0xff00, 0xff60),
    (0xffe0, 0xffe6), (0x20000, 0x2fffd), (0x30000, 0x3fffd), (0x1f300, 0x1f64f),
    (0x1f900, 0x1f9ff)]

def codePointColumns (cp : Nat) : Nat :=
  if wideRanges.any fun (lo, hi) => lo ≤ cp && cp ≤ hi then 2 else 1

/-- The payload of a continuation byte. -/
def continuation? (c : Char) : Option Nat :=
  if 0x80 ≤ c.toNat && c.toNat ≤ 0xbf then some (c.toNat - 0x80) else none

/-- The code point at the beginning of a nonempty text and how many bytes follow the first one.
Overlong forms, surrogates and values past `10ffff` are refused. -/
def codePoint? (c : Char) (cs : List Char) : Option (Nat × Nat) :=
  let b := c.toNat
  let next (i : Nat) : Option Nat := cs[i]?.bind continuation?
  if b < 0x80 then some (b, 0)
  else if 0xc2 ≤ b && b ≤ 0xdf then do
    let x ← next 0
    pure ((b - 0xc0) * 0x40 + x, 1)
  else if 0xe0 ≤ b && b ≤ 0xef then do
    let x ← next 0
    let y ← next 1
    let cp := (b - 0xe0) * 0x1000 + x * 0x40 + y
    if 0x800 ≤ cp && (cp < 0xd800 || 0xdfff < cp) then pure (cp, 2) else none
  else if 0xf0 ≤ b && b ≤ 0xf4 then do
    let x ← next 0
    let y ← next 1
    let z ← next 2
    let cp := (b - 0xf0) * 0x40000 + x * 0x1000 + y * 0x40 + z
    if 0x10000 ≤ cp && cp ≤ 0x10ffff then pure (cp, 3) else none
  else none

def columns : List Char → Nat
  | [] => 0
  | c :: cs =>
    match codePoint? c cs with
    | some (cp, n) => codePointColumns cp + columns (cs.drop n)
    | none => 1 + columns cs
termination_by cs => cs.length

/-- A text filled up with spaces on the right to a number of columns. -/
def padRight (width : Nat) (s : String) : String :=
  s ++ String.ofList (List.replicate (width - columns s.toList) ' ')

end Semlift.Text
