/-!
Texts are strings of bytes: every character of a text stands for the byte of its code. The
classes below are the ASCII ones, so a byte from `80` to `ff` is in none of them.
-/

namespace Semlift.Text

/-- Space, tab, line feed, vertical tab, form feed or carriage return. -/
def isBlank (c : Char) : Bool := c == ' ' || (0x09 ≤ c.toNat && c.toNat ≤ 0x0d)

/-- A byte outside ASCII. -/
def isHigh (c : Char) : Bool := 0x80 ≤ c.toNat

def isHexDigit (c : Char) : Bool :=
  c.isDigit || ('a' ≤ c && c ≤ 'f') || ('A' ≤ c && c ≤ 'F')

/-- The value of a hexadecimal digit, zero for any other character. -/
def hexValue (c : Char) : Nat :=
  if c.isDigit then c.toNat - '0'.toNat
  else if 'a' ≤ c && c ≤ 'f' then c.toNat - 'a'.toNat + 10
  else if 'A' ≤ c && c ≤ 'F' then c.toNat - 'A'.toNat + 10
  else 0

/-- The value of a digit sequence, most significant first. -/
def digitsValue (ds : List Char) : Nat :=
  ds.foldl (fun n d => 10 * n + (d.toNat - '0'.toNat)) 0

/-- The number of 64 bits that a text spells in digits and nothing else. -/
def wordValue? (ds : List Char) : Option Nat :=
  if ds.isEmpty || !ds.all Char.isDigit then none
  else if digitsValue ds < UInt64.size then some (digitsValue ds)
  else none

/-- The rest of a text after a given beginning. -/
def afterPrefix? : (start text : List Char) → Option (List Char)
  | [], cs => some cs
  | _ :: _, [] => none
  | p :: ps, c :: cs => if p = c then afterPrefix? ps cs else none

theorem afterPrefix?_eq_some_iff {start text rest : List Char} :
    afterPrefix? start text = some rest ↔ text = start ++ rest := by
  induction start generalizing text with
  | nil => simp [afterPrefix?]
  | cons p ps ih =>
    cases text with
    | nil => simp [afterPrefix?]
    | cons c cs =>
      by_cases h : p = c
      · simp [afterPrefix?, h, ih]
      · simp [afterPrefix?, h, Ne.symm h]

/-- Whether a text begins with another. -/
def startsWith (start text : String) : Bool := (afterPrefix? start.toList text.toList).isSome

/-- Both sides of the first occurrence of a character. -/
def splitFirst? (sep : Char) : List Char → Option (List Char × List Char)
  | [] => none
  | c :: cs =>
    if c = sep then some ([], cs) else (splitFirst? sep cs).map fun (l, r) => (c :: l, r)

/-- A text without the blanks at its ends. -/
def trim (cs : List Char) : List Char :=
  ((cs.dropWhile isBlank).reverse.dropWhile isBlank).reverse

/-- The pieces between the occurrences of a separator: always one more than there are separators. -/
def splitOn (sep : Char) : List Char → List (List Char)
  | [] => [[]]
  | c :: cs =>
    if c = sep then [] :: splitOn sep cs
    else match splitOn sep cs with
      | [] => [[c]]
      | piece :: more => (c :: piece) :: more

/-- The occurrences of a character in a text. -/
def count (c : Char) (cs : List Char) : Nat := (cs.filter (· == c)).length

/-- Texts joined with a separator between neighbours. -/
def join (sep : String) : List String → String
  | [] => ""
  | [s] => s
  | s :: more => s ++ sep ++ join sep more

@[simp] theorem join_nil (sep : String) : join sep [] = "" := rfl
@[simp] theorem join_singleton (sep s : String) : join sep [s] = s := rfl
@[simp] theorem join_cons_cons (sep s t : String) (more : List String) :
    join sep (s :: t :: more) = s ++ sep ++ join sep (t :: more) := rfl

/-! ### Quoted literals

Backslash, double quote, line feed, carriage return and tab are written as escapes, every other byte
as itself. -/

def escapeChar (c : Char) : List Char :=
  if c = '\\' then ['\\', '\\']
  else if c = '"' then ['\\', '"']
  else if c = '\n' then ['\\', 'n']
  else if c = '\r' then ['\\', 'r']
  else if c = '\t' then ['\\', 't']
  else [c]

/-- The inside of a quoted literal. -/
def escape (s : String) : String := String.ofList (s.toList.flatMap escapeChar)

/-- A text between double quotes, escaped. -/
def quote (s : String) : String := "\"" ++ escape s ++ "\""

/-! ### Replacing

Every occurrence of a text is replaced, from left to right. What was put in is not looked at
again. -/

/-- Replaces after passing over a number of characters. -/
def replaceFrom (old new : List Char) : (pass : Nat) → List Char → List Char
  | _, [] => []
  | n + 1, _ :: cs => replaceFrom old new n cs
  | 0, c :: cs =>
    if (afterPrefix? old (c :: cs)).isSome then new ++ replaceFrom old new (old.length - 1) cs
    else c :: replaceFrom old new 0 cs

def replace (old new text : String) : String :=
  String.ofList (replaceFrom old.toList new.toList 0 text.toList)

end Semlift.Text
