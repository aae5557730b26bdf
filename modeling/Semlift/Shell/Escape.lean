import Semlift.Text.Byte

/-!
Escapes with backslashes in texts that are written.
-/

namespace Semlift.Shell

open Semlift.Text

def isOctalDigit (c : Char) : Bool := '0' ≤ c && c ≤ '7'

def octalValue (ds : List Char) : Nat := ds.foldl (fun n d => 8 * n + (d.toNat - '0'.toNat)) 0

/-- The character that a letter after a backslash stands for. -/
def control? (c : Char) : Option Char :=
  if c = '\\' then some '\\'
  else if c = 'a' then some '\x07'
  else if c = 'b' then some '\x08'
  else if c = 'e' then some '\x1b'
  else if c = 'f' then some '\x0c'
  else if c = 'n' then some '\n'
  else if c = 'r' then some '\r'
  else if c = 't' then some '\t'
  else if c = 'v' then some '\x0b'
  else none

/-- Which escapes a text may have. -/
structure EscapeStyle where
  /-- A zero may stand in front of the three digits of an octal number. -/
  leadingZero : Bool
  /-- A number may be hexadecimal, and a double quote may be escaped. -/
  hexadecimal : Bool
  /-- The letter `c` ends all output. -/
  stops : Bool

/-- What an escape stands for. -/
inductive Escape where
  /-- A character, for so many characters of the text. -/
  | char (c : Char) (taken : Nat)
  | stop

/-- The escape behind a backslash. A backslash that begins none stands for itself. -/
def EscapeStyle.read (e : EscapeStyle) (cs : List Char) : Escape :=
  let byte (n taken : Nat) : Escape := .char (Char.ofNat (n % 256)) taken
  match cs with
  | [] => .char '\\' 0
  | c :: rest =>
    let plain : Escape := match control? c with
      | some d => .char d 1
      | none => .char '\\' 0
    if c = 'c' && e.stops then .stop
    else if c = '0' && e.leadingZero then
      let ds := (rest.take 3).takeWhile isOctalDigit
      byte (octalValue ds) (ds.length + 1)
    else if isOctalDigit c then
      let ds := (cs.take 3).takeWhile isOctalDigit
      byte (octalValue ds) ds.length
    else if e.hexadecimal then
      let ds := (rest.take 2).takeWhile isHexDigit
      if c = 'x' && !ds.isEmpty then
        byte (ds.foldl (fun n d => 16 * n + hexValue d) 0) (ds.length + 1)
      else if c = '"' then .char '"' 1
      else plain
    else plain

/-- A text with its escapes carried out, after passing over some characters, and whether one ended
it early. -/
def EscapeStyle.carryOut (e : EscapeStyle) : (pass : Nat) → List Char → List Char × Bool
  | _, [] => ([], false)
  | n + 1, _ :: cs => e.carryOut n cs
  | 0, c :: cs =>
    let (d, taken, ended) := if c = '\\' then
        match e.read cs with
        | .char d taken => (d, taken, false)
        | .stop => (c, 0, true)
      else (c, 0, false)
    if ended then ([], true)
    else
      let (text, ended) := e.carryOut taken cs
      (d :: text, ended)

/-- In a text that is written as a whole. -/
def EscapeStyle.whole (hexadecimal : Bool) : EscapeStyle := ⟨true, hexadecimal, true⟩

end Semlift.Shell
