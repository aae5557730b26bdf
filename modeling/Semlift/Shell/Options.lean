import Semlift.Shell.State

/-!
Options of commands: letters behind a minus sign at the beginning of the arguments.
-/

namespace Semlift.Shell

open Semlift.Text

/-! ### Options of the commands of the language -/

inductive OptionFault where
  | unknown (letter : Char)
  | noArgument (letter : Char)
  deriving DecidableEq, Repr

def OptionFault.message : OptionFault → String
  | .unknown c => "Illegal option -" ++ c.toString
  | .noArgument c => "No arg for -" ++ c.toString ++ " option"

/-- The options among letters and, for the last one, its argument from the rest of the letters or
the next argument. Gives the options and the arguments behind them. -/
def lettersOf (plain valued : List Char) : List Char → List String →
    Except OptionFault (List (Char × String) × List String)
  | [], args => .ok ([], args)
  | c :: more, args =>
    if c ∈ valued then
      match more, args with
      | [], [] => .error (.noArgument c)
      | [], a :: args => .ok ([(c, a)], args)
      | more, args => .ok ([(c, String.ofList more)], args)
    else if c ∈ plain then
      (lettersOf plain valued more args).map fun (os, args) => ((c, "") :: os, args)
    else .error (.unknown c)

/-- The options at the beginning of arguments, and the arguments behind them. -/
def takeOptions (plain valued : List Char) : (fuel : Nat) → List String →
    Except OptionFault (List (Char × String) × List String)
  | 0, args => .ok ([], args)
  | _ + 1, [] => .ok ([], [])
  | n + 1, a :: more =>
    match a.toList with
    | ['-', '-'] => .ok ([], more)
    | '-' :: c :: cs => do
      let (os, args) ← lettersOf plain valued (c :: cs) more
      let (others, args) ← takeOptions plain valued n args
      return (os ++ others, args)
    | _ => .ok ([], a :: more)

/-- Runs a command with its options and arguments, or complains of the options. -/
def withOptions (s : Session) (command : String) (plain valued : List Char) (args : List String)
    (run : List (Char × String) → List String → Session) : Session :=
  match takeOptions plain valued (args.length + 1) args with
  | .ok (os, args) => run os args
  | .error fault => s.abort (command ++ ": " ++ fault.message)

/-! ### Options of a script -/

/-- What was found among arguments: an option with its argument, or none more. -/
structure FoundOption where
  /-- What is told of the option: its letter, a question mark, or a colon for a missing argument. -/
  letter : Char
  /-- Its argument: a new one, none, or the last one still. -/
  argument : Option (Option String)
  complaint : Option String
  /-- The next argument to look at, and the place in the one in front of it. -/
  next : Nat
  inside : Option Nat
  done : Bool

/-- Whether a letter is wanted, and with an argument. -/
def wanted? (c : Char) : List Char → Option Bool
  | [] => none
  | d :: ':' :: more => if c = d then some true else wanted? c more
  | d :: more => if c = d then some false else wanted? c more

/-- The letters to look at: the rest of an argument, or a new one. -/
def lettersAt? (args : List String) (next : Nat) (inside : Option Nat) :
    Option (List Char × Nat) :=
  let rest := match inside with
    | some n => ((args[next - 2]?.getD "").toList).drop n
    | none => []
  if !rest.isEmpty then some (rest, next)
  else
    match (args[next - 1]?.getD "").toList with
    | '-' :: c :: cs => some (c :: cs, next + 1)
    | _ => none

/-- Looks for the next option. Letters that are wanted with an argument have a colon behind them; a
colon in front of all says that nothing is complained of. -/
def findOption (wanted : List Char) (args : List String) (next : Nat) (inside : Option Nat) :
    FoundOption :=
  let silent := wanted.head? = some ':'
  match lettersAt? args next inside with
  | none => ⟨'?', none, none, next, none, true⟩
  | some ([], next) => ⟨'?', none, none, next, none, true⟩
  | some (c :: rest, next) =>
    let place := (args[next - 2]?.getD "").length - rest.length
    if c = '-' && rest.isEmpty && place = 2 then ⟨'?', none, none, next, none, true⟩
    else
      let after := if rest.isEmpty then none else some place
      match wanted? c wanted with
      | none =>
        if silent then ⟨'?', some (some c.toString), none, next, some place, false⟩
        else ⟨'?', some none, some ("Illegal option -" ++ c.toString), next, some place, false⟩
      | some false => ⟨c, some (some ""), none, next, after, false⟩
      | some true =>
        if !rest.isEmpty then ⟨c, some (some (String.ofList rest)), none, next, none, false⟩
        else
          match args[next - 1]? with
          | some a => ⟨c, some (some a), none, next + 1, none, false⟩
          | none =>
            if silent then ⟨':', some (some c.toString), none, next, none, false⟩
            else
              ⟨'?', some none, some ("No arg for -" ++ c.toString ++ " option"), next, none, false⟩

/-- Tells a script the next option of some arguments, or of its parameters. -/
def tellOption (s : Session) : List String → Session
  | wanted :: name :: args =>
    let args := if args.isEmpty then s.params else args
    let s := if args.length + 1 < s.nextOption then s.optionsFrom 1 else s
    let found := findOption wanted.toList args s.nextOption s.inOption
    let s := match found.complaint with
      | some c => s.emit 2 (c ++ "\n")
      | none => s
    let s := match found.argument with
      | some (some a) => s.assign "OPTARG" a
      | some none => s.unset "OPTARG"
      | none => s
    let s := s.assign "OPTIND" (Number.natText found.next)
    let s := s.give "getopts" name found.letter.toString
    let s := { s with nextOption := found.next, inOption := found.inside }
    if s.flow = .next then s.succeedIf !found.done else s
  | _ => s.complain "getopts: Usage: getopts optstring var [arg...]" 2

end Semlift.Shell
