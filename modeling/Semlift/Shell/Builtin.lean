import Semlift.Shell.Format
import Semlift.Shell.Jobs
import Semlift.Shell.Pattern
import Semlift.Shell.Test

/-!
The commands that a script finds in the language itself, apart from those that run other commands.
Each turns a state into another; its status is in the new one.
-/

namespace Semlift.Shell

open Semlift.Files Semlift.Text Session

/-! ### Output -/

def echo (s : Session) (args : List String) : Session :=
  let (silent, args) := match args with
    | "-n" :: more => (true, more)
    | _ => (false, args)
  let text := (join " " args).toList ++ if silent then [] else ['\n']
  s.print "echo" (String.ofList ((EscapeStyle.whole false).carryOut 0 text).1)

def Format.Complaint.message : Format.Complaint → String
  | .notNumber arg => arg ++ ": expected numeric value"
  | .unfinished arg => arg ++ ": not completely converted"
  | .outOfRange arg => arg ++ ": Numerical result out of range"

def Format.Fault.message : Format.Fault → String
  | .noLetter => "missing format character"
  | .badLetter conversion => conversion ++ ": invalid directive"

/-- Writes by a format. What is wrong is told before the text goes out. -/
def printf (s : Session) (args : List String) : Session :=
  withOptions s "printf" [] [] args fun _ args =>
    match args with
    | [] => s.abort "printf: usage: printf format [arg ...]"
    | f :: args =>
      let w := Format.write .command f args
      let s := w.complaints.foldl (fun s c => s.complain ("printf: " ++ c.message) 1) s.succeed
      let (s, status) := match w.fault with
        | some fault => (s.complain ("printf: " ++ fault.message) 2, 2)
        | none => (s, s.status)
      let s := s.print "printf" (String.ofList w.text)
      if s.status = 0 then s.withStatus status else s

/-! ### Input -/

/-- The first line of a text, its characters marked where a backslash quoted them, how many
characters it takes, and whether its end was found. Without `raw`, a backslash joins lines and
quotes. Zero bytes are passed over. -/
def inputLine (raw : Bool) : (quoted : Bool) → List Char → List Marked × Nat × Bool
  | _, [] => ([], 0, false)
  | quoted, c :: cs =>
    let more (quoted : Bool) (kept : List Marked) : List Marked × Nat × Bool :=
      let (line, n, ended) := inputLine raw quoted cs
      (kept ++ line, n + 1, ended)
    if c.toNat = 0 then more quoted []
    else if quoted then more false (if c = '\n' then [] else [(c, true)])
    else if c = '\\' && !raw then more true []
    else if c = '\n' then ([], 1, true)
    else more false [(c, false)]

def isBreak (separators : List Char) (e : Marked) : Bool := !e.2 && e.1 ∈ separators

/-- A separator that is a blank. -/
def isGap (separators : List Char) (e : Marked) : Bool := isBreak separators e && isBlank e.1

/-- A line without the separating blanks at its end. -/
def dropGaps (separators : List Char) (line : List Marked) : List Marked :=
  (line.reverse.dropWhile (isGap separators)).reverse

/-- The last field of a line: one separator at its end belongs to it only if there is another one
in it. -/
def lastField (separators : List Char) (line : List Marked) : List Marked :=
  let line := dropGaps separators (line.dropWhile (isGap separators))
  match line.reverse with
  | e :: before =>
    let before := dropGaps separators before.reverse
    if isBreak separators e && !before.any (isBreak separators) then before else line
  | [] => []

/-- Gives the fields of a line to names; the last name gets all that is left. -/
def shareOut (separators : List Char) : (names : List String) → List Marked →
    List (String × String)
  | [], _ => []
  | [name], line => [(name, String.ofList ((lastField separators line).map (·.1)))]
  | name :: more, line =>
    let line := line.dropWhile (isGap separators)
    let field := line.takeWhile fun e => !isBreak separators e
    let after := (line.drop field.length).dropWhile (isGap separators)
    let after := match after with
      | e :: rest => if isBreak separators e then rest else after
      | [] => []
    (name, String.ofList (field.map (·.1))) :: shareOut separators more after

def readLine (s : Session) (args : List String) : Session :=
  withOptions s "read" ['r'] ['p'] args fun options names =>
    let raw := options.any (·.1 == 'r')
    if names.isEmpty then s.abort "read: arg count"
    else
      let (line, taken, ended) := inputLine raw false ((s.readable? 0).getD [])
      let s := s.advance 0 taken
      (shareOut s.separators names line).foldl (fun s (n, v) =>
        if s.flow = .next then s.give "read" n v else s) (s.succeedIf ended)

/-! ### Flow -/

/-- Goes on elsewhere with the status that an argument names, or a usual one. -/
def leaveWith (s : Session) (name : String) (flow : Flow) (usual : Nat) (args : List String) :
    Session :=
  match args with
  | [] => { s.withStatus usual with flow := flow }
  | a :: _ =>
    match number? a with
    | some n => { s.withStatus (n % 256) with flow := flow }
    | none => badNumber s name a

/-- Ends the script. In the answer to a signal, the usual status is that from before it. -/
def exit (s : Session) (args : List String) : Session :=
  leaveWith s "exit" .exit (s.around.interrupted.getD s.status) args

/-- Ends the definition or the script in a file that runs, or all of it. -/
def giveBack (s : Session) (args : List String) : Session :=
  leaveWith s "return" (.back !args.isEmpty) s.status args

/-- Leaves loops, as many as there are at most; without one nothing is done. -/
def leaveLoops (command : String) (flow : Nat → Flow) (s : Session) (args : List String) :
    Session :=
  let leave (n : Nat) : Session :=
    let n := min n s.around.loops
    if n = 0 then s.succeed else { s.succeed with flow := flow n }
  match args with
  | [] => leave 1
  | a :: _ =>
    match number? a with
    | some (n + 1) => leave (n + 1)
    | _ => badNumber s command a

/-! ### Directories -/

/-- A path without empty names and dots; two dots lead up. -/
def plainPath (path : String) : String :=
  "/" ++ join "/" ((names path).foldl (fun up n =>
    if n.isEmpty || n == "." then up
    else if n == ".." then up.dropLast
    else up ++ [n]) [])

/-- The directory that a name means on the search path for directories, and whether it was found
there by a part of that path. -/
def directoryOf (s : Session) (target : String) : String × Bool :=
  let parts := splitOn ':' ((s.lookup? "CDPATH").getD "").toList
  let isPlain := !startsWith "/" target && target ≠ "." && target ≠ ".." &&
    !startsWith "./" target && !startsWith "../" target
  let found := if isPlain then
      parts.find? fun p =>
        !p.isEmpty && s.tree.isDirectory (s.path (joinPath (String.ofList p) target))
    else none
  match found with
  | some p => (joinPath (String.ofList p) target, true)
  | none => (target, false)

def changeDirectory (s : Session) (args : List String) : Session :=
  withOptions s "cd" ['L', 'P'] [] args fun _ args =>
    let (target, back) := match args.head? with
      | some "-" => ((s.lookup? "OLDPWD").getD "", true)
      | some d => (d, false)
      | none => ((s.lookup? "HOME").getD "", false)
    let (target, searched) := directoryOf s target
    let path := plainPath (joinPath s.directory (if target.isEmpty then "." else target))
    if s.tree.isDirectory path then
      let s := ((s.assign "OLDPWD" s.directory).assign "PWD" path).succeed
      let s := { s with directory := path }
      if back || searched then s.print "cd" (path ++ "\n") else s
    else s.abort ("cd: can't cd to " ++ target)

def printDirectory (s : Session) (args : List String) : Session :=
  withOptions s "pwd" ['L', 'P'] [] args fun _ _ => s.print "pwd" (s.directory ++ "\n")

/-! ### The system -/

/-- The resources that a process may be kept from using up, with what is allowed. -/
def limits : List (Char × String) :=
  [('t', "unlimited"), ('f', "unlimited"), ('d', "unlimited"), ('s', "8192"), ('c', "0"),
    ('m', "unlimited"), ('l', "8192"), ('p', "unlimited"), ('n', "1048576"), ('v', "unlimited"),
    ('w', "unlimited"), ('r', "0")]

def tellLimit (s : Session) (args : List String) : Session :=
  withOptions s "ulimit" (['H', 'S', 'a'] ++ limits.map (·.1)) [] args fun options args =>
    let letter := ((options.filter fun o => o.1 ≠ 'H' && o.1 ≠ 'S').getLast?.map (·.1)).getD 'f'
    if args.isEmpty then
      s.print "ulimit" (((limits.find? (·.1 == letter)).map (·.2)).getD "unlimited" ++ "\n")
    else s.succeed

/-- The times that the script and its processes have taken. -/
def tellTimes (s : Session) (_ : List String) : Session :=
  let line := "0m0.000000s 0m0.000000s\n"
  s.print "times" (line ++ line)

/-- The commands whose errors end a script and that keep the assignments in front of them. -/
def specialBuiltins : List (String × (Session → List String → Session)) :=
  [(":", fun s _ => s.succeed), ("exit", exit), ("return", giveBack), ("shift", shift),
    ("set", setOptions), ("trap", trap), ("export", exportVariables), ("readonly", keepConstant),
    ("unset", forget), ("local", ownVariables), ("break", leaveLoops "break" .leave),
    ("continue", leaveLoops "continue" .again), ("times", tellTimes)]

def regularBuiltins : List (String × (Session → List String → Session)) :=
  [("true", fun s _ => s.succeed), ("false", fun s _ => s.withStatus 1), ("echo", echo),
    ("printf", printf), ("test", (test · "test")), ("[", bracketTest), ("read", readLine),
    ("kill", kill), ("cd", changeDirectory), ("chdir", changeDirectory), ("pwd", printDirectory),
    ("wait", wait), ("jobs", listJobs), ("fg", resumeJob "fg"),
    ("bg", resumeJob "bg"), ("getopts", tellOption), ("alias", aliases), ("unalias", dropAliases),
    ("umask", setMask), ("ulimit", tellLimit)]

/-- Commands that run others, besides those that are special. -/
def runningRegulars : List String := ["command", "type", "hash"]

def isBuiltin (name : String) : Bool :=
  name ∈ specialNames || regularBuiltins.any (·.1 == name) || name ∈ runningRegulars

/-- The command of a name. An error of one that is not special does not end the script. -/
def builtin? (name : String) : Option (Session → List String → Session) :=
  match specialBuiltins.find? (·.1 == name) with
  | some (_, run) => some run
  | none => (regularBuiltins.find? (·.1 == name)).map fun (_, run) s args =>
    let after := run s args
    if after.flow = .broken then { after with flow := .next } else after

end Semlift.Shell
