import Semlift.Shell.Builtin

/-!
Programs beside the language: where a name leads on the search path, and what the programs do that
are known.
-/

namespace Semlift.Shell

open Semlift.Files Semlift.Text Session

/-- Why a command cannot be run, with the status that tells so. -/
structure Refusal where
  reason : String
  status : Nat
  deriving DecidableEq, Repr

def Refusal.notFound : Refusal := ⟨"not found", 127⟩
def Refusal.denied : Refusal := ⟨"Permission denied", 126⟩

/-- The program at a path, with the path. -/
def programAt (s : Session) (path : String) : Except Refusal (String × String) :=
  match s.tree.entry (s.path path) with
  | .ok (.program name) => .ok (path, name)
  | .ok _ => .error .denied
  | .error .tooLong => .error ⟨"File name too long", 126⟩
  | .error _ => .error .notFound

/-- The directories in which programs are looked for. -/
def searchPath (s : Session) : List String :=
  (splitOn ':' ((s.lookup? "PATH").getD "").toList).map String.ofList

/-- The program of a name: that of its path, or the first on the search path. -/
def findProgram (s : Session) (name : String) : Except Refusal (String × String) :=
  if name.isEmpty then .error ⟨"Permission denied", 127⟩
  else if name.toList.contains '/' then programAt s name
  else if nameLimit < name.length then .error ⟨"File name too long", 127⟩
  else
    let found := (searchPath s).findSome? fun d =>
      let path := if d.isEmpty then name else joinPath d name
      match s.tree.find? (s.path path) with
      | some (.program p) => some (.ok (path, p))
      | some (.file _) => some (.error .denied)
      | _ => none
    found.getD (.error .notFound)
where
  nameLimit : Nat := Tree.nameLimit

/-- The names of programs that run scripts. -/
def isShell (program : String) : Bool := program ∈ ["sh", "dash"]

/-! ### What programs do -/

/-- The letters of an argument that is nothing but options of `echo`. -/
def echoOptions? (arg : String) : Option (List Char) :=
  match arg.toList with
  | '-' :: c :: cs => if (c :: cs).all (· ∈ ['n', 'e', 'E']) then some (c :: cs) else none
  | _ => none

/-- Writes its arguments. Unlike the command of the language, it carries out escapes only when asked
to. -/
def echoProgram (s : Session) (args : List String) : Session :=
  let options := args.takeWhile fun a => (echoOptions? a).isSome
  let letters := options.flatMap fun a => (echoOptions? a).getD []
  let escapes := (letters.filter (· != 'n')).getLast? = some 'e'
  let text := (join " " (args.drop options.length)).toList
  let (text, ended) := if escapes then (EscapeStyle.whole true).carryOut 0 text else (text, false)
  let text := if letters.contains 'n' || ended then text else text ++ ['\n']
  (s.emit 1 (String.ofList text)).succeed

/-- A hint where to read on after a complaint about arguments. -/
def helpHint (program : String) : String := "Try '" ++ program ++ " --help' for more information.\n"

/-- A complaint of a program about its arguments. -/
def misused (s : Session) (program message : String) : Session :=
  (s.emit 2 (program ++ ": " ++ message ++ "\n" ++ helpHint program)).withStatus 1

def complaintOf : Format.Complaint → String
  | .notNumber arg => "'" ++ arg ++ "': expected a numeric value"
  | .unfinished arg => "'" ++ arg ++ "': value not completely converted"
  | .outOfRange arg => "'" ++ arg ++ "': Numerical result out of range"

def faultOf : Format.Fault → String
  | .noLetter => "%: invalid conversion specification"
  | .badLetter conversion => conversion ++ ": invalid conversion specification"

def printfProgram (s : Session) (args : List String) : Session :=
  match if args.head? = some "--" then args.drop 1 else args with
  | [] => misused s "printf" "missing operand"
  | f :: args =>
    let w := Format.write .program f args
    let tell (s : Session) (text : String) : Session :=
      (s.emit 2 ("printf: " ++ text ++ "\n")).withStatus 1
    let s := w.complaints.foldl (fun s c => tell s (complaintOf c)) s.succeed
    let unused := if w.fault.isNone && !w.ended then w.left.head? else none
    let s := match w.fault, unused with
      | some fault, _ => tell s (faultOf fault)
      | none, some a =>
        s.emit 2 ("printf: warning: ignoring excess arguments, starting with '" ++ a ++ "'\n")
      | none, none => s
    s.emit 1 (String.ofList w.text)

def testComplaint : Test.Fault → String
  | .notNumber arg => "invalid integer '" ++ arg ++ "'"
  | .unexpected arg => "extra argument '" ++ arg ++ "'"
  | .noArgument op => "missing argument after '" ++ op ++ "'"
  | .noClosing => "')' expected"

def testProgram (name : String) (s : Session) (args : List String) : Session :=
  let complain (text : String) : Session := (s.emit 2 (name ++ ": " ++ text ++ "\n")).withStatus 2
  if name = "[" && args.getLast? ≠ some "]" then complain "missing ']'"
  else
    let args := if name = "[" then args.dropLast else args
    match Test.judge s (args.length + 1) args with
    | .ok b => s.succeedIf b
    | .error fault => complain (testComplaint fault)

/-- Copies files, or what it reads where a minus sign stands and without any. -/
def catProgram (s : Session) (args : List String) : Session :=
  let complain (s : Session) (path reason : String) : Session :=
    (s.emit 2 ("cat: " ++ path ++ ": " ++ reason ++ "\n")).withStatus 1
  let copyInput (s : Session) : Session :=
    match s.readable? 0 with
    | some cs => (s.advance 0 cs.length).emit 1 (String.ofList cs)
    | none =>
      complain (complain s "-" "Bad file descriptor") "closing standard input" "Bad file descriptor"
  (if args.isEmpty then ["-"] else args.filter (· ≠ "--")).foldl (fun s p =>
    if p = "-" then copyInput s
    else
      match s.tree.entry (s.path p) with
      | .ok .directory => complain s p "Is a directory"
      | .ok (.stream n) => if n = 0 then copyInput s else s
      | .ok e => s.emit 1 e.content
      | .error .missing => complain s p "No such file or directory"
      | .error .notDirectory => complain s p "Not a directory"
      | .error .tooLong => complain s p "File name too long") s.succeed

/-- A length of time in millionths of a second. -/
def duration? (arg : String) : Option Nat :=
  match Number.takeLiteral? arg.toList with
  | none => none
  | some (l, rest) =>
    let unit : Option Nat := match rest with
      | [] | ['s'] => some 1
      | ['m'] => some 60
      | ['h'] => some 3600
      | ['d'] => some 86400
      | _ => none
    match unit, l.round .double with
    | some seconds, .finite false m e =>
      some ((m <<< e.toNat) * 1000000 * seconds / (1 <<< (-e).toNat))
    | some _, .infinity false => some 1000000000000000
    | _, _ => none

/-- Lets time go by, and a little more that it takes to start. -/
def sleepProgram (s : Session) (args : List String) : Session :=
  let bad := args.filter fun a => (duration? a).isNone
  if args.isEmpty then misused s "sleep" "missing operand"
  else
    match bad with
    | [] => (pause s (args.foldl (fun n a => n + (duration? a).getD 0) 1000)).succeed
    | bad =>
      let told := bad.foldl (fun text a =>
        text ++ "sleep: invalid time interval '" ++ a ++ "'\n") ""
      (s.emit 2 (told ++ helpHint "sleep")).withStatus 1

def printDirectoryProgram (s : Session) (_ : List String) : Session :=
  (s.emit 1 (s.directory ++ "\n")).succeed

/-- What the program of a name does, if it is known. -/
def program? (name : String) : Option (Session → List String → Session) :=
  match name with
  | "echo" => some echoProgram
  | "printf" => some printfProgram
  | "true" => some fun s _ => s.succeed
  | "false" => some fun s _ => s.withStatus 1
  | "test" | "[" => some (testProgram name)
  | "pwd" => some printDirectoryProgram
  | "cat" => some catProgram
  | "sleep" => some sleepProgram
  | "kill" => builtin? name
  | _ => none

end Semlift.Shell
