import Semlift.Shell.Options

/-!
Commands about variables, parameters and options.
-/

namespace Semlift.Shell

open Semlift.Text Session

/-- A text in quotes such that it is read back as it is: runs of single quotes stand in double
ones. -/
def quotedText (text : String) : String :=
  "'" ++ String.ofList (go text.length text.toList)
where
  go : (fuel : Nat) → List Char → List Char
    | 0, cs => cs ++ ['\'']
    | n + 1, cs =>
      let plain := cs.takeWhile (· ≠ '\'')
      let rest := cs.drop plain.length
      let quotes := rest.takeWhile (· = '\'')
      let after := rest.drop quotes.length
      if rest.isEmpty then plain ++ ['\'']
      else
        plain ++ ['\'', '"'] ++ quotes ++ ['"'] ++
          if after.isEmpty then [] else '\'' :: go n after

/-- The lines that tell variables, in the order of their names. -/
def variableLines (s : Session) (start : String) (wanted : Variable → Bool) : String :=
  let chosen := (s.bindings.filter (wanted ·.2)).mergeSort fun a b => a.1 ≤ b.1
  chosen.foldl (fun text (name, v) =>
    text ++ start ++ name ++ ((v.value.map fun x => "=" ++ quotedText x).getD "") ++ "\n") ""

/-- The name in an argument, and the value behind an equals sign. -/
def splitDeclaration (arg : String) : String × Option String :=
  match splitFirst? '=' arg.toList with
  | some (n, v) => (String.ofList n, some (String.ofList v))
  | none => (arg, none)

/-- Carries out a declaration for each argument, until one goes wrong. -/
def declareAll (command : String) (declare : Session → String → Option String → Session)
    (s : Session) (args : List String) : Session :=
  args.foldl (fun s a =>
    let (name, value) := splitDeclaration a
    if s.flow ≠ .next then s
    else if !isVariableName name then s.abort (command ++ ": " ++ name ++ ": bad variable name")
    else declare s name value) s.succeed

/-- Marks variables, which get a value where one is given; without arguments they are listed. -/
def markVariables (command : String) (mark : Variable → Variable) (marked : Variable → Bool)
    (s : Session) (args : List String) : Session :=
  withOptions s command ['p'] [] args fun options args =>
    if args.isEmpty || !options.isEmpty then
      s.print command (variableLines s (command ++ " ") marked)
    else
      declareAll command (fun s name value =>
        let s := match value with
          | some v => s.setFor command name v
          | none => s
        s.withVariable name (mark ((s.named? name).getD ⟨none, false, false⟩))) s args

def exportVariables : Session → List String → Session :=
  markVariables "export" (fun v => { v with exported := true }) (·.exported)

def keepConstant : Session → List String → Session :=
  markVariables "readonly" (fun v => { v with constant := true }) (·.constant)

/-- Variables of the definition that runs. A minus sign stands for the options. -/
def ownVariables (s : Session) (args : List String) : Session :=
  match s.around.saved with
  | none => s.abort "local: not in a function"
  | some _ =>
    let save (s : Session) (name : String) (old : Option Variable) : Session :=
      { s with around := { s.around with saved := s.around.saved.map (· ++ [(name, old)]) } }
    args.foldl (fun s a =>
      if a = "-" then save s a (some ⟨some (String.ofList s.options), false, false⟩)
      else
        declareAll "local" (fun s name value =>
          let s := save s name (s.named? name)
          match value with
          | some v => s.setFor "local" name v
          | none => s) s [a]) s.succeed

/-- Gives a definition's variables and options back. -/
def restoreSaved (s : Session) (saved : List (String × Option Variable)) : Session :=
  saved.reverse.foldl (fun s (name, v) =>
    if name = "-" then { s with options := ((v.bind (·.value)).getD "").toList }
    else s.restore name v) s

def forget (s : Session) (args : List String) : Session :=
  withOptions s "unset" ['f', 'v'] [] args fun options names =>
    let functions := (options.getLast?.map (·.1)) = some 'f'
    names.foldl (fun s name =>
      if s.flow ≠ .next then s
      else if functions then
        { s with definitions := s.definitions.filter (·.1 != name) }
      else if !isVariableName name then s.abort ("unset: " ++ name ++ ": bad variable name")
      else if s.isConstant name then s.abort ("unset: " ++ name ++ ": is read only")
      else s.unset name) s.succeed

/-! ### Options -/

/-- The names of options with their letters; two have none. -/
def optionNames : List (String × Option Char) :=
  [("errexit", some 'e'), ("noglob", some 'f'), ("ignoreeof", some 'I'), ("interactive", some 'i'),
    ("monitor", some 'm'), ("noexec", some 'n'), ("stdin", some 's'), ("xtrace", some 'x'),
    ("verbose", some 'v'), ("vi", some 'V'), ("emacs", some 'E'), ("noclobber", some 'C'),
    ("allexport", some 'a'), ("notify", some 'b'), ("nounset", some 'u'), ("privileged", some 'p'),
    ("nolog", none), ("debug", none)]

def switchOption (s : Session) (on : Bool) (c : Char) : Session :=
  let others := s.options.filter (· != c)
  { s with options := if on then others ++ [c] else others }

def isOnNamed (s : Session) (letter : Option Char) : Bool := (letter.map s.isOn).getD false

/-- The settings of all options, to read or as commands. -/
def optionLines (s : Session) (asCommands : Bool) : String :=
  if asCommands then
    optionNames.foldl (fun text (name, letter) =>
      text ++ "set " ++ (if isOnNamed s letter then "-" else "+") ++ "o " ++ name ++ "\n") ""
  else
    optionNames.foldl (fun text (name, letter) =>
      text ++ name ++ String.ofList (List.replicate (16 - name.length) ' ') ++
        (if isOnNamed s letter then "on" else "off") ++ "\n") "Current option settings\n"

/-- Switches the options of letters; the name of one may be the next argument. Gives the arguments
behind that. The commands of options complain in the words given. -/
def switchLetters (inFront : String) (on : Bool) : List Char → List String → Session →
    Session × List String
  | [], args, s => (s, args)
  | c :: cs, args, s =>
    if c = 'o' then
      match args with
      | [] => switchLetters inFront on cs [] (s.print "set" (optionLines s !on))
      | name :: args =>
        match optionNames.find? (·.1 == name) with
        | some (_, letter) =>
          let s := match letter with
            | some c => switchOption s on c
            | none => s
          switchLetters inFront on cs args s
        | none => (s.abort (inFront ++ "Illegal option -o " ++ name), args)
    else if c ∈ optionLetters then switchLetters inFront on cs args (switchOption s on c)
    else (s.abort (inFront ++ "Illegal option -" ++ c.toString), args)

/-- Switches options; what follows them are the new parameters. -/
def configure : (fuel : Nat) → Session → List String → Session
  | 0, s, _ => s
  | _ + 1, s, [] => s
  | n + 1, s, a :: more =>
    let behind (s : Session) : Session := if more.isEmpty then s else s.withParams more
    match a.toList with
    | ['-', '-'] => s.withParams more
    | ['-'] => behind (switchOption (switchOption s false 'x') false 'v')
    | sign :: letters =>
      if sign = '-' || sign = '+' then
        let (s, more) := switchLetters "set: " (sign = '-') letters more s
        if s.flow = .next then configure n s more else s
      else s.withParams (a :: more)
    | [] => s.withParams (a :: more)

def setOptions (s : Session) (args : List String) : Session :=
  if args.isEmpty then s.print "set" (variableLines s "" (·.value.isSome))
  else configure (args.length + 1) s.succeed args

/-! ### Parameters -/

def badNumber (s : Session) (command arg : String) : Session :=
  s.abort (command ++ ": Illegal number: " ++ arg)

def shift (s : Session) (args : List String) : Session :=
  let drop (n : Nat) : Session :=
    if n ≤ s.params.length then (s.withParams (s.params.drop n)).succeed
    else s.abort "shift: can't shift that many"
  match args with
  | [] => drop 1
  | a :: _ =>
    match number? a with
    | some n => drop n
    | none => badNumber s "shift" a

/-! ### Aliases -/

/-- Aliases are listed by a number made of their names. -/
def aliasKey (name : String) : Nat :=
  match name.toList with
  | [] => 0
  | c :: cs => (cs.foldl (fun n d => n + d.toNat) (17 * c.toNat)) % 39

def aliasLine (name text : String) : String := name ++ "=" ++ quotedText text ++ "\n"

def setAlias (s : Session) (name text : String) : Session :=
  if s.aliases.any (·.1 == name) then
    { s with aliases := s.aliases.map fun (n, t) => if n = name then (n, text) else (n, t) }
  else { s with aliases := s.aliases ++ [(name, text)] }

def aliases (s : Session) (args : List String) : Session :=
  if args.isEmpty then
    let sorted := s.aliases.mergeSort fun a b => aliasKey a.1 ≤ aliasKey b.1
    s.print "alias" (sorted.foldl (fun text (n, t) => text ++ aliasLine n t) "")
  else
    args.foldl (fun s a =>
      match splitFirst? '=' (a.toList.drop 1) with
      | some (name, text) =>
        setAlias s (String.ofList (a.toList.take 1 ++ name)) (String.ofList text)
      | none =>
        match s.aliases.find? (·.1 == a) with
        | some (_, text) => (s.emit 1 (aliasLine a text))
        | none => (s.emit 2 ("alias: " ++ a ++ " not found\n")).withStatus 1) s.succeed

def dropAliases (s : Session) (args : List String) : Session :=
  withOptions s "unalias" ['a'] [] args fun options names =>
    if !options.isEmpty then { s.succeed with aliases := [] }
    else
      names.foldl (fun s name =>
        if s.aliases.any (·.1 == name) then
          { s with aliases := s.aliases.filter (·.1 != name) }
        else (s.emit 2 ("unalias: " ++ name ++ " not found\n")).withStatus 1) s.succeed

/-! ### The mask of new files -/

/-- A number in octal, of at least so many digits. -/
def octalText (least n : Nat) : String :=
  let ds := Nat.toDigits 8 n
  String.ofList (List.replicate (least - ds.length) '0' ++ ds)

/-- The letters of what three bits allow. -/
def rightsText (bits : Nat) : String :=
  (if 4 ≤ bits % 8 then "r" else "") ++ (if 2 ≤ bits % 4 then "w" else "") ++
    if bits % 2 = 1 then "x" else ""

/-- What a mask leaves to the owner, the group and others. -/
def maskRights (mask : Nat) : String :=
  let allowed := 511 - mask % 512
  "u=" ++ rightsText (allowed / 64) ++ ",g=" ++ rightsText (allowed / 8) ++ ",o=" ++
    rightsText allowed

/-- The bits of what letters allow. -/
def rightsBits? (letters : List Char) : Option Nat :=
  letters.foldlM (fun bits c =>
    if c = 'r' then some (bits ||| 4)
    else if c = 'w' then some (bits ||| 2)
    else if c = 'x' then some (bits ||| 1)
    else none) 0

/-- What is allowed after a clause such as `g-w` is carried out. -/
def applyClause? (allowed : Nat) (clause : List Char) : Option Nat := do
  let who := clause.takeWhile (· ∈ ['u', 'g', 'o', 'a'])
  let op ← (clause.drop who.length).head?
  let bits ← rightsBits? (clause.drop (who.length + 1))
  let all := who.isEmpty || who.contains 'a'
  let places := (if all || who.contains 'u' then 64 else 0) +
    (if all || who.contains 'g' then 8 else 0) + if all || who.contains 'o' then 1 else 0
  if op = '+' then some (allowed ||| (bits * places))
  else if op = '-' then some (allowed - (allowed &&& (bits * places)))
  else if op = '=' then some ((allowed - (allowed &&& (7 * places))) ||| (bits * places))
  else none

def setMask (s : Session) (args : List String) : Session :=
  withOptions s "umask" ['S'] [] args fun options args =>
    match args with
    | [] =>
      let told := if options.isEmpty then octalText 4 s.mask else maskRights s.mask
      s.print "umask" (told ++ "\n")
    | a :: _ =>
      let cs := a.toList
      if (cs.head?.map Char.isDigit).getD false then
        if cs.all fun c => '0' ≤ c && c ≤ '7' then
          let mask := cs.foldl (fun n d => 8 * n + (d.toNat - '0'.toNat)) 0
          { s.succeed with mask := mask % 512 }
        else badNumber s "umask" a
      else
        match (splitOn ',' cs).foldlM applyClause? (511 - s.mask) with
        | some allowed => { s.succeed with mask := 511 - allowed }
        | none => s.abort ("umask: Illegal mode: " ++ a)

end Semlift.Shell
