import Semlift.Shell.Expand
import Semlift.Shell.Meaning
import Semlift.Shell.Process
import Semlift.Shell.Reader
import Semlift.Shell.Redirection

/-!
Running scripts: words are expanded and split into fields, the first field names a command, and the
flow of control goes by the status of commands. The fuel bounds nesting and rounds of loops alike.
-/

namespace Semlift.Shell

open Semlift.Files Semlift.Text

/-! ### Surroundings -/

/-- How a script goes on behind a definition or a file that it runs. -/
def Flow.outside : Flow → Flow
  | .back _ => .next
  | f => f

/-- Whether a loop goes on after a round, and the state it goes on with. -/
def afterRound (s : Session) : Bool × Session :=
  match s.flow with
  | .next => (true, s)
  | .leave n => (false, { s with flow := if n ≤ 1 then .next else .leave (n - 1) })
  | .again n => if n ≤ 1 then (true, { s with flow := .next })
    else (false, { s with flow := .again (n - 1) })
  | _ => (false, s)

namespace Session

/-- A state in front of a command that is not the last one. -/
def early (s : Session) : Session := { s with around := { s.around with last := false } }

/-- A state in which a failure is expected. -/
def testing (s : Session) : Session :=
  { s with around := { s.around with tested := true, last := false } }

/-- A state in which no failure is expected. -/
def strict (s : Session) : Session := { s with around := { s.around with tested := false } }

/-- A state whose loops and expectations are those around another. -/
def backIn (s old : Session) : Session :=
  { s with around := { s.around with
      loops := old.around.loops
      tested := old.around.tested
      last := old.around.last } }

/-- The state around a round of a loop. -/
def enterLoop (s : Session) : Session :=
  { s with around := { s.around with loops := s.around.loops + 1, last := false } }

/-- An unexpected failure ends the script if it is so wanted. -/
def checked (s : Session) : Session :=
  if s.flow = .next && s.status ≠ 0 && s.isOn 'e' && !s.around.tested then { s with flow := .exit }
  else s

/-- How many definitions may run inside each other. -/
def depthLimit : Nat := 1000

/-- The state in which the body of a definition begins to run. -/
def enter (s : Session) (args : List String) : Session :=
  { s.withParams args with
    around := { s.around with
      loops := 0
      depth := s.around.depth + 1
      saved := some []
      last := false } }

/-- The state after the body of a definition that was begun in another state. -/
def leaveBody (s old : Session) : Session :=
  { restoreSaved s (s.around.saved.getD []) with
    params := old.params
    nextOption := old.nextOption
    inOption := old.inOption
    around := old.around
    flow := s.flow.outside }

/-- The state in which an answer to a signal, or to the end, begins to run. -/
def interrupt (s : Session) : Session :=
  { s with around :=
    { s.around with tested := false, last := false, interrupted := some s.status } }

/-- The state after an answer to a signal: it goes on with the status from before, unless the answer
leaves the script or the definition that runs. -/
def resume (s old : Session) : Session :=
  let s := { s.backIn old with around.interrupted := old.around.interrupted }
  match s.flow with
  | .next | .leave _ | .again _ | .back false => s.withStatus old.status
  | _ => s

/-- Shows a command before it is run, where errors go in another state. -/
def trace (s old : Session) (start : String) (words : List String) : Session :=
  match old.channel? 2 with
  | none => s
  | some channel =>
    match s.world.write? channel ⟨s.clock, s.process, start ++ join " " words ++ "\n"⟩ with
    | some world => { s with world := world }
    | none => s

end Session

/-! ### Commands that are told apart before they run -/

/-- Whether the assignments among the arguments of a command are not split. -/
def declares : List String → Bool
  | "command" :: more => declares more
  | name :: _ => name ∈ ["export", "readonly", "local"]
  | [] => false

/-- The name and the value of a word that is an assignment. -/
def asAssignment? : Word → Option (String × Word)
  | .text t false :: more =>
    match splitFirst? '=' t.toList with
    | some (name, value) =>
      if Reading.isName name then
        some (String.ofList name, .text (String.ofList value) false :: more)
      else none
    | none => none
  | _ => none

/-- Whether redirections of a command are there to stay. -/
def keepsStreams (fields : List String) : Bool :=
  fields = ["exec"] || fields = ["command", "exec"]

/-- Whether an unexpected failure of a command may end the script. -/
def Command.mayEnd : Command → Bool
  | .simple .. | .subshell _ | .redirected _ (.subshell _) _ | .pipe .. => true
  | _ => false

/-- The script in a file, with its path. A name alone is looked for on the search path. -/
def findScript (s : Session) (name : String) : Except String (String × String) :=
  if name.toList.contains '/' then
    match s.tree.read? (s.path name) with
    | some script => .ok (name, script)
    | none => .error ("cannot open " ++ name ++ ": No such file")
  else
    let found := (searchPath s).findSome? fun d =>
      let path := joinPath d name
      match s.tree.find? (s.path path) with
      | some (.file script) => some (path, script)
      | _ => none
    match found with
    | some f => .ok f
    | none => .error (name ++ ": not found")

/-- The fuel with which a loop waits for what happens beside it. -/
def lastRounds : Nat := 2000

mutual

/-- The atoms of a word. A command in it may complain, and a fault ends the script. -/
def expand (aim : Aim) : (fuel : Nat) → Session → Word → List Atom × Session
  | 0, s, _ => ([], s)
  | _ + 1, s, [] => ([], s)
  | n + 1, s, p :: more =>
    let (first, s) := expandPiece aim n s p
    if s.flow ≠ .next then (first, s)
    else
      let (others, s) := expand aim n s more
      (first ++ others, s)

def expandPiece (aim : Aim) : (fuel : Nat) → Session → Piece → List Atom × Session
  | 0, s, _ => ([], s)
  | n + 1, s, p =>
    match p with
    | .text t quoted => (textAtoms aim quoted t, s)
    | .variable name quoted => variableAtoms s aim name quoted
    | .length name quoted =>
      (valueAtoms quoted (Number.natText ((s.value? name).getD "").length), checkSet s name)
    | .cut name cut pattern quoted =>
      let (atoms, s) := expand .text n s (homesIn s false true (Reading.joinLiterals pattern))
      (cutAtoms s aim name quoted cut (patternOf (unsplit atoms)),
        if s.flow = .next then checkSet s name else s)
    | .guarded name purpose emptyIsMissing word quoted =>
      let word := Reading.joinLiterals word
      let word := if quoted then word else homesIn s false true word
      let inPlace (s : Session) : List Atom × Session :=
        expand (if aim = .text then .text else .part) n s word
      let seen := if purpose = .instead then .text else aim
      match purpose, present? s seen name quoted emptyIsMissing with
      | .instead, none => (parameterAtoms s name quoted "", s)
      | .instead, some _ => inPlace s
      | _, some _ => variableAtoms s aim name quoted
      | .fallback, none => inPlace s
      | .assign, none =>
        let (text, s) := expandText n s word
        (valueAtoms quoted text, if s.flow = .next then s.set name text else s)
      | .complain, none =>
        let (text, s) := expandText n s word
        if s.flow ≠ .next then ([], s)
        else
          ([], s.fail (name ++ ": " ++
            if word.isEmpty then missingMessage emptyIsMissing else text))
    | .arithmetic e quoted =>
      let (atoms, s) := expand .text n s e
      let text := (unsplit atoms).map (·.1)
      if s.flow ≠ .next then ([], s)
      else
        match (Arith.read text).value s.value? [] with
        | .ok (v, assigned) =>
          let s := assigned.reverse.foldl (fun s (name, v) => s.set name (Number.intText v.toInt)) s
          (valueAtoms quoted (Number.intText v.toInt), s)
        | .error fault => ([], s.fail (fault.message (String.ofList text)))
    | .output c quoted =>
      let child := s.fork.strict
      let (channel, world) := child.world.openChannel (.collected [])
      let ended := finish n (exec n ({ child with world := world }.connect 1 channel) c)
      let (text, world) := ended.world.collect channel
      let after := s.after { ended with world := world, clock := ended.overAt }
      (valueAtoms quoted (insertedText text),
        { after.withStatus s.status with inserted := some after.status })
    | .senseless => ([], s.fail "Bad substitution")

/-- The fields of a word. -/
def expandFields : (fuel : Nat) → Session → Word → List String × Session
  | 0, s, _ => ([], s)
  | n + 1, s, w =>
    let (atoms, s) := expand .fields n s (homesIn s false true w)
    if s.flow ≠ .next then ([], s)
    else (((Splitting.start s.separators).fields atoms).flatMap (·.paths s), s)

/-- The fields of words behind others. Those of a command may declare variables. -/
def expandAll (ofCommand : Bool) : (fuel : Nat) → (fields : List String) → Session → List Word →
    List String × Session
  | 0, fields, s, _ => (fields, s)
  | _ + 1, fields, s, [] => (fields, s)
  | n + 1, fields, s, w :: more =>
    let (new, s) :=
      match if ofCommand && declares fields then asAssignment? w else none with
      | some (name, value) =>
        let (text, s) := expandText n s (homesIn s true true value)
        ([name ++ "=" ++ text], s)
      | none => expandFields n s w
    if s.flow ≠ .next then ([], s) else expandAll ofCommand n (fields ++ new) s more

/-- The text of a word that is not split. -/
def expandText : (fuel : Nat) → Session → Word → String × Session
  | 0, s, _ => ("", s)
  | n + 1, s, w =>
    let (atoms, s) := expand .text n s w
    ((unsplit atoms).text, s)

/-- Makes assignments, for programs to see if so wanted, and gives their words. -/
def assignAll (exported : Bool) : (fuel : Nat) → Session → List (String × Word) →
    List String × Session
  | 0, s, _ => ([], s)
  | _ + 1, s, [] => ([], s)
  | n + 1, s, (name, w) :: more =>
    let (value, s) := expandText n s (homesIn s true true w)
    if s.flow ≠ .next then ([], s)
    else
      let s := s.set name value
      if s.flow ≠ .next then ([], s)
      else
        let s := match exported, s.named? name with
          | true, some v => s.withVariable name { v with exported := true }
          | _, _ => s
        let (words, s) := assignAll exported n s more
        ((name ++ "=" ++ value) :: words, s)

/-- The redirections of words. -/
def expandRedirects : (fuel : Nat) → Session → List Redirect → List Redirection × Session
  | 0, s, _ => ([], s)
  | _ + 1, s, [] => ([], s)
  | n + 1, s, r :: more =>
    let (new, s) : Option Redirection × Session :=
      match r with
      | .file stream opening w =>
        let (path, s) := expandText n s (homesIn s false true w)
        (some (.file stream opening path), s)
      | .here stream w =>
        let (content, s) := expandText n s w
        (some (.text stream content), s)
      | .sameAs stream w =>
        let (text, s) := expandText n s w
        ((Redirection.other? text).map (.sameAs stream), s)
    if s.flow ≠ .next then ([], s)
    else
      match new with
      | none => ([], s.fail "Syntax error: Bad fd number")
      | some r =>
        let (others, s) := expandRedirects n s more
        (r :: others, s)

/-- Runs the lines of a text up to a fault in it, if there is one. -/
def runLines : (fuel : Nat) → (begun : Bool) → Cursor → Session → Session
  | 0, _, _, s => s
  | n + 1, begun, c, s =>
    match nextLine { c with aliases := s.aliases } with
    | .error (line, fault) => { s with line := line }.fail fault.message
    | .ok (none, _) => if begun then s else s.succeed
    | .ok (some command, c) =>
      let s := exec n s command
      if s.flow = .next then runLines n true c s else s

/-- Runs a text as a part of a script; complaints say where that is. -/
def runText : (fuel : Nat) → (place script : String) → Session → Session
  | 0, _, _, s => s
  | n + 1, place, script, s =>
    let inside := { s with around := { s.around with place := place, last := false } }
    let after := runLines n false (.ofText script.toList 1 s.aliases) inside
    { after.backIn s with around.place := s.around.place }

/-- Runs the script of a file in place of the command that names it. -/
def runFile : (fuel : Nat) → Session → List String → Session
  | 0, s, _ => s
  | _ + 1, s, [] => s.succeed
  | n + 1, s, name :: _ =>
    match findScript s name with
    | .error message => s.abort (".: " ++ message)
    | .ok (path, script) =>
      let after := (runText n (path ++ ": ") script s.strict).backIn s
      { after with flow := after.flow.outside }

/-- Runs what a script answers to the signals that have arrived, in the order of their numbers. -/
def answer : (fuel : Nat) → Session → Session
  | 0, s => s
  | n + 1, s =>
    if s.flow ≠ .next then s
    else
      match s.pending.min? with
      | none => s
      | some signal =>
        let s := { s with pending := s.pending.filter (· ≠ signal) }
        match s.trap? signal with
        | none => answer n s
        | some action => answer n ((runText n s.around.place action s.interrupt).resume s)

/-- Runs what a process does at its end, and the processes beside it. Its status is from before that
unless it is told then. -/
def finish : (fuel : Nat) → Session → Session
  | 0, s => s
  | n + 1, s =>
    match s.isKilled, s.traps.find? (·.1 == 0) with
    | false, some (_, action) =>
      let others := s.traps.filter (·.1 ≠ 0)
      let after := runText n "" action { s.interrupt with traps := others, flow := .next }
      match after.flow with
      | .exit | .broken | .killed _ => after.forceAll
      | _ => (after.withStatus s.status).forceAll
    | _, _ => s.forceAll

/-- Runs a program in a process of its own, which ends with it. -/
def runProgram : (fuel : Nat) → Session → (name program : String) → List String → Session
  | 0, s, _, _, _ => s
  | n + 1, s, name, program, args =>
    let s := { s with clock := s.clock + Session.beginTime }
    if isShell program then
      let (s, script) := s.startScript name args
      finish n (if s.flow = .next then runText n "" script s else s)
    else
      match program? program with
      | some run => run s args
      | none => s.report (name ++ ": " ++ Refusal.notFound.reason) Refusal.notFound.status

/-- Runs a program in place of the script, which is over then. -/
def runInPlace : (fuel : Nat) → Session → List String → Session
  | 0, s, _ => s
  | _ + 1, s, [] => s.succeed
  | n + 1, s, name :: args =>
    match findProgram s name with
    | .error refusal =>
      { s.complain ("exec: " ++ name ++ ": " ++ refusal.reason) refusal.status with flow := .exit }
    | .ok (_, program) =>
      s.replacedBy (runProgram n s name program args)

/-- Runs a command that is no definition, whose errors do not end the script, or tells what it is.
-/
def runPlainly : (fuel : Nat) → Session → List String → Session
  | 0, s, _ => s
  | n + 1, s, args =>
    match takeOptions ['p', 'v', 'V'] [] (args.length + 1) args with
    | .error fault => s.complain ("command: " ++ fault.message) 2
    | .ok (_, []) => s.succeed
    | .ok (options, name :: args) =>
      match options.getLast? with
      | some ('v', _) => locate s name
      | some ('V', _) => describe "command" s name
      | _ =>
        let after := invoke n s false name args
        if after.flow = .broken then { after with flow := .next } else after

/-- Runs the command that fields name. Definitions may be left out. -/
def invoke : (fuel : Nat) → Session → (withDefinitions : Bool) → String → List String → Session
  | 0, s, _, _, _ => s
  | n + 1, s, withDefinitions, name, args =>
    let defined := if withDefinitions then s.definitions.find? (·.1 == name) else none
    match defined, builtin? name with
    | some (_, body), _ =>
      if s.around.depth < Session.depthLimit then (exec n (s.enter args) body).leaveBody s
      else
        let limit := Number.natText Session.depthLimit
        s.fail ("Maximum function recursion depth (" ++ limit ++ ") reached")
    | none, some run => run s args
    | none, none =>
      match name with
      | "eval" => runText n "eval: " (join " " args) s
      | "." => runFile n s args
      | "exec" => runInPlace n s args
      | "command" => runPlainly n s args
      | "type" => describeAll s args
      | "hash" => { trackAll s args with flow := .next }
      | _ =>
        match findProgram s name with
        | .error refusal => s.report (name ++ ": " ++ refusal.reason) refusal.status
        | .ok (path, program) =>
          let s := track s name path
          if s.around.last && !s.answers then s.replacedBy (runProgram n s name program args)
          else s.after (runProgram n s.fork name program args)

def execSimple : (fuel : Nat) → Session → List (String × Word) → List Word → List Redirect → Session
  | 0, s, _, _, _ => s
  | n + 1, s, assignments, words, rs =>
    let (fields, s) := expandAll true n [] { s with inserted := none } words
    if s.flow ≠ .next then s
    else
      let (rs, s) := expandRedirects n s rs
      if s.flow ≠ .next then s
      else
        let isSpecial := (fields.head?.map (specialNames.contains ·)).getD false
        match Redirection.carryOutAll s rs with
        | .error failed => if isSpecial then { failed with flow := .broken } else failed
        | .ok led =>
          let lasting := fields.isEmpty || isSpecial
          let exported := !lasting || (fields.head? = some "exec" && 1 < fields.length)
          let (assigned, inside) := assignAll exported n led assignments
          let after :=
            if inside.flow ≠ .next then inside
            else
              let shown := assigned ++ fields
              let inside := if s.isOn 'x' && !shown.isEmpty then
                  inside.trace s ((inside.lookup? "PS4").getD "") shown
                else inside
              match fields with
              | [] => inside.withStatus (inside.inserted.getD 0)
              | name :: args => invoke n inside true name args
          let after := if lasting then after
            else assignments.foldl (fun s (name, _) => s.restore name (led.named? name)) after
          if keepsStreams fields && after.flow = .next then after
          else Redirection.undo after s rs

/-- A loop whose last round ended with a status. -/
def loop (succeeds : Bool) (condition body : Command) : (fuel : Nat) → (last : Nat) → Session →
    Session
  | 0, _, s => s
  | n + 1, last, s =>
    let s := if n = lastRounds then linger s else s
    let tested := if s.flow = .next then (exec n s.testing condition).backIn s else s
    if tested.flow ≠ .next then
      let (goesOn, s) := afterRound tested
      if goesOn then loop succeeds condition body n last s else s
    else if (tested.status == 0) != succeeds then tested.withStatus last
    else
      let (goesOn, s) := afterRound (exec n tested body)
      if goesOn then loop succeeds condition body n s.status s else s

/-- A loop over values whose last round ended with a status. -/
def forEach (name : String) (body : Command) : (fuel : Nat) → (last : Nat) → List String →
    Session → Session
  | 0, _, _, s => s
  | _ + 1, last, [], s => s.withStatus last
  | n + 1, _, v :: more, s =>
    let s := s.set name v
    if s.flow ≠ .next then s
    else
      let (goesOn, s) := afterRound (exec n s body)
      if goesOn then forEach name body n s.status more s else s

/-- The first arm with a pattern that a text has. -/
def chooseArm : (fuel : Nat) → Session → String → List (List Word × Command) → Session
  | 0, s, _, _ => s
  | _ + 1, s, _, [] => s.succeed
  | n + 1, s, text, (patterns, body) :: more =>
    match patterns with
    | [] => chooseArm n s text more
    | p :: others =>
      let (atoms, s) := expand .text n s (homesIn s false true p)
      if s.flow ≠ .next then s
      else if fits (patternOf (unsplit atoms)) text.toList then
        match body with
        | .nothing => s.succeed
        | body => exec n s body
      else chooseArm n s text ((others, body) :: more)

/-- Runs a command and answers the signals that have arrived meanwhile. -/
def exec : (fuel : Nat) → Session → Command → Session
  | 0, s, _ => s
  | n + 1, s, c =>
    if s.isOn 'n' then s
    else
      let after := answer n (execParts n s c)
      if c.mayEnd then after.checked else after

/-- Runs the parts of a command. Nothing more runs once the flow has left the script. -/
def execParts : (fuel : Nat) → Session → Command → Session
  | 0, s, _ => s
  | n + 1, s, c =>
    match c with
    | .nothing => s
    | .simple line assignments words rs => execSimple n { s with line := line } assignments words rs
    | .redirected line (.subshell body) rs =>
      execParts n s (.subshell (.redirected line body rs))
    | .redirected line body rs =>
      let (rs, s) := expandRedirects n { s with line := line } rs
      if s.flow ≠ .next then s
      else
        match Redirection.carryOutAll s rs with
        | .error failed => failed
        | .ok inside => Redirection.undo ((exec n inside.early body).backIn s) s rs
    | .subshell body =>
      if s.around.last && !s.answers then
        let ended := exec n s body
        if ended.isKilled then ended else { ended with flow := .exit }
      else s.after (finish n (exec n s.fork body))
    | .beside body => s.started s.fork.strict fun child => finish n (exec n child body)
    | .define name body =>
      { s.succeed with definitions := (name, body) :: s.definitions.filter (·.1 != name) }
    | .seq first second =>
      let s := (exec n s.early first).backIn s
      if s.flow = .next then exec n s second else s
    | .and first second =>
      let tested := (exec n s.testing first).backIn s
      if tested.flow = .next && tested.status == 0 then exec n tested second else tested
    | .or first second =>
      let tested := (exec n s.testing first).backIn s
      if tested.flow = .next && tested.status != 0 then exec n tested second else tested
    | .not body =>
      let tested := (exec n s.testing body).backIn s
      if tested.flow = .next then tested.succeedIf (tested.status != 0) else tested
    | .pipe first second =>
      let left := s.fork
      let (channel, world) := left.world.openChannel (.collected [])
      let left := finish n (exec n ({ left with world := world }.connect 1 channel) first)
      let (text, world) := left.world.collect channel
      let clock := if left.clock < Session.forever then left.clock else s.clock
      let s := (s.after { left with world := world, clock := clock }).withStatus s.status
      let right := { s.fork with flow := .next }.connectNew 0 (.text text.toList)
      s.after (finish n (exec n right second))
    | .branch condition body other =>
      let tested := (exec n s.testing condition).backIn s
      if tested.flow ≠ .next then tested
      else if tested.status == 0 then exec n tested body
      else
        match other with
        | .nothing => tested.succeed
        | other => exec n tested other
    | .loop succeeds condition body =>
      (loop succeeds condition body n 0 s.enterLoop).backIn s
    | .forEach line name words body =>
      let s := { s with line := line }
      let (values, s) := match words with
        | some ws => expandAll false n [] s ws
        | none => (s.params, s)
      if s.flow ≠ .next then s else (forEach name body n 0 values s.enterLoop).backIn s
    | .choose line word arms =>
      let s := { s with line := line }
      let (text, s) := expandText n s (homesIn s false true word)
      if s.flow ≠ .next then s else chooseArm n s text arms

end

/-- Enough for loops of a hundred thousand rounds. -/
def roundLimit : Nat := 100000

/-- Runs a program that is known, in a tree of files. -/
def runIn (tree : Tree) (directory name program : String) (args : List String) : Session :=
  runProgram roundLimit (.first tree directory name args) name program args

end Semlift.Shell
