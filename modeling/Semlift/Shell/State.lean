import Semlift.Number.Layout
import Semlift.Shell.Arithmetic
import Semlift.Shell.Signal
import Semlift.Shell.Syntax
import Semlift.Shell.World

/-!
A process that runs a script: its variables, its streams, how it answers signals, and the processes
that it started beside itself.
-/

namespace Semlift.Shell

open Semlift.Files Semlift.Text

/-- How a script goes on. -/
inductive Flow where
  | next
  | exit
  /-- Out of the script because of an error, unless a command hides it. -/
  | broken
  /-- Out of a definition, with a status of its own if it was told one. -/
  | back (told : Bool)
  | killed (signal : Nat)
  /-- Out of so many loops, or on to the next round of the last of them. -/
  | leave (loops : Nat)
  | again (loops : Nat)
  deriving DecidableEq, Repr

structure Variable where
  value : Option String
  /-- Whether programs that are started see it. -/
  exported : Bool
  constant : Bool
  deriving DecidableEq, Repr

/-- What holds only around the command that runs. -/
structure Surroundings where
  /-- The loops around it. -/
  loops : Nat
  /-- The definitions around it. -/
  depth : Nat
  /-- The variables as they were before the definition that runs made its own; none outside of
  definitions. -/
  saved : Option (List (String × Option Variable))
  /-- A failure is expected here. -/
  tested : Bool
  /-- Nothing is run in this process afterwards. -/
  last : Bool
  /-- What complaints say first: that the script is a text that is run, or in which file it is. -/
  place : String
  /-- The status before the signal that is answered. -/
  interrupted : Option Nat

/-- How a process ended. -/
structure Ending where
  /-- The signal that ended it, if one did. -/
  signal : Option Nat
  status : Nat
  time : Nat
  deriving DecidableEq, Repr

/-- A process beside the script. It is run when something depends on it, from the signals sent to it
until then. -/
structure Job where
  number : Nat
  run : (signals : List Message) → World → Ending × World
  signals : List Message
  /-- How it ends, if it was run, and the number after those of its own processes. -/
  ended : Option (Ending × Nat)
  /-- The script knows that it has ended. -/
  noticed : Bool
  /-- The script has waited for it. -/
  waited : Bool

structure Session where
  /-- The name under which the script runs. -/
  name : String
  params : List String
  bindings : List (String × Variable)
  definitions : List (String × Command)
  aliases : List (String × String)
  /-- The programs that were found on the search path, with their paths. -/
  found : List (String × String)
  /-- The letters of the options that are on. -/
  options : List Char
  /-- What is run at a signal, or at the end; nothing for a signal that is ignored. -/
  traps : List (Nat × String)
  /-- Signals that were ignored before the script began; they stay so. -/
  deaf : List Nat
  status : Nat
  flow : Flow
  /-- The status of the last command whose output became part of the words of the present one. -/
  inserted : Option Nat
  around : Surroundings
  directory : String
  mask : Nat
  /-- The number of the process and those of the processes that it is inside of. -/
  processes : List Nat
  /-- The number by which the script knows itself. -/
  root : Nat
  jobs : List Job
  /-- The number of the process that was started last beside the script. -/
  lastJob : Option Nat
  /-- Signals that will arrive, and those that have arrived and are to be answered. -/
  coming : List Message
  pending : List Nat
  clock : Nat
  /-- The channels of the numbered streams. -/
  streams : List (Nat × Nat)
  /-- Which argument comes next when options are looked through, and how far into the argument in
  front of it that went, if its letters are not all read. -/
  nextOption : Nat
  inOption : Option Nat
  /-- The line of the command that runs. -/
  line : Nat
  world : World

namespace Session

/-- The number of the process that runs the first script. -/
def firstProcess : Nat := 4242

/-- The times that a process needs to start another one and to learn of its end, and that the other
one needs to begin, of a second in millions. -/
def forkTime : Nat := 1
def beginTime : Nat := 10

/-- A time that no process sees. -/
def forever : Nat := 1000000000000000000

def named? (s : Session) (name : String) : Option Variable :=
  (s.bindings.find? (·.1 == name)).map (·.2)

def lookup? (s : Session) (name : String) : Option String := (s.named? name).bind (·.value)

/-- Variables with a new one in place of one of its name. -/
def withVariable (s : Session) (name : String) (v : Variable) : Session :=
  { s with bindings := (name, v) :: s.bindings.filter (·.1 != name) }

/-- The letters of all options, in the order in which they are told. -/
def optionLetters : List Char :=
  ['p', 'u', 'b', 'a', 'C', 'E', 'V', 'v', 'x', 's', 'n', 'm', 'i', 'I', 'f', 'e']

def isOn (s : Session) (option : Char) : Bool := s.options.contains option

/-- Begins to look through options at an argument. -/
def optionsFrom (s : Session) (n : Nat) : Session := { s with nextOption := n, inOption := none }

/-- Gives a variable a value, whatever it was. Some say where to look for options or programs. -/
def assign (s : Session) (name value : String) : Session :=
  let old := (s.named? name).getD ⟨none, false, false⟩
  let s := if name = "OPTIND" then s.optionsFrom (max 1 (digitsValue value.toList))
    else if name = "PATH" then { s with found := [] }
    else s
  s.withVariable name { old with value := some value, exported := old.exported || s.isOn 'a' }

/-- New positional parameters; their options are looked through from the first. -/
def withParams (s : Session) (params : List String) : Session :=
  { s with params := params }.optionsFrom 1

def unset (s : Session) (name : String) : Session :=
  { s with bindings := s.bindings.filter (·.1 != name) }

/-- Makes a variable what it was, if it was there. -/
def restore (s : Session) (name : String) (old : Option Variable) : Session :=
  match old with
  | some v => s.withVariable name v
  | none => s.unset name

def isConstant (s : Session) (name : String) : Bool :=
  ((s.named? name).map (·.constant)).getD false

/-- The variables that a started program sees. -/
def environment (s : Session) : List (String × String) :=
  s.bindings.filterMap fun (name, v) =>
    if v.exported then v.value.map fun value => (name, value) else none

/-- The variables that are there from the start. -/
def firstVariables (directory : String) (parent : Nat) : List (String × String) :=
  [("PWD", directory), ("IFS", " \t\n"), ("OPTIND", "1"), ("PS1", "# "), ("PS2", "> "),
    ("PS4", "+ "), ("PPID", Number.natText parent)]

/-- What a first script sees of the variables of whoever starts it. -/
def homeEnvironment : List (String × String) :=
  [("HOME", "/root"),
    ("PATH", "/usr/local/sbin:/usr/local/bin:/usr/sbin:/usr/bin:/sbin:/bin")]

/-- A script before its first command, with an environment and a parent. -/
def begin (world : World) (environment : List (String × String)) (processes : List Nat)
    (directory name : String) (params : List String) : Session :=
  let s : Session := {
    name := name
    params := params
    bindings := environment.map fun (n, v) => (n, ⟨some v, true, false⟩)
    definitions := []
    aliases := []
    found := []
    options := []
    traps := []
    deaf := []
    status := 0
    flow := .next
    inserted := none
    around := ⟨0, 0, none, false, false, "", none⟩
    directory := directory
    mask := 18
    processes := processes
    root := processes.headD 0
    jobs := []
    lastJob := none
    coming := []
    pending := []
    clock := 0
    streams := []
    nextOption := 1
    inOption := none
    line := 0
    world := world }
  (firstVariables directory (processes[1]?.getD 0)).foldl (fun s (n, v) => s.assign n v) s

/-- The numbers of the channels of a first script. -/
def inputChannel : Nat := 0
def outputChannel : Nat := 1
def errorChannel : Nat := 2

/-- A first script, with nothing to read and two streams that are kept. -/
def first (tree : Tree) (directory name : String) (params : List String) : Session :=
  let world : World := {
    tree := tree
    channels := #[.drain, .collected [], .collected []]
    nextProcess := firstProcess + 1
    messages := [] }
  { begin world homeEnvironment [firstProcess, firstProcess - 1] directory name params with
    streams := [(0, inputChannel), (1, outputChannel), (2, errorChannel)] }

/-- The characters that separate fields. -/
def separators (s : Session) : List Char := ((s.lookup? "IFS").getD " \t\n").toList

/-- All parameters in one text, joined by the first separator. -/
def joinedParams (s : Session) : String :=
  join ((s.separators.head?.map Char.toString).getD "") s.params

/-- The value of a variable, a positional or a special parameter. -/
def value? (s : Session) (name : String) : Option String :=
  if name = "0" then some s.name
  else if name = "#" then some (Number.natText s.params.length)
  else if name = "?" then some (Number.natText s.status)
  else if name = "$" then some (Number.natText s.root)
  else if name = "@" || name = "*" then some s.joinedParams
  else if name = "-" then some (String.ofList (optionLetters.filter s.isOn))
  else if name = "!" then s.lastJob.map Number.natText
  else if name.toList.all Char.isDigit then s.params[digitsValue name.toList - 1]?
  else s.lookup? name

/-! ### Streams -/

def channel? (s : Session) (stream : Nat) : Option Nat :=
  (s.streams.find? (·.1 == stream)).map (·.2)

def close (s : Session) (stream : Nat) : Session :=
  { s with streams := s.streams.filter (·.1 != stream) }

def connect (s : Session) (stream channel : Nat) : Session :=
  { s with streams := (stream, channel) :: s.streams.filter (·.1 != stream) }

/-- Leads a stream to a new channel. -/
def connectNew (s : Session) (stream : Nat) (c : Channel) : Session :=
  let (channel, world) := s.world.openChannel c
  { s with world := world }.connect stream channel

/-- The number of the process. -/
def process (s : Session) : Nat := s.processes.headD 0

/-- Writes to a stream, if it can be written. -/
def emit? (s : Session) (stream : Nat) (text : String) : Option Session := do
  let channel ← s.channel? stream
  let world ← s.world.write? channel ⟨s.clock, s.process, text⟩
  return { s with world := world }

def emit (s : Session) (stream : Nat) (text : String) : Session :=
  if text.isEmpty then s else (s.emit? stream text).getD s

/-- What can be read from a stream. -/
def readable? (s : Session) (stream : Nat) : Option (List Char) :=
  (s.channel? stream).bind s.world.readable?

/-- Reads so many characters from a stream. -/
def advance (s : Session) (stream n : Nat) : Session :=
  match s.channel? stream with
  | some channel => { s with world := s.world.advance channel n }
  | none => s

/-! ### Status and complaints -/

def withStatus (s : Session) (n : Nat) : Session := { s with status := n }

def succeed (s : Session) : Session := s.withStatus 0

def succeedIf (s : Session) (b : Bool) : Session := s.withStatus (if b then 0 else 1)

/-- Complains on the error stream, with the name and the line of the script. -/
def complain (s : Session) (message : String) (status : Nat) : Session :=
  (s.emit 2 (s.name ++ ": " ++ Number.natText s.line ++ ": " ++ message ++ "\n")).withStatus status

/-- Complains of an error that ends the script. -/
def abort (s : Session) (message : String) : Session :=
  { s.complain message 2 with flow := .broken }

/-- Complains of the script itself and not on behalf of one of its commands. -/
def report (s : Session) (message : String) (status : Nat) : Session :=
  s.complain (s.around.place ++ message) status

/-- Complains of an error in the script itself, which ends it. -/
def fail (s : Session) (message : String) : Session :=
  { s.report message 2 with flow := .broken }

/-- Prints the output of a command. Output that cannot be written is a failure. -/
def print (s : Session) (command text : String) : Session :=
  if text.isEmpty then s.succeed
  else
    match s.emit? 1 text with
    | some s => s.succeed
    | none => s.complain (command ++ ": " ++ command ++ ": I/O error") 1

/-- Gives a variable a value on behalf of a command; a constant keeps its own, and that is an
error. -/
def setFor (s : Session) (command name value : String) : Session :=
  if s.isConstant name then s.abort (command ++ ": " ++ name ++ ": is read only")
  else s.assign name value

/-- Gives a variable a value in the script itself. -/
def set (s : Session) (name value : String) : Session :=
  if s.isConstant name then s.fail (name ++ ": is read only") else s.assign name value

def isVariableName (name : String) : Bool :=
  (name.toList.head?.map Arith.isNameStart).getD false && name.toList.all Arith.isNameChar

/-- Gives a variable a value on behalf of a command, which complains of a bad name. -/
def give (s : Session) (command name value : String) : Session :=
  if isVariableName name then s.setFor command name value
  else s.abort (command ++ ": " ++ name ++ ": bad variable name")

/-- A path seen from the directory of the script. -/
def path (s : Session) (p : String) : String := if p.isEmpty then p else joinPath s.directory p

def tree (s : Session) : Tree := s.world.tree

/-- The number of 64 bits that a text spells in decimal. -/
def integer? (text : String) : Option Int :=
  let number (ds : List Char) : Option Nat :=
    if ds.isEmpty || !ds.all Char.isDigit then none else some (digitsValue ds)
  let value : Option Int := match trim text.toList with
    | '-' :: ds => (number ds).map fun n => -(n : Int)
    | '+' :: ds => (number ds).map Int.ofNat
    | ds => (number ds).map Int.ofNat
  value.filter fun n => Int64.minValue.toInt ≤ n && n ≤ Int64.maxValue.toInt

/-- The greatest number that a command takes as an argument. -/
def greatestNumber : Nat := 2147483647

/-- The number that an argument spells; none is negative. -/
def number? (text : String) : Option Nat :=
  match integer? text with
  | some (.ofNat n) => if n ≤ greatestNumber then some n else none
  | _ => none

/-! ### Signals -/

/-- What is to be run at a signal; nothing to ignore it, or `none` for its usual effect. -/
def trap? (s : Session) (signal : Nat) : Option String :=
  if signal ∈ s.deaf then some "" else (s.traps.find? (·.1 == signal)).map (·.2)

/-- Takes a signal: it is ignored, kept to be answered, or the end. -/
def receive (s : Session) (signal : Nat) : Session :=
  if signal ∈ Signal.absolute then
    if signal = Signal.kill then { s with flow := .killed signal } else s
  else
    match s.trap? signal with
    | some action => if action.isEmpty then s else { s with pending := s.pending.insert signal }
    | none => if signal ∈ Signal.quiet then s else { s with flow := .killed signal }

def isKilled (s : Session) : Bool :=
  match s.flow with
  | .killed _ => true
  | _ => false

/-- Takes the signals that have arrived, until one is the end. -/
def hear (s : Session) : Session :=
  let arrived := s.coming.filter (·.time ≤ s.clock)
  let s := { s with coming := s.coming.filter fun m => s.clock < m.time }
  arrived.foldl (fun s m => if s.isKilled then s else s.receive m.signal) s

/-- Takes over the messages for the process that others left. -/
def collectMessages (s : Session) : Session :=
  let mine := s.world.messages.filter (·.target = s.process)
  let others := s.world.messages.filter (·.target ≠ s.process)
  if mine.isEmpty then s
  else
    { s with
      coming := (s.coming ++ mine).mergeSort fun a b => a.time ≤ b.time
      world := { s.world with messages := others } }

/-- The first of the signals that arrive up to a time and have their usual effect. -/
def fatal? (s : Session) (time : Nat) : Option Message :=
  s.coming.find? fun m => m.time ≤ time && (s.receive m.signal).isKilled

/-- Lets time go by. A signal may be the end of that. -/
def sleepUntil (s : Session) (time : Nat) : Session :=
  match s.fatal? time with
  | some m => { s with clock := max s.clock m.time, flow := .killed m.signal }
  | none => { s with clock := max s.clock time }.hear

/-! ### Processes beside the script -/

/-- Runs a process from all that is known of it. -/
def force (s : Session) (j : Job) : Session × Job :=
  match j.ended with
  | some _ => (s, j)
  | none =>
    let (ending, world) := j.run j.signals s.world
    ({ s with world := world }.collectMessages,
      { j with ended := some (ending, world.nextProcess) })

/-- Runs all processes that were not run yet. -/
def forceAll (s : Session) : Session :=
  let (s, jobs) := s.jobs.foldl (fun (s, jobs) j =>
    let (s, j) := s.force j
    (s, jobs ++ [j])) (s, [])
  { s with jobs := jobs }

/-- Sends a signal to a process beside the script. One that was run already is run again from the
start, and what it wrote is taken back. -/
def signalJob (s : Session) (j : Job) (m : Message) : Session :=
  let heard := { j with signals := j.signals ++ [m] }
  let replace (s : Session) (j : Job) : Session :=
    { s with jobs := s.jobs.map fun k => if k.number = j.number then j else k }
  match j.ended with
  | none => replace s heard
  | some (ending, limit) =>
    if ending.time ≤ m.time then s
    else
      let family (n : Nat) : Bool := j.number ≤ n && n < limit
      let s := { s with world := s.world.retract family 0 }
      let (s, j) := s.force { heard with ended := none }
      replace s j

end Session

end Semlift.Shell
