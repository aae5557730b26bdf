import Semlift.Shell.Variables

/-!
Commands about signals and the processes that run beside a script.
-/

namespace Semlift.Shell

open Semlift.Text Session

/-! ### Answers to signals -/

def trapLines (s : Session) : String :=
  ((List.range Signal.names.length).filterMap fun n =>
    (s.traps.find? (·.1 == n)).map fun (_, action) =>
      "trap -- " ++ quotedText action ++ " " ++ Signal.name n ++ "\n").foldl (· ++ ·) ""

/-- Sets what is run at a signal or at the end; nothing in place of the usual effect. -/
def setTrap (s : Session) (action : Option String) (n : Nat) : Session :=
  let others := s.traps.filter (·.1 != n)
  { s with traps := match action with
    | some a => (n, a) :: others
    | none => others }

/-- Sets what is run at some signals, up to one that there is not. -/
def setTraps (s : Session) (action : Option String) : List String → Session
  | [] => s.succeed
  | a :: more =>
    match Signal.number? true a with
    | some n => setTraps (setTrap s action n) action more
    | none => (s.emit 2 ("trap: " ++ a ++ ": bad trap\n")).withStatus 1

def trap (s : Session) (args : List String) : Session :=
  withOptions s "trap" [] [] args fun _ args =>
    match args with
    | [] => s.print "trap" (trapLines s)
    | [a] => setTraps s none [a]
    | a :: more =>
      if (Signal.ofDigits? a).isSome then setTraps s none (a :: more)
      else setTraps s (if a = "-" then none else some a) more

/-! ### Processes beside the script -/

def Job.isOver (j : Job) (time : Nat) : Bool :=
  match j.ended with
  | some (e, _) => e.time ≤ time
  | none => false

/-- The processes that a number or a job's sign may mean, the newest first. -/
def newestJobs (s : Session) : List Job := s.jobs.reverse

/-- The job of a sign such as `%1`, or what is wrong with it. -/
def jobOf (s : Session) (sign : String) : Except String Job :=
  let jobs := newestJobs s
  let orElse (message : String) (j : Option Job) : Except String Job :=
    match j with
    | some j => .ok j
    | none => .error message
  match sign.toList with
  | ['%'] | ['%', '%'] | ['%', '+'] => orElse "No current job" jobs.head?
  | ['%', '-'] => orElse "No previous job" (jobs.drop 1).head?
  | '%' :: ds =>
    let found := if ds.all Char.isDigit then (s.jobs.drop (digitsValue ds - 1)).head? else none
    orElse ("No such job: " ++ sign) found
  | _ => .error ("No such job: " ++ sign)

/-- The words that tell how a job ended. -/
def Ending.text (e : Ending) : String :=
  match e.signal with
  | some n => (Signal.description? n).getD ""
  | none => if e.status = 0 then "Done" else "Done(" ++ Number.natText e.status ++ ")"

/-- The line that tells the state of a job. -/
def jobLine (s : Session) (index : Nat) (j : Job) : String :=
  let after := s.jobs.length - (index + 1)
  let mark := if after = 0 then "+" else if after = 1 then "-" else " "
  let state := match j.ended with
    | some (e, _) => if e.time ≤ s.clock then e.text else "Running"
    | none => "Running"
  let start := "[" ++ Number.natText (index + 1) ++ "] " ++ mark ++ " " ++ state
  start ++ String.ofList (List.replicate (33 - start.length) ' ') ++ "\n"

def listJobs (s : Session) (args : List String) : Session :=
  withOptions s "jobs" ['l', 'p'] [] args fun options signs =>
    let numbers := options.any (·.1 == 'p')
    let line (j : Job) : String :=
      if numbers then Number.natText j.number ++ "\n"
      else jobLine s (s.jobs.findIdx (·.number == j.number)) j
    match if signs.isEmpty then .ok (newestJobs s) else signs.mapM (jobOf s) with
    | .ok jobs => s.print "jobs" (jobs.foldl (fun text j => text ++ line j) "")
    | .error message => s.abort ("jobs: " ++ message)

/-- Brings a job to the front or lets it go on, which scripts without control of jobs cannot. -/
def resumeJob (command : String) (s : Session) (args : List String) : Session :=
  match jobOf s (args.headD "%%") with
  | .ok _ => s.abort (command ++ ": job (null) not created under job control")
  | .error message => s.abort (command ++ ": " ++ message)

/-! ### Sending signals -/

def killUsage : String :=
  "kill: Usage: kill [-s sigspec | -signum | -sigspec] [pid | job]... or\nkill -l [exitstatus]"

/-- Sends a signal to a process by its number, if it can be reached. -/
def sendSignal (s : Session) (signal number : Nat) : Option Session :=
  let m : Message := ⟨number, signal, s.clock⟩
  if number = s.process then some (if signal = 0 then s else s.receive signal)
  else if s.processes.contains number then
    some (if signal = 0 then s else { s with world := s.world.send m })
  else
    match s.jobs.find? fun j => j.number == number && !j.noticed with
    | some j => some (if signal = 0 then s else s.signalJob j m)
    | none => none

/-- Sends a signal to each of some processes, until one that makes no sense. -/
def sendAll (signal : Nat) (s : Session) (targets : List String) : Session :=
  targets.foldl (fun s t =>
    if s.flow = .broken then s
    else
      let noProcess (s : Session) : Session := s.complain "kill: No such process\n" 1
      match t.toList with
      | '%' :: _ =>
        match jobOf s t with
        | .ok _ => noProcess s
        | .error message => s.abort ("kill: " ++ message)
      | '-' :: ds => if (number? (String.ofList ds)).isSome then noProcess s
        else badNumber s "kill" (String.ofList ds)
      | _ =>
        match number? t with
        | none => badNumber s "kill" t
        | some n => (sendSignal s signal n).getD (noProcess s)) s.succeed

/-- Tells the names of signals, or of the one that a number or a status means. -/
def listSignals (s : Session) : List String → Session
  | [] => s.print "kill" ("0\n" ++ (Signal.names.drop 1).foldl (fun text n => text ++ n ++ "\n") "")
  | a :: _ =>
    match number? a with
    | none => badNumber s "kill" a
    | some n =>
      let signal := if 128 < n then n - 128 else n
      if 0 < signal && signal < Signal.names.length then
        s.print "kill" (Signal.name signal ++ "\n")
      else s.abort ("kill: invalid signal number or exit status: " ++ a)

def kill (s : Session) (args : List String) : Session :=
  let usage := s.abort killUsage
  let send (signal : Nat) (targets : List String) : Session :=
    if targets.isEmpty then usage else sendAll signal s targets
  match args with
  | [] => usage
  | a :: more =>
    match a.toList with
    | '-' :: name =>
      match Signal.number? false (String.ofList name) with
      | some n => send n more
      | none =>
        withOptions s "kill" ['l'] ['s'] args fun options targets =>
          let named := (options.filter (·.1 == 's')).getLast?
          if options.any (·.1 == 'l') then if named.isSome then usage else listSignals s targets
          else
            match named with
            | none => send Signal.term targets
            | some (_, name) =>
              match Signal.number? false name with
              | some n => send n targets
              | none => s.abort ("kill: invalid signal number or name: " ++ name)
    | _ => send Signal.term args

/-! ### Waiting -/

/-- Tells of a process that a signal ended. -/
def tellEnding (s : Session) (signal : Option Nat) : Session :=
  match signal.bind Signal.description? with
  | some text => s.emit 2 (text ++ "\n")
  | none => s

/-- Waits up to a time, unless a signal with an answer comes before a limit. -/
def waitUntil (s : Session) (time limit : Nat) : Session × Option Nat :=
  match s.coming.find? fun m => m.time < limit && (s.trap? m.signal).getD "" ≠ "" with
  | some m =>
    let s := s.sleepUntil m.time
    (s, some m.signal)
  | none => (s.sleepUntil time, none)

/-- The script learns that some processes have ended, which is a signal for it. -/
def notice (s : Session) (isMeant : Job → Bool) (waited : Bool) : Session :=
  let isNew := s.jobs.any fun j => isMeant j && !j.noticed
  let jobs := s.jobs.map fun j =>
    if isMeant j then { j with noticed := true, waited := j.waited || waited } else j
  let s := { s with jobs := jobs }
  if isNew then s.receive Signal.child else s

/-- Learns of the processes that have ended by now; they are not told of later. -/
def noticeEnded (s : Session) : Session := notice s (·.isOver s.clock) false

/-- Lets time go by for a script in a loop that nothing inside ends: the processes beside it end,
and the signals under way arrive. If there are none it goes on for ever, until nobody reads what it
writes. -/
def linger (s : Session) : Session :=
  let s := s.forceAll
  let times := s.coming.map (·.time) ++ s.jobs.filterMap fun j => j.ended.map (·.1.time)
  match (times.filter (s.clock < ·)).max? with
  | some t => noticeEnded (s.sleepUntil t)
  | none => { s with clock := forever, flow := .killed Signal.pipe }

/-- Waits for one process and takes its status; an unknown one counts as not found. -/
def waitForJob (s : Session) (number : Nat) : Session × Bool :=
  match s.jobs.find? (·.number == number) with
  | none => (s.withStatus 127, true)
  | some j =>
    let (s, j) := s.force j
    let s := { s with jobs := s.jobs.map fun k => if k.number = number then j else k }
    match j.ended with
    | none => (s, true)
    | some (e, _) =>
      let (s, interrupted) := if j.noticed then (s, none) else waitUntil s e.time (e.time + 1)
      match interrupted with
      | some signal => (s.withStatus (128 + signal), false)
      | none =>
        if s.isKilled then (s, false)
        else
          let s := if j.noticed then s else tellEnding s e.signal
          ((notice s (·.number == number) true).withStatus e.status, true)

/-- Waits for processes one after the other. -/
def waitForEach (s : Session) : List String → Session
  | [] => s
  | a :: more =>
    let go (number : Nat) : Session :=
      let (s, goesOn) := waitForJob s number
      if goesOn then waitForEach s more else s
    match a.toList with
    | '%' :: _ =>
      match jobOf s a with
      | .ok j => go j.number
      | .error message => s.abort ("wait: " ++ message)
    | _ =>
      match number? a with
      | some n => go n
      | none => badNumber s "wait" a

/-- Waits for all processes. -/
def waitForAll (s : Session) : Session :=
  let s := s.forceAll
  let last := s.jobs.foldl (fun t j => if j.noticed then t else
    max t ((j.ended.map (·.1.time)).getD t)) s.clock
  match waitUntil s last last with
  | (s, some signal) => s.withStatus (128 + signal)
  | (s, none) => if s.isKilled then s else (notice s (fun _ => true) true).succeed

def wait (s : Session) (args : List String) : Session :=
  withOptions s "wait" [] [] args fun _ args =>
    if args.isEmpty then waitForAll s else waitForEach s args

/-- Lets time go by in front of the script, while the processes beside it go on. -/
def pause (s : Session) (length : Nat) : Session :=
  let s := s.forceAll
  noticeEnded (s.sleepUntil (s.clock + length))

end Semlift.Shell
