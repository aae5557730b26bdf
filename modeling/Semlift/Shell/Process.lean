import Semlift.Shell.Jobs

/-!
Processes that a script starts: what they take over from it, and what it takes over from them when
they have ended.
-/

namespace Semlift.Shell.Session

open Semlift.Files

/-- The signals that a process ignores, as those that it starts do too. -/
def ignored (s : Session) : List Nat :=
  s.deaf ++ (s.traps.filter (·.2.isEmpty)).map (·.1)

/-- Whether a process answers signals, or its end. -/
def answers (s : Session) : Bool := s.traps.any fun t => !t.2.isEmpty

/-- A process for a part of a script. It has no answers to signals and no processes of its own. -/
def fork (s : Session) : Session :=
  let (number, world) := s.world.takeProcess
  { s with
    traps := s.traps.filter (·.2.isEmpty)
    processes := number :: s.processes
    jobs := []
    coming := []
    pending := []
    around := { s.around with last := true, interrupted := none }
    clock := s.clock + forkTime + beginTime
    world := world }

/-- The processes known to a script that starts another one: the first one that it has waited for
makes room. -/
def jobsToKeep (s : Session) : List Job := s.jobs.eraseP (·.waited)

/-- A script after a process that it started and waited for. -/
def after (s child : Session) : Session :=
  let s := { s with world := child.world, jobs := s.jobsToKeep }
  let s := { s.forceAll with clock := child.clock + forkTime }
  let s := noticeEnded (s.collectMessages.hear.receive Signal.child)
  match child.flow with
  | .killed n => (tellEnding s n).withStatus (128 + n)
  | _ => s.withStatus child.status

/-- A process that goes on as another program, which has ended. -/
def replacedBy (s ended : Session) : Session :=
  { s.withStatus ended.status with
    world := ended.world
    clock := ended.clock
    traps := []
    flow := if ended.isKilled then ended.flow else .exit }

/-- A script that begins in place of what a process did before. -/
def anew (s : Session) (name : String) : Session :=
  { begin s.world s.environment s.processes s.directory name [] with
    deaf := s.ignored
    mask := s.mask
    clock := s.clock
    coming := s.coming
    streams := s.streams }

/-- A process beside a script, which reads nothing and leaves two signals to it. -/
def beside (s : Session) (signals : List Message) (world : World) : Session :=
  { s with
    deaf := Signal.interrupt :: Signal.quit :: s.deaf
    coming := signals
    world := world }.connectNew 0 .drain

def ending (s : Session) : Ending :=
  match s.flow with
  | .killed n => ⟨some n, 128 + n, s.clock⟩
  | _ => ⟨none, s.status, s.clock⟩

/-- A script that has started a process beside itself, which is run when something depends on it. -/
def started (s child : Session) (run : Session → Session) : Session :=
  let job : Job := {
    number := child.process
    run := fun signals world =>
      let child := (child.beside signals world).hear
      let ended := if child.isKilled then child else run child
      (ended.ending, ended.world)
    signals := []
    ended := none
    noticed := false
    waited := false }
  { s.succeed with
    clock := s.clock + forkTime
    world := child.world
    jobs := s.jobsToKeep ++ [job]
    lastJob := some child.process }

/-- The time when a process and those beside it are over. -/
def overAt (s : Session) : Nat :=
  s.jobs.foldl (fun t j => max t ((j.ended.map (·.1.time)).getD t)) s.clock

/-! ### Beginning a script -/

/-- Switches the options at the beginning of the arguments of a program that runs scripts. Tells
whether an argument is the script, and the arguments behind the options. -/
def startOptions : (fuel : Nat) → (fromArgument : Bool) → List String → Session →
    Session × Bool × List String
  | 0, b, args, s => (s, b, args)
  | _ + 1, b, [], s => (s, b, [])
  | n + 1, b, a :: more, s =>
    match a.toList with
    | ['-'] | ['-', '-'] => (s, b, more)
    | sign :: letters =>
      if sign = '-' || sign = '+' then
        let b := b || letters.contains 'c'
        let (s, more) := switchLetters "" (sign = '-') (letters.filter (· ≠ 'c')) more s
        if s.flow = .next then startOptions n b more s else (s, b, more)
      else (s, b, a :: more)
    | [] => (s, b, a :: more)

/-- The script that a program is asked to run, and the state in which it begins. -/
def startScript (s : Session) (program : String) (args : List String) : Session × String :=
  let (s, fromArgument, args) := startOptions (args.length + 1) false args (s.anew program)
  if s.flow ≠ .next then (s, "")
  else if fromArgument then
    match args with
    | [] => (s.abort "-c requires an argument", "")
    | [script] => (s, script)
    | script :: name :: params => ({ s.withParams params with name := name }, script)
  else if args.isEmpty || s.isOn 's' then
    let script := (s.readable? 0).getD []
    (switchOption ((s.advance 0 script.length).withParams args) true 's', String.ofList script)
  else
    let path := args.headD ""
    let unopened (reason : String) : Session × String :=
      (s.abort ("cannot open " ++ path ++ ": " ++ reason), "")
    match s.tree.entry (s.path path) with
    | .ok e => ({ s.withParams args.tail with name := path }, e.content)
    | .error .tooLong => unopened "File name too long"
    | .error _ => unopened "No such file"

end Semlift.Shell.Session
