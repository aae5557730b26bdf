import Semlift.Shell.Exec

/-!
Programs that run in a tree of files and give back their two streams of output and a status, with
the tree that they leave.
-/

namespace Semlift.Host

open Semlift.Files Semlift.Shell

structure Job where
  argv : List String
  /-- The directory to start in, if not the root. -/
  directory : Option String
  tree : Tree

structure Outcome where
  status : Int
  output : String
  errors : String
  deriving DecidableEq, Repr

/-- The outcome of a job that could not be begun. -/
def Outcome.refused (status : Int) (errors : String) : Outcome := ⟨status, "", errors⟩

/-- The outcome of a script that has ended, and the tree that it leaves. -/
def Outcome.ofSession (s : Session) : Outcome × Tree :=
  let (output, world) := s.world.collect Session.outputChannel
  let (errors, world) := world.collect Session.errorChannel
  (⟨s.ending.status, output, errors⟩, world.tree)

/-- Why a program cannot be started. -/
def startFault : PathFault → String
  | .missing => "No such file or directory"
  | .notDirectory => "Not a directory"
  | .tooLong => "File name too long"

/-- The program that a name means in a directory, or why there is none. -/
def programOf (tree : Tree) (directory name : String) : Except String String :=
  if name.toList.contains '/' then
    match tree.entry (joinPath directory name) with
    | .ok (.program program) => .ok program
    | .ok _ => .error "Permission denied"
    | .error f => .error (startFault f)
  else if Tree.nameLimit < name.length then .error (startFault .tooLong)
  else
    match findProgram (.first tree directory "" []) name with
    | .ok (_, program) => .ok program
    | .error r => .error (if r = .denied then r.reason else startFault .missing)

/-- Runs a program in a directory. -/
def runAt (tree : Tree) (directory : String) (argv : List String) :
    Except String (Outcome × Tree) := do
  let name := argv.headD ""
  let program ← programOf tree directory name
  return Outcome.ofSession (runIn tree directory name program argv.tail)

/-- Runs a job, and gives the tree that it leaves. Arguments end in front of a zero byte. In a
directory of its own, a program that is not found is only told by its status. -/
def Job.run (j : Job) : Outcome × Tree :=
  let argv := j.argv.map untilZero
  match j.argv, j.directory with
  | [], _ => (.refused (-1) "empty command", j.tree)
  | name :: _, none =>
    match runAt j.tree "/" argv with
    | .ok outcome => outcome
    | .error reason => (.refused (-1) ("cannot start '" ++ name ++ "': " ++ reason), j.tree)
  | _, some directory =>
    match j.tree.place? directory with
    | none => (.refused 127 "", j.tree)
    | some place =>
      if !j.tree.isDirectoryAt place then (.refused 127 "", j.tree)
      else
        match runAt j.tree ("/" ++ Text.join "/" place) argv with
        | .ok outcome => outcome
        | .error _ => (.refused 127 "", j.tree)

end Semlift.Host
