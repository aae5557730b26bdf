import Semlift.Shell.Program
import Semlift.Shell.Scan

/-!
What the name of a command stands for, and the commands that tell it.
-/

namespace Semlift.Shell

open Session

inductive Meaning where
  | keyword
  | shorthand (text : String)
  | definition
  | special
  | builtin
  /-- A program with its path; it may have been run or looked for before. -/
  | program (path : String) (tracked : Bool)
  deriving DecidableEq, Repr

/-- What a name stands for. A path stands for itself if there is something. -/
def meaning? (s : Session) (name : String) : Option Meaning :=
  if name ∈ Reading.keywords then some .keyword
  else
    match s.aliases.find? (·.1 == name) with
    | some (_, text) => some (.shorthand text)
    | none =>
      if s.definitions.any (·.1 == name) then some .definition
      else if name ∈ specialNames then some .special
      else if isBuiltin name then some .builtin
      else if name.toList.contains '/' then
        if s.tree.contains (s.path name) then some (.program name false) else none
      else
        match s.found.find? (·.1 == name) with
        | some (_, path) => some (.program path true)
        | none =>
          match findProgram s name with
          | .ok (path, _) => some (.program path false)
          | .error _ => none

def Meaning.text : Meaning → String
  | .keyword => "a shell keyword"
  | .shorthand text => "an alias for " ++ text
  | .definition => "a shell function"
  | .special => "a special shell builtin"
  | .builtin => "a shell builtin"
  | .program path tracked => (if tracked then "a tracked alias for " else "") ++ path

/-- Tells what a name stands for. -/
def describe (command : String) (s : Session) (name : String) : Session :=
  match meaning? s name with
  | some m => s.print command (name ++ " is " ++ m.text ++ "\n")
  | none => (s.print command (name ++ ": not found\n")).withStatus 127

/-- Tells what names stand for; the status is that of the last one that stands for nothing. -/
def describeAll (s : Session) (names : List String) : Session :=
  names.foldl (fun s name =>
    let after := describe "type" s name
    if after.status = 0 then after.withStatus s.status else after) s.succeed

/-- Tells by what a name is run. -/
def locate (s : Session) (name : String) : Session :=
  match meaning? s name with
  | some (.shorthand text) => s.print "command" ("alias " ++ aliasLine name text)
  | some (.program path _) => s.print "command" (path ++ "\n")
  | some _ => s.print "command" (name ++ "\n")
  | none => s.withStatus 127

/-- Keeps in mind where a program was found. -/
def track (s : Session) (name path : String) : Session :=
  if name.toList.contains '/' || s.found.any (·.1 == name) then s
  else { s with found := s.found ++ [(name, path)] }

/-- Looks for programs on the search path, or tells those that were found. -/
def trackAll (s : Session) (args : List String) : Session :=
  withOptions s "hash" ['r'] [] args fun options names =>
    if !options.isEmpty then { s.succeed with found := [] }
    else if names.isEmpty then
      s.print "hash" (s.found.foldl (fun text (_, path) => text ++ path ++ "\n") "")
    else
      names.foldl (fun s name =>
        if s.definitions.any (·.1 == name) || isBuiltin name then s
        else
          match findProgram s name with
          | .ok (path, _) => track s name path
          | .error refusal =>
            (s.complain ("hash: " ++ name ++ ": " ++ refusal.reason) 1)) s.succeed

end Semlift.Shell
