import Semlift.Config.Read
import Semlift.Files.Tree

/-!
Where the configuration of a project lies: in the nearest directory that has one, going up from a
starting directory.
-/

namespace Semlift.Config

open Semlift.Files

def fileName : String := "smol.yaml"

/-- Why a search cannot be carried out. -/
inductive SearchFault where
  | noDirectory
  | tooLong (path : String)
  deriving DecidableEq, Repr

def SearchFault.message : SearchFault → String
  | .noDirectory => "filesystem error: cannot make absolute path: Invalid argument []"
  | .tooLong path => "filesystem error: status: File name too long [" ++ path ++ "]"

/-- The nearest configuration on the way up. Every step makes the directory shorter. -/
def findFrom (t : Tree) : (limit : Nat) → (directory : String) →
    Except SearchFault (Option String)
  | 0, _ => .ok none
  | n + 1, directory =>
    let candidate := joinPath directory fileName
    match t.entry candidate with
    | .ok _ => .ok (some candidate)
    | .error .tooLong => .error (.tooLong candidate)
    | .error _ =>
      let parent := parentPath directory
      if parent = directory then .ok none else findFrom t n parent

def find (t : Tree) (directory : String) : Except SearchFault (Option String) :=
  if directory.isEmpty then .error .noDirectory else findFrom t (directory.length + 1) directory

/-- The settings in a file, whose documents are given by their paths. -/
def load (documents : String → Option Document) (path stamp : String) : Found Settings :=
  match documents path with
  | some d => read (parentPath path) stamp d
  | none => .error (.missing path)

end Semlift.Config
