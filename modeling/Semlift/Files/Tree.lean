import Semlift.Text.Byte

/-!
Paths as texts: names between slashes, absolute when a slash comes first. A tree of directories and
files, known by the lists of names that lead to them from the root.
-/

namespace Semlift.Files

open Semlift.Text

def isAbsolute (path : String) : Bool := path.toList.head? == some '/'

/-- A path seen from a directory; an absolute path stands for itself. -/
def joinPath (base path : String) : String :=
  if isAbsolute path || base.isEmpty then path
  else if base.toList.getLast? = some '/' then base ++ path
  else base ++ "/" ++ path

/-- The path without its last name and the slashes before it; the root is its own parent. -/
def parentPath (path : String) : String :=
  let before := path.toList.reverse.dropWhile (· != '/')
  let parent := before.dropWhile (· == '/')
  if parent.isEmpty then String.ofList before.reverse else String.ofList parent.reverse

/-- A text up to its first zero byte, which ends texts that are handed to a system. -/
def untilZero (text : String) : String := String.ofList (text.toList.takeWhile (·.toNat ≠ 0))

def names (path : String) : List String := (splitOn '/' path.toList).map String.ofList

inductive Entry where
  | directory
  | file (content : String)
  /-- Swallows what is written to it and holds nothing. -/
  | drain
  /-- The numbered stream of whoever opens it. -/
  | stream (number : Nat)
  /-- A program, known by its name. -/
  | program (name : String)
  deriving DecidableEq, Repr

/-- What is read from an entry: only files hold anything. -/
def Entry.content : Entry → String
  | .file content => content
  | _ => ""

/-- Why a path leads nowhere. -/
inductive PathFault where
  | missing
  | notDirectory
  | tooLong
  deriving DecidableEq, Repr

/-- Everything below the root, every place once. -/
structure Tree where
  entries : List (List String × Entry)
  deriving DecidableEq, Repr

namespace Tree

def empty : Tree := ⟨[]⟩

instance : Inhabited Tree := ⟨empty⟩

def at? (t : Tree) (place : List String) : Option Entry :=
  if place.isEmpty then some .directory else (t.entries.find? (·.1 == place)).map (·.2)

def isDirectoryAt (t : Tree) (place : List String) : Bool := t.at? place == some .directory

/-- The longest name that an entry may have, and the longest path. -/
def nameLimit : Nat := 255
def pathLimit : Nat := 4095

/-- Goes on from a directory by one name. -/
def enter (t : Tree) (place : List String) (name : String) : Except PathFault (List String) :=
  match t.at? place with
  | none => .error .missing
  | some .directory =>
    if name.isEmpty || name == "." then .ok place
    else if name == ".." then .ok place.dropLast
    else if nameLimit < name.length then .error .tooLong
    else .ok (place ++ [name])
  | some _ => .error .notDirectory

/-- Where an absolute path leads; all but its last name must be directories. A path ends in front of
a zero byte. -/
def resolve (t : Tree) (path : String) : Except PathFault (List String) :=
  let path := untilZero path
  if path.isEmpty then .error .missing
  else if pathLimit < path.length then .error .tooLong
  else (names path).foldlM t.enter []

def place? (t : Tree) (path : String) : Option (List String) := (t.resolve path).toOption

/-- The entry of an absolute path. -/
def entry (t : Tree) (path : String) : Except PathFault Entry := do
  match t.at? (← t.resolve path) with
  | some e => return e
  | none => throw .missing

def find? (t : Tree) (path : String) : Option Entry := (t.entry path).toOption

def contains (t : Tree) (path : String) : Bool := (t.find? path).isSome

def isDirectory (t : Tree) (path : String) : Bool := t.find? path == some .directory

def read? (t : Tree) (path : String) : Option String := (t.find? path).map Entry.content

/-- The names in a directory. -/
def namesAt (t : Tree) (place : List String) : List String :=
  t.entries.filterMap fun (p, _) =>
    if p.length = place.length + 1 && p.take place.length = place then p.getLast? else none

def remove (t : Tree) (place : List String) : Tree := ⟨t.entries.filter (·.1 != place)⟩

def set (t : Tree) (place : List String) (e : Entry) : Tree :=
  ⟨(place, e) :: (t.remove place).entries⟩

/-- Whether a file can be written at a place: there is one, or its directory has room for one. -/
def takesFile (t : Tree) (place : List String) : Bool :=
  match t.at? place with
  | some .directory => false
  | some _ => true
  | none => t.isDirectoryAt place.dropLast

/-- Writes a file at a place that takes one; what is written to a drain is gone. -/
def writeAt (t : Tree) (place : List String) (content : String) : Tree :=
  match t.at? place with
  | some (.file _) => t.set place (.file content)
  | none => if t.takesFile place then t.set place (.file content) else t
  | some _ => t

def write (t : Tree) (path content : String) : Tree :=
  match t.place? path with
  | some place => t.writeAt place content
  | none => t

/-- Makes one directory unless something has its name. -/
def makeDirectory (t : Tree) (place : List String) : Tree :=
  if (t.at? place).isSome then t else t.set place .directory

/-- Makes all the directories that an absolute path names. -/
def makeDirectories (t : Tree) (path : String) : Tree :=
  let ns := (names path).filter fun n => !n.isEmpty && n != "."
  (List.range ns.length).foldl (fun t i => t.makeDirectory (ns.take (i + 1))) t

end Tree

end Semlift.Files
