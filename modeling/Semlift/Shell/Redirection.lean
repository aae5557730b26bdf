import Semlift.Shell.State

/-!
Where the streams of a command lead. Each redirection opens a file or a text, or makes a stream the
same as another one.
-/

namespace Semlift.Shell

open Semlift.Files

/-- A redirection whose words are expanded. -/
inductive Redirection where
  | file (stream : Nat) (opening : Opening) (path : String)
  | text (stream : Nat) (content : String)
  /-- The same as another stream, or closed. -/
  | sameAs (stream : Nat) (other : Option Nat)
  deriving DecidableEq, Repr

namespace Redirection

def stream : Redirection → Nat
  | .file stream _ _ | .text stream _ | .sameAs stream _ => stream

/-- The other stream that a word names, if it names one. -/
def other? (word : String) : Option (Option Nat) :=
  match word.toList with
  | ['-'] => some none
  | [d] => if d.isDigit then some (some (Text.digitsValue [d])) else none
  | _ => none

def access : Opening → Access
  | .input => .reading
  | .output _ => .writing
  | .append => .appending
  | .both => .both

/-- The channel to an entry that is there, or why it cannot be opened so. -/
def openEntry (s : Session) (stream : Nat) (opening : Opening) (place : List String) :
    Entry → Except String Session
  | .directory =>
    if opening = .input then .ok (s.connectNew stream .drain) else .error "Is a directory"
  | .file _ =>
    let opened (s : Session) : Except String Session :=
      .ok (s.connectNew stream (.file place 0 (access opening)))
    match opening with
    | .output forced =>
      if s.isOn 'C' && !forced then .error "File exists"
      else opened { s with world := { s.world with tree := s.tree.writeAt place "" } }
    | _ => opened s
  | .stream n =>
    match s.channel? n with
    | some channel => .ok (s.connect stream channel)
    | none => .error "No such file"
  | .drain | .program _ => .ok (s.connectNew stream .drain)

/-- Opens a file, or tells why it cannot be opened. -/
def openFile (s : Session) (stream : Nat) (opening : Opening) (path : String) :
    Except String Session :=
  let absent := if opening = .input then "No such file" else "Directory nonexistent"
  match s.tree.resolve (s.path path) with
  | .error .tooLong => .error "File name too long"
  | .error _ => .error absent
  | .ok place =>
    match s.tree.at? place with
    | some e => openEntry s stream opening place e
    | none =>
      if opening = .input || !s.tree.takesFile place then .error absent
      else
        let s := { s with world := { s.world with tree := s.tree.writeAt place "" } }
        .ok (s.connectNew stream (.file place 0 (access opening)))

/-- Carries out a redirection, or complains. -/
def carryOut (s : Session) : Redirection → Except Session Session
  | .file stream opening path =>
    match openFile s stream opening path with
    | .ok s => .ok s
    | .error reason =>
      let verb := if opening = .input then "open" else "create"
      .error (s.report ("cannot " ++ verb ++ " " ++ path ++ ": " ++ reason) 2)
  | .text stream content => .ok (s.connectNew stream (.text content.toList))
  | .sameAs stream none => .ok (s.close stream)
  | .sameAs stream (some other) =>
    match s.channel? other with
    | some channel => .ok (s.connect stream channel)
    | none => .error (s.report (Number.natText other ++ ": Bad file descriptor") 2)

/-- The state with its streams led as redirections say; the first that fails leaves the streams as
they were. -/
def carryOutAll (s : Session) (rs : List Redirection) : Except Session Session :=
  match rs.foldlM carryOut s with
  | .ok s => .ok s
  | .error failed => .error { failed with streams := s.streams }

/-- A state whose redirected streams lead to where they led before. -/
def undo (s old : Session) (rs : List Redirection) : Session :=
  rs.foldl (fun s r =>
    match old.channel? r.stream with
    | some channel => s.connect r.stream channel
    | none => s.close r.stream) s

end Redirection

end Semlift.Shell
