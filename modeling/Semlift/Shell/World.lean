import Semlift.Files.Tree

/-!
What the processes of a script share: the tree of files, the channels that their streams lead to,
and the signals under way. A clock tells what was written first by processes that run side by side.
-/

namespace Semlift.Shell

open Semlift.Files

/-- A text with the time when it was written, by a process. -/
structure Chunk where
  time : Nat
  process : Nat
  text : String
  deriving DecidableEq, Repr

/-- How a file is opened: it may be read, written, or written at its end only. -/
structure Access where
  reads : Bool
  writes : Bool
  appends : Bool
  deriving DecidableEq, Repr

def Access.reading : Access := ⟨true, false, false⟩
def Access.writing : Access := ⟨false, true, false⟩
def Access.appending : Access := ⟨false, true, true⟩
def Access.both : Access := ⟨true, true, false⟩

inductive Channel where
  /-- A text that is read up. -/
  | text (left : List Char)
  /-- What is written is kept, the last first. -/
  | collected (chunks : List Chunk)
  | file (place : List String) (position : Nat) (access : Access)
  /-- What is written is gone, and nothing can be read. -/
  | drain
  deriving DecidableEq, Repr

/-- A signal sent to a process. -/
structure Message where
  target : Nat
  signal : Nat
  time : Nat
  deriving DecidableEq, Repr

structure World where
  tree : Tree
  channels : Array Channel
  /-- The number of the next process. -/
  nextProcess : Nat
  /-- Signals that their targets have not taken yet. -/
  messages : List Message

/-- Adds a text to those kept, joined to the last one if that was written at the same time. -/
def addChunk (new : Chunk) : List Chunk → List Chunk
  | ⟨time, process, text⟩ :: older =>
    if time = new.time && process = new.process then ⟨time, process, text ++ new.text⟩ :: older
    else new :: ⟨time, process, text⟩ :: older
  | [] => [new]

/-- The texts kept, in the order of their times. -/
def chunksText (chunks : List Chunk) : String :=
  (chunks.reverse.mergeSort fun a b => a.time ≤ b.time).foldl (fun text c => text ++ c.text) ""

/-- A text over another from a position on; zero bytes fill a gap. -/
def overwrite (old : List Char) (position : Nat) (text : List Char) : List Char :=
  old.take position ++ List.replicate (position - old.length) (Char.ofNat 0) ++ text ++
    old.drop (position + text.length)

namespace World

def fileText (w : World) (place : List String) : String :=
  ((w.tree.at? place).map (·.content)).getD ""

/-- Opens a new channel and gives its number. -/
def openChannel (w : World) (c : Channel) : Nat × World :=
  (w.channels.size, { w with channels := w.channels.push c })

/-- What can be read from a channel, if it can be read. -/
def readable? (w : World) (channel : Nat) : Option (List Char) :=
  match w.channels[channel]? with
  | some (.text left) => some left
  | some (.file place position access) =>
    if access.reads then some ((w.fileText place).toList.drop position) else none
  | some .drain => some []
  | some (.collected _) | none => none

/-- Reads so many characters from a channel. -/
def advance (w : World) (channel n : Nat) : World :=
  { w with channels := w.channels.modify channel fun
    | .text left => .text (left.drop n)
    | .file place position access => .file place (position + n) access
    | c => c }

/-- Writes a text to a channel, if it can be written. -/
def write? (w : World) (channel : Nat) (new : Chunk) : Option World :=
  match w.channels[channel]? with
  | some (.collected _) =>
    some { w with channels := w.channels.modify channel fun
      | .collected chunks => .collected (addChunk new chunks)
      | c => c }
  | some (.file place position access) =>
    if access.writes then
      let old := w.fileText place
      let position := if access.appends then old.length else position
      let after := if position = old.length then old ++ new.text
        else String.ofList (overwrite old.toList position new.text.toList)
      some { w with
        tree := w.tree.writeAt place after
        channels := w.channels.set! channel (.file place (position + new.text.length) access) }
    else none
  | some .drain => some w
  | some (.text _) | none => none

/-- Closes a channel for good and gives what was kept in it. -/
def collect (w : World) (channel : Nat) : String × World :=
  let text := match w.channels[channel]? with
    | some (.collected chunks) => chunksText chunks
    | _ => ""
  (text, { w with channels := w.channels.modify channel fun _ => .drain })

/-- Takes back what some processes wrote after a time. -/
def retract (w : World) (isWriter : Nat → Bool) (time : Nat) : World :=
  { w with channels := w.channels.map fun
    | .collected chunks =>
      .collected (chunks.filter fun c => !(isWriter c.process && time < c.time))
    | c => c }

def send (w : World) (m : Message) : World := { w with messages := w.messages ++ [m] }

/-- A number for a new process. -/
def takeProcess (w : World) : Nat × World :=
  (w.nextProcess, { w with nextProcess := w.nextProcess + 1 })

end World

end Semlift.Shell
