import Semlift.Text.Byte

/-!
Signals by their numbers and names, and what they do to a process that has no wish of its own.
-/

namespace Semlift.Shell.Signal

open Semlift.Text

/-- The names from number 1 on; a few numbers have no other name. -/
def plainNames : List String :=
  ["HUP", "INT", "QUIT", "ILL", "TRAP", "ABRT", "BUS", "FPE", "KILL", "USR1", "SEGV", "USR2",
    "PIPE", "ALRM", "TERM", "16", "CHLD", "CONT", "STOP", "TSTP", "TTIN", "TTOU", "URG", "XCPU",
    "XFSZ", "VTALRM", "PROF", "WINCH", "IO", "PWR", "SYS", "32", "33", "RTMIN"]

/-- The names of the numbers that are free for any use. -/
def freeNames : List String :=
  (List.range 15).map (fun n => "RTMIN+" ++ toString (n + 1)) ++
    (List.range 14).map (fun n => "RTMAX-" ++ toString (14 - n)) ++ ["RTMAX"]

/-- All names by number; number 0 stands for the end of a script. -/
def names : List String := "EXIT" :: plainNames ++ freeNames

def name (n : Nat) : String := names[n]?.getD ""

def kill : Nat := 9
def pipe : Nat := 13
def term : Nat := 15
def interrupt : Nat := 2
def quit : Nat := 3
def child : Nat := 17

/-- The number that a text spells in digits. -/
def ofDigits? (text : String) : Option Nat :=
  if !text.isEmpty && text.toList.all Char.isDigit then
    some (digitsValue text.toList) |>.filter (· < names.length)
  else none

def lower (text : String) : List Char := text.toList.map Char.toLower

/-- The number of a signal by its number or by its name in letters of any case; the end of a script
counts as one only on request. -/
def number? (withEnd : Bool) (text : String) : Option Nat :=
  match ofDigits? text with
  | some n => some n
  | none =>
    if text.toList.all Char.isDigit && !text.isEmpty then none
    else
      let n := names.findIdx fun name => lower name == lower text
      if n < names.length && (withEnd || n ≠ 0) then some n else none

/-- Signals that are ignored unless a process asks for them. -/
def quiet : List Nat := [17, 18, 23, 28]

/-- Signals that no process can refuse. -/
def absolute : List Nat := [9, 19]

/-- What is said of a process that a signal ended. -/
def descriptions : List (Nat × String) :=
  [(1, "Hangup"), (3, "Quit"), (4, "Illegal instruction"), (5, "Trace/breakpoint trap"),
    (6, "Aborted"), (7, "Bus error"), (8, "Floating point exception"), (9, "Killed"),
    (10, "User defined signal 1"), (11, "Segmentation fault"), (12, "User defined signal 2"),
    (14, "Alarm clock"), (15, "Terminated"), (16, "Stack fault"), (24, "CPU time limit exceeded"),
    (25, "File size limit exceeded"), (26, "Virtual timer expired"),
    (27, "Profiling timer expired"), (29, "I/O possible"), (30, "Power failure"),
    (31, "Bad system call"), (32, "Unknown signal 32"), (33, "Unknown signal 33")]

/-- Signals that leave an image of the process behind. -/
def dumping : List Nat := [3, 4, 5, 6, 7, 8, 11, 24, 25, 31]

/-- What is said of a process that a signal ended; nothing of an interrupt or a broken pipe. -/
def description? (n : Nat) : Option String :=
  if n = interrupt || n = pipe then none
  else
    match descriptions.find? (·.1 == n) with
    | some (_, text) => some text
    | none => some ("Real-time signal " ++ toString (n - 34))

end Semlift.Shell.Signal
