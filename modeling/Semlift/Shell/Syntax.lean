/-!
Scripts of the command language: words with expansions, and commands.
-/

namespace Semlift.Shell

/-- The part of a value that a pattern takes away. -/
inductive Cut where
  | shortestStart
  | longestStart
  | shortestEnd
  | longestEnd
  deriving DecidableEq, Repr

/-- What a word beside a parameter is for. -/
inductive Purpose where
  /-- It is used in place of a missing value. -/
  | fallback
  /-- It is used in place of a missing value, which it becomes. -/
  | assign
  /-- It says what is wrong when the value is missing. -/
  | complain
  /-- It is used in place of a value that is there. -/
  | instead
  deriving DecidableEq, Repr

/-- How a redirection opens a file. -/
inductive Opening where
  | input
  /-- A file that is there may be kept from being written over, unless `forced`. -/
  | output (forced : Bool)
  | append
  | both
  deriving DecidableEq, Repr

mutual

/-- A piece of a word. What is quoted is neither split nor read as a pattern. -/
inductive Piece where
  | text (s : String) (quoted : Bool)
  | variable (name : String) (quoted : Bool)
  /-- The number of characters of a value. -/
  | length (name : String) (quoted : Bool)
  | cut (name : String) (cut : Cut) (pattern : List Piece) (quoted : Bool)
  /-- A value with a word for the case that it is missing, which an empty value may count as. -/
  | guarded (name : String) (purpose : Purpose) (emptyIsMissing : Bool) (word : List Piece)
    (quoted : Bool)
  | arithmetic (expression : List Piece) (quoted : Bool)
  /-- The output of a command. -/
  | output (c : Command) (quoted : Bool)
  /-- A parameter in braces that makes no sense; that is told only when it is expanded. -/
  | senseless

/-- Where a stream of a command comes from or goes to. -/
inductive Redirect where
  | file (stream : Nat) (opening : Opening) (path : List Piece)
  /-- A text of the script itself is the input. -/
  | here (stream : Nat) (content : List Piece)
  /-- The number of another stream, or a minus sign for none. -/
  | sameAs (stream : Nat) (other : List Piece)

inductive Command where
  | nothing
  | simple (line : Nat) (assignments : List (String × List Piece)) (words : List (List Piece))
    (redirects : List Redirect)
  | redirected (line : Nat) (body : Command) (redirects : List Redirect)
  | subshell (body : Command)
  /-- Runs beside the script, which goes on as after a success. -/
  | beside (body : Command)
  | define (name : String) (body : Command)
  | seq (first second : Command)
  | and (first second : Command)
  | or (first second : Command)
  | not (body : Command)
  | pipe (first second : Command)
  | branch (condition body other : Command)
  /-- A loop as long as the condition succeeds, or as long as it fails. -/
  | loop (succeeds : Bool) (condition body : Command)
  | forEach (line : Nat) (name : String) (words : Option (List (List Piece))) (body : Command)
  | choose (line : Nat) (word : List Piece) (arms : List (List (List Piece) × Command))

end

abbrev Word := List Piece

/-- The commands whose errors end a script. No definition can have their names. -/
def specialNames : List String :=
  [":", ".", "break", "continue", "eval", "exec", "exit", "export", "local", "readonly", "return",
    "set", "shift", "times", "trap", "unset"]

end Semlift.Shell
