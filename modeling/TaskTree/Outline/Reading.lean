/-
Reading a whole outline.

The events of all lines are offered one after another to a handler, which
keeps a state and may refuse an event. The first refusal or fault of
spelling ends the reading, and the state that the handler has reached by
then is still given.

Lines end at line feeds. A fault carries the number of its line and the
rest of that line, without the carriage returns at its end.
-/
import TaskTree.Outline.Line

namespace TaskTree.Outline

/-- The lines of a text: what stands between line feeds. -/
def splitLines : List Char → List (List Char)
  | [] => [[]]
  | c :: rest =>
    if c = '\n' then [] :: splitLines rest
    else
      match splitLines rest with
      | [] => [[c]]
      | line :: lines => (c :: line) :: lines

/-- The number of the last line; an empty one at the end does not count
unless it is the only one. -/
def lastLine (cs : List Char) : Nat :=
  let lines := splitLines cs
  max 1 (if lines.getLast? = some [] then lines.length - 1 else lines.length)

/-- Why a text could not be read. `ε` is what the handler says when it
refuses an event. -/
inductive ReadFault (ε : Type) where
  | malformed (line : Nat) (near : String) (cause : SyntaxFault)
  | refused (line : Nat) (near : String) (cause : ε)
  /-- There was no text to read. -/
  | unreadable (reason : String)
  deriving DecidableEq, Repr

namespace ReadFault

variable {ε : Type}

/-- Where a fault was found, in messages. -/
def placed (line : Nat) (near : String) : String :=
  "error parsing behavior tree on line " ++ toString line ++ " near: " ++ near

/-- The wording of a fault. -/
def message : ReadFault ε → String
  | .malformed line near cause =>
    placed line near ++ " (" ++ cause.message ++ ")"
  | .refused line near _ => placed line near
  | .unreadable reason => "failed to read behavior tree source: " ++ reason

/-- The stable code of a fault. -/
def code : ReadFault ε → String
  | .malformed _ _ cause => cause.code
  | .refused _ _ _ => "PARSE_REJECTED"
  | .unreadable _ => "PARSE_IO"

/-- The line of a fault, if it lies in the text. -/
def line? : ReadFault ε → Option Nat
  | .malformed line _ _ | .refused line _ _ => some line
  | .unreadable _ => none

end ReadFault

/-- Takes an event: the next state, and a reason if the event is refused. -/
abbrev Handler (σ ε : Type) := Event → σ → σ × Option ε

/-- The rest of a line as faults show it. -/
def near (rest : List Char) : String := String.ofList (trimReturns rest)

/-- Offers the events of a line to a handler, up to its first refusal. -/
def offer {σ ε : Type} (handler : Handler σ ε) (line : Nat) :
    List Mark → σ → σ × Option (ReadFault ε)
  | [], state => (state, none)
  | (event, rest) :: marks, state =>
    match handler event state with
    | (state, some cause) => (state, some (.refused line (near rest) cause))
    | (state, none) => offer handler line marks state

/-- The events of a reading that a listener gets, with or without
comments. -/
def Reading.offered (reading : Reading) (comments : Bool) : List Mark :=
  if comments then reading.marks
  else reading.marks.filter fun mark => !mark.1.isComment

/-- Reads lines, the first of which has the given number. -/
def readLines {σ ε : Type} (comments : Bool) (handler : Handler σ ε) :
    Nat → List (List Char) → σ → σ × Option (ReadFault ε)
  | _, [], state => (state, none)
  | number, line :: lines, state =>
    let reading := readLine line
    match offer handler number (reading.offered comments) state with
    | (state, some fault) => (state, some fault)
    | (state, none) =>
      match reading.stop with
      | .error (cause, rest) =>
        (state, some (.malformed number (near rest) cause))
      | .ok _ => readLines comments handler (number + 1) lines state

/-- Reads a text. -/
def read {σ ε : Type} (comments : Bool) (handler : Handler σ ε) (text : String)
    (state : σ) :
    σ × Option (ReadFault ε) :=
  readLines comments handler 1 (splitLines text.toList) state

-- =============================================================== sources

/-- A stream of bytes, which may break off with a failure instead of coming
to its end. -/
structure Source where
  bytes : ByteArray
  failure : Option String

/-- The text of a source, or the reason why it has none. A failure of the
stream is noticed before the bytes are looked at. -/
def Source.text (source : Source) : Except String String :=
  match source.failure with
  | some reason => .error reason
  | none =>
    match String.fromUTF8? source.bytes with
    | some text => .ok text
    | none => .error "stream did not contain valid UTF-8"

/-- Reads the text of a source. -/
def readSource {σ ε : Type} (comments : Bool) (handler : Handler σ ε)
    (source : Source) (state : σ) : σ × Option (ReadFault ε) :=
  match source.text with
  | .error reason => (state, some (.unreadable reason))
  | .ok text => read comments handler text state

end TaskTree.Outline
