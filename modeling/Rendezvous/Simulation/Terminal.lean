/-!
# Text without terminal commands

The logging library keeps terminal commands out of what it writes, and this stands in for it.

A text may hold what a terminal takes as commands: single control characters, and sequences that
begin with an escape character. They are left out of what is shown. Of the control characters only
white space stays: tab, line feed, form feed and carriage return.

White space is shown even within some kinds of command. What follows it is then text up to the next
control character, and there the command goes on.
-/

namespace Rendezvous.Simulation.Terminal

/-- A command that has begun with an escape character, by what it may still hold. -/
inductive Command where
  /-- Nothing has come yet that tells its kind. -/
  | begun
  /-- A short command that holds intermediate characters. -/
  | intermediate
  /-- A control sequence, which a final character ends. -/
  | control
  /-- The head of a device command: nothing yet, parameters, or intermediate characters. -/
  | deviceHead | deviceParameters | deviceIntermediate
  /-- The string of a device command, or a string without a head. -/
  | string
  /-- A command to the operating system, which a bell ends. -/
  | system
  deriving DecidableEq, Repr

/-- Where a reader of the text is. -/
inductive Place where
  /-- In text, which may have broken into a command. -/
  | text (broken : Option Command)
  | command (current : Command)
  deriving DecidableEq, Repr

def isSpacing (c : Char) : Bool := c = '\t' || c = '\n' || c = '\x0c' || c = '\r'

/-- Whether text shows a character. Beyond U+007F all are shown. -/
def isShown (c : Char) : Bool := isSpacing c || (' ' ≤ c && c ≠ '\x7f')

namespace Command

/-- The command after one more character, unless that one ends it. What ends a string is the byte
9C, be it a part of the character only. -/
def next? : Command → Char → Option Command
  | begun, c =>
    if c = '[' then some control
    else if c = ']' then some system
    else if c = 'P' then some deviceHead
    else if c = 'X' || c = '^' || c = '_' then some string
    else if ' ' ≤ c && c ≤ '/' then some intermediate
    else if '0' ≤ c && c ≤ '~' then none
    else some begun
  | intermediate, c => if '0' ≤ c && c ≤ '~' then none else some intermediate
  | control, c => if '@' ≤ c && c ≤ '~' then none else some control
  | deviceHead, c =>
    if ' ' ≤ c && c ≤ '/' then some deviceIntermediate
    else if '0' ≤ c && c ≤ '?' then some deviceParameters
    else if '@' ≤ c && c ≤ '~' then some string
    else some deviceHead
  | deviceParameters, c =>
    if ' ' ≤ c && c ≤ '/' then some deviceIntermediate
    else if '<' ≤ c && c ≤ '~' then some string
    else some deviceParameters
  | deviceIntermediate, c => if '0' ≤ c && c ≤ '~' then some string else some deviceIntermediate
  | string, c => if 0x9C ∈ String.utf8EncodeChar c then none else some string
  | system, c => if c = '\x07' then none else some system

/-- Whether white space within the command is shown. -/
def showsSpacing : Command → Bool
  | begun | intermediate | control => true
  | _ => false

end Command

/-- The place after a character that is not shown. An escape character begins a command anywhere,
and two other characters end any. -/
def Place.afterHidden (broken : Option Command) (c : Char) : Place :=
  if c = '\x1b' then .command .begun
  else if c = '\x18' || c = '\x1a' then .text none
  else match broken.bind fun current => current.next? c with
    | none => .text none
    | some next => .command next

/-- What is shown of a text, from a place on. A character beyond U+007F gives up the command that
the text has broken into. -/
def shownFrom : Place → List Char → List Char
  | _, [] => []
  | .text broken, c :: rest =>
    if isShown c then c :: shownFrom (.text (if c ≤ '\x7f' then broken else none)) rest
    else shownFrom (.afterHidden broken c) rest
  | .command current, c :: rest =>
    if current.showsSpacing && isSpacing c then c :: shownFrom (.text (some current)) rest
    else shownFrom (.afterHidden (some current) c) rest

def shown (text : List Char) : List Char := shownFrom (.text none) text

example : shown "\x1b[31mred\x1b[0m\x07".toList = "red".toList := by decide +kernel
example : shown "a\x1b]0;title\x07b\x1bP1$q\nm\x1b\\c".toList = "abc".toList := by decide +kernel
example : shown "\x1b[1\tm\x08mé".toList = "\tmé".toList := by decide +kernel

end Rendezvous.Simulation.Terminal
