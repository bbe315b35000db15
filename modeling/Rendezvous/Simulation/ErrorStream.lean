import Rendezvous.Log.Logger
import Rendezvous.Simulation.LogFilter
import Rendezvous.Simulation.Terminal

/-!
# The error stream

What a process writes to its error stream follows from what its agent has asked of the logging
library: warnings about each filter that was read, and the records that the filter of the agent's
own logger lets pass. A record loses what a terminal would take as commands, even if that takes its
line end along; a warning keeps all its characters.
-/

namespace Rendezvous

namespace Simulation

open Log (Level Ceiling Record Taker Request Logger)

/-! ## What is written -/

/-- A level as a line of the log shows it, five characters wide. -/
def levelColumn (level : Level) : String :=
  level.name ++ String.ofList (List.replicate (5 - level.name.length) ' ')

/-- Every line but the first is indented by four blanks. -/
def indented (text : List Char) : List Char :=
  text.flatMap fun c => if c = '\n' then ['\n', ' ', ' ', ' ', ' '] else [c]

/-- A record in the error stream: level, target, and the text, whose further lines are indented. -/
def writtenRecord (record : Record) : List Char :=
  let header := "[" ++ levelColumn record.level ++ " " ++ record.component.target ++ "] "
  Terminal.shown (header.toList ++ indented record.text.toList ++ ['\n'])

/-- What one request adds to the stream, under the filter of the agent's own logger. -/
def writtenFor (own : Option LogFilter) : Request → List Char
  | .setUp filter => (LogFilter.parse filter).2.flatMap fun warning => warning.toList ++ ['\n']
  | .write record =>
    if own.any fun filter => filter.passes record then writtenRecord record else []

/-! ## What a process shows -/

/-- A line without the carriage return at its end. -/
def withoutReturn (line : List Char) : List Char :=
  if line.getLast? = some '\r' then line.dropLast else line

/-- A line ends in a line feed, and a carriage return right before it belongs to the end. What comes
after the last line feed is a line of its own, unless it is empty. -/
def linesOf (text : List Char) : List (List Char) :=
  let parts := text.splitOn '\n'
  let ended := parts.dropLast.map withoutReturn
  match parts.getLast? with
  | none | some [] => ended
  | some last => ended ++ [last]

example : linesOf "a\r\nb\rc\n\r\r\n\nd\r".toList =
    ["a".toList, "b\rc".toList, "\r".toList, [], "d\r".toList] := by decide +kernel

end Simulation

namespace Log

open Simulation

def Taker.filter? : Taker → Option LogFilter
  | own filter => some (LogFilter.parse filter).1
  | _ => none

/-- A stranger's logger lets everything pass. -/
def Taker.ceiling : Taker → Ceiling
  | nobody => none
  | stranger => some .trace
  | own filter => (LogFilter.parse filter).1.ceiling

def Taker.enables : Taker → String → Level → Bool
  | nobody, _, _ => false
  | stranger, _, _ => true
  | own filter, target, level => (LogFilter.parse filter).1.enables target level

namespace Logger

/-- The levels enabled for a target, the gravest first. -/
def enabledLevels (logger : Logger) (target : String) : List Level :=
  allLevels.filter fun level => logger.taker.enables target level

/-- The error stream by lines. -/
def lines (logger : Logger) : List String :=
  let own := logger.taker.filter?
  (linesOf (logger.requests.reverse.flatMap (writtenFor own))).map String.ofList

end Logger

end Log

end Rendezvous
