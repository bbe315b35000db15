import Rendezvous.Log.Record
import Rendezvous.Text.Pieces
import Rendezvous.Text.Utf8

/-!
# Log filters

The logging library is no part of the agent. This stands in for it where the log of a process is
looked at, and goes no further than that.

A filter is written as a list of directives, each a target with the ceiling for all targets that
begin with it, and may end in a slash and a text that a record has to contain. The directive with
the longest matching target decides. A directive that cannot be read is skipped with a warning, and
a filter with a second slash is skipped whole.

The library takes the text after the slash for a regular expression. Here it is taken literally, so
that a filter is read as the library reads it only if no character of that text has a special
meaning there.
-/

namespace Rendezvous.Simulation

open Text (utf8 trim pieces)
open Log (Level Ceiling Record)

/-! ## Levels and ceilings -/

def allLevels : List Level := [.error, .warn, .info, .debug, .trace]

def levelRank : Level → Nat
  | .error => 1
  | .warn => 2
  | .info => 3
  | .debug => 4
  | .trace => 5

def ceilingRank : Ceiling → Nat
  | none => 0
  | some level => levelRank level

def admits (ceiling : Ceiling) (level : Level) : Bool := levelRank level ≤ ceilingRank ceiling

/-- Reads the name of a ceiling, in upper or lower case letters. -/
def ceilingOfText? (text : List Char) : Option Ceiling :=
  (none :: allLevels.map some).find? fun ceiling : Ceiling =>
    ceiling.name.toList = text.map Char.toUpper

/-- The more talkative of two ceilings. -/
def higherCeiling (a b : Ceiling) : Ceiling := if ceilingRank a < ceilingRank b then b else a

/-! ## Directives -/

/-- A directive without a target is about every target. -/
structure Directive where
  target : Option (List Char)
  ceiling : Ceiling
  deriving DecidableEq, Repr

namespace Directive

/-- The length of the target in bytes, by which directives are ordered. -/
def length (directive : Directive) : Nat :=
  match directive.target with
  | none => 0
  | some target => (utf8 (String.ofList target)).length

def covers (directive : Directive) (target : List Char) : Bool :=
  match directive.target with
  | none => true
  | some start => start.isPrefixOf target

/-- Reads one directive; what cannot be read is handed back for the warning. A lone target, or one
with nothing after its `=`, lets everything pass. -/
def ofPiece (piece : List Char) : Except (List Char) Directive :=
  match piece.splitOn '=' with
  | [lone] =>
    match ceilingOfText? lone with
    | some ceiling => .ok ⟨none, ceiling⟩
    | none => .ok ⟨some lone, some .trace⟩
  | [target, level] =>
    if (trim level).isEmpty then .ok ⟨some target, some .trace⟩
    else match ceilingOfText? (trim level) with
      | some ceiling => .ok ⟨some target, ceiling⟩
      | none => .error (trim level)
  | _ => .error piece

/-- A directive replaces an earlier one about the same target, in its place. -/
def insert : List Directive → Directive → List Directive
  | [], new => [new]
  | old :: rest, new => if old.target = new.target then new :: rest else old :: insert rest new

end Directive

/-! ## Filters -/

/-- Directives by ascending length, and the text that records have to contain. -/
structure LogFilter where
  directives : List Directive
  needle : Option (List Char)
  deriving DecidableEq, Repr

namespace LogFilter

def warning (what : String) : String := "warning: invalid logging spec " ++ what ++ ", ignoring it"

def quoted (text : List Char) : String := "'" ++ String.ofList text ++ "'"

/-- The directives of a list that can be read, and the warnings about those that cannot. -/
def readDirectives (text : List Char) : List Directive × List String :=
  let read := (pieces text).map Directive.ofPiece
  (read.filterMap fun
      | .ok directive => some directive
      | .error _ => none,
    read.filterMap fun
      | .ok _ => none
      | .error junk => some (warning (quoted junk)))

/-- Without a directive only errors pass. -/
def ofDirectives (directives : List Directive) (needle : Option (List Char)) : LogFilter :=
  let kept := directives.foldl Directive.insert []
  let kept := if kept.isEmpty then [⟨none, some .error⟩] else kept
  ⟨kept.mergeSort fun a b => a.length ≤ b.length, needle⟩

/-- Reads a filter, and gives the warnings about what it had to skip. -/
def parse (text : String) : LogFilter × List String :=
  match text.toList.splitOn '/' with
  | [list] =>
    let (directives, warnings) := readDirectives list
    (ofDirectives directives none, warnings)
  | [list, needle] =>
    let (directives, warnings) := readDirectives list
    (ofDirectives directives (some needle), warnings)
  | _ => (ofDirectives [] none, [warning (quoted text.toList ++ " (too many '/'s)")])

/-- The most talkative level that can pass at all. -/
def ceiling (filter : LogFilter) : Ceiling :=
  filter.directives.foldl (fun ceiling directive => higherCeiling ceiling directive.ceiling) none

/-- The longest target that covers the given one decides; if none does, nothing passes. -/
def enables (filter : LogFilter) (target : String) (level : Level) : Bool :=
  match filter.directives.reverse.find? fun directive => directive.covers target.toList with
  | some directive => admits directive.ceiling level
  | none => false

/-- Whether `needle` stands somewhere in the text. -/
def occursIn (needle : List Char) : List Char → Bool
  | [] => needle.isEmpty
  | c :: rest => needle.isPrefixOf (c :: rest) || occursIn needle rest

def containsNeedle (filter : LogFilter) (text : String) : Bool :=
  match filter.needle with
  | some needle => occursIn needle text.toList
  | none => true

def passes (filter : LogFilter) (record : Record) : Bool :=
  filter.enables record.component.target record.level && filter.containsNeedle record.text

end LogFilter

end Rendezvous.Simulation
