import Rendezvous.Marker
import Rendezvous.Text.Pieces

/-!
# Settings

The options of the agent are a list of `key=value` pieces. A piece either sets one of three things,
or is rejected for a reason that depends on the piece alone; a rejected piece changes nothing. Of
several pieces that set the same thing the last one counts.
-/

namespace Rendezvous

open Text (isBlank trim cutAt? pieces)

structure Settings where
  marker : Marker
  logFilter : Option String
  deriving DecidableEq, Repr

def Settings.standard : Settings := ⟨.standard, none⟩

/-- Whether a text is one part of the internal name of a class. -/
def isNamePart (part : List Char) : Bool :=
  !part.isEmpty && part.all fun c => !(['[', ';', '.', '<', '>'].contains c || isBlank c)

/-- Whether a text is the internal name of a class: parts with slashes between them. -/
def isInternalName (text : List Char) : Bool := (text.splitOn '/').all isNamePart

def isMethodName (text : List Char) : Bool :=
  text.all fun c => !(['.', '/', ';', '[', '<', '>', '(', ')'].contains c || isBlank c)

/-- What stands between the `L` and the `;` of a class signature. -/
def insideSignature? : List Char → Option (List Char)
  | 'L' :: rest => if rest.getLast? = some ';' then some rest.dropLast else none
  | _ => none

/-- The internal name that a class is given by: the inside of its signature, or else a dotted name,
in which a slash may not stand. -/
def internalName? (value : List Char) : Option (List Char) :=
  match insideSignature? value with
  | some inside => some inside
  | none =>
    if value.contains '/' then none
    else some (value.map fun c => if c = '.' then '/' else c)

/-- The signature of the class that a text names, in either spelling. -/
def classSignature? (value : List Char) : Option (List Char) :=
  match internalName? value with
  | some name => if isInternalName name then some ('L' :: name ++ [';']) else none
  | none => none

/-- What one accepted option sets. -/
inductive Setting where
  | classSignature (signature : String)
  | methodName (name : String)
  | logFilter (filter : String)
  deriving DecidableEq, Repr

/-- Why an option is rejected. -/
inductive Objection where
  | noEquals | emptyValue | notClassName | notMethodName | unknownKey
  deriving DecidableEq, Repr

def Objection.message : Objection → String
  | .noEquals => "expected key=value"
  | .emptyValue => "empty value"
  | .notClassName => "not a class name"
  | .notMethodName => "not a method name"
  | .unknownKey => "unknown key"

structure Rejected where
  option : String
  objection : Objection
  deriving DecidableEq, Repr

def Rejected.message (rejected : Rejected) : String :=
  "`" ++ rejected.option ++ "`: " ++ rejected.objection.message

/-- The setting for a key and a value that is not empty. -/
def Setting.ofPair (key value : List Char) : Except Objection Setting :=
  if key = "class".toList then
    match classSignature? value with
    | some signature => .ok (.classSignature (String.ofList signature))
    | none => .error .notClassName
  else if key = "method".toList then
    if isMethodName value then .ok (.methodName (String.ofList value)) else .error .notMethodName
  else if key = "log".toList then .ok (.logFilter (String.ofList value))
  else .error .unknownKey

/-- What a piece sets. An empty value is objected to before an unknown key. -/
def Setting.ofPiece (piece : List Char) : Except Objection Setting :=
  match cutAt? '=' piece with
  | none => .error .noEquals
  | some (key, value) =>
    if (trim value).isEmpty then .error .emptyValue else Setting.ofPair (trim key) (trim value)

namespace Settings

def apply (settings : Settings) : Setting → Settings
  | .classSignature signature => { settings with marker.classSignature := signature }
  | .methodName name => { settings with marker.methodName := name }
  | .logFilter filter => { settings with logFilter := some filter }

/-- The settings that the pieces of a list make, in order. -/
def accepted (parts : List (List Char)) : List Setting :=
  parts.filterMap fun piece => (Setting.ofPiece piece).toOption

def rejected (parts : List (List Char)) : List Rejected :=
  parts.filterMap fun piece =>
    match Setting.ofPiece piece with
    | .ok _ => none
    | .error objection => some ⟨String.ofList piece, objection⟩

/-- Reading options never fails: it gives the settings and the rejected options, in order. -/
def parse (options : String) : Settings × List Rejected :=
  let parts := pieces options.toList
  ((accepted parts).foldl apply standard, rejected parts)

end Settings

end Rendezvous
