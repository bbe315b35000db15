import Rendezvous.Outcome
import Rendezvous.Lent
import Rendezvous.Log.Record

/-!
# Answers

Each thing that can be done to an agent has an answer, and so has each call of the machine. What is
lent is read before it goes back, and the answer holds what was read.
-/

namespace Rendezvous

/-- What one reads of a lent string before it is given back. -/
structure TextReading where
  isNull : Bool
  bytes : Option Text.Bytes
  display : String
  /-- For each text asked about, whether the string is that text. -/
  is : List Bool
  deriving DecidableEq, Repr

def LentText.read (text : LentText) (asked : List String) : TextReading :=
  ⟨text.isNone, text.bytes?, text.display, asked.map text.is⟩

structure NameReading where
  name : TextReading
  signature : TextReading
  /-- For each pair asked about, whether name and signature are that pair. -/
  is : List Bool
  deriving DecidableEq, Repr

def LentName.read (lent : LentName) (asked : List (String × String)) : NameReading :=
  ⟨lent.name.read [], lent.signature.read [], asked.map fun pair => lent.is pair.1 pair.2⟩

/-- What an operation answers. -/
inductive Answer where
  | nothing
  | flag (value : Bool)
  | status (value : Status)
  | load (result : Except LoadError Unit)
  | environment (result : Except Status Unit)
  | outcome (value : Outcome)
  | dispatch (value : Dispatch)
  /-- The numbers of the hits whose hook returned, of those whose hook panicked, and how many hits
  were ignored. -/
  | storm (rendezvous panicked : List UInt64) (ignored : Nat)
  | unit (reply : Reply Unit)
  | isTarget (reply : Reply Bool)
  | found (reply : Reply (Option MethodId))
  | target (recorded : Option MethodId) (holds : List Bool)
  | text (reply : Reply TextReading)
  | methods (reply : Reply (List MethodId))
  | name (reply : Reply NameReading)
  | probe (ceiling : Log.Ceiling) (enabled : List (List Log.Level))

end Rendezvous
