/-!
# Events

The machine tells the agent of events through a table of callbacks with numbered positions, once the
event has been switched on. The agent watches two of them.
-/

namespace Rendezvous

/-- Whether an event is switched on or off. -/
abbrev Mode := Int32

def Mode.enable : Mode := 1
def Mode.disable : Mode := 0

def Mode.ofBool (enable : Bool) : Mode := if enable then .enable else .disable

/-- The events the agent watches, for the whole process. -/
inductive Watched where
  | classPrepare | breakpoint
  deriving DecidableEq, Repr

namespace Watched

/-- In the order in which they are switched on. -/
def all : List Watched := [.classPrepare, .breakpoint]

def number : Watched → UInt32
  | .classPrepare => 56
  | .breakpoint => 62

def name : Watched → String
  | .classPrepare => "ClassPrepare"
  | .breakpoint => "Breakpoint"

end Watched

/-- A table of callbacks, which routes an event to the agent or leaves its position null. Positions
other than those of the two watched events are always null. -/
structure Callbacks where
  classPrepare : Bool
  breakpoint : Bool
  deriving DecidableEq, Repr

namespace Callbacks

/-- The number of the first position. -/
def firstPosition : Nat := 50

/-- The last position is that of the breakpoint event. -/
def positionCount : Nat := Watched.breakpoint.number.toNat + 1 - firstPosition

/-- The size of the table in bytes, of which a position takes eight. -/
def size : Int32 := Int32.ofNat (8 * positionCount)

def none : Callbacks := ⟨false, false⟩

/-- Both watched events reach the agent. -/
def routed : Callbacks := ⟨true, true⟩

def routes (callbacks : Callbacks) : Watched → Bool
  | .classPrepare => callbacks.classPrepare
  | .breakpoint => callbacks.breakpoint

/-- The positions that are not null, ascending. -/
def positions (callbacks : Callbacks) : List UInt32 :=
  (Watched.all.filter callbacks.routes).map Watched.number

example : routed.positions = [56, 62] ∧ size = 104 := by decide

end Callbacks

end Rendezvous
