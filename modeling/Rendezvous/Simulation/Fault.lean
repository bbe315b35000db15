import Rendezvous.Service
import Rendezvous.ErrorCode

/-!
# Faults

A fault makes calls of a service report a code instead of doing anything. It may strike every call
or chosen ones, counted from one. The service that switches events is also counted, and may fail,
for each event apart.
-/

namespace Rendezvous.Simulation

/-- What calls are counted for, and what a fault is about. -/
inductive FaultKey where
  | service (service : Service)
  | mode (event : UInt32)
  deriving DecidableEq, Repr

/-- Reads the name of a service, or of the mode of one event. -/
def FaultKey.ofText? (text : String) : Option FaultKey :=
  match Service.ofName? text with
  | some found => some (.service found)
  | none =>
    match text.splitOn ":" with
    | [name, event] =>
      if name = Service.setEventNotificationMode.name then
        event.toNat?.map fun number => .mode (UInt32.ofNat number)
      else none
    | _ => none

/-- The code that the n-th call reports, if the fault strikes it. -/
abbrev Fault := Nat → Option ErrorCode

namespace Fault

def never : Fault := fun _ => none
def always (code : ErrorCode) : Fault := fun _ => some code
def on (code : ErrorCode) (calls : List Nat) : Fault := fun n =>
  if calls.contains n then some code else none

end Fault

abbrev FaultPlan := FaultKey → Fault

namespace FaultPlan

def none : FaultPlan := fun _ => Fault.never

def set (plan : FaultPlan) (key : FaultKey) (fault : Fault) : FaultPlan :=
  fun other => if other = key then fault else plan other

def ofList (faults : List (FaultKey × Fault)) : FaultPlan :=
  faults.foldl (fun plan entry => plan.set entry.1 entry.2) none

@[simp] theorem set_other (plan : FaultPlan) {key other : FaultKey} (fault : Fault)
    (h : other ≠ key) : plan.set key fault other = plan other := by simp [set, h]

end FaultPlan

end Rendezvous.Simulation
