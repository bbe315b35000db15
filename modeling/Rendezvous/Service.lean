/-!
# Services of the debug interface

The interface is a table of services with numbered slots, of which the agent calls eight. A table
may lack any of them.
-/

namespace Rendezvous

inductive Service where
  | setEventNotificationMode | setBreakpoint | deallocate | getClassSignature
  | getClassMethods | getMethodName | setEventCallbacks | addCapabilities
  deriving DecidableEq, Repr

namespace Service

def all : List Service :=
  [.setEventNotificationMode, .setBreakpoint, .deallocate, .getClassSignature, .getClassMethods,
   .getMethodName, .setEventCallbacks, .addCapabilities]

def name : Service → String
  | .setEventNotificationMode => "SetEventNotificationMode"
  | .setBreakpoint => "SetBreakpoint"
  | .deallocate => "Deallocate"
  | .getClassSignature => "GetClassSignature"
  | .getClassMethods => "GetClassMethods"
  | .getMethodName => "GetMethodName"
  | .setEventCallbacks => "SetEventCallbacks"
  | .addCapabilities => "AddCapabilities"

/-- Slots are counted from one. -/
def slot : Service → Nat
  | .setEventNotificationMode => 2
  | .setBreakpoint => 38
  | .deallocate => 47
  | .getClassSignature => 48
  | .getClassMethods => 52
  | .getMethodName => 64
  | .setEventCallbacks => 122
  | .addCapabilities => 142

def ofName? (text : String) : Option Service := all.find? fun service => service.name = text

theorem mem_all (service : Service) : service ∈ all := by cases service <;> decide

/-- The table ends with the last slot that the agent uses. -/
def slotCount : Nat := (all.map slot).foldl max 0

example : slotCount = 142 ∧ (all.map slot).Nodup := by decide

end Service

/-- The services that a table provides. -/
abbrev ServiceTable := List Service

namespace ServiceTable

def empty : ServiceTable := []
def full : ServiceTable := Service.all

def provides (table : ServiceTable) (service : Service) : Bool := table.contains service
def remove (table : ServiceTable) (service : Service) : ServiceTable :=
  table.filter fun other => other != service

/-- Puts a service into the table or takes it out. -/
def put (table : ServiceTable) (service : Service) (present : Bool) : ServiceTable :=
  if present then service :: table.remove service else table.remove service

@[simp] theorem provides_put (table : ServiceTable) (service other : Service) (present : Bool) :
    (table.put service present).provides other =
      if other = service then present else table.provides other := by
  cases present <;> by_cases h : other = service <;> simp [put, remove, provides, h]

end ServiceTable

end Rendezvous
