/-!
# The marker

A marker is the one method at which the agent stops the program: a class, by its signature, and the
name of a method without arguments or result. The breakpoint is at its first instruction.
-/

namespace Rendezvous

structure Marker where
  classSignature : String
  methodName : String
  deriving DecidableEq, Repr

namespace Marker

def standard : Marker := ⟨"Lorg/usvm/instrumentation/ConcolicHelper;", "breakpoint"⟩

/-- The signature of every marker method: no arguments, no result. -/
def methodSignature : String := "()V"

/-- The first instruction of a method. -/
def location : Int64 := 0

/-- The marker method as messages name it. -/
def method (marker : Marker) : String := marker.methodName ++ methodSignature

end Marker

end Rendezvous
