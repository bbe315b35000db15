import Rendezvous.Env
import Rendezvous.ErrorCode
import Rendezvous.Handle

/-!
# What the agent's operations come to

One type for each operation of the agent: loading it, preparing a class, hitting a breakpoint.
Errors are causes, and each has one message.
-/

namespace Rendezvous

/-- Why the agent cannot be loaded. -/
inductive LoadError where
  /-- The machine hands out no environment, and reports this status. -/
  | environment (status : Status)
  | capabilities (code : ErrorCode)
  | callbacks (code : ErrorCode)
  /-- The event of this name cannot be switched on. -/
  | event (name : String) (code : ErrorCode)
  deriving DecidableEq, Repr

def LoadError.message : LoadError → String
  | environment status => "unable to access JVMTI (GetEnv returned " ++ Int.repr status.toInt ++ ")"
  | capabilities code => "unable to add capabilities: " ++ code.message
  | callbacks code => "unable to set event callbacks: " ++ code.message
  | event name code => "unable to enable " ++ name ++ " events: " ++ code.message

/-- What became of one prepared class. -/
inductive Outcome where
  /-- Another class, none of whose methods were looked at. -/
  | notTarget
  /-- The marker class, without the marker method. -/
  | methodNotFound
  | installed (method : MethodId)
  /-- The marker method was found, and the breakpoint refused. -/
  | installFailed (method : MethodId) (failure : Failure)
  /-- The signature or the method table could not be read. -/
  | unreadable (failure : Failure)
  deriving DecidableEq, Repr

/-- A breakpoint event, as the machine delivers it. -/
structure Hit where
  environment : EnvironmentId
  thread : ThreadId
  method : MethodId
  location : Int64
  deriving DecidableEq, Repr

/-- A hit of the marker, with its number: one for the first in the process, on any thread. -/
structure Arrival extends Hit where
  sequence : UInt64
  deriving DecidableEq, Repr

/-- How a hook ends. -/
inductive HookEnd where
  | returned | panicked
  deriving DecidableEq, Repr

/-- What became of one breakpoint event. -/
inductive Dispatch where
  | rendezvous (sequence : UInt64)
  | hookPanicked (sequence : UInt64)
  /-- Another method than the recorded one, or none recorded yet. -/
  | ignored
  deriving DecidableEq, Repr

end Rendezvous
