import Rendezvous.Journal
import Rendezvous.Service

/-!
# Virtual machines

A virtual machine, seen from the agent, is a table of services over a state of its own. Nothing is
assumed of what a service replies, of when it fails, or of what it does to that state.
-/

namespace Rendezvous

structure Machine (σ : Type) where
  /-- How the agent can reach the machine. -/
  reference : σ → MachineRef
  provides : Service → σ → Bool
  /-- A status and, if the status is success, an environment. -/
  environment : Version → σ → (Status × Env) × σ
  addCapabilities : Capabilities → σ → Reply Unit × σ
  setEventCallbacks : Callbacks → σ → Reply Unit × σ
  setEventNotificationMode : Mode → UInt32 → ThreadId → σ → Reply Unit × σ
  getClassSignature : ClassId → σ → Reply LentText × σ
  getClassMethods : ClassId → σ → Reply LentTable × σ
  getMethodName : MethodId → σ → Reply LentName × σ
  setBreakpoint : MethodId → Int64 → σ → Reply Unit × σ
  deallocate : Address → σ → Reply Unit × σ

end Rendezvous
