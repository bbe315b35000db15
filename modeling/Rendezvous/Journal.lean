import Rendezvous.Answer
import Rendezvous.Capabilities
import Rendezvous.Event
import Rendezvous.Env

/-!
# The journal

The journal is all that can be seen of a run, in order: calls of the machine's services with their
replies, log records, entries into a hook, and the answers of operations that a hook carries out.
-/

namespace Rendezvous

/-- A call of the machine, with what it was given and what it replied. -/
inductive Call where
  | environment (version : Version) (status : Status)
  | addCapabilities (wanted : Capabilities) (reply : Reply Unit)
  | setEventCallbacks (callbacks : Callbacks) (reply : Reply Unit)
  | setEventNotificationMode (mode : Mode) (event : UInt32) (thread : ThreadId) (reply : Reply Unit)
  | getClassSignature (klass : ClassId) (reply : Reply LentText)
  | getClassMethods (klass : ClassId) (reply : Reply LentTable)
  | getMethodName (method : MethodId) (reply : Reply LentName)
  | setBreakpoint (method : MethodId) (location : Int64) (reply : Reply Unit)
  | deallocate (address : Address) (reply : Reply Unit)

inductive Entry where
  | call (call : Call)
  | log (record : Log.Record)
  | arrival (arrival : Arrival)
  /-- An operation that a hook carried out has come to its end. -/
  | nested (operation : String) (answer : Answer)

def Entry.isLog : Entry → Bool
  | log _ => true
  | _ => false

end Rendezvous
