import Rendezvous.World

/-!
# Calling the machine

Each call goes through an environment. Without a table of services the environment is invalid, and
a service that the table lacks is not available; in both cases the machine is not called at all.
What is lent is given back with `release`, which only warns if the machine refuses it.
-/

namespace Rendezvous

variable {σ : Type} (machine : Machine σ) (env : Env)

/-- Calls one service and enters the call into the journal. -/
def callService {α : Type} (service : Service) (ask : σ → Reply α × σ) (entry : Reply α → Call) :
    Run σ (Reply α) := fun w =>
  match env with
  | .null | .noTable => (.error .invalidEnvironment, w)
  | .live =>
    if machine.provides service w.machine then
      let answer := ask w.machine
      (answer.1, { w with
        machine := answer.2
        journal := w.journal ++ [.call (entry answer.1)] })
    else (.error .notAvailable, w)

def addCapabilities (wanted : Capabilities) : Run σ (Reply Unit) :=
  callService machine env .addCapabilities (machine.addCapabilities wanted) (.addCapabilities wanted)

def setEventCallbacks (callbacks : Callbacks) : Run σ (Reply Unit) :=
  callService machine env .setEventCallbacks (machine.setEventCallbacks callbacks)
    (.setEventCallbacks callbacks)

/-- The null thread stands for all threads. -/
def setEventNotificationMode (enable : Bool) (event : UInt32) (thread : ThreadId) :
    Run σ (Reply Unit) :=
  callService machine env .setEventNotificationMode
    (machine.setEventNotificationMode (Mode.ofBool enable) event thread)
    (.setEventNotificationMode (Mode.ofBool enable) event thread)

def getClassSignature (klass : ClassId) : Run σ (Reply LentText) :=
  callService machine env .getClassSignature (machine.getClassSignature klass)
    (.getClassSignature klass)

def getClassMethods (klass : ClassId) : Run σ (Reply LentTable) :=
  callService machine env .getClassMethods (machine.getClassMethods klass) (.getClassMethods klass)

def getMethodName (method : MethodId) : Run σ (Reply LentName) :=
  callService machine env .getMethodName (machine.getMethodName method) (.getMethodName method)

def setBreakpoint (method : MethodId) (location : Int64) : Run σ (Reply Unit) :=
  callService machine env .setBreakpoint (machine.setBreakpoint method location)
    (.setBreakpoint method location)

/-- Giving back null succeeds without a call. -/
def deallocate (address : Address) : Run σ (Reply Unit) :=
  match address with
  | .null => pure (.ok ())
  | address => callService machine env .deallocate (machine.deallocate address) (.deallocate address)

def release (what : String) (address : Address) : Run σ Unit := do
  match ← deallocate machine env address with
  | .ok _ => pure ()
  | .error failure =>
    report .warn .env ("failed to deallocate JVMTI " ++ what ++ ": " ++ failure.message)

def releaseText (text : LentText) : Run σ Unit :=
  release machine env "string" (.ofBuffer? text)

def releaseTable (table : LentTable) : Run σ Unit :=
  release machine env "array" (.ofBuffer? table.buffer)

/-- The name goes back before the signature. -/
def releaseName (lent : LentName) : Run σ Unit := do
  releaseText machine env lent.name
  releaseText machine env lent.signature

end Rendezvous
