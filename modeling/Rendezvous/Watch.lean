import Rendezvous.Calls

/-!
# Watching for the marker class

Every prepared class is looked at. Most are other classes, and the comparison of one signature
tells. In the marker class the agent looks for the first method with the marker's name and
signature, records it and sets a breakpoint on it.

Everything lent is given back as soon as it has been read: the class signature before the methods
are listed, each name before the next one is asked for, and the method table before a method is
recorded. No failure here is fatal.
-/

namespace Rendezvous

variable {σ : Type} (machine : Machine σ) (env : Env)

/-- Whether the class has the marker's class signature. -/
def isTargetClass (klass : ClassId) (marker : Marker) : Run σ (Reply Bool) := do
  match ← getClassSignature machine env klass with
  | .error failure => pure (.error failure)
  | .ok text =>
    releaseText machine env text
    pure (.ok (text.is marker.classSignature))

/-- Whether the method has the marker's name and signature. A method that cannot be read has not. -/
def isMarkerMethod (marker : Marker) (method : MethodId) : Run σ Bool := do
  match ← getMethodName machine env method with
  | .error failure =>
    report .debug .watcher ("skipping method " ++ method.display ++ ": " ++ failure.message)
    pure false
  | .ok lent =>
    releaseName machine env lent
    pure (lent.is marker.methodName Marker.methodSignature)

/-- The first marker method of a list; the methods behind it are not looked at. -/
def firstMarkerMethod (marker : Marker) : List MethodId → Run σ (Option MethodId)
  | [] => pure none
  | method :: rest => do
    if ← isMarkerMethod machine env marker method then pure (some method)
    else firstMarkerMethod marker rest

/-- The first marker method of a class, in the machine's order. -/
def findMethod (klass : ClassId) (marker : Marker) : Run σ (Reply (Option MethodId)) := do
  match ← getClassMethods machine env klass with
  | .error failure => pure (.error failure)
  | .ok table =>
    let found ← firstMarkerMethod machine env marker table.methods
    releaseTable machine env table
    pure (.ok found)

/-- Records the method as the one whose hits are waited for. -/
def recordMethod (method : MethodId) : Run σ Unit :=
  updateAgent fun agent => { agent with target := agent.target.record method }

/-- Records the method and sets a breakpoint in it. The method is recorded first, so that no hit of
the breakpoint can come before it; a refused breakpoint leaves it recorded. -/
def arm (method : MethodId) (location : Int64) : Run σ (Reply Unit) := do
  recordMethod method
  setBreakpoint machine env method location

/-- What the reply to setting the breakpoint comes to. -/
def concludeArming (marker : Marker) (method : MethodId) : Reply Unit → Run σ Outcome
  | .ok _ => do
    report .info .watcher
      ("breakpoint set at " ++ marker.method ++ ":" ++ Int.repr Marker.location.toInt)
    pure (.installed method)
  | .error failure => do
    report .warn .watcher
      ("unable to set breakpoint on " ++ marker.methodName ++ ": " ++ failure.message)
    pure (.installFailed method failure)

/-- Sets the breakpoint in the marker method that was found. -/
def armMarker (marker : Marker) (method : MethodId) : Run σ Outcome := do
  report .info .watcher ("found " ++ marker.method)
  let reply ← arm machine env method Marker.location
  concludeArming marker method reply

/-- Looks at the methods of the marker class. -/
def watchMarkerClass (klass : ClassId) (marker : Marker) : Run σ Outcome := do
  report .info .watcher ("class " ++ marker.classSignature ++ " prepared")
  match ← findMethod machine env klass marker with
  | .error failure =>
    report .warn .watcher
      ("unable to list methods of " ++ marker.classSignature ++ ": " ++ failure.message)
    pure (.unreadable failure)
  | .ok none =>
    report .warn .watcher
      (marker.classSignature ++ " has no method " ++ marker.method ++ ", no breakpoint installed")
    pure .methodNotFound
  | .ok (some method) => armMarker machine env marker method

/-- Looks at one prepared class. -/
def watchClass (klass : ClassId) (marker : Marker) : Run σ Outcome := do
  match ← isTargetClass machine env klass marker with
  | .error failure =>
    report .debug .watcher ("unable to read class signature: " ++ failure.message)
    pure (.unreadable failure)
  | .ok false => pure .notTarget
  | .ok true => watchMarkerClass machine env klass marker

/-- Advances the phase if a breakpoint has been set; the phase is logged only by the class that
reaches it. -/
def noteInstalled : Outcome → Run σ Unit
  | .installed _ => do
    if ← advancePhase .installed then report .debug .agent ("phase " ++ Phase.installed.name)
  | _ => pure ()

/-- The agent's answer to a prepared class. Before it has settings it looks at none. -/
def classPrepared (klass : ClassId) : Run σ Outcome := do
  match (← get).agent.settings with
  | none => pure .notTarget
  | some settings =>
    let outcome ← watchClass machine env klass settings.marker
    noteInstalled outcome
    pure outcome

end Rendezvous
