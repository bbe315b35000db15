import Rendezvous.Operation
import Rendezvous.Simulation.ErrorStream
import Rendezvous.Simulation.Host

/-!
# Steps

A step is one thing done to an agent on a host: an operation, a part of one, a call of the host, or a
change of the host. Each has an answer.
-/

namespace Rendezvous.Simulation

inductive Step where
  | operation (op : Operation)
  /-- Hits of one method by so many threads, so many times each. -/
  | storm (threads times : Nat) (method : MethodId)
  | bindInterface
  | obtainEnv (version : Version)
  | requestCapabilities (env : Env)
  | startEvents (env : Env) (callbacks : Callbacks)
  | initLogger (filter : Option String)
  | probeLogger (targets : List String)
  | watchClass (env : Env) (klass : ClassId) (marker : Marker)
  | isTargetClass (env : Env) (klass : ClassId) (marker : Marker)
  | findMethod (env : Env) (klass : ClassId) (marker : Marker)
  | arm (env : Env) (method : MethodId) (location : Int64)
  | record (method : MethodId)
  | readTarget (asked : List MethodId)
  | readSignature (env : Env) (klass : ClassId) (asked : List String)
  | readMethods (env : Env) (klass : ClassId)
  | readName (env : Env) (method : MethodId) (asked : List (String × String))
  | setBreakpoint (env : Env) (method : MethodId) (location : Int64)
  | addCapabilities (env : Env) (wanted : Capabilities)
  | setEventCallbacks (env : Env) (callbacks : Callbacks)
  | setEventNotificationMode (env : Env) (enable : Bool) (event : UInt32) (thread : ThreadId)
  | deallocate (env : Env) (address : Address)
  | setFault (key : FaultKey) (fault : Fault)
  | setService (service : Service) (present : Bool)
  | setReference (reference : MachineRef) (env : Env) (status : Status)

/-- A run on a host. -/
abbrev HostRun := Run Host

def updateHost (f : Host → Host) : HostRun Unit := modify fun w => { w with machine := f w.machine }

/-- Runs unseen: the journal is left as it was. -/
def muted {α : Type} (run : HostRun α) : HostRun α := fun w =>
  let ended := run w
  (ended.1, { ended.2 with journal := w.journal })

/-- What becomes of so many unseen hits, one after the other. -/
def repeatHit (hook : Hook Host) (hit : Hit) : Nat → HostRun (List Dispatch)
  | 0 => pure []
  | n + 1 => do
    let first ← muted (breakpointHit hook hit)
    let rest ← repeatHit hook hit n
    pure (first :: rest)

def hitOnThreads (hook : Hook Host) (times : Nat) (method : MethodId) :
    List ThreadId → HostRun (List Dispatch)
  | [] => pure []
  | thread :: rest => do
    let first ← repeatHit hook ⟨.null, thread, method, Marker.location⟩ times
    let others ← hitOnThreads hook times method rest
    pure (first ++ others)

/-- The threads of a storm are numbered from 1. Together they take the next numbers for their hits,
in whatever order they come, so they may as well come one after the other. -/
def storm (hook : Hook Host) (threads times : Nat) (method : MethodId) : HostRun Answer := do
  let dispatches ← hitOnThreads hook times method
    ((List.range threads).map fun k => ⟨UInt64.ofNat (k + 1)⟩)
  pure (.storm
    (dispatches.filterMap fun
      | .rendezvous sequence => some sequence
      | _ => none)
    (dispatches.filterMap fun
      | .hookPanicked sequence => some sequence
      | _ => none)
    (dispatches.count .ignored))

def readSignature (env : Env) (klass : ClassId) (asked : List String) :
    HostRun (Reply TextReading) := do
  match ← getClassSignature Host.machine env klass with
  | .error failure => pure (.error failure)
  | .ok text =>
    releaseText Host.machine env text
    pure (.ok (text.read asked))

def readMethods (env : Env) (klass : ClassId) : HostRun (Reply (List MethodId)) := do
  match ← getClassMethods Host.machine env klass with
  | .error failure => pure (.error failure)
  | .ok table =>
    releaseTable Host.machine env table
    pure (.ok table.methods)

def readName (env : Env) (method : MethodId) (asked : List (String × String)) :
    HostRun (Reply NameReading) := do
  match ← getMethodName Host.machine env method with
  | .error failure => pure (.error failure)
  | .ok lent =>
    releaseName Host.machine env lent
    pure (.ok (lent.read asked))

/-- Does one step. The hook is the agent's, and another takes its place in a storm. -/
def Step.run (hook stormHook : Hook Host) : Step → HostRun Answer
  | .operation op => op.run Host.machine hook
  | .storm threads times method => Simulation.storm stormHook threads times method
  | .bindInterface => do
    let bound ← Rendezvous.bindInterface Host.machine
    pure (.load (bound.map fun _ => ()))
  | .obtainEnv version => do
    let obtained ← Rendezvous.obtainEnv Host.machine version
    pure (.environment (obtained.map fun _ => ()))
  | .requestCapabilities env => do
    pure (.load (← Rendezvous.requestCapabilities Host.machine env))
  | .startEvents env callbacks => do
    pure (.load (← Rendezvous.startEvents Host.machine env callbacks))
  | .initLogger filter => do pure (.flag (← Rendezvous.initLogger filter))
  | .probeLogger targets => do
    let logger := (← get).logger
    pure (.probe logger.taker.ceiling (targets.map logger.enabledLevels))
  | .watchClass env klass marker => do
    pure (.outcome (← Rendezvous.watchClass Host.machine env klass marker))
  | .isTargetClass env klass marker => do
    pure (.isTarget (← Rendezvous.isTargetClass Host.machine env klass marker))
  | .findMethod env klass marker => do
    pure (.found (← Rendezvous.findMethod Host.machine env klass marker))
  | .arm env method location => do
    pure (.unit (← Rendezvous.arm Host.machine env method location))
  | .record method => do
    updateAgent fun agent => { agent with target := agent.target.record method }
    pure .nothing
  | .readTarget asked => do
    let slot := (← get).agent.target
    pure (.target slot.get (asked.map slot.holds))
  | .readSignature env klass asked => do pure (.text (← Simulation.readSignature env klass asked))
  | .readMethods env klass => do pure (.methods (← Simulation.readMethods env klass))
  | .readName env method asked => do pure (.name (← Simulation.readName env method asked))
  | .setBreakpoint env method location => do
    pure (.unit (← Rendezvous.setBreakpoint Host.machine env method location))
  | .addCapabilities env wanted => do
    pure (.unit (← Rendezvous.addCapabilities Host.machine env wanted))
  | .setEventCallbacks env callbacks => do
    pure (.unit (← Rendezvous.setEventCallbacks Host.machine env callbacks))
  | .setEventNotificationMode env enable event thread => do
    pure (.unit (← Rendezvous.setEventNotificationMode Host.machine env enable event thread))
  | .deallocate env address => do
    pure (.unit (← Rendezvous.deallocate Host.machine env address))
  | .setFault key fault => do
    updateHost fun host => { host with faults := host.faults.set key fault }
    pure .nothing
  | .setService service present => do
    updateHost fun host => { host with services := host.services.put service present }
    pure .nothing
  | .setReference reference env status => do
    updateHost fun host => { host with reference, env, status }
    pure .nothing

end Rendezvous.Simulation
