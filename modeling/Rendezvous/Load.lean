import Rendezvous.Calls

/-!
# Loading the agent

The agent is loaded in stages: options, logger, environment, capability, callbacks, events. The
first failure ends the load, and nothing that was done is undone. Options cannot fail.
-/

namespace Rendezvous

variable {σ : Type} (machine : Machine σ)

/-- Asks a machine for its environment. Where there is nothing to ask, or a null environment comes
back, the status is failure. -/
def obtainEnv (version : Version) : Run σ (Except Status Env) := fun w =>
  match machine.reference w.machine with
  | .null | .noTable | .noGetEnv => (.error Status.failure, w)
  | .live =>
    let answer := machine.environment version w.machine
    let called := { w with
      machine := answer.2
      journal := w.journal ++ [.call (.environment version answer.1.1)] }
    if answer.1.1 = Status.success then
      match answer.1.2 with
      | .null => (.error Status.failure, called)
      | env => (.ok env, called)
    else (.error answer.1.1, called)

/-- The environment in the version that the agent needs. -/
def bindInterface : Run σ (Except LoadError Env) := do
  match ← obtainEnv machine Version.required with
  | .ok env => pure (.ok env)
  | .error status => pure (.error (.environment status))

variable (env : Env)

def requestCapabilities : Run σ (Except LoadError Unit) := do
  report .debug .binding ("requesting " ++ Capabilities.required.display)
  match ← addCapabilities machine env .required with
  | .ok _ => pure (.ok ())
  | .error failure => pure (.error (.capabilities failure.val))

/-- Switches events on for all threads, one after the other. -/
def enableEvents : List Watched → Run σ (Except LoadError Unit)
  | [] => pure (.ok ())
  | event :: rest => do
    match ← setEventNotificationMode machine env true event.number .null with
    | .error failure => pure (.error (.event event.name failure.val))
    | .ok _ =>
      report .debug .events ("enabled " ++ event.name ++ " events")
      enableEvents rest

def startEvents (callbacks : Callbacks) : Run σ (Except LoadError Unit) := do
  match ← setEventCallbacks machine env callbacks with
  | .error failure => pure (.error (.callbacks failure.val))
  | .ok _ => enableEvents machine env Watched.all

/-- The first settings stay; later ones are dropped with a warning. -/
def configure (settings : Settings) : Run σ Unit := do
  match (← get).agent.settings with
  | none => updateAgent fun agent => { agent with settings := some settings }
  | some _ => report .warn .agent "agent already configured, keeping the first options"

/-- Starts to watch. The settings are fixed before any event is switched on, so that no event meets
an agent without them. -/
def activate (settings : Settings) : Run σ (Except LoadError Unit) := do
  configure settings
  match ← requestCapabilities machine env with
  | .error failure => pure (.error failure)
  | .ok _ =>
    let _ ← advancePhase .interfaceBound
    match ← startEvents machine env .routed with
    | .error failure => pure (.error failure)
    | .ok _ =>
      let _ ← advancePhase .watching
      report .debug .agent ("phase " ++ (← get).agent.phase.get.name)
      pure (.ok ())

/-- Warns of each rejected option. -/
def reportRejected : List Rejected → Run σ Unit
  | [] => pure ()
  | option :: rest => do
    report .warn .agent ("ignoring agent option " ++ option.message)
    reportRejected rest

/-- Reads the options, sets up the logger, and says what will be watched for. -/
def announce (options : String) : Run σ Settings := do
  let parsed := Settings.parse options
  let _ ← initLogger parsed.1.logFilter
  reportRejected parsed.2
  report .info .agent
    ("loading, target " ++ parsed.1.marker.classSignature ++ "." ++ parsed.1.marker.method)
  pure parsed.1

/-- The whole load, from the text of the options to watching. -/
def attach (options : String) : Run σ (Except LoadError Unit) := do
  let settings ← announce options
  match ← bindInterface machine with
  | .error failure => pure (.error failure)
  | .ok env => activate machine env settings

/-- Loads the agent for the machine, which takes a status. -/
def load (options : String) : Run σ Status := do
  match ← attach machine options with
  | .ok _ =>
    report .info .agent "agent loaded, waiting for the marker class"
    pure Status.success
  | .error failure =>
    report .error .agent ("agent failed to load: " ++ failure.message)
    pure Status.failure

def unload : Run σ Unit := do
  let agent := (← get).agent
  report .info .agent
    ("agent unloaded (" ++ Nat.repr agent.hits.toNat ++ " rendezvous hits, phase " ++
      agent.phase.get.name ++ ")")

end Rendezvous
