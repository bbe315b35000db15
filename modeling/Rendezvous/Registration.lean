import Rendezvous.Watch
import Rendezvous.Load
import Rendezvous.Breakpoint

/-!
# The agent in its process

A process registers one agent for good. The machine loads and unloads an agent, and delivers events,
by way of the process: each goes to whatever is registered. The agent that a load registers is a
fresh one with the hook that logs.
-/

namespace Rendezvous

variable {σ : Type} (machine : Machine σ) (hook : Hook σ)

/-- Registers something without interest in events, unless the place is taken. -/
def registerIdle : Run σ Bool := do
  match (← get).registration with
  | .vacant =>
    modify fun w => { w with registration := .idle }
    pure true
  | _ => pure false

/-- Runs an operation on another agent, in whose world that agent is the registered one. -/
def onAnother {α : Type} (other : Agent) (run : Run σ α) : Run σ α := fun w =>
  let ended := run { w with agent := other, registration := .itself }
  (ended.1, { ended.2 with agent := w.agent, registration := .another ended.2.agent })

/-- The text of options, which are the bytes before the first zero byte, or null for none. -/
def optionsText : Option Text.Bytes → String
  | none => ""
  | some bytes => Text.ofUtf8 (Text.beforeZero bytes)

/-- Loads an agent into the process. A second load is refused, and does nothing. -/
def loadAgent (options : Option Text.Bytes) : Run σ Status := do
  match (← get).registration with
  | .vacant => onAnother .fresh (load machine (optionsText options))
  | _ => pure Status.failure

def unloadAgent : Run σ Unit := do
  match (← get).registration with
  | .vacant | .idle => pure ()
  | .itself => unload
  | .another other => onAnother other unload

/-- Delivers a class-prepare event. -/
def deliverClassPrepared (env : Env) (klass : ClassId) : Run σ Unit := do
  match (← get).registration with
  | .vacant | .idle => pure ()
  | .itself => let _ ← classPrepared machine env klass
  | .another other => onAnother other do let _ ← classPrepared machine env klass

/-- Delivers a breakpoint event. -/
def deliverBreakpointHit (hit : Hit) : Run σ Unit := do
  match (← get).registration with
  | .vacant | .idle => pure ()
  | .itself => let _ ← breakpointHit hook hit
  | .another other => onAnother other do let _ ← breakpointHit Hook.logging hit

end Rendezvous
