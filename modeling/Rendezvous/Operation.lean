import Rendezvous.Registration

/-!
# Operations

The operations are all that can happen to an agent from outside: to it directly, or by way of the
process. Each has an answer, and several of them make a run.
-/

namespace Rendezvous

inductive Operation where
  | attach (options : String)
  | load (options : String)
  | unload
  | activate (env : Env) (settings : Settings)
  | classPrepared (env : Env) (klass : ClassId)
  | breakpointHit (hit : Hit)
  | loadAgent (options : Option Text.Bytes)
  | unloadAgent
  | registerIdle
  | deliverClassPrepared (env : Env) (klass : ClassId)
  | deliverBreakpointHit (hit : Hit)
  deriving DecidableEq, Repr

variable {σ : Type} (machine : Machine σ) (hook : Hook σ)

def Operation.run : Operation → Run σ Answer
  | .attach options => do pure (.load (← Rendezvous.attach machine options))
  | .load options => do pure (.status (← Rendezvous.load machine options))
  | .unload => do
    Rendezvous.unload
    pure .nothing
  | .activate env settings => do pure (.load (← Rendezvous.activate machine env settings))
  | .classPrepared env klass => do
    pure (.outcome (← Rendezvous.classPrepared machine env klass))
  | .breakpointHit hit => do pure (.dispatch (← Rendezvous.breakpointHit hook hit))
  | .loadAgent options => do pure (.status (← Rendezvous.loadAgent machine options))
  | .unloadAgent => do
    Rendezvous.unloadAgent
    pure .nothing
  | .registerIdle => do pure (.flag (← Rendezvous.registerIdle))
  | .deliverClassPrepared env klass => do
    Rendezvous.deliverClassPrepared machine env klass
    pure .nothing
  | .deliverBreakpointHit hit => do
    Rendezvous.deliverBreakpointHit hook hit
    pure .nothing

end Rendezvous
