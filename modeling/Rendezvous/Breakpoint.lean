import Rendezvous.World

/-!
# Breakpoint hits

A hit of the recorded method is numbered and goes to the hook, on the thread that made it. Any other
hit is ignored. A hook that panics is contained: the thread carries on, and later hits are numbered
as if nothing had happened.
-/

namespace Rendezvous

variable {σ : Type} (hook : Hook σ)

/-- Takes the next number for a hit. -/
def countHit : Run σ UInt64 := fun w =>
  (w.agent.hits + 1, { w with agent.hits := w.agent.hits + 1 })

/-- What becomes of a hit once its hook has ended. -/
def concludeHit (sequence : UInt64) : HookEnd → Run σ Dispatch
  | .returned => pure (.rendezvous sequence)
  | .panicked => do
    report .error .dispatcher ("rendezvous hook panicked on hit #" ++ Nat.repr sequence.toNat)
    pure (.hookPanicked sequence)

/-- What becomes of a hit that is not one of the recorded method. -/
def ignoreHit (hit : Hit) : Run σ Dispatch := do
  report .trace .dispatcher
    ("ignoring breakpoint in " ++ hit.method.display ++ " at " ++ Int.repr hit.location.toInt)
  pure .ignored

/-- The agent's answer to a breakpoint event. The number is taken before the hook runs, since the
hook may lead to further hits. -/
def breakpointHit (hit : Hit) : Run σ Dispatch := do
  if (← get).agent.target.holds hit.method then
    let sequence ← countHit
    let ending ← hook { hit with sequence }
    concludeHit sequence ending
  else
    ignoreHit hit

end Rendezvous
