import Rendezvous.Simulation.Step

/-!
# Scripted hooks

A script says what the hook does at which hit: for each rule about the number of the hit, in order,
it does the rule's steps, and then panics if the rule says so. The steps may lead to further hits,
and so into the hook again.
-/

namespace Rendezvous.Simulation

/-- The journal refers to a step of a script by its label. -/
structure LabelledStep where
  label : String
  step : Step

structure Rule where
  sequence : UInt64
  steps : List LabelledStep
  panics : Bool

/-- Does steps within a hook, and notes how each ends. -/
def runNested (hook stormHook : Hook Host) : List LabelledStep → HostRun Unit
  | [] => pure ()
  | labelled :: rest => do
    let answer ← labelled.step.run hook stormHook
    note (.nested labelled.label answer)
    runNested hook stormHook rest

/-- Follows rules until one panics. -/
def followRules (hook stormHook : Hook Host) : List Rule → HostRun HookEnd
  | [] => pure .returned
  | rule :: rest => do
    runNested hook stormHook rule.steps
    if rule.panics then pure .panicked else followRules hook stormHook rest

/-- The rules about one hit. -/
def rulesFor (rules : List Rule) (arrival : Arrival) : List Rule :=
  rules.filter fun rule => rule.sequence = arrival.sequence

/-- The hook in a storm, which ends as the rules say but does none of their steps. -/
def stormHook (rules : List Rule) : Hook Host := fun arrival =>
  pure (if (rulesFor rules arrival).any Rule.panics then .panicked else .returned)

/-- The hook of a script, which follows rules up to `depth` times within itself. -/
def scriptedHookTo (rules : List Rule) : Nat → Hook Host
  | 0 => fun arrival => do
    note (.arrival arrival)
    pure .returned
  | depth + 1 => fun arrival => do
    note (.arrival arrival)
    followRules (scriptedHookTo rules depth) (stormHook rules) (rulesFor rules arrival)

/-- The hook of a script. A hit within the hook has a higher number than the hit around it, so no
rule is followed within itself, and as many levels as there are rules are enough. -/
def scriptedHook (rules : List Rule) : Hook Host := scriptedHookTo rules rules.length

end Rendezvous.Simulation
