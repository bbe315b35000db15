import Rendezvous.Simulation.Script

/-!
# Scenarios

A scenario is a host, a hook and a list of steps. It runs in one of two settings. In a session the
process has registered the scenario's own agent and has a logger to which every record goes. In a
fresh process nothing is registered and there is no logger. Each step reports its answer, what was
seen during it, and the state of the agent after it.
-/

namespace Rendezvous.Simulation

structure Scenario where
  host : Host
  /-- The rules of a scripted hook; without them the hook is the one that logs. -/
  script : Option (List Rule)
  steps : List Step

structure StepReport where
  answer : Answer
  trace : List Entry
  phase : Phase
  target : Option MethodId
  hits : UInt64

structure Transcript where
  steps : List StepReport
  /-- The world after the last step. -/
  last : World Host

namespace Scenario

def hook (scenario : Scenario) : Hook Host :=
  match scenario.script with
  | some rules => scriptedHook rules
  | none => Hook.logging

def stormHook (scenario : Scenario) : Hook Host :=
  match scenario.script with
  | some rules => Simulation.stormHook rules
  | none => Hook.logging

/-- Runs one step on an empty journal, and reports it. -/
def runStep (scenario : Scenario) (step : Step) : HostRun StepReport := fun w =>
  let ended := step.run scenario.hook scenario.stormHook { w with journal := [] }
  let agent := ended.2.agent
  (⟨ended.1, ended.2.journal, agent.phase.get, agent.target.get, agent.hits⟩, ended.2)

def runSteps (scenario : Scenario) : List Step → HostRun (List StepReport)
  | [] => pure []
  | step :: rest => do
    let report ← scenario.runStep step
    let reports ← scenario.runSteps rest
    pure (report :: reports)

def runFrom (scenario : Scenario) (registration : Registration) (logger : Log.Logger) :
    Transcript :=
  let ended := scenario.runSteps scenario.steps ⟨.fresh, registration, scenario.host, logger, []⟩
  ⟨ended.1, ended.2⟩

def runSession (scenario : Scenario) : Transcript := scenario.runFrom .itself .present

/-- In a fresh process log records are seen only as the lines that the logger writes. -/
def runProcess (scenario : Scenario) (variableValue : Option String) : Transcript :=
  let transcript := scenario.runFrom .vacant (.absent variableValue)
  { transcript with
    steps := transcript.steps.map fun report =>
      { report with trace := report.trace.filter fun entry => !entry.isLog } }

end Scenario

end Rendezvous.Simulation
