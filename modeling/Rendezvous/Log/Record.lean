/-!
# Log records

A record has a level, the component that speaks, and a text. A ceiling is the most talkative level
that passes somewhere; the ceiling "off" lets none pass.
-/

namespace Rendezvous.Log

/-- From the gravest to the most talkative. -/
inductive Level where
  | error | warn | info | debug | trace
  deriving DecidableEq, Repr

def Level.name : Level → String
  | error => "ERROR"
  | warn => "WARN"
  | info => "INFO"
  | debug => "DEBUG"
  | trace => "TRACE"

/-- The most talkative level that passes, if any does. -/
abbrev Ceiling := Option Level

def Ceiling.name : Ceiling → String
  | none => "OFF"
  | some level => level.name

/-- Who speaks in a record. -/
inductive Component where
  | agent | binding | dispatcher | env | events | watcher
  deriving DecidableEq, Repr

def Component.target : Component → String
  | .agent => "concolic_agent::agent"
  | .binding => "concolic_agent::binding"
  | .dispatcher => "concolic_agent::dispatcher"
  | .env => "concolic_agent::env"
  | .events => "concolic_agent::events"
  | .watcher => "concolic_agent::watcher"

structure Record where
  level : Level
  component : Component
  text : String
  deriving DecidableEq, Repr

end Rendezvous.Log
