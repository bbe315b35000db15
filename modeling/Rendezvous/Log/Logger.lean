import Rendezvous.Log.Record

/-!
# The logger of a process

A process has at most one logger, and the first that is set up stays. What a filter means, which
records it lets pass and how they are written is up to the logging library, and nothing that an
agent does hangs on it. So a logger is no more here than who has been set up, and what the library
has been asked to do.

The agent has a filter for its own logger: the one given, or else the one in an environment
variable, or else a standard one.
-/

namespace Rendezvous.Log

/-- Who takes the records of a process. -/
inductive Taker where
  | nobody
  /-- A logger that someone else has set up, which writes elsewhere. -/
  | stranger
  /-- The agent's own logger, with this filter. -/
  | own (filter : String)
  deriving DecidableEq, Repr

/-- What the agent asks of the logging library. -/
inductive Request where
  /-- To read a filter, and to set up a logger with it unless there is one. -/
  | setUp (filter : String)
  /-- To write a record, if the filter lets it pass. -/
  | write (record : Record)
  deriving DecidableEq, Repr

structure Logger where
  /-- The value of the environment variable, if it is set. -/
  variableValue : Option String
  taker : Taker
  /-- What has been asked of the library, the latest first, without the records that nobody or a
  stranger takes. -/
  requests : List Request
  deriving DecidableEq, Repr

namespace Logger

def variableName : String := "CONCOLIC_AGENT_LOG"

def standardFilter : String := "info"

/-- The logger of a new process. -/
def absent (variableValue : Option String) : Logger := ⟨variableValue, .nobody, []⟩

def present : Logger := ⟨none, .stranger, []⟩

def chooseFilter (logger : Logger) (given : Option String) : String :=
  match given, logger.variableValue with
  | some filter, _ => filter
  | none, some filter => filter
  | none, none => standardFilter

def ask (logger : Logger) (request : Request) : Logger :=
  { logger with requests := request :: logger.requests }

/-- Sets up the logger unless there is one, and says whether it did. The filter is read in either
case. -/
def init (logger : Logger) (given : Option String) : Bool × Logger :=
  let filter := logger.chooseFilter given
  let asked := logger.ask (.setUp filter)
  match logger.taker with
  | .nobody => (true, { asked with taker := .own filter })
  | _ => (false, asked)

/-- A record goes to the one logger that there is. -/
def write (logger : Logger) (record : Record) : Logger :=
  match logger.taker with
  | .own _ => logger.ask (.write record)
  | _ => logger

end Logger

end Rendezvous.Log
