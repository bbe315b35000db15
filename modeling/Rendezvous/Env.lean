/-!
# Reaching the debug interface

The agent reaches the interface through an environment, which the machine hands out on request in a
version asked for. References to machines and environments may be null, or of no use.
-/

namespace Rendezvous

abbrev Version := Int32

/-- The least version that a machine may offer. -/
def Version.first : Version := 0x30010000

/-- The version that the agent asks for. -/
def Version.required : Version := 0x30010200

/-- What native code reports to the machine, and the machine to native code. -/
abbrev Status := Int32

def Status.success : Status := 0
def Status.failure : Status := -1
def Status.unknownVersion : Status := -3

/-- A reference to an environment: null, one without a table of services, or one that works. -/
inductive Env where
  | null | noTable | live
  deriving DecidableEq, Repr

/-- A reference to a machine: null, one without functions, one whose functions cannot hand out an
environment, or one that works. -/
inductive MachineRef where
  | null | noTable | noGetEnv | live
  deriving DecidableEq, Repr

end Rendezvous
