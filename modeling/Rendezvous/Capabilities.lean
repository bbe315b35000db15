/-!
# Capabilities

A set of capabilities is 128 bits in four words of 32. The agent needs one of them, the right to
receive breakpoint events.
-/

namespace Rendezvous

structure Capabilities where
  words : Vector UInt32 4
  deriving DecidableEq, Repr

namespace Capabilities

def empty : Capabilities := ⟨Vector.replicate 4 0⟩

/-- The word with one bit set, that of the capability within its word. -/
def mask (bit : Fin 128) : UInt32 := 1 <<< UInt32.ofNat (bit.val % 32)

def get (caps : Capabilities) (bit : Fin 128) : Bool := caps.words[bit.val / 32] &&& mask bit != 0

def set (caps : Capabilities) (bit : Fin 128) (value : Bool) : Capabilities :=
  let word := caps.words[bit.val / 32]
  ⟨caps.words.set (bit.val / 32) (if value then word ||| mask bit else word &&& ~~~ mask bit)⟩

def isEmpty (caps : Capabilities) : Bool := caps.words.all (· == 0)

/-- The right to receive breakpoint events. -/
def breakpointEvents : Fin 128 := 19

/-- What the agent asks for: breakpoint events and nothing else. -/
def required : Capabilities := empty.set breakpointEvents true

/-- The sets that come about as the right to breakpoint events is given, taken, or left. -/
def breakpointTrail (caps : Capabilities) : List (Option Bool) → List Capabilities
  | [] => []
  | change :: rest =>
    let next := match change with
      | some value => caps.set breakpointEvents value
      | none => caps
    next :: next.breakpointTrail rest

def display (caps : Capabilities) : String :=
  "Capabilities [" ++ (if caps.get breakpointEvents then "Breakpoint " else "") ++ "]"

example : required.words = #v[524288, 0, 0, 0] := by decide

end Capabilities

end Rendezvous
