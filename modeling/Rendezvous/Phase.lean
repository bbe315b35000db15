/-!
# Phases

The agent passes through four phases and never goes back. The current phase is kept as a byte that
only grows, so that several threads may advance it.
-/

namespace Rendezvous

inductive Phase where
  | unbound | interfaceBound | watching | installed
  deriving DecidableEq, Repr

namespace Phase

def toByte : Phase → UInt8
  | unbound => 0
  | interfaceBound => 1
  | watching => 2
  | installed => 3

/-- A byte beyond the last phase counts as the last phase. -/
def ofByte (byte : UInt8) : Phase :=
  if byte = 0 then unbound
  else if byte = 1 then interfaceBound
  else if byte = 2 then watching
  else installed

def name : Phase → String
  | unbound => "UNBOUND"
  | interfaceBound => "INTERFACE_BOUND"
  | watching => "WATCHING"
  | installed => "INSTALLED"

/-- The phases are ordered by the bytes that stand for them. -/
def isBefore (a b : Phase) : Bool := a.toByte < b.toByte

@[simp] theorem ofByte_toByte (phase : Phase) : ofByte phase.toByte = phase := by
  cases phase <;> rfl

end Phase

theorem max_byte_assoc (a b c : UInt8) : max (max a b) c = max a (max b c) := by
  simp only [max]
  grind

theorem max_byte_zero (a : UInt8) : max a 0 = a := by
  simp only [max]
  grind

theorem le_max_byte (a b : UInt8) : a ≤ max a b := by
  simp only [max]
  grind

structure PhaseCell where
  byte : UInt8
  deriving DecidableEq, Repr

namespace PhaseCell

def new : PhaseCell := ⟨Phase.unbound.toByte⟩

def get (cell : PhaseCell) : Phase := .ofByte cell.byte

/-- Moves on to a phase, unless the cell is already there or beyond; says whether it moved. -/
def advance (cell : PhaseCell) (phase : Phase) : Bool × PhaseCell :=
  (cell.byte < phase.toByte, ⟨max cell.byte phase.toByte⟩)

/-- One request to advance: the phase before, the one asked for, whether the cell moved, and the phase
after. -/
structure Advance where
  before : Phase
  asked : Phase
  moved : Bool
  after : Phase
  deriving DecidableEq, Repr

/-- Advances to one phase after the other. -/
def advances (cell : PhaseCell) : List Phase → List Advance
  | [] => []
  | phase :: rest =>
    let next := (cell.advance phase).2
    ⟨cell.get, phase, (cell.advance phase).1, next.get⟩ :: next.advances rest

@[simp] theorem advance_unbound (cell : PhaseCell) : (cell.advance .unbound).2 = cell := by
  simp only [advance, Phase.toByte, max_byte_zero]

/-- Of two advances the later one decides if it asks for no less. -/
theorem advance_advance (cell : PhaseCell) {first second : Phase}
    (h : first.toByte ≤ second.toByte) :
    ((cell.advance first).2.advance second).2 = (cell.advance second).2 := by
  have hmax : max first.toByte second.toByte = second.toByte := by
    simp only [max]
    grind
  simp only [advance, max_byte_assoc, hmax]

theorem get_advance_installed (cell : PhaseCell) :
    (cell.advance .installed).2.get = .installed := by
  have hle : Phase.installed.toByte ≤ max cell.byte Phase.installed.toByte := by
    simp only [max]
    grind
  simp only [get, advance, Phase.ofByte]
  simp only [Phase.toByte] at hle ⊢
  grind

end PhaseCell

end Rendezvous
