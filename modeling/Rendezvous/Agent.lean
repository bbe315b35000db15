import Rendezvous.Handle
import Rendezvous.Settings
import Rendezvous.Phase

/-!
# The state of an agent

An agent holds its settings, its phase, the marker method it has found, and the number of hits that
reached its hook.
-/

namespace Rendezvous

/-- The recorded marker method; the null handle stands for none. -/
structure TargetSlot where
  stored : MethodId
  deriving DecidableEq, Repr

namespace TargetSlot

def unset : TargetSlot := ⟨.null⟩

/-- Whatever was recorded before is forgotten. -/
def record (_slot : TargetSlot) (method : MethodId) : TargetSlot := ⟨method⟩

def get (slot : TargetSlot) : Option MethodId :=
  if slot.stored.isNull then none else some slot.stored

/-- Whether a method is recorded and is this one. -/
def holds (slot : TargetSlot) (method : MethodId) : Bool :=
  !method.isNull && slot.stored = method

/-- The slots that come about as methods are recorded or not. -/
def trail (slot : TargetSlot) : List (Option MethodId) → List TargetSlot
  | [] => []
  | method? :: rest =>
    let next := match method? with
      | some method => slot.record method
      | none => slot
    next :: next.trail rest

@[simp] theorem get_unset : unset.get = none := rfl

theorem get_record (slot : TargetSlot) {method : MethodId} (h : method ≠ .null) :
    (slot.record method).get = some method := by
  simp [get, record, Handle.isNull_eq_false.mpr h]

theorem holds_iff {slot : TargetSlot} {m : MethodId} : slot.holds m = true ↔ slot.get = some m := by
  unfold holds get
  by_cases h : slot.stored = m
  · subst h; cases hn : slot.stored.isNull <;> simp
  · by_cases hn : slot.stored.isNull = true <;> simp [h, hn]

end TargetSlot

structure Agent where
  /-- The first settings given, which stay. -/
  settings : Option Settings
  phase : PhaseCell
  target : TargetSlot
  hits : UInt64
  deriving DecidableEq, Repr

def Agent.fresh : Agent := ⟨none, .new, .unset, 0⟩

end Rendezvous
