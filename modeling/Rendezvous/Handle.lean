/-!
# Handles

The virtual machine names its classes, methods, threads and thread environments by opaque words
of 64 bits. The agent compares them and shows them, and does nothing else with them. Zero is the
null handle of each kind.
-/

namespace Rendezvous

inductive HandleKind where
  | loadedClass | method | thread | environment
  deriving DecidableEq, Repr

structure Handle (kind : HandleKind) where
  word : UInt64
  deriving DecidableEq, Repr

abbrev ClassId := Handle .loadedClass
abbrev MethodId := Handle .method
abbrev ThreadId := Handle .thread

/-- The environment through which native code works on a stopped thread. -/
abbrev EnvironmentId := Handle .environment

namespace Handle

variable {kind : HandleKind}

/-- Handles are looked up in lists, and there the comparison of words decides. -/
instance : LawfulBEq (Handle kind) := inferInstance

def null : Handle kind := ⟨0⟩

def isNull (h : Handle kind) : Bool := h = null

/-- Hexadecimal with lower-case digits and no leading zeros. -/
def display (h : Handle kind) : String := "0x" ++ String.ofList (Nat.toDigits 16 h.word.toNat)

theorem isNull_eq_false {h : Handle kind} : h.isNull = false ↔ h ≠ null := by simp [isNull]

end Handle

example : (⟨0⟩ : MethodId).display = "0x0" := by decide +kernel
example : (⟨0x10002⟩ : MethodId).display = "0x10002" := by decide +kernel

end Rendezvous
