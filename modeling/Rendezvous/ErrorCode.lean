/-!
# Error codes of the debug interface

Every service of the interface reports a code of 32 bits, and zero means success. The machine may
report any code, so a code is a word and not one of a fixed list; the names are a table beside it.

A failure is a code other than zero. The reply of a service is its output or a failure, so that
"failed with the code for success" cannot be said.
-/

namespace Rendezvous

structure ErrorCode where
  number : UInt32
  deriving DecidableEq, Repr

namespace ErrorCode

/-- The codes that have a name, in ascending order. -/
def names : List (UInt32 × String) :=
  [(0, "NONE"), (10, "INVALID_THREAD"), (21, "INVALID_CLASS"), (22, "CLASS_NOT_PREPARED"),
   (23, "INVALID_METHODID"), (24, "INVALID_LOCATION"), (40, "DUPLICATE"), (41, "NOT_FOUND"),
   (98, "NOT_AVAILABLE"), (99, "MUST_POSSESS_CAPABILITY"), (100, "NULL_POINTER"),
   (101, "ABSENT_INFORMATION"), (102, "INVALID_EVENT_TYPE"), (103, "ILLEGAL_ARGUMENT"),
   (104, "NATIVE_METHOD"), (110, "OUT_OF_MEMORY"), (111, "ACCESS_DENIED"), (112, "WRONG_PHASE"),
   (113, "INTERNAL"), (115, "UNATTACHED_THREAD"), (116, "INVALID_ENVIRONMENT")]

def success : ErrorCode := ⟨0⟩
def invalidClass : ErrorCode := ⟨21⟩
def invalidMethod : ErrorCode := ⟨23⟩
def duplicate : ErrorCode := ⟨40⟩
def notAvailable : ErrorCode := ⟨98⟩
def illegalArgument : ErrorCode := ⟨103⟩
def invalidEnvironment : ErrorCode := ⟨116⟩

def name? (code : ErrorCode) : Option String := names.lookup code.number

def isSuccess (code : ErrorCode) : Bool := code = success

/-- The number is always part of the message, so that no two codes share one. -/
def message (code : ErrorCode) : String :=
  match code.name? with
  | some name => "JVMTI_ERROR_" ++ name ++ " (" ++ Nat.repr code.number.toNat ++ ")"
  | none => "JVMTI error " ++ Nat.repr code.number.toNat

example : (names.map Prod.fst).Nodup ∧ (names.map Prod.snd).Nodup := by decide
example : duplicate.message = "JVMTI_ERROR_DUPLICATE (40)" := by decide +kernel
example : (⟨4294967295⟩ : ErrorCode).message = "JVMTI error 4294967295" := by decide +kernel

end ErrorCode

abbrev Failure := { code : ErrorCode // code ≠ ErrorCode.success }

namespace Failure

def notAvailable : Failure := ⟨.notAvailable, by decide⟩
def invalidEnvironment : Failure := ⟨.invalidEnvironment, by decide⟩

def message (failure : Failure) : String := failure.val.message

end Failure

abbrev Reply (α : Type) := Except Failure α

namespace Reply

variable {α : Type}

/-- The reply with this code, and with this output if the code is zero. -/
def ofCode (code : ErrorCode) (output : α) : Reply α :=
  if h : code = .success then .ok output else .error ⟨code, h⟩

def code : Reply α → ErrorCode
  | .ok _ => .success
  | .error failure => failure.val

def output? : Reply α → Option α
  | .ok output => some output
  | .error _ => none

end Reply

end Rendezvous
