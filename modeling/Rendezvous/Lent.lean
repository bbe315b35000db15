import Rendezvous.Handle
import Rendezvous.Text.Utf8

/-!
# Lent buffers

Signatures, names and method tables arrive in buffers that the machine lends and that must be given
back. Buffers are numbered in the order in which they are lent. A null pointer in place of a buffer
is lawful everywhere: it holds nothing and is never given back.

Text in a buffer ends before its first zero byte. It is compared byte by byte with UTF-8, and shown
with ill-formed parts replaced.
-/

namespace Rendezvous

open Text (Bytes utf8 ofUtf8)

structure Buffer (α : Type) where
  number : Nat
  content : α
  deriving DecidableEq, Repr

/-- What can be handed back to the machine: null, a buffer it once lent, or an address of nothing. -/
inductive Address where
  | null
  | buffer (number : Nat)
  | stray
  deriving DecidableEq, Repr

namespace Address

def ofBuffer? {α : Type} : Option (Buffer α) → Address
  | none => null
  | some b => buffer b.number

def number? : Address → Option Nat
  | buffer number => some number
  | _ => none

end Address

/-- The bytes before the first zero byte. -/
def Text.beforeZero (bytes : Bytes) : Bytes := bytes.takeWhile (· != 0)

/-- A lent string, or null. -/
abbrev LentText := Option (Buffer Bytes)

namespace LentText

def bytes? (text : LentText) : Option Bytes := text.map fun b => Text.beforeZero b.content

/-- Whether the string is exactly this text; null is none. -/
def is (text : LentText) (expected : String) : Bool := text.bytes? == some (utf8 expected)

def display (text : LentText) : String :=
  match text.bytes? with
  | some bytes => ofUtf8 bytes
  | none => "<null>"

@[simp] theorem bytes?_none : bytes? none = none := rfl
@[simp] theorem bytes?_some (b : Buffer Bytes) : bytes? (some b) = some (Text.beforeZero b.content) := rfl
@[simp] theorem is_none (expected : String) : is none expected = false := by simp [is]

theorem is_iff {text : LentText} {expected : String} :
    text.is expected = true ↔ text.bytes? = some (utf8 expected) := by simp [is]

end LentText

/-- A lent table of methods, with the number of its entries as the machine states it. -/
structure LentTable where
  count : Int32
  buffer : Option (Buffer (List MethodId))
  deriving DecidableEq, Repr

namespace LentTable

def null : LentTable := ⟨0, none⟩

/-- A null table has no entries, and a negative count says that there are none. -/
def methods (table : LentTable) : List MethodId :=
  match table.buffer with
  | none => []
  | some b => b.content.take table.count.toInt.toNat

end LentTable

/-- The lent name and signature of one method. -/
structure LentName where
  name : LentText
  signature : LentText
  deriving DecidableEq, Repr

namespace LentName

def null : LentName := ⟨none, none⟩

def is (lent : LentName) (name signature : String) : Bool :=
  lent.name.is name && lent.signature.is signature

end LentName

end Rendezvous
