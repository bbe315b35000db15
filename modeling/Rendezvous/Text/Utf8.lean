/-!
# UTF-8

Text is compared with the bytes that the virtual machine hands out, and such bytes are shown as
text. Encoding is exact. Decoding never fails: each maximal ill-formed part of the bytes (the
longest start of a well-formed sequence, or else one byte) becomes one replacement character.
-/

namespace Rendezvous.Text

abbrev Bytes := List UInt8

def utf8 (text : String) : Bytes := text.toList.flatMap String.utf8EncodeChar

def replacement : Char := Char.ofNat 0xFFFD

/-- How many bytes follow a leading byte, and between which bounds the first of them lies. The
bounds leave out longer forms than needed, surrogates and all above U+10FFFF. -/
def follow? (lead : UInt8) : Option (Nat × UInt8 × UInt8) :=
  if lead < 0xC2 then none
  else if lead ≤ 0xDF then some (1, 0x80, 0xBF)
  else if lead = 0xE0 then some (2, 0xA0, 0xBF)
  else if lead = 0xED then some (2, 0x80, 0x9F)
  else if lead ≤ 0xEF then some (2, 0x80, 0xBF)
  else if lead = 0xF0 then some (3, 0x90, 0xBF)
  else if lead ≤ 0xF3 then some (3, 0x80, 0xBF)
  else if lead = 0xF4 then some (3, 0x80, 0x8F)
  else none

/-- Up to `owed` bytes that continue a sequence, the first of them within the bounds. -/
def takeTail : Nat → UInt8 → UInt8 → Bytes → Bytes
  | 0, _, _, _ => []
  | _, _, _, [] => []
  | owed + 1, low, high, b :: rest =>
    if low ≤ b && b ≤ high then b :: takeTail owed 0x80 0xBF rest else []

/-- The six bits of each byte of a tail, behind the bits of `start`. -/
def joinTail (start : Nat) (tail : Bytes) : Nat :=
  tail.foldl (fun value b => value * 64 + b.toNat % 64) start

/-- The bits that a leading byte gives, by the number of bytes that follow it. -/
def leadBits (lead : UInt8) : Nat → Nat
  | 1 => lead.toNat % 32
  | 2 => lead.toNat % 16
  | _ => lead.toNat % 8

/-- The first character of `lead :: rest`, and how many bytes of `rest` it takes. -/
def decodeFirst (lead : UInt8) (rest : Bytes) : Char × Nat :=
  if lead < 0x80 then (Char.ofNat lead.toNat, 0)
  else match follow? lead with
    | none => (replacement, 0)
    | some (owed, low, high) =>
      let tail := takeTail owed low high rest
      if tail.length = owed then (Char.ofNat (joinTail (leadBits lead owed) tail), owed)
      else (replacement, tail.length)

/-- Decoding after the next `taken` bytes, which belong to a character already read. -/
def decodeFrom : Nat → Bytes → List Char
  | _, [] => []
  | taken + 1, _ :: rest => decodeFrom taken rest
  | 0, b :: rest => (decodeFirst b rest).1 :: decodeFrom (decodeFirst b rest).2 rest

def ofUtf8 (bytes : Bytes) : String := String.ofList (decodeFrom 0 bytes)

example : ofUtf8 [0xE2, 0x82, 0xAC, 0x41] = "€A" := by decide +kernel
example : ofUtf8 [0xE2, 0x82, 0x41, 0xED, 0xA0, 0x80] = "�A���" := by decide +kernel
example : ofUtf8 [0xF0, 0x9F, 0x98, 0x80, 0xF0, 0x9F, 0x98] = "😀�" := by decide +kernel

end Rendezvous.Text
