import Rendezvous.Capabilities

/-!
# Capabilities one by one

A set of capabilities is written and read one bit at a time, through the word that holds the bit and
a mask within that word. Writing one capability leaves the 127 others alone, and a set is known by
its capabilities. So of many changes to one capability the last decides, and what the agent asks for
has no other capability in it.
-/

namespace Rendezvous

namespace Capabilities

/-! ## A bit in its word -/

theorem toBitVec_mask (bit : Fin 128) : (mask bit).toBitVec = BitVec.twoPow 32 (bit.val % 32) := by
  -- The shift is taken modulo the width of a word, and stays short of it.
  have hshift : ((UInt32.ofNat (bit.val % 32)).toBitVec % 32).toNat = bit.val % 32 := by
    rw [UInt32.toBitVec_ofNat', BitVec.toNat_umod, BitVec.toNat_ofNat]
    simp only [BitVec.reduceToNat]
    omega
  rw [mask, UInt32.toBitVec_shiftLeft, BitVec.shiftLeft_eq', hshift, BitVec.twoPow_eq]
  rfl

theorem and_mask (word : UInt32) (bit : Fin 128) :
    (word &&& mask bit != 0) = word.toBitVec.getLsbD (bit.val % 32) := by
  have hplace : bit.val % 32 < 32 := Nat.mod_lt _ (by decide)
  have hne : BitVec.twoPow 32 (bit.val % 32) ≠ 0#32 := by
    intro hzero
    have hbit := congrArg (·.getLsbD (bit.val % 32)) hzero
    simp [hplace] at hbit
  rw [Bool.eq_iff_iff, bne_iff_ne, UInt32.ne_iff_toBitVec_ne, UInt32.toBitVec_and, toBitVec_mask,
    BitVec.and_twoPow]
  by_cases h : word.toBitVec.getLsbD (bit.val % 32) = true
  · simp [h, hne]
  · simp [h]

/-- What is written at a place of a word is read there, and nowhere else. -/
theorem getLsbD_written (word : UInt32) (bit : Fin 128) (value : Bool) {place : Nat}
    (hplace : place < 32) :
    (if value then word ||| mask bit else word &&& ~~~ mask bit).toBitVec.getLsbD place =
      if place = bit.val % 32 then value else word.toBitVec.getLsbD place := by
  by_cases h : place = bit.val % 32
  · cases value <;> simp [toBitVec_mask, ← h, hplace]
  · cases value <;> simp [toBitVec_mask, hplace, h]

section

variable {caps other : Capabilities}

theorem word_lt (bit : Fin 128) : bit.val / 32 < 4 := by omega

theorem get_eq_getLsbD (caps : Capabilities) (bit : Fin 128) :
    caps.get bit =
      (getElem caps.words (bit.val / 32) (word_lt bit)).toBitVec.getLsbD (bit.val % 32) :=
  and_mask ..

/-- Writing a capability is seen in that capability only. -/
@[simp] theorem get_set (caps : Capabilities) (changed : Fin 128) (value : Bool) (bit : Fin 128) :
    (caps.set changed value).get bit = if bit = changed then value else caps.get bit := by
  have hplace : bit.val % 32 < 32 := Nat.mod_lt _ (by decide)
  rw [get_eq_getLsbD, get_eq_getLsbD, set, Vector.getElem_set]
  by_cases hword : changed.val / 32 = bit.val / 32
  · have hsame : bit = changed ↔ bit.val % 32 = changed.val % 32 := by omega
    simp only [hword, if_true, getLsbD_written _ changed value hplace, hsame]
  · have hother : bit ≠ changed := by
      rintro rfl
      exact hword rfl
    rw [if_neg hword, if_neg hother]

/-- Sets with the same capabilities are the same. -/
@[ext] theorem ext_get (h : ∀ bit, caps.get bit = other.get bit) : caps = other := by
  obtain ⟨words⟩ := caps
  obtain ⟨words'⟩ := other
  congr 1
  apply Vector.ext
  intro word hword
  apply UInt32.toBitVec_inj.mp
  apply BitVec.eq_of_getLsbD_eq
  intro place hplace
  have hbit := h ⟨32 * word + place, by omega⟩
  have hdiv : (32 * word + place) / 32 = word := by omega
  have hmod : (32 * word + place) % 32 = place := by omega
  simpa only [get_eq_getLsbD, hdiv, hmod] using hbit

@[simp] theorem get_empty (bit : Fin 128) : empty.get bit = false := by
  simp [get_eq_getLsbD, empty]

theorem isEmpty_iff_eq : caps.isEmpty = true ↔ caps = empty := by
  rw [isEmpty, Vector.all_eq_true]
  constructor
  · intro h
    obtain ⟨words⟩ := caps
    rw [empty, mk.injEq]
    apply Vector.ext
    intro word hword
    simpa using h word hword
  · rintro rfl
    simp [empty]

theorem isEmpty_iff : caps.isEmpty = true ↔ ∀ bit, caps.get bit = false := by
  rw [isEmpty_iff_eq]
  constructor
  · rintro rfl
    exact get_empty
  · intro h
    ext bit
    rw [h, get_empty]

/-! ## One capability, again and again -/

theorem set_set (caps : Capabilities) (bit : Fin 128) (value value' : Bool) :
    (caps.set bit value).set bit value' = caps.set bit value' := by
  ext i
  by_cases h : i = bit <;> simp [h]

theorem empty_set_false (bit : Fin 128) : empty.set bit false = empty := by
  ext i
  simp

/-- Of all changes to one capability the last decides. -/
theorem foldl_set (caps : Capabilities) (bit : Fin 128) (changes : List Bool) :
    changes.foldl (fun caps value => caps.set bit value) caps =
      match changes.getLast? with
      | none => caps
      | some value => caps.set bit value := by
  induction changes generalizing caps with
  | nil => rfl
  | cons value rest ih =>
    rw [List.foldl_cons, ih, List.getLast?_cons]
    cases rest.getLast? with
    | none => rfl
    | some last => exact set_set caps bit value last

end

/-- Capabilities are independent of each other. Writing one is seen in that one and in no other, a
set is empty just if it has none of the 128, and sets with the same capabilities are the same. So
the right to breakpoint events, given and taken in any sequence, leaves what the agent asks for if
it was given last, and otherwise nothing; and the agent asks for that right only. -/
theorem capabilities_are_independent (caps : Capabilities) (changes : List Bool) :
    (∀ changed value bit,
      (caps.set changed value).get bit = if bit = changed then value else caps.get bit) ∧
    (caps.isEmpty ↔ ∀ bit, caps.get bit = false) ∧
    (∀ other, caps = other ↔ ∀ bit, caps.get bit = other.get bit) ∧
    (changes.foldl (fun caps value => caps.set breakpointEvents value) empty =
      if changes.getLast? = some true then required else empty) ∧
    ∀ bit, required.get bit = decide (bit = breakpointEvents) := by
  refine ⟨get_set caps, isEmpty_iff, fun _ => Capabilities.ext_get_iff, ?_, ?_⟩
  · rw [foldl_set]
    cases changes.getLast? with
    | none => rfl
    | some last =>
      cases last with
      | true => rfl
      | false => exact empty_set_false breakpointEvents
  · intro bit
    by_cases h : bit = breakpointEvents <;> simp [required, h]

end Capabilities

end Rendezvous
