import Rendezvous.Proofs.Comparison
import Rendezvous.Proofs.Hosts
import Rendezvous.Watch

/-!
# Names in modified UTF-8

The machine spells names in modified UTF-8: a character above U+FFFF is two surrogates of three
bytes each, and U+0000 is two bytes, so that no zero byte stands inside a name. The agent compares
bytes with UTF-8. So a name is found in its modified spelling just if it is plain: the two encodings
differ in all other names.
-/

namespace Rendezvous

namespace Text

open String (utf8EncodeChar)

/-- A surrogate in the form that UTF-8 has for three bytes. -/
def surrogateBytes (unit : Nat) : Bytes :=
  [UInt8.ofNat (unit / 4096 % 16 + 0xE0), UInt8.ofNat (unit / 64 % 64 + 0x80),
    UInt8.ofNat (unit % 64 + 0x80)]

def modifiedUtf8EncodeChar (c : Char) : Bytes :=
  if c.toNat = 0 then [0xC0, 0x80]
  else if c.toNat ≤ 0xFFFF then utf8EncodeChar c
  else
    surrogateBytes (0xD800 + (c.toNat - 0x10000) / 1024) ++
      surrogateBytes (0xDC00 + (c.toNat - 0x10000) % 1024)

def modifiedUtf8 (text : String) : Bytes := text.toList.flatMap modifiedUtf8EncodeChar

/-- Whether a character is neither U+0000 nor above U+FFFF. -/
def isPlain (c : Char) : Bool := c.toNat ≠ 0 && c.toNat ≤ 0xFFFF

example : modifiedUtf8 "a\x00é" = [0x61, 0xC0, 0x80, 0xC3, 0xA9] := by decide
example : modifiedUtf8 "𠮷" = [0xED, 0xA1, 0x82, 0xED, 0xBE, 0xB7] := by decide

section

variable {c : Char}

theorem isPlain_iff : isPlain c = true ↔ c.toNat ≠ 0 ∧ c.toNat ≤ 0xFFFF := by
  simp only [isPlain, Bool.and_eq_true, decide_eq_true_eq]

theorem modifiedUtf8EncodeChar_of_plain (h : isPlain c) :
    modifiedUtf8EncodeChar c = utf8EncodeChar c := by
  obtain ⟨hzero, hle⟩ := isPlain_iff.mp h
  rw [modifiedUtf8EncodeChar, if_neg hzero, if_pos hle]

/-- The encodings of a character that is not plain differ in the first byte. -/
theorem modifiedUtf8EncodeChar_append_ne (h : ¬ isPlain c) (rest rest' : Bytes) :
    modifiedUtf8EncodeChar c ++ rest ≠ utf8EncodeChar c ++ rest' := by
  have hbounds := toNat_bounds c
  rw [isPlain_iff] at h
  rw [modifiedUtf8EncodeChar, utf8EncodeChar_eq]
  by_cases hzero : c.toNat = 0
  · simp [hzero]
  · have hle : ¬ c.toNat ≤ 0xFFFF := fun hle => h ⟨hzero, hle⟩
    rw [if_neg hzero, if_neg hle, if_neg (by omega), if_neg (by omega), if_neg hle]
    simp only [surrogateBytes, List.cons_append, ne_eq, List.cons.injEq, not_and,
      ← UInt8.toNat_inj, UInt8.toNat_ofNat']
    omega

theorem zero_notMem_modifiedUtf8EncodeChar (c : Char) : 0 ∉ modifiedUtf8EncodeChar c := by
  have hbounds := toNat_bounds c
  rw [modifiedUtf8EncodeChar]
  split
  · decide
  · next hzero =>
    split
    · rwa [zero_mem_utf8EncodeChar]
    · simp only [surrogateBytes, List.cons_append, List.nil_append, List.mem_cons, List.not_mem_nil,
        or_false, ← UInt8.toNat_inj, UInt8.toNat_ofNat', UInt8.reduceToNat]
      omega

/-- No text has a zero byte in its modified encoding, so one can end it. -/
theorem beforeZero_modifiedUtf8 (text : String) (rest : Bytes) :
    beforeZero (modifiedUtf8 text ++ 0 :: rest) = modifiedUtf8 text := by
  refine beforeZero_terminated (fun hmem => ?_) rest
  obtain ⟨c, -, hc⟩ := List.mem_flatMap.mp hmem
  exact zero_notMem_modifiedUtf8EncodeChar c hc

/-- The two encodings of a text agree just if all of its characters are plain. -/
theorem modifiedUtf8_eq_utf8_iff {text : String} :
    modifiedUtf8 text = utf8 text ↔ text.toList.all isPlain := by
  rw [modifiedUtf8, utf8]
  induction text.toList with
  | nil => simp
  | cons c rest ih =>
    rw [List.flatMap_cons, List.flatMap_cons, List.all_cons]
    by_cases hc : isPlain c
    · rw [modifiedUtf8EncodeChar_of_plain hc, List.append_cancel_left_eq, ih, hc, Bool.true_and]
    · simp only [hc, modifiedUtf8EncodeChar_append_ne hc, Bool.false_and, Bool.false_eq_true]

end

end Text

open Text

/-- A string in modified UTF-8 is the text that it spells just if that text is plain. -/
theorem LentText.is_of_modified {lent : LentText} {name : String}
    (h : lent.bytes? = some (modifiedUtf8 name)) : lent.is name = name.toList.all isPlain := by
  rw [Bool.eq_iff_iff, LentText.is_iff, h, Option.some.injEq, modifiedUtf8_eq_utf8_iff]

section

variable {σ : Type} {machine : Machine σ} {env : Env}

/-- Whatever comes of the release, the class is compared by the signature that was lent. -/
theorem isTargetClass_fst {klass : ClassId} {marker : Marker} {w : World σ} {lent : LentText}
    (h : (getClassSignature machine env klass w).1 = .ok lent) :
    (isTargetClass machine env klass marker w).1 = .ok (lent.is marker.classSignature) := by
  simp only [isTargetClass, Run.bind_apply, h]
  rfl

/-- Where the machine spells the configured class in modified UTF-8, the agent takes the class for
the configured one just if its signature is plain; and likewise a method whose signature is that of
every marker method. A name is so spelt in a buffer if a zero byte comes right after its modified
encoding, whatever comes after that. -/
theorem configured_names_are_found (machine : Machine σ) (env : Env) (options : String) :
    (∀ (w : World σ) (klass : ClassId) (lent : LentText),
      (getClassSignature machine env klass w).1 = .ok lent →
      lent.bytes? = some (modifiedUtf8 (Settings.parse options).1.marker.classSignature) →
      (isTargetClass machine env klass (Settings.parse options).1.marker w).1 =
        .ok ((Settings.parse options).1.marker.classSignature.toList.all isPlain)) ∧
    (∀ lent : LentName,
      lent.name.bytes? = some (modifiedUtf8 (Settings.parse options).1.marker.methodName) →
      lent.signature.bytes? = some (modifiedUtf8 Marker.methodSignature) →
      lent.is (Settings.parse options).1.marker.methodName Marker.methodSignature =
        (Settings.parse options).1.marker.methodName.toList.all isPlain) ∧
    ∀ (number : Nat) (name : String) (rest : Bytes),
      LentText.bytes? (some ⟨number, modifiedUtf8 name ++ 0 :: rest⟩) =
        some (modifiedUtf8 name) := by
  refine ⟨?_, ?_, ?_⟩
  · intro w klass lent hreply hspelt
    rw [isTargetClass_fst hreply, LentText.is_of_modified hspelt]
  · intro lent hname hsignature
    have hplain : Marker.methodSignature.toList.all isPlain := by decide
    rw [LentName.is, LentText.is_of_modified hname, LentText.is_of_modified hsignature, hplain,
      Bool.and_true]
  · intro number name rest
    rw [LentText.bytes?_some, beforeZero_modifiedUtf8]

end

/-! ## A class in two spellings -/

section

open Simulation Host

/-- A host that spells the signature of its only class in modified UTF-8. -/
def spellingHost (signature : String) : World Host :=
  ⟨.fresh, .itself, .start [{ markerClass ⟨1⟩ ⟨1⟩ with signature := some (modifiedUtf8 signature) }]
    .full .none, .present, []⟩

/-- A class whose name has a character above U+FFFF is not found by that name. -/
theorem supplementary_name_is_missed :
    (Settings.parse "class=org.𠮷").1.marker.classSignature = "Lorg/𠮷;" ∧
      '\x00' ∉ "Lorg/𠮷;".toList ∧
      (getClassSignature Host.machine .live ⟨1⟩ (spellingHost "Lorg/𠮷;")).1 =
        .ok (some ⟨1, modifiedUtf8 "Lorg/𠮷;"⟩) ∧
      (isTargetClass Host.machine .live ⟨1⟩ (Settings.parse "class=org.𠮷").1.marker
        (spellingHost "Lorg/𠮷;")).1 = .ok false := by
  refine ⟨?_, ?_, ?_, ?_⟩ <;> decide +kernel

theorem configured_names_are_found_accented :
    (Settings.parse "class=org.Été, method=début").1.marker = ⟨"Lorg/Été;", "début"⟩ ∧
      (isTargetClass Host.machine .live ⟨1⟩
        (Settings.parse "class=org.Été, method=début").1.marker (spellingHost "Lorg/Été;")).1 =
        .ok true ∧
      LentName.is ⟨some ⟨1, modifiedUtf8 "début"⟩, some ⟨2, modifiedUtf8 "()V"⟩⟩
        (Settings.parse "class=org.Été, method=début").1.marker.methodName
        Marker.methodSignature = true := by
  have hmarker : (Settings.parse "class=org.Été, method=début").1.marker =
      ⟨"Lorg/Été;", "début"⟩ := by decide +kernel
  have hfound := configured_names_are_found Host.machine .live "class=org.Été, method=début"
  refine ⟨hmarker, ?_, ?_⟩
  · rw [hfound.1 (spellingHost "Lorg/Été;") ⟨1⟩ (some ⟨1, modifiedUtf8 "Lorg/Été;"⟩)
      (by decide +kernel) (by decide +kernel), hmarker]
    decide
  · rw [hfound.2.1 ⟨some ⟨1, modifiedUtf8 "début"⟩, some ⟨2, modifiedUtf8 "()V"⟩⟩
      (by decide +kernel) (by decide +kernel), hmarker]
    decide

end

end Rendezvous
