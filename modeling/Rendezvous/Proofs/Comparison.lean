import Mathlib.Data.List.TakeWhile
import Rendezvous.Lent
import Rendezvous.Proofs.Decoding

/-!
# What is compared and what is shown

A lent string is compared byte by byte with the encoding of a text, and it is shown by decoding its
bytes. The two agree: a string that is some text is shown as that text, and a string of well-formed
bytes is the text that it is shown as. Ill-formed bytes and a null pointer are shown as well, but
are no text at all, not even the one that is shown.
-/

namespace Rendezvous

open Text

namespace Text

theorem zero_notMem_beforeZero (bytes : Bytes) : 0 ∉ beforeZero bytes := by
  intro h
  simpa using List.mem_takeWhile_imp h

/-- Bytes without a zero byte are all that is read if a zero byte comes right after them. -/
theorem beforeZero_terminated {bytes : Bytes} (h : 0 ∉ bytes) (rest : Bytes) :
    beforeZero (bytes ++ 0 :: rest) = bytes := by
  have hnonzero : ∀ b ∈ bytes, (b != 0) = true := by
    intro b hb
    simpa using fun hzero : b = 0 => h (hzero ▸ hb)
  rw [beforeZero, List.takeWhile_append_of_pos hnonzero, List.takeWhile_cons_of_neg (by decide),
    List.append_nil]

end Text

namespace LentText

variable {text : LentText} {expected other : String}

theorem is_iff_content : text.is expected = true ↔
    ∃ b, text = some b ∧ beforeZero b.content = utf8 expected := by
  rw [is_iff, bytes?, Option.map_eq_some_iff]

theorem is_some_iff {b : Buffer Bytes} :
    LentText.is (some b) expected = true ↔ beforeZero b.content = utf8 expected := by
  rw [is_iff, bytes?_some, Option.some.injEq]

theorem is_unique (h : text.is expected) (h' : text.is other) : expected = other := by
  rw [is_iff] at h h'
  exact utf8_injective (Option.some.inj (h.symm.trans h'))

theorem not_is_of_nul (h : '\x00' ∈ expected.toList) : ¬ text.is expected := by
  intro his
  obtain ⟨b, -, hb⟩ := is_iff_content.mp his
  exact zero_notMem_beforeZero b.content (hb ▸ zero_mem_utf8.mpr h)

theorem display_some (b : Buffer Bytes) :
    LentText.display (some b) = ofUtf8 (beforeZero b.content) := rfl

theorem display_of_is (h : text.is expected) : text.display = expected := by
  obtain ⟨b, rfl, hb⟩ := is_iff_content.mp h
  rw [display_some, hb, ofUtf8_utf8]

/-- A string of well-formed bytes is the text that it is shown as, and no other. -/
theorem is_iff_display {b : Buffer Bytes} (h : (beforeZero b.content).toByteArray.IsValidUTF8) :
    LentText.is (some b) expected = true ↔ LentText.display (some b) = expected := by
  refine ⟨display_of_is, ?_⟩
  rintro rfl
  rw [is_some_iff, display_some, utf8_ofUtf8 h]

theorem not_is_of_illFormed {b : Buffer Bytes}
    (h : ¬ (beforeZero b.content).toByteArray.IsValidUTF8) :
    ¬ LentText.is (some b) expected := by
  intro his
  exact h (isValidUTF8_iff.mpr ⟨expected, (is_some_iff.mp his).symm⟩)

/-- Comparing a lent string and showing it agree. It is a text just if it is not null and holds the
encoding of that text before its first zero byte: hence it is one text at most, none with U+0000 in
it, and null is none at all, not even the one that is shown. What is shown is the standard decoding
of the bytes, and the text that the string is, if it is one. Well-formed bytes are shown without
loss, so the string is the text shown; ill-formed ones are no text. -/
theorem compared_as_shown (text : LentText) :
    (∀ expected, text.is expected ↔
      ∃ b, text = some b ∧ beforeZero b.content = utf8 expected) ∧
    (∀ expected other, text.is expected → text.is other → expected = other) ∧
    (∀ expected, '\x00' ∈ expected.toList → ¬ text.is expected) ∧
    (∀ expected, text.is expected → text.display = expected) ∧
    match text with
    | none => (∀ expected, ¬ LentText.is none expected) ∧ LentText.display none = "<null>"
    | some b =>
      (∀ shown, Decodes (beforeZero b.content) shown ↔
        shown = (LentText.display (some b)).toList) ∧
      ((beforeZero b.content).toByteArray.IsValidUTF8 →
        utf8 (LentText.display (some b)) = beforeZero b.content ∧
        ∀ expected, LentText.is (some b) expected ↔ LentText.display (some b) = expected) ∧
      (¬ (beforeZero b.content).toByteArray.IsValidUTF8 →
        ∀ expected, ¬ LentText.is (some b) expected) := by
  refine ⟨fun _ => is_iff_content, fun _ _ => is_unique, fun _ => not_is_of_nul,
    fun _ => display_of_is, ?_⟩
  cases text with
  | none => exact ⟨by simp, rfl⟩
  | some b =>
    refine ⟨?_, ?_, fun h _ => not_is_of_illFormed h⟩
    · intro shown
      rw [decodes_iff, display_some, ofUtf8, String.toList_ofList]
    · intro h
      refine ⟨?_, fun _ => is_iff_display h⟩
      rw [display_some, utf8_ofUtf8 h]

/-- A replacement character that is in the bytes is compared as such, and one that only stands in
for an ill-formed byte is not, though both are shown alike. -/
theorem replacement_compared_as_shown :
    LentText.display (some ⟨1, [0xEF, 0xBF, 0xBD, 0x00, 0x41]⟩) = "\uFFFD" ∧
      LentText.is (some ⟨1, [0xEF, 0xBF, 0xBD, 0x00, 0x41]⟩) "\uFFFD" ∧
      LentText.display (some ⟨2, [0xFF, 0x00]⟩) = "\uFFFD" ∧
      ¬ LentText.is (some ⟨2, [0xFF, 0x00]⟩) "\uFFFD" := by
  have hvalid : (beforeZero [0xEF, 0xBF, 0xBD, 0x00, 0x41]).toByteArray.IsValidUTF8 :=
    isValidUTF8_iff.mpr ⟨"\uFFFD", by decide⟩
  have hinvalid : ¬ (beforeZero [0xFF, 0x00]).toByteArray.IsValidUTF8 := by
    intro h
    have hback := utf8_ofUtf8 h
    revert hback
    decide
  have hshown : LentText.display (some ⟨1, [0xEF, 0xBF, 0xBD, 0x00, 0x41]⟩) = "\uFFFD" := by decide
  refine ⟨hshown, ?_, by decide, ?_⟩
  · exact (((compared_as_shown (some ⟨1, _⟩)).2.2.2.2.2.1 hvalid).2 _).mpr hshown
  · exact (compared_as_shown (some ⟨2, _⟩)).2.2.2.2.2.2 hinvalid _

end LentText

end Rendezvous
