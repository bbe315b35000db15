import Rendezvous.Text.Utf8

/-!
# Decoding against encoding

What decoding makes of the encoding of a text is the text. What it makes of other bytes is stated by
`Decodes`, which knows the encoding of characters only: at every place a character is encoded, or
else there is one maximal ill-formed part, which becomes a replacement character.
-/

namespace Rendezvous.Text

open String (utf8EncodeChar)

/-! ## Tails -/

section

variable {owed : Nat} {low high : UInt8} {bytes tail rest : Bytes}

theorem takeTail_initial : ∀ (owed : Nat) (low high : UInt8) (bytes : Bytes),
    takeTail owed low high bytes <+: bytes
  | 0, _, _, _ => List.nil_prefix
  | _ + 1, _, _, [] => List.nil_prefix
  | owed + 1, low, high, b :: rest => by
    simp only [takeTail]
    split
    · exact (List.prefix_cons_inj b).mpr (takeTail_initial owed _ _ rest)
    · exact List.nil_prefix

/-- A tail fits if all of its bytes are taken. -/
def Fits (owed : Nat) (low high : UInt8) (tail : Bytes) : Prop := takeTail owed low high tail = tail

theorem fits_nil (owed : Nat) (low high : UInt8) : Fits owed low high [] := by
  cases owed <;> rfl

theorem fits_cons {b : UInt8} : Fits (owed + 1) low high (b :: tail) ↔
    (low ≤ b ∧ b ≤ high) ∧ Fits owed 0x80 0xBF tail := by
  simp only [Fits, takeTail, Bool.and_eq_true, decide_eq_true_eq]
  by_cases hb : low ≤ b ∧ b ≤ high <;> simp [hb]

/-- Behind the first byte of a tail the bounds are those of any continuing byte. -/
theorem fits_continuing : ∀ {tail : Bytes}, Fits tail.length 0x80 0xBF tail ↔
    ∀ b ∈ tail, 0x80 ≤ b.toNat ∧ b.toNat ≤ 0xBF
  | [] => by simp [fits_nil]
  | b :: tail => by
    rw [List.length_cons, fits_cons, fits_continuing, List.forall_mem_cons,
      UInt8.le_iff_toNat_le, UInt8.le_iff_toNat_le]
    rfl

theorem not_fits_zero {b : UInt8} : ¬ Fits 0 low high (b :: tail) := nofun

theorem Fits.length_le : ∀ {owed : Nat} {low high : UInt8} {tail : Bytes},
    Fits owed low high tail → tail.length ≤ owed
  | _, _, _, [], _ => Nat.zero_le _
  | 0, _, _, _ :: _, h => absurd h not_fits_zero
  | _ + 1, _, _, _ :: _, h => Nat.succ_le_succ (fits_cons.mp h).2.length_le

theorem fits_takeTail : ∀ (owed : Nat) (low high : UInt8) (bytes : Bytes),
    Fits owed low high (takeTail owed low high bytes)
  | 0, _, _, _ => rfl
  | _ + 1, _, _, [] => rfl
  | owed + 1, low, high, b :: rest => by
    simp only [takeTail, Bool.and_eq_true, decide_eq_true_eq]
    split
    · next hb => exact fits_cons.mpr ⟨hb, fits_takeTail owed _ _ rest⟩
    · exact fits_nil ..

/-- Of the starts that fit, the one that is taken is the longest. -/
theorem Fits.prefix_takeTail : ∀ {owed : Nat} {low high : UInt8} {tail bytes : Bytes},
    Fits owed low high tail → tail <+: bytes → tail <+: takeTail owed low high bytes
  | _, _, _, [], _, _, _ => List.nil_prefix
  | 0, _, _, _ :: _, _, h, _ => absurd h not_fits_zero
  | _ + 1, _, _, b :: tail, [], _, hp => absurd hp (by simp)
  | owed + 1, low, high, b :: tail, b' :: bytes, h, hp => by
    obtain ⟨rfl, hrest⟩ := List.cons_prefix_cons.mp hp
    obtain ⟨hb, htail⟩ := fits_cons.mp h
    simp only [takeTail, Bool.and_eq_true, decide_eq_true_eq, hb, and_self, if_true]
    exact (List.prefix_cons_inj b).mpr (htail.prefix_takeTail hrest)

theorem Fits.of_prefix : ∀ {owed : Nat} {low high : UInt8} {tail start : Bytes},
    Fits owed low high tail → start <+: tail → Fits owed low high start
  | _, _, _, _, [], _, _ => fits_nil ..
  | _, _, _, [], b :: start, _, hp => absurd hp (by simp)
  | 0, _, _, _ :: _, _ :: _, h, _ => absurd h not_fits_zero
  | owed + 1, low, high, b' :: tail, b :: start, h, hp => by
    obtain ⟨rfl, hrest⟩ := List.cons_prefix_cons.mp hp
    obtain ⟨hb, htail⟩ := fits_cons.mp h
    exact fits_cons.mpr ⟨hb, htail.of_prefix hrest⟩

/-- What fits can be completed. -/
theorem Fits.completed : ∀ {owed : Nat} {low high : UInt8} {tail : Bytes}, low ≤ high →
    Fits owed low high tail →
      ∃ more, Fits owed low high (tail ++ more) ∧ (tail ++ more).length = owed
  | 0, _, _, [], _, _ => ⟨[], rfl, rfl⟩
  | 0, _, _, _ :: _, _, h => absurd h not_fits_zero
  | owed + 1, low, high, [], hle, _ => by
    obtain ⟨more, hfits, hlen⟩ := (fits_nil owed 0x80 0xBF).completed (by decide)
    exact ⟨low :: more, fits_cons.mpr ⟨⟨UInt8.le_refl low, hle⟩, hfits⟩, by simpa using hlen⟩
  | owed + 1, low, high, b :: tail, hle, h => by
    obtain ⟨hb, htail⟩ := fits_cons.mp h
    obtain ⟨more, hfits, hlen⟩ := htail.completed (by decide)
    exact ⟨more, fits_cons.mpr ⟨hb, hfits⟩, by simpa using hlen⟩

end

/-! ## Single characters -/

section

variable {lead b c d : UInt8} {tail : Bytes} {value : Nat}

theorem follow?_eq (lead : UInt8) : follow? lead =
    if lead.toNat < 0xC2 then none
    else if lead.toNat < 0xE0 then some (1, 0x80, 0xBF)
    else if lead.toNat < 0xF0 then
      some (2, if lead.toNat = 0xE0 then 0xA0 else 0x80, if lead.toNat = 0xED then 0x9F else 0xBF)
    else if lead.toNat < 0xF5 then
      some (3, if lead.toNat = 0xF0 then 0x90 else 0x80, if lead.toNat = 0xF4 then 0x8F else 0xBF)
    else none := by
  simp only [follow?, UInt8.lt_iff_toNat_lt, UInt8.le_iff_toNat_le, ← UInt8.toNat_inj,
    UInt8.reduceToNat]
  grind

theorem follow?_some {owed : Nat} {low high : UInt8} (h : follow? lead = some (owed, low, high)) :
    0xC2 ≤ lead.toNat ∧ (owed = 1 ∨ owed = 2 ∨ owed = 3) ∧ low ≤ high := by
  rw [follow?_eq] at h
  grind

/-- Whether a byte may be the first of the `owed` that follow a leading byte. -/
def Opens (lead : UInt8) (owed : Nat) (b : UInt8) : Prop :=
  ∃ low high, follow? lead = some (owed, low, high) ∧ low ≤ b ∧ b ≤ high

theorem opens_one : Opens lead 1 b ↔
    (0xC2 ≤ lead.toNat ∧ lead.toNat ≤ 0xDF) ∧ 0x80 ≤ b.toNat ∧ b.toNat ≤ 0xBF := by
  have hf : ∀ low high, follow? lead = some (1, low, high) ↔
      (0xC2 ≤ lead.toNat ∧ lead.toNat ≤ 0xDF) ∧ low = 0x80 ∧ high = 0xBF := by
    intro low high
    rw [follow?_eq]
    grind
  simp [Opens, hf, and_assoc, UInt8.le_iff_toNat_le]

/-- The bounds leave out what two bytes could encode, and the surrogates. -/
theorem opens_two : Opens lead 2 b ↔
    (0xE0 ≤ lead.toNat ∧ lead.toNat ≤ 0xEF) ∧ (0x80 ≤ b.toNat ∧ b.toNat ≤ 0xBF) ∧
      (lead.toNat = 0xE0 → 0xA0 ≤ b.toNat) ∧ (lead.toNat = 0xED → b.toNat ≤ 0x9F) := by
  have hf : ∀ low high, follow? lead = some (2, low, high) ↔
      (0xE0 ≤ lead.toNat ∧ lead.toNat ≤ 0xEF) ∧
        low = (if lead.toNat = 0xE0 then 0xA0 else 0x80) ∧
        high = (if lead.toNat = 0xED then 0x9F else 0xBF) := by
    intro low high
    rw [follow?_eq]
    grind
  simp only [Opens, hf, and_assoc, exists_and_left, exists_eq_left, UInt8.le_iff_toNat_le,
    apply_ite UInt8.toNat, UInt8.reduceToNat]
  grind

/-- The bounds leave out what three bytes could encode, and all above U+10FFFF. -/
theorem opens_three : Opens lead 3 b ↔
    (0xF0 ≤ lead.toNat ∧ lead.toNat ≤ 0xF4) ∧ (0x80 ≤ b.toNat ∧ b.toNat ≤ 0xBF) ∧
      (lead.toNat = 0xF0 → 0x90 ≤ b.toNat) ∧ (lead.toNat = 0xF4 → b.toNat ≤ 0x8F) := by
  have hf : ∀ low high, follow? lead = some (3, low, high) ↔
      (0xF0 ≤ lead.toNat ∧ lead.toNat ≤ 0xF4) ∧
        low = (if lead.toNat = 0xF0 then 0x90 else 0x80) ∧
        high = (if lead.toNat = 0xF4 then 0x8F else 0xBF) := by
    intro low high
    rw [follow?_eq]
    grind
  simp only [Opens, hf, and_assoc, exists_and_left, exists_eq_left, UInt8.le_iff_toNat_le,
    apply_ite UInt8.toNat, UInt8.reduceToNat]
  grind

/-- A sequence as decoding reads it: a leading byte, the whole tail that it asks for, and the value
of both. -/
structure Reads (lead : UInt8) (tail : Bytes) (value : Nat) : Prop where
  fits : ∃ low high, follow? lead = some (tail.length, low, high) ∧ Fits tail.length low high tail
  value : joinTail (leadBits lead tail.length) tail = value

theorem reads_cons : Reads lead (b :: tail) value ↔
    Opens lead (tail.length + 1) b ∧ (∀ b ∈ tail, 0x80 ≤ b.toNat ∧ b.toNat ≤ 0xBF) ∧
      joinTail (leadBits lead (tail.length + 1)) (b :: tail) = value := by
  rw [← fits_continuing]
  constructor
  · rintro ⟨⟨low, high, hf, ht⟩, hv⟩
    obtain ⟨hb, htail⟩ := fits_cons.mp ht
    exact ⟨⟨low, high, hf, hb⟩, htail, hv⟩
  · rintro ⟨⟨low, high, hf, hb⟩, htail, hv⟩
    exact ⟨⟨low, high, hf, fits_cons.mpr ⟨hb, htail⟩⟩, hv⟩

theorem reads_one : Reads lead [b] value ↔
    ((0xC2 ≤ lead.toNat ∧ lead.toNat ≤ 0xDF) ∧ 0x80 ≤ b.toNat ∧ b.toNat ≤ 0xBF) ∧
      lead.toNat % 32 * 64 + b.toNat % 64 = value := by
  rw [reads_cons]
  simp only [List.length_nil, Nat.zero_add, opens_one, joinTail, leadBits, List.foldl,
    List.not_mem_nil, false_imp_iff, implies_true, true_and]

theorem reads_two : Reads lead [b, c] value ↔
    ((0xE0 ≤ lead.toNat ∧ lead.toNat ≤ 0xEF) ∧ (0x80 ≤ b.toNat ∧ b.toNat ≤ 0xBF) ∧
      (lead.toNat = 0xE0 → 0xA0 ≤ b.toNat) ∧ (lead.toNat = 0xED → b.toNat ≤ 0x9F)) ∧
      (0x80 ≤ c.toNat ∧ c.toNat ≤ 0xBF) ∧
      (lead.toNat % 16 * 64 + b.toNat % 64) * 64 + c.toNat % 64 = value := by
  rw [reads_cons]
  simp only [List.length_cons, List.length_nil, Nat.zero_add, Nat.reduceAdd, opens_two, joinTail,
    leadBits, List.foldl, List.forall_mem_cons, List.not_mem_nil, false_imp_iff, implies_true,
    and_true]

theorem reads_three : Reads lead [b, c, d] value ↔
    ((0xF0 ≤ lead.toNat ∧ lead.toNat ≤ 0xF4) ∧ (0x80 ≤ b.toNat ∧ b.toNat ≤ 0xBF) ∧
      (lead.toNat = 0xF0 → 0x90 ≤ b.toNat) ∧ (lead.toNat = 0xF4 → b.toNat ≤ 0x8F)) ∧
      ((0x80 ≤ c.toNat ∧ c.toNat ≤ 0xBF) ∧ 0x80 ≤ d.toNat ∧ d.toNat ≤ 0xBF) ∧
      ((lead.toNat % 8 * 64 + b.toNat % 64) * 64 + c.toNat % 64) * 64 + d.toNat % 64 = value := by
  rw [reads_cons]
  simp only [List.length_cons, List.length_nil, Nat.zero_add, Nat.reduceAdd, opens_three, joinTail,
    leadBits, List.foldl, List.forall_mem_cons, List.not_mem_nil, false_imp_iff, implies_true,
    and_true]

theorem Reads.lead_ge (h : Reads lead tail value) : 0x80 ≤ lead.toNat := by
  obtain ⟨low, high, hf, -⟩ := h.fits
  have hlead := (follow?_some hf).1
  omega

theorem utf8EncodeChar_eq (c : Char) : utf8EncodeChar c =
    if c.toNat ≤ 0x7F then [UInt8.ofNat c.toNat]
    else if c.toNat ≤ 0x7FF then
      [UInt8.ofNat (c.toNat / 64 % 32 + 0xC0), UInt8.ofNat (c.toNat % 64 + 0x80)]
    else if c.toNat ≤ 0xFFFF then
      [UInt8.ofNat (c.toNat / 4096 % 16 + 0xE0), UInt8.ofNat (c.toNat / 64 % 64 + 0x80),
        UInt8.ofNat (c.toNat % 64 + 0x80)]
    else
      [UInt8.ofNat (c.toNat / 262144 % 8 + 0xF0), UInt8.ofNat (c.toNat / 4096 % 64 + 0x80),
        UInt8.ofNat (c.toNat / 64 % 64 + 0x80), UInt8.ofNat (c.toNat % 64 + 0x80)] := rfl

theorem toNat_bounds (c : Char) :
    c.toNat < 0xD800 ∨ 0xDFFF < c.toNat ∧ c.toNat < 0x110000 := c.valid

theorem toNat_ofNat {n : Nat} (h : n < 0xD800 ∨ 0xDFFF < n ∧ n < 0x110000) :
    (Char.ofNat n).toNat = n := by
  have hn : n.isValidChar := h
  rw [Char.ofNat, dif_pos hn]
  rfl

theorem utf8EncodeChar_ascii {c : Char} (h : c.toNat ≤ 0x7F) :
    utf8EncodeChar c = [UInt8.ofNat c.toNat] := by
  rw [utf8EncodeChar_eq, if_pos h]

/-- The encoding of a character beyond U+007F is read as that character. -/
theorem reads_utf8EncodeChar (c : Char) (h : 0x7F < c.toNat) :
    ∃ lead tail, utf8EncodeChar c = lead :: tail ∧ Reads lead tail c.toNat := by
  have hc := toNat_bounds c
  rw [utf8EncodeChar_eq, if_neg (by omega)]
  split
  · refine ⟨_, _, rfl, reads_one.mpr ?_⟩
    simp only [UInt8.toNat_ofNat']
    omega
  · split
    · refine ⟨_, _, rfl, reads_two.mpr ?_⟩
      simp only [UInt8.toNat_ofNat']
      omega
    · refine ⟨_, _, rfl, reads_three.mpr ?_⟩
      simp only [UInt8.toNat_ofNat']
      omega

/-- Whatever is read is the encoding of a character. -/
theorem Reads.encoded (h : Reads lead tail value) :
    ∃ c : Char, c.toNat = value ∧ utf8EncodeChar c = lead :: tail := by
  suffices hv : (value < 0xD800 ∨ 0xDFFF < value ∧ value < 0x110000) ∧
      ∀ c : Char, c.toNat = value → utf8EncodeChar c = lead :: tail from
    ⟨_, toNat_ofNat hv.1, hv.2 _ (toNat_ofNat hv.1)⟩
  obtain ⟨low, high, hf, -⟩ := h.fits
  match tail, (follow?_some hf).2.1 with
  | [b], _ =>
    have hread := reads_one.mp h
    refine ⟨by omega, fun c hc => ?_⟩
    rw [utf8EncodeChar_eq, hc, if_neg (by omega), if_pos (by omega)]
    simp only [List.cons.injEq, and_true, ← UInt8.toNat_inj, UInt8.toNat_ofNat']
    omega
  | [b, b'], _ =>
    have hread := reads_two.mp h
    refine ⟨by omega, fun c hc => ?_⟩
    rw [utf8EncodeChar_eq, hc, if_neg (by omega), if_neg (by omega), if_pos (by omega)]
    simp only [List.cons.injEq, and_true, ← UInt8.toNat_inj, UInt8.toNat_ofNat']
    omega
  | [b, b', b''], _ =>
    have hread := reads_three.mp h
    refine ⟨by omega, fun c hc => ?_⟩
    rw [utf8EncodeChar_eq, hc, if_neg (by omega), if_neg (by omega), if_neg (by omega)]
    simp only [List.cons.injEq, and_true, ← UInt8.toNat_inj, UInt8.toNat_ofNat']
    omega
  | [], h => simp at h
  | _ :: _ :: _ :: _ :: _, h => simp at h

/-- A leading byte and a whole tail are the encoding of a character. -/
theorem Fits.encoded {owed : Nat} {low high : UInt8} (h : Fits owed low high tail)
    (hf : follow? lead = some (owed, low, high)) (hlen : tail.length = owed) :
    ∃ c : Char, utf8EncodeChar c = lead :: tail := by
  subst hlen
  obtain ⟨c, -, henc⟩ := Reads.encoded ⟨⟨low, high, hf, h⟩, rfl⟩
  exact ⟨c, henc⟩

theorem ascii_encoded (h : lead < 0x80) :
    ∃ c : Char, c.toNat = lead.toNat ∧ utf8EncodeChar c = [lead] := by
  have hlead : lead.toNat < 0x80 := UInt8.lt_iff_toNat_lt.mp h
  have hc := toNat_ofNat (n := lead.toNat) (by omega)
  refine ⟨_, hc, ?_⟩
  rw [utf8EncodeChar_ascii (by omega), hc, UInt8.ofNat_toNat]

end

/-! ## Sequences -/

section

variable {lead : UInt8} {tail rest : Bytes}

theorem decodeFrom_drop : ∀ (taken : Nat) (bytes : Bytes),
    decodeFrom taken bytes = decodeFrom 0 (bytes.drop taken)
  | 0, _ => rfl
  | _ + 1, [] => rfl
  | taken + 1, _ :: rest => decodeFrom_drop taken rest

theorem decodeFrom_cons : decodeFrom 0 (lead :: rest) =
    (decodeFirst lead rest).1 :: decodeFrom 0 (rest.drop (decodeFirst lead rest).2) := by
  rw [← decodeFrom_drop]
  rfl

theorem decodeFirst_ascii (h : lead < 0x80) (rest : Bytes) :
    decodeFirst lead rest = (Char.ofNat lead.toNat, 0) := by
  rw [decodeFirst, if_pos h]

theorem Reads.decodeFirst {value : Nat} (h : Reads lead tail value) (rest : Bytes) :
    decodeFirst lead (tail ++ rest) = (Char.ofNat value, tail.length) := by
  obtain ⟨low, high, hf, ht⟩ := h.fits
  have hlead : ¬ lead < 0x80 := by
    rw [UInt8.lt_iff_toNat_lt]
    exact Nat.not_lt.mpr h.lead_ge
  have htaken : takeTail tail.length low high (tail ++ rest) = tail := by
    have hpre := ht.prefix_takeTail (List.prefix_append tail rest)
    exact (hpre.eq_of_length_le (fits_takeTail _ _ _ _).length_le).symm
  simp only [Text.decodeFirst, hlead, if_false, hf, htaken, if_true, h.value]

/-- Every character is decoded from its encoding, whatever comes after it. -/
theorem decodeFrom_utf8EncodeChar (c : Char) (rest : Bytes) :
    decodeFrom 0 (utf8EncodeChar c ++ rest) = c :: decodeFrom 0 rest := by
  by_cases hc : c.toNat ≤ 0x7F
  · have hlead : UInt8.ofNat c.toNat < 0x80 := by
      rw [UInt8.lt_iff_toNat_lt, UInt8.toNat_ofNat']
      exact Nat.lt_of_le_of_lt (Nat.mod_le ..) (Nat.lt_succ_of_le hc)
    rw [utf8EncodeChar_ascii hc, List.singleton_append, decodeFrom_cons, decodeFirst_ascii hlead,
      UInt8.toNat_ofNat', Nat.mod_eq_of_lt (by omega), Char.ofNat_toNat]
    rfl
  · obtain ⟨lead, tail, henc, hreads⟩ := reads_utf8EncodeChar c (by omega)
    rw [henc, List.cons_append, decodeFrom_cons, hreads.decodeFirst, Char.ofNat_toNat,
      List.drop_left]

theorem decodeFrom_utf8 (text : String) : decodeFrom 0 (utf8 text) = text.toList := by
  rw [utf8]
  induction text.toList with
  | nil => rfl
  | cons c cs ih => rw [List.flatMap_cons, decodeFrom_utf8EncodeChar, ih]

@[simp] theorem ofUtf8_utf8 (text : String) : ofUtf8 (utf8 text) = text := by
  rw [ofUtf8, decodeFrom_utf8, String.ofList_toList]

theorem utf8_injective {s t : String} (h : utf8 s = utf8 t) : s = t := by
  rw [← ofUtf8_utf8 s, h, ofUtf8_utf8]

end

/-! ## Ill-formed bytes -/

/-- Bytes that begin the encoding of a character. -/
def Begins (bytes : Bytes) : Prop := ∃ c : Char, bytes <+: utf8EncodeChar c

/-- The maximal ill-formed part at the head of some bytes, where no character is encoded: the
longest start of an encoding, or else one byte. -/
structure IllFormed (part rest : Bytes) : Prop where
  unread : ∀ c : Char, ¬ utf8EncodeChar c <+: part ++ rest
  nonempty : part ≠ []
  begins : Begins part ∨ part.length = 1
  longest : ∀ longer, Begins longer → longer <+: part ++ rest → longer.length ≤ part.length

/-- The standard decoding that never fails: a character for every encoding, and a replacement
character for every maximal ill-formed part. -/
inductive Decodes : Bytes → List Char → Prop
  | nil : Decodes [] []
  | character {rest : Bytes} {text : List Char} (c : Char) (h : Decodes rest text) :
    Decodes (utf8EncodeChar c ++ rest) (c :: text)
  | illFormed {part rest : Bytes} {text : List Char} (hpart : IllFormed part rest)
      (h : Decodes rest text) : Decodes (part ++ rest) (replacement :: text)

section

variable {lead : UInt8} {tail part rest : Bytes}

theorem begins_cons (h : ¬ lead < 0x80) : Begins (lead :: tail) ↔
    ∃ owed low high, follow? lead = some (owed, low, high) ∧ Fits owed low high tail := by
  constructor
  · rintro ⟨c, hc⟩
    by_cases hascii : c.toNat ≤ 0x7F
    · rw [utf8EncodeChar_ascii hascii, List.cons_prefix_cons] at hc
      rw [hc.1, UInt8.lt_iff_toNat_lt, UInt8.toNat_ofNat'] at h
      exact absurd (Nat.lt_of_le_of_lt (Nat.mod_le ..) (Nat.lt_succ_of_le hascii)) h
    · obtain ⟨lead', tail', henc, hreads⟩ := reads_utf8EncodeChar c (by omega)
      rw [henc, List.cons_prefix_cons] at hc
      obtain ⟨rfl, htail⟩ := hc
      obtain ⟨low, high, hf, ht⟩ := hreads.fits
      exact ⟨_, low, high, hf, ht.of_prefix htail⟩
  · rintro ⟨owed, low, high, hf, ht⟩
    obtain ⟨more, hfits, hlen⟩ := ht.completed (follow?_some hf).2.2
    obtain ⟨c, henc⟩ := hfits.encoded hf hlen
    exact ⟨c, more, by rw [henc, List.cons_append]⟩

/-- Where no character is encoded, decoding takes the maximal ill-formed part. -/
theorem decodeFirst_unread (h : ∀ c : Char, ¬ utf8EncodeChar c <+: lead :: rest) :
    ∃ part rest', rest = part ++ rest' ∧ decodeFirst lead rest = (replacement, part.length) ∧
      IllFormed (lead :: part) rest' := by
  have hlead : ¬ lead < 0x80 := by
    intro hlt
    obtain ⟨c, -, henc⟩ := ascii_encoded hlt
    exact h c (henc ▸ List.prefix_append [lead] rest)
  cases hf : follow? lead with
  | none =>
    refine ⟨[], rest, rfl, by simp only [decodeFirst, hlead, if_false, hf, List.length_nil], h,
      by simp, .inr rfl, ?_⟩
    intro longer hbegins hpre
    cases longer with
    | nil => exact Nat.zero_le _
    | cons b longer =>
      obtain ⟨rfl, -⟩ := List.cons_prefix_cons.mp hpre
      obtain ⟨_, _, _, hsome, -⟩ := (begins_cons hlead).mp hbegins
      rw [hf] at hsome
      cases hsome
  | some bounds =>
    obtain ⟨owed, low, high⟩ := bounds
    have hfits := fits_takeTail owed low high rest
    obtain ⟨rest', hrest⟩ := takeTail_initial owed low high rest
    have hshort : (takeTail owed low high rest).length ≠ owed := by
      intro hlen
      obtain ⟨c, henc⟩ := hfits.encoded hf hlen
      refine h c ⟨rest', ?_⟩
      rw [henc, List.cons_append, hrest]
    refine ⟨_, rest', hrest.symm, by simp only [decodeFirst, hlead, if_false, hf, hshort],
      ?_, by simp, ?_, ?_⟩
    · rw [List.cons_append, hrest]
      exact h
    · exact .inl ((begins_cons hlead).mpr ⟨owed, low, high, hf, hfits⟩)
    · intro longer hbegins hpre
      rw [List.cons_append, hrest] at hpre
      cases longer with
      | nil => exact Nat.zero_le _
      | cons b longer =>
        obtain ⟨rfl, htail⟩ := List.cons_prefix_cons.mp hpre
        obtain ⟨_, _, _, hsome, hlonger⟩ := (begins_cons hlead).mp hbegins
        obtain ⟨rfl, rfl, rfl⟩ : _ ∧ _ ∧ _ := by simpa [hf] using hsome
        exact Nat.succ_le_succ (hlonger.prefix_takeTail htail).length_le

theorem IllFormed.length_le {part' rest' : Bytes} (h : IllFormed part rest)
    (h' : IllFormed part' rest') (heq : part ++ rest = part' ++ rest') :
    part.length ≤ part'.length := by
  rcases h.begins with hbegins | hone
  · exact h'.longest part hbegins (heq ▸ List.prefix_append part rest)
  · rw [hone]
    exact List.length_pos_iff.mpr h'.nonempty

/-- At most one part is the maximal ill-formed one. -/
theorem IllFormed.unique {part' rest' : Bytes} (h : IllFormed part rest)
    (h' : IllFormed part' rest') (heq : part ++ rest = part' ++ rest') :
    part = part' ∧ rest = rest' :=
  List.append_inj heq (Nat.le_antisymm (h.length_le h' heq) (h'.length_le h heq.symm))

/-- Decoding turns a maximal ill-formed part into one replacement character. -/
theorem IllFormed.decodeFrom (h : IllFormed part rest) :
    decodeFrom 0 (part ++ rest) = replacement :: decodeFrom 0 rest := by
  cases part with
  | nil => exact absurd rfl h.nonempty
  | cons lead part =>
    have hunread : ∀ c : Char, ¬ utf8EncodeChar c <+: lead :: (part ++ rest) := h.unread
    obtain ⟨part', rest', heq, hfirst, h'⟩ := decodeFirst_unread hunread
    obtain ⟨hpart, rfl⟩ := h.unique h' (by rw [List.cons_append, heq, List.cons_append])
    obtain rfl := (List.cons.inj hpart).2
    rw [List.cons_append, decodeFrom_cons, hfirst, List.drop_left]

theorem Decodes.eq_decodeFrom {bytes : Bytes} {text : List Char} (h : Decodes bytes text) :
    Text.decodeFrom 0 bytes = text := by
  induction h with
  | nil => rfl
  | character c _ ih => rw [decodeFrom_utf8EncodeChar, ih]
  | illFormed hpart _ ih => rw [hpart.decodeFrom, ih]

theorem decodes_decodeFrom (bytes : Bytes) : Decodes bytes (decodeFrom 0 bytes) := by
  induction hn : bytes.length using Nat.strongRecOn generalizing bytes with
  | ind n ih =>
    cases bytes with
    | nil => exact .nil
    | cons lead rest =>
      by_cases hread : ∃ c : Char, utf8EncodeChar c <+: lead :: rest
      · obtain ⟨c, rest', hrest⟩ := hread
        have hlt : rest'.length < n := by
          have hlen := congrArg List.length hrest
          have hpos := String.length_utf8EncodeChar c ▸ c.utf8Size_pos
          rw [List.length_append] at hlen
          omega
        rw [← hrest, decodeFrom_utf8EncodeChar]
        exact .character c (ih _ hlt _ rfl)
      · obtain ⟨part, rest', rfl, -, hpart⟩ := decodeFirst_unread (not_exists.mp hread)
        have hlt : rest'.length < n := by
          rw [List.length_cons, List.length_append] at hn
          omega
        rw [← List.cons_append, hpart.decodeFrom]
        exact .illFormed hpart (ih _ hlt _ rfl)

/-- Decoding is the standard one that never fails. -/
theorem decodes_iff {bytes : Bytes} {text : List Char} :
    Decodes bytes text ↔ text = decodeFrom 0 bytes :=
  ⟨fun h => h.eq_decodeFrom.symm, fun h => h ▸ decodes_decodeFrom bytes⟩

end

/-! ## Well-formed bytes -/

theorem isValidUTF8_iff {bytes : Bytes} :
    bytes.toByteArray.IsValidUTF8 ↔ ∃ text, utf8 text = bytes := by
  constructor
  · rintro ⟨chars, h⟩
    refine ⟨String.ofList chars, ?_⟩
    rw [utf8, String.toList_ofList, List.toByteArray_inj.mp h]
  · rintro ⟨text, rfl⟩
    exact ⟨text.toList, rfl⟩

theorem utf8_ofUtf8 {bytes : Bytes} (h : bytes.toByteArray.IsValidUTF8) :
    utf8 (ofUtf8 bytes) = bytes := by
  obtain ⟨text, rfl⟩ := isValidUTF8_iff.mp h
  rw [ofUtf8_utf8]

/-! ## Zero bytes -/

theorem zero_mem_utf8EncodeChar {c : Char} : 0 ∈ utf8EncodeChar c ↔ c.toNat = 0 := by
  rw [utf8EncodeChar_eq]
  repeat' split
  all_goals
    simp only [List.mem_cons, List.not_mem_nil, or_false, ← UInt8.toNat_inj, UInt8.toNat_ofNat',
      UInt8.reduceToNat]
    omega

/-- Only the character U+0000 is encoded with a zero byte. -/
theorem zero_mem_utf8 {text : String} : 0 ∈ utf8 text ↔ '\x00' ∈ text.toList := by
  simp only [utf8, List.mem_flatMap, zero_mem_utf8EncodeChar]
  constructor
  · rintro ⟨c, hc, hzero⟩
    obtain rfl : c = '\x00' := Char.toNat_inj.mp hzero
    exact hc
  · intro h
    exact ⟨_, h, rfl⟩

end Rendezvous.Text
