import Rendezvous.Proofs.Options

/-!
# The two spellings of a class

A class has an internal name: parts with slashes between them. An option may spell it as a signature,
with `L` before and `;` behind, or with dots in place of the slashes. Nothing else is taken for the
name of a class, and the class can be told from either spelling, even where a dotted name starts with
`L`.
-/

namespace Rendezvous

open Text

/-- A class in the spelling of signatures. -/
def signatureOf (name : List Char) : List Char := 'L' :: name ++ [';']

/-- A class in the spelling of programs. -/
def dotted (name : List Char) : List Char := name.map fun c => if c = '/' then '.' else c

/-- A dotted name with slashes for its dots. -/
def slashed (value : List Char) : List Char := value.map fun c => if c = '.' then '/' else c

/-- The spellings of the class with this internal name. -/
inductive Spells (name : List Char) : List Char → Prop where
  | signature : Spells name (signatureOf name)
  | dotted : Spells name (dotted name)

/-! ## Characters of a spelling -/

section

variable {name value inside : List Char} {c : Char}

theorem mem_intercalate {sep : Char} {parts : List (List Char)}
    (h : c ∈ List.intercalate [sep] parts) : c = sep ∨ ∃ part ∈ parts, c ∈ part := by
  induction parts with
  | nil => cases h
  | cons first rest ih =>
    cases rest with
    | nil => exact .inr ⟨first, List.mem_cons_self, by simpa using h⟩
    | cons second others =>
      rw [List.intercalate_cons_cons] at h
      rcases List.mem_append.mp h with hhead | hrest
      · rcases List.mem_append.mp hhead with hfirst | hsep
        · exact .inr ⟨first, List.mem_cons_self, hfirst⟩
        · exact .inl (List.mem_singleton.mp hsep)
      · rcases ih hrest with hsep | ⟨part, hpart, hmem⟩
        · exact .inl hsep
        · exact .inr ⟨part, List.mem_cons_of_mem first hpart, hmem⟩

/-- What is forbidden in each part is forbidden in an internal name, but for the slash. -/
theorem InternalName.notMem (h : InternalName name) (hc : c ∈ ['[', ';', '.', '<', '>']) :
    c ∉ name := by
  obtain ⟨parts, -, rfl, hparts⟩ := h
  intro hmem
  rcases mem_intercalate hmem with rfl | ⟨part, hpart, hin⟩
  · exact absurd hc (by decide)
  · exact ((hparts part hpart).2 c hin).2 (List.mem_cons_of_mem _ hc)

theorem slash_notMem_dotted (name : List Char) : '/' ∉ dotted name := by
  intro hmem
  obtain ⟨c, -, hc⟩ := List.mem_map.mp hmem
  split at hc
  · cases hc
  · next hne => exact hne hc

/-- A semicolon in the dotted spelling is one of the name. -/
theorem semicolon_notMem_dotted (h : ';' ∉ name) : ';' ∉ dotted name := by
  intro hmem
  obtain ⟨c, hin, hc⟩ := List.mem_map.mp hmem
  split at hc
  · cases hc
  · exact h (hc ▸ hin)

/-- The slashes come back for the dots, unless the name has a dot of its own. -/
theorem slashed_dotted (h : '.' ∉ name) : slashed (dotted name) = name := by
  have hback : ∀ c ∈ name, ((fun c => if c = '.' then '/' else c) ∘
      fun c => if c = '/' then '.' else c) c = id c := by
    intro c hc
    have hdot : c ≠ '.' := fun he => h (he ▸ hc)
    by_cases hslash : c = '/' <;> simp [hslash, hdot]
  rw [slashed, dotted, List.map_map, List.map_congr_left hback, List.map_id]

theorem dotted_slashed (h : '/' ∉ value) : dotted (slashed value) = value := by
  have hback : ∀ c ∈ value, ((fun c => if c = '/' then '.' else c) ∘
      fun c => if c = '.' then '/' else c) c = id c := by
    intro c hc
    have hslash : c ≠ '/' := fun he => h (he ▸ hc)
    by_cases hdot : c = '.' <;> simp [hslash, hdot]
  rw [dotted, slashed, List.map_map, List.map_congr_left hback, List.map_id]

/-! ## Reading a spelling -/

theorem signatureOf_injective {first second : List Char} (h : signatureOf first = signatureOf second) :
    first = second := by
  simpa [signatureOf] using h

/-- Only a signature has an inside. -/
theorem eq_signatureOf (h : insideSignature? value = some inside) : value = signatureOf inside := by
  unfold insideSignature? at h
  split at h
  · next rest =>
    split at h
    · next hlast =>
      cases h
      rw [signatureOf, List.cons_append, List.dropLast_append_getLast? _ hlast]
    · cases h
  · cases h

/-- A text without a semicolon is no signature. -/
theorem insideSignature?_eq_none (h : ';' ∉ value) : insideSignature? value = none := by
  cases hi : insideSignature? value with
  | none => rfl
  | some inside =>
    rw [eq_signatureOf hi] at h
    simp [signatureOf] at h

/-- What is read as an internal name has been spelt in one of the two ways. -/
theorem spells_of_internalName? (h : internalName? value = some name) : Spells name value := by
  unfold internalName? at h
  split at h
  · next inside hinside =>
    cases h
    rw [eq_signatureOf hinside]
    exact .signature
  · split at h
    · cases h
    · next hslash =>
      cases h
      have hd : dotted (slashed value) = value := dotted_slashed (by simpa using hslash)
      have hs : Spells (slashed value) (dotted (slashed value)) := .dotted
      rwa [hd] at hs

/-- Either spelling of an internal name is read as that name. -/
theorem Spells.internalName?_eq (h : Spells name value) (hname : InternalName name) :
    internalName? value = some name := by
  cases h with
  | signature => rw [internalName?, signatureOf, insideSignature?_eq]
  | dotted =>
    have hnone : insideSignature? (Rendezvous.dotted name) = none :=
      insideSignature?_eq_none (semicolon_notMem_dotted (hname.notMem (by decide)))
    have hslash : (Rendezvous.dotted name).contains '/' = false := by
      simpa using slash_notMem_dotted name
    have hback : slashed (Rendezvous.dotted name) = name := slashed_dotted (hname.notMem (by decide))
    simp only [internalName?, hnone, hslash, Bool.false_eq_true, if_false]
    exact congrArg some hback

/-- A text names a class if it is a spelling of an internal name, which is then in the signature. -/
theorem classSignature?_eq_some_iff {signature : List Char} :
    classSignature? value = some signature ↔
      ∃ name, InternalName name ∧ signature = signatureOf name ∧ Spells name value := by
  constructor
  · intro h
    obtain ⟨name, hread, hname, rfl⟩ := classSignature?_eq_some h
    exact ⟨name, hname, rfl, spells_of_internalName? hread⟩
  · rintro ⟨name, hname, rfl, hspells⟩
    simp only [classSignature?, hspells.internalName?_eq hname, isInternalName_iff.mpr hname, if_true]
    rfl

/-- No text spells two classes. -/
theorem Spells.unique {first second : List Char} (h : Spells first value) (h' : Spells second value)
    (hfirst : InternalName first) (hsecond : InternalName second) : first = second :=
  Option.some.inj ((h.internalName?_eq hfirst).symm.trans (h'.internalName?_eq hsecond))

end

/-- Exactly two spellings of a class are accepted as its name, and both give its signature. The class
can be told from either, no text is the signature of one class and the dotted name of another, a
signature that is given is accepted and gives itself, and two texts that give the same signature are
the same or the two spellings of one class. -/
theorem class_names_have_two_spellings :
    (∀ value signature, classSignature? value = some signature ↔
      ∃ name, InternalName name ∧ signature = signatureOf name ∧ Spells name value) ∧
    (∀ value first second, InternalName first → InternalName second →
      Spells first value → Spells second value → first = second) ∧
    (∀ first second, InternalName first → InternalName second →
      signatureOf first ≠ dotted second) ∧
    (∀ value signature, classSignature? value = some signature →
      classSignature? signature = some signature) ∧
    (∀ name, InternalName name → classSignature? (dotted name) = some (signatureOf name) ∧
      classSignature? (signatureOf name) = some (signatureOf name)) ∧
    ∀ value other signature, classSignature? value = some signature →
      classSignature? other = some signature → value = other ∨ ∃ name, InternalName name ∧
        (value = signatureOf name ∧ other = dotted name ∨
          value = dotted name ∧ other = signatureOf name) := by
  refine ⟨fun value signature => classSignature?_eq_some_iff, ?_, ?_, ?_, ?_, ?_⟩
  · intro value first second hfirst hsecond h h'
    exact h.unique h' hfirst hsecond
  · intro first second hfirst hsecond he
    have hsemicolon : ';' ∈ signatureOf first := by simp [signatureOf]
    rw [he] at hsemicolon
    exact semicolon_notMem_dotted (hsecond.notMem (by decide)) hsemicolon
  · intro value signature h
    obtain ⟨name, hname, rfl, -⟩ := classSignature?_eq_some_iff.mp h
    exact classSignature?_eq_some_iff.mpr ⟨name, hname, rfl, .signature⟩
  · intro name hname
    exact ⟨classSignature?_eq_some_iff.mpr ⟨name, hname, rfl, .dotted⟩,
      classSignature?_eq_some_iff.mpr ⟨name, hname, rfl, .signature⟩⟩
  · intro value other signature hvalue hother
    obtain ⟨name, hname, rfl, hspells⟩ := classSignature?_eq_some_iff.mp hvalue
    obtain ⟨second, -, hsame, hspells'⟩ := classSignature?_eq_some_iff.mp hother
    cases signatureOf_injective hsame
    cases hspells with
    | signature =>
      cases hspells' with
      | signature => exact .inl rfl
      | dotted => exact .inr ⟨name, hname, .inl ⟨rfl, rfl⟩⟩
    | dotted =>
      cases hspells' with
      | signature => exact .inr ⟨name, hname, .inr ⟨rfl, rfl⟩⟩
      | dotted => exact .inl rfl

/-- A class called `L` in a package of that name: its dotted name starts like a signature, and its
signature has the start and the end of one twice over. -/
theorem class_names_have_two_spellings_nested :
    InternalName "L/L".toList ∧
    classSignature? "L.L".toList = some "LL/L;".toList ∧
    classSignature? "LL/L;".toList = some "LL/L;".toList := by
  have hname : InternalName "L/L".toList := isInternalName_iff.mp (by decide +kernel)
  obtain ⟨-, -, -, -, hboth, -⟩ := class_names_have_two_spellings
  exact ⟨hname, hboth _ hname⟩

example : classSignature? "L".toList = some "LL;".toList := by decide +kernel
example : classSignature? "L;".toList = none := by decide +kernel

end Rendezvous
