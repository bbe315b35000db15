import Mathlib.Data.List.DropRight
import Mathlib.Data.List.Perm.Basic
import Rendezvous.Settings

/-!
# Options as they are written

Settings can be written out as options, one for each thing that is set, in any order, with blanks
anywhere around the options, their keys and their values, and with blank options in between. What is
read from such a text are the settings again. This is so for all settings that come from reading
options, since those are well formed: each value is one that its own check lets pass.
-/

namespace Rendezvous

/-! ## Trimming -/

namespace Text

def Blank (text : List Char) : Prop := ∀ c ∈ text, isBlank c = true

/-- No blank stands at either end. -/
def Trimmed (text : List Char) : Prop :=
  (∀ c, text.head? = some c → isBlank c = false) ∧ ∀ c, text.getLast? = some c → isBlank c = false

variable {a b text : List Char}

theorem Trimmed.of_no_blank (h : ∀ c ∈ text, isBlank c = false) : Trimmed text :=
  ⟨fun c hc => h c (List.mem_of_head? hc), fun c hc => h c (List.mem_of_getLast? hc)⟩

theorem trim_blank (h : Blank text) : trim text = [] := by
  have hstart : trimStart text = [] := List.dropWhile_eq_nil_iff.mpr h
  rw [trim, hstart]
  rfl

theorem trimmed_trim (text : List Char) : Trimmed (trim text) := by
  have hprefix : trim text <+: trimStart text := List.rdropWhile_prefix isBlank _
  constructor
  · intro c hc
    obtain ⟨rest, hrest⟩ := hprefix
    have hhead : (text.dropWhile isBlank).head? = some c := by
      rw [← trimStart, ← hrest, List.head?_append, hc]
      rfl
    have hstop := List.head?_dropWhile_not isBlank text
    rw [hhead] at hstop
    exact hstop
  · intro c hc
    have hne : trim text ≠ [] := List.ne_nil_of_mem (List.mem_of_getLast? hc)
    have hstop := List.rdropWhile_last_not isBlank (trimStart text) hne
    rw [← List.getLast_of_getLast?_eq_some hc]
    exact eq_false_of_ne_true hstop

theorem mem_of_mem_trim {c : Char} (h : c ∈ trim text) : c ∈ text :=
  (List.dropWhile_suffix isBlank).subset ((List.rdropWhile_prefix isBlank _).subset h)

/-- Trimming takes away the blanks around a text, and nothing of the text. -/
theorem trim_padded (ha : Blank a) (hb : Blank b) (h : Trimmed text) (hne : text ≠ []) :
    trim (a ++ text ++ b) = text := by
  obtain ⟨hfirst, hlast⟩ := h
  have hstart : trimStart (a ++ text ++ b) = text ++ b := by
    rw [trimStart, List.append_assoc, List.dropWhile_append_of_pos ha]
    obtain ⟨c, rest, rfl⟩ := List.exists_cons_of_ne_nil hne
    exact List.dropWhile_cons_of_neg (by simp [hfirst c rfl])
  have hend : trimEnd (text ++ b) = text := by
    have hback : ∀ c ∈ b.reverse, isBlank c = true := fun c hc => hb c (List.mem_reverse.mp hc)
    rw [trimEnd, List.reverse_append, List.dropWhile_append_of_pos hback]
    obtain ⟨rest, c, rfl⟩ := List.eq_nil_or_concat text |>.resolve_left hne
    simp [hlast c (by simp)]
  rw [trim, hstart, hend]

/-! ## Cutting -/

/-- A text is cut at the first mark. -/
theorem cutAt?_append {mark : Char} {before : List Char} (h : mark ∉ before) (after : List Char) :
    cutAt? mark (before ++ mark :: after) = some (before, after) := by
  induction before with
  | nil => exact cutAt?_mark mark after
  | cons c rest ih =>
    simp only [List.mem_cons, not_or] at h
    rw [List.cons_append, cutAt?, if_neg (Ne.symm h.1), ih h.2]
    rfl

/-- No part between marks holds a mark. -/
theorem not_mem_of_mem_splitOn {mark : Char} {part : List Char} (h : part ∈ text.splitOn mark) :
    mark ∉ part := by
  induction text generalizing part with
  | nil => simp_all
  | cons c rest ih =>
    obtain ⟨first, others, hsplit⟩ := List.exists_cons_of_ne_nil (List.splitOn_ne_nil mark rest)
    rw [hsplit] at ih
    rw [List.splitOn_cons_eq_if_modifyHead, hsplit] at h
    split at h
    · rcases List.mem_cons.mp h with rfl | hrest
      · exact List.not_mem_nil
      · exact ih hrest
    · next hc =>
      rcases List.mem_cons.mp h with rfl | hrest
      · simpa [Ne.symm (by simpa using hc)] using ih List.mem_cons_self
      · exact ih (List.mem_cons_of_mem first hrest)

end Text

/-! ## Well-formed settings -/

open Text

/-- The internal name of a class: parts with slashes between them, all of them names. -/
def InternalName (name : List Char) : Prop :=
  ∃ parts : List (List Char), parts ≠ [] ∧ name = List.intercalate ['/'] parts ∧
    ∀ part ∈ parts, part ≠ [] ∧
      ∀ c ∈ part, isBlank c = false ∧ c ∉ ['/', '[', ';', '.', '<', '>']

/-- A setting that its own check lets pass, and that holds no comma. -/
def Setting.WellFormed : Setting → Prop
  | .classSignature signature =>
    ∃ name, signature = String.ofList ('L' :: name ++ [';']) ∧ InternalName name ∧ ',' ∉ name
  | .methodName name =>
    name ≠ "" ∧ ∀ c ∈ name.toList,
      isBlank c = false ∧ c ∉ [',', '.', '/', ';', '[', '<', '>', '(', ')']
  | .logFilter filter => filter ≠ "" ∧ Trimmed filter.toList ∧ ',' ∉ filter.toList

/-- The settings one by one, as options set them. -/
def Settings.each (settings : Settings) : List Setting :=
  [.classSignature settings.marker.classSignature, .methodName settings.marker.methodName] ++
    settings.logFilter.toList.map .logFilter

theorem isInternalName_iff {text : List Char} : isInternalName text = true ↔ InternalName text := by
  constructor
  · intro h
    refine ⟨text.splitOn '/', List.splitOn_ne_nil _ _, (List.intercalate_splitOn '/').symm, ?_⟩
    intro part hpart
    have hname := List.all_eq_true.mp h part hpart
    have hslash := not_mem_of_mem_splitOn hpart
    simp only [isNamePart, Bool.and_eq_true, List.all_eq_true] at hname
    refine ⟨by simpa using hname.1, fun c hc => ?_⟩
    have hchar := hname.2 c hc
    have hne : c ≠ '/' := fun he => hslash (he ▸ hc)
    simp_all
  · rintro ⟨parts, hne, rfl, hparts⟩
    have hslash : ∀ part ∈ parts, '/' ∉ part := by
      intro part hpart hmem
      simpa using ((hparts part hpart).2 '/' hmem).2
    rw [isInternalName, List.splitOn_intercalate '/' hslash hne, List.all_eq_true]
    intro part hpart
    obtain ⟨hnil, hchars⟩ := hparts part hpart
    simp only [isNamePart, Bool.and_eq_true, List.all_eq_true]
    refine ⟨by simpa using hnil, fun c hc => ?_⟩
    obtain ⟨hblank, hmem⟩ := hchars c hc
    simp_all

/-- The inside of a signature of an internal name is that name. -/
theorem insideSignature?_eq (name : List Char) :
    insideSignature? ('L' :: name ++ [';']) = some name := by
  simp [insideSignature?]

theorem classSignature?_eq_some {value signature : List Char}
    (h : classSignature? value = some signature) :
    ∃ name, internalName? value = some name ∧ InternalName name ∧
      signature = 'L' :: name ++ [';'] := by
  unfold classSignature? at h
  cases hn : internalName? value with
  | none => simp [hn] at h
  | some name =>
    cases hi : isInternalName name with
    | false => simp [hn, hi] at h
    | true =>
      simp only [hn, hi, if_true, Option.some.injEq] at h
      exact ⟨name, rfl, isInternalName_iff.mp hi, h.symm⟩

/-- Only slashes come into an internal name that are not in the value. -/
theorem mem_of_internalName? {value name : List Char} {c : Char}
    (h : internalName? value = some name) (hc : c ≠ '/') (hmem : c ∈ name) : c ∈ value := by
  unfold internalName? at h
  split at h
  · next inside hinside =>
    cases h
    unfold insideSignature? at hinside
    split at hinside
    · split at hinside
      · cases hinside
        exact List.mem_cons_of_mem _ ((List.dropLast_sublist _).subset hmem)
      · cases hinside
    · cases hinside
  · split at h
    · cases h
    · cases h
      obtain ⟨d, hd, rfl⟩ := List.mem_map.mp hmem
      split at hc
      · exact absurd rfl hc
      · next hdot => simpa only [hdot, if_false] using hd

namespace Setting

variable {setting : Setting}

theorem ofPair_wellFormed {key value : List Char} (h : ofPair key value = .ok setting)
    (hne : value ≠ []) (htrimmed : Trimmed value) (hcomma : ',' ∉ value) : setting.WellFormed := by
  unfold ofPair at h
  split at h
  · cases hs : classSignature? value with
    | none => simp [hs] at h
    | some signature =>
      obtain ⟨name, hname, hinternal, rfl⟩ := classSignature?_eq_some hs
      simp only [hs, Except.ok.injEq] at h
      subst h
      exact ⟨name, rfl, hinternal, fun hmem =>
        hcomma (mem_of_internalName? hname (by decide) hmem)⟩
  · split at h
    · cases hm : isMethodName value with
      | false => simp [hm] at h
      | true =>
        simp only [hm, if_true, Except.ok.injEq] at h
        subst h
        refine ⟨by simpa using hne, fun c hc => ?_⟩
        rw [String.toList_ofList] at hc
        have hchar := List.all_eq_true.mp hm c hc
        have hother : c ≠ ',' := fun he => hcomma (he ▸ hc)
        simp_all
    · split at h
      · cases h
        exact ⟨by simpa using hne, by simpa using htrimmed, by simpa using hcomma⟩
      · cases h

/-- An option that is accepted sets something well formed. -/
theorem ofPiece_wellFormed {piece : List Char} (h : ofPiece piece = .ok setting)
    (hcomma : ',' ∉ piece) : setting.WellFormed := by
  unfold ofPiece at h
  cases hcut : cutAt? '=' piece with
  | none => simp [hcut] at h
  | some parts =>
    obtain ⟨key, value⟩ := parts
    have hpiece := cutAt?_eq_some hcut
    simp only [hcut] at h
    split at h
    · cases h
    · next hne =>
      refine ofPair_wellFormed h (by simpa using hne) (trimmed_trim value) fun hmem => hcomma ?_
      rw [hpiece]
      exact List.mem_append_right _ (List.mem_cons_of_mem _ (mem_of_mem_trim hmem))

end Setting

namespace Settings

variable {settings : Settings}

theorem standard_wellFormed : ∀ setting ∈ standard.each, setting.WellFormed := by
  intro setting h
  rcases List.mem_cons.mp h with rfl | h
  · refine ⟨"org/usvm/instrumentation/ConcolicHelper".toList, rfl, ?_, by decide⟩
    exact isInternalName_iff.mp (by decide +kernel)
  · cases List.mem_singleton.mp h
    have hchars : "breakpoint".toList.all (fun c => decide (isBlank c = false ∧
        c ∉ [',', '.', '/', ';', '[', '<', '>', '(', ')'])) = true := by decide +kernel
    exact ⟨by decide, fun c hc => of_decide_eq_true (List.all_eq_true.mp hchars c hc)⟩

/-- A setting takes the place of at most one other. -/
theorem mem_each_apply {setting other : Setting} (h : other ∈ (settings.apply setting).each) :
    other = setting ∨ other ∈ settings.each := by
  cases setting <;> simp_all [apply, each] <;> tauto

theorem foldl_wellFormed {changes : List Setting} (hs : ∀ setting ∈ settings.each, setting.WellFormed)
    (hc : ∀ setting ∈ changes, setting.WellFormed) :
    ∀ setting ∈ (changes.foldl apply settings).each, setting.WellFormed := by
  induction changes generalizing settings with
  | nil => exact hs
  | cons first rest ih =>
    obtain ⟨hfirst, hrest⟩ := List.forall_mem_cons.mp hc
    refine ih (fun setting h => ?_) hrest
    rcases mem_each_apply h with rfl | hmem
    · exact hfirst
    · exact hs setting hmem

/-- No piece of a list holds a comma. -/
theorem comma_notMem_pieces {text piece : List Char} (h : piece ∈ pieces text) : ',' ∉ piece := by
  intro hmem
  obtain ⟨part, hpart, rfl⟩ := List.mem_map.mp (List.mem_of_mem_filter h)
  exact not_mem_of_mem_splitOn hpart (mem_of_mem_trim hmem)

theorem parse_wellFormed (options : String) :
    ∀ setting ∈ (parse options).1.each, setting.WellFormed := by
  refine foldl_wellFormed standard_wellFormed fun setting h => ?_
  obtain ⟨piece, hpiece, hsome⟩ := List.mem_filterMap.mp h
  have hok : Setting.ofPiece piece = .ok setting := by
    cases hp : Setting.ofPiece piece with
    | error _ => simp [hp, Except.toOption] at hsome
    | ok _ => simpa [hp, Except.toOption] using hsome
  exact Setting.ofPiece_wellFormed hok (comma_notMem_pieces hpiece)

end Settings

/-! ## Settings in writing -/

namespace Setting

def key : Setting → String
  | .classSignature _ => "class"
  | .methodName _ => "method"
  | .logFilter _ => "log"

def value : Setting → String
  | .classSignature signature => signature
  | .methodName name => name
  | .logFilter filter => filter

/-- Whether a text is an option that sets this: there may be blanks around it, and around its key and
its value. -/
def IsWritten (setting : Setting) (text : List Char) : Prop :=
  ∃ a b c d, Blank a ∧ Blank b ∧ Blank c ∧ Blank d ∧
    text = a ++ (setting.key.toList ++ b ++ '=' :: (c ++ setting.value.toList)) ++ d

end Setting

/-- Options that set these things in order, and blank options anywhere between them. -/
inductive Written : List Setting → List (List Char) → Prop where
  | nil : Written [] []
  | blank {settings : List Setting} {texts : List (List Char)} {text : List Char} :
      Blank text → Written settings texts → Written settings (text :: texts)
  | option {settings : List Setting} {texts : List (List Char)} {text : List Char}
      {setting : Setting} :
      setting.IsWritten text → Written settings texts → Written (setting :: settings) (text :: texts)

namespace Setting

variable {setting : Setting} {text : List Char}

theorem key_ne_nil (setting : Setting) : setting.key.toList ≠ [] := by
  cases setting <;> simp [key]

theorem of_mem_key {c : Char} (h : c ∈ setting.key.toList) :
    isBlank c = false ∧ c ≠ ',' ∧ c ≠ '=' := by
  have hkeys : ["class", "method", "log"].all (fun word => word.toList.all fun c =>
      decide (isBlank c = false ∧ c ≠ ',' ∧ c ≠ '=')) = true := by decide +kernel
  have hmem : setting.key ∈ ["class", "method", "log"] := by cases setting <;> simp [key]
  exact of_decide_eq_true (List.all_eq_true.mp (List.all_eq_true.mp hkeys _ hmem) c h)

theorem WellFormed.value_ne_nil (h : setting.WellFormed) : setting.value.toList ≠ [] := by
  cases setting with
  | classSignature signature =>
    obtain ⟨name, rfl, -, -⟩ := h
    simp [value]
  | methodName name => simpa [value] using h.1
  | logFilter filter => simpa [value] using h.1

theorem WellFormed.value_trimmed (h : setting.WellFormed) : Trimmed setting.value.toList := by
  cases setting with
  | classSignature signature =>
    obtain ⟨name, rfl, -, -⟩ := h
    rw [value, String.toList_ofList]
    constructor
    · intro c hc
      cases hc
      decide
    · intro c hc
      rw [List.getLast?_append_of_ne_nil _ (by simp)] at hc
      cases hc
      decide
  | methodName name => exact .of_no_blank fun c hc => (h.2 c hc).1
  | logFilter filter => exact h.2.1

theorem WellFormed.comma_notMem (h : setting.WellFormed) : ',' ∉ setting.value.toList := by
  cases setting with
  | classSignature signature =>
    obtain ⟨name, rfl, -, hcomma⟩ := h
    simpa [value] using hcomma
  | methodName name => exact fun hmem => (h.2 ',' hmem).2 (by decide)
  | logFilter filter => exact h.2.2

/-- A well-formed setting is what its own key and value set. -/
theorem WellFormed.ofPair_eq (h : setting.WellFormed) :
    ofPair setting.key.toList setting.value.toList = .ok setting := by
  cases setting with
  | classSignature signature =>
    obtain ⟨name, rfl, hname, -⟩ := h
    have hs : classSignature? ('L' :: name ++ [';']) = some ('L' :: name ++ [';']) := by
      rw [classSignature?, internalName?, insideSignature?_eq]
      simp only [isInternalName_iff.mpr hname, if_true]
    rw [List.cons_append] at hs
    simp [ofPair, key, value, hs]
  | methodName name =>
    have hm : isMethodName name.toList = true := by
      refine List.all_eq_true.mpr fun c hc => ?_
      obtain ⟨hblank, hmem⟩ := h.2 c hc
      simp_all
    simp [ofPair, key, value, hm]
  | logFilter filter => simp [ofPair, key, value]

theorem not_blank {c : Char} {b : List Char} (hb : Blank b) (hc : isBlank c = false) : c ∉ b :=
  fun hmem => by simp [hb c hmem] at hc

theorem IsWritten.comma_notMem (h : setting.IsWritten text) (hs : setting.WellFormed) :
    ',' ∉ text := by
  obtain ⟨a, b, c, d, ha, hb, hc, hd, rfl⟩ := h
  have hblank : isBlank ',' = false := by decide
  have hkey : ',' ∉ setting.key.toList := fun h => (of_mem_key h).2.1 rfl
  simp [hkey, not_blank ha hblank, not_blank hb hblank, not_blank hc hblank, not_blank hd hblank,
    hs.comma_notMem]

/-- An option that is written out is read, whatever the blanks. -/
theorem IsWritten.read (h : setting.IsWritten text) (hs : setting.WellFormed) :
    trim text ≠ [] ∧ ofPiece (trim text) = .ok setting := by
  obtain ⟨a, b, c, d, ha, hb, hc, hd, rfl⟩ := h
  have hkeyTrimmed : Trimmed setting.key.toList := .of_no_blank fun x hx => (of_mem_key hx).1
  have htrimmed : Trimmed (setting.key.toList ++ b ++ '=' :: (c ++ setting.value.toList)) := by
    constructor
    · intro x hx
      rw [List.append_assoc, List.head?_append_of_ne_nil _ (key_ne_nil setting)] at hx
      exact hkeyTrimmed.1 x hx
    · intro x hx
      rw [← List.cons_append, ← List.append_assoc, List.getLast?_append_of_ne_nil _ hs.value_ne_nil]
        at hx
      exact hs.value_trimmed.2 x hx
  have hne : setting.key.toList ++ b ++ '=' :: (c ++ setting.value.toList) ≠ [] := by simp
  rw [trim_padded ha hd htrimmed hne]
  refine ⟨hne, ?_⟩
  have hkey : trim (setting.key.toList ++ b) = setting.key.toList :=
    trim_padded (a := []) (by simp [Blank]) hb hkeyTrimmed (key_ne_nil setting)
  have hvalue : trim (c ++ setting.value.toList) = setting.value.toList := by
    simpa using trim_padded (b := []) hc (by simp [Blank]) hs.value_trimmed hs.value_ne_nil
  have hmark : '=' ∉ setting.key.toList ++ b := by
    have hafter := not_blank hb (by decide : isBlank '=' = false)
    have hinside : '=' ∉ setting.key.toList := fun h => (of_mem_key h).2.2 rfl
    simp [hafter, hinside]
  have hfull : (setting.value.toList).isEmpty = false := by simpa using hs.value_ne_nil
  rw [ofPiece, cutAt?_append hmark]
  simp only [hkey, hvalue, hfull, Bool.false_eq_true, if_false]
  exact hs.ofPair_eq

end Setting

namespace Written

variable {settings : List Setting} {texts : List (List Char)}

theorem comma_notMem (h : Written settings texts) (hs : ∀ setting ∈ settings, setting.WellFormed) :
    ∀ text ∈ texts, ',' ∉ text := by
  induction h with
  | nil => simp
  | blank hblank _ ih =>
    exact List.forall_mem_cons.mpr ⟨Setting.not_blank hblank (by decide), ih hs⟩
  | option hwritten _ ih =>
    obtain ⟨hfirst, hrest⟩ := List.forall_mem_cons.mp hs
    exact List.forall_mem_cons.mpr ⟨hwritten.comma_notMem hfirst, ih hrest⟩

/-- Blank options do not count, and each of the others is accepted. -/
theorem read (h : Written settings texts) (hs : ∀ setting ∈ settings, setting.WellFormed) :
    ((texts.map trim).filter fun piece => !piece.isEmpty).map Setting.ofPiece =
      settings.map .ok := by
  induction h with
  | nil => rfl
  | blank hblank _ ih =>
    rw [List.map_cons, trim_blank hblank]
    exact ih hs
  | option hwritten _ ih =>
    obtain ⟨hfirst, hrest⟩ := List.forall_mem_cons.mp hs
    obtain ⟨hne, hread⟩ := hwritten.read hfirst
    rw [List.map_cons, List.filter_cons_of_pos (by simpa using hne), List.map_cons, hread, ih hrest]
    rfl

theorem pieces_eq (h : Written settings texts) (hs : ∀ setting ∈ settings, setting.WellFormed) :
    (pieces (List.intercalate [','] texts)).map Setting.ofPiece = settings.map .ok := by
  by_cases hnil : texts = []
  · subst hnil
    cases h
    rfl
  · rw [pieces, List.splitOn_intercalate ',' (h.comma_notMem hs) hnil]
    exact h.read hs

end Written

namespace Settings

/-- Options that are all accepted set what they say, in order. -/
theorem parse_eq_of_pieces {text : List Char} {changes : List Setting}
    (h : (pieces text).map Setting.ofPiece = changes.map .ok) :
    parse (String.ofList text) = (changes.foldl apply standard, []) := by
  have haccepted : accepted (pieces text) = changes := by
    have hmap : accepted (pieces text) =
        ((pieces text).map Setting.ofPiece).filterMap Except.toOption := by
      rw [List.filterMap_map]
      rfl
    rw [hmap, h, List.filterMap_map]
    exact List.filterMap_some
  have hrejected : rejected (pieces text) = [] := by
    refine List.filterMap_eq_nil_iff.mpr fun piece hpiece => ?_
    have hmem : Setting.ofPiece piece ∈ changes.map .ok := h ▸ List.mem_map_of_mem hpiece
    obtain ⟨setting, -, hok⟩ := List.mem_map.mp hmem
    rw [← hok]
  rw [parse, String.toList_ofList, haccepted, hrejected]

/-- Settings are made by setting each of their things, in whatever order. -/
theorem foldl_each {settings : Settings} {changes : List Setting}
    (h : changes.Perm settings.each) : changes.foldl apply standard = settings := by
  have hcomm : ∀ first ∈ settings.each, ∀ second ∈ settings.each, ∀ start : Settings,
      (start.apply first).apply second = (start.apply second).apply first := by
    intro first hfirst second hsecond start
    cases first <;> cases second <;> simp_all [each, apply]
  rw [← h.symm.foldl_eq' hcomm standard]
  obtain ⟨⟨signature, name⟩, filter⟩ := settings
  cases filter <;> rfl

end Settings

/-- What is read from options can be written out as options, and is read again. The settings that come
from any options are well formed: the class signature is that of an internal name, and neither it nor
the method name or the log filter holds what would end it. Written in any order, with blanks around
keys and values and blank options in between, they are read as they were, and nothing is rejected. -/
theorem settings_survive_writing (options : String) :
    (∀ setting ∈ (Settings.parse options).1.each, setting.WellFormed) ∧
    ∀ changes texts, changes.Perm (Settings.parse options).1.each → Written changes texts →
      Settings.parse (String.ofList (List.intercalate [','] texts)) =
        ((Settings.parse options).1, []) := by
  have hwell := Settings.parse_wellFormed options
  refine ⟨hwell, fun changes texts hperm hwritten => ?_⟩
  have hchanges : ∀ setting ∈ changes, setting.WellFormed := fun setting hmem =>
    hwell setting (hperm.subset hmem)
  rw [Settings.parse_eq_of_pieces (hwritten.pieces_eq hchanges), Settings.foldl_each hperm]

section

def markerOptions : String := "log=a = b, class = org.example.Marker,method=hit,junk"

/-- What these options set, in another order. -/
def markerChanges : List Setting :=
  [.methodName "hit", .logFilter "a = b", .classSignature "Lorg/example/Marker;"]

def markerTexts : List (List Char) :=
  [" method =hit".toList, "\t".toList, "log= a = b".toList, "class=Lorg/example/Marker; ".toList]

theorem settings_survive_writing_reordered :
    (markerChanges.Perm (Settings.parse markerOptions).1.each ∧
      Written markerChanges markerTexts) ∧
    Settings.parse " method =hit,\t,log= a = b,class=Lorg/example/Marker; " =
      (⟨⟨"Lorg/example/Marker;", "hit"⟩, some "a = b"⟩, []) := by
  have hparse : (Settings.parse markerOptions).1 =
      ⟨⟨"Lorg/example/Marker;", "hit"⟩, some "a = b"⟩ := by decide +kernel
  have hperm : markerChanges.Perm (Settings.parse markerOptions).1.each := by
    rw [hparse]
    decide
  have hblank : Blank [' '] ∧ Blank [] := by simp [Blank]; decide
  have hwritten : Written markerChanges markerTexts :=
    .option ⟨[' '], [' '], [], [], hblank.1, hblank.1, hblank.2, hblank.2, rfl⟩
      (.blank (by simp [Blank]; decide)
        (.option ⟨[], [], [' '], [], hblank.2, hblank.2, hblank.1, hblank.2, rfl⟩
          (.option ⟨[], [], [], [' '], hblank.2, hblank.2, hblank.2, hblank.1, rfl⟩ .nil)))
  refine ⟨⟨hperm, hwritten⟩, ?_⟩
  rw [← hparse]
  exact (settings_survive_writing markerOptions).2 markerChanges markerTexts hperm hwritten

end

end Rendezvous
