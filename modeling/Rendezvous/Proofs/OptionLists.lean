import Rendezvous.Proofs.ClassNames

/-!
# Options one after the other

Each piece of a list of options is judged for itself: it sets something, or it is refused for a reason
that depends on nothing else. So lists of options compose. Of what is accepted for a key the last
counts, what is refused changes nothing, and options for different keys may change places.
-/

namespace Rendezvous

open Text

/-- A text is cut at the first mark, not behind it. -/
theorem Text.notMem_of_cutAt? {mark : Char} {text before after : List Char}
    (h : cutAt? mark text = some (before, after)) : mark ∉ before := by
  induction text generalizing before with
  | nil => simp at h
  | cons c rest ih =>
    simp only [cutAt?] at h
    split at h
    · cases h
      exact List.not_mem_nil
    · next hc =>
      obtain ⟨parts, hparts, heq⟩ := Option.map_eq_some_iff.mp h
      obtain ⟨rfl, rfl⟩ := Prod.mk.inj heq
      simpa using ⟨Ne.symm hc, ih hparts⟩

/-! ## The judgement of one piece -/

/-- A piece has this key before its first equals sign, and this value behind it, but for blanks around
them. -/
def IsPair (piece key value : List Char) : Prop :=
  ∃ before after, '=' ∉ before ∧ piece = before ++ '=' :: after ∧ trim before = key ∧
    trim after = value

def MethodName (value : List Char) : Prop :=
  ∀ c ∈ value, isBlank c = false ∧ c ∉ ['.', '/', ';', '[', '<', '>', '(', ')']

/-- What a piece sets, or the reason for which it is refused. -/
inductive Judged (piece : List Char) : Except String Setting → Prop where
  | noEquals : '=' ∉ piece → Judged piece (.error "expected key=value")
  | emptyValue {key : List Char} : IsPair piece key [] → Judged piece (.error "empty value")
  | unknownKey {key value : List Char} : IsPair piece key value → value ≠ [] →
      key ∉ ["class".toList, "method".toList, "log".toList] → Judged piece (.error "unknown key")
  | className {value name : List Char} : IsPair piece "class".toList value → value ≠ [] →
      InternalName name → Spells name value →
      Judged piece (.ok (.classSignature (String.ofList (signatureOf name))))
  | notClassName {value : List Char} : IsPair piece "class".toList value → value ≠ [] →
      (∀ name, InternalName name → ¬ Spells name value) → Judged piece (.error "not a class name")
  | methodName {value : List Char} : IsPair piece "method".toList value → value ≠ [] →
      MethodName value → Judged piece (.ok (.methodName (String.ofList value)))
  | notMethodName {value : List Char} : IsPair piece "method".toList value → value ≠ [] →
      ¬ MethodName value → Judged piece (.error "not a method name")
  | logFilter {value : List Char} : IsPair piece "log".toList value → value ≠ [] →
      Judged piece (.ok (.logFilter (String.ofList value)))

section

variable {piece key value : List Char} {verdict : Except String Setting}

theorem isMethodName_iff : isMethodName value = true ↔ MethodName value := by
  rw [isMethodName, List.all_eq_true]
  refine forall_congr' fun c => forall_congr' fun _ => ?_
  simp only [Bool.not_eq_true', Bool.or_eq_false_iff, List.contains_eq_mem, decide_eq_false_iff_not]
  exact and_comm

theorem Objection.message_injective {a b : Objection} (h : a.message = b.message) : a = b := by
  cases a <;> cases b <;> first | rfl | exact absurd h (by decide)

theorem IsPair.ofPiece_eq (h : IsPair piece key value) :
    Setting.ofPiece piece =
      if value.isEmpty then .error .emptyValue else Setting.ofPair key value := by
  obtain ⟨before, after, hbefore, rfl, rfl, rfl⟩ := h
  rw [Setting.ofPiece, cutAt?_append hbefore]

theorem IsPair.ofPiece_eq_ofPair (h : IsPair piece key value) (hne : value ≠ []) :
    Setting.ofPiece piece = Setting.ofPair key value := by
  rw [h.ofPiece_eq, if_neg (by simpa using hne)]

theorem judged_pair (h : IsPair piece key value) (hne : value ≠ []) :
    Judged piece ((Setting.ofPair key value).mapError Objection.message) := by
  unfold Setting.ofPair
  split
  · next hkey =>
    subst hkey
    cases hs : classSignature? value with
    | none =>
      refine .notClassName h hne fun name hname hspells => ?_
      rw [classSignature?_eq_some_iff.mpr ⟨name, hname, rfl, hspells⟩] at hs
      cases hs
    | some signature =>
      obtain ⟨name, hname, rfl, hspells⟩ := classSignature?_eq_some_iff.mp hs
      exact .className h hne hname hspells
  · next hclass =>
    split
    · next hkey =>
      subst hkey
      cases hm : isMethodName value with
      | false => exact .notMethodName h hne (by rw [← isMethodName_iff, hm]; exact Bool.false_ne_true)
      | true => exact .methodName h hne (isMethodName_iff.mp hm)
    · next hmethod =>
      split
      · next hkey =>
        subst hkey
        exact .logFilter h hne
      · next hlog =>
        refine .unknownKey h hne ?_
        simp only [List.mem_cons, List.not_mem_nil, or_false, not_or]
        exact ⟨hclass, hmethod, hlog⟩

/-- What reading a piece comes to is a judgement of it. -/
theorem judged_ofPiece (piece : List Char) :
    Judged piece ((Setting.ofPiece piece).mapError Objection.message) := by
  cases hcut : cutAt? '=' piece with
  | none =>
    rw [Setting.ofPiece, hcut]
    exact .noEquals (cutAt?_eq_none.mp hcut)
  | some parts =>
    obtain ⟨before, after⟩ := parts
    have hpair : IsPair piece (trim before) (trim after) :=
      ⟨before, after, notMem_of_cutAt? hcut, cutAt?_eq_some hcut, rfl, rfl⟩
    by_cases hempty : trim after = []
    · rw [hpair.ofPiece_eq, if_pos (by simpa using hempty)]
      exact .emptyValue (hempty ▸ hpair)
    · rw [hpair.ofPiece_eq_ofPair hempty]
      exact judged_pair hpair hempty

/-- And it is the only one. -/
theorem judged_iff :
    Judged piece verdict ↔ (Setting.ofPiece piece).mapError Objection.message = verdict := by
  constructor
  · intro h
    cases h with
    | noEquals hnone =>
      rw [Setting.ofPiece, cutAt?_eq_none.mpr hnone]
      rfl
    | emptyValue hpair =>
      rw [hpair.ofPiece_eq]
      rfl
    | @unknownKey key _ hpair hne hkey =>
      rw [hpair.ofPiece_eq_ofPair hne]
      simp only [List.mem_cons, List.not_mem_nil, or_false, not_or] at hkey
      simp only [Setting.ofPair, hkey, if_false]
      rfl
    | className hpair hne hname hspells =>
      have hs := classSignature?_eq_some_iff.mpr ⟨_, hname, rfl, hspells⟩
      rw [hpair.ofPiece_eq_ofPair hne]
      simp only [Setting.ofPair, if_true, hs]
      rfl
    | @notClassName value hpair hne hnone =>
      have hs : classSignature? value = none := by
        rw [Option.eq_none_iff_forall_ne_some]
        intro signature hsome
        obtain ⟨name, hname, -, hspells⟩ := classSignature?_eq_some_iff.mp hsome
        exact hnone name hname hspells
      rw [hpair.ofPiece_eq_ofPair hne]
      simp only [Setting.ofPair, if_true, hs]
      rfl
    | methodName hpair hne hname =>
      have hm := isMethodName_iff.mpr hname
      rw [hpair.ofPiece_eq_ofPair hne]
      simp [Setting.ofPair, hm, Except.mapError]
    | notMethodName hpair hne hname =>
      rw [← isMethodName_iff, Bool.not_eq_true] at hname
      rw [hpair.ofPiece_eq_ofPair hne]
      simp [Setting.ofPair, hname, Except.mapError, Objection.message]
    | logFilter hpair hne =>
      rw [hpair.ofPiece_eq_ofPair hne]
      simp [Setting.ofPair, Except.mapError]
  · rintro rfl
    exact judged_ofPiece piece

end

/-! ## The judgement of a list -/

/-- What the parts of a list set, and which of them are refused, in order. Blank parts do not count,
and each of the others is either accepted or refused, by the judgement of it alone. -/
inductive Reading : List (List Char) → List Setting → List Rejected → Prop where
  | nil : Reading [] [] []
  | blank {part : List Char} {parts : List (List Char)} {settings : List Setting}
      {rejected : List Rejected} : Blank part → Reading parts settings rejected →
      Reading (part :: parts) settings rejected
  | accepted {part : List Char} {parts : List (List Char)} {setting : Setting}
      {settings : List Setting} {rejected : List Rejected} :
      Judged (trim part) (.ok setting) → Reading parts settings rejected →
      Reading (part :: parts) (setting :: settings) rejected
  | refused {part : List Char} {parts : List (List Char)} {objection : Objection}
      {settings : List Setting} {rejected : List Rejected} : ¬ Blank part →
      Judged (trim part) (.error objection.message) → Reading parts settings rejected →
      Reading (part :: parts) settings (⟨String.ofList (trim part), objection⟩ :: rejected)

/-- The pieces that the parts of a list come to. -/
def piecesOf (parts : List (List Char)) : List (List Char) :=
  (parts.map trim).filter fun piece => !piece.isEmpty

namespace Settings

/-- What options set, in order. -/
def changes (options : String) : List Setting := accepted (pieces options.toList)

/-- What settings say of a key. -/
def get? (settings : Settings) (key : String) : Option Setting :=
  settings.each.find? fun setting => setting.key = key

end Settings

/-- The last of some settings for a key. -/
def lastFor (key : String) (changes : List Setting) : Option Setting :=
  changes.reverse.find? fun setting => setting.key = key

section

variable {part : List Char} {parts others : List (List Char)} {setting : Setting}

theorem blank_iff_trim : Blank part ↔ trim part = [] := by
  refine ⟨trim_blank, fun h c hc => ?_⟩
  have hall : ∀ c ∈ trimStart part, isBlank c = true := List.rdropWhile_eq_nil_iff.mp h
  rw [← List.takeWhile_append_dropWhile (p := isBlank) (l := part)] at hc
  rcases List.mem_append.mp hc with htake | hdrop
  · exact List.mem_takeWhile_imp htake
  · exact hall c hdrop

theorem judged_ok (h : Judged part (.ok setting)) : Setting.ofPiece part = .ok setting := by
  have he := judged_iff.mp h
  cases hp : Setting.ofPiece part with
  | ok _ =>
    rw [hp] at he
    exact congrArg Except.ok (Except.ok.inj he)
  | error _ =>
    rw [hp] at he
    cases he

theorem judged_error {reason : String} (h : Judged part (.error reason)) :
    ∃ objection, Setting.ofPiece part = .error objection ∧ objection.message = reason := by
  have he := judged_iff.mp h
  cases hp : Setting.ofPiece part with
  | ok _ =>
    rw [hp] at he
    cases he
  | error objection =>
    rw [hp] at he
    exact ⟨objection, rfl, Except.error.inj he⟩

theorem piecesOf_append : piecesOf (parts ++ others) = piecesOf parts ++ piecesOf others := by
  rw [piecesOf, List.map_append, List.filter_append]
  rfl

theorem piecesOf_blank (h : Blank part) : piecesOf (part :: parts) = piecesOf parts := by
  rw [piecesOf, List.map_cons, trim_blank h]
  rfl

theorem piecesOf_cons (h : ¬ Blank part) : piecesOf (part :: parts) = trim part :: piecesOf parts := by
  rw [blank_iff_trim] at h
  rw [piecesOf, List.map_cons, List.filter_cons_of_pos (by simpa using h)]
  rfl

/-- A piece that sets something is not blank. -/
theorem not_blank_of_ok (h : Setting.ofPiece (trim part) = .ok setting) : ¬ Blank part := by
  intro hblank
  rw [trim_blank hblank] at h
  cases h

namespace Settings

theorem accepted_append : accepted (parts ++ others) = accepted parts ++ accepted others :=
  List.filterMap_append

theorem rejected_append : rejected (parts ++ others) = rejected parts ++ rejected others :=
  List.filterMap_append

theorem accepted_ok (h : Setting.ofPiece part = .ok setting) (parts : List (List Char)) :
    accepted (part :: parts) = setting :: accepted parts ∧
      rejected (part :: parts) = rejected parts := by
  simp [accepted, rejected, h, Except.toOption]

theorem accepted_error {objection : Objection} (h : Setting.ofPiece part = .error objection)
    (parts : List (List Char)) :
    accepted (part :: parts) = accepted parts ∧
      rejected (part :: parts) = ⟨String.ofList part, objection⟩ :: rejected parts := by
  simp [accepted, rejected, h, Except.toOption]

end Settings

/-- The parts of a list are read in one way, which is that of reading their pieces. -/
theorem reading_iff {settings : List Setting} {rejected : List Rejected} :
    Reading parts settings rejected ↔
      settings = Settings.accepted (piecesOf parts) ∧ rejected = Settings.rejected (piecesOf parts) := by
  -- One way by induction on how the parts are read, the other by induction on the parts.
  constructor
  · intro h
    induction h with
    | nil => exact ⟨rfl, rfl⟩
    | blank hblank _ ih => rwa [piecesOf_blank hblank]
    | accepted hjudged _ ih =>
      have hok := judged_ok hjudged
      obtain ⟨ha, hr⟩ := Settings.accepted_ok hok _
      rw [piecesOf_cons (not_blank_of_ok hok), ha, hr, ih.1, ih.2]
      exact ⟨rfl, rfl⟩
    | refused hblank hjudged _ ih =>
      obtain ⟨objection, herror, hmessage⟩ := judged_error hjudged
      cases Objection.message_injective hmessage
      obtain ⟨ha, hr⟩ := Settings.accepted_error herror _
      rw [piecesOf_cons hblank, ha, hr, ih.1, ih.2]
      exact ⟨rfl, rfl⟩
  · rintro ⟨rfl, rfl⟩
    induction parts with
    | nil => exact .nil
    | cons part parts ih =>
      by_cases hblank : Blank part
      · rw [piecesOf_blank hblank]
        exact .blank hblank ih
      · rw [piecesOf_cons hblank]
        have hjudged := judged_ofPiece (trim part)
        cases hp : Setting.ofPiece (trim part) with
        | ok setting =>
          obtain ⟨ha, hr⟩ := Settings.accepted_ok hp (piecesOf parts)
          rw [hp] at hjudged
          rw [ha, hr]
          exact .accepted hjudged ih
        | error objection =>
          obtain ⟨ha, hr⟩ := Settings.accepted_error hp (piecesOf parts)
          rw [hp] at hjudged
          rw [ha, hr]
          exact .refused hblank hjudged ih

end

/-! ## Settings by their keys -/

section

variable {settings : Settings} {setting other : Setting} {key : String}

theorem Settings.get?_apply :
    (settings.apply setting).get? key = if setting.key = key then some setting else settings.get? key := by
  by_cases hclass : "class" = key
  · subst hclass
    cases setting <;> rfl
  by_cases hmethod : "method" = key
  · subst hmethod
    cases setting <;> rfl
  by_cases hlog : "log" = key
  · subst hlog
    cases setting <;> rfl
  obtain ⟨marker, filter⟩ := settings
  cases setting <;> cases filter <;>
    simp [Settings.get?, Settings.apply, Settings.each, Setting.key, hclass, hmethod, hlog]

theorem lastFor_cons {changes : List Setting} :
    lastFor key (setting :: changes) =
      (lastFor key changes).or (if setting.key = key then some setting else none) := by
  rw [lastFor, List.reverse_cons, List.find?_append, List.find?_singleton]
  simp only [decide_eq_true_eq]
  rfl

/-- Of what is set for a key the last counts, and if nothing is, what was there before. -/
theorem Settings.get?_foldl (changes : List Setting) :
    (changes.foldl apply settings).get? key = (lastFor key changes).or (settings.get? key) := by
  induction changes generalizing settings with
  | nil => rfl
  | cons first rest ih =>
    rw [List.foldl_cons, ih, get?_apply, lastFor_cons, Option.or_assoc]
    split <;> rfl

/-- Settings for different keys may change places. -/
theorem Settings.apply_comm (h : setting.key ≠ other.key) (settings : Settings) :
    (settings.apply setting).apply other = (settings.apply other).apply setting := by
  cases setting <;> cases other <;> simp_all [apply, Setting.key]

end

/-! ## Lists of parts -/

/-- A part that sets nothing: it is blank, or it is refused. -/
def Idle (part : List Char) : Prop :=
  Blank part ∨ ∃ reason, Judged (trim part) (.error reason)

/-- The text that has these parts, with commas between them. -/
def listed (parts : List (List Char)) : String := String.ofList (List.intercalate [','] parts)

section

variable {part : List Char} {before parts : List (List Char)} {setting : Setting}

namespace Settings

theorem accepted_idle (h : Idle part) :
    accepted (piecesOf (part :: parts)) = accepted (piecesOf parts) := by
  by_cases hblank : Blank part
  · rw [piecesOf_blank hblank]
  · obtain ⟨reason, hjudged⟩ := h.resolve_left hblank
    obtain ⟨objection, herror, -⟩ := judged_error hjudged
    rw [piecesOf_cons hblank, (accepted_error herror _).1]

theorem accepted_idles (h : ∀ part ∈ before, Idle part) :
    accepted (piecesOf (before ++ parts)) = accepted (piecesOf parts) := by
  induction before with
  | nil => rfl
  | cons first rest ih =>
    obtain ⟨hfirst, hrest⟩ := List.forall_mem_cons.mp h
    rw [List.cons_append, accepted_idle hfirst, ih hrest]

theorem accepted_judged (h : Judged (trim part) (.ok setting)) :
    accepted (piecesOf (part :: parts)) = setting :: accepted (piecesOf parts) := by
  have hok := judged_ok h
  rw [piecesOf_cons (not_blank_of_ok hok), (accepted_ok hok _).1]

theorem accepted_piecesOf_append (before parts : List (List Char)) :
    accepted (piecesOf (before ++ parts)) = accepted (piecesOf before) ++ accepted (piecesOf parts) := by
  rw [piecesOf_append, accepted_append]

theorem pieces_listed (h : ∀ part ∈ parts, ',' ∉ part) :
    pieces (listed parts).toList = piecesOf parts := by
  rw [listed, String.toList_ofList]
  by_cases hnil : parts = []
  · subst hnil
    decide
  · rw [pieces, List.splitOn_intercalate ',' h hnil]
    rfl

/-- Lists of which the same things are accepted make the same settings. -/
theorem parse_listed_congr {others : List (List Char)} (hparts : ∀ part ∈ parts, ',' ∉ part)
    (hothers : ∀ part ∈ others, ',' ∉ part)
    (h : (accepted (piecesOf parts)).foldl apply standard =
      (accepted (piecesOf others)).foldl apply standard) :
    (parse (listed parts)).1 = (parse (listed others)).1 := by
  simp only [parse, pieces_listed hparts, pieces_listed hothers]
  exact h

theorem pieces_comma (first second : String) :
    pieces (first ++ "," ++ second).toList = pieces first.toList ++ pieces second.toList := by
  have htext : (first ++ "," ++ second).toList = first.toList ++ ',' :: second.toList := by
    rw [String.toList_append, String.toList_append, List.append_assoc]
    rfl
  rw [htext, pieces, List.splitOn_append_cons_self, List.map_append, List.filter_append]
  rfl

theorem parse_comma (first second : String) :
    parse (first ++ "," ++ second) =
      ((changes second).foldl apply (parse first).1, (parse first).2 ++ (parse second).2) := by
  simp only [parse, pieces_comma, accepted_append, rejected_append, List.foldl_append]
  rfl

end Settings

end

/-- Options compose. What two lists are read as, with a comma between them, are the rejections of the
one and then of the other, and for each key what the second sets last, or else what the first gives.
A list is read part by part: a blank part does not count, and each other one either sets something or
is rejected, by its own judgement, of which every piece has exactly one. So a blank or a refused part
can be left out, and parts that set different things can change places, without any change to the
settings. -/
theorem options_compose :
    (∀ first second,
      (Settings.parse (first ++ "," ++ second)).2 =
        (Settings.parse first).2 ++ (Settings.parse second).2 ∧
      ∀ key, (Settings.parse (first ++ "," ++ second)).1.get? key =
        (lastFor key (Settings.changes second)).or ((Settings.parse first).1.get? key)) ∧
    (∀ options,
      (∀ settings rejected, Reading (options.toList.splitOn ',') settings rejected ↔
        settings = Settings.changes options ∧ rejected = (Settings.parse options).2) ∧
      ∀ key, (Settings.parse options).1.get? key =
        (lastFor key (Settings.changes options)).or (Settings.standard.get? key)) ∧
    (∀ piece, ∃! verdict, Judged piece verdict) ∧
    (∀ before part after, (∀ other ∈ before ++ part :: after, ',' ∉ other) → Idle part →
      (Settings.parse (listed (before ++ part :: after))).1 =
        (Settings.parse (listed (before ++ after))).1) ∧
    ∀ before one between two after setting other,
      (∀ part ∈ before ++ one :: (between ++ two :: after), ',' ∉ part) →
      (∀ part ∈ between, Idle part) → Judged (trim one) (.ok setting) →
      Judged (trim two) (.ok other) → setting.key ≠ other.key →
      (Settings.parse (listed (before ++ one :: (between ++ two :: after)))).1 =
        (Settings.parse (listed (before ++ two :: (between ++ one :: after)))).1 := by
  refine ⟨fun first second => ?_, fun options => ⟨fun settings rejected => reading_iff, fun key => ?_⟩,
    fun piece => ⟨_, judged_ofPiece piece, fun _ h => (judged_iff.mp h).symm⟩, ?_, ?_⟩
  · rw [Settings.parse_comma]
    exact ⟨rfl, fun key => Settings.get?_foldl _⟩
  · exact Settings.get?_foldl _
  · intro before part after hcommas hidle
    have hless : ∀ other ∈ before ++ after, ',' ∉ other := fun other hmem =>
      hcommas other (by simp only [List.mem_append, List.mem_cons] at hmem ⊢; tauto)
    refine Settings.parse_listed_congr hcommas hless ?_
    rw [Settings.accepted_piecesOf_append, Settings.accepted_idle hidle,
      ← Settings.accepted_piecesOf_append]
  · intro before one between two after setting other hcommas hidle hone htwo hkeys
    have hswapped : ∀ part ∈ before ++ two :: (between ++ one :: after), ',' ∉ part := fun part hmem =>
      hcommas part (by simp only [List.mem_append, List.mem_cons] at hmem ⊢; tauto)
    refine Settings.parse_listed_congr hcommas hswapped ?_
    rw [Settings.accepted_piecesOf_append before, Settings.accepted_piecesOf_append before,
      Settings.accepted_judged hone, Settings.accepted_judged htwo, Settings.accepted_idles hidle,
      Settings.accepted_idles hidle, Settings.accepted_judged hone, Settings.accepted_judged htwo,
      List.foldl_append, List.foldl_append]
    exact congrArg (fun start => List.foldl Settings.apply start _) (Settings.apply_comm hkeys _)

/-- A dotted class name and a log filter that holds an equals sign change places, over a part that is
refused and one that is blank. -/
theorem options_compose_exchanged :
    ((∀ part ∈ ["junk".toList, " ".toList], Idle part) ∧
      Judged "class=a.B".toList (.ok (.classSignature "La/B;")) ∧
      Judged "log = x=y".toList (.ok (.logFilter "x=y"))) ∧
    (Settings.parse "class=a.B,junk, , log = x=y").1 =
      (Settings.parse " log = x=y,junk, ,class=a.B").1 ∧
    Settings.parse " log = x=y,junk, ,class=a.B" =
      (⟨⟨"La/B;", "breakpoint"⟩, some "x=y"⟩, [⟨"junk", .noEquals⟩]) := by
  have hjunk : Idle "junk".toList := .inr ⟨_, .noEquals (by decide +kernel)⟩
  have hblank : Idle " ".toList := .inl (blank_iff_trim.mpr (by decide +kernel))
  have hidle : ∀ part ∈ ["junk".toList, " ".toList], Idle part :=
    List.forall_mem_cons.mpr ⟨hjunk, List.forall_mem_singleton.mpr hblank⟩
  have hclass : Judged "class=a.B".toList (.ok (.classSignature "La/B;")) :=
    judged_iff.mpr (by decide +kernel)
  have hlog : Judged "log = x=y".toList (.ok (.logFilter "x=y")) :=
    judged_iff.mpr (by decide +kernel)
  obtain ⟨-, -, -, -, hexchange⟩ := options_compose
  have hsame := hexchange [] "class=a.B".toList ["junk".toList, " ".toList] " log = x=y".toList [] _ _
    (by decide +kernel) hidle hclass hlog (by decide)
  exact ⟨⟨hidle, hclass, hlog⟩, hsame, by decide +kernel⟩

end Rendezvous
