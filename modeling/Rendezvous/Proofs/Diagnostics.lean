import Mathlib
import Rendezvous.Event
import Rendezvous.Outcome

/-!
# Messages tell errors apart

Whatever else a message says of an error code, the last number in it is that of the code. So a code
is read off its message, also where the message stands at the end of another text. The messages of a
load that failed differ within their third word if the causes are of different kinds, and else in
what they tell of the cause.
-/

namespace Rendezvous

namespace Text

/-- The last run of digits in a text. -/
def lastNumeral (text : List Char) : List Char :=
  ((text.reverse.dropWhile fun c => !c.isDigit).takeWhile Char.isDigit).reverse

theorem lastNumeral_eq {before numeral after : List Char} {mark : Char} (hne : numeral ≠ [])
    (hnumeral : ∀ c ∈ numeral, c.isDigit = true) (hmark : mark.isDigit = false)
    (hafter : ∀ c ∈ after, c.isDigit = false) :
    lastNumeral (before ++ mark :: (numeral ++ after)) = numeral := by
  have hreverse : (before ++ mark :: (numeral ++ after)).reverse =
      after.reverse ++ (numeral.reverse ++ mark :: before.reverse) := by
    simp
  have hdrop : (numeral.reverse ++ mark :: before.reverse).dropWhile (fun c => !c.isDigit) =
      numeral.reverse ++ mark :: before.reverse := by
    obtain ⟨last, rest, hlast⟩ := List.exists_cons_of_ne_nil (List.reverse_ne_nil_iff.mpr hne)
    have hdigit := hnumeral last (by rw [← List.mem_reverse, hlast]; exact List.mem_cons_self)
    rw [hlast, List.cons_append, List.dropWhile_cons_of_neg (by simp [hdigit])]
  rw [lastNumeral, hreverse, List.dropWhile_append_of_pos (by simpa using hafter), hdrop,
    List.takeWhile_append_of_pos (by simpa using hnumeral),
    List.takeWhile_cons_of_neg (by simp [hmark]), List.append_nil, List.reverse_reverse]

/-- What stands at the start of a text does not depend on what follows. -/
theorem getElem?_start {start : String} {i : Nat} (rest : String) (h : i < start.toList.length) :
    (start ++ rest).toList[i]? = start.toList[i]? := by
  rw [String.toList_append, List.getElem?_append_left h]

end Text

namespace ErrorCode

/-- What ends the message of a code: its number, between characters that are no digits. -/
theorem message_shape (code : ErrorCode) :
    ∃ before mark after, code.message.toList =
      before ++ mark :: ((Nat.repr code.number.toNat).toList ++ after) ∧
      mark.isDigit = false ∧ ∀ c ∈ after, c.isDigit = false := by
  rw [message]
  cases code.name? with
  | some name =>
    refine ⟨"JVMTI_ERROR_".toList ++ name.toList ++ [' '], '(', [')'], ?_, rfl, ?_⟩
    · simp
    · simp [Char.isDigit]
  | none =>
    refine ⟨"JVMTI error".toList, ' ', [], ?_, rfl, ?_⟩
    · simp
    · simp

theorem lastNumeral_message (start : String) (code : ErrorCode) :
    Text.lastNumeral (start ++ code.message).toList = (Nat.repr code.number.toNat).toList := by
  obtain ⟨before, mark, after, hshape, hmark, hafter⟩ := code.message_shape
  rw [String.toList_append, hshape, ← List.append_assoc, Nat.toList_repr]
  exact Text.lastNumeral_eq Nat.toDigits_ne_nil
    (fun c => Nat.isDigit_of_mem_toDigits (by decide) (by decide)) hmark hafter

/-- A text that ends in the message of a code tells the code, and what stands before the message. -/
theorem append_message_inj {start start' : String} {code code' : ErrorCode} :
    start ++ code.message = start' ++ code'.message ↔ start = start' ∧ code = code' := by
  constructor
  · intro h
    have hnumeral := congrArg (fun text => Text.lastNumeral text.toList) h
    simp only [lastNumeral_message, String.toList_inj, Nat.repr_inj, UInt32.toNat_inj] at hnumeral
    obtain ⟨number⟩ := code
    obtain ⟨number'⟩ := code'
    cases hnumeral
    exact ⟨(String.append_left_inj _).mp h, rfl⟩
  · rintro ⟨rfl, rfl⟩
    rfl

theorem message_injective : Function.Injective message := by
  intro code code' h
  exact (@append_message_inj "" "" code code').mp (by rw [h]) |>.2

theorem message_of_named {code : ErrorCode} {name : String} (h : (code.number, name) ∈ names) :
    code.message = "JVMTI_ERROR_" ++ name ++ " (" ++ Nat.repr code.number.toNat ++ ")" := by
  -- No number stands in the table twice.
  have hlookup : ∀ entry ∈ names, names.lookup entry.1 = some entry.2 := by decide
  have hname : code.name? = some name := hlookup _ h
  rw [message, hname]

theorem message_of_unnamed {code : ErrorCode} (h : code.number ∉ names.map Prod.fst) :
    code.message = "JVMTI error " ++ Nat.repr code.number.toNat := by
  have hname : code.name? = none := by
    rw [name?, List.lookup_eq_none_iff]
    intro entry hentry
    rw [bne_iff_ne]
    intro heq
    exact h (heq ▸ List.mem_map_of_mem hentry)
  rw [message, hname]

end ErrorCode

namespace LoadError

/-- The letter of a message that tells the kind of the error, the second of the third word. -/
def letter : LoadError → Char
  | environment _ => 'c'
  | capabilities _ => 'd'
  | callbacks _ => 'e'
  | event _ _ => 'n'

theorem message_letter (error : LoadError) : error.message.toList[11]? = some error.letter := by
  cases error with
  | environment status =>
    show ("unable to access JVMTI (GetEnv returned " ++ Int.repr status.toInt ++ ")").toList[11]? =
      some 'c'
    rw [String.append_assoc]
    exact Text.getElem?_start _ (by decide)
  | capabilities code => exact Text.getElem?_start code.message (by decide)
  | callbacks code => exact Text.getElem?_start code.message (by decide)
  | event name code =>
    show ("unable to enable " ++ name ++ " events: " ++ code.message).toList[11]? = some 'n'
    rw [String.append_assoc, String.append_assoc]
    exact Text.getElem?_start _ (by decide)

/-- The names of events are arbitrary here, since the code at the end of a message tells where the
name ends. -/
theorem message_injective : Function.Injective message := by
  intro error other h
  have hletter : error.letter = other.letter := by
    rw [← Option.some_inj, ← message_letter, h, message_letter]
  cases error with
  | environment status =>
    cases other with
    | environment status' =>
      unfold message at h
      dsimp only at h
      rw [String.append_left_inj, String.append_right_inj, Int.repr_inj, Int32.toInt_inj] at h
      rw [h]
    | _ => cases hletter
  | capabilities code =>
    cases other with
    | capabilities code' => rw [(ErrorCode.append_message_inj.mp h).2]
    | _ => cases hletter
  | callbacks code =>
    cases other with
    | callbacks code' => rw [(ErrorCode.append_message_inj.mp h).2]
    | _ => cases hletter
  | event name code =>
    cases other with
    | event name' code' =>
      obtain ⟨hstart, rfl⟩ := ErrorCode.append_message_inj.mp h
      rw [String.append_left_inj, String.append_right_inj] at hstart
      rw [hstart]
    | _ => cases hletter

end LoadError

/-- Errors can be told from their messages. Every code has a message of its own: a code with a name
is shown as its name and its number, any other as its number. Every cause for which the agent cannot
be loaded has a message of its own too, whichever the status, the code, or the name of the event;
and the two events that are watched differ in their names. -/
theorem messages_identify_errors :
    (∀ code other : ErrorCode, code.message = other.message → code = other) ∧
    (∀ (code : ErrorCode) (name : String), (code.number, name) ∈ ErrorCode.names →
      code.message = "JVMTI_ERROR_" ++ name ++ " (" ++ Nat.repr code.number.toNat ++ ")") ∧
    (∀ code : ErrorCode, code.number ∉ ErrorCode.names.map Prod.fst →
      code.message = "JVMTI error " ++ Nat.repr code.number.toNat) ∧
    (∀ error other : LoadError, error.message = other.message → error = other) ∧
    ∀ event other : Watched, event.name = other.name → event = other := by
  refine ⟨?_, ?_, ?_, ?_, ?_⟩
  · exact fun _ _ h => ErrorCode.message_injective h
  · exact fun _ _ => ErrorCode.message_of_named
  · exact fun _ => ErrorCode.message_of_unnamed
  · exact fun _ _ h => LoadError.message_injective h
  · intro event other h
    cases event <;> cases other <;> first | rfl | exact absurd h (by decide)

/-- Statuses of opposite sign are told apart, and so are a code that has a name and the next one,
which has none. -/
theorem messages_identify_errors_signed :
    LoadError.message (.environment (-3)) ≠ LoadError.message (.environment 3) ∧
      LoadError.message (.event Watched.classPrepare.name ⟨113⟩) ≠
        LoadError.message (.event Watched.classPrepare.name ⟨114⟩) ∧
      ((113, "INTERNAL") ∈ ErrorCode.names ∧
        ErrorCode.message ⟨113⟩ = "JVMTI_ERROR_INTERNAL (113)") ∧
      114 ∉ ErrorCode.names.map Prod.fst ∧ ErrorCode.message ⟨114⟩ = "JVMTI error 114" := by
  obtain ⟨-, hnamed, hunnamed, hloads, -⟩ := messages_identify_errors
  have hmem : (113, "INTERNAL") ∈ ErrorCode.names := by decide
  have hnotMem : 114 ∉ ErrorCode.names.map Prod.fst := by decide
  refine ⟨?_, ?_, ⟨hmem, ?_⟩, hnotMem, ?_⟩
  · intro h
    exact absurd (hloads _ _ h) (by decide)
  · intro h
    exact absurd (hloads _ _ h) (by decide)
  · rw [hnamed ⟨113⟩ "INTERNAL" hmem]
    decide +kernel
  · rw [hunnamed ⟨114⟩ hnotMem]
    decide +kernel

end Rendezvous
