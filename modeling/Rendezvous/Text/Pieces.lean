import Rendezvous.Text.Blank

/-!
# Lists written with commas

The options of the agent are a list of pieces between commas. A piece is trimmed, and one that is
then empty does not count.
-/

namespace Rendezvous.Text

def pieces (text : List Char) : List (List Char) :=
  ((text.splitOn ',').map trim).filter fun piece => !piece.isEmpty

/-- What stands before and after the first `mark`. -/
def cutAt? (mark : Char) : List Char → Option (List Char × List Char)
  | [] => none
  | c :: rest =>
    if c = mark then some ([], rest)
    else (cutAt? mark rest).map fun parts => (c :: parts.1, parts.2)

@[simp] theorem cutAt?_nil (mark : Char) : cutAt? mark [] = none := rfl

@[simp] theorem cutAt?_mark (mark : Char) (rest : List Char) :
    cutAt? mark (mark :: rest) = some ([], rest) := by simp [cutAt?]

theorem cutAt?_eq_some {mark : Char} {text before after : List Char}
    (h : cutAt? mark text = some (before, after)) : text = before ++ mark :: after := by
  induction text generalizing before with
  | nil => simp at h
  | cons c rest ih =>
    simp only [cutAt?] at h
    split at h
    · simp_all
    · obtain ⟨parts, hparts, heq⟩ := Option.map_eq_some_iff.1 h
      obtain ⟨rfl, rfl⟩ := Prod.mk.inj heq
      simp [ih hparts]

theorem cutAt?_eq_none {mark : Char} {text : List Char} : cutAt? mark text = none ↔ mark ∉ text := by
  induction text with
  | nil => simp
  | cons c rest ih =>
    by_cases h : c = mark
    · simp [cutAt?, h]
    · simp [cutAt?, h, ih, Ne.symm h]

end Rendezvous.Text
