import Mathlib.Data.List.Perm.Basic
import Mathlib.Order.MinMax
import Rendezvous.Phase

/-!
# The highest phase

A cell keeps the highest phase that it has been asked for. A call to advance it reads and writes the
byte at one moment, and answers by what it has read. So the calls of several callers take effect one
after the other, in an order that nobody chooses, and the phase in the end does not depend on that
order. A transition is made by one call at most, and each goes further up.
-/

namespace Rendezvous

namespace Phase

theorem ctorIdx_injective : Function.Injective Phase.ctorIdx := by
  intro a b h
  cases a <;> cases b <;> first | rfl | cases h

/-- Phases are ordered as they are declared. -/
instance : LinearOrder Phase := LinearOrder.lift' Phase.ctorIdx ctorIdx_injective

theorem isBefore_iff {a b : Phase} : a.isBefore b = true ↔ a < b := by
  cases a <;> cases b <;> decide

theorem toByte_max (a b : Phase) : (max a b).toByte = max a.toByte b.toByte := by
  cases a <;> cases b <;> rfl

theorem unbound_le (phase : Phase) : unbound ≤ phase := by
  cases phase <;> decide

theorem foldl_max_unbound (asked : List Phase) :
    asked.foldl max .unbound = asked.max?.getD .unbound := by
  rw [List.foldl_max, max_eq_right (unbound_le _)]

theorem foldl_max_lt_iff {held bound : Phase} {asked : List Phase} :
    asked.foldl max held < bound ↔ held < bound ∧ ∀ phase ∈ asked, phase < bound := by
  induction asked generalizing held with
  | nil => simp
  | cons phase rest ih =>
    rw [List.foldl_cons, ih, max_lt_iff, List.forall_mem_cons, and_assoc]

end Phase

namespace PhaseCell

/-! ## Calls one after the other -/

/-- The cell whose byte stands for a phase. -/
def holding (phase : Phase) : PhaseCell := ⟨phase.toByte⟩

/-- Where calls that ask for one phase after the other leave a cell. -/
def reach (cell : PhaseCell) (asked : List Phase) : PhaseCell :=
  asked.foldl (fun cell phase => (cell.advance phase).2) cell

/-- The phases to which a cell moves, each told by the call that answers that it made the move. -/
def transitions (cell : PhaseCell) (asked : List Phase) : List Phase :=
  (cell.advances asked).filterMap fun call => if call.moved then some call.asked else none

/-- The calls of several callers in the order in which they take effect: each next one is the first
that its caller has left. -/
inductive Interleaved : List (List Phase) → List Phase → Prop where
  | done {callers : List (List Phase)} :
      (∀ calls ∈ callers, calls = []) → Interleaved callers []
  | call {before after : List (List Phase)} {phase : Phase} {rest asked : List Phase} :
      Interleaved (before ++ rest :: after) asked →
      Interleaved (before ++ (phase :: rest) :: after) (phase :: asked)

section

variable {held phase : Phase} {asked other : List Phase} {callers : List (List Phase)}

@[simp] theorem get_holding (phase : Phase) : (holding phase).get = phase :=
  Phase.ofByte_toByte phase

/-- The bytes keep the order of the phases: to advance a cell is to take the greater phase, and the
call makes the move if the phase asked for is above the one that the cell held. -/
theorem advance_holding (held asked : Phase) :
    (holding held).advance asked = (decide (held < asked), holding (max held asked)) := by
  have hmoved : ((holding held).advance asked).1 = decide (held < asked) := by
    rw [Bool.eq_iff_iff, decide_eq_true_eq, ← Phase.isBefore_iff]
    rfl
  have hleft : ((holding held).advance asked).2 = holding (max held asked) :=
    congrArg mk (Phase.toByte_max held asked).symm
  exact Prod.ext hmoved hleft

theorem reach_holding (held : Phase) (asked : List Phase) :
    (holding held).reach asked = holding (asked.foldl max held) := by
  induction asked generalizing held with
  | nil => rfl
  | cons phase rest ih =>
    rw [reach, List.foldl_cons, advance_holding]
    exact ih (max held phase)

theorem reach_new (asked : List Phase) :
    new.reach asked = holding (asked.max?.getD .unbound) := by
  have hreach := reach_holding .unbound asked
  rwa [Phase.foldl_max_unbound] at hreach

/-- A call makes a move if it asks for more than the cell held and than every call before it. -/
theorem advance_reach_iff :
    (((holding held).reach asked).advance phase).1 = true ↔
      held < phase ∧ ∀ earlier ∈ asked, earlier < phase := by
  rw [reach_holding, advance_holding, decide_eq_true_eq, Phase.foldl_max_lt_iff]

theorem reach_perm (h : other.Perm asked) :
    (holding held).reach other = (holding held).reach asked := by
  rw [reach_holding, reach_holding, h.foldl_eq]

theorem Interleaved.perm (h : Interleaved callers asked) : asked.Perm callers.flatten := by
  induction h with
  | done hdone => rw [List.flatten_eq_nil_iff.mpr hdone]
  | @call before after phase rest asked _ ih =>
    rw [List.flatten_append, List.flatten_cons] at ih ⊢
    exact (ih.cons phase).trans List.perm_middle.symm

/-! ## Transitions -/

theorem transitions_cons (held phase : Phase) (rest : List Phase) :
    (holding held).transitions (phase :: rest) =
      if held < phase then phase :: (holding phase).transitions rest
      else (holding held).transitions rest := by
  rw [transitions, advances, advance_holding]
  by_cases h : held < phase
  · simp only [h, max_eq_right h.le, decide_true, List.filterMap_cons, if_true]
    rfl
  · simp only [h, max_eq_left (not_lt.mp h), decide_false, List.filterMap_cons, if_false]
    rfl

theorem lt_of_mem_transitions (h : phase ∈ (holding held).transitions asked) : held < phase := by
  induction asked generalizing held with
  | nil => cases h
  | cons first rest ih =>
    rw [transitions_cons] at h
    split at h
    · next hlt =>
      cases h with
      | head => exact hlt
      | tail _ hmem => exact hlt.trans (ih hmem)
    · exact ih h

theorem transitions_increase (held : Phase) (asked : List Phase) :
    ((holding held).transitions asked).Pairwise (· < ·) := by
  -- After a transition the cell holds the phase that it has moved to, and later ones go beyond it.
  induction asked generalizing held with
  | nil => exact .nil
  | cons first rest ih =>
    rw [transitions_cons]
    split
    · exact (ih first).cons fun _ => lt_of_mem_transitions
    · exact ih held

/-- A new cell keeps the greatest phase asked for, which is what it holds and what it is read as. A
call makes a transition just if it asks for more than the first phase and than every call before it,
so that transitions go strictly upwards, and none is made twice. The order of the calls is of no
matter in the end: several callers bring the cell to the greatest phase that any of them asks for,
in whatever way their calls come in between each other. -/
theorem keeps_the_greatest (asked : List Phase) :
    (new.reach asked).get = asked.max?.getD .unbound ∧
    (new.reach asked).byte = (asked.max?.getD .unbound).toByte ∧
    (∀ before phase after, asked = before ++ phase :: after →
      (((new.reach before).advance phase).1 = true ↔
        .unbound < phase ∧ ∀ earlier ∈ before, earlier < phase)) ∧
    (∀ phase, (new.transitions asked).count phase ≤ 1) ∧
    (new.transitions asked).Pairwise (· < ·) ∧
    (∀ other, other.Perm asked → (new.reach other).get = (new.reach asked).get) ∧
    ∀ callers, Interleaved callers asked →
      (new.reach asked).get = callers.flatten.max?.getD .unbound := by
  have hup := transitions_increase .unbound asked
  refine ⟨?_, ?_, ?_, ?_, hup, ?_, ?_⟩
  · rw [reach_new, get_holding]
  · rw [reach_new]
    rfl
  · intro before phase after _
    exact advance_reach_iff
  · intro phase
    exact List.nodup_iff_count.mp (hup.imp ne_of_lt) phase
  · intro other hperm
    exact congrArg get (reach_perm hperm)
  · intro callers hcalls
    rw [← get_holding (callers.flatten.max?.getD .unbound), ← reach_new]
    exact congrArg get (reach_perm hcalls.perm)

/-- On one thread the agent is loaded, and on another the breakpoint is set before the load has come
to its end. The load then asks for a phase that has been passed, and makes no transition. -/
theorem keeps_the_greatest_overtaken :
    Interleaved [[.interfaceBound, .watching], [.installed]]
        [.interfaceBound, .installed, .watching] ∧
      (new.reach [.interfaceBound, .installed, .watching]).get = .installed ∧
      ((new.reach [.interfaceBound, .installed]).advance .watching).1 = false ∧
      [Phase.interfaceBound, .watching, .installed].Perm [.interfaceBound, .installed, .watching] ∧
      (new.reach [.interfaceBound, .watching, .installed]).get =
        (new.reach [.interfaceBound, .installed, .watching]).get := by
  have hcalls : Interleaved [[.interfaceBound, .watching], [.installed]]
      [.interfaceBound, .installed, .watching] := by
    apply @Interleaved.call [] [[.installed]]
    apply @Interleaved.call [[.watching]] []
    apply @Interleaved.call [] [[]]
    exact .done (by decide)
  have hswap : [Phase.interfaceBound, .watching, .installed].Perm
      [.interfaceBound, .installed, .watching] := .cons _ (.swap ..)
  obtain ⟨-, -, hmoves, -, -, horder, hcallers⟩ :=
    keeps_the_greatest [.interfaceBound, .installed, .watching]
  refine ⟨hcalls, ?_, ?_, hswap, horder _ hswap⟩
  · rw [hcallers _ hcalls]
    decide
  · rw [Bool.eq_false_iff, ne_eq, hmoves [.interfaceBound, .installed] .watching [] rfl]
    decide

end

end PhaseCell

end Rendezvous
