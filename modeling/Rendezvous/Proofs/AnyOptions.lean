import Rendezvous.Proofs.Hosts
import Rendezvous.Proofs.Loading
import Rendezvous.Proofs.Matching

/-!
# Loading with any options

Options are read and announced before anything is asked of the machine, and what is announced goes
to the log alone. So two loads with different options take the same course, and only the log tells
them apart, and the settings of an agent that had none. What comes after a load goes by the marker
of the settings, and by no other part of them.
-/

namespace Rendezvous

variable {σ : Type}

/-- The settings without the log filter, which only a load looks at. -/
def Settings.withoutFilter (settings : Settings) : Settings := { settings with logFilter := none }

/-- Machines in the same state, and journals with the same entries but for log records. -/
def Likeness.unlogged (view : Settings → Settings) : Likeness σ σ where
  view := view
  machines := Eq
  loggers _ _ := True
  counts entry := !entry.isLog

section

variable {view : Settings → Settings} {w v : World σ}

theorem Likeness.unlogged_lawful : (Likeness.unlogged (σ := σ) view).Lawful :=
  ⟨fun _ _ _ _ => trivial, fun _ _ _ _ => trivial⟩

theorem Alike.unlogged_refl (w : World σ) : Alike (.unlogged view) w w :=
  ⟨rfl, rfl, rfl, trivial, rfl⟩

theorem Alike.unlogged_symm (h : Alike (.unlogged view) w v) : Alike (.unlogged view) v w :=
  ⟨h.agent.symm, h.registration.symm, h.machine.symm, trivial, h.journal.symm⟩

/-- Announcing options changes nothing but the log. -/
theorem announce_unlogged (options : String) (h : Alike (.unlogged view) w v) :
    Alike (.unlogged view) (announce options w).2 v := by
  have hrejected : ∀ (rejected : List Rejected) (w : World σ), Alike (.unlogged view) w v →
      Alike (.unlogged view) (reportRejected rejected w).2 v := by
    intro rejected
    induction rejected with
    | nil => exact fun _ h => h
    | cons option rest ih => exact fun _ h => ih _ (h.overlookReport rfl trivial)
  exact (hrejected _ _ (h.overlookInit trivial)).overlookReport rfl trivial

theorem announces_unlogged (options others : String) (h : Alike (.unlogged view) w v) :
    Alike (.unlogged view) (announce options w).2 (announce others v).2 :=
  (announce_unlogged others (announce_unlogged options h).unlogged_symm).unlogged_symm

end

section

variable (machine : Machine σ)

theorem Parallel.unlogged (view : Settings → Settings) :
    Parallel (.unlogged view) machine machine :=
  (Machine.Matches.refl machine _).parallel Likeness.unlogged_lawful

theorem attach_unlogged {view : Settings → Settings} {first second : String}
    (h : view (Settings.parse first).1 = view (Settings.parse second).1) :
    Run.Agree (.unlogged view) (attach machine first) (attach machine second) :=
  (Parallel.unlogged machine view).attach h fun _ _ =>
    announces_unlogged first second

theorem load_unlogged {view : Settings → Settings} {first second : String}
    (h : view (Settings.parse first).1 = view (Settings.parse second).1) :
    Run.Agree (.unlogged view) (load machine first) (load machine second) :=
  (Parallel.unlogged machine view).load h fun _ _ =>
    announces_unlogged first second

/-- The settings after a load: those that were there, or else those of the options if an environment
could be had. -/
theorem settings_of_attachment (options : String) (w : World σ) :
    ((attachmentAt machine options w).elim w.agent w.agent.activated).settings =
      match (bindInterface machine w).1 with
      | .error _ => w.agent.settings
      | .ok _ => w.agent.settings.or (some (Settings.parse options).1) := by
  have hannounced : Alike (.unlogged id) (announce options w).2 w :=
    announce_unlogged options (.unlogged_refl w)
  have hbound := ((Parallel.unlogged machine id).bindInterface _ _ hannounced).1
  rw [attachmentAt, ← hbound]
  cases (bindInterface machine (announce options w).2).1 with
  | error _ => rfl
  | ok _ => rfl

/-- Two loads of one world that only differ in what is logged, and in settings where there were none
before and an environment could be had. -/
structure LoadedAlike {α : Type} (w : World σ) (one other : α × World σ) : Prop where
  answer : one.1 = other.1
  agent : { one.2.agent with settings := other.2.agent.settings } = other.2.agent
  settings : one.2.agent.settings ≠ other.2.agent.settings →
    w.agent.settings = none ∧ ∃ env, (bindInterface machine w).1 = .ok env
  registration : one.2.registration = other.2.registration
  machine : one.2.machine = other.2.machine
  journal : one.2.journal.filter (fun entry => !entry.isLog) =
    other.2.journal.filter fun entry => !entry.isLog

/-- Runs load alike if they agree up to any settings, and turn the agent into what attaching does. -/
theorem LoadedAlike.of_turns {α : Type} {first second : String} {one other : Run σ α} {w : World σ}
    (h : Run.Agree (.unlogged fun _ => .standard) one other)
    (hone : Turns machine w (one w).2
      ((attachmentAt machine first w).elim w.agent w.agent.activated))
    (hother : Turns machine w (other w).2
      ((attachmentAt machine second w).elim w.agent w.agent.activated)) :
    LoadedAlike machine w (one w) (other w) := by
  obtain ⟨hanswer, hthen⟩ := h w w (.unlogged_refl w)
  refine ⟨hanswer, ?_, fun hne => ?_, ?_, hthen.machine, hthen.journal⟩
  · dsimp only
    rw [hthen.phase, hthen.target, hthen.hits]
  · rw [hone.agent_eq, hother.agent_eq, settings_of_attachment, settings_of_attachment] at hne
    cases hbound : (bindInterface machine w).1 with
    | error failure =>
      rw [hbound] at hne
      exact absurd rfl hne
    | ok env =>
      refine ⟨?_, env, rfl⟩
      cases hs : w.agent.settings with
      | none => rfl
      | some settings =>
        rw [hs] at hne
        simp only [hbound, Option.some_or, ne_eq, not_true_eq_false] at hne
  · rw [hone.registration_eq, hother.registration_eq]

/-- Options have no say in a load: with any two of them, the load gives the same answer, makes the
same calls, and leaves the same agent and machine but for the settings that it fixes. If they name the
same marker, nor do they have a say in what follows. -/
theorem options_have_no_say (first second : String) (w : World σ) :
    LoadedAlike machine w (attach machine first w) (attach machine second w) ∧
    LoadedAlike machine w (load machine first w) (load machine second w) ∧
    ((Settings.parse first).1.marker = (Settings.parse second).1.marker → ∀ acts,
      SideBySide (.unlogged Settings.withoutFilter) machine machine acts
        (attach machine first w).2 (attach machine second w).2 ∧
      SideBySide (.unlogged Settings.withoutFilter) machine machine acts
        (load machine first w).2 (load machine second w).2) := by
  refine ⟨?_, ?_, fun hmarker acts => ?_⟩
  · exact .of_turns machine (attach_unlogged machine rfl) (attach_turns machine first w)
      (attach_turns machine second w)
  · exact .of_turns machine (load_unlogged machine rfl) (load_turns machine first w)
      (load_turns machine second w)
  · have hview :
        (Settings.parse first).1.withoutFilter = (Settings.parse second).1.withoutFilter := by
      rw [Settings.withoutFilter, Settings.withoutFilter, hmarker]
    have hfull : Parallel.Full (.unlogged Settings.withoutFilter) machine machine :=
      ⟨Parallel.unlogged machine _, fun _ => rfl⟩
    exact ⟨hfull.acts acts _ _ (attach_unlogged machine hview w w (.unlogged_refl w)).2,
      hfull.acts acts _ _ (load_unlogged machine hview w w (.unlogged_refl w)).2⟩

end

section

open Simulation Host

theorem options_have_no_say_filtered :
    (Settings.parse "log=debug").1.marker = (Settings.parse "log=off,junk").1.marker ∧
    SideBySide (.unlogged Settings.withoutFilter) machine machine twoLoadersActs
      (load machine "log=debug" twoLoadersStart).2
      (load machine "log=off,junk" twoLoadersStart).2 := by
  have hmarker :
      (Settings.parse "log=debug").1.marker = (Settings.parse "log=off,junk").1.marker := by
    decide +kernel
  obtain ⟨-, -, hfollows⟩ :=
    options_have_no_say machine "log=debug" "log=off,junk" twoLoadersStart
  exact ⟨hmarker, (hfollows hmarker twoLoadersActs).2⟩

end

end Rendezvous
