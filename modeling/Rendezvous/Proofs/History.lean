import Rendezvous.Proofs.Deeds
import Rendezvous.Proofs.Hosts

/-!
# An agent is what its history made it

The history of an agent is the list of its deeds up to a point of a run. Each part of the agent
depends on one kind of deed only: the settings are those of the first activation, the phase is the
highest that a deed has reached, the target is the method of the last attempt to set a breakpoint,
and the hits are the entries into the hook. Agents are followed from one point of a run to any later
one.
-/

namespace Rendezvous

variable {σ : Type}

/-! ## What deeds leave behind -/

namespace Deed

def activation? : Deed → Option Activation
  | activated activation => some activation
  | _ => none

/-- The method in which a deed attempted to set a breakpoint. -/
def attempted? : Deed → Option MethodId
  | prepared outcome => outcome.attempted?
  | _ => none

def isEntry : Deed → Bool
  | entered _ => true
  | _ => false

def grants : Deed → Bool
  | activated activation => activation.granted
  | _ => false

def completes : Deed → Bool
  | activated activation => activation.completed
  | _ => false

def installs : Deed → Bool
  | prepared (.installed _) => true
  | _ => false

end Deed

/-- The highest phase that one of the deeds reaches. -/
def phaseOf (deeds : List Deed) : Phase :=
  if deeds.any Deed.installs then .installed
  else if deeds.any Deed.completes then .watching
  else if deeds.any Deed.grants then .interfaceBound
  else .unbound

/-- An agent after all these deeds. -/
def Agent.follow (agent : Agent) (deeds : List Deed) : Agent where
  settings := agent.settings.or ((deeds.filterMap Deed.activation?).head?.map Activation.settings)
  phase := ⟨max agent.phase.byte (phaseOf deeds).toByte⟩
  target := ((deeds.filterMap Deed.attempted?).getLast?.map TargetSlot.mk).getD agent.target
  hits := agent.hits + UInt64.ofNat (deeds.countP Deed.isEntry)

theorem phaseOf_append (a b : List Deed) :
    (phaseOf (a ++ b)).toByte = max (phaseOf a).toByte (phaseOf b).toByte := by
  simp only [phaseOf, List.any_append]
  cases a.any Deed.installs <;> cases b.any Deed.installs <;> cases a.any Deed.completes <;>
    cases b.any Deed.completes <;> cases a.any Deed.grants <;> cases b.any Deed.grants <;> rfl

attribute [ext] Agent PhaseCell

namespace Agent

variable (agent : Agent)

theorem settings_after (deed : Deed) :
    (agent.after deed).settings = agent.settings.or (deed.activation?.map Activation.settings) := by
  cases deed with
  | activated activation => rfl
  | _ => exact (Option.or_none).symm

theorem phase_after (deed : Deed) :
    (agent.after deed).phase.byte = max agent.phase.byte (phaseOf [deed]).toByte := by
  cases deed with
  | activated activation =>
    obtain ⟨settings, granted, completed⟩ := activation
    cases granted <;> cases completed
    · exact (max_byte_zero _).symm
    · rfl
    · rfl
    · exact max_byte_assoc agent.phase.byte 1 2
  | prepared outcome =>
    cases outcome with
    | installed method => rfl
    | _ => exact (max_byte_zero _).symm
  | entered arrival => exact (max_byte_zero _).symm

theorem target_after (deed : Deed) :
    (agent.after deed).target = (deed.attempted?.map TargetSlot.mk).getD agent.target := by
  cases deed with
  | prepared outcome => cases outcome <;> rfl
  | _ => rfl

theorem hits_after (deed : Deed) :
    (agent.after deed).hits = agent.hits + UInt64.ofNat (if deed.isEntry then 1 else 0) := by
  cases deed with
  | entered arrival => rfl
  | _ => exact (UInt64.add_zero agent.hits).symm

theorem follow_nil : agent.follow [] = agent := by
  ext1
  · exact Option.or_none
  · exact PhaseCell.ext (max_byte_zero _)
  · rfl
  · exact UInt64.add_zero agent.hits

theorem follow_singleton (deed : Deed) : agent.follow [deed] = agent.after deed := by
  ext1
  · rw [settings_after]
    cases h : deed.activation? <;> simp [follow, h]
  · apply PhaseCell.ext
    rw [phase_after]
    rfl
  · rw [target_after]
    cases h : deed.attempted? <;> simp [follow, h]
  · rw [hits_after]
    simp only [follow, List.countP_singleton]

/-- What some deeds leave behind is what the next ones find. -/
theorem follow_append (a b : List Deed) : agent.follow (a ++ b) = (agent.follow a).follow b := by
  ext1
  · simp only [follow, List.filterMap_append, List.head?_append, Option.map_or, Option.or_assoc]
  · apply PhaseCell.ext
    simp only [follow, phaseOf_append, max_byte_assoc]
  · simp only [follow, List.filterMap_append, List.getLast?_append]
    cases (b.filterMap Deed.attempted?).getLast? <;> simp
  · simp only [follow, List.countP_append, UInt64.ofNat_add, UInt64.add_assoc]

theorem follow_snoc (deeds : List Deed) (deed : Deed) :
    agent.follow (deeds ++ [deed]) = (agent.follow deeds).after deed := by
  rw [follow_append, follow_singleton]

/-- From a fresh agent on, each part can be read off the deeds. -/
theorem follow_fresh (deeds : List Deed) :
    (fresh.follow deeds).settings =
        (deeds.filterMap Deed.activation?).head?.map Activation.settings ∧
      (fresh.follow deeds).phase.get = phaseOf deeds ∧
      (fresh.follow deeds).target.get =
        (deeds.filterMap Deed.attempted?).getLast?.filter (fun method => !method.isNull) ∧
      (deeds.countP Deed.isEntry < UInt64.size →
        (fresh.follow deeds).hits.toNat = deeds.countP Deed.isEntry) := by
  refine ⟨rfl, ?_, ?_, ?_⟩
  · have hmax : max fresh.phase.byte (phaseOf deeds).toByte = (phaseOf deeds).toByte := by
      cases phaseOf deeds <;> rfl
    simp only [follow, PhaseCell.get, hmax, Phase.ofByte_toByte]
  · cases h : (deeds.filterMap Deed.attempted?).getLast? with
    | none => simp [follow, h, fresh]
    | some method =>
      cases hn : method.isNull <;> simp [follow, h, TargetSlot.get, hn, Option.filter]
  · intro hcount
    have hadd : (fresh.follow deeds).hits = UInt64.ofNat (deeds.countP Deed.isEntry) :=
      UInt64.zero_add _
    rw [hadd]
    exact UInt64.toNat_ofNat_of_lt' hcount

end Agent

/-! ## Histories -/

section

variable (machine : Machine σ)

/-- What has been done to an agent at a moment. -/
def Moment.deed? (subject : Subject) : Moment σ → Option Deed
  | .entered arrival _ =>
    match subject with
    | .own => some (.entered arrival)
    | .registered => none
  | .ended op before _ _ => op.deed? machine subject before

/-- The deeds of a run that were done to an agent, in order. -/
def history (subject : Subject) (past : List (Moment σ)) : List Deed :=
  past.filterMap (Moment.deed? machine subject)

/-- Each agent is what the deeds made of the agent that it was at the start. -/
def Followed (start : World σ) (past : List (Moment σ)) (w : World σ) : Prop :=
  ∀ subject, w.agentOf subject = (start.agentOf subject).follow (history machine subject past)

variable {machine} {start w w' : World σ} {past : List (Moment σ)}

theorem history_snoc (subject : Subject) (past : List (Moment σ)) (m : Moment σ) :
    history machine subject (past ++ [m]) =
      history machine subject past ++ (m.deed? machine subject).toList := by
  cases hd : m.deed? machine subject <;> simp [history, hd]

/-- A moment with its deed is followed by following the deed. -/
theorem Followed.moment (h : Followed machine start past w) (m : Moment σ)
    (hm : ∀ subject, w'.agentOf subject =
      (m.deed? machine subject).elim (w.agentOf subject) (w.agentOf subject).after) :
    Followed machine start (past ++ [m]) w' := by
  intro subject
  rw [hm subject, history_snoc, h subject]
  cases m.deed? machine subject with
  | none => rw [Option.elim_none, Option.toList_none, List.append_nil]
  | some deed => exact (Agent.follow_snoc _ _ deed).symm

theorem World.entering_agentOf {op : Operation} {arrival : Arrival}
    (h : op.arrival? w = some arrival) (subject : Subject) :
    (w.entering arrival).agentOf subject =
      ((Moment.entered arrival (w.entering arrival)).deed? machine subject).elim
        (w.agentOf subject) (w.agentOf subject).after := by
  have hs := Operation.sequence_eq h
  cases subject with
  | own => simp only [agentOf, entering, Moment.deed?, Option.elim_some, Agent.after, hs]
  | registered => rfl

theorem Followed.kept : Kept machine (Followed machine start) where
  quiet := by
    intro past w op hook h ha
    exact h.moment _ (op.run_effect machine hook w ha).agentOf_eq
  enters := by
    intro past w op arrival h ha
    exact h.moment _ (World.entering_agentOf ha)
  leaves := by
    intro past w op before arrival ending h ha
    refine h.moment _ fun subject => ?_
    simp only [Moment.deed?, Operation.deed?, Operation.does_of_arrival ha, Option.bind_none,
      Option.elim_none]
    cases ending <;> cases subject <;> rfl
  records := by
    intro past w level component text h subject
    rw [← h subject]
    cases subject <;> rfl

theorem Followed.nil (w : World σ) : Followed machine w [] w := fun subject =>
  (Agent.follow_nil (w.agentOf subject)).symm

end

/-- The whole of an agent is a function of its history, at every point of any run from a fresh agent
on: its settings are the first ever given, its phase is the highest reached, its target is the
method of the last attempt unless that is null, and its hits are the entries into its hook. From any
point to a later one, the agent changes by the deeds in between and nothing else, and its phase
never goes back. -/
theorem agent_of_history (machine : Machine σ) (acts : List Act) (start : World σ)
    (subject : Subject) (hfresh : start.agentOf subject = .fresh)
    {past : List (Moment σ)} {w : World σ} (hp : Point machine acts start past w) :
    w.agentOf subject = Agent.fresh.follow (history machine subject past) ∧
    (w.agentOf subject).settings =
      ((history machine subject past).filterMap Deed.activation?).head?.map Activation.settings ∧
    (w.agentOf subject).phase.get = phaseOf (history machine subject past) ∧
    (w.agentOf subject).target.get =
      ((history machine subject past).filterMap Deed.attempted?).getLast?.filter
        (fun method => !method.isNull) ∧
    ((history machine subject past).countP Deed.isEntry < UInt64.size →
      (w.agentOf subject).hits.toNat = (history machine subject past).countP Deed.isEntry) ∧
    ∀ more w', Point machine acts start (past ++ more) w' →
      w'.agentOf subject = (w.agentOf subject).follow (history machine subject more) ∧
      (w.agentOf subject).phase.byte ≤ (w'.agentOf subject).phase.byte := by
  have follows : ∀ past w, Point machine acts start past w →
      w.agentOf subject = Agent.fresh.follow (history machine subject past) := by
    intro past w hp
    rw [← hfresh]
    exact Followed.kept.at_point (.nil start) hp subject
  have hw := follows past w hp
  obtain ⟨hsettings, hphase, htarget, hhits⟩ := Agent.follow_fresh (history machine subject past)
  rw [← hw] at hsettings hphase htarget hhits
  refine ⟨hw, hsettings, hphase, htarget, hhits, fun more w' hp' => ?_⟩
  have hmore : w'.agentOf subject = (w.agentOf subject).follow (history machine subject more) := by
    rw [follows _ w' hp', hw, ← Agent.follow_append, history, List.filterMap_append]
    rfl
  refine ⟨hmore, ?_⟩
  rw [hmore]
  exact le_max_byte ..

section

open Simulation Host

theorem agent_of_history_two_loaders :
    twoLoadersStart.agentOf .own = .fresh ∧
      twoLoadersEnd.agentOf .own = Agent.fresh.follow
        (history Host.machine .own (momentsOf Host.machine twoLoadersActs twoLoadersStart)) :=
  ⟨rfl, (agent_of_history Host.machine twoLoadersActs twoLoadersStart .own rfl
    twoLoadersEnd_point).1⟩

end

end Rendezvous
