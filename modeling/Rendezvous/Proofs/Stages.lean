import Rendezvous.Proofs.Deeds

/-!
# The stages of a load

Starting to watch is a list of stages, each of which asks the machine for one thing. They are
attempted in order, and the first that fails ends the load with an error of its own: so the calls
that are attempted tell the result, and the result tells how far the phase has come. Attaching first
asks for an environment, and without one no stage is attempted at all.
-/

namespace Rendezvous

variable {σ : Type}

inductive Stage where
  /-- The right to receive breakpoint events. -/
  | capability
  | callbacks
  /-- Switching on one event, for all threads. -/
  | event (watched : Watched)
  deriving DecidableEq, Repr

namespace Stage

/-- The stages in their order. -/
def all : List Stage := [.capability, .callbacks, .event .classPrepare, .event .breakpoint]

/-- What is asked of the machine, with its reply. -/
def call (reply : Reply Unit) : Stage → Call
  | capability => .addCapabilities .required reply
  | callbacks => .setEventCallbacks .routed reply
  | event watched => .setEventNotificationMode .enable watched.number .null reply

def error (failure : Failure) : Stage → LoadError
  | capability => .capabilities failure.val
  | callbacks => .callbacks failure.val
  | event watched => .event watched.name failure.val

end Stage

/-- All that may come of attempting stages in order, by the replies: they all succeed, or some have
been passed and the next one fails, which is the last to be attempted. -/
inductive Stages (stages : List Stage) : List Call → Except LoadError Unit → Prop where
  | completed : Stages stages (stages.map (Stage.call (.ok ()))) (.ok ())
  | failed (passed : List Stage) (stage : Stage) (rest : List Stage) (failure : Failure) :
      stages = passed ++ stage :: rest →
      Stages stages (passed.map (Stage.call (.ok ())) ++ [stage.call (.error failure)])
        (.error (stage.error failure))

/-- The phase that a load comes to by its stages. -/
def phaseReached : Except LoadError Unit → Phase
  | .ok _ => .watching
  | .error (.environment _) | .error (.capabilities _) => .unbound
  | .error (.callbacks _) | .error (.event _ _) => .interfaceBound

section

variable {stages : List Stage} {calls : List Call} {result : Except LoadError Unit}

theorem Stages.first (stage : Stage) (rest : List Stage) (failure : Failure) :
    Stages (stage :: rest) [stage.call (.error failure)] (.error (stage.error failure)) :=
  .failed [] stage rest failure rfl

theorem Stages.next (stage : Stage) (h : Stages stages calls result) :
    Stages (stage :: stages) (stage.call (.ok ()) :: calls) result := by
  cases h with
  | completed => exact .completed
  | failed passed last rest failure hs =>
    exact .failed (stage :: passed) last rest failure (by rw [hs, List.cons_append])

theorem Stage.failure?_call (stage : Stage) (reply : Reply Unit) :
    (stage.call reply).failure? = reply.failure? := by
  cases stage <;> rfl

/-- Stages are completed just if all of them have been attempted and have succeeded. -/
theorem Stages.ok_iff (h : Stages stages calls result) :
    result = .ok () ↔ calls = stages.map (Stage.call (.ok ())) := by
  cases h with
  | completed => simp
  | failed passed stage rest failure hs =>
    refine ⟨fun he => (by cases he), fun he => ?_⟩
    have hmem : stage.call (.error failure) ∈ stages.map (Stage.call (.ok ())) := by
      rw [← he]
      simp
    obtain ⟨other, -, hcall⟩ := List.mem_map.mp hmem
    have hfailure := congrArg Call.failure? hcall
    rw [Stage.failure?_call, Stage.failure?_call] at hfailure
    cases hfailure

/-- A load that has the capability and fails has reached the environment and no more. -/
theorem Stages.phaseReached_of_error {events : List Watched} {error : LoadError}
    (h : Stages (.callbacks :: events.map .event) calls (.error error)) :
    phaseReached (.error error) = .interfaceBound := by
  cases h with
  | failed passed stage rest failure hs =>
    have hmem : stage ∈ Stage.callbacks :: events.map .event := by
      rw [hs]
      simp
    cases stage with
    | capability => simp at hmem
    | callbacks => rfl
    | event watched => rfl

end

/-! ## Starting to watch goes by the stages -/

section

variable (machine : Machine σ) (env : Env)

theorem requestCapabilities_dialogue (w : World σ) :
    (∃ failure, (requestCapabilities machine env w).1 = .error (Stage.capability.error failure) ∧
      Dialogue machine env w [Stage.capability.call (.error failure)]
        (requestCapabilities machine env w).2) ∨
    (requestCapabilities machine env w).1 = .ok () ∧
      Dialogue machine env w [Stage.capability.call (.ok ())]
        (requestCapabilities machine env w).2 := by
  simp only [requestCapabilities, Run.bind_apply]
  have hasked : Dialogue machine env w [] _ :=
    .report .debug .binding ("requesting " ++ Capabilities.required.display) w
  generalize (report .debug .binding ("requesting " ++ Capabilities.required.display) w).2 = w₁
    at hasked ⊢
  have ha := addCapabilities_attempt machine env .required w₁
  cases hr : (addCapabilities machine env .required w₁).1 with
  | error failure =>
    rw [hr] at ha
    exact .inl ⟨failure, rfl, hasked.trans (.single ha)⟩
  | ok _ =>
    rw [hr] at ha
    exact .inr ⟨rfl, hasked.trans (.single ha)⟩

theorem enableEvents_stages (events : List Watched) (w : World σ) :
    ∃ calls, Stages (events.map .event) calls (enableEvents machine env events w).1 ∧
      Dialogue machine env w calls (enableEvents machine env events w).2 := by
  induction events generalizing w with
  | nil => exact ⟨[], .completed, .silence w⟩
  | cons event rest ih =>
    have ha := setEventNotificationMode_attempt machine env true event.number .null w
    simp only [enableEvents, Run.bind_apply]
    cases hr : (setEventNotificationMode machine env true event.number .null w).1 with
    | error failure =>
      rw [hr] at ha
      exact ⟨_, .first (.event event) _ failure, .single ha⟩
    | ok _ =>
      rw [hr] at ha
      obtain ⟨calls, hs, hd⟩ := ih (report .debug .events ("enabled " ++ event.name ++ " events")
        (setEventNotificationMode machine env true event.number .null w).2).2
      exact ⟨_, hs.next (.event event), .attempt ha (.record _ _ _ hd)⟩

theorem startEvents_stages (w : World σ) :
    ∃ calls, Stages (.callbacks :: Watched.all.map .event) calls
        (startEvents machine env .routed w).1 ∧
      Dialogue machine env w calls (startEvents machine env .routed w).2 := by
  have ha := setEventCallbacks_attempt machine env .routed w
  simp only [startEvents, Run.bind_apply]
  cases hr : (setEventCallbacks machine env .routed w).1 with
  | error failure =>
    rw [hr] at ha
    exact ⟨_, .first .callbacks _ failure, .single ha⟩
  | ok _ =>
    rw [hr] at ha
    obtain ⟨calls, hs, hd⟩ := enableEvents_stages machine env Watched.all
      (setEventCallbacks machine env .routed w).2
    exact ⟨_, hs.next .callbacks, .attempt ha hd⟩

/-- A dialogue during which the phase of the agent, and nothing else of it, moves on to this. -/
structure Proceeds (w : World σ) (calls : List Call) (phase : PhaseCell) (w' : World σ) : Prop where
  dialogue : Dialogue machine env w calls { w' with agent := w.agent }
  agent_eq : w'.agent = { w.agent with phase }

/-- An activation, by the world in which its first stage is attempted: there the settings are in
place, and nothing has been asked of the machine yet. -/
structure Activates (settings : Settings) (w configured : World σ) (calls : List Call)
    (result : Except LoadError Unit) (w' : World σ) : Prop where
  configuring : Dialogue machine env w [] { configured with agent := w.agent }
  configured_agent :
    configured.agent = { w.agent with settings := w.agent.settings.or (some settings) }
  stages : Stages Stage.all calls result
  proceeds : Proceeds machine env configured calls
    (configured.agent.phase.advance (phaseReached result)).2 w'

section

variable {machine env} {w w₁ w' : World σ} {calls others : List Call} {cell : PhaseCell}

theorem Dialogue.proceeds (h : Dialogue machine env w calls w') :
    Proceeds machine env w calls w.agent.phase w' := by
  obtain ⟨ha, -⟩ := h.agent_eq
  refine ⟨?_, ha⟩
  rw [← ha]
  exact h

theorem Proceeds.then_dialogue (h : Proceeds machine env w calls cell w₁)
    (h' : Dialogue machine env w₁ others w') : Proceeds machine env w (calls ++ others) cell w' :=
  ⟨h.dialogue.trans (h'.withAgent w.agent), h'.agent_eq.1.trans h.agent_eq⟩

theorem Proceeds.then_advance (h : Proceeds machine env w calls cell w₁) (phase : Phase) :
    Proceeds machine env w calls (cell.advance phase).2 (advancePhase phase w₁).2 := by
  refine ⟨h.dialogue, ?_⟩
  simp only [advancePhase, h.agent_eq]

end

theorem configure_dialogue (settings : Settings) (w : World σ) :
    Dialogue machine env w [] { (configure settings w).2 with agent := w.agent } := by
  simp only [configure, Run.bind_apply, Run.get_apply]
  cases w.agent.settings with
  | none => exact .silence w
  | some _ => exact .report ..

/-- An activation attempts the stages, and what came of them tells how far the phase has moved. -/
theorem activate_activates (settings : Settings) (w : World σ) :
    ∃ configured calls, Activates machine env settings w configured calls
      (activate machine env settings w).1 (activate machine env settings w).2 := by
  have hconfiguring := configure_dialogue machine env settings w
  have hagent := (configure_turns machine settings w).agent_eq
  simp only [activate, Run.bind_apply]
  generalize (configure settings w).2 = w₁ at hconfiguring hagent ⊢
  rcases requestCapabilities_dialogue machine env w₁ with ⟨failure, hr, hd⟩ | ⟨hr, hd⟩
  · simp only [hr]
    refine ⟨w₁, _, hconfiguring, hagent, .first .capability _ failure, ?_⟩
    -- The cell is not touched here, which is what advancing to the lowest phase comes to.
    have hphase : (w₁.agent.phase.advance
        (phaseReached (.error (Stage.capability.error failure)))).2 = w₁.agent.phase :=
      PhaseCell.advance_unbound _
    dsimp only [Run.pure_apply]
    rw [hphase]
    exact hd.proceeds
  · have hbound := hd.proceeds.then_advance .interfaceBound
    obtain ⟨calls, hs, hstarted⟩ := startEvents_stages machine env
      (advancePhase .interfaceBound (requestCapabilities machine env w₁).2).2
    have hproceeds := hbound.then_dialogue hstarted
    simp only [hr, Run.bind_apply]
    cases he : (startEvents machine env .routed
        (advancePhase .interfaceBound (requestCapabilities machine env w₁).2).2).1 with
    | error error =>
      rw [he] at hs
      refine ⟨w₁, _, hconfiguring, hagent, hs.next .capability, ?_⟩
      dsimp only [Run.pure_apply]
      rw [hs.phaseReached_of_error]
      exact hproceeds
    | ok _ =>
      rw [he] at hs
      refine ⟨w₁, _, hconfiguring, hagent, hs.next .capability, ?_⟩
      -- The phase has moved twice, but only the later move shows.
      have hwatching := hproceeds.then_advance .watching
      rw [PhaseCell.advance_advance _ (by decide)] at hwatching
      simpa [phaseReached] using hwatching.then_dialogue (.report ..)

/-- Each attempt of an activation is made in a world with settings, and the calls that reach the
machine stand in the journal; they are all attempts if the table is full. -/
theorem Activates.journal {env : Env} {settings : Settings} {w configured w' : World σ}
    {calls : List Call} {result : Except LoadError Unit}
    (h : Activates machine env settings w configured calls result w') :
    ∃ made, Since w w' made ∧ made.Sublist calls ∧
      (env = .live → (∀ service s, machine.provides service s = true) → made = calls) := by
  have hd := h.configuring.trans (h.proceeds.dialogue.withAgent w.agent)
  rw [List.nil_append] at hd
  obtain ⟨made, hc, hsub, hall⟩ := hd.course
  exact ⟨made, .of_course hc rfl, hsub, hall⟩

end

/-! ## Attaching -/

section

variable (machine : Machine σ)

/-- What comes of asking for an environment: whether the machine can be asked at all, what it
replies, and whether the environment can be used. -/
inductive Obtains (s : σ) : List Call → σ → Except Status Env → Prop where
  | unreachable : machine.reference s ≠ .live → Obtains s [] s (.error Status.failure)
  | refused {s' : σ} {status : Status} {env : Env} : machine.reference s = .live →
      machine.environment Version.required s = ((status, env), s') → status ≠ Status.success →
      Obtains s [.environment Version.required status] s' (.error status)
  | null {s' : σ} : machine.reference s = .live →
      machine.environment Version.required s = ((Status.success, .null), s') →
      Obtains s [.environment Version.required Status.success] s' (.error Status.failure)
  | obtained {s' : σ} {env : Env} : machine.reference s = .live →
      machine.environment Version.required s = ((Status.success, env), s') → env ≠ .null →
      Obtains s [.environment Version.required Status.success] s' (.ok env)

/-- What comes of attaching once an environment has been asked for. -/
def AttachesWith (settings : Settings) (bound : World σ) (result : Except LoadError Unit)
    (w' : World σ) : Except Status Env → Prop
  | .error status => result = .error (.environment status) ∧ w' = bound
  | .ok env => ∃ configured calls, Activates machine env settings bound configured calls result w'

theorem reportRejected_course (rejected : List Rejected) (w : World σ) :
    Course machine w [] (reportRejected rejected w).2 := by
  induction rejected generalizing w with
  | nil => exact .stay w
  | cons option rest ih => exact .record _ _ _ (ih _)

theorem announce_course (options : String) (w : World σ) :
    Course machine w [] (announce options w).2 :=
  .logger _ ((reportRejected_course machine _ _).trans (.record _ _ _ (.stay _)))

theorem obtainEnv_obtains (w : World σ) :
    ∃ calls, Course machine w calls (obtainEnv machine Version.required w).2 ∧
      Obtains machine w.machine calls (obtainEnv machine Version.required w).2.machine
        (obtainEnv machine Version.required w).1 := by
  unfold obtainEnv
  cases hr : machine.reference w.machine with
  | null => exact ⟨[], .stay w, .unreachable (by simp [hr])⟩
  | noTable => exact ⟨[], .stay w, .unreachable (by simp [hr])⟩
  | noGetEnv => exact ⟨[], .stay w, .unreachable (by simp [hr])⟩
  | live =>
    rcases he : machine.environment Version.required w.machine with ⟨⟨status, env⟩, s'⟩
    have ha : machine.Answers (.environment Version.required status) w.machine s' := ⟨env, he⟩
    have hc : Course machine w [_] (w.called _ s') := .call ha (.stay _)
    by_cases hs : status = Status.success
    · subst hs
      cases env with
      | null => exact ⟨_, hc, .null hr he⟩
      | noTable => exact ⟨_, hc, .obtained hr he (by simp)⟩
      | live => exact ⟨_, hc, .obtained hr he (by simp)⟩
    · simp only [hs, if_false]
      exact ⟨_, hc, .refused hr he hs⟩

theorem bindInterface_eq (w : World σ) :
    bindInterface machine w = ((obtainEnv machine Version.required w).1.mapError .environment,
      (obtainEnv machine Version.required w).2) := by
  simp only [bindInterface, Run.bind_apply]
  cases (obtainEnv machine Version.required w).1 <;> rfl

theorem attach_attaches (options : String) (w : World σ) :
    ∃ bound calls obtained, Course machine w calls bound ∧
      Obtains machine w.machine calls bound.machine obtained ∧
      AttachesWith machine (Settings.parse options).1 bound (attach machine options w).1
        (attach machine options w).2 obtained := by
  have hannounced := announce_course machine options w
  have hsame := hannounced.machine_eq rfl
  obtain ⟨calls, hc, ho⟩ := obtainEnv_obtains machine (announce options w).2
  rw [hsame] at ho
  refine ⟨_, calls, _, hannounced.trans hc, ho, ?_⟩
  simp only [attach, Run.bind_apply, bindInterface_eq]
  cases (obtainEnv machine Version.required (announce options w).2).1 with
  | error status => exact ⟨rfl, rfl⟩
  | ok env => exact activate_activates machine env (Settings.parse options).1 _

end

/-- A load goes by its stages, for every agent and machine. Activating attempts the stages in order, up
to the first that fails: the result is the error of that stage, or success if none fails, the phase
moves on to what the stages have reached if it was not there before, and of the agent nothing else
changes but that settings are in place if there were none. Attaching gets as far as that if it
obtains an environment, and else does nothing but report the status. The status of a load tells
whether attaching has succeeded. -/
theorem load_goes_by_stages (machine : Machine σ) (w : World σ) :
    (∀ env settings, ∃ configured calls made,
      Activates machine env settings w configured calls (activate machine env settings w).1
        (activate machine env settings w).2 ∧
      (activate machine env settings w).2.agent =
        { w.agent with
          settings := w.agent.settings.or (some settings)
          phase := ⟨max w.agent.phase.byte
            (phaseReached (activate machine env settings w).1).toByte⟩ } ∧
      ((activate machine env settings w).1 = .ok () ↔
        calls = Stage.all.map (Stage.call (.ok ()))) ∧
      Since w (activate machine env settings w).2 made ∧ made.Sublist calls ∧
      (env = .live → (∀ service s, machine.provides service s = true) → made = calls)) ∧
    (∀ options, ∃ bound calls obtained, Course machine w calls bound ∧ bound.agent = w.agent ∧
      Obtains machine w.machine calls bound.machine obtained ∧
      AttachesWith machine (Settings.parse options).1 bound (attach machine options w).1
        (attach machine options w).2 obtained) ∧
    ∀ options,
      (load machine options w).1 =
        (if (attach machine options w).1.isOk then Status.success else Status.failure) ∧
      ∃ level text, (load machine options w).2 =
        (report level .agent text (attach machine options w).2).2 := by
  refine ⟨fun env settings => ?_, fun options => ?_, fun options => ?_⟩
  · obtain ⟨configured, calls, ha⟩ := activate_activates machine env settings w
    obtain ⟨made, hs, hsub, hall⟩ := ha.journal
    refine ⟨configured, calls, made, ha, ?_, ha.stages.ok_iff, hs, hsub, hall⟩
    rw [ha.proceeds.agent_eq, ha.configured_agent]
    rfl
  · obtain ⟨bound, calls, obtained, hc, ho, hattached⟩ := attach_attaches machine options w
    exact ⟨bound, calls, obtained, hc, hc.agent_eq.1, ho, hattached⟩
  · simp only [load, Run.bind_apply]
    cases (attach machine options w).1 with
    | ok _ => exact ⟨rfl, _, _, rfl⟩
    | error error => exact ⟨rfl, _, _, rfl⟩

end Rendezvous
