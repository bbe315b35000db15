import Rendezvous.Registration
import Rendezvous.Proofs.Visit

/-!
# What operations do to an agent

Loading calls the machine only to set itself up, and changes an agent by one activation at most: the
first settings stay, and the phase moves on as far as the activation came. Preparing a class is a
visit, and an ignored hit is a log record. Each theorem gives the agent afterwards in full, and the
calls made meanwhile.
-/

namespace Rendezvous

variable {σ : Type}

/-- The calls by which an agent is loaded. -/
def Call.isSetup : Call → Bool
  | environment _ _ | addCapabilities _ _ | setEventCallbacks _ _
  | setEventNotificationMode _ _ _ _ => true
  | _ => false

section

variable (machine : Machine σ)

/-- A course of things without other calls than those of loading. -/
def SetsUp (w w' : World σ) : Prop :=
  ∃ calls, Course machine w calls w' ∧ ∀ call ∈ calls, call.isSetup = true

variable {machine} {w w₁ w' : World σ}

namespace SetsUp

theorem refl (w : World σ) : SetsUp machine w w := ⟨[], .stay w, by simp⟩

theorem trans (h : SetsUp machine w w₁) (h' : SetsUp machine w₁ w') : SetsUp machine w w' := by
  obtain ⟨calls, hc, hs⟩ := h
  obtain ⟨others, ho, hs'⟩ := h'
  refine ⟨calls ++ others, hc.trans ho, fun call hcall => ?_⟩
  rcases List.mem_append.mp hcall with hmem | hmem
  · exact hs call hmem
  · exact hs' call hmem

theorem frame (h : SetsUp machine w w') (agent : Agent) (registration : Registration) :
    SetsUp machine { w with agent, registration } { w' with agent, registration } := by
  obtain ⟨calls, hc, hs⟩ := h
  exact ⟨calls, hc.frame agent registration, hs⟩

theorem agent_eq (h : SetsUp machine w w') :
    w'.agent = w.agent ∧ w'.registration = w.registration := by
  obtain ⟨_, hc, -⟩ := h
  exact hc.agent_eq

theorem report (level : Log.Level) (component : Log.Component) (text : String) (w : World σ) :
    SetsUp machine w (report level component text w).2 :=
  ⟨[], .record level component text (.stay _), by simp⟩

theorem of_attempt {env : Env} {call : Call} (h : Attempt machine env call w w')
    (hs : call.isSetup = true) : SetsUp machine w w' := by
  obtain ⟨made, hc, hsub, -⟩ := (Dialogue.single h).course
  refine ⟨made, hc, fun other hmem => ?_⟩
  rw [List.mem_singleton.mp (hsub.subset hmem)]
  exact hs

end SetsUp

/-! ## Runs that only set up -/

variable (machine) (env : Env)

/-- A run that makes no other calls than those of loading, and leaves the agent alone. -/
def Run.OnlySetsUp {α : Type} (run : Run σ α) : Prop := ∀ w, SetsUp machine w (run w).2

variable {machine}

namespace Run.OnlySetsUp

variable {α β : Type}

theorem pure (a : α) : OnlySetsUp machine (pure a) := SetsUp.refl

theorem bind {m : Run σ α} {f : α → Run σ β} (hm : OnlySetsUp machine m)
    (hf : ∀ a, OnlySetsUp machine (f a)) : OnlySetsUp machine (m >>= f) :=
  fun w => (hm w).trans (hf (m w).1 (m w).2)

theorem report (level : Log.Level) (component : Log.Component) (text : String) :
    OnlySetsUp machine (Rendezvous.report level component text) := SetsUp.report level component text

theorem of_attempt {m : Run σ α} {entry : α → Call}
    (h : ∀ w, Attempt machine env (entry (m w).1) w (m w).2)
    (hs : ∀ a, (entry a).isSetup = true) : OnlySetsUp machine m :=
  fun w => .of_attempt (h w) (hs _)

end Run.OnlySetsUp

variable (machine)

theorem requestCapabilities_onlySetsUp : (requestCapabilities machine env).OnlySetsUp machine := by
  refine .bind (.report _ _ _) fun _ => .bind ?_ fun reply => ?_
  · exact .of_attempt env (addCapabilities_attempt machine env .required) fun _ => rfl
  · cases reply <;> exact .pure _

theorem enableEvents_onlySetsUp (events : List Watched) :
    (enableEvents machine env events).OnlySetsUp machine := by
  induction events with
  | nil => exact .pure _
  | cons event rest ih =>
    refine .bind ?_ fun reply => ?_
    · exact .of_attempt env
        (setEventNotificationMode_attempt machine env true event.number .null) fun _ => rfl
    · cases reply with
      | error failure => exact .pure _
      | ok _ => exact .bind (.report _ _ _) fun _ => ih

theorem startEvents_onlySetsUp (callbacks : Callbacks) :
    (startEvents machine env callbacks).OnlySetsUp machine := by
  refine .bind ?_ fun reply => ?_
  · exact .of_attempt env (setEventCallbacks_attempt machine env callbacks) fun _ => rfl
  · cases reply with
    | error failure => exact .pure _
    | ok _ => exact enableEvents_onlySetsUp machine env Watched.all

theorem reportRejected_onlySetsUp (rejected : List Rejected) :
    (reportRejected rejected).OnlySetsUp machine := by
  induction rejected with
  | nil => exact .pure _
  | cons option rest ih => exact .bind (.report _ _ _) fun _ => ih

theorem announce_onlySetsUp (options : String) : (announce options).OnlySetsUp machine := by
  refine .bind (fun w => ⟨[], .logger _ (.stay _), by simp⟩) fun _ => ?_
  exact .bind (reportRejected_onlySetsUp machine _) fun _ => .bind (.report _ _ _) fun _ => .pure _

theorem obtainEnv_onlySetsUp (version : Version) :
    (obtainEnv machine version).OnlySetsUp machine := by
  intro w
  unfold obtainEnv
  cases machine.reference w.machine with
  | null => exact .refl w
  | noTable => exact .refl w
  | noGetEnv => exact .refl w
  | live =>
    have ha : machine.Answers (.environment version (machine.environment version w.machine).1.1)
        w.machine (machine.environment version w.machine).2 := ⟨_, rfl⟩
    have h : SetsUp machine w (w.called _ _) := ⟨[_], .call ha (.stay _), by simp [Call.isSetup]⟩
    dsimp only
    split
    · split <;> exact h
    · exact h

theorem bindInterface_onlySetsUp : (bindInterface machine).OnlySetsUp machine := by
  refine .bind (obtainEnv_onlySetsUp machine Version.required) fun obtained => ?_
  cases obtained <;> exact .pure _

theorem unload_onlySetsUp : (unload : Run σ Unit).OnlySetsUp machine := fun _ => .report ..

/-! ## Activations -/

/-- One activation: its settings, whether the capability was granted, and whether it came to its end
without a failure. -/
structure Activation where
  settings : Settings
  granted : Bool
  completed : Bool

/-- The activation that takes place on a world. -/
def activationAt (settings : Settings) (w : World σ) : Activation where
  settings := settings
  granted := (requestCapabilities machine env (configure settings w).2).1.isOk
  completed := (activate machine env settings w).1.isOk

/-- The activation that attaching comes to, if an environment is obtained. -/
def attachmentAt (options : String) (w : World σ) : Option Activation :=
  match (bindInterface machine (announce options w).2).1 with
  | .error _ => none
  | .ok env => some (activationAt machine env (announce options w).1
      (bindInterface machine (announce options w).2).2)

end

/-- An agent after an activation. -/
def Agent.activated (agent : Agent) (activation : Activation) : Agent :=
  let bound := if activation.granted then (agent.phase.advance .interfaceBound).2 else agent.phase
  { agent with
    settings := agent.settings.or (some activation.settings)
    phase := if activation.completed then (bound.advance .watching).2 else bound }

/-- Apart from calls of loading and log records, only the agent of a world changes, and to this. -/
structure Turns (machine : Machine σ) (w w' : World σ) (agent : Agent) : Prop where
  setsUp : SetsUp machine w { w' with agent := w.agent }
  agent_eq : w'.agent = agent

section

variable {machine : Machine σ} {w w₁ w' : World σ} {agent agent' : Agent}

theorem SetsUp.turns (h : SetsUp machine w w') : Turns machine w w' w.agent := by
  obtain ⟨ha, -⟩ := h.agent_eq
  refine ⟨?_, ha⟩
  rw [← ha]
  exact h

theorem Turns.registration_eq (h : Turns machine w w' agent) :
    w'.registration = w.registration := h.setsUp.agent_eq.2

theorem Turns.trans (h : Turns machine w w₁ agent) (h' : Turns machine w₁ w' agent') :
    Turns machine w w' agent' := by
  have hf := h'.setsUp.frame w.agent w₁.registration
  have hr : { w' with agent := w.agent, registration := w₁.registration } =
      { w' with agent := w.agent } := by rw [← h'.registration_eq]
  rw [hr] at hf
  exact ⟨h.setsUp.trans hf, h'.agent_eq⟩

theorem Turns.then_setsUp (h : Turns machine w w₁ agent) (h' : SetsUp machine w₁ w') :
    Turns machine w w' agent := by
  have ht := h.trans h'.turns
  rwa [h.agent_eq] at ht

theorem Turns.then_update (h : Turns machine w w₁ agent) (f : Agent → Agent) :
    Turns machine w { w₁ with agent := f w₁.agent } (f agent) := by
  rw [← h.agent_eq]
  exact ⟨h.setsUp, rfl⟩

theorem Turns.then_advance (h : Turns machine w w₁ agent) (phase : Phase) :
    Turns machine w (advancePhase phase w₁).2
      { agent with phase := (agent.phase.advance phase).2 } :=
  h.then_update fun agent => { agent with phase := (agent.phase.advance phase).2 }

variable (machine)

theorem configure_turns (settings : Settings) (w : World σ) :
    Turns machine w (configure settings w).2
      { w.agent with settings := w.agent.settings.or (some settings) } := by
  simp only [configure, Run.bind_apply, Run.get_apply]
  cases hs : w.agent.settings with
  | none => exact ⟨.refl w, rfl⟩
  | some first =>
    have he : w.agent = { w.agent with settings := (some first).or (some settings) } := by
      rw [Option.some_or, ← hs]
    rw [← he]
    exact (SetsUp.report ..).turns

/-- Nothing of an activation is undone when a later stage of it fails. -/
theorem activate_turns (env : Env) (settings : Settings) (w : World σ) :
    Turns machine w (activate machine env settings w).2
      (w.agent.activated (activationAt machine env settings w)) := by
  have hasked := (configure_turns machine settings w).then_setsUp
    (requestCapabilities_onlySetsUp machine env _)
  simp only [activationAt, activate, Run.bind_apply]
  cases hr : (requestCapabilities machine env (configure settings w).2).1 with
  | error failure => exact hasked
  | ok _ =>
    have hstarted := (hasked.then_advance .interfaceBound).then_setsUp
      (startEvents_onlySetsUp machine env .routed _)
    dsimp only [Run.bind_apply]
    cases hs : (startEvents machine env .routed (advancePhase .interfaceBound
        (requestCapabilities machine env (configure settings w).2).2).2).1 with
    | error failure => exact hstarted
    | ok _ => exact (hstarted.then_advance .watching).then_setsUp (.report ..)

/-- Attaching changes the agent by the activation it comes to, if it comes to one. -/
theorem attach_turns (options : String) (w : World σ) :
    Turns machine w (attach machine options w).2
      ((attachmentAt machine options w).elim w.agent w.agent.activated) := by
  have hbound := ((announce_onlySetsUp machine options w).trans
    (bindInterface_onlySetsUp machine _)).turns
  simp only [attachmentAt, attach, Run.bind_apply]
  cases hb : (bindInterface machine (announce options w).2).1 with
  | error failure => exact hbound
  | ok env =>
    have hactivated := hbound.trans (activate_turns machine env (announce options w).1 _)
    rw [hbound.agent_eq] at hactivated
    exact hactivated

theorem load_turns (options : String) (w : World σ) :
    Turns machine w (load machine options w).2
      ((attachmentAt machine options w).elim w.agent w.agent.activated) := by
  have h := attach_turns machine options w
  simp only [load, Run.bind_apply]
  cases (attach machine options w).1 <;> exact h.then_setsUp (.report ..)

/-! ## Prepared classes -/

/-- An agent after a class-prepare. -/
def Agent.prepared (agent : Agent) (outcome : Outcome) : Agent :=
  { agent with
    target := agent.target.after outcome
    phase := match outcome with
      | .installed _ => (agent.phase.advance .installed).2
      | _ => agent.phase }

/-- Only the phase of the agent moves, and a log record may say so. -/
theorem noteInstalled_dialogue (env : Env) (outcome : Outcome) (w : World σ) :
    Dialogue machine env w [] { (noteInstalled outcome w).2 with agent := w.agent } ∧
      (noteInstalled outcome w).2.agent =
        { w.agent with
          phase := match outcome with
            | .installed _ => (w.agent.phase.advance .installed).2
            | _ => w.agent.phase } := by
  cases outcome with
  | installed method =>
    simp only [noteInstalled, Run.bind_apply]
    have hd : Dialogue machine env w [] _ :=
      .report .debug .agent ("phase " ++ Phase.installed.name) w
    split
    · exact ⟨hd, rfl⟩
    · exact ⟨.silence w, rfl⟩
  | _ => exact ⟨.silence w, rfl⟩

/-- Preparing a class does nothing before the first activation; afterwards it is a visit for the
marker of the settings. -/
theorem classPrepared_visit (env : Env) (klass : ClassId) (w : World σ) :
    w.agent.settings = none ∧ classPrepared machine env klass w = (.notTarget, w) ∨
    ∃ settings calls, w.agent.settings = some settings ∧
      Visit klass settings.marker calls (classPrepared machine env klass w).1 ∧
      Dialogue machine env w calls { (classPrepared machine env klass w).2 with agent := w.agent } ∧
      (classPrepared machine env klass w).2.agent =
        w.agent.prepared (classPrepared machine env klass w).1 := by
  simp only [classPrepared, Run.bind_apply, Run.get_apply]
  cases hs : w.agent.settings with
  | none => exact .inl ⟨rfl, rfl⟩
  | some settings =>
    obtain ⟨calls, hv, hl⟩ := watchClass_visit machine env klass settings.marker w
    obtain ⟨hd, ha⟩ := noteInstalled_dialogue machine env
      (watchClass machine env klass settings.marker w).1
      (watchClass machine env klass settings.marker w).2
    have hboth := hl.dialogue.trans (hd.withAgent w.agent)
    rw [List.append_nil] at hboth
    dsimp only [Run.bind_apply, Run.pure_apply]
    refine .inr ⟨settings, calls, rfl, hv, hboth, ?_⟩
    rw [ha, hl.agent_eq]
    rfl

end

end Rendezvous
