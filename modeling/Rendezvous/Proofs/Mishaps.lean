import Rendezvous.Proofs.Alarms

/-!
# Failures are reported once

A mishap is something that the agent must report as a warning or an error. The mishaps of a run are
told without looking at the log: from the options, the state of the agent, the replies of the
machine and the ends of hooks. A run raises as many alarms as it has mishaps, so that nothing is
reported twice, or not at all, and no success raises an alarm.
-/

namespace Rendezvous

variable {σ : Type}

inductive Mishap where
  | rejectedOption (rejected : Rejected)
  /-- An agent that has settings has been activated again. -/
  | repeatedActivation
  | failedLoad
  /-- The marker class could not be dealt with. -/
  | missedMarker (outcome : Outcome)
  | failedRelease
  | panickedHook (arrival : Arrival)
  deriving DecidableEq, Repr

/-! ## The mishaps of a run -/

/-- The mishap of an activation. -/
def World.activationMishaps (w : World σ) : List Mishap :=
  if w.agent.settings.isSome then [.repeatedActivation] else []

section

variable (machine : Machine σ)

/-- The mishaps of attaching: rejected options, and the one of the activation that it comes to. -/
def attachmentMishaps (options : String) (w : World σ) : List Mishap :=
  (Settings.parse options).2.map .rejectedOption ++
    (attachmentAt machine options w).elim [] fun _ => w.activationMishaps

def loadMishaps (options : String) (w : World σ) : List Mishap :=
  attachmentMishaps machine options w ++
    if (load machine options w).1 = Status.failure then [.failedLoad] else []

/-- How many of the buffers lent to a class-prepare the machine has not taken back by its end. -/
def failedReleases (env : Env) (klass : ClassId) (w : World σ) : Nat :=
  notTakenBack (callsSince w (classPrepared machine env klass w).2)

/-- The mishaps of a class-prepare: an outcome to be warned of, and failed releases. -/
def preparationMishaps (env : Env) (klass : ClassId) (w : World σ) : List Mishap :=
  (if (classPrepared machine env klass w).1.isMissed (getClassSignature machine env klass w).1.isOk
    then [.missedMarker (classPrepared machine env klass w).1] else []) ++
    List.replicate (failedReleases machine env klass w) .failedRelease

/-- The mishaps of an operation that reaches the agent of a world, but not its hook. -/
def Operation.directMishaps (w : World σ) : Operation → List Mishap
  | .attach options => attachmentMishaps machine options w
  | .load options => loadMishaps machine options w
  | .activate _ _ => w.activationMishaps
  | .classPrepared env klass => preparationMishaps machine env klass w
  | _ => []

def Operation.mishaps (w : World σ) (op : Operation) : List Mishap :=
  (op.route w.registration).elim [] fun (subject, direct) =>
    direct.directMishaps machine (w.seenBy subject)

mutual

/-- An operation that enters the hook has the mishaps of what the hook does, and one more if the
hook panics. -/
def Act.mishaps : Act → World σ → List Mishap
  | .operation op inside ending, w =>
    match op.arrival? w with
    | none => op.mishaps machine w
    | some arrival =>
      mishapsOf inside (w.entering arrival) ++
        match ending with
        | .returned => []
        | .panicked => [.panickedHook arrival]
  | .record _, _ => []

def mishapsOf : List Act → World σ → List Mishap
  | [], _ => []
  | act :: rest, w => act.mishaps w ++ mishapsOf rest (act.run machine w).2

end

end

mutual

/-- Whether the records of other code are no alarms, at any depth. -/
def Act.isQuiet : Act → Bool
  | .operation _ inside _ => areQuiet inside
  | .record record => !record.level.isAlarm

def areQuiet : List Act → Bool
  | [] => true
  | act :: rest => act.isQuiet && areQuiet rest

end

/-! ## One operation -/

section

variable (machine : Machine σ) {w w' : World σ}

/-- From one world to another so many alarms are raised. -/
def Raises (w w' : World σ) (mishaps : List Mishap) : Prop :=
  alarmsIn w'.journal = alarmsIn w.journal + mishaps.length

theorem Gains.raises {mishaps : List Mishap} {gain : Int} (h : Gains Call.weightless w w' gain)
    (hgain : gain = mishaps.length) : Raises w w' mishaps := by
  rw [gains_weightless, hgain] at h
  rw [Raises]
  omega

theorem Gains.raises_nothing (h : Gains Call.weightless w w' 0) : Raises w w' [] := h.raises rfl

theorem World.repeats_eq (w : World σ) : w.repeats = w.activationMishaps.length := by
  rw [World.repeats, World.activationMishaps]
  split <;> rfl

theorem activate_raises (env : Env) (settings : Settings) (w : World σ) :
    Raises w (activate machine env settings w).2 w.activationMishaps :=
  (activate_gains machine env settings w).raises w.repeats_eq

theorem attachmentMishaps_length (options : String) (w : World σ) :
    ((attachmentMishaps machine options w).length : Int) = (Settings.parse options).2.length +
      (attachmentAt machine options w).elim 0 fun _ => w.repeats := by
  rw [attachmentMishaps, List.length_append, List.length_map, Int.natCast_add]
  cases attachmentAt machine options w with
  | none => rfl
  | some activation => rw [Option.elim_some, Option.elim_some, World.repeats_eq]

theorem attach_raises (options : String) (w : World σ) :
    Raises w (attach machine options w).2 (attachmentMishaps machine options w) :=
  (attach_gains machine options w).raises (attachmentMishaps_length machine options w).symm

theorem load_raises (options : String) (w : World σ) :
    Raises w (load machine options w).2 (loadMishaps machine options w) := by
  refine (load_gains machine options w).raises ?_
  rw [loadMishaps, List.length_append, Int.natCast_add, attachmentMishaps_length]
  split <;> rfl

/-- The calls of a class-prepare that reach the machine lend the same as those attempted, and take
back as much, but for the releases that fail. -/
theorem classPrepared_failedReleases {env : Env} {klass : ClassId} {marker : Marker}
    {calls : List Call} {outcome : Outcome} (hv : Visit klass marker calls outcome)
    (hd : Dialogue machine env w calls { w' with agent := w.agent }) :
    (callsSince w w').countP Call.takesBack + calls.countP Call.releaseFails =
      ((callsSince w w').flatMap Call.lent).length := by
  have failed : ∀ call s, True → Unmade machine env call s → call.failure? ≠ none := by
    intro call s _ hu
    cases hu with
    | invalid _ hf => simp [hf]
    | missing _ _ _ hf => simp [hf]
  obtain ⟨made, hc, hwithout⟩ := hd.made (fun _ _ _ _ => id) failed trivial
  have hsince : Since w w' made := .of_course hc rfl
  obtain ⟨hlent, htaken⟩ := hwithout.lent_eq fun _ => id
  rw [hsince.callsSince_eq, hlent, htaken]
  exact hv.settled.failed_releases

/-- The failed releases of a class-prepare are those that its visit attempts. -/
theorem failedReleases_eq {env : Env} {klass : ClassId} {settings : Settings}
    (hs : w.agent.settings = some settings) :
    ∃ calls, Visit klass settings.marker calls (classPrepared machine env klass w).1 ∧
      Dialogue machine env w calls
        { (classPrepared machine env klass w).2 with agent := w.agent } ∧
      failedReleases machine env klass w = calls.countP Call.releaseFails := by
  rcases classPrepared_visit machine env klass w with ⟨hnone, -⟩ | ⟨found, calls, hf, hv, hd, -⟩
  · rw [hs] at hnone
    cases hnone
  · rw [hs, Option.some.injEq] at hf
    subst hf
    refine ⟨calls, hv, hd, ?_⟩
    have hcount := classPrepared_failedReleases machine hv hd
    rw [failedReleases, notTakenBack]
    omega

theorem takesBack_le_lent (env : Env) (klass : ClassId) (w : World σ) :
    (callsSince w (classPrepared machine env klass w).2).countP Call.takesBack ≤
      ((callsSince w (classPrepared machine env klass w).2).flatMap Call.lent).length := by
  rcases classPrepared_visit machine env klass w with ⟨-, hrests⟩ | ⟨_, calls, -, hv, hd, -⟩
  · rw [hrests, (Since.refl w).callsSince_eq]
    exact Nat.le_refl 0
  · exact Nat.le.intro (classPrepared_failedReleases machine hv hd)

theorem classPrepared_raises (env : Env) (klass : ClassId) (w : World σ) :
    Raises w (classPrepared machine env klass w).2 (preparationMishaps machine env klass w) := by
  have hgains := classPrepared_gains machine env klass w
  have hle := takesBack_le_lent machine env klass w
  have hdoes : Does machine w (classPrepared machine env klass w).2 _ :=
    classPrepared_does env klass w
  obtain ⟨calls, hcourse⟩ := hdoes.course
  have hsince : Since w (classPrepared machine env klass w).2 calls := .of_course hcourse rfl
  have hsame := hsince.callsSince_eq
  obtain ⟨entries, hj, hcalls⟩ := hsince
  have hlength : ((preparationMishaps machine env klass w).length : Int) =
      (classPrepared machine env klass w).1.gain (getClassSignature machine env klass w).1.isOk +
        notTakenBack calls := by
    rw [preparationMishaps, failedReleases, hsame, List.length_append, List.length_replicate,
      Int.natCast_add, Outcome.gain]
    split <;> rfl
  -- A lent buffer weighs against an alarm, so each one that is not taken back leaves one alarm.
  rw [hsame] at hle
  rw [Gains, hj, weightOf_append, weightOf_eq _ entries, totalOf_surplus, hcalls] at hgains
  rw [notTakenBack] at hlength
  rw [Raises, hj, alarmsIn_append]
  omega

theorem Raises.seen {v v' : World σ} {mishaps others : List Mishap} (h : Raises v v' mishaps)
    (hw : w.journal = v.journal) (hw' : w'.journal = v'.journal) (hm : others = mishaps) :
    Raises w w' others := by
  rw [Raises, hw, hw', hm]
  exact h

theorem ignored_raises {hit : Hit} (h : w.arrival? hit = none) (hook : Hook σ) :
    Raises w (breakpointHit hook hit w).2 [] := by
  rw [breakpointHit_of_no_arrival h]
  exact (Gains.quiet rfl ..).raises_nothing

theorem logged_raises (hit : Hit) (w : World σ) :
    Raises w (breakpointHit Hook.logging hit w).2 [] := by
  cases ha : w.arrival? hit with
  | none => exact ignored_raises ha Hook.logging
  | some arrival =>
    obtain ⟨ht, rfl⟩ := World.arrival?_eq_some.mp ha
    simp only [breakpointHit, Run.bind_apply, Run.get_apply, ht, if_true]
    have hcounted : Gains Call.weightless w (countHit w).2 0 := .of_journal_eq rfl
    exact (hcounted.then_nothing (.quiet rfl ..)).raises_nothing

/-- Unless it enters the own agent's hook, an operation raises an alarm for each of its mishaps. -/
theorem Operation.raises (machine : Machine σ) (op : Operation) (hook : Hook σ) (w : World σ)
    (h : op.arrival? w = none) : Raises w (op.run machine hook w).2 (op.mishaps machine w) := by
  have hnothing : ∀ v : World σ, Raises v v [] := fun v => (Gains.refl v).raises_nothing
  have hunload : ∀ v : World σ, Raises v ((Rendezvous.unload : Run σ Unit) v).2 [] :=
    fun v => (unload_gains v).raises_nothing
  cases op with
  | attach options => exact (attach_raises machine options w).seen rfl rfl rfl
  | load options => exact (load_raises machine options w).seen rfl rfl rfl
  | unload => exact (hunload w).seen rfl rfl rfl
  | activate env settings => exact (activate_raises machine env settings w).seen rfl rfl rfl
  | classPrepared env klass => exact (classPrepared_raises machine env klass w).seen rfl rfl rfl
  | breakpointHit hit => exact (ignored_raises h hook).seen rfl rfl rfl
  | registerIdle =>
    obtain ⟨agent, registration, s, logger, journal⟩ := w
    cases registration <;> exact (hnothing ⟨agent, _, s, logger, journal⟩).seen rfl rfl rfl
  | loadAgent options =>
    obtain ⟨agent, registration, s, logger, journal⟩ := w
    cases registration with
    | vacant =>
      exact (load_raises machine (optionsText options) ⟨.fresh, .itself, s, logger, journal⟩).seen
        rfl rfl rfl
    | _ => exact (hnothing ⟨agent, _, s, logger, journal⟩).seen rfl rfl rfl
  | unloadAgent =>
    obtain ⟨agent, registration, s, logger, journal⟩ := w
    cases registration with
    | itself => exact (hunload ⟨agent, .itself, s, logger, journal⟩).seen rfl rfl rfl
    | another other => exact (hunload ⟨other, .itself, s, logger, journal⟩).seen rfl rfl rfl
    | _ => exact (hnothing ⟨agent, _, s, logger, journal⟩).seen rfl rfl rfl
  | deliverClassPrepared env klass =>
    obtain ⟨agent, registration, s, logger, journal⟩ := w
    cases registration with
    | itself =>
      exact (classPrepared_raises machine env klass ⟨agent, .itself, s, logger, journal⟩).seen
        rfl rfl rfl
    | another other =>
      exact (classPrepared_raises machine env klass ⟨other, .itself, s, logger, journal⟩).seen
        rfl rfl rfl
    | _ => exact (hnothing ⟨agent, _, s, logger, journal⟩).seen rfl rfl rfl
  | deliverBreakpointHit hit =>
    obtain ⟨agent, registration, s, logger, journal⟩ := w
    cases registration with
    | itself => exact (ignored_raises h hook).seen rfl rfl rfl
    | another other =>
      exact (logged_raises hit ⟨other, .itself, s, logger, journal⟩).seen rfl rfl rfl
    | _ => exact (hnothing ⟨agent, _, s, logger, journal⟩).seen rfl rfl rfl

/-! ## Whole runs -/

theorem Raises.trans {w₁ : World σ} {mishaps others : List Mishap} (h : Raises w w₁ mishaps)
    (h' : Raises w₁ w' others) : Raises w w' (mishaps ++ others) := by
  rw [Raises] at *
  rw [List.length_append]
  omega

theorem entering_raises (w : World σ) (arrival : Arrival) : Raises w (w.entering arrival) [] := by
  simp [Raises, World.entering, alarmsIn, Entry.isAlarm]

mutual

theorem Act.raises : ∀ (act : Act) (w : World σ), act.isQuiet = true →
    Raises w (act.run machine w).2 (act.mishaps machine w)
  | .operation op inside ending, w, hquiet => by
    simp only [Act.run, Act.mishaps, Run.bind_apply, Run.pure_apply]
    cases ha : op.arrival? w with
    | none => exact op.raises machine _ w ha
    | some arrival =>
      have hinside := (entering_raises w arrival).trans
        (acts_raise inside (w.entering arrival) (by simpa only [Act.isQuiet] using hquiet))
      rw [Operation.run_of_arrival ha]
      cases ending with
      | returned => exact hinside.trans (Gains.refl _).raises_nothing
      | panicked =>
        have hpanicked : Raises (runActs machine inside (w.entering arrival)).2
            (concludeHit arrival.sequence .panicked
              (runActs machine inside (w.entering arrival)).2).2 [.panickedHook arrival] :=
          Gains.raises (.alarm rfl ..) rfl
        exact hinside.trans hpanicked
  | .record record, w, hquiet => by
    have hlevel : record.level.isAlarm = false := by simpa [Act.isQuiet] using hquiet
    exact (Gains.quiet hlevel ..).raises_nothing

theorem acts_raise : ∀ (acts : List Act) (w : World σ), areQuiet acts = true →
    Raises w (runActs machine acts w).2 (mishapsOf machine acts w)
  | [], w, _ => (Gains.refl w).raises_nothing
  | act :: rest, w, hquiet => by
    obtain ⟨hact, hrest⟩ : act.isQuiet = true ∧ areQuiet rest = true := by
      simpa [areQuiet] using hquiet
    exact (act.raises w hact).trans (acts_raise rest (act.run machine w).2 hrest)

end

/-! ## Successes -/

/-- The journal has only grown, and all records in it since are alarms. -/
def OnlyAlarms (w w' : World σ) : Prop :=
  ∃ entries, w'.journal = w.journal ++ entries ∧
    ∀ entry ∈ entries, entry.isLog = true → entry.isAlarm = true

variable {machine}

theorem OnlyAlarms.refl (w : World σ) : OnlyAlarms w w := ⟨[], by simp⟩

theorem OnlyAlarms.trans {w₁ : World σ} (h : OnlyAlarms w w₁) (h' : OnlyAlarms w₁ w') :
    OnlyAlarms w w' := by
  obtain ⟨entries, hj, halarms⟩ := h
  obtain ⟨others, hj', halarms'⟩ := h'
  exact ⟨entries ++ others, by rw [hj', hj, List.append_assoc],
    List.forall_mem_append.mpr ⟨halarms, halarms'⟩⟩

theorem OnlyAlarms.attempt {env : Env} {call : Call} (h : Attempt machine env call w w') :
    OnlyAlarms w w' := by
  cases h with
  | made _ _ _ _ => exact ⟨[.call call], rfl, by simp [Entry.isLog]⟩
  | unmade _ => exact .refl w

theorem OnlyAlarms.alarm {level : Log.Level} (hl : level.isAlarm = true)
    (component : Log.Component) (text : String) (w : World σ) :
    OnlyAlarms w (report level component text w).2 :=
  ⟨[.log ⟨level, component, text⟩], rfl, by simp [Entry.isAlarm, hl]⟩

theorem release_onlyAlarms (env : Env) (what : String) (address : Address) (w : World σ) :
    OnlyAlarms w (release machine env what address w).2 := by
  have hback : OnlyAlarms w (deallocate machine env address w).2 := by
    cases address with
    | null => exact .refl w
    | buffer number =>
      have hrecords : Records machine .deallocate (machine.deallocate (.buffer number))
        (.deallocate (.buffer number)) := {}
      exact .attempt (callService_attempt machine env hrecords w)
    | stray =>
      have hrecords : Records machine .deallocate (machine.deallocate .stray)
        (.deallocate .stray) := {}
      exact .attempt (callService_attempt machine env hrecords w)
  simp only [release, Run.bind_apply]
  cases (deallocate machine env address w).1 with
  | ok _ => exact hback
  | error failure => exact hback.trans (.alarm rfl ..)

theorem isTargetClass_onlyAlarms (env : Env) (klass : ClassId) (marker : Marker) (w : World σ) :
    OnlyAlarms w (isTargetClass machine env klass marker w).2 := by
  have hasked := OnlyAlarms.attempt (getClassSignature_attempt machine env klass w)
  simp only [isTargetClass, Run.bind_apply]
  cases (getClassSignature machine env klass w).1 with
  | error failure => exact hasked
  | ok text => exact hasked.trans (release_onlyAlarms env "string" _ _)

theorem watchMarkerClass_ne_notTarget (env : Env) (klass : ClassId) (marker : Marker)
    (w : World σ) : (watchMarkerClass machine env klass marker w).1 ≠ .notTarget := by
  simp only [watchMarkerClass, Run.bind_apply]
  generalize (report .info .watcher ("class " ++ marker.classSignature ++ " prepared") w).2 = w₁
  cases (findMethod machine env klass marker w₁).1 with
  | error failure => simp
  | ok found =>
    cases found with
    | none => simp
    | some method =>
      rcases armMarker_looked machine env marker method
        (findMethod machine env klass marker w₁).2 with ⟨ho, -⟩ | ⟨failure, ho, -⟩
      · simp [ho]
      · simp [ho]

/-- Looking at another class than the marker's leaves no record, unless a release fails. -/
theorem notTarget_onlyAlarms {env : Env} {klass : ClassId}
    (h : (classPrepared machine env klass w).1 = .notTarget) :
    OnlyAlarms w (classPrepared machine env klass w).2 := by
  simp only [classPrepared, Run.bind_apply, Run.get_apply] at h ⊢
  cases hs : w.agent.settings with
  | none => exact .refl w
  | some settings =>
    have hread : OnlyAlarms w (isTargetClass machine env klass settings.marker w).2 :=
      isTargetClass_onlyAlarms env klass settings.marker w
    simp only [hs, watchClass, Run.bind_apply] at h ⊢
    cases ht : (isTargetClass machine env klass settings.marker w).1 with
    | error failure =>
      simp only [ht] at h
      cases h
    | ok isTarget =>
      cases isTarget with
      | false => exact hread
      | true =>
        simp only [ht, Run.pure_apply] at h
        exact absurd h (watchMarkerClass_ne_notTarget env klass settings.marker _)

theorem notTarget_unlogged {env : Env} {klass : ClassId}
    (h : (classPrepared machine env klass w).1 = .notTarget)
    (hback : failedReleases machine env klass w = 0) :
    ∃ entries, (classPrepared machine env klass w).2.journal = w.journal ++ entries ∧
      ∀ entry ∈ entries, entry.isLog = false := by
  obtain ⟨entries, hj, halarms⟩ := notTarget_onlyAlarms h
  have hraises := classPrepared_raises machine env klass w
  rw [Raises, preparationMishaps, h, hback, hj, alarmsIn_append] at hraises
  have hnone : alarmsIn entries = 0 := by simpa [Outcome.isMissed] using hraises
  refine ⟨entries, hj, fun entry hmem => ?_⟩
  have hquiet := List.countP_eq_zero.mp hnone entry hmem
  cases hlog : entry.isLog with
  | false => rfl
  | true => exact absurd (halarms entry hmem hlog) hquiet

theorem ignored_logged {hook : Hook σ} {hit : Hit}
    (h : (breakpointHit hook hit w).1 = .ignored) :
    ∃ text, (breakpointHit hook hit w).2.journal =
      w.journal ++ [.log ⟨.trace, .dispatcher, text⟩] := by
  cases ha : w.arrival? hit with
  | none =>
    rw [breakpointHit_of_no_arrival ha]
    exact ⟨_, rfl⟩
  | some arrival =>
    obtain ⟨ht, -⟩ := World.arrival?_eq_some.mp ha
    simp only [breakpointHit, Run.bind_apply, Run.get_apply, ht, if_true] at h
    cases he : (hook { hit with sequence := (countHit w).1 } (countHit w).2).1 <;>
      simp [he, concludeHit] at h

end

/-- Every failure is reported exactly once, and successes raise no alarm. A run in which no other
code raises alarms raises one for each rejected option, each activation of an agent that has
settings, each failed load, each class-prepare that could not deal with the marker class, each
failed release and each panic of a hook, at any depth. The failed releases of a class-prepare are
those among its attempted calls. An ignored hit leaves a record at the lowest level, and a
class-prepare of another class leaves none if its release does not fail. -/
theorem failures_are_reported_once (machine : Machine σ) (acts : List Act)
    (hquiet : areQuiet acts = true) (w : World σ) :
    alarmsIn (runActs machine acts w).2.journal =
        alarmsIn w.journal + (mishapsOf machine acts w).length ∧
      (∀ env klass (v : World σ) settings, v.agent.settings = some settings →
        ∃ calls, Visit klass settings.marker calls (classPrepared machine env klass v).1 ∧
          Dialogue machine env v calls
            { (classPrepared machine env klass v).2 with agent := v.agent } ∧
          failedReleases machine env klass v = calls.countP Call.releaseFails) ∧
      (∀ hook hit (v : World σ), (breakpointHit hook hit v).1 = .ignored →
        ∃ text, (breakpointHit hook hit v).2.journal =
          v.journal ++ [.log ⟨.trace, .dispatcher, text⟩]) ∧
      ∀ env klass (v : World σ), (classPrepared machine env klass v).1 = .notTarget →
        failedReleases machine env klass v = 0 →
        ∃ entries, (classPrepared machine env klass v).2.journal = v.journal ++ entries ∧
          ∀ entry ∈ entries, entry.isLog = false :=
  ⟨acts_raise machine acts w hquiet, fun _ _ _ _ hs => failedReleases_eq machine hs,
    fun _ _ _ => ignored_logged, fun _ _ _ => notTarget_unlogged⟩

section

open Simulation Host

/-- A host that refuses the second release, the second setting of callbacks and every breakpoint. -/
def troubledStart : World Host :=
  ⟨.fresh, .itself, .start [markerClass ⟨1⟩ ⟨1⟩] .full
    (((FaultPlan.none.set (.service .deallocate) (.on ⟨103⟩ [2])).set
      (.service .setEventCallbacks) (.on ⟨112⟩ [2])).set (.service .setBreakpoint) (.always ⟨99⟩)),
    .present, []⟩

/-- Two loads, the first with an option that is rejected, the marker class, and a hit of the marker
method whose hook writes a record and panics. -/
def troubledActs : List Act :=
  [.operation (.load "bogus") [] .returned,
    .operation (.load "") [] .returned,
    .operation (.classPrepared .live ⟨1⟩) [] .returned,
    .operation (.breakpointHit ⟨.null, .null, ⟨1⟩, 0⟩) [.record ⟨.info, .agent, "stopped"⟩]
      .panicked]

/-- Everything that must be reported happens once in this run, and each time it is reported. -/
theorem failures_are_reported_once_troubled :
    areQuiet troubledActs = true ∧
      mishapsOf Host.machine troubledActs troubledStart =
        [.rejectedOption ⟨"bogus", .noEquals⟩, .repeatedActivation, .failedLoad,
          .missedMarker (.installFailed ⟨1⟩ ⟨⟨99⟩, by decide⟩), .failedRelease,
          .panickedHook ⟨⟨.null, .null, ⟨1⟩, 0⟩, 1⟩] ∧
      alarmsIn (runActs Host.machine troubledActs troubledStart).2.journal = 6 := by
  have hquiet : areQuiet troubledActs = true := by decide
  have hmishaps : mishapsOf Host.machine troubledActs troubledStart =
      [.rejectedOption ⟨"bogus", .noEquals⟩, .repeatedActivation, .failedLoad,
        .missedMarker (.installFailed ⟨1⟩ ⟨⟨99⟩, by decide⟩), .failedRelease,
        .panickedHook ⟨⟨.null, .null, ⟨1⟩, 0⟩, 1⟩] := by decide +kernel
  refine ⟨hquiet, hmishaps, ?_⟩
  rw [(failures_are_reported_once Host.machine troubledActs hquiet troubledStart).1, hmishaps]
  rfl

end

end Rendezvous
