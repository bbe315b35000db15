import Mathlib.Data.List.Forall2
import Rendezvous.Proofs.Dialogue
import Rendezvous.Proofs.Runs

/-!
# Two runs side by side

The same operations are carried out on two worlds, which may have different machines. The worlds are
alike if they are the same as far as a likeness looks: it may overlook parts of the settings, tell
machines and loggers apart only so far, and leave entries of the journal out. Two runs agree if from
alike worlds they come to the same answer and to alike worlds. Agreement passes from the calls of the
machine to every operation, and from there to every moment of a run with nested hooks.
-/

namespace Rendezvous

variable {σ τ : Type}

/-! ## Likeness -/

/-- What is looked at in comparing two worlds. -/
structure Likeness (σ τ : Type) where
  /-- What is seen of settings. -/
  view : Settings → Settings
  machines : σ → τ → Prop
  loggers : Log.Logger → Log.Logger → Prop
  /-- Whether an entry of the journal counts. -/
  counts : Entry → Bool

/-- An agent, with what is seen of its settings. -/
def Agent.seen (agent : Agent) (view : Settings → Settings) : Agent :=
  { agent with settings := agent.settings.map view }

def Registration.seen (view : Settings → Settings) : Registration → Registration
  | .another agent => .another (agent.seen view)
  | registration => registration

structure Alike (l : Likeness σ τ) (w : World σ) (v : World τ) : Prop where
  agent : w.agent.seen l.view = v.agent.seen l.view
  registration : w.registration.seen l.view = v.registration.seen l.view
  machine : l.machines w.machine v.machine
  logger : l.loggers w.logger v.logger
  journal : w.journal.filter l.counts = v.journal.filter l.counts

/-- Loggers stay alike when both take a record, and when both are set up. -/
structure Likeness.Lawful (l : Likeness σ τ) : Prop where
  write : ∀ a b record, l.loggers a b → l.loggers (a.write record) (b.write record)
  init : ∀ a b filter, l.loggers a b → l.loggers (a.init filter).2 (b.init filter).2

theorem Agent.seen_eq_iff {a b : Agent} {view : Settings → Settings} :
    a.seen view = b.seen view ↔ a.settings.map view = b.settings.map view ∧
      a.phase = b.phase ∧ a.target = b.target ∧ a.hits = b.hits := by
  simp only [seen, mk.injEq]

theorem Agent.seen_id (agent : Agent) : agent.seen id = agent := by
  rw [seen, Option.map_id, id]

/-- From alike worlds, two runs come to the same answer and to alike worlds. -/
def Run.Agree (l : Likeness σ τ) {α : Type} (m : Run σ α) (n : Run τ α) : Prop :=
  ∀ w v, Alike l w v → (m w).1 = (n v).1 ∧ Alike l (m w).2 (n v).2

section

variable {l : Likeness σ τ} {w : World σ} {v : World τ}

namespace Alike

/-- Where all of the settings is seen, alike worlds have the same agent. -/
theorem agent_eq (h : Alike l w v) (hview : l.view = id) : w.agent = v.agent := by
  have hagent := h.agent
  rwa [hview, Agent.seen_id, Agent.seen_id] at hagent

theorem settings (h : Alike l w v) :
    w.agent.settings.map l.view = v.agent.settings.map l.view := (Agent.seen_eq_iff.mp h.agent).1

theorem phase (h : Alike l w v) : w.agent.phase = v.agent.phase := (Agent.seen_eq_iff.mp h.agent).2.1

theorem target (h : Alike l w v) : w.agent.target = v.agent.target :=
  (Agent.seen_eq_iff.mp h.agent).2.2.1

theorem hits (h : Alike l w v) : w.agent.hits = v.agent.hits := (Agent.seen_eq_iff.mp h.agent).2.2.2

/-- Alike worlds stay so with other agents that are seen alike. -/
theorem withAgents (h : Alike l w v) {a b : Agent} (ha : a.seen l.view = b.seen l.view) :
    Alike l { w with agent := a } { v with agent := b } := { h with agent := ha }

theorem withRegistrations (h : Alike l w v) {a b : Registration}
    (hr : a.seen l.view = b.seen l.view) :
    Alike l { w with registration := a } { v with registration := b } := { h with registration := hr }

theorem note (h : Alike l w v) (entry : Entry) :
    Alike l (note entry w).2 (Rendezvous.note entry v).2 := by
  refine { h with journal := ?_ }
  simp only [Rendezvous.note, Run.modify_apply, List.filter_append, h.journal]

theorem report (h : Alike l w v) (hl : l.Lawful) (level : Log.Level) (component : Log.Component)
    (text : String) :
    Alike l (report level component text w).2 (Rendezvous.report level component text v).2 :=
  { h.note (.log ⟨level, component, text⟩) with logger := hl.write _ _ _ h.logger }

theorem init (h : Alike l w v) (hl : l.Lawful) (filter : Option String) :
    Alike l (initLogger filter w).2 (initLogger filter v).2 :=
  { h with logger := hl.init _ _ filter h.logger }

theorem arrival?_eq (h : Alike l w v) (hit : Hit) : w.arrival? hit = v.arrival? hit := by
  simp only [World.arrival?, h.target, h.hits]

/-- The own agent is registered in both worlds, or in neither. -/
theorem itself_iff (h : Alike l w v) : w.registration = .itself ↔ v.registration = .itself := by
  have hr := h.registration
  cases hw : w.registration <;> cases hv : v.registration <;>
    simp_all [Registration.seen]

theorem operation_arrival?_eq (h : Alike l w v) (op : Operation) :
    op.arrival? w = op.arrival? v := by
  cases op with
  | breakpointHit hit => exact h.arrival?_eq hit
  | deliverBreakpointHit hit =>
    have hi := h.itself_iff
    simp only [Operation.arrival?]
    split <;> split <;> simp_all [h.arrival?_eq hit]
  | _ => rfl

theorem entering (h : Alike l w v) (arrival : Arrival) :
    Alike l (w.entering arrival) (v.entering arrival) := by
  have ha : { w.agent with hits := arrival.sequence }.seen l.view =
      { v.agent with hits := arrival.sequence }.seen l.view :=
    Agent.seen_eq_iff.mpr ⟨h.settings, h.phase, h.target, rfl⟩
  exact (h.withAgents ha).note (.arrival arrival)

end Alike

/-! ## Agreement -/

namespace Run.Agree

variable {α β : Type}

theorem pure (a : α) : Agree l (pure a) (pure a) := fun _ _ h => ⟨rfl, h⟩

theorem bind {m : Run σ α} {n : Run τ α} {f : α → Run σ β} {g : α → Run τ β} (hm : Agree l m n)
    (hf : ∀ a, Agree l (f a) (g a)) : Agree l (m >>= f) (n >>= g) := by
  intro w v h
  obtain ⟨he, hthen⟩ := hm w v h
  simp only [Run.bind_apply, he]
  exact hf _ _ _ hthen

/-- What two runs read of alike worlds, they may go on by. -/
theorem get {f : World σ → Run σ α} {g : World τ → Run τ α}
    (h : ∀ w v, Alike l w v → Agree l (f w) (g v)) : Agree l (get >>= f) (MonadState.get >>= g) :=
  fun w v hw => h w v hw w v hw

theorem report (hl : l.Lawful) (level : Log.Level) (component : Log.Component) (text : String) :
    Agree l (Rendezvous.report level component text) (Rendezvous.report level component text) :=
  fun _ _ h => ⟨rfl, h.report hl level component text⟩

theorem note (entry : Entry) : Agree l (Rendezvous.note entry) (Rendezvous.note entry) :=
  fun _ _ h => ⟨rfl, h.note entry⟩

theorem updateAgent {f g : Agent → Agent}
    (h : ∀ a b, a.seen l.view = b.seen l.view → (f a).seen l.view = (g b).seen l.view) :
    Agree l (Rendezvous.updateAgent f) (Rendezvous.updateAgent g) :=
  fun _ _ hw => ⟨rfl, hw.withAgents (h _ _ hw.agent)⟩

theorem advancePhase (phase : Phase) :
    Agree l (Rendezvous.advancePhase phase) (Rendezvous.advancePhase phase) := by
  intro w v h
  refine ⟨by rw [Rendezvous.advancePhase, Rendezvous.advancePhase, h.phase], h.withAgents ?_⟩
  exact Agent.seen_eq_iff.mpr ⟨h.settings, by rw [h.phase], h.target, h.hits⟩

end Run.Agree

end

/-! ## The services -/

/-- A way to enter calls into the journal that says exactly how the service is asked. -/
structure Speaks (machine : Machine σ) (service : Service) {α : Type} (ask : σ → Reply α × σ)
    (entry : Reply α → Call) : Prop extends Records machine service ask entry where
  only : ∀ reply s s', machine.Answers (entry reply) s s' → ask s = (reply, s') := by
    intro _ _ _ h; exact h

/-- Asked alike through two environments, the services of two machines agree. -/
structure Echoes (l : Likeness σ τ) (m : Machine σ) (env : Env) (n : Machine τ) (env' : Env) :
    Prop where
  calls : ∀ {α : Type} {service : Service} {ask : σ → Reply α × σ} {ask' : τ → Reply α × τ}
    {entry : Reply α → Call}, service ≠ .deallocate → Speaks m service ask entry →
    Speaks n service ask' entry →
    Run.Agree l (callService m env service ask entry) (callService n env' service ask' entry)
  release : ∀ what address, Run.Agree l (release m env what address) (release n env' what address)

/-- Two machines that agree about all that operations ask of them. -/
structure Parallel (l : Likeness σ τ) (m : Machine σ) (n : Machine τ) : Prop extends l.Lawful where
  environment : ∀ version, Run.Agree l (obtainEnv m version) (obtainEnv n version)
  echoes : ∀ env, Echoes l m env n env

section

variable {l : Likeness σ τ} {m : Machine σ} {n : Machine τ} {env env' : Env}

/-! ## Preparing a class -/

namespace Echoes

variable (h : Echoes l m env n env') (hl : l.Lawful)

include h

theorem releaseText (text : LentText) :
    Run.Agree l (releaseText m env text) (Rendezvous.releaseText n env' text) := h.release _ _

theorem releaseName (lent : LentName) :
    Run.Agree l (releaseName m env lent) (Rendezvous.releaseName n env' lent) :=
  .bind (h.releaseText _) fun _ => h.releaseText _

theorem isTargetClass (klass : ClassId) (marker : Marker) :
    Run.Agree l (isTargetClass m env klass marker)
      (Rendezvous.isTargetClass n env' klass marker) := by
  refine .bind (h.calls (by decide) {} {}) fun reply => ?_
  cases reply with
  | error failure => exact .pure _
  | ok text => exact .bind (h.releaseText text) fun _ => .pure _

include hl

theorem isMarkerMethod (marker : Marker) (method : MethodId) :
    Run.Agree l (isMarkerMethod m env marker method)
      (Rendezvous.isMarkerMethod n env' marker method) := by
  refine .bind (h.calls (by decide) {} {}) fun reply => ?_
  cases reply with
  | error failure => exact .bind (.report hl _ _ _) fun _ => .pure _
  | ok lent => exact .bind (h.releaseName lent) fun _ => .pure _

theorem firstMarkerMethod (marker : Marker) (methods : List MethodId) :
    Run.Agree l (firstMarkerMethod m env marker methods)
      (Rendezvous.firstMarkerMethod n env' marker methods) := by
  induction methods with
  | nil => exact .pure _
  | cons method rest ih =>
    refine .bind (h.isMarkerMethod hl marker method) fun found => ?_
    cases found with
    | true => exact .pure _
    | false => exact ih

theorem findMethod (klass : ClassId) (marker : Marker) :
    Run.Agree l (findMethod m env klass marker) (Rendezvous.findMethod n env' klass marker) := by
  refine .bind (h.calls (by decide) {} {}) fun reply => ?_
  cases reply with
  | error failure => exact .pure _
  | ok table =>
    exact .bind (h.firstMarkerMethod hl marker _) fun _ => .bind (h.release _ _) fun _ => .pure _

omit hl in
theorem arm (method : MethodId) (location : Int64) :
    Run.Agree l (arm m env method location) (Rendezvous.arm n env' method location) := by
  refine .bind (.updateAgent fun a b hab => ?_) fun _ => h.calls (by decide) {} {}
  obtain ⟨hs, hp, -, hh⟩ := Agent.seen_eq_iff.mp hab
  exact Agent.seen_eq_iff.mpr ⟨hs, hp, rfl, hh⟩

theorem armMarker (marker : Marker) (method : MethodId) :
    Run.Agree l (armMarker m env marker method) (Rendezvous.armMarker n env' marker method) := by
  refine .bind (.report hl _ _ _) fun _ => .bind (h.arm method _) fun reply => ?_
  cases reply <;> exact .bind (.report hl _ _ _) fun _ => .pure _

theorem watchMarkerClass (klass : ClassId) (marker : Marker) :
    Run.Agree l (watchMarkerClass m env klass marker)
      (Rendezvous.watchMarkerClass n env' klass marker) := by
  refine .bind (.report hl _ _ _) fun _ => .bind (h.findMethod hl klass marker) fun reply => ?_
  match reply with
  | .error failure => exact .bind (.report hl _ _ _) fun _ => .pure _
  | .ok none => exact .bind (.report hl _ _ _) fun _ => .pure _
  | .ok (some method) => exact h.armMarker hl marker method

theorem watchClass (klass : ClassId) (marker : Marker) :
    Run.Agree l (watchClass m env klass marker) (Rendezvous.watchClass n env' klass marker) := by
  refine .bind (h.isTargetClass klass marker) fun reply => ?_
  match reply with
  | .error failure => exact .bind (.report hl _ _ _) fun _ => .pure _
  | .ok false => exact .pure _
  | .ok true => exact h.watchMarkerClass hl klass marker

/-- Classes are prepared alike if alike settings have the same marker. -/
theorem classPrepared (hmarker : ∀ settings, (l.view settings).marker = settings.marker)
    (klass : ClassId) :
    Run.Agree l (classPrepared m env klass) (Rendezvous.classPrepared n env' klass) := by
  refine .get fun w v hw => ?_
  have hs := hw.settings
  cases hsw : w.agent.settings with
  | none =>
    cases hsv : v.agent.settings with
    | none => exact .pure _
    | some settings => simp [hsw, hsv] at hs
  | some settings =>
    cases hsv : v.agent.settings with
    | none => simp [hsw, hsv] at hs
    | some others =>
      have hview : l.view settings = l.view others := by simpa [hsw, hsv] using hs
      have he : settings.marker = others.marker := by rw [← hmarker, hview, hmarker]
      dsimp only
      rw [he]
      refine .bind (h.watchClass hl klass others.marker) fun outcome => .bind ?_ fun _ => .pure _
      cases outcome with
      | installed method =>
        refine .bind (.advancePhase .installed) fun moved => ?_
        cases moved with
        | true => exact .report hl _ _ _
        | false => exact .pure _
      | _ => exact .pure _

/-! ## Loading -/

omit h in
theorem configure {settings others : Settings} (hview : l.view settings = l.view others) :
    Run.Agree l (configure settings) (Rendezvous.configure others) := by
  refine .get fun w v hw => ?_
  have hs := hw.settings
  cases hsw : w.agent.settings with
  | none =>
    cases hsv : v.agent.settings with
    | none =>
      refine .updateAgent fun a b hab => ?_
      obtain ⟨-, hp, ht, hh⟩ := Agent.seen_eq_iff.mp hab
      exact Agent.seen_eq_iff.mpr ⟨congrArg some hview, hp, ht, hh⟩
    | some _ => simp [hsw, hsv] at hs
  | some _ =>
    cases hsv : v.agent.settings with
    | none => simp [hsw, hsv] at hs
    | some _ => exact .report hl _ _ _

theorem requestCapabilities :
    Run.Agree l (requestCapabilities m env) (Rendezvous.requestCapabilities n env') := by
  refine .bind (.report hl _ _ _) fun _ => .bind (h.calls (by decide) {} {}) fun reply => ?_
  cases reply <;> exact .pure _

theorem enableEvents (events : List Watched) :
    Run.Agree l (enableEvents m env events) (Rendezvous.enableEvents n env' events) := by
  induction events with
  | nil => exact .pure _
  | cons event rest ih =>
    refine .bind (h.calls (by decide) {} {}) fun reply => ?_
    cases reply with
    | error failure => exact .pure _
    | ok _ => exact .bind (.report hl _ _ _) fun _ => ih

theorem startEvents (callbacks : Callbacks) :
    Run.Agree l (startEvents m env callbacks) (Rendezvous.startEvents n env' callbacks) := by
  refine .bind (h.calls (by decide) {} {}) fun reply => ?_
  cases reply with
  | error failure => exact .pure _
  | ok _ => exact h.enableEvents hl _

theorem activate {settings others : Settings} (hview : l.view settings = l.view others) :
    Run.Agree l (activate m env settings) (Rendezvous.activate n env' others) := by
  refine .bind (configure hl hview) fun _ => .bind (h.requestCapabilities hl) fun result => ?_
  cases result with
  | error error => exact .pure _
  | ok _ =>
    refine .bind (.advancePhase _) fun _ => .bind (h.startEvents hl .routed) fun result => ?_
    cases result with
    | error error => exact .pure _
    | ok _ =>
      refine .bind (.advancePhase _) fun _ => .get fun w v hw => ?_
      rw [hw.phase]
      exact .bind (.report hl _ _ _) fun _ => .pure _

end Echoes

theorem Likeness.Lawful.reportRejected (hl : l.Lawful) (rejected : List Rejected) :
    Run.Agree l (reportRejected rejected) (Rendezvous.reportRejected rejected) := by
  induction rejected with
  | nil => exact .pure _
  | cons option rest ih => exact .bind (.report hl _ _ _) fun _ => ih

theorem Likeness.Lawful.announce (hl : l.Lawful) (options : String) :
    Run.Agree l (announce options) (Rendezvous.announce options) := by
  intro w v hw
  have hinit := hw.init hl (Settings.parse options).1.logFilter
  have hrejected := (hl.reportRejected (Settings.parse options).2 _ _ hinit).2
  exact ⟨rfl, hrejected.report hl _ _ _⟩

namespace Parallel

variable (h : Parallel l m n)

include h

theorem bindInterface : Run.Agree l (bindInterface m) (Rendezvous.bindInterface n) := by
  refine .bind (h.environment _) fun obtained => ?_
  cases obtained <;> exact .pure _

/-- Attaching agrees even with different options, as long as announcing them leaves alike worlds alike
and the settings they give are seen alike. -/
theorem attach {options others : String}
    (hview : l.view (Settings.parse options).1 = l.view (Settings.parse others).1)
    (hannounce : ∀ w v, Alike l w v → Alike l (announce options w).2 (announce others v).2) :
    Run.Agree l (attach m options) (Rendezvous.attach n others) := by
  intro w v hw
  obtain ⟨hbound, hthen⟩ := h.bindInterface _ _ (hannounce w v hw)
  simp only [Rendezvous.attach, Run.bind_apply, hbound]
  cases (Rendezvous.bindInterface n (announce others v).2).1 with
  | error error => exact ⟨rfl, hthen⟩
  | ok env => exact (h.echoes env).activate h.toLawful hview _ _ hthen

theorem load {options others : String}
    (hview : l.view (Settings.parse options).1 = l.view (Settings.parse others).1)
    (hannounce : ∀ w v, Alike l w v → Alike l (announce options w).2 (announce others v).2) :
    Run.Agree l (load m options) (Rendezvous.load n others) := by
  refine .bind (h.attach hview hannounce) fun result => ?_
  cases result <;> exact .bind (.report h.toLawful _ _ _) fun _ => .pure _

omit h in
theorem unload (hl : l.Lawful) : Run.Agree l unload Rendezvous.unload := by
  refine .get fun w v hw => ?_
  dsimp only
  rw [hw.phase, hw.hits]
  exact .report hl _ _ _

/-! ## Hits -/

omit h in
theorem breakpointHit (hl : l.Lawful) {hook : Hook σ} {hook' : Hook τ}
    (hhook : ∀ arrival, Run.Agree l (hook arrival) (hook' arrival)) (hit : Hit) :
    Run.Agree l (breakpointHit hook hit) (Rendezvous.breakpointHit hook' hit) := by
  refine .get fun w v hw => ?_
  rw [hw.target]
  split
  · refine .bind (fun w v hw => ?_) fun sequence => .bind (hhook _) fun ending => ?_
    · refine ⟨congrArg (· + 1) hw.hits, hw.withAgents ?_⟩
      exact Agent.seen_eq_iff.mpr ⟨hw.settings, hw.phase, hw.target, congrArg (· + 1) hw.hits⟩
    · cases ending with
      | returned => exact .pure _
      | panicked => exact .bind (.report hl _ _ _) fun _ => .pure _
  · exact .bind (.report hl _ _ _) fun _ => .pure _

omit h in
theorem logging (hl : l.Lawful) (arrival : Arrival) :
    Run.Agree l (Hook.logging arrival) (Hook.logging arrival) :=
  .bind (.report hl _ _ _) fun _ => .pure _

end Parallel

/-! ## Registered agents -/

/-- Registrations that are seen alike are of one kind. -/
inductive Registration.Same (view : Settings → Settings) : Registration → Registration → Prop where
  | vacant : Same view .vacant .vacant
  | itself : Same view .itself .itself
  | another {a b : Agent} : a.seen view = b.seen view → Same view (.another a) (.another b)
  | idle : Same view .idle .idle

theorem Alike.same {w : World σ} {v : World τ} (h : Alike l w v) :
    Registration.Same l.view w.registration v.registration := by
  have hr := h.registration
  revert hr
  generalize w.registration = a
  generalize v.registration = b
  intro hr
  cases a with
  | vacant =>
    cases b with
    | vacant => exact .vacant
    | _ => cases hr
  | itself =>
    cases b with
    | itself => exact .itself
    | _ => cases hr
  | another first =>
    cases b with
    | another second => exact .another (Registration.another.inj hr)
    | _ => cases hr
  | idle =>
    cases b with
    | idle => exact .idle
    | _ => cases hr

theorem Run.Agree.onAnother {α : Type} {a b : Agent} {first : Run σ α} {second : Run τ α}
    (hs : a.seen l.view = b.seen l.view) (h : Run.Agree l first second) :
    Run.Agree l (onAnother a first) (Rendezvous.onAnother b second) := by
  intro w v hw
  obtain ⟨he, hthen⟩ := h _ _ ((hw.withAgents hs).withRegistrations (a := .itself) (b := .itself) rfl)
  refine ⟨he, (hthen.withAgents hw.agent).withRegistrations ?_⟩
  exact congrArg Registration.another hthen.agent

theorem registerIdle_agree : Run.Agree l registerIdle registerIdle := by
  refine .get fun w v hw => ?_
  have hs := hw.same
  generalize w.registration = a at hs ⊢
  generalize v.registration = b at hs ⊢
  cases hs with
  | vacant =>
    exact .bind (fun _ _ hw => ⟨rfl, hw.withRegistrations rfl⟩) fun _ => .pure _
  | _ => exact .pure _

theorem Echoes.deliverClassPrepared (h : Echoes l m env n env') (hl : l.Lawful)
    (hmarker : ∀ settings, (l.view settings).marker = settings.marker) (klass : ClassId) :
    Run.Agree l (deliverClassPrepared m env klass)
      (Rendezvous.deliverClassPrepared n env' klass) := by
  refine .get fun w v hw => ?_
  have hs := hw.same
  generalize w.registration = a at hs ⊢
  generalize v.registration = b at hs ⊢
  have hprepared : Run.Agree l (do let _ ← Rendezvous.classPrepared m env klass)
      (do let _ ← Rendezvous.classPrepared n env' klass) :=
    .bind (h.classPrepared hl hmarker klass) fun _ => .pure _
  cases hs with
  | vacant => exact .pure _
  | itself => exact hprepared
  | another hseen => exact .onAnother hseen hprepared
  | idle => exact .pure _

/-! ## Operations -/

/-- Machines and likenesses for which all operations agree, those that prepare classes included. -/
structure Parallel.Full (l : Likeness σ τ) (m : Machine σ) (n : Machine τ) : Prop
    extends Parallel l m n where
  marker : ∀ settings, (l.view settings).marker = settings.marker

namespace Parallel.Full

variable (h : Parallel.Full l m n)

include h

theorem loadAgent (options : Option Text.Bytes) :
    Run.Agree l (loadAgent m options) (Rendezvous.loadAgent n options) := by
  refine .get fun w v hw => ?_
  have hs := hw.same
  generalize w.registration = a at hs ⊢
  generalize v.registration = b at hs ⊢
  cases hs with
  | vacant =>
    have hannounce := fun w v hw => (h.toLawful.announce (optionsText options) w v hw).2
    exact .onAnother rfl (h.load rfl hannounce)
  | _ => exact .pure _

omit h in
theorem unloadAgent (hl : l.Lawful) : Run.Agree l unloadAgent Rendezvous.unloadAgent := by
  refine .get fun w v hw => ?_
  have hs := hw.same
  generalize w.registration = a at hs ⊢
  generalize v.registration = b at hs ⊢
  cases hs with
  | vacant => exact .pure _
  | itself => exact unload hl
  | another hseen => exact .onAnother hseen (unload hl)
  | idle => exact .pure _

omit h in
theorem deliverBreakpointHit (hl : l.Lawful) {hook : Hook σ} {hook' : Hook τ}
    (hhook : ∀ arrival, Run.Agree l (hook arrival) (hook' arrival)) (hit : Hit) :
    Run.Agree l (deliverBreakpointHit hook hit) (Rendezvous.deliverBreakpointHit hook' hit) := by
  refine .get fun w v hw => ?_
  have hs := hw.same
  generalize w.registration = a at hs ⊢
  generalize v.registration = b at hs ⊢
  cases hs with
  | vacant => exact .pure _
  | itself => exact .bind (breakpointHit hl hhook hit) fun _ => .pure _
  | another hseen =>
    exact .onAnother hseen (.bind (breakpointHit hl (logging hl) hit) fun _ => .pure _)
  | idle => exact .pure _

/-- Every operation agrees, if what its hook does agrees. -/
theorem operation (op : Operation) {hook : Hook σ} {hook' : Hook τ}
    (hhook : ∀ arrival, Run.Agree l (hook arrival) (hook' arrival)) :
    Run.Agree l (op.run m hook) (op.run n hook') := by
  have hl := h.toLawful
  have hannounce : ∀ options w v, Alike l w v →
      Alike l (announce options w).2 (announce options v).2 :=
    fun options w v hw => (hl.announce options w v hw).2
  cases op with
  | attach options => exact .bind (h.attach rfl (hannounce options)) fun _ => .pure _
  | load options => exact .bind (h.load rfl (hannounce options)) fun _ => .pure _
  | unload => exact .bind (unload hl) fun _ => .pure _
  | activate env settings => exact .bind ((h.echoes env).activate hl rfl) fun _ => .pure _
  | classPrepared env klass =>
    exact .bind ((h.echoes env).classPrepared hl h.marker klass) fun _ => .pure _
  | breakpointHit hit => exact .bind (breakpointHit hl hhook hit) fun _ => .pure _
  | loadAgent options => exact .bind (h.loadAgent options) fun _ => .pure _
  | unloadAgent => exact .bind (unloadAgent hl) fun _ => .pure _
  | registerIdle => exact .bind registerIdle_agree fun _ => .pure _
  | deliverClassPrepared env klass =>
    exact .bind ((h.echoes env).deliverClassPrepared hl h.marker klass) fun _ => .pure _
  | deliverBreakpointHit hit => exact .bind (deliverBreakpointHit hl hhook hit) fun _ => .pure _

end Parallel.Full

/-! ## Moments -/

/-- Moments are alike if the same happens at them, between alike worlds. -/
inductive Moment.Alike (l : Likeness σ τ) : Moment σ → Moment τ → Prop where
  | entered {w : World σ} {v : World τ} (arrival : Arrival) : Rendezvous.Alike l w v →
      Alike l (.entered arrival w) (.entered arrival v)
  | ended {w w' : World σ} {v v' : World τ} (op : Operation) (answer : Answer) :
      Rendezvous.Alike l w v → Rendezvous.Alike l w' v' →
      Alike l (.ended op w answer w') (.ended op v answer v')

/-- Two runs side by side: the same moments, each between alike worlds, and alike worlds in the
end. -/
structure SideBySide (l : Likeness σ τ) (m : Machine σ) (n : Machine τ) (acts : List Act)
    (w : World σ) (v : World τ) : Prop where
  moments : List.Forall₂ (Moment.Alike l) (momentsOf m acts w) (momentsOf n acts v)
  last : Alike l (runActs m acts w).2 (runActs n acts v).2

mutual

theorem Parallel.Full.act (h : Parallel.Full l m n) : ∀ (act : Act) (w : World σ) (v : World τ),
    Alike l w v → List.Forall₂ (Moment.Alike l) (act.moments m w) (act.moments n v) ∧
      Alike l (act.run m w).2 (act.run n v).2
  | .operation op inside ending, w, v, hw => by
    have hhook : ∀ arrival, Run.Agree l (Hook.doing (runActs m inside) ending arrival)
        (Hook.doing (runActs n inside) ending arrival) := fun arrival =>
      .bind (.note _) fun _ => .bind (fun w v hw => ⟨rfl, (h.acts inside w v hw).last⟩) fun _ =>
        .pure _
    obtain ⟨hanswer, hended⟩ := h.operation op hhook w v hw
    simp only [Act.moments, Act.run, Run.bind_apply, Run.pure_apply]
    refine ⟨?_, hended⟩
    rw [hw.operation_arrival?_eq op, hanswer]
    cases op.arrival? v with
    | none => exact .cons (.ended op _ hw hended) .nil
    | some arrival =>
      have hentering := hw.entering arrival
      exact .cons (.entered arrival hentering)
        (List.rel_append (h.acts inside _ _ hentering).moments
          (.cons (.ended op _ hw hended) .nil))
  | .record record, w, v, hw => by
    simp only [Act.moments, Act.run]
    exact ⟨.nil, hw.report h.toLawful _ _ _⟩

/-- Where all operations agree, whole runs go side by side. -/
theorem Parallel.Full.acts (h : Parallel.Full l m n) : ∀ (acts : List Act) (w : World σ)
    (v : World τ), Alike l w v → SideBySide l m n acts w v
  | [], w, v, hw => by
    refine ⟨?_, ?_⟩
    · simp only [momentsOf]
      exact .nil
    · simpa only [runActs, Run.pure_apply] using hw
  | act :: rest, w, v, hw => by
    obtain ⟨hmoments, hact⟩ := h.act act w v hw
    obtain ⟨hrest, hlast⟩ := h.acts rest _ _ hact
    refine ⟨?_, ?_⟩
    · simp only [momentsOf]
      exact List.rel_append hmoments hrest
    · simpa only [runActs, Run.bind_apply] using hlast

end

end

end Rendezvous
