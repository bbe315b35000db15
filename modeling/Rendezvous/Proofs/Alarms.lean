import Rendezvous.Proofs.Buffers

/-!
# Alarms

A log record is an alarm if it is a warning or tells of an error. What raises one is counted here
for every run of the agent. A release raises one if it fails; so while classes are looked at, alarms
are weighed together with buffers: a buffer that is lent weighs against the alarm that its release
will raise if it fails. In this way it never matters which of the releases fail.
-/

namespace Rendezvous

variable {σ : Type}

def Log.Level.isAlarm : Log.Level → Bool
  | .error | .warn => true
  | _ => false

def Entry.isAlarm : Entry → Bool
  | .log record => record.level.isAlarm
  | _ => false

def alarmsIn (journal : List Entry) : Nat := journal.countP Entry.isAlarm

@[simp] theorem alarmsIn_append (a b : List Entry) :
    alarmsIn (a ++ b) = alarmsIn a + alarmsIn b := List.countP_append

namespace Call

/-- Whether the machine takes something back. -/
def takesBack : Call → Bool
  | deallocate _ (.ok _) => true
  | _ => false

/-- Whether a release fails. -/
def releaseFails : Call → Bool
  | deallocate _ (.error _) => true
  | _ => false

/-- How many more buffers a call gives back than it lends. -/
def surplus (call : Call) : Int := (if call.takesBack then 1 else 0) - call.lent.length

theorem of_failed {call : Call} (h : call.failure? ≠ none) :
    call.lent = [] ∧ call.takesBack = false := by
  cases call with
  | environment _ _ => exact absurd rfl h
  | deallocate _ reply | getClassSignature _ reply | getClassMethods _ reply
  | getMethodName _ reply =>
    cases reply with
    | ok _ => exact absurd rfl h
    | error _ => exact ⟨rfl, rfl⟩
  | _ => exact ⟨rfl, rfl⟩

theorem surplus_of_failed {call : Call} (h : call.failure? ≠ none) : call.surplus = 0 := by
  obtain ⟨hlent, htaken⟩ := of_failed h
  simp [surplus, hlent, htaken]

end Call

/-! ## Weights -/

/-- The weight of an entry: one for an alarm, and a value for a call. -/
def Entry.weight (value : Call → Int) : Entry → Int
  | .log record => if record.level.isAlarm then 1 else 0
  | .call made => value made
  | _ => 0

def weightOf (value : Call → Int) : List Entry → Int
  | [] => 0
  | entry :: rest => entry.weight value + weightOf value rest

/-- The value of some calls together. -/
def totalOf (value : Call → Int) : List Call → Int
  | [] => 0
  | call :: rest => value call + totalOf value rest

section

variable {value : Call → Int}

@[simp] theorem weightOf_nil : weightOf value [] = 0 := rfl

@[simp] theorem weightOf_append (a b : List Entry) :
    weightOf value (a ++ b) = weightOf value a + weightOf value b := by
  induction a with
  | nil => rw [List.nil_append, weightOf_nil, Int.zero_add]
  | cons entry rest ih => rw [List.cons_append, weightOf, weightOf, ih, Int.add_assoc]

@[simp] theorem weightOf_singleton (entry : Entry) :
    weightOf value [entry] = entry.weight value := Int.add_zero _

/-- The weight of a journal, by its alarms and its calls. -/
theorem weightOf_eq (value : Call → Int) (journal : List Entry) :
    weightOf value journal = alarmsIn journal + totalOf value (callsOf journal) := by
  induction journal with
  | nil => rfl
  | cons entry rest ih =>
    rw [weightOf, ih, ← List.singleton_append, alarmsIn_append]
    cases entry with
    | call call =>
      simp [alarmsIn, Entry.weight, Entry.isAlarm, totalOf]
      omega
    | log record =>
      by_cases h : record.level.isAlarm
      · simp [alarmsIn, Entry.weight, Entry.isAlarm, h]
        omega
      · simp [alarmsIn, Entry.weight, Entry.isAlarm, h]
    | _ => simp [alarmsIn, Entry.weight, Entry.isAlarm, callsOf]

/-- The surplus of calls: what they give back and what they lend. -/
theorem totalOf_surplus (calls : List Call) : totalOf Call.surplus calls =
    (calls.countP Call.takesBack : Int) - (calls.flatMap Call.lent).length := by
  induction calls with
  | nil => rfl
  | cons call rest ih =>
    rw [totalOf, ih, List.countP_cons, List.flatMap_cons, List.length_append, Call.surplus]
    split <;> omega

end

/-- From one world to another the journal gains so much weight. -/
def Gains (value : Call → Int) (w w' : World σ) (gain : Int) : Prop :=
  weightOf value w'.journal = weightOf value w.journal + gain

namespace Gains

variable {machine : Machine σ} {env : Env} {value : Call → Int} {w w₁ w' : World σ}
  {gain more : Int}

theorem of_journal_eq (h : w'.journal = w.journal) : Gains value w w' 0 := by
  rw [Gains, h, Int.add_zero]

theorem refl (w : World σ) : Gains value w w 0 := of_journal_eq rfl

theorem trans (h : Gains value w w₁ gain) (h' : Gains value w₁ w' more) :
    Gains value w w' (gain + more) := by
  rw [Gains] at *
  omega

theorem then_nothing (h : Gains value w w₁ gain) (h' : Gains value w₁ w' 0) :
    Gains value w w' gain := by
  simpa using h.trans h'

theorem alarm {level : Log.Level} (hl : level.isAlarm = true) (component : Log.Component)
    (text : String) (w : World σ) : Gains value w (report level component text w).2 1 := by
  simp [Gains, report, Entry.weight, hl]

theorem quiet {level : Log.Level} (hl : level.isAlarm = false) (component : Log.Component)
    (text : String) (w : World σ) : Gains value w (report level component text w).2 0 := by
  simp [Gains, report, Entry.weight, hl]

/-- An attempt that fails weighs nothing, whether it reaches the machine or not. -/
theorem attempt {call : Call} (h : Attempt machine env call w w')
    (hfailed : call.failure? ≠ none → value call = 0) : Gains value w w' (value call) := by
  cases h with
  | made _ _ _ _ => simp [Gains, World.called, Entry.weight]
  | unmade hu =>
    have hf : call.failure? ≠ none := by
      cases hu with
      | invalid _ hf => simp [hf]
      | missing _ _ _ hf => simp [hf]
    rw [hfailed hf]
    exact .refl w

end Gains

/-! ## Loading -/

/-- The value by which only alarms are weighed. -/
def Call.weightless : Call → Int := fun _ => 0

theorem gains_weightless {w w' : World σ} {gain : Int} :
    Gains Call.weightless w w' gain ↔ (alarmsIn w'.journal : Int) = alarmsIn w.journal + gain := by
  have hzero : ∀ calls : List Call, totalOf Call.weightless calls = 0 := by
    intro calls
    induction calls with
    | nil => rfl
    | cons call rest ih => rw [totalOf, ih, Call.weightless, Int.add_zero]
  rw [Gains, weightOf_eq, weightOf_eq, hzero, hzero, Int.add_zero, Int.add_zero]

/-- A run that raises no alarm. -/
def Run.Calm {α : Type} (run : Run σ α) : Prop := ∀ w, Gains Call.weightless w (run w).2 0

namespace Run.Calm

variable {α β : Type}

theorem pure (a : α) : Calm (pure a : Run σ α) := Gains.refl

theorem bind {m : Run σ α} {f : α → Run σ β} (hm : Calm m) (hf : ∀ a, Calm (f a)) :
    Calm (m >>= f) := fun w => (hm w).then_nothing (hf (m w).1 (m w).2)

theorem report {level : Log.Level} (hl : level.isAlarm = false) (component : Log.Component)
    (text : String) : Calm (report level component text : Run σ Unit) := .quiet hl component text

theorem of_attempt {machine : Machine σ} {env : Env} {m : Run σ α} {entry : α → Call}
    (h : ∀ w, Attempt machine env (entry (m w).1) w (m w).2) : Calm m :=
  fun w => .attempt (h w) fun _ => rfl

end Run.Calm

section

variable (machine : Machine σ) (env : Env)

theorem requestCapabilities_calm : (requestCapabilities machine env).Calm := by
  refine .bind (.report rfl _ _) fun _ => .bind ?_ fun reply => ?_
  · exact .of_attempt (addCapabilities_attempt machine env .required)
  · cases reply <;> exact .pure _

theorem enableEvents_calm (events : List Watched) : (enableEvents machine env events).Calm := by
  induction events with
  | nil => exact .pure _
  | cons event rest ih =>
    refine .bind ?_ fun reply => ?_
    · exact .of_attempt (setEventNotificationMode_attempt machine env true event.number .null)
    · cases reply with
      | error failure => exact .pure _
      | ok _ => exact .bind (.report rfl _ _) fun _ => ih

theorem startEvents_calm (callbacks : Callbacks) : (startEvents machine env callbacks).Calm := by
  refine .bind ?_ fun reply => ?_
  · exact .of_attempt (setEventCallbacks_attempt machine env callbacks)
  · cases reply with
    | error failure => exact .pure _
    | ok _ => exact enableEvents_calm machine env Watched.all

theorem obtainEnv_calm (version : Version) : (obtainEnv machine version).Calm := by
  intro w
  unfold obtainEnv
  cases machine.reference w.machine with
  | live =>
    have h : Gains Call.weightless w
        (w.called (.environment version (machine.environment version w.machine).1.1)
          (machine.environment version w.machine).2) 0 := by
      simp [Gains, World.called, Entry.weight, Call.weightless]
    dsimp only
    split
    · split <;> exact h
    · exact h
  | _ => exact .refl w

theorem bindInterface_calm : (bindInterface machine).Calm := by
  refine .bind (obtainEnv_calm machine Version.required) fun obtained => ?_
  cases obtained <;> exact .pure _

theorem advancePhase_calm (phase : Phase) : (advancePhase phase : Run σ Bool).Calm :=
  fun _ => .of_journal_eq rfl

/-- One alarm if there are settings already. -/
def World.repeats (w : World σ) : Int := if w.agent.settings.isSome then 1 else 0

theorem configure_gains (settings : Settings) (w : World σ) :
    Gains Call.weightless w (configure settings w).2 w.repeats := by
  simp only [configure, Run.bind_apply, Run.get_apply, World.repeats]
  cases w.agent.settings with
  | none => exact .of_journal_eq rfl
  | some first => exact .alarm rfl ..

theorem activate_gains (settings : Settings) (w : World σ) :
    Gains Call.weightless w (activate machine env settings w).2 w.repeats := by
  have hasked := (configure_gains settings w).then_nothing (requestCapabilities_calm machine env _)
  simp only [activate, Run.bind_apply]
  cases (requestCapabilities machine env (configure settings w).2).1 with
  | error failure => exact hasked
  | ok _ =>
    have hstarted := (hasked.then_nothing (advancePhase_calm .interfaceBound _)).then_nothing
      (startEvents_calm machine env .routed _)
    dsimp only [Run.bind_apply]
    cases (startEvents machine env .routed (advancePhase .interfaceBound
        (requestCapabilities machine env (configure settings w).2).2).2).1 with
    | error failure => exact hstarted
    | ok _ =>
      exact (hstarted.then_nothing (advancePhase_calm .watching _)).then_nothing (.quiet rfl ..)

theorem reportRejected_gains (rejected : List Rejected) (w : World σ) :
    Gains Call.weightless w (reportRejected rejected w).2 rejected.length := by
  induction rejected generalizing w with
  | nil => exact .refl w
  | cons option rest ih =>
    have hfirst : Gains Call.weightless w (report .warn .agent
        ("ignoring agent option " ++ option.message) w).2 1 := .alarm rfl ..
    rw [List.length_cons, Int.natCast_succ, Int.add_comm]
    exact hfirst.trans (ih _)

theorem announce_gains (options : String) (w : World σ) :
    Gains Call.weightless w (announce options w).2 (Settings.parse options).2.length := by
  have hset : Gains Call.weightless w (initLogger (Settings.parse options).1.logFilter w).2 0 :=
    .of_journal_eq rfl
  have hrejected := hset.trans (reportRejected_gains (Settings.parse options).2 _)
  rw [Int.zero_add] at hrejected
  simp only [announce, Run.bind_apply]
  exact hrejected.then_nothing (.quiet rfl ..)

/-- Attaching raises an alarm for each rejected option, and one if it comes to an activation of an
agent that has settings. -/
theorem attach_gains (options : String) (w : World σ) :
    Gains Call.weightless w (attach machine options w).2
      ((Settings.parse options).2.length +
        (attachmentAt machine options w).elim 0 fun _ => w.repeats) := by
  have hannounced := announce_gains options w
  have hbound := hannounced.then_nothing (bindInterface_calm machine _)
  simp only [attachmentAt, attach, Run.bind_apply]
  cases hb : (bindInterface machine (announce options w).2).1 with
  | error failure => simpa using hbound
  | ok env =>
    have hsetUp := (announce_onlySetsUp machine options w).trans (bindInterface_onlySetsUp machine _)
    have hsame : (bindInterface machine (announce options w).2).2.agent = w.agent :=
      hsetUp.agent_eq.1
    have hactivated := hbound.trans (activate_gains machine env (announce options w).1 _)
    rw [World.repeats, hsame] at hactivated
    exact hactivated

theorem load_gains (options : String) (w : World σ) :
    Gains Call.weightless w (load machine options w).2
      ((Settings.parse options).2.length +
        ((attachmentAt machine options w).elim 0 fun _ => w.repeats) +
        if (load machine options w).1 = Status.failure then 1 else 0) := by
  have h := attach_gains machine options w
  cases ha : (attach machine options w).1 with
  | ok _ =>
    have hload : load machine options w = (Status.success, (report .info .agent
        "agent loaded, waiting for the marker class" (attach machine options w).2).2) := by
      simp only [load, Run.bind_apply, ha]
      rfl
    have hstatus : Status.success ≠ Status.failure := by decide
    rw [hload, if_neg hstatus]
    exact h.trans (.quiet rfl ..)
  | error failure =>
    have hload : load machine options w = (Status.failure, (report .error .agent
        ("agent failed to load: " ++ failure.message) (attach machine options w).2).2) := by
      simp only [load, Run.bind_apply, ha]
      rfl
    rw [hload, if_pos rfl]
    exact h.trans (.alarm rfl ..)

theorem unload_gains (w : World σ) : Gains Call.weightless w ((unload : Run σ Unit) w).2 0 :=
  .quiet rfl ..

end

/-! ## Prepared classes -/

/-- Whether an outcome is worth a warning: the marker class could not be dealt with. A class whose
signature cannot be read may be any class. -/
def Outcome.isMissed (readable : Bool) : Outcome → Bool
  | .methodNotFound | .installFailed _ _ => true
  | .unreadable _ => readable
  | .notTarget | .installed _ => false

section

variable (machine : Machine σ) (env : Env)

/-- What a call lends is made up for by the releases after it. -/
theorem Gains.made_up {w w₁ w' : World σ} {call : Call} (h : Gains Call.surplus w w₁ call.surplus)
    (hcall : call.takesBack = false) (h' : Gains Call.surplus w₁ w' call.lent.length) :
    Gains Call.surplus w w' 0 := by
  have hboth := h.trans h'
  rwa [Call.surplus, hcall, if_neg Bool.false_ne_true, Int.zero_sub, Int.add_left_neg] at hboth

/-- A release that fails raises an alarm, and one that does not gives something back. -/
theorem release_gains {α : Type} (what : String) (lent : Option (Buffer α)) (w : World σ) :
    Gains Call.surplus w (release machine env what (.ofBuffer? lent) w).2
      (lent.map Buffer.number).toList.length := by
  cases lent with
  | none => exact .refl w
  | some b =>
    have ha : Attempt machine env (.deallocate (.buffer b.number)
        (deallocate machine env (.buffer b.number) w).1) w
        (deallocate machine env (.buffer b.number) w).2 :=
      callService_attempt machine env {} w
    have hback := Gains.attempt ha Call.surplus_of_failed
    simp only [release, Address.ofBuffer?, Run.bind_apply]
    cases hr : (deallocate machine env (.buffer b.number) w).1 with
    | ok _ =>
      rw [hr] at hback
      exact hback
    | error failure =>
      rw [hr] at hback
      exact hback.trans (.alarm rfl ..)

theorem isTargetClass_gains (klass : ClassId) (marker : Marker) (w : World σ) :
    Gains Call.surplus w (isTargetClass machine env klass marker w).2 0 := by
  have hasked :=
    Gains.attempt (getClassSignature_attempt machine env klass w) Call.surplus_of_failed
  simp only [isTargetClass, Run.bind_apply]
  cases hr : (getClassSignature machine env klass w).1 with
  | error failure =>
    rw [hr] at hasked
    exact hasked
  | ok text =>
    rw [hr] at hasked
    exact hasked.made_up rfl (release_gains machine env "string" text _)

theorem isMarkerMethod_gains (marker : Marker) (method : MethodId) (w : World σ) :
    Gains Call.surplus w (isMarkerMethod machine env marker method w).2 0 := by
  have hasked := Gains.attempt (getMethodName_attempt machine env method w) Call.surplus_of_failed
  simp only [isMarkerMethod, Run.bind_apply]
  cases hr : (getMethodName machine env method w).1 with
  | error failure =>
    rw [hr] at hasked
    exact hasked.then_nothing (.quiet rfl ..)
  | ok lent =>
    rw [hr] at hasked
    have hpair := (release_gains machine env "string" lent.name
      (getMethodName machine env method w).2).trans
        (release_gains machine env "string" lent.signature _)
    rw [← Int.natCast_add, ← List.length_append] at hpair
    exact hasked.made_up rfl hpair

theorem firstMarkerMethod_gains (marker : Marker) (methods : List MethodId) (w : World σ) :
    Gains Call.surplus w (firstMarkerMethod machine env marker methods w).2 0 := by
  induction methods generalizing w with
  | nil => exact .refl w
  | cons method rest ih =>
    have hfirst := isMarkerMethod_gains machine env marker method w
    simp only [firstMarkerMethod, Run.bind_apply]
    split
    · exact hfirst
    · exact hfirst.then_nothing (ih _)

theorem findMethod_gains (klass : ClassId) (marker : Marker) (w : World σ) :
    Gains Call.surplus w (findMethod machine env klass marker w).2 0 := by
  have hasked := Gains.attempt (getClassMethods_attempt machine env klass w) Call.surplus_of_failed
  simp only [findMethod, Run.bind_apply]
  cases hr : (getClassMethods machine env klass w).1 with
  | error failure =>
    rw [hr] at hasked
    exact hasked
  | ok table =>
    rw [hr] at hasked
    have hsearched :=
      hasked.then_nothing (firstMarkerMethod_gains machine env marker table.methods _)
    exact hsearched.made_up rfl (release_gains machine env "array" table.buffer _)

/-- What an outcome gains. -/
def Outcome.gain (outcome : Outcome) (readable : Bool) : Int :=
  if outcome.isMissed readable then 1 else 0

theorem armMarker_gains (marker : Marker) (method : MethodId) (w : World σ) :
    Gains Call.surplus w (armMarker machine env marker method w).2
      ((armMarker machine env marker method w).1.gain true) := by
  have hfound : Gains Call.surplus w (report .info .watcher ("found " ++ marker.method) w).2 0 :=
    .quiet rfl ..
  simp only [armMarker, Run.bind_apply]
  generalize (report .info .watcher ("found " ++ marker.method) w).2 = w₁ at hfound ⊢
  have hrecorded : Gains Call.surplus w (w₁.recording method) 0 :=
    hfound.then_nothing (.of_journal_eq rfl)
  have harmed := hrecorded.trans (Gains.attempt
    (setBreakpoint_attempt machine env method Marker.location (w₁.recording method))
    Call.surplus_of_failed)
  have hsame : arm machine env method Marker.location w₁ =
      setBreakpoint machine env method Marker.location (w₁.recording method) := rfl
  rw [hsame]
  cases hr : (setBreakpoint machine env method Marker.location (w₁.recording method)).1 with
  | ok _ =>
    rw [hr] at harmed
    exact harmed.then_nothing (.quiet rfl ..)
  | error failure =>
    rw [hr] at harmed
    exact harmed.trans (.alarm rfl ..)

theorem watchMarkerClass_gains (klass : ClassId) (marker : Marker) (w : World σ) :
    Gains Call.surplus w (watchMarkerClass machine env klass marker w).2
      ((watchMarkerClass machine env klass marker w).1.gain true) := by
  have hprepared : Gains Call.surplus w (report .info .watcher
      ("class " ++ marker.classSignature ++ " prepared") w).2 0 := .quiet rfl ..
  simp only [watchMarkerClass, Run.bind_apply]
  generalize (report .info .watcher ("class " ++ marker.classSignature ++ " prepared") w).2 = w₁
    at hprepared ⊢
  have hsearched := hprepared.then_nothing (findMethod_gains machine env klass marker w₁)
  cases (findMethod machine env klass marker w₁).1 with
  | error failure => exact hsearched.trans (.alarm rfl ..)
  | ok found =>
    cases found with
    | none => exact hsearched.trans (.alarm rfl ..)
    | some method =>
      have harmed := hsearched.trans (armMarker_gains machine env marker method _)
      rwa [Int.zero_add] at harmed

theorem watchClass_gains (klass : ClassId) (marker : Marker) (w : World σ) :
    Gains Call.surplus w (watchClass machine env klass marker w).2
      ((watchClass machine env klass marker w).1.gain
        (getClassSignature machine env klass w).1.isOk) := by
  have hasked := isTargetClass_gains machine env klass marker w
  have hread : (isTargetClass machine env klass marker w).1.isOk =
      (getClassSignature machine env klass w).1.isOk := by
    simp only [isTargetClass, Run.bind_apply]
    cases (getClassSignature machine env klass w).1 <;> rfl
  rw [← hread]
  simp only [watchClass, Run.bind_apply]
  cases (isTargetClass machine env klass marker w).1 with
  | error failure => exact hasked.then_nothing (.quiet rfl ..)
  | ok isTarget =>
    cases isTarget with
    | false => exact hasked
    | true =>
      have hwatched := hasked.trans (watchMarkerClass_gains machine env klass marker _)
      rwa [Int.zero_add] at hwatched

theorem noteInstalled_gains (outcome : Outcome) (w : World σ) :
    Gains Call.surplus w (noteInstalled outcome w).2 0 := by
  cases outcome with
  | installed method =>
    simp only [noteInstalled, Run.bind_apply]
    have hadvanced : Gains Call.surplus w (advancePhase .installed w).2 0 := .of_journal_eq rfl
    split
    · exact hadvanced.then_nothing (.quiet rfl ..)
    · exact hadvanced
  | _ => exact .refl w

theorem classPrepared_gains (klass : ClassId) (w : World σ) :
    Gains Call.surplus w (classPrepared machine env klass w).2
      ((classPrepared machine env klass w).1.gain
        (getClassSignature machine env klass w).1.isOk) := by
  simp only [classPrepared, Run.bind_apply, Run.get_apply]
  cases w.agent.settings with
  | none => exact .refl w
  | some settings =>
    have hwatched := watchClass_gains machine env klass settings.marker w
    exact hwatched.then_nothing (noteInstalled_gains _ _)

end

/-! ## Failed releases -/

/-- How many of the buffers that some calls lend are not taken back by them. -/
def notTakenBack (calls : List Call) : Nat :=
  (calls.flatMap Call.lent).length - calls.countP Call.takesBack

theorem Without.lent_eq {D : Call → Prop} {made calls : List Call} (h : Without D made calls)
    (hD : ∀ call, D call → call.failure? ≠ none) :
    made.flatMap Call.lent = calls.flatMap Call.lent ∧
      made.countP Call.takesBack = calls.countP Call.takesBack := by
  induction h with
  | nil => exact ⟨rfl, rfl⟩
  | keep call _ ih =>
    rw [List.flatMap_cons, List.flatMap_cons, List.countP_cons, List.countP_cons, ih.1, ih.2]
    exact ⟨rfl, rfl⟩
  | @drop _ _ call hd _ ih =>
    obtain ⟨hlent, htaken⟩ := Call.of_failed (hD call hd)
    rw [List.flatMap_cons, List.countP_cons, hlent, htaken]
    exact ih

/-- Of settled calls, as many releases fail as buffers are not taken back. -/
theorem Settled.failed_releases {calls : List Call} (h : Settled calls) :
    calls.countP Call.takesBack + calls.countP Call.releaseFails =
      (calls.flatMap Call.lent).length := by
  have hboth : ∀ calls : List Call, calls.countP Call.takesBack + calls.countP Call.releaseFails =
      (calls.filterMap Call.returned?).length := by
    intro calls
    induction calls with
    | nil => rfl
    | cons call rest ih =>
      rw [List.countP_cons, List.countP_cons]
      cases call with
      | deallocate address reply =>
        have hcons : ((Call.deallocate address reply :: rest).filterMap Call.returned?).length =
            (rest.filterMap Call.returned?).length + 1 := rfl
        rw [hcons, ← ih]
        cases reply <;> simp [Call.takesBack, Call.releaseFails] <;> omega
      | _ => exact ih
  rw [hboth, h.returned_perm.length_eq, List.length_map]

end Rendezvous
