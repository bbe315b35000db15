import Rendezvous.Proofs.Loading
import Rendezvous.Proofs.Runs

/-!
# Deeds

Two agents can be in a world: its own, and one that the process has registered. An operation reaches
one of them at most, directly or by way of the process, and what it does to that agent is one deed
at most. The theorem of this module says so for every operation that does not enter the own agent's
hook: it gives the deed, the agent after it, and the calls made meanwhile. The other agent stays as
it is.
-/

namespace Rendezvous

variable {σ : Type}

/-- What can be done to an agent. -/
inductive Deed where
  | activated (activation : Activation)
  /-- A class was prepared, with this outcome. -/
  | prepared (outcome : Outcome)
  /-- A hit entered the hook. -/
  | entered (arrival : Arrival)

def Agent.after (agent : Agent) : Deed → Agent
  | .activated activation => agent.activated activation
  | .prepared outcome => agent.prepared outcome
  | .entered _ => { agent with hits := agent.hits + 1 }

/-- The agent that a run may be about. -/
inductive Subject where
  | own | registered
  deriving DecidableEq, Repr

/-- As long as no agent is registered, the one that a load would register counts. -/
def Registration.agent : Registration → Agent
  | .another agent => agent
  | _ => .fresh

namespace World

def agentOf (w : World σ) : Subject → Agent
  | .own => w.agent
  | .registered => w.registration.agent

/-- The world as operations on an agent see it. -/
def seenBy (w : World σ) : Subject → World σ
  | .own => w
  | .registered => { w with agent := w.registration.agent, registration := .itself }

/-- The world after operations on an agent. -/
def returning (w : World σ) (ended : World σ) : Subject → World σ
  | .own => ended
  | .registered => { ended with agent := w.agent, registration := .another ended.agent }

end World

/-! ## What an operation reaches -/

/-- The agent that an operation reaches, and what reaches it. -/
def Operation.route (registration : Registration) : Operation → Option (Subject × Operation)
  | .loadAgent options =>
    match registration with
    | .vacant => some (.registered, .load (optionsText options))
    | _ => none
  | .unloadAgent =>
    match registration with
    | .itself => some (.own, .unload)
    | .another _ => some (.registered, .unload)
    | _ => none
  | .deliverClassPrepared env klass =>
    match registration with
    | .itself => some (.own, .classPrepared env klass)
    | .another _ => some (.registered, .classPrepared env klass)
    | _ => none
  | .deliverBreakpointHit hit =>
    match registration with
    | .itself => some (.own, .breakpointHit hit)
    | .another _ => some (.registered, .breakpointHit hit)
    | _ => none
  | .registerIdle => none
  | direct => some (.own, direct)

section

variable (machine : Machine σ)

/-- The deed of an operation by the time it ends. Of the own agent, the entry into the hook is a
moment of its own and not counted here. -/
def Operation.directDeed? (subject : Subject) (w : World σ) : Operation → Option Deed
  | .attach options | .load options => (attachmentAt machine options w).map .activated
  | .activate env settings => some (.activated (activationAt machine env settings w))
  | .classPrepared env klass => some (.prepared (Rendezvous.classPrepared machine env klass w).1)
  | .breakpointHit hit =>
    match subject with
    | .own => none
    | .registered => (w.arrival? hit).map .entered
  | _ => none

/-- The agent that an operation on a world reaches, and what it does to it. -/
def Operation.does? (w : World σ) (op : Operation) : Option (Subject × Deed) :=
  (op.route w.registration).bind fun (subject, direct) =>
    (direct.directDeed? machine subject (w.seenBy subject)).map fun deed => (subject, deed)

/-- What an operation on a world does to one of the agents. -/
def Operation.deed? (subject : Subject) (w : World σ) (op : Operation) : Option Deed :=
  (op.does? machine w).bind fun (reached, deed) => if reached = subject then some deed else none

/-- How a deed comes about in a world, to the agent of that world. -/
inductive Does (w w' : World σ) : Option Deed → Prop where
  | turns {deed? : Option Deed} : (∀ outcome, deed? ≠ some (.prepared outcome)) →
      Turns machine w w' (deed?.elim w.agent w.agent.after) → Does w w' deed?
  | visits {env : Env} {klass : ClassId} {settings : Settings} {calls : List Call}
      {outcome : Outcome} :
      w.agent.settings = some settings → Visit klass settings.marker calls outcome →
      Dialogue machine env w calls { w' with agent := w.agent } →
      w'.agent = w.agent.prepared outcome → Does w w' (some (.prepared outcome))
  | rests : w' = w → Does w w' (some (.prepared .notTarget))

end

variable {machine : Machine σ} {w w' : World σ} {deed? : Option Deed}

theorem Does.nothing (h : SetsUp machine w w') : Does machine w w' none :=
  .turns (fun _ => by simp) h.turns

theorem Does.loads (done : Option Activation)
    (h : Turns machine w w' (done.elim w.agent w.agent.activated)) :
    Does machine w w' (done.map .activated) := by
  cases done with
  | none => exact .turns (fun _ => by simp) h
  | some activation => exact .turns (fun _ => by simp) h

theorem Does.agent_eq (h : Does machine w w' deed?) :
    w'.agent = deed?.elim w.agent w.agent.after := by
  cases h with
  | turns _ ht => exact ht.agent_eq
  | visits _ _ _ ha => exact ha
  | rests he =>
    subst he
    rfl

theorem Does.registration_eq (h : Does machine w w' deed?) :
    w'.registration = w.registration := by
  cases h with
  | turns _ ht => exact ht.registration_eq
  | visits _ _ hd _ => exact hd.agent_eq.2
  | rests he => rw [he]

theorem Does.course (h : Does machine w w' deed?) :
    ∃ calls, Course machine w calls { w' with agent := w.agent } := by
  cases h with
  | turns _ ht =>
    obtain ⟨calls, hc, -⟩ := ht.setsUp
    exact ⟨calls, hc⟩
  | visits _ _ hd _ =>
    obtain ⟨made, hc, -⟩ := hd.course
    exact ⟨made, hc⟩
  | rests he =>
    subst he
    exact ⟨[], .stay _⟩

/-! ## Direct operations -/

theorem classPrepared_does (env : Env) (klass : ClassId) (w : World σ) :
    Does machine w (classPrepared machine env klass w).2
      (some (.prepared (classPrepared machine env klass w).1)) := by
  rcases classPrepared_visit machine env klass w with
    ⟨-, he⟩ | ⟨settings, calls, hs, hv, hd, ha⟩
  · rw [he]
    exact .rests rfl
  · exact .visits hs hv hd ha

theorem load_does (options : String) (w : World σ) :
    Does machine w (load machine options w).2
      ((attachmentAt machine options w).map .activated) :=
  .loads _ (load_turns machine options w)

theorem unload_does (w : World σ) : Does machine w ((unload : Run σ Unit) w).2 none :=
  .nothing (unload_onlySetsUp machine w)

theorem ignored_does {hit : Hit} (h : w.arrival? hit = none) (hook : Hook σ) :
    Does machine w (breakpointHit hook hit w).2 none := by
  rw [breakpointHit_of_no_arrival h]
  exact .nothing (.report ..)

/-- The hook that logs does nothing else. -/
theorem logged_does (hit : Hit) (w : World σ) :
    Does machine w (breakpointHit Hook.logging hit w).2 ((w.arrival? hit).map .entered) := by
  cases ha : w.arrival? hit with
  | none => exact ignored_does ha Hook.logging
  | some arrival =>
    obtain ⟨ht, rfl⟩ := World.arrival?_eq_some.mp ha
    simp only [breakpointHit, Run.bind_apply, Run.get_apply, ht, if_true]
    exact .turns (fun _ => by simp) ⟨.report .., rfl⟩

/-! ## All operations -/

/-- How an operation changes a world: it reaches no agent, and at most the registration changes, or
it reaches one. -/
inductive Effect (machine : Machine σ) (op : Operation) (w : World σ) : World σ → Prop where
  | passes (registration : Registration) : registration.agent = w.registration.agent →
      op.route w.registration = none → Effect machine op w { w with registration }
  | reaches (subject : Subject) (direct : Operation) (ended : World σ) :
      op.route w.registration = some (subject, direct) →
      Does machine (w.seenBy subject) ended
        (direct.directDeed? machine subject (w.seenBy subject)) →
      Effect machine op w (w.returning ended subject)

theorem Effect.own {op direct : Operation} {ended : World σ}
    (hr : op.route w.registration = some (.own, direct))
    (hd : Does machine w ended (direct.directDeed? machine .own w)) : Effect machine op w ended :=
  .reaches .own direct ended hr hd

/-- Unless it enters the own agent's hook, an operation has the effect of its deed. -/
theorem Operation.run_effect (machine : Machine σ) (op : Operation) (hook : Hook σ) (w : World σ)
    (h : op.arrival? w = none) : Effect machine op w (op.run machine hook w).2 := by
  cases op with
  | attach options =>
    simp only [run, Run.bind_apply, Run.pure_apply]
    exact .own rfl (.loads _ (attach_turns machine options w))
  | load options =>
    simp only [run, Run.bind_apply, Run.pure_apply]
    exact .own rfl (load_does options w)
  | unload => exact .own rfl (unload_does w)
  | activate env settings => exact .own rfl (.loads (some _) (activate_turns machine env settings w))
  | classPrepared env klass => exact .own rfl (classPrepared_does env klass w)
  | breakpointHit hit => exact .own rfl (ignored_does h hook)
  | registerIdle =>
    obtain ⟨agent, registration, s, logger, journal⟩ := w
    cases registration with
    | vacant => exact .passes .idle rfl rfl
    | itself => exact .passes .itself rfl rfl
    | another other => exact .passes (.another other) rfl rfl
    | idle => exact .passes .idle rfl rfl
  | loadAgent options =>
    obtain ⟨agent, registration, s, logger, journal⟩ := w
    cases registration with
    | vacant => exact .reaches .registered _ _ rfl (load_does (optionsText options) _)
    | itself => exact .passes .itself rfl rfl
    | another other => exact .passes (.another other) rfl rfl
    | idle => exact .passes .idle rfl rfl
  | unloadAgent =>
    obtain ⟨agent, registration, s, logger, journal⟩ := w
    cases registration with
    | vacant => exact .passes .vacant rfl rfl
    | itself => exact .own rfl (unload_does _)
    | another other => exact .reaches .registered _ _ rfl (unload_does _)
    | idle => exact .passes .idle rfl rfl
  | deliverClassPrepared env klass =>
    obtain ⟨agent, registration, s, logger, journal⟩ := w
    cases registration with
    | vacant => exact .passes .vacant rfl rfl
    | itself => exact .own rfl (classPrepared_does env klass _)
    | another other => exact .reaches .registered _ _ rfl (classPrepared_does env klass _)
    | idle => exact .passes .idle rfl rfl
  | deliverBreakpointHit hit =>
    obtain ⟨agent, registration, s, logger, journal⟩ := w
    cases registration with
    | vacant => exact .passes .vacant rfl rfl
    | itself => exact .own rfl (ignored_does h hook)
    | another other => exact .reaches .registered _ _ rfl (logged_does hit _)
    | idle => exact .passes .idle rfl rfl

section

variable {op : Operation}

/-- An operation that enters the hook has no other deed by its end. -/
theorem Operation.does_of_arrival {arrival : Arrival} (h : op.arrival? w = some arrival) :
    op.does? machine w = none := by
  obtain ⟨hit, -, rfl | ⟨rfl, hr⟩⟩ := Operation.of_arrival h
  · rfl
  · simp only [does?, route, hr]
    rfl

/-- A hit that enters a hook as the deed of an operation enters that of the agent that the process has
registered: entries into the own agent's hook are moments of their own. -/
theorem Operation.of_entered {subject : Subject} {arrival : Arrival}
    (h : op.deed? machine subject w = some (.entered arrival)) :
    subject = .registered ∧ ∃ hit, (w.seenBy .registered).arrival? hit = some arrival := by
  obtain ⟨⟨reached, deed⟩, hdoes, hif⟩ := Option.bind_eq_some_iff.mp h
  obtain ⟨⟨routed, direct⟩, -, hmap⟩ := Option.bind_eq_some_iff.mp hdoes
  obtain ⟨done, hdirect, he⟩ := Option.map_eq_some_iff.mp hmap
  cases he
  have hreached : reached = subject := by
    by_cases he : reached = subject
    · exact he
    · simp [he] at hif
  subst hreached
  have hdeed : deed = .entered arrival := by simpa using hif
  subst hdeed
  cases direct with
  | attach _ | load _ =>
    obtain ⟨_, _, he⟩ := Option.map_eq_some_iff.mp hdirect
    cases he
  | breakpointHit hit =>
    cases reached with
    | own => cases hdirect
    | registered =>
      obtain ⟨first, hfirst, he⟩ := Option.map_eq_some_iff.mp hdirect
      cases he
      exact ⟨rfl, hit, hfirst⟩
  | _ => cases hdirect

/-- An effect is the deed, done to the agent it is about and to no other. -/
theorem Effect.agentOf_eq (h : Effect machine op w w') (subject : Subject) :
    w'.agentOf subject =
      (op.deed? machine subject w).elim (w.agentOf subject) (w.agentOf subject).after := by
  cases h with
  | passes registration ha hr =>
    have hd : op.deed? machine subject w = none := by
      simp only [Operation.deed?, Operation.does?, hr, Option.bind_none]
    rw [hd]
    cases subject with
    | own => rfl
    | registered => exact ha
  | reaches reached direct ended hr hd =>
    have ha := hd.agent_eq
    have hg := hd.registration_eq
    simp only [Operation.deed?, Operation.does?, hr, Option.bind_some]
    generalize direct.directDeed? machine reached (w.seenBy reached) = deed? at ha
    cases reached with
    | own =>
      cases subject with
      | own => cases deed? <;> exact ha
      | registered =>
        have hs : ended.registration.agent = w.registration.agent := congrArg Registration.agent hg
        cases deed? <;> exact hs
    | registered =>
      cases subject with
      | own => cases deed? <;> rfl
      | registered => cases deed? <;> exact ha

/-- What is known of the calls of each deed is known of the calls of each operation. -/
theorem Effect.course (h : Effect machine op w w')
    (P : List Call → Option (Subject × Deed) → Prop) (hnone : P [] none)
    (hdoes : ∀ subject ended deed?, Does machine (w.seenBy subject) ended deed? →
      ∃ calls, Course machine (w.seenBy subject) calls
        { ended with agent := (w.seenBy subject).agent } ∧
        P calls (deed?.map fun deed => (subject, deed))) :
    ∃ calls, Course machine w calls
        { w' with agent := w.agent, registration := w.registration } ∧
      P calls (op.does? machine w) := by
  cases h with
  | passes registration _ hr =>
    refine ⟨[], .stay w, ?_⟩
    simpa only [Operation.does?, hr, Option.bind_none] using hnone
  | reaches subject direct ended hr hd =>
    obtain ⟨calls, hc, hp⟩ := hdoes subject ended _ hd
    have hdoes? : op.does? machine w =
        (direct.directDeed? machine subject (w.seenBy subject)).map fun deed => (subject, deed) := by
      simp only [Operation.does?, hr, Option.bind_some]
    refine ⟨calls, ?_, hdoes? ▸ hp⟩
    have hf := hc.frame w.agent w.registration
    cases subject with
    | own => exact hf
    | registered => exact hf

end

/-! ## Calls since a world -/

/-- The calls made since a world, as the journal has them. -/
def callsSince (start w : World σ) : List Call := callsOf (w.journal.drop start.journal.length)

/-- The journal has only grown since, and by these calls. -/
def Since (start w : World σ) (calls : List Call) : Prop :=
  ∃ entries, w.journal = start.journal ++ entries ∧ callsOf entries = calls

namespace Since

variable {start : World σ} {calls more : List Call}

theorem refl (w : World σ) : Since w w [] := ⟨[], by simp⟩

theorem callsSince_eq (h : Since start w calls) : callsSince start w = calls := by
  obtain ⟨entries, hj, rfl⟩ := h
  rw [callsSince, hj, List.drop_left]

theorem trans (h : Since start w calls) (h' : Since w w' more) : Since start w' (calls ++ more) := by
  obtain ⟨entries, hj, rfl⟩ := h
  obtain ⟨entries', hj', rfl⟩ := h'
  exact ⟨entries ++ entries', by rw [hj', hj, List.append_assoc], callsOf_append entries entries'⟩

theorem of_course {w₁ : World σ} (h : Course machine w calls w₁) (hj : w'.journal = w₁.journal) :
    Since w w' calls := by
  obtain ⟨entries, hw, hc⟩ := h.journal
  exact ⟨entries, hj.trans hw, hc⟩

theorem entering (w : World σ) (arrival : Arrival) : Since w (w.entering arrival) [] :=
  ⟨[.arrival arrival], rfl, rfl⟩

theorem report (level : Log.Level) (component : Log.Component) (text : String) (w : World σ) :
    Since w (report level component text w).2 [] := ⟨[.log ⟨level, component, text⟩], rfl, rfl⟩

theorem concludeHit (sequence : UInt64) (ending : HookEnd) (w : World σ) :
    Since w (concludeHit sequence ending w).2 [] := by
  cases ending with
  | returned => exact .refl w
  | panicked => exact .report ..

end Since

/-- The moments up to which no call has been made since the one before. -/
inductive Moment.Silent : Moment σ → Prop where
  | entered (arrival : Arrival) (world : World σ) : Silent (.entered arrival world)
  | left {op : Operation} {before : World σ} {arrival : Arrival} (answer : Answer)
      (after : World σ) :
      op.arrival? before = some arrival → Silent (.ended op before answer after)

/-- What is known of a run by its moments and the calls made since its start, as long as the machine
is in a state that its calls keep. -/
structure Recorded (machine : Machine σ) (K : σ → Prop) (J : List (Moment σ) → List Call → Prop)
    (start : World σ) (past : List (Moment σ)) (w : World σ) : Prop where
  state : K w.machine
  since : Since start w (callsSince start w)
  known : J past (callsSince start w)

section

variable {K : σ → Prop} {J : List (Moment σ) → List Call → Prop} {start : World σ}
  {past : List (Moment σ)}

theorem Recorded.nil (hK : K w.machine) (hJ : J [] []) : Recorded machine K J w [] w := by
  have hs := Since.refl w
  have he := hs.callsSince_eq
  refine ⟨hK, ?_, ?_⟩
  · rwa [he]
  · rwa [he]

theorem Recorded.step (h : Recorded machine K J start past w) (moments : List (Moment σ))
    {made : List Call} (hs : Since w w' made) (hK : K w'.machine)
    (hJ : J (past ++ moments) (callsSince start w ++ made)) :
    Recorded machine K J start (past ++ moments) w' := by
  have hsince := h.since.trans hs
  have he := hsince.callsSince_eq
  refine ⟨hK, ?_, ?_⟩
  · rwa [he]
  · rwa [he]

/-- It is enough to look at operations with their effects: nothing else calls the machine. What else
is kept along the run may be used. -/
theorem Recorded.kept_along {I : List (Moment σ) → World σ → Prop} (hI : Kept machine I)
    (hquiet : ∀ past w w' calls (op : Operation) answer, I past w → K w.machine → J past calls →
      Effect machine op w w' → ∃ made, Since w w' made ∧ K w'.machine ∧
        J (past ++ [.ended op w answer w']) (calls ++ made))
    (hsilent : ∀ past calls m, m.Silent → J past calls → J (past ++ [m]) calls) :
    Kept machine fun past w => I past w ∧ Recorded machine K J start past w where
  quiet := by
    rintro past w op hook ⟨hi, h⟩ ha
    obtain ⟨made, hs, hK, hJ⟩ := hquiet past w _ _ op (op.run machine hook w).1 hi h.state h.known
      (op.run_effect machine hook w ha)
    exact ⟨hI.quiet past w op hook hi ha, h.step _ hs hK hJ⟩
  enters := by
    rintro past w op arrival ⟨hi, h⟩ ha
    refine ⟨hI.enters past w op arrival hi ha, h.step _ (.entering w arrival) h.state ?_⟩
    rw [List.append_nil]
    exact hsilent past _ _ (.entered ..) h.known
  leaves := by
    rintro past w op before arrival ending ⟨hi, h⟩ ha
    have hm : (concludeHit arrival.sequence ending w).2.machine = w.machine := by
      cases ending <;> rfl
    refine ⟨hI.leaves past w op before arrival ending hi ha,
      h.step _ (.concludeHit ..) (by rw [hm]; exact h.state) ?_⟩
    rw [List.append_nil]
    exact hsilent past _ _ (.left _ _ ha) h.known
  records := by
    rintro past w level component text ⟨hi, h⟩
    have hr := h.step [] (.report level component text w) h.state (by simpa using h.known)
    rw [List.append_nil] at hr
    exact ⟨hI.records past w level component text hi, hr⟩

theorem Recorded.kept
    (hquiet : ∀ past w w' calls (op : Operation) answer, K w.machine → J past calls →
      Effect machine op w w' → ∃ made, Since w w' made ∧ K w'.machine ∧
        J (past ++ [.ended op w answer w']) (calls ++ made))
    (hsilent : ∀ past calls m, m.Silent → J past calls → J (past ++ [m]) calls) :
    Kept machine (Recorded machine K J start) := by
  have htrue : Kept machine fun _ _ => True := by constructor <;> intros <;> trivial
  have hkept : Kept machine fun past w => True ∧ Recorded machine K J start past w :=
    Recorded.kept_along htrue
      (fun past w w' calls op answer _ => hquiet past w w' calls op answer) hsilent
  simpa only [true_and] using hkept

end

end Rendezvous
