import Rendezvous.Calls

/-!
# Dialogues with the machine

A run talks with the machine by attempts to call its services. An attempt reaches the machine if the
environment works and the table has the service: then the machine answers, and the call stands in
the journal with the reply. Otherwise the attempt fails at once, with a failure of its own, and
leaves no trace. A dialogue is a sequence of attempts with log records between them, and a course of
things is what the machine gets to see of it; neither touches the agent.
-/

namespace Rendezvous

variable {σ α : Type}

def Reply.failure? : Reply α → Option Failure
  | .ok _ => none
  | .error failure => some failure

namespace Call

/-- The service that is called; handing out environments is none of the interface. -/
def service? : Call → Option Service
  | environment _ _ => none
  | addCapabilities _ _ => some .addCapabilities
  | setEventCallbacks _ _ => some .setEventCallbacks
  | setEventNotificationMode _ _ _ _ => some .setEventNotificationMode
  | getClassSignature _ _ => some .getClassSignature
  | getClassMethods _ _ => some .getClassMethods
  | getMethodName _ _ => some .getMethodName
  | setBreakpoint _ _ _ => some .setBreakpoint
  | deallocate _ _ => some .deallocate

/-- The failure that was replied, if one was. -/
def failure? : Call → Option Failure
  | environment _ _ => none
  | addCapabilities _ reply => reply.failure?
  | setEventCallbacks _ reply => reply.failure?
  | setEventNotificationMode _ _ _ reply => reply.failure?
  | getClassSignature _ reply => reply.failure?
  | getClassMethods _ reply => reply.failure?
  | getMethodName _ reply => reply.failure?
  | setBreakpoint _ _ reply => reply.failure?
  | deallocate _ reply => reply.failure?

end Call

/-- In the first state the machine gives the reply that the call records, and goes over to the
second. -/
def Machine.Answers (machine : Machine σ) : Call → σ → σ → Prop
  | .environment version status, s, s' => ∃ env, machine.environment version s = ((status, env), s')
  | .addCapabilities wanted reply, s, s' => machine.addCapabilities wanted s = (reply, s')
  | .setEventCallbacks callbacks reply, s, s' => machine.setEventCallbacks callbacks s = (reply, s')
  | .setEventNotificationMode mode event thread reply, s, s' =>
    machine.setEventNotificationMode mode event thread s = (reply, s')
  | .getClassSignature klass reply, s, s' => machine.getClassSignature klass s = (reply, s')
  | .getClassMethods klass reply, s, s' => machine.getClassMethods klass s = (reply, s')
  | .getMethodName method reply, s, s' => machine.getMethodName method s = (reply, s')
  | .setBreakpoint method location reply, s, s' =>
    machine.setBreakpoint method location s = (reply, s')
  | .deallocate address reply, s, s' => machine.deallocate address s = (reply, s')

/-- Whether every call of the machine keeps a property of its state. -/
def Machine.Keeps (machine : Machine σ) (P : σ → Prop) : Prop :=
  ∀ call s s', machine.Answers call s s' → P s → P s'

/-- The calls of a journal, without all that is not a call. -/
def callsOf (journal : List Entry) : List Call :=
  journal.filterMap fun
    | .call call => some call
    | _ => none

@[simp] theorem callsOf_nil : callsOf [] = [] := rfl
@[simp] theorem callsOf_append (a b : List Entry) : callsOf (a ++ b) = callsOf a ++ callsOf b :=
  List.filterMap_append
@[simp] theorem callsOf_call (call : Call) (rest : List Entry) :
    callsOf (.call call :: rest) = call :: callsOf rest := rfl
@[simp] theorem callsOf_log (record : Log.Record) (rest : List Entry) :
    callsOf (.log record :: rest) = callsOf rest := rfl
@[simp] theorem callsOf_arrival (arrival : Arrival) (rest : List Entry) :
    callsOf (.arrival arrival :: rest) = callsOf rest := rfl

/-- The world after a call of the machine. -/
def World.called (w : World σ) (call : Call) (s : σ) : World σ :=
  { w with machine := s, journal := w.journal ++ [.call call] }

/-! ## Calls that are made -/

/-- A course of things in which the machine is called, in this order and with these replies, and
which otherwise only tells the logger. -/
inductive Course (machine : Machine σ) : World σ → List Call → World σ → Prop where
  | stay (w : World σ) : Course machine w [] w
  | call {w w' : World σ} {call : Call} {s : σ} {calls : List Call} :
      machine.Answers call w.machine s → Course machine (w.called call s) calls w' →
      Course machine w (call :: calls) w'
  | record {w w' : World σ} {calls : List Call} (level : Log.Level) (component : Log.Component)
      (text : String) : Course machine (report level component text w).2 calls w' →
      Course machine w calls w'
  | logger {w w' : World σ} {calls : List Call} (logger : Log.Logger) :
      Course machine { w with logger } calls w' → Course machine w calls w'

namespace Course

variable {machine : Machine σ} {w w₁ w' : World σ} {calls others : List Call}

theorem trans (h : Course machine w calls w₁) (h' : Course machine w₁ others w') :
    Course machine w (calls ++ others) w' := by
  induction h with
  | stay => exact h'
  | call ha _ ih => exact .call ha (ih h')
  | record level component text _ ih => exact .record level component text (ih h')
  | logger logger _ ih => exact .logger logger (ih h')

theorem agent_eq (h : Course machine w calls w') :
    w'.agent = w.agent ∧ w'.registration = w.registration := by
  induction h with
  | stay => exact ⟨rfl, rfl⟩
  | call _ _ ih => exact ih
  | record _ _ _ _ ih => exact ih
  | logger _ _ ih => exact ih

/-- Without a call the machine stays as it is. -/
theorem machine_eq (h : Course machine w calls w') (hnone : calls = []) : w'.machine = w.machine := by
  induction h with
  | stay => rfl
  | call _ _ _ => cases hnone
  | record _ _ _ _ ih => exact ih hnone
  | logger _ _ ih => exact ih hnone

/-- No course of things depends on the agent, nor on what the process has registered. -/
theorem frame (h : Course machine w calls w') (agent : Agent) (registration : Registration) :
    Course machine { w with agent, registration } calls { w' with agent, registration } := by
  induction h with
  | stay => exact .stay _
  | call ha _ ih => exact .call ha ih
  | record level component text _ ih => exact .record level component text ih
  | logger logger _ ih => exact .logger logger ih

/-- The journal grows by the calls and by log records. -/
theorem journal (h : Course machine w calls w') :
    ∃ entries, w'.journal = w.journal ++ entries ∧ callsOf entries = calls := by
  induction h with
  | stay => exact ⟨[], by simp⟩
  | @call _ _ call _ _ _ _ ih =>
    obtain ⟨entries, hj, hc⟩ := ih
    exact ⟨.call call :: entries, by simp [hj, World.called], by simp [hc]⟩
  | record level component text _ ih =>
    obtain ⟨entries, hj, hc⟩ := ih
    exact ⟨.log ⟨level, component, text⟩ :: entries, by simp [hj, report], by simp [hc]⟩
  | logger _ _ ih => exact ih

/-- Up to each call of a course, things have taken the course of the calls before it. -/
theorem split {before after : List Call} {call : Call} (h : Course machine w calls w')
    (hsplit : calls = before ++ call :: after) :
    ∃ w₁ s, Course machine w before w₁ ∧ machine.Answers call w₁.machine s := by
  induction h generalizing before with
  | stay => simp at hsplit
  | @call w _ first s _ ha _ ih =>
    cases before with
    | nil =>
      obtain ⟨rfl, -⟩ := List.cons.inj hsplit
      exact ⟨w, s, .stay w, ha⟩
    | cons _ _ =>
      obtain ⟨rfl, hrest⟩ := List.cons.inj hsplit
      obtain ⟨w₁, s', hc, ha'⟩ := ih hrest
      exact ⟨w₁, s', .call ha hc, ha'⟩
  | record level component text _ ih =>
    obtain ⟨w₁, s, hc, ha⟩ := ih hsplit
    exact ⟨w₁, s, .record level component text hc, ha⟩
  | logger logger _ ih =>
    obtain ⟨w₁, s, hc, ha⟩ := ih hsplit
    exact ⟨w₁, s, .logger logger hc, ha⟩

theorem keeps {P : σ → Prop} (hP : machine.Keeps P) (h : Course machine w calls w') :
    P w.machine → P w'.machine := by
  induction h with
  | stay => exact id
  | call ha _ ih => exact fun hw => ih (hP _ _ _ ha hw)
  | record _ _ _ _ ih => exact ih
  | logger _ _ ih => exact ih

end Course

/-! ## Calls that are attempted -/

section

variable (machine : Machine σ) (env : Env)

/-- Why a call does not reach the machine in some state. -/
inductive Unmade (call : Call) (s : σ) : Prop where
  | invalid : env ≠ .live → call.failure? = some .invalidEnvironment → Unmade call s
  | missing {service : Service} : env = .live → call.service? = some service →
      machine.provides service s = false → call.failure? = some .notAvailable → Unmade call s

/-- With an environment that works, only a service that is missing is not reached. -/
theorem Unmade.lacks {machine : Machine σ} {call : Call} {s : σ}
    (h : Unmade machine .live call s) : ∃ service, machine.provides service s = false := by
  cases h with
  | invalid hne _ => exact absurd rfl hne
  | missing _ _ hp _ => exact ⟨_, hp⟩

/-- One attempt to call a service. -/
inductive Attempt (call : Call) : World σ → World σ → Prop where
  | made {w : World σ} {s : σ} {service : Service} : env = .live →
      call.service? = some service → machine.provides service w.machine = true →
      machine.Answers call w.machine s → Attempt call w (w.called call s)
  | unmade {w : World σ} : Unmade machine env call w.machine → Attempt call w w

/-- Attempts in order, with log records between them. -/
inductive Dialogue : World σ → List Call → World σ → Prop where
  | silence (w : World σ) : Dialogue w [] w
  | attempt {w w₁ w₂ : World σ} {call : Call} {calls : List Call} :
      Attempt machine env call w w₁ → Dialogue w₁ calls w₂ → Dialogue w (call :: calls) w₂
  | record {w w₂ : World σ} {calls : List Call} (level : Log.Level) (component : Log.Component)
      (text : String) : Dialogue (report level component text w).2 calls w₂ → Dialogue w calls w₂

variable {machine env}

theorem Dialogue.single {call : Call} {w w' : World σ} (h : Attempt machine env call w w') :
    Dialogue machine env w [call] w' := .attempt h (.silence _)

theorem Dialogue.report (level : Log.Level) (component : Log.Component) (text : String)
    (w : World σ) : Dialogue machine env w [] (report level component text w).2 :=
  .record level component text (.silence _)

theorem Dialogue.trans {w w₁ w₂ : World σ} {calls others : List Call}
    (h : Dialogue machine env w calls w₁) (h' : Dialogue machine env w₁ others w₂) :
    Dialogue machine env w (calls ++ others) w₂ := by
  induction h with
  | silence => exact h'
  | attempt ha _ ih => exact .attempt ha (ih h')
  | record level component text _ ih => exact .record level component text (ih h')

/-- A dialogue can be cut between any two attempts. -/
theorem Dialogue.split {w w' : World σ} {before after : List Call}
    (h : Dialogue machine env w (before ++ after) w') :
    ∃ w₁, Dialogue machine env w before w₁ ∧ Dialogue machine env w₁ after w' := by
  generalize hcalls : before ++ after = calls at h
  induction h generalizing before with
  | silence w =>
    obtain ⟨rfl, rfl⟩ := List.append_eq_nil_iff.mp hcalls
    exact ⟨w, .silence w, .silence w⟩
  | @attempt w _ _ call calls ha hrest ih =>
    cases before with
    | nil =>
      obtain rfl : after = call :: calls := hcalls
      exact ⟨w, .silence w, .attempt ha hrest⟩
    | cons first before =>
      obtain ⟨rfl, htail⟩ := List.cons.inj hcalls
      obtain ⟨w₁, hfirst, hlast⟩ := ih htail
      exact ⟨w₁, .attempt ha hfirst, hlast⟩
  | record level component text _ ih =>
    obtain ⟨w₁, hfirst, hlast⟩ := ih hcalls
    exact ⟨w₁, .record level component text hfirst, hlast⟩

theorem Dialogue.reported {w w' : World σ} {calls : List Call} (h : Dialogue machine env w calls w')
    (level : Log.Level) (component : Log.Component) (text : String) :
    Dialogue machine env w calls (Rendezvous.report level component text w').2 := by
  simpa only [List.append_nil] using h.trans (.report level component text w')

/-- What is said does not depend on the agent, nor on what the process has registered. -/
theorem Dialogue.frame {w w' : World σ} {calls : List Call} (h : Dialogue machine env w calls w')
    (agent : Agent) (registration : Registration) :
    Dialogue machine env { w with agent, registration } calls { w' with agent, registration } := by
  induction h with
  | silence => exact .silence _
  | attempt ha _ ih =>
    refine .attempt ?_ ih
    cases ha with
    | made he hs hp hm => exact .made he hs hp hm
    | unmade hu => exact .unmade hu
  | record level component text _ ih => exact .record level component text ih

/-- An element of two lists in a row stands in the one or in the other. -/
theorem append_eq_append_cons {α : Type} {a b past future : List α} {x : α}
    (h : a ++ b = past ++ x :: future) :
    (∃ between, past = a ++ between ∧ b = between ++ x :: future) ∨
      ∃ between, a = past ++ x :: between ∧ future = between ++ b := by
  rcases List.append_eq_append_iff.mp h with ⟨between, hp, hb⟩ | ⟨between, ha, hx⟩
  · exact .inl ⟨between, hp, hb⟩
  · cases between with
    | nil => exact .inl ⟨[], by simpa using ha.symm, by simpa using hx.symm⟩
    | cons y rest =>
      obtain ⟨rfl, hf⟩ := List.cons.inj hx
      exact .inr ⟨rest, ha, hf⟩

/-- The first list is the second without some calls, all of which are of one kind. -/
inductive Without (D : Call → Prop) : List Call → List Call → Prop where
  | nil : Without D [] []
  | keep {made calls : List Call} (call : Call) : Without D made calls →
      Without D (call :: made) (call :: calls)
  | drop {made calls : List Call} {call : Call} : D call → Without D made calls →
      Without D made (call :: calls)

theorem Without.sublist {D : Call → Prop} {made calls : List Call} (h : Without D made calls) :
    made.Sublist calls := by
  induction h with
  | nil => exact .slnil
  | keep call _ ih => exact ih.cons_cons call
  | drop _ _ ih => exact ih.cons _

theorem Without.eq {D : Call → Prop} {made calls : List Call} (h : Without D made calls)
    (hD : ∀ call, ¬ D call) : made = calls := by
  induction h with
  | nil => rfl
  | keep call _ ih => rw [ih]
  | drop hd _ _ => exact absurd hd (hD _)

theorem Without.filter_eq {D : Call → Prop} {made calls : List Call} (h : Without D made calls)
    {p : Call → Bool} (hp : ∀ call, D call → p call = false) : made.filter p = calls.filter p := by
  induction h with
  | nil => rfl
  | keep call _ ih => rw [List.filter_cons, List.filter_cons, ih]
  | drop hd _ ih => rw [ih, List.filter_cons_of_neg (by simp [hp _ hd])]

/-- Of the attempted calls some are made. The others are of each kind that calls must be of to be
left unmade, as long as the machine is in a state that its calls keep. -/
theorem Dialogue.made {P : σ → Prop} {D : Call → Prop} {w w' : World σ} {calls : List Call}
    (hP : machine.Keeps P) (hD : ∀ call s, P s → Unmade machine env call s → D call)
    (h : Dialogue machine env w calls w') (hw : P w.machine) :
    ∃ made, Course machine w made w' ∧ Without D made calls := by
  induction h with
  | silence w => exact ⟨[], .stay w, .nil⟩
  | @attempt w _ _ call _ ha _ ih =>
    cases ha with
    | made _ _ _ hans =>
      obtain ⟨made, hc, hwithout⟩ := ih (hP call _ _ hans hw)
      exact ⟨call :: made, .call hans hc, .keep call hwithout⟩
    | unmade hu =>
      obtain ⟨made, hc, hwithout⟩ := ih hw
      exact ⟨made, hc, .drop (hD call w.machine hw hu) hwithout⟩
  | record level component text _ ih =>
    obtain ⟨made, hc, hwithout⟩ := ih hw
    exact ⟨made, .record level component text hc, hwithout⟩

/-- All attempted calls are made if the environment works and the table is full. -/
theorem Dialogue.course {w w' : World σ} {calls : List Call} (h : Dialogue machine env w calls w') :
    ∃ made, Course machine w made w' ∧ made.Sublist calls ∧
      (env = .live → (∀ service s, machine.provides service s = true) → made = calls) := by
  obtain ⟨made, hc, hwithout⟩ := h.made (fun _ _ _ _ => id)
    (fun call (s : σ) (_ : True) hu => (⟨s, hu⟩ : ∃ s, Unmade machine env call s)) trivial
  refine ⟨made, hc, hwithout.sublist, fun he hfull => hwithout.eq ?_⟩
  rintro call ⟨s, hu⟩
  subst he
  obtain ⟨service, hp⟩ := hu.lacks
  rw [hfull service s] at hp
  cases hp

theorem Dialogue.agent_eq {w w' : World σ} {calls : List Call}
    (h : Dialogue machine env w calls w') :
    w'.agent = w.agent ∧ w'.registration = w.registration := by
  obtain ⟨_, hm, -⟩ := h.course
  exact hm.agent_eq

theorem Dialogue.withAgent {w w' : World σ} {calls : List Call}
    (h : Dialogue machine env w calls w') (agent : Agent) :
    Dialogue machine env { w with agent } calls { w' with agent } := by
  have hr : { w' with agent } = { w' with agent, registration := w.registration } := by
    rw [← h.agent_eq.2]
  rw [hr]
  exact h.frame agent w.registration

/-! ## The services as attempts -/

/-- A way to enter calls into the journal that fits a service. -/
structure Records (machine : Machine σ) (service : Service) (ask : σ → Reply α × σ)
    (entry : Reply α → Call) : Prop where
  service? : ∀ reply, (entry reply).service? = some service := by intro _; rfl
  failure? : ∀ reply, (entry reply).failure? = reply.failure? := by intro _; rfl
  answers : ∀ s, machine.Answers (entry (ask s).1) s (ask s).2 := by intro _; rfl

variable (machine env)

theorem callService_attempt {service : Service} {ask : σ → Reply α × σ} {entry : Reply α → Call}
    (h : Records machine service ask entry) (w : World σ) :
    Attempt machine env (entry (callService machine env service ask entry w).1) w
      (callService machine env service ask entry w).2 := by
  cases env with
  | null => exact .unmade (.invalid (by decide) (h.failure? _))
  | noTable => exact .unmade (.invalid (by decide) (h.failure? _))
  | live =>
    unfold callService
    cases hp : machine.provides service w.machine with
    | true => exact .made rfl (h.service? _) hp (h.answers _)
    | false => exact .unmade (.missing rfl (h.service? _) hp (h.failure? _))

theorem addCapabilities_attempt (wanted : Capabilities) (w : World σ) :
    Attempt machine env (.addCapabilities wanted (addCapabilities machine env wanted w).1) w
      (addCapabilities machine env wanted w).2 :=
  callService_attempt machine env {} w

theorem setEventCallbacks_attempt (callbacks : Callbacks) (w : World σ) :
    Attempt machine env (.setEventCallbacks callbacks (setEventCallbacks machine env callbacks w).1) w
      (setEventCallbacks machine env callbacks w).2 :=
  callService_attempt machine env {} w

theorem setEventNotificationMode_attempt (enable : Bool) (event : UInt32) (thread : ThreadId)
    (w : World σ) :
    Attempt machine env (.setEventNotificationMode (Mode.ofBool enable) event thread
        (setEventNotificationMode machine env enable event thread w).1) w
      (setEventNotificationMode machine env enable event thread w).2 :=
  callService_attempt machine env {} w

theorem getClassSignature_attempt (klass : ClassId) (w : World σ) :
    Attempt machine env (.getClassSignature klass (getClassSignature machine env klass w).1) w
      (getClassSignature machine env klass w).2 :=
  callService_attempt machine env {} w

theorem getClassMethods_attempt (klass : ClassId) (w : World σ) :
    Attempt machine env (.getClassMethods klass (getClassMethods machine env klass w).1) w
      (getClassMethods machine env klass w).2 :=
  callService_attempt machine env {} w

theorem getMethodName_attempt (method : MethodId) (w : World σ) :
    Attempt machine env (.getMethodName method (getMethodName machine env method w).1) w
      (getMethodName machine env method w).2 :=
  callService_attempt machine env {} w

theorem setBreakpoint_attempt (method : MethodId) (location : Int64) (w : World σ) :
    Attempt machine env
      (.setBreakpoint method location (setBreakpoint machine env method location w).1) w
      (setBreakpoint machine env method location w).2 :=
  callService_attempt machine env {} w

/-- The calls that give something back: none for null. -/
def givingBack : Address → Reply Unit → List Call
  | .null, _ => []
  | address, reply => [.deallocate address reply]

theorem deallocate_dialogue (address : Address) (w : World σ) :
    Dialogue machine env w (givingBack address (deallocate machine env address w).1)
      (deallocate machine env address w).2 := by
  cases address with
  | null => exact .silence w
  | buffer number => exact .single (callService_attempt machine env {} w)
  | stray => exact .single (callService_attempt machine env {} w)

/-- A release is one attempt at most, whatever becomes of it. -/
theorem release_dialogue (what : String) (address : Address) (w : World σ) :
    ∃ reply, Dialogue machine env w (givingBack address reply)
      (release machine env what address w).2 := by
  refine ⟨(deallocate machine env address w).1, ?_⟩
  have h := deallocate_dialogue machine env address w
  simp only [release, Run.bind_apply]
  cases hr : (deallocate machine env address w).1 with
  | ok _ => simpa only [hr, Run.pure_apply] using h
  | error failure =>
    rw [hr] at h
    exact h.reported ..

end

end Rendezvous
