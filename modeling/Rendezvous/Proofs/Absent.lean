import Rendezvous.Proofs.LikeHosts

/-!
# Services that are missing

A service that is missing from the table is as good as one that fails with `notAvailable` at every
call, and an environment that does not work as good as one through which every call fails with
`invalidEnvironment`. Only the failed calls tell them apart, which stand in the journal of the one
run and not of the other.
-/

namespace Rendezvous

variable {σ τ : Type}

/-! ## Missing and failing services -/

/-- The machine without these services. -/
def Machine.lacking (machine : Machine σ) (absent : Service → Bool) : Machine σ :=
  { machine with provides := fun service s => !absent service && machine.provides service s }

/-- Fails in this way and does nothing if the service is refused; else asks for it. -/
def refuseIf {α : Type} (refused : Bool) (failure : Failure) (ask : σ → Reply α × σ) :
    σ → Reply α × σ := fun s => if refused then (.error failure, s) else ask s

/-- The machine with these services present, which fail in this way at every call and do nothing. -/
def Machine.failing (machine : Machine σ) (services : Service → Bool) (failure : Failure) :
    Machine σ where
  reference := machine.reference
  provides service s := services service || machine.provides service s
  environment := machine.environment
  addCapabilities wanted :=
    refuseIf (services .addCapabilities) failure (machine.addCapabilities wanted)
  setEventCallbacks callbacks :=
    refuseIf (services .setEventCallbacks) failure (machine.setEventCallbacks callbacks)
  setEventNotificationMode mode event thread :=
    refuseIf (services .setEventNotificationMode) failure
      (machine.setEventNotificationMode mode event thread)
  getClassSignature klass :=
    refuseIf (services .getClassSignature) failure (machine.getClassSignature klass)
  getClassMethods klass :=
    refuseIf (services .getClassMethods) failure (machine.getClassMethods klass)
  getMethodName method :=
    refuseIf (services .getMethodName) failure (machine.getMethodName method)
  setBreakpoint method location :=
    refuseIf (services .setBreakpoint) failure (machine.setBreakpoint method location)
  deallocate address := refuseIf (services .deallocate) failure (machine.deallocate address)

theorem refuseIf_iff {α : Type} {refused : Bool} {failure : Failure} {ask : σ → Reply α × σ}
    {reply : Reply α} {s s' : σ} :
    refuseIf refused failure ask s = (reply, s') ↔
      if refused then reply.failure? = some failure ∧ s' = s else ask s = (reply, s') := by
  cases refused with
  | false => exact Iff.rfl
  | true =>
    simp only [refuseIf, if_true, Prod.mk.injEq]
    constructor
    · rintro ⟨rfl, rfl⟩
      exact ⟨rfl, rfl⟩
    · rintro ⟨hfails, rfl⟩
      exact ⟨(Reply.eq_of_failure hfails).symm, rfl⟩

theorem Machine.failing_answers {machine : Machine σ} {services : Service → Bool}
    {failure : Failure} {call : Call} {service : Service} {s s' : σ}
    (hservice : call.service? = some service) :
    (machine.failing services failure).Answers call s s' ↔
      if services service then call.failure? = some failure ∧ s' = s
      else machine.Answers call s s' := by
  cases call with
  | environment _ _ => cases hservice
  | _ =>
    cases hservice
    exact refuseIf_iff

theorem Machine.failing_refuses (machine : Machine σ) {services : Service → Bool} {failure : Failure}
    {service : Service} (h : services service = true) :
    (machine.failing services failure).Refuses Eq service failure where
  provides := by rintro s _ rfl; simp [failing, h]
  answers := by
    rintro call s _ s' hservice rfl hans
    rw [failing_answers hservice, if_pos h] at hans
    exact ⟨hans.1, hans.2.symm⟩

/-! ## Runs without the services -/

/-- Whether an entry is a call of one of these services. -/
def Entry.calls (services : Service → Bool) : Entry → Bool
  | .call made => made.service?.any services
  | _ => false

/-- Everything is compared but the calls of these services. -/
def Likeness.uncalled (absent : Service → Bool) (same : σ → τ → Prop) : Likeness σ τ where
  view := id
  machines := same
  loggers := Eq
  counts entry := !entry.calls absent

/-- One machine lacks the services that the other refuses as not available, and in all others they
match. -/
structure Machine.Lacks (m : Machine σ) (n : Machine τ) (same : σ → τ → Prop)
    (absent : Service → Bool) : Prop
    extends m.Matches n same fun service => absent service = false where
  lacks : ∀ service s t, absent service = true → same s t → m.provides service s = false
  refuses : ∀ service, absent service = true → n.Refuses same service .notAvailable

theorem Machine.lacks_failing (machine : Machine σ) (absent : Service → Bool) :
    (machine.lacking absent).Lacks (machine.failing absent .notAvailable) Eq absent where
  reference := by rintro s _ rfl; rfl
  environment := by rintro version s _ rfl; exact ⟨rfl, rfl⟩
  provides := by rintro service s _ hpresent rfl; simp [lacking, failing, hpresent]
  answers := by
    rintro call service s s' _ hservice hpresent rfl hans
    refine ⟨s', ?_, rfl⟩
    rw [failing_answers hservice, hpresent, if_neg (by decide)]
    cases call <;> exact hans
  lacks := by rintro service s _ habsent -; simp [lacking, habsent]
  refuses _ habsent := machine.failing_refuses habsent

section

variable {absent : Service → Bool} {same : σ → τ → Prop}

theorem Likeness.uncalled_lawful : (Likeness.uncalled absent same).Lawful :=
  ⟨by rintro a _ record rfl; rfl, by rintro a _ filter rfl; rfl⟩

theorem Likeness.uncalled_counts {call : Call} {service : Service}
    (hservice : call.service? = some service) (habsent : absent service = true) :
    (Likeness.uncalled absent same).counts (.call call) = false := by
  simp [uncalled, Entry.calls, hservice, habsent]

namespace Machine.Lacks

variable {m : Machine σ} {n : Machine τ} (h : m.Lacks n same absent)

include h

theorem callsAgree (env : Env) : CallsAgree (.uncalled absent same) m env n env := by
  by_cases henv : env = .live
  · subst henv
    refine ⟨fun {_ service _ _ _} hm hn => ?_⟩
    cases habsent : absent service with
    | false => exact h.toMatches.callService (l := .uncalled absent same) habsent hm hn .live
    | true =>
      refine (h.refuses service habsent).callService
        (fun _ hservice => Likeness.uncalled_counts hservice habsent) hn fun w v hw => ?_
      rw [callService_live, h.lacks service _ _ habsent hw.machine]
      rfl
  · exact .of_invalid henv

theorem full : Parallel.Full (.uncalled absent same) m n where
  toLawful := Likeness.uncalled_lawful
  environment := h.toMatches.obtainEnv (l := .uncalled absent same)
  echoes env := (h.callsAgree env).echoes Likeness.uncalled_lawful
  marker _ := rfl

end Machine.Lacks

end

/-! ## Through one environment -/

/-- What can be done through an environment that one has, by what it gives. -/
inductive Passage : Type → Type where
  | activate (settings : Settings) : Passage (Except LoadError Unit)
  | requestCapabilities : Passage (Except LoadError Unit)
  | startEvents (callbacks : Callbacks) : Passage (Except LoadError Unit)
  | classPrepared (klass : ClassId) : Passage Outcome
  | deliverClassPrepared (klass : ClassId) : Passage Unit
  | watchClass (klass : ClassId) (marker : Marker) : Passage Outcome
  | isTargetClass (klass : ClassId) (marker : Marker) : Passage (Reply Bool)
  | findMethod (klass : ClassId) (marker : Marker) : Passage (Reply (Option MethodId))
  | arm (method : MethodId) (location : Int64) : Passage (Reply Unit)
  | addCapabilities (wanted : Capabilities) : Passage (Reply Unit)
  | setEventCallbacks (callbacks : Callbacks) : Passage (Reply Unit)
  | setEventNotificationMode (enable : Bool) (event : UInt32) (thread : ThreadId) :
    Passage (Reply Unit)
  | getClassSignature (klass : ClassId) : Passage (Reply LentText)
  | getClassMethods (klass : ClassId) : Passage (Reply LentTable)
  | getMethodName (method : MethodId) : Passage (Reply LentName)
  | setBreakpoint (method : MethodId) (location : Int64) : Passage (Reply Unit)
  | deallocate (address : Address) : Passage (Reply Unit)
  | release (what : String) (address : Address) : Passage Unit

def Passage.run (machine : Machine σ) (env : Env) {α : Type} : Passage α → Run σ α
  | activate settings => Rendezvous.activate machine env settings
  | requestCapabilities => Rendezvous.requestCapabilities machine env
  | startEvents callbacks => Rendezvous.startEvents machine env callbacks
  | classPrepared klass => Rendezvous.classPrepared machine env klass
  | deliverClassPrepared klass => Rendezvous.deliverClassPrepared machine env klass
  | watchClass klass marker => Rendezvous.watchClass machine env klass marker
  | isTargetClass klass marker => Rendezvous.isTargetClass machine env klass marker
  | findMethod klass marker => Rendezvous.findMethod machine env klass marker
  | arm method location => Rendezvous.arm machine env method location
  | addCapabilities wanted => Rendezvous.addCapabilities machine env wanted
  | setEventCallbacks callbacks => Rendezvous.setEventCallbacks machine env callbacks
  | setEventNotificationMode enable event thread =>
    Rendezvous.setEventNotificationMode machine env enable event thread
  | getClassSignature klass => Rendezvous.getClassSignature machine env klass
  | getClassMethods klass => Rendezvous.getClassMethods machine env klass
  | getMethodName method => Rendezvous.getMethodName machine env method
  | setBreakpoint method location => Rendezvous.setBreakpoint machine env method location
  | deallocate address => Rendezvous.deallocate machine env address
  | release what address => Rendezvous.release machine env what address

section

variable {l : Likeness σ τ} {m : Machine σ} {n : Machine τ} {env env' : Env}

/-- Whatever is done through two environments agrees if all calls do. -/
theorem CallsAgree.passage (h : CallsAgree l m env n env') (hl : l.Lawful)
    (hmarker : ∀ settings, (l.view settings).marker = settings.marker) {α : Type}
    (passage : Passage α) : Run.Agree l (passage.run m env) (passage.run n env') := by
  have he := h.echoes hl
  cases passage with
  | activate settings => exact he.activate hl rfl
  | requestCapabilities => exact he.requestCapabilities hl
  | startEvents callbacks => exact he.startEvents hl callbacks
  | classPrepared klass => exact he.classPrepared hl hmarker klass
  | deliverClassPrepared klass => exact he.deliverClassPrepared hl hmarker klass
  | watchClass klass marker => exact he.watchClass hl klass marker
  | isTargetClass klass marker => exact he.isTargetClass klass marker
  | findMethod klass marker => exact he.findMethod hl klass marker
  | arm method location => exact he.arm method location
  | deallocate address => exact h.deallocate address
  | release what address => exact he.release what address
  | _ => exact h.calls {} {}

end

/-! ## Through an environment that does not work -/

section

variable {env : Env} (henv : env ≠ .live) (machine : Machine σ)

include henv

theorem CallsAgree.of_failing :
    CallsAgree (.uncalled (fun _ => true) Eq) machine env
      (machine.failing (fun _ => true) .invalidEnvironment) .live :=
  ⟨fun _ hn => (machine.failing_refuses rfl).callService
    (fun _ hservice => Likeness.uncalled_counts hservice rfl) hn
    fun _ _ _ => callService_invalid henv ..⟩

theorem callsOf_activate (settings : Settings) (w : World σ) :
    callsOf (activate machine env settings w).2.journal = callsOf w.journal := by
  have hconfigured : callsOf (configure settings w).2.journal = callsOf w.journal := by
    simp only [configure, Run.bind_apply, Run.get_apply]
    cases w.agent.settings with
    | none => rfl
    | some _ => simp [report]
  simp [activate, requestCapabilities, addCapabilities, callService_invalid henv, report,
    hconfigured]

theorem callsOf_watchClass (klass : ClassId) (marker : Marker) (w : World σ) :
    callsOf (watchClass machine env klass marker w).2.journal = callsOf w.journal := by
  simp [watchClass, isTargetClass, getClassSignature, callService_invalid henv, report]

theorem callsOf_classPrepared (klass : ClassId) (w : World σ) :
    callsOf (classPrepared machine env klass w).2.journal = callsOf w.journal := by
  simp only [classPrepared, Run.bind_apply, Run.get_apply]
  cases w.agent.settings with
  | none => rfl
  | some settings =>
    simp [watchClass, isTargetClass, getClassSignature, callService_invalid henv, report,
      noteInstalled]

theorem callsOf_deliverClassPrepared (klass : ClassId) (w : World σ) :
    callsOf (deliverClassPrepared machine env klass w).2.journal = callsOf w.journal := by
  simp only [deliverClassPrepared, Run.bind_apply, Run.get_apply]
  cases w.registration with
  | vacant => rfl
  | itself => exact callsOf_classPrepared henv machine klass w
  | another other => exact callsOf_classPrepared henv machine klass _
  | idle => rfl

theorem callsOf_callService {α : Type} (service : Service) (ask : σ → Reply α × σ)
    (entry : Reply α → Call) (w : World σ) :
    callsOf (callService machine env service ask entry w).2.journal = callsOf w.journal := by
  rw [callService_invalid henv]

theorem callsOf_deallocate (address : Address) (w : World σ) :
    callsOf (deallocate machine env address w).2.journal = callsOf w.journal := by
  cases address with
  | null => rfl
  | buffer number => exact callsOf_callService henv ..
  | stray => exact callsOf_callService henv ..

theorem callsOf_release (what : String) (address : Address) (w : World σ) :
    callsOf (release machine env what address w).2.journal = callsOf w.journal := by
  have hback := callsOf_deallocate henv machine address w
  simp only [release, Run.bind_apply]
  cases (deallocate machine env address w).1 with
  | ok _ => exact hback
  | error failure => simpa [report] using hback

/-- Through an environment that does not work, nothing is called. -/
theorem Passage.callsOf_run {α : Type} (passage : Passage α) (w : World σ) :
    callsOf (passage.run machine env w).2.journal = callsOf w.journal := by
  cases passage with
  | activate settings => exact callsOf_activate henv machine settings w
  | requestCapabilities =>
    simp [run, Rendezvous.requestCapabilities, Rendezvous.addCapabilities,
      callService_invalid henv, report]
  | startEvents callbacks =>
    simp [run, Rendezvous.startEvents, Rendezvous.setEventCallbacks, callService_invalid henv]
  | classPrepared klass => exact callsOf_classPrepared henv machine klass w
  | deliverClassPrepared klass => exact callsOf_deliverClassPrepared henv machine klass w
  | watchClass klass marker => exact callsOf_watchClass henv machine klass marker w
  | isTargetClass klass marker =>
    simp [run, Rendezvous.isTargetClass, Rendezvous.getClassSignature, callService_invalid henv]
  | findMethod klass marker =>
    simp [run, Rendezvous.findMethod, Rendezvous.getClassMethods, callService_invalid henv]
  | arm method location =>
    simp [run, Rendezvous.arm, recordMethod, Rendezvous.setBreakpoint, updateAgent,
      callService_invalid henv]
  | deallocate address => exact callsOf_deallocate henv machine address w
  | release what address => exact callsOf_release henv machine what address w
  | _ => exact callsOf_callService henv ..

end

/-! ## Hosts -/

namespace Simulation.Host

/-- The host without these services. -/
def without (host : Host) (absent : Service → Bool) : Host :=
  { host with services := host.services.filter fun service => !absent service }

/-- The host with these services, all of whose calls report this code. -/
def failing (host : Host) (services : Service → Bool) (code : ErrorCode) : Host :=
  { host with
    services := host.services ++ Service.all.filter services
    faults := fun key => if services key.about then .always code else host.faults key }

/-- Hosts of which one lacks services that on the other a fault strikes at every call. -/
structure Lacking (absent : Service → Bool) (host other : Host) : Prop
    extends Like absent True host other where
  lacks : ∀ service, absent service = true → host.services.provides service = false
  provides : ∀ service, absent service = true → other.services.provides service = true
  struck : ∀ key, absent key.about = true → other.faults key = .always .notAvailable

theorem lacking_failing (host : Host) (absent : Service → Bool) :
    Lacking absent (host.without absent) (host.failing absent .notAvailable) where
  toLike := { Like.refl host with
    services := fun service hs => by
      simp [without, failing, ServiceTable.provides, List.contains_eq_mem, hs]
    faults := fun key hk => by simp [without, failing, hk] }
  lacks service hs := by simp [without, ServiceTable.provides, List.contains_eq_mem, hs]
  provides service hs := by
    simp [failing, ServiceTable.provides, List.contains_eq_mem, hs, Service.mem_all]
  struck key hk := by simp [failing, hk]

variable {absent : Service → Bool} {host host' other other' : Host}

/-- What is lacking is told by parts of the hosts that no call changes. -/
theorem Lacking.after (h : Lacking absent host other) (hlike : Like absent True host' other')
    (hf : host'.fixed = host.fixed) (hf' : other'.fixed = other.fixed) :
    Lacking absent host' other' := by
  simp only [fixed, Prod.mk.injEq] at hf hf'
  refine ⟨hlike, ?_, ?_, ?_⟩
  · rw [hf.2.2.1]
    exact h.lacks
  · rw [hf'.2.2.1]
    exact h.provides
  · rw [hf'.2.2.2]
    exact h.struck

theorem unlessFault_struck {α : Type} {key : FaultKey} {code : ErrorCode} {null : α}
    {answer : Host → Reply α × Host} (h : host.faults key = .always code) :
    unlessFault key null answer host = (.ofCode code null, (host.count key).2) := by
  have hc : host.count key = (some code, (host.count key).2) := by
    rw [count, h]
    rfl
  rw [unlessFault, hc]

/-- A call that a fault strikes is counted, and nothing else comes of it. -/
theorem struck_answers {call : Call} {service : Service} (hservice : call.service? = some service)
    (hstruck : ∀ key : FaultKey, key.about = service → host.faults key = .always .notAvailable)
    (h : machine.Answers call host host') :
    call.failure? = some .notAvailable ∧
      ∃ keys, (∀ key ∈ keys, FaultKey.about key = service) ∧
        host' = { host with calls := keys ++ host.calls } := by
  have hone : ∀ {α : Type} {null : α} {answer : Host → Reply α × Host} {reply : Reply α},
      unlessFault (.service service) null answer host = (reply, host') →
      reply.failure? = some .notAvailable ∧
        ∃ keys, (∀ key ∈ keys, FaultKey.about key = service) ∧
          host' = { host with calls := keys ++ host.calls } := by
    intro α null answer reply he
    rw [unlessFault_struck (hstruck _ rfl)] at he
    obtain ⟨rfl, rfl⟩ := Prod.mk.inj he
    exact ⟨rfl, [.service service], by simp [FaultKey.about], rfl⟩
  cases call with
  | environment _ _ => cases hservice
  | setEventNotificationMode mode event thread reply =>
    cases hservice
    -- Here the calls for the event are counted as well.
    have hfault := hstruck (.service .setEventNotificationMode) rfl
    have he : setEventNotificationMode mode event thread host = (.ofCode .notAvailable (),
        { host with
          calls := .mode event :: .service .setEventNotificationMode :: host.calls }) := by
      simp only [setEventNotificationMode, count, hfault]
      rfl
    obtain ⟨rfl, rfl⟩ := Prod.mk.inj (he.symm.trans h)
    exact ⟨rfl, [.mode event, .service .setEventNotificationMode], by simp [FaultKey.about], rfl⟩
  | _ =>
    cases hservice
    exact hone h

/-- Services that are taken from a host are lacking where a fault that always strikes refuses them. -/
theorem lacks (absent : Service → Bool) : machine.Lacks machine (Lacking absent) absent where
  reference _ _ h := h.reference
  environment version host other h := by
    have hsteady := fun host => congrArg Prod.fst (environment_steady version host)
    obtain ⟨hanswer, hlike⟩ := h.toLike.environment version
    exact ⟨hanswer, h.after hlike (hsteady host) (hsteady other)⟩
  provides service _ _ hpresent h := h.services service hpresent
  answers call service host host' other hservice hpresent h hans := by
    have hmatches : machine.Matches machine (Like absent True) _ := matches_like fun _ => trivial
    obtain ⟨other', hans', hlike⟩ :=
      hmatches.answers call service _ _ _ hservice hpresent h.toLike hans
    exact ⟨other', hans', h.after hlike (answers_fixed hans) (answers_fixed hans')⟩
  lacks service _ _ habsent h := h.lacks service habsent
  refuses service habsent := by
    refine ⟨fun _ _ h => h.provides service habsent, ?_⟩
    intro call host other other' hservice h hans
    have hstruck : ∀ key : FaultKey, key.about = service →
        other.faults key = .always .notAvailable := fun key hkey => h.struck key (hkey ▸ habsent)
    obtain ⟨hfails, keys, hkeys, rfl⟩ := struck_answers hservice hstruck hans
    have hlike := h.toLike.count_aside keys fun key hmem => (hkeys key hmem).symm ▸ habsent
    exact ⟨hfails, h.after hlike rfl rfl⟩

end Simulation.Host

open Simulation

/-- A service that is missing is the same as a service that always fails. In runs on any machine, and
on hosts with any classes and faults, taking services away and having them fail as not available
comes to the same at every moment, and the calls are the same but for those of the services; and so
it is with all that can be done through one environment. What is done through an environment that does
not work is the same as if every call failed as one through an invalid environment, and calls
nothing. -/
theorem missing_services_fail (machine : Machine σ) (absent : Service → Bool) :
    (∀ acts w, SideBySide (.uncalled absent Eq) (machine.lacking absent)
      (machine.failing absent .notAvailable) acts w w) ∧
    (∀ acts (w : World Host), SideBySide (.uncalled absent (Host.Lacking absent)) Host.machine
      Host.machine acts { w with machine := w.machine.without absent }
      { w with machine := w.machine.failing absent .notAvailable }) ∧
    (∀ {α : Type} (env : Env) (passage : Passage α), Run.Agree (.uncalled absent Eq)
      (passage.run (machine.lacking absent) env)
      (passage.run (machine.failing absent .notAvailable) env)) ∧
    ∀ {α : Type} (env : Env) (passage : Passage α), env ≠ .live →
      Run.Agree (.uncalled (fun _ => true) Eq) (passage.run machine env)
        (passage.run (machine.failing (fun _ => true) .invalidEnvironment) .live) ∧
      ∀ w, callsOf (passage.run machine env w).2.journal = callsOf w.journal := by
  have hlacks := machine.lacks_failing absent
  refine ⟨fun acts w => ?_, fun acts w => ?_, fun env passage => ?_, fun env passage henv => ?_⟩
  · exact hlacks.full.acts acts w w ⟨rfl, rfl, rfl, rfl, rfl⟩
  · exact (Host.lacks absent).full.acts acts _ _
      ⟨rfl, rfl, Host.lacking_failing w.machine absent, rfl, rfl⟩
  · exact (hlacks.callsAgree env).passage Likeness.uncalled_lawful (fun _ => rfl) passage
  · refine ⟨?_, passage.callsOf_run henv machine⟩
    exact (CallsAgree.of_failing henv machine).passage Likeness.uncalled_lawful (fun _ => rfl) passage

end Rendezvous
