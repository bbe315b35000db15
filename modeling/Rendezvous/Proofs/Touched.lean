import Rendezvous.Proofs.Armed
import Rendezvous.Proofs.Buffers
import Rendezvous.Proofs.Numbering

/-!
# Only the marker is touched

From fresh agents on, breakpoints are set during class-prepares only, one at most in each, at the
first instruction of a method for which the calls before vouch. A hook is entered only by hits of
the recorded method, which some class-prepare has attempted: so the calls vouch for it as well. The
marker is always that of the first settings given. A breakpoint that the machine has accepted means
that its agent has come to the last phase.
-/

namespace Rendezvous

variable {σ : Type}

/-- The settings that were given first, which stay. -/
def firstSettings (deeds : List Deed) : Option Settings :=
  (deeds.filterMap Deed.activation?).head?.map Activation.settings

theorem firstSettings_append (a b : List Deed) :
    firstSettings (a ++ b) = (firstSettings a).or (firstSettings b) := by
  simp only [firstSettings, List.filterMap_append, List.head?_append, Option.map_or]

theorem Agent.follow_fresh_settings (deeds : List Deed) :
    (fresh.follow deeds).settings = firstSettings deeds := rfl

/-! ## One operation -/

/-- The agent for which a breakpoint was attempted, and the method. -/
def attemptOf (done : Option (Subject × Deed)) : Option (Subject × MethodId) :=
  done.bind fun (subject, deed) => deed.attempted?.map fun method => (subject, method)

/-- How calls go along with an attempt: without one they set no breakpoint. With one they vouch for the
method by the settings of its agent, and the breakpoint comes last, if the call is made at all. -/
inductive Touches (settings : Subject → Option Settings) :
    List Call → Option (Subject × MethodId) → Prop where
  | nothing {calls : List Call} : OnlyReads calls → Touches settings calls none
  | attempt {asked last : List Call} {subject : Subject} {method : MethodId} {first : Settings} :
      settings subject = some first → OnlyReads asked → Vouched first.marker method asked →
      (last = [] ∨ ∃ reply, last = [.setBreakpoint method Marker.location reply]) →
      Touches settings (asked ++ last) (some (subject, method))

section

variable {machine : Machine σ} {w w' : World σ} {deed? : Option Deed}

theorem Does.touches (h : Does machine w w' deed?) (subject : Subject)
    {settings : Subject → Option Settings} (hs : settings subject = w.agent.settings) :
    ∃ calls, Course machine w calls { w' with agent := w.agent } ∧
      Touches settings calls (attemptOf (deed?.map fun deed => (subject, deed))) := by
  cases h with
  | turns hne ht =>
    obtain ⟨calls, hc, hsetup⟩ := ht.setsUp
    have hnone : attemptOf (deed?.map fun deed => (subject, deed)) = none := by
      have hattempted := (nothing_attempted hne).2
      cases deed? with
      | none => rfl
      | some deed =>
        rw [Option.bind_some] at hattempted
        simp [attemptOf, hattempted]
    rw [hnone]
    exact ⟨calls, hc, .nothing (onlyReads_of_isSetup hsetup)⟩
  | rests he =>
    subst he
    exact ⟨[], .stay _, .nothing (by simp [OnlyReads])⟩
  | @visits env klass first calls outcome hfirst hv hd _ =>
    obtain ⟨made, hc, hwithout⟩ := hd.without_failed
    refine ⟨made, hc, ?_⟩
    cases hv.marks with
    | nothing hreads hnone =>
      have hattempt : attemptOf (some (subject, .prepared outcome)) = none := by
        simp [attemptOf, Deed.attempted?, hnone]
      simp only [Option.map_some, hattempt]
      exact .nothing (hreads.sublist hwithout.sublist)
    | @breakpoint asked method reply hreads hvouched =>
      have hattempt : attemptOf (some (subject, .prepared (.ofReply method reply))) =
          some (subject, method) := by
        cases reply <;> rfl
      simp only [Option.map_some, hattempt]
      obtain ⟨before, last, rfl, hbefore, hlast⟩ := hwithout.append
      refine .attempt (hs.trans hfirst) (hreads.sublist hbefore.sublist)
        (hvouched.of_succeeding (hbefore.filter_eq fun _ => id)) ?_
      cases hlast with
      | keep call hnil =>
        cases hnil
        exact .inr ⟨reply, rfl⟩
      | drop _ hnil =>
        cases hnil
        exact .inl rfl

theorem Effect.touches {op : Operation} (h : Effect machine op w w') :
    ∃ calls, Since w w' calls ∧
      Touches (fun subject => (w.agentOf subject).settings) calls
        (attemptOf (op.does? machine w)) := by
  have hnothing : Touches (fun subject => (w.agentOf subject).settings) []
      (attemptOf (none : Option (Subject × Deed))) := .nothing (by simp [OnlyReads])
  obtain ⟨calls, hc, ht⟩ := h.course
    (fun calls done => Touches (fun subject => (w.agentOf subject).settings) calls (attemptOf done))
    hnothing fun subject ended deed? hd => hd.touches subject (by cases subject <;> rfl)
  exact ⟨calls, .of_course hc rfl, ht⟩

/-- An attempt is made by a class-prepare. -/
theorem Operation.preparesClass_of_attempt {op : Operation} {subject : Subject} {method : MethodId}
    (h : attemptOf (op.does? machine w) = some (subject, method)) : op.preparesClass = true := by
  obtain ⟨⟨reached, deed⟩, hdoes, hmap⟩ := Option.bind_eq_some_iff.mp h
  obtain ⟨_, hattempted, -⟩ := Option.map_eq_some_iff.mp hmap
  cases deed with
  | prepared outcome => exact preparesClass_of_prepared (by rw [hdoes]; rfl)
  | _ => cases hattempted

theorem Operation.attempted_iff {op : Operation} (subject : Subject) (method : MethodId) :
    (op.deed? machine subject w).bind Deed.attempted? = some method ↔
      attemptOf (op.does? machine w) = some (subject, method) := by
  unfold deed? attemptOf
  cases op.does? machine w with
  | none => simp
  | some done =>
    obtain ⟨reached, deed⟩ := done
    by_cases hr : reached = subject
    · subst hr
      simp
    · simp [hr]

end

/-! ## Runs -/

/-- The breakpoints that a class-prepare sets. -/
def Moment.breakpointCalls : Moment σ → List Call
  | .entered _ _ => []
  | .ended op before _ after =>
    if op.preparesClass then (callsSince before after).filter Call.setsBreakpoint else []

section

variable (machine : Machine σ)

/-- The methods in which an agent has attempted to set a breakpoint. -/
def attemptsOf (subject : Subject) (past : List (Moment σ)) : List MethodId :=
  (history machine subject past).filterMap Deed.attempted?

/-- What is known along a run: class-prepares set the breakpoints, one at most each, where the calls
before vouch for the method, and the calls vouch for every method that has been attempted. -/
structure Touched (past : List (Moment σ)) (calls : List Call) : Prop where
  within : calls.filter Call.setsBreakpoint = past.flatMap Moment.breakpointCalls
  once : ∀ m ∈ past, m.breakpointCalls.length ≤ 1
  breakpoint : ∀ asked method location reply rest,
    calls = asked ++ .setBreakpoint method location reply :: rest →
    location = Marker.location ∧ ∃ subject settings, method ∈ attemptsOf machine subject past ∧
      firstSettings (history machine subject past) = some settings ∧
      Vouched settings.marker method asked
  attempt : ∀ subject method, method ∈ attemptsOf machine subject past →
    ∃ settings, firstSettings (history machine subject past) = some settings ∧
      Vouched settings.marker method calls

variable {machine} {start w w' : World σ} {past : List (Moment σ)} {calls made : List Call}

theorem firstSettings_snoc {subject : Subject} {settings : Settings} (m : Moment σ)
    (h : firstSettings (history machine subject past) = some settings) :
    firstSettings (history machine subject (past ++ [m])) = some settings := by
  rw [history_snoc, firstSettings_append, h, Option.some_or]

theorem attemptsOf_snoc (subject : Subject) (m : Moment σ) :
    attemptsOf machine subject (past ++ [m]) =
      attemptsOf machine subject past ++ ((m.deed? machine subject).bind Deed.attempted?).toList := by
  rw [attemptsOf, history_snoc, List.filterMap_append]
  congr 1
  cases m.deed? machine subject with
  | none => rfl
  | some deed => cases hd : deed.attempted? <;> simp [Option.toList, hd]

theorem Touches.filter_length {settings : Subject → Option Settings}
    {attempt? : Option (Subject × MethodId)} (h : Touches settings made attempt?) :
    (made.filter Call.setsBreakpoint).length ≤ 1 := by
  cases h with
  | nothing hreads => simp [hreads.filter_eq]
  | attempt _ hreads _ hlast =>
    rw [List.filter_append, hreads.filter_eq, List.nil_append]
    rcases hlast with rfl | ⟨reply, rfl⟩
    · exact Nat.zero_le 1
    · exact Nat.le_refl 1

/-- A breakpoint that is set with an attempt comes last, and the method is that of the attempt. -/
theorem Touches.split {settings : Subject → Option Settings}
    {attempt? : Option (Subject × MethodId)} (h : Touches settings made attempt?)
    {asked rest : List Call} {method : MethodId} {location : Int64} {reply : Reply Unit}
    (hsplit : made = asked ++ .setBreakpoint method location reply :: rest) :
    location = Marker.location ∧ ∃ subject first, attempt? = some (subject, method) ∧
      settings subject = some first ∧ Vouched first.marker method asked := by
  have hset : Call.setBreakpoint method location reply ∈ made := by simp [hsplit]
  cases h with
  | nothing hreads => cases hreads _ hset
  | @attempt before last subject _ first hs hreads hv hlast =>
    rcases append_eq_append_cons hsplit with ⟨between, rfl, hend⟩ | ⟨between, rfl, -⟩
    · rcases hlast with rfl | ⟨_, rfl⟩
      · simp at hend
      · cases between with
        | nil =>
          cases hend
          exact ⟨rfl, subject, first, rfl, hs, by simpa using hv⟩
        | cons _ _ => simp at hend
    -- Before the breakpoint of the attempt there are only calls that read.
    · cases hreads (.setBreakpoint method location reply) (by simp)

/-- What a moment adds: the calls made with it and the attempt that it is, if it is one. -/
theorem Touched.moment {attempt? : Option (Subject × MethodId)} {m : Moment σ}
    (h : Touched machine past calls)
    (ht : Touches (fun subject => firstSettings (history machine subject past)) made attempt?)
    (hm : ∀ subject method, (m.deed? machine subject).bind Deed.attempted? = some method ↔
      attempt? = some (subject, method))
    (hcalls : m.breakpointCalls = made.filter Call.setsBreakpoint) :
    Touched machine (past ++ [m]) (calls ++ made) := by
  constructor
  · rw [List.filter_append, h.within, List.flatMap_append, List.flatMap_singleton, hcalls]
  · intro other hmem
    rcases List.mem_append.mp hmem with hmem | hmem
    · exact h.once other hmem
    · rw [List.mem_singleton.mp hmem, hcalls]
      exact ht.filter_length
  · intro asked method location reply rest hsplit
    rcases append_eq_append_cons hsplit with ⟨between, rfl, hmade⟩ | ⟨between, hcalls, -⟩
    · obtain ⟨hl, subject, settings, rfl, hs, hv⟩ := ht.split hmade
      refine ⟨hl, subject, settings, ?_, firstSettings_snoc m hs,
        hv.mono (List.sublist_append_right ..)⟩
      rw [attemptsOf_snoc, (hm subject method).mpr rfl]
      simp
    · obtain ⟨hl, subject, settings, hmem, hs, hv⟩ := h.breakpoint _ _ _ _ _ hcalls
      refine ⟨hl, subject, settings, ?_, firstSettings_snoc m hs, hv⟩
      rw [attemptsOf_snoc]
      exact List.mem_append_left _ hmem
  · intro subject method hmem
    rw [attemptsOf_snoc] at hmem
    rcases List.mem_append.mp hmem with hmem | hmem
    · obtain ⟨settings, hs, hv⟩ := h.attempt subject method hmem
      exact ⟨settings, firstSettings_snoc m hs, hv.mono (List.sublist_append_left ..)⟩
    · have ha := (hm subject method).mp (by simpa using hmem)
      subst ha
      cases ht with
      | @attempt asked last _ _ first hs _ hv _ =>
        refine ⟨first, firstSettings_snoc m hs, hv.mono ?_⟩
        exact (List.sublist_append_left asked last).trans (List.sublist_append_right ..)

/-- Entering the hook and leaving it attempt nothing. -/
theorem Moment.Silent.attempts_nothing {m : Moment σ} (h : m.Silent) (subject : Subject) :
    (m.deed? machine subject).bind Deed.attempted? = none := by
  cases h with
  | entered arrival world => cases subject <;> rfl
  | left answer after ha =>
    simp only [Moment.deed?, Operation.deed?, Operation.does_of_arrival ha, Option.bind_none]

theorem Moment.Silent.breakpointCalls_eq {m : Moment σ} (h : m.Silent) : m.breakpointCalls = [] := by
  cases h with
  | entered arrival world => rfl
  | @left op before arrival answer after ha =>
    have hp : op.preparesClass = false := by
      obtain ⟨hit, -, rfl | ⟨rfl, -⟩⟩ := Operation.of_arrival ha <;> rfl
    simp [breakpointCalls, hp]

theorem Touched.kept {start : World σ} (hfresh : ∀ subject, start.agentOf subject = .fresh) :
    Kept machine fun past w => Followed machine start past w ∧
      Recorded machine (fun _ => True) (Touched machine) start past w := by
  refine Recorded.kept_along Followed.kept ?_ ?_
  · intro past w w' calls op answer hfollowed _ h he
    obtain ⟨made, hsince, ht⟩ := he.touches
    have hsettings : (fun subject => (w.agentOf subject).settings) =
        fun subject => firstSettings (history machine subject past) := by
      funext subject
      rw [hfollowed subject, hfresh subject, Agent.follow_fresh_settings]
    rw [hsettings] at ht
    refine ⟨made, hsince, trivial, h.moment ht (Operation.attempted_iff (w := w)) ?_⟩
    rw [Moment.breakpointCalls, hsince.callsSince_eq]
    cases hp : op.preparesClass with
    | true => rfl
    | false =>
      generalize hattempt : attemptOf (op.does? machine w) = attempt? at ht
      cases ht with
      | nothing hreads => simp [hreads.filter_eq]
      | attempt _ _ _ _ =>
        rw [Operation.preparesClass_of_attempt hattempt] at hp
        cases hp
  · intro past calls m hsilent h
    have hm : ∀ subject method, (m.deed? machine subject).bind Deed.attempted? = some method ↔
        (none : Option (Subject × MethodId)) = some (subject, method) := by
      intro subject method
      simp [hsilent.attempts_nothing]
    have ht : Touches (fun subject => firstSettings (history machine subject past)) [] none :=
      .nothing (by simp [OnlyReads])
    have hnothing := h.moment ht hm hsilent.breakpointCalls_eq
    rwa [List.append_nil] at hnothing

theorem Touched.nil : Touched machine [] [] := by
  constructor
  · rfl
  · simp
  · simp
  · intro subject method hmem
    cases hmem

/-! ## Entries into hooks -/

variable (machine)

/-- A hit that enters the hook of an agent is one of its recorded method. -/
def Moment.AtTarget (m : Moment σ) : Prop :=
  ∀ subject arrival, m.deed? machine subject = some (.entered arrival) →
    (m.world.agentOf subject).target.get = some arrival.method

variable {machine}

theorem Moment.AtTarget.kept : Kept machine fun past _ => ∀ m ∈ past, m.AtTarget machine where
  quiet := by
    intro past w op hook h ha
    refine List.forall_mem_append.mpr ⟨h, List.forall_mem_singleton.mpr ?_⟩
    intro subject arrival hd
    have hdeed : op.deed? machine subject w = some (.entered arrival) := hd
    have hagent := (op.run_effect machine hook w ha).agentOf_eq subject
    obtain ⟨rfl, hit, harrival⟩ := Operation.of_entered hdeed
    obtain ⟨hholds, rfl⟩ := World.arrival?_eq_some.mp harrival
    rw [Moment.world_ended, hagent, hdeed]
    exact TargetSlot.holds_iff.mp hholds
  enters := by
    intro past w op arrival h ha
    refine List.forall_mem_append.mpr ⟨h, List.forall_mem_singleton.mpr ?_⟩
    intro subject other hd
    cases subject with
    | registered => cases hd
    | own =>
      cases hd
      obtain ⟨hit, harrival, -⟩ := Operation.of_arrival ha
      obtain ⟨hholds, rfl⟩ := World.arrival?_eq_some.mp harrival
      exact TargetSlot.holds_iff.mp hholds
  leaves := by
    intro past w op before arrival ending h ha
    refine List.forall_mem_append.mpr ⟨h, List.forall_mem_singleton.mpr ?_⟩
    intro subject other hd
    simp only [Moment.deed?, Operation.deed?, Operation.does_of_arrival ha, Option.bind_none] at hd
    cases hd
  records := by
    intro past w level component text h
    exact h

/-- The recorded method of an agent that was fresh has been attempted. -/
theorem Followed.target_attempted {subject : Subject} {method : MethodId}
    (h : Followed machine start past w) (hfresh : start.agentOf subject = .fresh)
    (ht : (w.agentOf subject).target.get = some method) :
    method ∈ attemptsOf machine subject past := by
  obtain ⟨-, -, htarget, -⟩ := Agent.follow_fresh (history machine subject past)
  rw [h subject, hfresh, htarget] at ht
  exact List.mem_of_getLast? (Option.filter_eq_some_iff.mp ht).1

/-- A breakpoint that a class-prepare installed has been installed for one of the agents. -/
theorem mem_installedBy {method : MethodId} (h : method ∈ installedBy machine past) :
    ∃ subject, Deed.prepared (.installed method) ∈ history machine subject past := by
  obtain ⟨m, hmem, hd⟩ := List.mem_filterMap.mp h
  obtain ⟨deed, hdoes, hinstalled⟩ := Option.bind_eq_some_iff.mp hd
  have hdeed : deed = .prepared (.installed method) := by
    cases deed with
    | prepared outcome =>
      cases outcome with
      | installed other =>
        cases hinstalled
        rfl
      | _ => cases hinstalled
    | _ => cases hinstalled
  subst hdeed
  cases m with
  | entered arrival world => cases hdoes
  | ended op before answer after =>
    obtain ⟨⟨subject, deed⟩, hop, he⟩ := Option.map_eq_some_iff.mp hdoes
    cases he
    refine ⟨subject, List.mem_filterMap.mpr ⟨_, hmem, ?_⟩⟩
    simp [Moment.deed?, Operation.deed?, hop]

theorem phaseOf_of_installed {deeds : List Deed} {method : MethodId}
    (h : Deed.prepared (.installed method) ∈ deeds) : phaseOf deeds = .installed := by
  have hany : deeds.any Deed.installs = true := List.any_eq_true.mpr ⟨_, h, rfl⟩
  simp only [phaseOf, hany, if_true]

/-- Neither settings are given nor breakpoints installed by an entry into a hook. -/
theorem firstSettings_of_entered {subject : Subject} {arrival : Arrival} {m : Moment σ}
    (h : m.deed? machine subject = some (.entered arrival)) :
    firstSettings (history machine subject (past ++ [m])) =
      firstSettings (history machine subject past) := by
  rw [history_snoc, h, firstSettings_append]
  exact Option.or_none

theorem installedBy_of_entered {subject : Subject} {arrival : Arrival} {m : Moment σ}
    (h : m.deed? machine subject = some (.entered arrival)) :
    installedBy machine (past ++ [m]) = installedBy machine past := by
  have hdoes := Moment.does_of_deed h
  simp [installedBy, hdoes, Deed.installed?]

end

/-- Only the marker is touched, in every run from fresh agents on. Breakpoints are set by class-
prepares and nothing else, one at most by each, at the first instruction of a method for which the
calls before vouch, by the settings that its agent was given first. They vouch likewise for each
method of a hit by the time it enters a hook. If the machine has then accepted a breakpoint in the
method, and not for another agent, the agent of the hook is in the last phase. -/
theorem only_the_marker_is_touched (machine : Machine σ) (acts : List Act) (start : World σ)
    (hfresh : ∀ subject, start.agentOf subject = .fresh) :
    (∀ past w, Point machine acts start past w →
      (callsSince start w).filter Call.setsBreakpoint = past.flatMap Moment.breakpointCalls ∧
      (∀ m ∈ past, m.breakpointCalls.length ≤ 1) ∧
      ∀ asked method location reply rest,
        callsSince start w = asked ++ .setBreakpoint method location reply :: rest →
        location = Marker.location ∧
          ∃ subject settings, method ∈ attemptsOf machine subject past ∧
            firstSettings (history machine subject past) = some settings ∧
            Vouched settings.marker method asked) ∧
    ∀ past m future subject arrival, momentsOf machine acts start = past ++ m :: future →
      m.deed? machine subject = some (.entered arrival) →
      (∃ settings, firstSettings (history machine subject past) = some settings ∧
        Vouched settings.marker arrival.method (callsSince start m.world)) ∧
      ((∃ location, (arrival.method, location) ∈ accepted (callsSince start m.world)) →
        (∀ other, other ≠ subject →
          .prepared (.installed arrival.method) ∉ history machine other past) →
        (m.world.agentOf subject).phase.get = .installed) := by
  have touched : ∀ past w, Point machine acts start past w →
      Followed machine start past w ∧
        Recorded machine (fun _ => True) (Touched machine) start past w := fun past w hp =>
    (Touched.kept hfresh).at_point ⟨.nil start, .nil trivial .nil⟩ hp
  constructor
  · intro past w hp
    obtain ⟨-, hrecorded⟩ := touched past w hp
    exact ⟨hrecorded.known.within, hrecorded.known.once, hrecorded.known.breakpoint⟩
  · intro past m future subject arrival hm hd
    have hp : Point machine acts start (past ++ [m]) m.world := .moment past m future hm
    obtain ⟨hfollowed, hrecorded⟩ := touched _ _ hp
    have htarget := Moment.AtTarget.kept.at_point (by simp) hp m (by simp) subject arrival hd
    constructor
    -- The method of the entry is the recorded one, and what is recorded has been attempted.
    · have hmem := hfollowed.target_attempted (hfresh subject) htarget
      obtain ⟨settings, hs, hv⟩ := hrecorded.known.attempt subject arrival.method hmem
      exact ⟨settings, (firstSettings_of_entered hd).symm.trans hs, hv⟩
    · rintro ⟨location, haccepted⟩ halone
      have hreported := (Reported.kept.at_point (.nil trivial ⟨rfl, by simp⟩) hp).known.accepted
      rw [hreported, installedBy_of_entered hd] at haccepted
      obtain ⟨method, hinstalled, he⟩ := List.mem_map.mp haccepted
      cases he
      -- The accepted breakpoint has been installed for some agent, hence for this one.
      obtain ⟨reached, hdeed⟩ := mem_installedBy hinstalled
      have hreached : reached = subject :=
        Decidable.byContradiction fun hne => halone reached hne hdeed
      subst hreached
      obtain ⟨-, hphase, -⟩ := Agent.follow_fresh (history machine reached (past ++ [m]))
      rw [hfollowed reached, hfresh reached, hphase]
      have hmore : .prepared (.installed arrival.method) ∈ history machine reached (past ++ [m]) := by
        rw [history_snoc]
        exact List.mem_append_left _ hdeed
      exact phaseOf_of_installed hmore

section

open Simulation Host

/-- The first loader's class is prepared. -/
def firstLoaderActs : List Act :=
  [.operation (.activate .live .standard) [] .returned,
    .operation (.classPrepared .live ⟨1⟩) [] .returned]

def firstLoaderReady : World Host := (runActs Host.machine firstLoaderActs twoLoadersStart).2

/-- A hit of the first loader's marker. -/
def firstLoaderHit : Hit := ⟨.null, .null, ⟨1⟩, Marker.location⟩

def firstLoaderRun : List Act :=
  firstLoaderActs ++ [.operation (.breakpointHit firstLoaderHit) [] .returned]

theorem only_the_marker_is_touched_first_loader :
    (∀ subject, twoLoadersStart.agentOf subject = .fresh) ∧
      ∃ past m future arrival,
        momentsOf Host.machine firstLoaderRun twoLoadersStart = past ++ m :: future ∧
        m.deed? Host.machine .own = some (.entered arrival) ∧
        (arrival.method, Marker.location) ∈ accepted (callsSince twoLoadersStart m.world) ∧
        (m.world.agentOf .own).phase.get = .installed := by
  have hfresh : ∀ subject, twoLoadersStart.agentOf subject = .fresh := by
    intro subject
    cases subject <;> rfl
  have harrival : (Operation.breakpointHit firstLoaderHit).arrival? firstLoaderReady =
      some { firstLoaderHit with sequence := 1 } := by decide +kernel
  have hoccurs : Occurs Host.machine firstLoaderRun twoLoadersStart _ _ firstLoaderReady :=
    .behind firstLoaderActs (.operation (.breakpointHit firstLoaderHit) [] .returned) twoLoadersStart
  obtain ⟨future, hmoments⟩ := hoccurs.moments
  rw [Act.moments_of_arrival harrival, List.append_assoc, List.cons_append] at hmoments
  have haccepted : (firstLoaderHit.method, Marker.location) ∈ accepted (callsSince twoLoadersStart
      (firstLoaderReady.entering { firstLoaderHit with sequence := 1 })) := by decide +kernel
  have halone : ∀ other, other ≠ Subject.own → .prepared (.installed firstLoaderHit.method) ∉
      history Host.machine other (momentsOf Host.machine firstLoaderActs twoLoadersStart) := by
    have hnone : history Host.machine .registered
        (momentsOf Host.machine firstLoaderActs twoLoadersStart) = [] :=
      List.eq_nil_of_length_eq_zero (by decide +kernel)
    intro other hne
    cases other with
    | own => exact absurd rfl hne
    | registered => simp [hnone]
  exact ⟨hfresh, _, _, _, _, hmoments, rfl, haccepted,
    ((only_the_marker_is_touched Host.machine firstLoaderRun twoLoadersStart hfresh).2 _ _ _ .own _
      hmoments rfl).2 ⟨_, haccepted⟩ halone⟩

end

end Rendezvous
