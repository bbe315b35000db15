import Rendezvous.Proofs.History
import Rendezvous.Proofs.Vouched

/-!
# Where breakpoints have been set

The machine has accepted exactly the breakpoints of those class-prepares that came out as installed.
The recorded method is that of the last attempt, which may have been refused: then the breakpoints
accepted before stay, in other methods than the recorded one.
-/

namespace Rendezvous

variable {σ : Type}

/-! ## Accepted breakpoints -/

/-- The breakpoints among these calls that the machine accepted. -/
def accepted (calls : List Call) : List (MethodId × Int64) :=
  calls.filterMap fun
    | .setBreakpoint method location (.ok _) => some (method, location)
    | _ => none

@[simp] theorem accepted_nil : accepted [] = [] := rfl
@[simp] theorem accepted_append (a b : List Call) : accepted (a ++ b) = accepted a ++ accepted b :=
  List.filterMap_append

/-- Whether a call lends a table that names null as a method. -/
def Call.namesNull : Call → Bool
  | .getClassMethods _ (.ok table) => table.methods.contains .null
  | _ => false

theorem accepted_succeeding (calls : List Call) :
    accepted (calls.filter Call.succeeds) = accepted calls := by
  rw [accepted, accepted, List.filterMap_filter]
  congr 1
  funext call
  cases call with
  | setBreakpoint _ _ reply => cases reply <;> rfl
  | _ => simp

def Outcome.installed? : Outcome → Option MethodId
  | .installed method => some method
  | _ => none

def Deed.installed? : Deed → Option MethodId
  | .prepared outcome => outcome.installed?
  | _ => none

theorem accepted_of_onlyReads {calls : List Call} (h : OnlyReads calls) : accepted calls = [] := by
  rw [accepted, List.filterMap_eq_nil_iff]
  intro call hmem
  have hs := h call hmem
  cases call with
  | setBreakpoint _ _ _ => cases hs
  | _ => rfl

/-- A class-prepare gets one breakpoint accepted if it comes out as installed, and else none. -/
theorem Visit.accepted {klass : ClassId} {marker : Marker} {calls : List Call} {outcome : Outcome}
    (h : Visit klass marker calls outcome) :
    Rendezvous.accepted calls =
      (outcome.installed?.map fun method => (method, Marker.location)).toList := by
  cases h.marks with
  | nothing hreads hnone =>
    rw [accepted_of_onlyReads hreads]
    cases outcome with
    | installed method => cases hnone
    | _ => rfl
  | breakpoint reply hreads _ =>
    rw [accepted_append, accepted_of_onlyReads hreads]
    cases reply <;> rfl

section

variable {machine : Machine σ} {env : Env} {w w' : World σ} {calls : List Call}
  {deed? : Option Deed}

theorem Dialogue.succeeded (h : Dialogue machine env w calls w') :
    ∃ made, Course machine w made w' ∧ made.filter Call.succeeds = calls.filter Call.succeeds := by
  obtain ⟨made, hc, hwithout⟩ := h.without_failed
  exact ⟨made, hc, hwithout.filter_eq fun _ => id⟩

/-- A method is attempted only if the class has it. -/
theorem Visit.attempted_mem {klass : ClassId} {marker : Marker} {outcome : Outcome}
    {method : MethodId} (h : Visit klass marker calls outcome)
    (ho : outcome.attempted? = some method) :
    ∃ klass table, Call.getClassMethods klass (.ok table) ∈ calls ∧ method ∈ table.methods := by
  cases h.marks with
  | nothing _ hnone =>
    rw [hnone] at ho
    cases ho
  | @breakpoint asked attempted reply _ hvouched =>
    have hmethod : attempted = method := by cases reply <;> exact Option.some.inj ho
    obtain ⟨klass, text, table, lent, hsub, -, hmem, -⟩ := hvouched
    have hcall : Call.getClassMethods klass (.ok table) ∈ asked := hsub.subset (by simp)
    exact ⟨klass, table, List.mem_append_left _ hcall, hmethod ▸ hmem⟩

/-- What the calls along with a deed tell of it: the breakpoint that was accepted, and that the
method of an attempt stands in a table that was lent. -/
structure Tells (calls : List Call) (deed? : Option Deed) : Prop where
  accepted : Rendezvous.accepted calls =
    ((deed?.bind Deed.installed?).map fun method => (method, Marker.location)).toList
  named : ∀ method, deed?.bind Deed.attempted? = some method →
    ∃ klass table, .getClassMethods klass (.ok table) ∈ calls ∧ method ∈ table.methods

/-- Only a class-prepare attempts a breakpoint or installs one. -/
theorem nothing_attempted (hd : ∀ outcome, deed? ≠ some (.prepared outcome)) :
    deed?.bind Deed.installed? = none ∧ deed?.bind Deed.attempted? = none := by
  cases deed? with
  | none => exact ⟨rfl, rfl⟩
  | some deed =>
    cases deed with
    | prepared outcome => exact absurd rfl (hd outcome)
    | _ => exact ⟨rfl, rfl⟩

/-- Calls without an accepted breakpoint go with every deed that prepares no class. -/
theorem Tells.nothing (hc : Rendezvous.accepted calls = [])
    (hd : ∀ outcome, deed? ≠ some (.prepared outcome)) : Tells calls deed? := by
  have hnone := nothing_attempted hd
  refine ⟨?_, fun method hm => ?_⟩
  · rw [hc, hnone.1]
    rfl
  · rw [hnone.2] at hm
    cases hm

theorem onlyReads_of_isSetup (h : ∀ call ∈ calls, call.isSetup = true) : OnlyReads calls := by
  intro call hmem
  have hs := h call hmem
  cases call with
  | setBreakpoint _ _ _ => cases hs
  | _ => rfl

theorem Does.tells (h : Does machine w w' deed?) :
    ∃ calls, Course machine w calls { w' with agent := w.agent } ∧ Tells calls deed? := by
  cases h with
  | turns hne ht =>
    obtain ⟨calls, hc, hs⟩ := ht.setsUp
    exact ⟨calls, hc, .nothing (accepted_of_onlyReads (onlyReads_of_isSetup hs)) hne⟩
  | rests he =>
    subst he
    exact ⟨[], .stay _, rfl, fun _ hm => by cases hm⟩
  | @visits _ _ _ calls _ _ hv hd _ =>
    obtain ⟨made, hc, hsucceeded⟩ := hd.succeeded
    refine ⟨made, hc, ?_, fun method hm => ?_⟩
    · rw [← accepted_succeeding made, hsucceeded, accepted_succeeding]
      exact hv.accepted
    · obtain ⟨klass, table, hmem, hmethod⟩ := hv.attempted_mem hm
      have hmade : Call.getClassMethods klass (.ok table) ∈ made.filter Call.succeeds := by
        rw [hsucceeded]
        exact List.mem_filter.mpr ⟨hmem, rfl⟩
      exact ⟨klass, table, (List.mem_filter.mp hmade).1, hmethod⟩

/-! ## Runs -/

variable (machine)

/-- What has been done at a moment, to either agent. -/
def Moment.does? : Moment σ → Option Deed
  | .entered arrival _ => some (.entered arrival)
  | .ended op before _ _ => (op.does? machine before).map Prod.snd

/-- The methods of the class-prepares that came out as installed, in order, for either agent. -/
def installedBy (past : List (Moment σ)) : List MethodId :=
  past.filterMap fun m => (m.does? machine).bind Deed.installed?

/-- What is known along a run: the accepted breakpoints are those of the class-prepares that
installed one, and what was attempted stands in some table that was lent. -/
structure Reported (past : List (Moment σ)) (calls : List Call) : Prop where
  accepted : Rendezvous.accepted calls =
    (installedBy machine past).map fun method => (method, Marker.location)
  named : ∀ m ∈ past, ∀ method, (m.does? machine).bind Deed.attempted? = some method →
    ∃ klass table, .getClassMethods klass (.ok table) ∈ calls ∧ method ∈ table.methods

variable {machine} {start : World σ} {past : List (Moment σ)} {op : Operation}

theorem Effect.tells (h : Effect machine op w w') :
    ∃ calls, Since w w' calls ∧ Tells calls ((op.does? machine w).map Prod.snd) := by
  obtain ⟨calls, hc, ht⟩ := h.course (fun calls done => Tells calls (done.map Prod.snd))
    (.nothing rfl (by simp)) fun subject ended deed? hd => by
      obtain ⟨calls, hc, ht⟩ := hd.tells
      exact ⟨calls, hc, by simpa [Function.comp_def] using ht⟩
  exact ⟨calls, .of_course hc rfl, ht⟩

theorem Reported.moment {made : List Call} {m : Moment σ} (h : Reported machine past calls)
    (ht : Tells made (m.does? machine)) : Reported machine (past ++ [m]) (calls ++ made) where
  accepted := by
    rw [accepted_append, h.accepted, ht.accepted]
    cases hd : (m.does? machine).bind Deed.installed? <;> simp [installedBy, hd]
  named := by
    intro other hmem method hm
    rcases List.mem_append.mp hmem with hmem | hmem
    · obtain ⟨klass, table, hcall, hmethod⟩ := h.named other hmem method hm
      exact ⟨klass, table, List.mem_append_left _ hcall, hmethod⟩
    · rw [List.mem_singleton.mp hmem] at hm
      obtain ⟨klass, table, hcall, hmethod⟩ := ht.named method hm
      exact ⟨klass, table, List.mem_append_right _ hcall, hmethod⟩

theorem Reported.kept :
    Kept machine (Recorded machine (fun _ => True) (Reported machine) start) := by
  refine Recorded.kept ?_ ?_
  · intro past w w' calls op answer _ h he
    obtain ⟨made, hs, ht⟩ := he.tells
    exact ⟨made, hs, trivial, h.moment ht⟩
  · intro past calls m hsilent h
    have key : Tells [] (m.does? machine) := by
      cases hsilent with
      | entered arrival world => exact .nothing rfl (by simp [Moment.does?])
      | left answer after ha =>
        rw [Moment.does?, Operation.does_of_arrival ha]
        exact .nothing rfl (by simp)
    simpa using h.moment key

/-! ## The last attempt -/

theorem Moment.does_of_deed {m : Moment σ} {subject : Subject} {deed : Deed}
    (h : m.deed? machine subject = some deed) : m.does? machine = some deed := by
  cases m with
  | entered arrival world =>
    cases subject with
    | own => exact h
    | registered => cases h
  | ended op before answer after =>
    obtain ⟨⟨reached, done⟩, hdoes, hif⟩ := Option.bind_eq_some_iff.mp h
    have hdone : done = deed := by
      by_cases hr : reached = subject
      · simpa [hr] using hif
      · simp [hr] at hif
    simp only [does?, hdoes, Option.map_some, hdone]

theorem mem_history {subject : Subject} {deed : Deed} (h : deed ∈ history machine subject past) :
    ∃ m ∈ past, m.does? machine = some deed := by
  obtain ⟨m, hmem, hd⟩ := List.mem_filterMap.mp h
  exact ⟨m, hmem, Moment.does_of_deed hd⟩

theorem installed_mem {subject : Subject} {method : MethodId}
    (h : Deed.prepared (.installed method) ∈ history machine subject past) :
    method ∈ installedBy machine past := by
  obtain ⟨m, hmem, hd⟩ := mem_history h
  exact List.mem_filterMap.mpr ⟨m, hmem, by rw [hd]; rfl⟩

/-- The last deed with an attempt, and the deeds around it. -/
theorem last_attempt {deeds : List Deed} {method : MethodId}
    (h : (deeds.filterMap Deed.attempted?).getLast? = some method) :
    ∃ earlier outcome later, deeds = earlier ++ .prepared outcome :: later ∧
      (∀ deed ∈ later, deed.attempted? = none) ∧ outcome.attempted? = some method := by
  rw [List.getLast?_filterMap] at h
  obtain ⟨later, deed, earlier, hrev, hdeed, hlater⟩ := List.findSome?_eq_some_iff.mp h
  cases deed with
  | prepared outcome =>
    refine ⟨earlier.reverse, outcome, later.reverse, ?_, ?_, hdeed⟩
    · rw [← List.reverse_reverse deeds, hrev]
      simp
    · simpa using hlater
  | _ => cases hdeed

/-- An agent in the last phase has installed a breakpoint. -/
theorem installed_of_phaseOf {deeds : List Deed} (h : phaseOf deeds = .installed) :
    ∃ method, Deed.prepared (.installed method) ∈ deeds := by
  have hany : deeds.any Deed.installs = true := by
    cases ha : deeds.any Deed.installs with
    | true => rfl
    | false =>
      simp only [phaseOf, ha] at h
      split at h
      · contradiction
      · split at h
        · cases h
        · split at h <;> cases h
  obtain ⟨deed, hmem, hdeed⟩ := List.any_eq_true.mp hany
  cases deed with
  | prepared outcome =>
    cases outcome with
    | installed method => exact ⟨method, hmem⟩
    | _ => cases hdeed
  | _ => cases hdeed

end

/-- If no table names null as a method, an agent in the last phase has its target set, to the method
of the last attempt, and the machine has accepted breakpoints, which are exactly those of the class-
prepares that came out as installed. The breakpoint in the target is one of them, unless the last
attempt was refused and no class-prepare ever came out as installed with this method. -/
theorem armed_unless_refused (machine : Machine σ) (acts : List Act) (start : World σ)
    (subject : Subject) (hfresh : start.agentOf subject = .fresh)
    {past : List (Moment σ)} {w : World σ} (hp : Point machine acts start past w)
    (hnull : ∀ call ∈ callsSince start w, call.namesNull = false) :
    accepted (callsSince start w) =
      (installedBy machine past).map (fun method => (method, Marker.location)) ∧
    ((w.agentOf subject).phase.get = .installed →
      ∃ earlier outcome later method,
        history machine subject past = earlier ++ .prepared outcome :: later ∧
        (∀ deed ∈ later, deed.attempted? = none) ∧ outcome.attempted? = some method ∧
        (w.agentOf subject).target.get = some method ∧ accepted (callsSince start w) ≠ [] ∧
        ((method, Marker.location) ∈ accepted (callsSince start w) ∨
          (∃ failure, outcome = .installFailed method failure) ∧
            method ∉ installedBy machine past)) := by
  have hstarted : Recorded machine (fun _ => True) (Reported machine) start [] start :=
    .nil trivial ⟨rfl, by simp⟩
  obtain ⟨haccepted, hnamed⟩ := (Reported.kept.at_point hstarted hp).known
  have hagent := Followed.kept.at_point (.nil start) hp subject
  rw [hfresh] at hagent
  obtain ⟨-, hphase, htarget, -⟩ := Agent.follow_fresh (history machine subject past)
  rw [← hagent] at hphase htarget
  refine ⟨haccepted, fun hi => ?_⟩
  obtain ⟨first, hfirst⟩ := installed_of_phaseOf (hphase.symm.trans hi)
  have hne : (history machine subject past).filterMap Deed.attempted? ≠ [] :=
    List.ne_nil_of_mem (List.mem_filterMap.mpr ⟨_, hfirst, rfl⟩)
  obtain ⟨method, hlast⟩ := Option.isSome_iff_exists.mp (List.getLast?_isSome.mpr hne)
  obtain ⟨earlier, outcome, later, hhistory, hlater, hattempted⟩ := last_attempt hlast
  have hdeed : Deed.prepared outcome ∈ history machine subject past := by
    rw [hhistory]
    simp
  have hmethod : method.isNull = false := by
    obtain ⟨m, hmem, hd⟩ := mem_history hdeed
    obtain ⟨klass, table, hcall, hin⟩ := hnamed m hmem method (by rw [hd]; exact hattempted)
    rw [Handle.isNull_eq_false]
    rintro rfl
    have hnames := hnull _ hcall
    simp only [Call.namesNull, List.contains_eq_mem, decide_eq_false_iff_not] at hnames
    exact hnames hin
  refine ⟨earlier, outcome, later, method, hhistory, hlater, hattempted, ?_, ?_, ?_⟩
  · rw [htarget, hlast]
    simp [Option.filter, hmethod]
  · rw [haccepted]
    exact List.ne_nil_of_mem (List.mem_map_of_mem (installed_mem hfirst))
  · by_cases hin : method ∈ installedBy machine past
    · left
      rw [haccepted]
      exact List.mem_map_of_mem hin
    · right
      refine ⟨?_, hin⟩
      cases outcome with
      | installed other =>
        cases hattempted
        exact absurd (installed_mem hdeed) hin
      | installFailed other failure =>
        cases hattempted
        exact ⟨failure, rfl⟩
      | _ => cases hattempted

section

open Simulation Host

/-- The second loader's refused breakpoint takes the place of the first loader's in the agent: the
target is a method without a breakpoint, and hits of the only breakpoint are ignored. -/
theorem refused_breakpoint_disarms :
    twoLoadersEnd.agent.phase.get = .installed ∧
      accepted (callsSince twoLoadersStart twoLoadersEnd) = [(⟨1⟩, Marker.location)] ∧
      twoLoadersEnd.agent.target.get = some ⟨2⟩ ∧
      (⟨2⟩, Marker.location) ∉ accepted (callsSince twoLoadersStart twoLoadersEnd) ∧
      (breakpointHit Hook.logging ⟨.null, .null, ⟨1⟩, Marker.location⟩ twoLoadersEnd).1 =
        .ignored := by
  refine ⟨?_, ?_, ?_, ?_, ?_⟩ <;> decide +kernel

theorem armed_unless_refused_two_loaders :
    twoLoadersStart.agentOf .own = .fresh ∧
      (∀ call ∈ callsSince twoLoadersStart twoLoadersEnd, call.namesNull = false) ∧
      ∃ method, (twoLoadersEnd.agentOf .own).target.get = some method ∧
        accepted (callsSince twoLoadersStart twoLoadersEnd) ≠ [] := by
  have hnull : ∀ call ∈ callsSince twoLoadersStart twoLoadersEnd, call.namesNull = false := by
    decide +kernel
  have hinstalled : (twoLoadersEnd.agentOf .own).phase.get = .installed := by decide +kernel
  obtain ⟨_, _, _, method, -, -, -, htarget, hne, -⟩ :=
    (armed_unless_refused Host.machine twoLoadersActs twoLoadersStart .own rfl twoLoadersEnd_point
      hnull).2 hinstalled
  exact ⟨rfl, hnull, method, htarget, hne⟩

end

end Rendezvous
