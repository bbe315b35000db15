import Rendezvous.Proofs.Numbering
import Rendezvous.Proofs.OrderlyHosts

/-!
# Classes in any order

An active agent on an orderly machine is told of known classes, in any order and any number of times,
with hits in between whose hook does nothing but log. In the end the breakpoints are those in the
marker methods of the prepared classes, each set once, in the order in which they came. They do not
depend on the order otherwise, nor does the phase; only the recorded method, which is the last one,
does.
-/

namespace Rendezvous

variable {σ : Type}

/-! ## Lists without duplicates -/

section

variable {α : Type} [DecidableEq α]

theorem eraseDups_concat (l : List α) (a : α) :
    (l ++ [a]).eraseDups = if a ∈ l then l.eraseDups else l.eraseDups ++ [a] := by
  rw [List.eraseDups_append]
  by_cases ha : a ∈ l <;> simp [List.removeAll, List.eraseDups_cons, ha]

theorem nodup_eraseDups : ∀ l : List α, l.eraseDups.Nodup
  | [] => by simp
  | a :: l => by
    rw [List.eraseDups_cons, List.nodup_cons]
    exact ⟨by simp [List.mem_eraseDups], nodup_eraseDups (l.filter fun b => !b == a)⟩
termination_by l => l.length
decreasing_by exact Nat.lt_succ_of_le (List.length_filter_le ..)

theorem eraseDups_perm {l m : List α} (h : l.Perm m) : l.eraseDups.Perm m.eraseDups := by
  rw [List.perm_ext_iff_of_nodup (nodup_eraseDups l) (nodup_eraseDups m)]
  intro a
  rw [List.mem_eraseDups, List.mem_eraseDups, h.mem_iff]

end

/-! ## Events of loading -/

/-- The class that an act prepares. -/
def Act.prepares? : Act → Option ClassId
  | .operation (.classPrepared _ klass) _ _ => some klass
  | .operation (.deliverClassPrepared _ klass) _ _ => some klass
  | _ => none

/-- The classes that are prepared, in order. -/
def preparedIn (acts : List Act) : List ClassId := acts.filterMap Act.prepares?

def Act.isRecord : Act → Bool
  | .record _ => true
  | .operation _ _ _ => false

/-- What an agent may be told of while classes load, directly or by the process: a known class has
been prepared, or a method has been hit and the hook only logs. -/
inductive Act.IsLoading (known : ClassId → Prop) (registration : Registration) : Act → Prop where
  | prepared {op : Operation} {inside : List Act} {ending : HookEnd} {klass : ClassId} :
      op.route registration = some (.own, .classPrepared .live klass) → known klass →
      IsLoading known registration (.operation op inside ending)
  | hit {op : Operation} {inside : List Act} {ending : HookEnd} {hit : Hit} :
      op.route registration = some (.own, .breakpointHit hit) →
      (∀ act ∈ inside, act.isRecord = true) →
      IsLoading known registration (.operation op inside ending)
  | record (record : Log.Record) : IsLoading known registration (.record record)

section

variable {machine : Machine σ} {w : World σ} {op direct : Operation}

/-- What the process delivers to the own agent is done to it as if directly. -/
theorem Operation.run_of_route (h : op.route w.registration = some (.own, direct))
    (machine : Machine σ) (hook : Hook σ) :
    (op.run machine hook w).2 = (direct.run machine hook w).2 := by
  cases op with
  | loadAgent _ | registerIdle => cases hr : w.registration <;> rw [hr] at h <;> cases h
  | unloadAgent =>
    cases hr : w.registration <;> rw [hr] at h <;> cases h
    simp only [run, Rendezvous.unloadAgent, Run.bind_apply, Run.get_apply, hr]
  | deliverClassPrepared _ _ =>
    cases hr : w.registration <;> rw [hr] at h <;> cases h
    simp only [run, Rendezvous.deliverClassPrepared, Run.bind_apply, Run.get_apply, hr]
    rfl
  | deliverBreakpointHit _ =>
    cases hr : w.registration <;> rw [hr] at h <;> cases h
    simp only [run, Rendezvous.deliverBreakpointHit, Run.bind_apply, Run.get_apply, hr]
    rfl
  | _ =>
    cases h
    rfl

theorem Operation.deed_of_route {env : Env} {klass : ClassId}
    (h : op.route w.registration = some (.own, .classPrepared env klass)) :
    op.deed? machine .own w = some (.prepared (Rendezvous.classPrepared machine env klass w).1) := by
  simp [deed?, does?, h, directDeed?, World.seenBy]

theorem Act.IsLoading.known {known : ClassId → Prop} {registration : Registration}
    {inside : List Act} {ending : HookEnd} {env : Env} {klass : ClassId}
    (h : (Act.operation op inside ending).IsLoading known registration)
    (hroute : op.route registration = some (.own, .classPrepared env klass)) : known klass := by
  cases h with
  | prepared hother hk =>
    cases hother.symm.trans hroute
    exact hk
  | hit hother _ => cases hother.symm.trans hroute

theorem Act.prepares?_of_route {inside : List Act} {ending : HookEnd} {registration : Registration}
    (h : op.route registration = some (.own, direct)) :
    (Act.operation op inside ending).prepares? = (Act.operation direct inside ending).prepares? := by
  cases op with
  | loadAgent _ | unloadAgent | deliverClassPrepared _ _ | deliverBreakpointHit _ =>
    cases registration <;> cases h <;> rfl
  | registerIdle => cases h
  | _ =>
    cases h
    rfl

theorem records_course {inside : List Act} (h : ∀ act ∈ inside, act.isRecord = true) (w : World σ) :
    Course machine w [] (runActs machine inside w).2 := by
  induction inside generalizing w with
  | nil => exact .stay w
  | cons act rest ih =>
    obtain ⟨hact, hrest⟩ := List.forall_mem_cons.mp h
    cases act with
    | operation _ _ _ => cases hact
    | record record => exact .record _ _ _ (ih hrest _)

/-- A hit whose hook only logs is counted if it enters, and changes nothing else that stays. -/
theorem breakpointHit_leaves {inside : List Act} (h : ∀ act ∈ inside, act.isRecord = true)
    (ending : HookEnd) (hit : Hit) (w : World σ) :
    ∃ hits, (breakpointHit (Hook.doing (runActs machine inside) ending) hit w).2.agent =
        { w.agent with hits } ∧
      (breakpointHit (Hook.doing (runActs machine inside) ending) hit w).2.machine = w.machine ∧
      (breakpointHit (Hook.doing (runActs machine inside) ending) hit w).2.registration =
        w.registration := by
  cases ha : w.arrival? hit with
  | none =>
    rw [breakpointHit_of_no_arrival ha]
    exact ⟨_, rfl, rfl, rfl⟩
  | some arrival =>
    rw [breakpointHit_of_arrival ha]
    obtain ⟨hagent, hmachine, hregistration⟩ := concludeHit_leaves arrival.sequence ending
      (runActs machine inside (w.entering arrival)).2
    have hc : Course machine _ _ _ := records_course h (w.entering arrival)
    exact ⟨_, hagent.trans hc.agent_eq.1, hmachine.trans (hc.machine_eq rfl),
      hregistration.trans hc.agent_eq.2⟩

end

/-! ## How things stand -/

/-- The marker methods of classes, in the order of the classes. -/
def Catalogue.targets (c : Catalogue) (marker : Marker) (classes : List ClassId) : List MethodId :=
  classes.filterMap (c.marker? marker)

theorem Catalogue.targets_toList (c : Catalogue) (marker : Marker) (klass? : Option ClassId) :
    c.targets marker klass?.toList = (klass?.bind (c.marker? marker)).toList := by
  cases klass? with
  | none => rfl
  | some klass => cases hm : c.marker? marker klass <;> simp [targets, hm]

/-- The breakpoints in these methods, each once. -/
def breakpointsIn (methods : List MethodId) : List (MethodId × Int64) :=
  methods.eraseDups.map fun method => (method, Marker.location)

/-- How an agent and its machine stand when these methods have been found, in this order. -/
structure Stands (sound : σ → Prop) (breakpoints : σ → List (MethodId × Int64))
    (registration : Registration) (settings : Settings) (found : List MethodId) (w : World σ) :
    Prop where
  sound : sound w.machine
  registration : w.registration = registration
  settings : w.agent.settings = some settings
  breakpoints : breakpoints w.machine = breakpointsIn found
  target : w.agent.target.get = found.getLast?
  phase : w.agent.phase.get = if found = [] then .watching else .installed

theorem mem_breakpointsIn {methods : List MethodId} {method : MethodId} :
    (method, Marker.location) ∈ breakpointsIn methods ↔ method ∈ methods := by
  simp [breakpointsIn, List.mem_eraseDups]

theorem breakpointsIn_concat (methods : List MethodId) (method : MethodId) :
    breakpointsIn (methods ++ [method]) = breakpointsIn methods ++
      if method ∈ methods then [] else [(method, Marker.location)] := by
  rw [breakpointsIn, eraseDups_concat]
  by_cases hm : method ∈ methods <;> simp [breakpointsIn, hm]

/-- Without an attempt a class-prepare leaves the agent as it is. -/
theorem Agent.prepared_of_no_attempt {agent : Agent} {outcome : Outcome}
    (h : outcome.attempted? = none) : agent.prepared outcome = agent := by
  cases outcome with
  | installed _ => cases h
  | installFailed _ _ => cases h
  | _ => rfl

section

variable {machine : Machine σ} {c : Catalogue} {sound : σ → Prop}
  {breakpoints : σ → List (MethodId × Int64)} {registration : Registration} {settings : Settings}
  {w : World σ} {found : List MethodId}

/-- All stands as before if nothing has changed but the hits. -/
theorem Stands.unchanged (h : Stands sound breakpoints registration settings found w) {w' : World σ}
    {hits : UInt64} (hs : sound w'.machine) (hb : breakpoints w'.machine = breakpoints w.machine)
    (hr : w'.registration = w.registration) (ha : w'.agent = { w.agent with hits }) :
    Stands sound breakpoints registration settings found w' where
  sound := hs
  registration := hr.trans h.registration
  settings := by
    rw [ha]
    exact h.settings
  breakpoints := hb.trans h.breakpoints
  target := by
    rw [ha]
    exact h.target
  phase := by
    rw [ha]
    exact h.phase

/-- One class more: its marker method is the last one found, if it has one. -/
theorem Stands.prepared (horderly : Orderly machine c sound breakpoints) {klass : ClassId}
    (h : Stands sound breakpoints registration settings found w) (hk : c.known klass) :
    (classPrepared machine .live klass w).1 = c.outcome settings.marker klass found ∧
      Stands sound breakpoints registration settings
        (found ++ (c.marker? settings.marker klass).toList)
        (classPrepared machine .live klass w).2 := by
  have hset : ∀ method, method ∈ found ↔ (method, Marker.location) ∈ breakpoints w.machine := by
    intro method
    rw [h.breakpoints, mem_breakpointsIn]
  obtain ⟨houtcome, hsound, hbreakpoints, hagent, hregistration⟩ :=
    horderly.classPrepared_eq hk h.settings h.sound hset
  refine ⟨houtcome, ?_⟩
  cases hm : c.marker? settings.marker klass with
  | none =>
    obtain ⟨hattempted, hinstalled⟩ := Catalogue.outcome_of_no_marker found hm
    rw [hinstalled, Option.map_none, Option.toList_none, List.append_nil] at hbreakpoints
    rw [Agent.prepared_of_no_attempt hattempted] at hagent
    rw [Option.toList_none, List.append_nil]
    exact h.unchanged hsound hbreakpoints hregistration hagent
  | some method =>
    have hmethod := Catalogue.marker_ne_null hk hm
    rw [Catalogue.outcome_of_marker hm] at hbreakpoints hagent
    rw [h.breakpoints] at hbreakpoints
    rw [Option.toList_some]
    refine ⟨hsound, hregistration.trans h.registration, ?_, ?_, ?_, ?_⟩
    · rw [hagent]
      exact h.settings
    · rw [hbreakpoints, breakpointsIn_concat]
      split <;> rfl
    · rw [hagent, List.getLast?_concat, ← TargetSlot.get_record w.agent.target hmethod]
      split <;> rfl
    · have hfound : found ++ [method] ≠ [] := List.concat_ne_nil method found
      rw [hagent, if_neg hfound]
      -- If the breakpoint is refused, the same method has been installed before.
      by_cases hin : method ∈ found
      · have hphase := h.phase
        rw [if_neg (List.ne_nil_of_mem hin)] at hphase
        rw [if_pos hin]
        exact hphase
      · rw [if_neg hin]
        exact PhaseCell.get_advance_installed w.agent.phase

theorem Stands.act (horderly : Orderly machine c sound breakpoints) {act : Act}
    (h : Stands sound breakpoints registration settings found w)
    (ha : act.IsLoading c.known registration) :
    Stands sound breakpoints registration settings
      (found ++ c.targets settings.marker act.prepares?.toList) (act.run machine w).2 := by
  rw [Catalogue.targets_toList]
  cases ha with
  | @prepared op inside ending klass hroute hk =>
    have hprepares : (Act.operation op inside ending).prepares? = some klass :=
      Act.prepares?_of_route hroute
    have hrun := Operation.run_of_route (h.registration ▸ hroute) machine
      (Hook.doing (runActs machine inside) ending)
    rw [hprepares, Option.bind_some]
    simp only [Act.run, Run.bind_apply, Run.pure_apply, hrun]
    exact (h.prepared horderly hk).2
  | @hit op inside ending hit hroute hinside =>
    have hprepares : (Act.operation op inside ending).prepares? = none :=
      Act.prepares?_of_route hroute
    have hrun := Operation.run_of_route (h.registration ▸ hroute) machine
      (Hook.doing (runActs machine inside) ending)
    obtain ⟨hits, hagent, hmachine, hregistration⟩ := breakpointHit_leaves hinside ending hit w
    rw [hprepares, Option.bind_none, Option.toList_none, List.append_nil]
    simp only [Act.run, Run.bind_apply, Run.pure_apply, hrun]
    exact h.unchanged (hmachine ▸ h.sound) (congrArg breakpoints hmachine) hregistration hagent
  | record record =>
    have hprepares : (Act.record record).prepares? = none := rfl
    rw [hprepares, Option.bind_none, Option.toList_none, List.append_nil]
    exact h.unchanged h.sound rfl rfl rfl

theorem Stands.acts (horderly : Orderly machine c sound breakpoints) {acts : List Act}
    (h : Stands sound breakpoints registration settings found w)
    (ha : ∀ act ∈ acts, act.IsLoading c.known registration) :
    Stands sound breakpoints registration settings
      (found ++ c.targets settings.marker (preparedIn acts)) (runActs machine acts w).2 := by
  -- By induction on the acts; what each one finds is carried along in what has been found.
  induction acts generalizing found w with
  | nil => simpa [preparedIn, Catalogue.targets, runActs] using h
  | cons act rest ih =>
    obtain ⟨hact, hrest⟩ := List.forall_mem_cons.mp ha
    have hnext := ih (h.act horderly hact) hrest
    have hprepared : preparedIn (act :: rest) = act.prepares?.toList ++ preparedIn rest := by
      cases hp : act.prepares? <;> simp [preparedIn, hp]
    rw [hprepared, Catalogue.targets, List.filterMap_append, ← List.append_assoc]
    exact hnext

/-- Once a fresh agent has become active, while no breakpoint is set, nothing has been found yet. -/
theorem Stands.of_active (horderly : Orderly machine c sound breakpoints) {start : World σ}
    (hfresh : start.agent = .fresh) (hsound : sound start.machine)
    (hnone : breakpoints start.machine = [])
    (hactive : activate machine .live settings start = (.ok (), w)) :
    Stands sound breakpoints w.registration settings [] w := by
  have hturns := activate_turns machine .live settings start
  have hcompleted : (activationAt machine .live settings start).completed = true := by
    simp only [activationAt, hactive]
    rfl
  rw [hactive] at hturns
  obtain ⟨calls, hc, hsetup⟩ := hturns.setsUp
  have hkept := hc.keeps horderly.keeps hsound
  have hset := horderly.breakpoints_eq hsound hc
  rw [hnone, accepted_of_onlyReads (onlyReads_of_isSetup hsetup)] at hset
  have hagent := hturns.agent_eq
  rw [hfresh] at hagent
  refine ⟨hkept, rfl, ?_, hset, ?_, ?_⟩
  · rw [hagent]
    rfl
  · rw [hagent]
    rfl
  · rw [hagent, Agent.activated]
    simp only [hcompleted, if_true]
    split <;> rfl

end

/-- An orderly machine may load its classes in any order. Let a fresh agent be activated with any
settings, without a failure and while no breakpoint is set, and let it then be told of any known
classes, with hits in between whose hook only logs. Then the breakpoints are those in the marker
methods of the classes, each where it was first found; the target is the marker method of the last
class that has one; and the phase is the last one if there is such a class. Each class-prepare comes
to the outcome that follows from the catalogue and the marker methods found before. The same classes
in another order lead to the same breakpoints, though in another order, and to the same phase. -/
theorem classes_load_in_any_order {machine : Machine σ} {c : Catalogue} {sound : σ → Prop}
    {breakpoints : σ → List (MethodId × Int64)} (horderly : Orderly machine c sound breakpoints)
    (settings : Settings) {start w : World σ} (hfresh : start.agent = .fresh)
    (hsound : sound start.machine) (hnone : breakpoints start.machine = [])
    (hactive : activate machine .live settings start = (.ok (), w)) (acts : List Act)
    (hloading : ∀ act ∈ acts, act.IsLoading c.known w.registration) :
    breakpoints (runActs machine acts w).2.machine =
      breakpointsIn (c.targets settings.marker (preparedIn acts)) ∧
    (runActs machine acts w).2.agent.target.get =
      (c.targets settings.marker (preparedIn acts)).getLast? ∧
    (runActs machine acts w).2.agent.phase.get =
      (if c.targets settings.marker (preparedIn acts) = [] then .watching else .installed) ∧
    (∀ past op inside ending future klass, acts = past ++ .operation op inside ending :: future →
      op.route w.registration = some (.own, .classPrepared .live klass) →
      op.deed? machine .own (runActs machine past w).2 =
        some (.prepared (c.outcome settings.marker klass
          (c.targets settings.marker (preparedIn past))))) ∧
    ∀ others, (∀ act ∈ others, act.IsLoading c.known w.registration) →
      (preparedIn others).Perm (preparedIn acts) →
      (breakpoints (runActs machine others w).2.machine).Perm
          (breakpoints (runActs machine acts w).2.machine) ∧
        (runActs machine others w).2.agent.phase.get =
          (runActs machine acts w).2.agent.phase.get := by
  have hstart : Stands sound breakpoints w.registration settings [] w :=
    .of_active horderly hfresh hsound hnone hactive
  have stands : ∀ acts : List Act, (∀ act ∈ acts, act.IsLoading c.known w.registration) →
      Stands sound breakpoints w.registration settings
        (c.targets settings.marker (preparedIn acts)) (runActs machine acts w).2 := fun _ ha => by
    simpa using hstart.acts horderly ha
  have hend := stands acts hloading
  refine ⟨hend.breakpoints, hend.target, hend.phase, ?_, ?_⟩
  · rintro past op inside ending future klass rfl hroute
    -- The acts before an event are a run of their own, at whose end the event comes.
    obtain ⟨hpast, hrest⟩ := List.forall_mem_append.mp hloading
    have hthen := stands past hpast
    have hknown := (List.forall_mem_cons.mp hrest).1.known hroute
    rw [Operation.deed_of_route (hthen.registration.symm ▸ hroute),
      (hthen.prepared horderly hknown).1]
  · intro others hothers hperm
    have hother := stands others hothers
    have htargets : (c.targets settings.marker (preparedIn others)).Perm
        (c.targets settings.marker (preparedIn acts)) := hperm.filterMap _
    constructor
    · rw [hother.breakpoints, hend.breakpoints]
      exact (eraseDups_perm htargets).map _
    · rw [hother.phase, hend.phase]
      by_cases hnil : c.targets settings.marker (preparedIn acts) = []
      · rw [if_pos hnil, if_pos (hnil ▸ htargets).eq_nil]
      · rw [if_neg hnil, if_neg fun h => hnil (h ▸ htargets).nil_eq.symm]

section

open Simulation Host

/-- Two loaders' classes with the marker's signature, on a host without faults. -/
def orderlyLoaders : Host := .start [markerClass ⟨1⟩ ⟨1⟩, markerClass ⟨2⟩ ⟨2⟩] .full .none

def orderlyStart : World Host := ⟨.fresh, .itself, orderlyLoaders, .present, []⟩

def orderlyActive : World Host := (activate Host.machine .live .standard orderlyStart).2

/-- The second loader's class comes first, and once more after the first loader's. -/
def orderlyActs : List Act :=
  [.operation (.classPrepared .live ⟨2⟩) [] .returned,
    .operation (.deliverBreakpointHit ⟨.null, .null, ⟨2⟩, Marker.location⟩) [] .panicked,
    .operation (.deliverClassPrepared .live ⟨1⟩) [] .returned,
    .operation (.classPrepared .live ⟨2⟩) [] .returned]

theorem classes_load_in_any_order_two_loaders :
    activate Host.machine .live .standard orderlyStart = (.ok (), orderlyActive) ∧
      (∀ act ∈ orderlyActs,
        act.IsLoading orderlyLoaders.catalogue.known orderlyActive.registration) ∧
      (runActs Host.machine orderlyActs orderlyActive).2.machine.breakpoints =
        [(⟨2⟩, Marker.location), (⟨1⟩, Marker.location)] ∧
      (runActs Host.machine orderlyActs orderlyActive).2.agent.target.get = some ⟨2⟩ := by
  have hfaultless : orderlyLoaders.Faultless := by
    refine ⟨fun _ _ => rfl, fun service => ?_⟩
    cases service <;> rfl
  have hactive : activate Host.machine .live .standard orderlyStart = (.ok (), orderlyActive) :=
    rfl
  have hknown : ∀ n, n = 1 ∨ n = 2 → orderlyLoaders.catalogue.known ⟨n⟩ := by
    rintro n (rfl | rfl)
    all_goals
      refine ⟨_, rfl, rfl, rfl, fun method hm => ?_⟩
      cases List.mem_singleton.mp hm
      exact ⟨by decide, _, rfl, rfl⟩
  have hloading : ∀ act ∈ orderlyActs,
      act.IsLoading orderlyLoaders.catalogue.known orderlyActive.registration := by
    intro act hact
    simp only [orderlyActs, List.mem_cons, List.not_mem_nil, or_false] at hact
    rcases hact with rfl | rfl | rfl | rfl
    · exact .prepared rfl (hknown 2 (.inr rfl))
    · exact .hit rfl (by simp)
    · exact .prepared rfl (hknown 1 (.inl rfl))
    · exact .prepared rfl (hknown 2 (.inr rfl))
  obtain ⟨hbreakpoints, htarget, -⟩ := classes_load_in_any_order (orderly hfaultless) .standard
    rfl rfl rfl hactive orderlyActs hloading
  refine ⟨hactive, hloading, hbreakpoints.trans ?_, htarget.trans ?_⟩
  · decide +kernel
  · decide +kernel

end

end Rendezvous
