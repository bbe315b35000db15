import Mathlib.Algebra.Group.Nat.Defs
import Mathlib.Data.List.Perm.Basic
import Rendezvous.Proofs.Loading
import Rendezvous.Proofs.Runs
import Rendezvous.Proofs.Hosts

/-!
# Many threads at once

The machine prepares classes and hits breakpoints on any number of threads. Here each of these
activities goes on in turns, which come in any order: a watcher records the method, sets the
breakpoint and advances the phase; a hit is compared with the recorded method, counted, and given to
the hook. Hits come only of methods in which a breakpoint has been set. Since a method is recorded
before its breakpoint is set, none of these hits is ignored, and since the counter is read and
advanced in one turn, no number is taken twice or left out.

The turns are cut out of what the agent does: put together again with nothing in between, they are
just that.
-/

namespace Rendezvous

variable {σ : Type}

/-! ## Activities -/

/-- A watcher that has found a method, or a hit, and how far it has come. A thread that does one thing
after another is several activities, and what a hook does is done by activities besides its own. -/
inductive Activity where
  | found (env : Env) (marker : Marker) (method : MethodId)
  | recorded (env : Env) (marker : Marker) (method : MethodId)
  /-- The machine has replied, but the watcher does not know of it. -/
  | answered (marker : Marker) (method : MethodId) (reply : Reply Unit)
  | concluded (outcome : Outcome)
  | watched (outcome : Outcome)
  | delivered (hit : Hit) (ending : HookEnd)
  | matched (hit : Hit) (ending : HookEnd)
  | counted (arrival : Arrival) (ending : HookEnd)
  /-- The hook is running. -/
  | entered (arrival : Arrival) (ending : HookEnd)
  | dispatched (hit : Hit) (dispatch : Dispatch)
  deriving DecidableEq

namespace Activity

variable (machine : Machine σ)

/-- One turn. -/
def act : Activity → Run σ Activity
  | found env marker method => do
    report .info .watcher ("found " ++ marker.method)
    recordMethod method
    pure (recorded env marker method)
  | recorded env marker method => do
    let reply ← setBreakpoint machine env method Marker.location
    pure (answered marker method reply)
  | answered marker method reply => do
    let outcome ← concludeArming marker method reply
    pure (concluded outcome)
  | concluded outcome => do
    noteInstalled outcome
    pure (watched outcome)
  | delivered hit ending => do
    if (← get).agent.target.holds hit.method then pure (matched hit ending)
    else
      let dispatch ← ignoreHit hit
      pure (dispatched hit dispatch)
  | matched hit ending => do
    let sequence ← countHit
    pure (counted { hit with sequence } ending)
  | counted arrival ending => do
    note (.arrival arrival)
    pure (entered arrival ending)
  | entered arrival ending => do
    let dispatch ← concludeHit arrival.sequence ending
    pure (dispatched arrival.toHit dispatch)
  | watched outcome => pure (watched outcome)
  | dispatched hit dispatch => pure (dispatched hit dispatch)

/-- Several turns, with nothing in between. -/
def turns : Nat → Activity → Run σ Activity
  | 0, activity => pure activity
  | n + 1, activity => do
    let next ← activity.act machine
    turns n next

/-- The turns of a watcher are what the watcher does. -/
theorem turns_found (env : Env) (marker : Marker) (method : MethodId) :
    turns machine 4 (found env marker method) = (do
      let outcome ← armMarker machine env marker method
      noteInstalled outcome
      pure (watched outcome)) := rfl

/-- Preparing a class leaves the agent alone, unless it comes to a method and to these turns. -/
theorem classPrepared_turns (env : Env) (klass : ClassId) (w : World σ) :
    (classPrepared machine env klass w).1.attempted? = none ∧
      (classPrepared machine env klass w).2.agent = w.agent ∨
    ∃ marker method found, (classPrepared machine env klass w).1.attempted? = some method ∧
      found.agent = w.agent ∧ turns machine 4 (.found env marker method) found =
        (watched (classPrepared machine env klass w).1, (classPrepared machine env klass w).2) := by
  simp only [classPrepared, Run.bind_apply, Run.get_apply]
  cases hs : w.agent.settings with
  | none => exact .inl ⟨rfl, rfl⟩
  | some settings =>
    simp only [watchClass, Run.bind_apply]
    rcases isTargetClass_dialogue machine env klass settings.marker w with
      ⟨failure, hr, hd⟩ | ⟨text, back, hr, hd⟩
    · simp only [hr]
      exact .inl ⟨rfl, hd.agent_eq.1⟩
    · cases hm : text.is settings.marker.classSignature with
      | false =>
        simp only [hr, hm]
        exact .inl ⟨rfl, hd.agent_eq.1⟩
      | true =>
        simp only [hr, hm, watchMarkerClass, Run.bind_apply]
        have hprepared := hd.reported .info .watcher
          ("class " ++ settings.marker.classSignature ++ " prepared")
        generalize (report .info .watcher _ _).2 = w₁ at hprepared ⊢
        rcases findMethod_dialogue machine env klass settings.marker w₁ with
          ⟨failure, hr, hd⟩ | ⟨table, names, tableBack, found, hr, hs, hd⟩
        · simp only [hr]
          exact .inl ⟨rfl, (hprepared.trans hd).agent_eq.1⟩
        · have hsearched := (hprepared.trans hd).agent_eq.1
          cases found with
          | none =>
            simp only [hr]
            exact .inl ⟨rfl, hsearched⟩
          | some method =>
            simp only [hr]
            refine .inr ⟨settings.marker, method, _, ?_, hsearched, rfl⟩
            obtain ⟨ho, -⟩ | ⟨failure, ho, -⟩ := armMarker_looked machine env settings.marker method
              (findMethod machine env klass settings.marker w₁).2
            · rw [ho]
              rfl
            · rw [ho]
              rfl

/-- The turns of a hit are what becomes of it, if the hook acts while it runs. -/
theorem turns_delivered (hit : Hit) (inside : Run σ Unit) (ending : HookEnd) (w : World σ) :
    (do
      let dispatch ← breakpointHit (Hook.doing inside ending) hit
      pure (dispatched hit dispatch)) w =
    (do
      let inHook ← turns machine 3 (delivered hit ending)
      match inHook with
      | entered .. => inside
      | _ => pure ()
      inHook.act machine) w := by
  cases ht : w.agent.target.holds hit.method with
  | true =>
    simp only [breakpointHit, turns, act, Run.bind_apply, Run.get_apply, ht, if_true]
    rfl
  | false =>
    simp only [breakpointHit, turns, act, Run.bind_apply, Run.get_apply, ht, Bool.false_eq_true,
      if_false]
    rfl

end Activity

/-! ## Turns in any order -/

/-- The method in which the machine has just set a breakpoint. -/
def Activity.arms : Activity → List MethodId
  | .answered _ method (.ok _) => [method]
  | _ => []

/-- The number of a hit that went to the hook. -/
def Dispatch.number? : Dispatch → Option UInt64
  | .rendezvous sequence | .hookPanicked sequence => some sequence
  | .ignored => none

/-- The number that an activity has taken. -/
def Activity.number? : Activity → Option UInt64
  | .counted arrival _ | .entered arrival _ => some arrival.sequence
  | .dispatched _ dispatch => dispatch.number?
  | _ => none

/-- All that is going on in a process, or has gone on. -/
structure Pool (σ : Type) where
  world : World σ
  /-- The methods in which a breakpoint has been set. -/
  armed : List MethodId
  activities : List Activity

inductive Choice (σ : Type) where
  /-- A watcher has found a method. -/
  | watches (env : Env) (marker : Marker) (method : MethodId)
  /-- A breakpoint is hit, and the hook will end in this way. -/
  | hits (hit : Hit) (ending : HookEnd)
  /-- One of the activities has a turn. -/
  | turn (index : Nat)
  /-- Anything else happens that leaves the target slot and the counter alone. -/
  | aside (world : World σ)

namespace Pool

/-- What one choice leads to. A method is hit only if it has a breakpoint. -/
def next (machine : Machine σ) (pool : Pool σ) : Choice σ → Option (Pool σ)
  | .watches env marker method =>
    some { pool with activities := pool.activities ++ [.found env marker method] }
  | .hits hit ending =>
    if hit.method ∈ pool.armed then
      some { pool with activities := pool.activities ++ [.delivered hit ending] }
    else none
  | .turn index => do
    let activity ← pool.activities[index]?
    let acted := activity.act machine pool.world
    some ⟨acted.2, pool.armed ++ acted.1.arms, pool.activities.set index acted.1⟩
  | .aside world =>
    let shared := { world.agent with
      target := pool.world.agent.target
      hits := pool.world.agent.hits }
    some { pool with world := { world with agent := shared } }

/-- Where a schedule leads, if each of its choices can be made. -/
def run (machine : Machine σ) : List (Choice σ) → Pool σ → Option (Pool σ)
  | [], pool => some pool
  | choice :: rest, pool => do
    let chosen ← pool.next machine choice
    run machine rest chosen

/-- The numbers that have been taken, by one activity each. -/
def taken (pool : Pool σ) : List UInt64 := pool.activities.filterMap Activity.number?

end Pool

/-! ## Turns without interruption -/

/-- An activity that has its turns one after the other has them with nothing in between. -/
theorem Pool.run_turns (machine : Machine σ) (n : Nat) (pool : Pool σ) (index : Nat)
    (activity : Activity) (h : pool.activities[index]? = some activity) :
    ∃ arms, pool.run machine (List.replicate n (.turn index)) =
      some ⟨(activity.turns machine n pool.world).2, pool.armed ++ arms,
        pool.activities.set index (activity.turns machine n pool.world).1⟩ := by
  induction n generalizing pool activity with
  | zero =>
    obtain ⟨hlt, rfl⟩ := List.getElem?_eq_some_iff.mp h
    refine ⟨[], ?_⟩
    simp only [List.replicate_zero, run, Activity.turns, Run.pure_apply, List.set_getElem_self,
      List.append_nil]
  | succ n ih =>
    obtain ⟨hlt, -⟩ := List.getElem?_eq_some_iff.mp h
    have hnext : pool.next machine (.turn index) =
        some ⟨(activity.act machine pool.world).2,
          pool.armed ++ (activity.act machine pool.world).1.arms,
          pool.activities.set index (activity.act machine pool.world).1⟩ := by
      rw [next, h]
      rfl
    rw [List.replicate_succ, run, hnext, Activity.turns, Run.bind_apply]
    generalize activity.act machine pool.world = acted
    obtain ⟨arms, hrest⟩ := ih ⟨acted.2, pool.armed ++ acted.1.arms,
      pool.activities.set index acted.1⟩ acted.1 (List.getElem?_set_self hlt)
    rw [List.set_set, List.append_assoc] at hrest
    exact ⟨acted.1.arms ++ arms, hrest⟩

/-- As long as nothing comes between the turns of an activity, it does what an agent does. -/
structure Uninterrupted (machine : Machine σ) : Prop where
  run : ∀ (n : Nat) (pool : Pool σ) (index : Nat) (activity : Activity),
    pool.activities[index]? = some activity →
    ∃ arms, pool.run machine (List.replicate n (.turn index)) =
      some ⟨(activity.turns machine n pool.world).2, pool.armed ++ arms,
        pool.activities.set index (activity.turns machine n pool.world).1⟩
  found : ∀ (env : Env) (marker : Marker) (method : MethodId),
    Activity.turns machine 4 (.found env marker method) = (do
      let outcome ← armMarker machine env marker method
      noteInstalled outcome
      pure (.watched outcome))
  prepared : ∀ (env : Env) (klass : ClassId) (w : World σ),
    (classPrepared machine env klass w).1.attempted? = none ∧
      (classPrepared machine env klass w).2.agent = w.agent ∨
    ∃ marker method found, (classPrepared machine env klass w).1.attempted? = some method ∧
      found.agent = w.agent ∧ Activity.turns machine 4 (.found env marker method) found =
        (.watched (classPrepared machine env klass w).1, (classPrepared machine env klass w).2)
  delivered : ∀ (hit : Hit) (inside : Run σ Unit) (ending : HookEnd) (w : World σ),
    (do
      let dispatch ← breakpointHit (Hook.doing inside ending) hit
      pure (Activity.dispatched hit dispatch)) w =
    (do
      let inHook ← Activity.turns machine 3 (.delivered hit ending)
      match inHook with
      | .entered .. => inside
      | _ => pure ()
      inHook.act machine) w

theorem uninterrupted (machine : Machine σ) : Uninterrupted machine where
  run := Pool.run_turns machine
  found := Activity.turns_found machine
  prepared := Activity.classPrepared_turns machine
  delivered := Activity.turns_delivered machine

/-! ## One turn -/

/-- What a turn makes of an activity and of the agent. -/
inductive Activity.Turn (agent : Agent) : Activity → Activity → Agent → Prop where
  | records (env : Env) (marker : Marker) (method : MethodId) :
      Turn agent (.found env marker method) (.recorded env marker method)
        { agent with target := agent.target.record method }
  | asks (env : Env) (marker : Marker) (method : MethodId) (reply : Reply Unit) :
      Turn agent (.recorded env marker method) (.answered marker method reply) agent
  | concludes (marker : Marker) (method : MethodId) (reply : Reply Unit) (outcome : Outcome) :
      Turn agent (.answered marker method reply) (.concluded outcome) agent
  | advances (outcome : Outcome) (phase : PhaseCell) :
      Turn agent (.concluded outcome) (.watched outcome) { agent with phase }
  | rests (outcome : Outcome) : Turn agent (.watched outcome) (.watched outcome) agent
  | matches {hit : Hit} (ending : HookEnd) : agent.target.holds hit.method = true →
      Turn agent (.delivered hit ending) (.matched hit ending) agent
  | ignores {hit : Hit} (ending : HookEnd) : agent.target.holds hit.method = false →
      Turn agent (.delivered hit ending) (.dispatched hit .ignored) agent
  | counts (hit : Hit) (ending : HookEnd) :
      Turn agent (.matched hit ending) (.counted { hit with sequence := agent.hits + 1 } ending)
        { agent with hits := agent.hits + 1 }
  | enters (arrival : Arrival) (ending : HookEnd) :
      Turn agent (.counted arrival ending) (.entered arrival ending) agent
  | ends {arrival : Arrival} (ending : HookEnd) {dispatch : Dispatch} :
      dispatch.number? = some arrival.sequence →
      Turn agent (.entered arrival ending) (.dispatched arrival.toHit dispatch) agent
  | stays (hit : Hit) (dispatch : Dispatch) :
      Turn agent (.dispatched hit dispatch) (.dispatched hit dispatch) agent

theorem Activity.act_turn (activity : Activity) (machine : Machine σ) (w : World σ) :
    Turn w.agent activity (activity.act machine w).1 (activity.act machine w).2.agent := by
  cases activity with
  | found env marker method => exact .records env marker method
  | recorded env marker method =>
    have hset := setBreakpoint_attempt machine env method Marker.location w
    have hagent := (Dialogue.single hset).agent_eq.1
    simp only [act, Run.bind_apply, Run.pure_apply, hagent]
    exact .asks ..
  | answered marker method reply => cases reply <;> exact .concludes ..
  | concluded outcome =>
    simp only [act, Run.bind_apply, Run.pure_apply,
      (noteInstalled_dialogue machine .live outcome w).2]
    exact .advances ..
  | watched outcome => exact .rests outcome
  | delivered hit ending =>
    cases ht : w.agent.target.holds hit.method with
    | true =>
      simp only [act, Run.bind_apply, Run.get_apply, ht, if_true]
      exact .matches ending ht
    | false =>
      simp only [act, Run.bind_apply, Run.get_apply, ht, Bool.false_eq_true, if_false]
      exact .ignores ending ht
  | matched hit ending => exact .counts hit ending
  | counted arrival ending => exact .enters arrival ending
  | entered arrival ending => cases ending <;> exact .ends _ rfl
  | dispatched hit dispatch => exact .stays hit dispatch

/-! ## One choice -/

/-- What a choice makes of a pool. -/
inductive Pool.Step (pool : Pool σ) : Choice σ → Pool σ → Prop where
  | watches (env : Env) (marker : Marker) (method : MethodId) :
      Step pool (.watches env marker method)
        { pool with activities := pool.activities ++ [.found env marker method] }
  | hits (hit : Hit) (ending : HookEnd) : hit.method ∈ pool.armed →
      Step pool (.hits hit ending)
        { pool with activities := pool.activities ++ [.delivered hit ending] }
  | turn {index : Nat} {before after : Activity} {world : World σ} :
      pool.activities[index]? = some before → before.Turn pool.world.agent after world.agent →
      Step pool (.turn index)
        ⟨world, pool.armed ++ after.arms, pool.activities.set index after⟩
  | aside (other world : World σ) : world.agent.target = pool.world.agent.target →
      world.agent.hits = pool.world.agent.hits → Step pool (.aside other) { pool with world }

namespace Pool

variable {machine : Machine σ} {pool after : Pool σ} {choice : Choice σ}

theorem step_of_next (h : pool.next machine choice = some after) : pool.Step choice after := by
  cases choice with
  | watches env marker method =>
    cases h
    exact .watches env marker method
  | hits hit ending =>
    simp only [next] at h
    split at h
    · next hmem =>
      cases h
      exact .hits hit ending hmem
    · cases h
  | turn index =>
    obtain ⟨before, hbefore, hact⟩ := Option.bind_eq_some_iff.mp h
    cases hact
    exact .turn hbefore (before.act_turn machine pool.world)
  | aside world =>
    cases h
    exact .aside world _ rfl rfl

/-- What every choice of a schedule keeps holds where the schedule leads. -/
theorem run_keeps {P : Pool σ → Prop} {schedule : List (Choice σ)}
    (hstep : ∀ choice ∈ schedule, ∀ pool after : Pool σ, P pool → pool.Step choice after → P after)
    (hrun : pool.run machine schedule = some after) (h : P pool) : P after := by
  induction schedule generalizing pool with
  | nil =>
    cases hrun
    exact h
  | cons choice rest ih =>
    obtain ⟨chosen, hnext, hrest⟩ := Option.bind_eq_some_iff.mp hrun
    obtain ⟨hfirst, hlater⟩ := List.forall_mem_cons.mp hstep
    exact ih hlater hrest (hfirst pool chosen h (step_of_next hnext))

end Pool

/-! ## Hits of the recorded method -/

/-- An activity that watches for no other method than this, and ignores no hit of it. -/
def Activity.Heeds (m : MethodId) : Activity → Prop
  | .found _ _ method | .recorded _ _ method | .answered _ method _ => method = m
  | .dispatched hit dispatch => hit.method = m → dispatch ≠ .ignored
  | _ => True

def Activity.isFound : Activity → Bool
  | .found .. => true
  | _ => false

section

variable {m : MethodId} {agent agent' : Agent} {before after : Activity}

/-- Either the method has been recorded before, or this turn records it. -/
theorem Activity.Turn.heeds (h : before.Turn agent after agent') (hm : m ≠ .null)
    (hbefore : before.Heeds m) (hrecorded : agent.target.holds m = true ∨ before.isFound = true) :
    after.Heeds m ∧ agent'.target.holds m = true := by
  cases h with
  | records env marker method =>
    cases hbefore
    exact ⟨rfl, TargetSlot.holds_iff.mpr (agent.target.get_record hm)⟩
  | asks => exact ⟨hbefore, hrecorded.resolve_right Bool.false_ne_true⟩
  | @ignores hit _ hignored =>
    have hheld := hrecorded.resolve_right Bool.false_ne_true
    refine ⟨fun hhit => ?_, hheld⟩
    rw [hhit, hheld] at hignored
    cases hignored
  | @ends arrival _ dispatch hnumber =>
    refine ⟨fun _ hignored => ?_, hrecorded.resolve_right Bool.false_ne_true⟩
    rw [hignored] at hnumber
    cases hnumber
  | stays => exact ⟨hbefore, hrecorded.resolve_right Bool.false_ne_true⟩
  | _ => exact ⟨trivial, hrecorded.resolve_right Bool.false_ne_true⟩

end

/-- Before the method is recorded no watcher has come any further, so that no breakpoint has been
set. -/
structure Published (m : MethodId) (pool : Pool σ) : Prop where
  heeds : ∀ activity ∈ pool.activities, activity.Heeds m
  recorded : pool.world.agent.target.holds m = true ∨
    pool.armed = [] ∧ ∀ activity ∈ pool.activities, activity.isFound = true

theorem Published.step {m : MethodId} {pool after : Pool σ} {choice : Choice σ}
    (h : Published m pool) (hm : m ≠ .null)
    (hwatches : ∀ env marker method, choice = .watches env marker method → method = m)
    (hstep : pool.Step choice after) : Published m after := by
  cases hstep with
  | watches env marker method =>
    refine ⟨List.forall_mem_append.mpr ⟨h.heeds, List.forall_mem_singleton.mpr ?_⟩, ?_⟩
    · exact hwatches env marker method rfl
    · refine h.recorded.imp_right fun ⟨harmed, hfound⟩ => ⟨harmed, ?_⟩
      exact List.forall_mem_append.mpr ⟨hfound, List.forall_mem_singleton.mpr rfl⟩
  | hits hit ending hmem =>
    -- A breakpoint has been set, so the method must have been recorded.
    refine ⟨List.forall_mem_append.mpr ⟨h.heeds, List.forall_mem_singleton.mpr trivial⟩, .inl ?_⟩
    refine h.recorded.resolve_right fun ⟨harmed, _⟩ => ?_
    rw [harmed] at hmem
    cases hmem
  | turn hbefore hturn =>
    -- As long as nothing is recorded, only a watcher can have a turn, and it records the method.
    have hmem := List.mem_of_getElem? hbefore
    obtain ⟨hheeds, hrecorded⟩ := hturn.heeds hm (h.heeds _ hmem)
      (h.recorded.imp_right fun ⟨_, hfound⟩ => hfound _ hmem)
    refine ⟨fun activity hactivity => ?_, .inl hrecorded⟩
    obtain hold | rfl := List.mem_or_eq_of_mem_set hactivity
    · exact h.heeds activity hold
    · exact hheeds
  | aside other world htarget _ =>
    refine ⟨h.heeds, ?_⟩
    rw [htarget]
    exact h.recorded

/-! ## Numbers -/

/-- A turn that counts takes the next number, and any other leaves number and counter alone. -/
theorem Activity.Turn.number {agent agent' : Agent} {before after : Activity}
    (h : before.Turn agent after agent') :
    after.number? = before.number? ∧ agent'.hits = agent.hits ∨
    before.number? = none ∧ after.number? = some (agent.hits + 1) ∧
      agent'.hits = agent.hits + 1 := by
  cases h with
  | counts hit ending => exact .inr ⟨rfl, rfl, rfl⟩
  | ends ending hnumber => exact .inl ⟨hnumber, rfl⟩
  | _ => exact .inl ⟨rfl, rfl⟩

/-- As many numbers have been taken as have been counted, and they are the first ones. -/
structure Counted (pool : Pool σ) : Prop where
  hits : pool.world.agent.hits = UInt64.ofNat pool.taken.length
  taken : pool.taken.Perm ((List.range pool.taken.length).map fun k => UInt64.ofNat (k + 1))

namespace Counted

variable {pool after : Pool σ} {choice : Choice σ}

theorem pass (h : Counted pool) (htaken : after.taken.Perm pool.taken)
    (hhits : after.world.agent.hits = pool.world.agent.hits) : Counted after := by
  constructor
  · rw [hhits, htaken.length_eq, h.hits]
  · rw [htaken.length_eq]
    exact htaken.trans h.taken

theorem count (h : Counted pool)
    (htaken : after.taken.Perm ((pool.world.agent.hits + 1) :: pool.taken))
    (hhits : after.world.agent.hits = pool.world.agent.hits + 1) : Counted after := by
  have hnext : pool.world.agent.hits + 1 = UInt64.ofNat (pool.taken.length + 1) := by
    rw [h.hits, UInt64.ofNat_add]
    rfl
  constructor
  · rw [hhits, htaken.length_eq, hnext, List.length_cons]
  · rw [htaken.length_eq, List.length_cons, List.range_succ, List.map_append]
    rw [hnext] at htaken
    exact htaken.trans ((h.taken.cons _).trans (List.perm_append_singleton _ _).symm)

theorem taken_append {activity : Activity} (h : activity.number? = none)
    (activities : List Activity) :
    (activities ++ [activity]).filterMap Activity.number? =
      activities.filterMap Activity.number? := by
  rw [List.filterMap_append, List.filterMap_cons_none h, List.filterMap_nil, List.append_nil]

/-- The numbers before and after a turn differ by what the one activity has taken. -/
theorem taken_set {activities : List Activity} {index : Nat} {before : Activity}
    (h : activities[index]? = some before) (next : Activity) :
    ∃ others, (activities.filterMap Activity.number?).Perm (before.number?.toList ++ others) ∧
      ((activities.set index next).filterMap Activity.number?).Perm
        (next.number?.toList ++ others) := by
  obtain ⟨hlt, rfl⟩ := List.getElem?_eq_some_iff.mp h
  have hcons : ∀ activity : Activity,
      (activity :: activities.eraseIdx index).filterMap Activity.number? =
        activity.number?.toList ++ (activities.eraseIdx index).filterMap Activity.number? := by
    intro activity
    rw [List.filterMap_cons]
    cases activity.number? <;> rfl
  refine ⟨(activities.eraseIdx index).filterMap Activity.number?, ?_, ?_⟩
  · rw [← hcons]
    exact (List.getElem_cons_eraseIdx_perm hlt).symm.filterMap _
  · rw [← hcons]
    exact (List.set_perm_cons_eraseIdx hlt next).filterMap _

theorem step (h : Counted pool) (hstep : pool.Step choice after) : Counted after := by
  cases hstep with
  | watches env marker method => exact h.pass (.of_eq (taken_append rfl _)) rfl
  | hits hit ending _ => exact h.pass (.of_eq (taken_append rfl _)) rfl
  | @turn index before next world hbefore hturn =>
    obtain ⟨others, htaken, hset⟩ := taken_set hbefore next
    obtain ⟨hnumber, hhits⟩ | ⟨hnone, hnumber, hhits⟩ := hturn.number
    · rw [hnumber] at hset
      exact h.pass (hset.trans htaken.symm) hhits
    · rw [hnone] at htaken
      rw [hnumber] at hset
      exact h.count (hset.trans (htaken.symm.cons _)) hhits
  | aside other world _ hhits => exact h.pass (.refl _) hhits

/-- As long as the counter does not run over, the numbers are natural numbers. -/
theorem toNat (h : Counted pool) (hbound : pool.taken.length < 2 ^ 64) :
    pool.world.agent.hits.toNat = pool.taken.length ∧
      (pool.taken.map UInt64.toNat).Perm (List.range' 1 pool.taken.length) := by
  constructor
  · rw [h.hits, UInt64.toNat_ofNat_of_lt' hbound]
  · have hnumbers : ((List.range pool.taken.length).map fun k => UInt64.ofNat (k + 1)).map
        UInt64.toNat = List.range' 1 pool.taken.length := by
      rw [List.map_map, List.range'_eq_map_range]
      refine List.map_congr_left fun k hk => ?_
      have hlt : k < pool.taken.length := List.mem_range.mp hk
      rw [Function.comp_apply, UInt64.toNat_ofNat_of_lt' (Nat.lt_of_le_of_lt hlt hbound),
        Nat.add_comm]
    rw [← hnumbers]
    exact h.taken.map _

end Counted

/-- Whatever the order in which watchers and hits have their turns, no hit is lost. If all watchers
have found the same method, every hit of it goes to the hook, also one that comes before the watcher
knows that the breakpoint has been set. And as many hits as have been counted have taken the numbers
from one on, each of them one. An activity with which nothing interferes does what preparing a class
or hitting a breakpoint does. -/
theorem no_hit_is_lost (machine : Machine σ) {w : World σ} {schedule : List (Choice σ)}
    {pool : Pool σ} (hhits : w.agent.hits = 0)
    (hrun : Pool.run machine schedule ⟨w, [], []⟩ = some pool) :
    (∀ m : MethodId, m ≠ .null →
      (∀ env marker method, .watches env marker method ∈ schedule → method = m) →
      ∀ hit dispatch, .dispatched hit dispatch ∈ pool.activities → hit.method = m →
        dispatch ≠ .ignored) ∧
    (pool.taken.length < 2 ^ 64 → pool.world.agent.hits.toNat = pool.taken.length ∧
      (pool.taken.map UInt64.toNat).Perm (List.range' 1 pool.taken.length)) ∧
    Uninterrupted machine := by
  refine ⟨?_, ?_, uninterrupted machine⟩
  · intro m hm hwatches hit dispatch hmem hhit
    have hpublished : Published m pool := by
      refine Pool.run_keeps (fun choice hchoice before after h hstep => ?_) hrun
        ⟨List.forall_mem_nil _, .inr ⟨rfl, List.forall_mem_nil _⟩⟩
      refine h.step hm (fun env marker method he => ?_) hstep
      exact hwatches env marker method (he ▸ hchoice)
    exact hpublished.heeds _ hmem hhit
  · have hcounted : Counted pool := by
      refine Pool.run_keeps (fun _ _ _ _ h hstep => h.step hstep) hrun ⟨?_, .refl _⟩
      exact hhits
    exact hcounted.toNat

section

open Simulation Simulation.Host

/-- A fresh agent on a host with one marker class. -/
def loneMarker : World Host :=
  ⟨.fresh, .itself, .start [markerClass ⟨1⟩ ⟨1⟩] .full .none, .present, []⟩

def hitOn (thread : ThreadId) : Hit := ⟨⟨1⟩, thread, ⟨1⟩, 0⟩

/-- Two watchers find the same method, and the second is refused the breakpoint that the first has
just set. Meanwhile two hits overtake one another, the one before the first watcher has its reply and
the other after the method has been recorded again. -/
def crossing : List (Choice Host) :=
  [.watches .live .standard ⟨1⟩, .watches .live .standard ⟨1⟩, .turn 0, .turn 0,
    .hits (hitOn ⟨1⟩) .returned, .turn 2, .turn 1, .hits (hitOn ⟨2⟩) .panicked, .turn 3, .turn 3,
    .turn 2, .turn 1, .turn 2, .turn 3, .turn 0, .turn 3, .turn 2, .turn 1, .turn 0, .turn 1]

theorem no_hit_is_lost_crossing :
    loneMarker.agent.hits = 0 ∧
    ∃ pool, Pool.run machine crossing ⟨loneMarker, [], []⟩ = some pool ∧
      pool.activities =
        [.watched (.installed ⟨1⟩), .watched (.installFailed ⟨1⟩ ⟨.duplicate, by decide⟩),
          .dispatched (hitOn ⟨1⟩) (.rendezvous 2), .dispatched (hitOn ⟨2⟩) (.hookPanicked 1)] ∧
      (∀ hit dispatch, .dispatched hit dispatch ∈ pool.activities → hit.method = ⟨1⟩ →
        dispatch ≠ .ignored) ∧
      (pool.taken.map UInt64.toNat).Perm (List.range' 1 2) := by
  have hend : (Pool.run machine crossing ⟨loneMarker, [], []⟩).map Pool.activities =
      some [.watched (.installed ⟨1⟩), .watched (.installFailed ⟨1⟩ ⟨.duplicate, by decide⟩),
        .dispatched (hitOn ⟨1⟩) (.rendezvous 2), .dispatched (hitOn ⟨2⟩) (.hookPanicked 1)] := by
    decide +kernel
  have hwatches : ∀ env marker method, .watches env marker method ∈ crossing → method = ⟨1⟩ := by
    intro env marker method hmem
    simp only [crossing, List.mem_cons, Choice.watches.injEq, reduceCtorEq, List.not_mem_nil,
      or_false] at hmem
    obtain ⟨-, -, hmethod⟩ | ⟨-, -, hmethod⟩ := hmem
    · exact hmethod
    · exact hmethod
  obtain ⟨pool, hrun, hactivities⟩ := Option.map_eq_some_iff.mp hend
  have htaken : pool.taken.length = 2 := by
    rw [Pool.taken, hactivities]
    rfl
  obtain ⟨hheeded, hnumbered, -⟩ := no_hit_is_lost machine rfl hrun
  obtain ⟨-, hperm⟩ := hnumbered (by rw [htaken]; decide)
  rw [htaken] at hperm
  exact ⟨rfl, pool, hrun, hactivities, hheeded ⟨1⟩ (by decide) hwatches, hperm⟩

end

end Rendezvous
