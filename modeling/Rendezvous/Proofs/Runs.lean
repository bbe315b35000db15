import Rendezvous.Operation

/-!
# Runs

A run is a list of acts: operations from outside, and log records of other code. An operation that
enters the agent's hook comes with the acts that the hook does, so runs nest to any depth. Of a run
we look at the moments at which a hook begins or an operation ends, in the order of time. What every
step between two moments keeps holds throughout.
-/

namespace Rendezvous

variable {σ : Type}

inductive Act where
  /-- If the operation enters the hook, the hook does the acts inside and ends in this way. -/
  | operation (op : Operation) (inside : List Act) (ending : HookEnd)
  | record (record : Log.Record)

/-- The hook that does something, once its entry is in the journal. -/
def Hook.doing (inside : Run σ Unit) (ending : HookEnd) : Hook σ := fun arrival => do
  note (.arrival arrival)
  inside
  pure ending

section

variable (machine : Machine σ)

mutual

def Act.run : Act → Run σ Unit
  | .operation op inside ending => do
    let _ ← op.run machine (Hook.doing (runActs inside) ending)
  | .record record => report record.level record.component record.text

def runActs : List Act → Run σ Unit
  | [] => pure ()
  | act :: rest => do
    act.run
    runActs rest

end

end

/-! ## Hits that enter the hook -/

/-- The arrival that a hit makes, if it is one of the recorded method. -/
def World.arrival? (w : World σ) (hit : Hit) : Option Arrival :=
  if w.agent.target.holds hit.method then some { hit with sequence := w.agent.hits + 1 } else none

/-- The arrival with which an operation enters the hook of the world's own agent. -/
def Operation.arrival? (w : World σ) : Operation → Option Arrival
  | .breakpointHit hit => w.arrival? hit
  | .deliverBreakpointHit hit =>
    match w.registration with
    | .itself => w.arrival? hit
    | _ => none
  | _ => none

/-- The world in which the hook begins to act: the hit has been counted and noted. -/
def World.entering (w : World σ) (arrival : Arrival) : World σ :=
  { w with
    agent := { w.agent with hits := arrival.sequence }
    journal := w.journal ++ [.arrival arrival] }

/-- What an operation answers when it has entered the hook. -/
def Operation.hitAnswer (dispatch : Dispatch) : Operation → Answer
  | .breakpointHit _ => .dispatch dispatch
  | _ => .nothing

theorem World.arrival?_eq_some {w : World σ} {hit : Hit} {arrival : Arrival} :
    w.arrival? hit = some arrival ↔
      w.agent.target.holds hit.method = true ∧
        { hit with sequence := w.agent.hits + 1 } = arrival := by
  simp [World.arrival?]

theorem World.arrival?_eq_none {w : World σ} {hit : Hit} :
    w.arrival? hit = none ↔ w.agent.target.holds hit.method = false := by
  simp [World.arrival?]

/-- Only a hit of the recorded method enters the hook, directly or if the process has registered the
own agent. -/
theorem Operation.of_arrival {op : Operation} {w : World σ} {arrival : Arrival}
    (h : op.arrival? w = some arrival) :
    ∃ hit, w.arrival? hit = some arrival ∧
      (op = .breakpointHit hit ∨ op = .deliverBreakpointHit hit ∧ w.registration = .itself) := by
  cases op with
  | breakpointHit hit => exact ⟨hit, h, .inl rfl⟩
  | deliverBreakpointHit hit =>
    cases hr : w.registration with
    | itself => exact ⟨hit, by simpa only [arrival?, hr] using h, .inr ⟨rfl, rfl⟩⟩
    | _ =>
      simp only [arrival?, hr] at h
      cases h
  | _ => cases h

/-- An arrival has the number after the hits that came before it. -/
theorem Operation.sequence_eq {op : Operation} {w : World σ} {arrival : Arrival}
    (h : op.arrival? w = some arrival) : arrival.sequence = w.agent.hits + 1 := by
  obtain ⟨hit, ha, -⟩ := of_arrival h
  obtain ⟨-, rfl⟩ := World.arrival?_eq_some.mp ha
  rfl

theorem breakpointHit_of_arrival {w : World σ} {hit : Hit} {arrival : Arrival}
    (h : w.arrival? hit = some arrival) (inside : Run σ Unit) (ending : HookEnd) :
    breakpointHit (Hook.doing inside ending) hit w =
      concludeHit arrival.sequence ending (inside (w.entering arrival)).2 := by
  obtain ⟨ht, rfl⟩ := World.arrival?_eq_some.mp h
  simp only [breakpointHit, Run.bind_apply, Run.get_apply, ht, if_true]
  rfl

theorem breakpointHit_of_no_arrival {w : World σ} {hit : Hit} (h : w.arrival? hit = none)
    (hook : Hook σ) :
    breakpointHit hook hit w = (.ignored, (report .trace .dispatcher
      ("ignoring breakpoint in " ++ hit.method.display ++ " at " ++ Int.repr hit.location.toInt)
      w).2) := by
  have ht := World.arrival?_eq_none.mp h
  simp only [breakpointHit, Run.bind_apply, Run.get_apply, ht, Bool.false_eq_true, if_false]
  rfl

/-- The hook runs in the world it enters, and nothing but its end is left to conclude. -/
theorem Operation.run_of_arrival {op : Operation} {w : World σ} {arrival : Arrival}
    (h : op.arrival? w = some arrival) (machine : Machine σ) (inside : Run σ Unit)
    (ending : HookEnd) :
    op.run machine (Hook.doing inside ending) w =
      (op.hitAnswer (concludeHit arrival.sequence ending (inside (w.entering arrival)).2).1,
        (concludeHit arrival.sequence ending (inside (w.entering arrival)).2).2) := by
  obtain ⟨hit, ha, rfl | ⟨rfl, hr⟩⟩ := of_arrival h
  · simp only [run, Run.bind_apply, breakpointHit_of_arrival ha]
    rfl
  · simp only [run, Rendezvous.deliverBreakpointHit, Run.bind_apply, Run.get_apply, hr,
      breakpointHit_of_arrival ha]
    rfl

/-! ## Moments -/

inductive Moment (σ : Type) where
  /-- The own agent's hook begins, in this world. -/
  | entered (arrival : Arrival) (world : World σ)
  /-- An operation ends, with the world before it and the world after it. -/
  | ended (op : Operation) (before : World σ) (answer : Answer) (after : World σ)

def Moment.world : Moment σ → World σ
  | entered _ world => world
  | ended _ _ _ after => after

@[simp] theorem Moment.world_entered (arrival : Arrival) (world : World σ) :
    (entered arrival world).world = world := rfl
@[simp] theorem Moment.world_ended (op : Operation) (before after : World σ) (answer : Answer) :
    (ended op before answer after).world = after := rfl

section

variable (machine : Machine σ)

mutual

def Act.moments : Act → World σ → List (Moment σ)
  | .operation op inside ending, w =>
    let ended := op.run machine (Hook.doing (runActs machine inside) ending) w
    match op.arrival? w with
    | none => [.ended op w ended.1 ended.2]
    | some arrival =>
      .entered arrival (w.entering arrival) ::
        (momentsOf inside (w.entering arrival) ++ [.ended op w ended.1 ended.2])
  | .record _, _ => []

def momentsOf : List Act → World σ → List (Moment σ)
  | [], _ => []
  | act :: rest, w => act.moments w ++ momentsOf rest (act.run machine w).2

end

/-- The points of a run, each with the moments up to it and the world there: the moments themselves,
and the end. -/
inductive Point (acts : List Act) (w : World σ) : List (Moment σ) → World σ → Prop where
  | moment (past : List (Moment σ)) (m : Moment σ) (rest : List (Moment σ)) :
      momentsOf machine acts w = past ++ m :: rest → Point acts w (past ++ [m]) m.world
  | last : Point acts w (momentsOf machine acts w) (runActs machine acts w).2

/-- What is kept from each moment to the next. It may speak of all past moments. -/
structure Kept (I : List (Moment σ) → World σ → Prop) : Prop where
  quiet : ∀ past w (op : Operation) hook, I past w → op.arrival? w = none →
    I (past ++ [.ended op w (op.run machine hook w).1 (op.run machine hook w).2])
      (op.run machine hook w).2
  enters : ∀ past w (op : Operation) arrival, I past w → op.arrival? w = some arrival →
    I (past ++ [.entered arrival (w.entering arrival)]) (w.entering arrival)
  leaves : ∀ past w (op : Operation) before arrival ending, I past w →
    op.arrival? before = some arrival →
    I (past ++ [.ended op before (op.hitAnswer (concludeHit arrival.sequence ending w).1)
        (concludeHit arrival.sequence ending w).2])
      (concludeHit arrival.sequence ending w).2
  records : ∀ past w level component text, I past w → I past (report level component text w).2

end

/-- What holds at each moment of a list, with the moments before it. -/
def Along (I : List (Moment σ) → World σ → Prop) : List (Moment σ) → List (Moment σ) → Prop
  | _, [] => True
  | past, m :: rest => I (past ++ [m]) m.world ∧ Along I (past ++ [m]) rest

variable {I : List (Moment σ) → World σ → Prop}

theorem Along.append {past a b : List (Moment σ)} (ha : Along I past a)
    (hb : Along I (past ++ a) b) : Along I past (a ++ b) := by
  induction a generalizing past with
  | nil => simpa using hb
  | cons m rest ih =>
    obtain ⟨hm, hrest⟩ := ha
    exact ⟨hm, ih hrest (by simpa using hb)⟩

theorem Along.at {past a b : List (Moment σ)} {m : Moment σ} (h : Along I past (a ++ m :: b)) :
    I (past ++ (a ++ [m])) m.world := by
  induction a generalizing past with
  | nil => exact h.1
  | cons first rest ih => simpa using ih h.2

variable {machine : Machine σ}

mutual

theorem Kept.act (h : Kept machine I) : ∀ (act : Act) (past : List (Moment σ)) (w : World σ),
    I past w → Along I past (act.moments machine w) ∧
      I (past ++ act.moments machine w) (act.run machine w).2
  | .operation op inside ending, past, w, hw => by
    simp only [Act.moments, Act.run, Run.bind_apply, Run.pure_apply]
    cases ha : op.arrival? w with
    | none =>
      have hq := h.quiet past w op (Hook.doing (runActs machine inside) ending) hw ha
      exact ⟨⟨hq, trivial⟩, hq⟩
    | some arrival =>
      have he := h.enters past w op arrival hw ha
      obtain ⟨halong, hinside⟩ := h.acts inside _ _ he
      have hl := h.leaves _ _ op w arrival ending hinside ha
      rw [Operation.run_of_arrival ha]
      dsimp only
      rw [List.append_assoc, List.append_assoc] at hl
      exact ⟨⟨he, halong.append ⟨by simpa using hl, trivial⟩⟩, hl⟩
  | .record record, past, w, hw => by
    have hr := h.records past w record.level record.component record.text hw
    simp only [Act.moments, Act.run, List.append_nil]
    exact ⟨trivial, hr⟩

theorem Kept.acts (h : Kept machine I) : ∀ (acts : List Act) (past : List (Moment σ)) (w : World σ),
    I past w → Along I past (momentsOf machine acts w) ∧
      I (past ++ momentsOf machine acts w) (runActs machine acts w).2
  | [], past, w, hw => by
    simp only [momentsOf, runActs, List.append_nil]
    exact ⟨trivial, hw⟩
  | act :: rest, past, w, hw => by
    obtain ⟨halong, hact⟩ := h.act act past w hw
    obtain ⟨hrest, hend⟩ := h.acts rest _ _ hact
    simp only [momentsOf, runActs, Run.bind_apply, ← List.append_assoc]
    exact ⟨halong.append hrest, hend⟩

end

/-- What every step keeps, and what holds at the start, holds at every point of a run. -/
theorem Kept.at_point (h : Kept machine I) {acts : List Act} {w w' : World σ}
    {past : List (Moment σ)} (hw : I [] w) (hp : Point machine acts w past w') : I past w' := by
  obtain ⟨halong, hend⟩ := h.acts acts [] w hw
  cases hp with
  | moment past m rest hm =>
    rw [hm] at halong
    simpa using halong.at
  | last => simpa using hend

end Rendezvous
