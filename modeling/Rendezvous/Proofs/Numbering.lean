import Rendezvous.Proofs.Deeds
import Rendezvous.Proofs.Hosts

/-!
# The numbers of arrivals

Hooks nest: while one runs, further hits may enter it, and it may return or panic at any depth. An
act of a run is found at the world in which it is run, after the moments before it. By these the
arrivals of a run are numbered without a gap in the order of entry, and each hit of the recorded
method comes out with the number it took when it entered, whatever happened inside.
-/

namespace Rendezvous

variable {σ : Type}

/-- What becomes of a hit by the way in which its hook ends. -/
def HookEnd.dispatch (sequence : UInt64) : HookEnd → Dispatch
  | .returned => .rendezvous sequence
  | .panicked => .hookPanicked sequence

def Moment.arrival? : Moment σ → Option Arrival
  | .entered arrival _ => some arrival
  | .ended _ _ _ _ => none

/-- The entries into the own agent's hook, in order. -/
def arrivalsOf (past : List (Moment σ)) : List Arrival := past.filterMap Moment.arrival?

/-- The arrivals that have been noted in a journal. -/
def arrivalsIn (journal : List Entry) : List Arrival :=
  journal.filterMap fun
    | .arrival arrival => some arrival
    | _ => none

@[simp] theorem arrivalsOf_nil : arrivalsOf ([] : List (Moment σ)) = [] := rfl
@[simp] theorem arrivalsOf_append (a b : List (Moment σ)) :
    arrivalsOf (a ++ b) = arrivalsOf a ++ arrivalsOf b := List.filterMap_append
@[simp] theorem arrivalsOf_entered (arrival : Arrival) (world : World σ) (rest : List (Moment σ)) :
    arrivalsOf (.entered arrival world :: rest) = arrival :: arrivalsOf rest := rfl
@[simp] theorem arrivalsOf_ended (op : Operation) (before after : World σ) (answer : Answer)
    (rest : List (Moment σ)) :
    arrivalsOf (.ended op before answer after :: rest) = arrivalsOf rest := rfl
@[simp] theorem arrivalsIn_append (a b : List Entry) :
    arrivalsIn (a ++ b) = arrivalsIn a ++ arrivalsIn b := List.filterMap_append

/-- The moment at which an arrival enters, by its place among the arrivals. -/
theorem exists_entered {moments : List (Moment σ)} {k : Nat} {arrival : Arrival}
    (h : (arrivalsOf moments)[k]? = some arrival) :
    ∃ past world future, moments = past ++ .entered arrival world :: future ∧
      (arrivalsOf past).length = k := by
  induction moments generalizing k with
  | nil => simp at h
  | cons m rest ih =>
    cases m with
    | ended op before answer after =>
      obtain ⟨past, world, future, hrest, hk⟩ := ih h
      exact ⟨.ended op before answer after :: past, world, future, by rw [hrest]; rfl, hk⟩
    | entered first world =>
      cases k with
      | zero =>
        cases h
        exact ⟨[], world, rest, rfl, rfl⟩
      | succ k =>
        obtain ⟨past, other, future, hrest, hk⟩ := ih h
        exact ⟨.entered first world :: past, other, future, by rw [hrest]; rfl, by simp [hk]⟩

/-! ## Where an act is run -/

section

variable (machine : Machine σ)

/-- In a run of acts from a world, an act is run in another world after these moments, at any
depth. -/
inductive Occurs : List Act → World σ → List (Moment σ) → Act → World σ → Prop where
  | here (act : Act) (rest : List Act) (w : World σ) : Occurs (act :: rest) w [] act w
  | later {act other : Act} {rest : List Act} {w v : World σ} {past : List (Moment σ)} :
      Occurs rest (act.run machine w).2 past other v →
      Occurs (act :: rest) w (act.moments machine w ++ past) other v
  | inside {op : Operation} {inside rest : List Act} {ending : HookEnd} {w v : World σ}
      {arrival : Arrival} {past : List (Moment σ)} {other : Act} :
      op.arrival? w = some arrival → Occurs inside (w.entering arrival) past other v →
      Occurs (.operation op inside ending :: rest) w
        (.entered arrival (w.entering arrival) :: past) other v

variable {machine} {acts : List Act} {act other : Act} {w v : World σ} {past : List (Moment σ)}

theorem Act.moments_of_arrival {op : Operation} {arrival : Arrival}
    (h : op.arrival? w = some arrival) (inside : List Act) (ending : HookEnd) :
    (Act.operation op inside ending).moments machine w =
      .entered arrival (w.entering arrival) ::
        (momentsOf machine inside (w.entering arrival) ++
          [.ended op w (op.run machine (Hook.doing (runActs machine inside) ending) w).1
            (op.run machine (Hook.doing (runActs machine inside) ending) w).2]) := by
  simp only [Act.moments, h]

theorem Act.moments_of_no_arrival {op : Operation} (h : op.arrival? w = none) (inside : List Act)
    (ending : HookEnd) :
    (Act.operation op inside ending).moments machine w =
      [.ended op w (op.run machine (Hook.doing (runActs machine inside) ending) w).1
        (op.run machine (Hook.doing (runActs machine inside) ending) w).2] := by
  simp only [Act.moments, h]

namespace Occurs

/-- The moments of an act stand in those of the run, behind the moments before it. -/
theorem moments (h : Occurs machine acts w past act v) :
    ∃ future, momentsOf machine acts w = past ++ act.moments machine v ++ future := by
  induction h with
  | here act rest w => exact ⟨_, by rw [List.nil_append, momentsOf]⟩
  | later _ ih =>
    obtain ⟨future, hf⟩ := ih
    exact ⟨future, by simp only [momentsOf, hf, List.append_assoc]⟩
  | inside ha _ ih =>
    obtain ⟨future, hf⟩ := ih
    rw [momentsOf, Act.moments_of_arrival ha, hf]
    exact ⟨_, by simp only [List.cons_append, List.append_assoc]; rfl⟩

/-- The act after all others is run where those have led to. -/
theorem behind (acts : List Act) (act : Act) (w : World σ) :
    Occurs machine (acts ++ [act]) w (momentsOf machine acts w) act (runActs machine acts w).2 := by
  induction acts generalizing w with
  | nil => exact .here act [] w
  | cons first rest ih => exact .later (ih (first.run machine w).2)

theorem of_single (h : Occurs machine [act] w past other v) (rest : List Act) :
    Occurs machine (act :: rest) w past other v := by
  cases h with
  | here => exact .here ..
  | later hnil => cases hnil
  | inside ha hi => exact .inside ha hi

end Occurs

mutual

theorem Act.occurs_of_entered {arrival : Arrival} {world : World σ} {future : List (Moment σ)} :
    ∀ (act : Act) (w : World σ) (past : List (Moment σ)),
      act.moments machine w = past ++ .entered arrival world :: future →
      ∃ op inside ending v, Occurs machine [act] w past (.operation op inside ending) v ∧
        op.arrival? v = some arrival
  | .operation op inside ending, w, past, hm => by
    cases ha : op.arrival? w with
    | none =>
      rw [Act.moments_of_no_arrival ha] at hm
      cases past with
      | nil => cases hm
      | cons m rest => simp at hm
    | some first =>
      rw [Act.moments_of_arrival ha] at hm
      cases past with
      | nil =>
        cases hm
        exact ⟨op, inside, ending, w, .here .., ha⟩
      | cons m rest =>
        obtain ⟨rfl, hrest⟩ := List.cons.inj hm
        rcases append_eq_append_cons hrest with ⟨between, -, hend⟩ | ⟨between, hinside, -⟩
        · cases between with
          | nil => cases hend
          | cons _ _ => simp at hend
        · obtain ⟨op', inside', ending', v, ho, ha'⟩ := occurs_of_entered inside _ _ hinside
          exact ⟨op', inside', ending', v, .inside ha ho, ha'⟩
  | .record record, w, past, hm => by
    simp [Act.moments] at hm

/-- Each entry into the hook is that of an act of the run. -/
theorem occurs_of_entered {arrival : Arrival} {world : World σ} {future : List (Moment σ)} :
    ∀ (acts : List Act) (w : World σ) (past : List (Moment σ)),
      momentsOf machine acts w = past ++ .entered arrival world :: future →
      ∃ op inside ending v, Occurs machine acts w past (.operation op inside ending) v ∧
        op.arrival? v = some arrival
  | [], w, past, hm => by simp [momentsOf] at hm
  | act :: rest, w, past, hm => by
    rw [momentsOf] at hm
    rcases append_eq_append_cons hm with ⟨between, rfl, hrest⟩ | ⟨between, hact, -⟩
    · obtain ⟨op, inside, ending, v, ho, ha⟩ := occurs_of_entered rest _ _ hrest
      exact ⟨op, inside, ending, v, .later ho, ha⟩
    · obtain ⟨op, inside, ending, v, ho, ha⟩ := act.occurs_of_entered _ _ hact
      exact ⟨op, inside, ending, v, ho.of_single rest, ha⟩

end

end

/-! ## Numbers -/

section

variable {machine : Machine σ} {start w w' : World σ} {past : List (Moment σ)} {op : Operation}

/-- What is known along a run of its arrivals: they have been noted, they have been counted, and each
has the number at which the count stood when it entered. -/
structure Numbered (start : World σ) (past : List (Moment σ)) (w : World σ) : Prop where
  noted : arrivalsIn w.journal = arrivalsIn start.journal ++ arrivalsOf past
  hits : w.agent.hits = start.agent.hits + UInt64.ofNat (arrivalsOf past).length
  sequence : ∀ k arrival, (arrivalsOf past)[k]? = some arrival →
    arrival.sequence = start.agent.hits + UInt64.ofNat (k + 1)

theorem Course.arrivalsIn_eq {calls : List Call} (h : Course machine w calls w') :
    arrivalsIn w'.journal = arrivalsIn w.journal := by
  induction h with
  | stay => rfl
  | call _ _ ih => simpa [World.called, arrivalsIn] using ih
  | record _ _ _ _ ih => simpa [report, arrivalsIn] using ih
  | logger _ _ ih => exact ih

theorem Effect.arrivalsIn_eq (h : Effect machine op w w') :
    arrivalsIn w'.journal = arrivalsIn w.journal := by
  obtain ⟨calls, hc, -⟩ := h.course (fun _ _ => True) trivial fun _ _ _ hd => by
    obtain ⟨calls, hc⟩ := hd.course
    exact ⟨calls, hc, trivial⟩
  have he := hc.arrivalsIn_eq
  exact he

theorem Effect.hits_eq (h : Effect machine op w w') : w'.agent.hits = w.agent.hits := by
  have ha := h.agentOf_eq .own
  simp only [World.agentOf] at ha
  rw [ha]
  cases hd : op.deed? machine .own w with
  | none => rfl
  | some deed =>
    cases deed with
    | activated activation => rfl
    | prepared outcome => rfl
    | entered arrival =>
      -- An entry into the own agent's hook is a moment of its own and no deed of an operation.
      obtain ⟨hown, -⟩ := Operation.of_entered hd
      cases hown

namespace Numbered

theorem nil (w : World σ) : Numbered w [] w := by
  refine ⟨by simp, ?_, by simp⟩
  exact (UInt64.add_zero w.agent.hits).symm

/-- A moment that is no entry leaves journal and count as they are, but for calls and log records. -/
theorem pass (h : Numbered start past w) {m : Moment σ} (hm : m.arrival? = none)
    (hj : arrivalsIn w'.journal = arrivalsIn w.journal) (hh : w'.agent.hits = w.agent.hits) :
    Numbered start (past ++ [m]) w' := by
  have ha : arrivalsOf (past ++ [m]) = arrivalsOf past := by
    simp [arrivalsOf, hm]
  constructor
  · rw [hj, ha, h.noted]
  · rw [hh, ha, h.hits]
  · rw [ha]
    exact h.sequence

theorem enter (h : Numbered start past w) {arrival : Arrival}
    (hs : arrival.sequence = w.agent.hits + 1) :
    Numbered start (past ++ [.entered arrival (w.entering arrival)]) (w.entering arrival) := by
  have ha : arrivalsOf (past ++ [.entered arrival (w.entering arrival)]) =
      arrivalsOf past ++ [arrival] := by simp
  have hnext : arrival.sequence =
      start.agent.hits + UInt64.ofNat ((arrivalsOf past).length + 1) := by
    rw [hs, h.hits, UInt64.ofNat_add, UInt64.add_assoc]
    rfl
  constructor
  · rw [ha, World.entering, arrivalsIn_append, h.noted, List.append_assoc]
    rfl
  · rw [ha, List.length_append, List.length_singleton]
    exact hnext
  · intro k other hk
    rw [ha] at hk
    by_cases hlt : k < (arrivalsOf past).length
    · rw [List.getElem?_append_left hlt] at hk
      exact h.sequence k other hk
    · obtain ⟨hlen, -⟩ := List.getElem?_eq_some_iff.mp hk
      have hlast : k = (arrivalsOf past).length := by
        simp only [List.length_append, List.length_singleton] at hlen
        omega
      subst hlast
      simp only [List.getElem?_concat_length, Option.some.injEq] at hk
      rw [← hk]
      exact hnext

theorem kept : Kept machine (Numbered start) where
  quiet := by
    intro past w op hook h ha
    have he := op.run_effect machine hook w ha
    exact h.pass rfl he.arrivalsIn_eq he.hits_eq
  enters := by
    intro past w op arrival h ha
    exact h.enter (Operation.sequence_eq ha)
  leaves := by
    intro past w op before arrival ending h _
    have hj : arrivalsIn (concludeHit arrival.sequence ending w).2.journal =
        arrivalsIn w.journal := by
      cases ending with
      | returned => rfl
      | panicked => simp [concludeHit, report, arrivalsIn]
    have hh : (concludeHit arrival.sequence ending w).2.agent.hits = w.agent.hits := by
      cases ending <;> rfl
    exact h.pass rfl hj hh
  records := by
    intro past w level component text h
    refine ⟨?_, h.hits, h.sequence⟩
    rw [← h.noted]
    simp [report, arrivalsIn]

/-- As long as the count does not run over, the numbers are natural numbers. -/
theorem toNat (h : Numbered start past w)
    (hbound : start.agent.hits.toNat + (arrivalsOf past).length < UInt64.size) :
    w.agent.hits.toNat = start.agent.hits.toNat + (arrivalsOf past).length ∧
      ∀ k arrival, (arrivalsOf past)[k]? = some arrival →
        arrival.sequence.toNat = start.agent.hits.toNat + k + 1 := by
  have toNat_add : ∀ n, n ≤ (arrivalsOf past).length →
      (start.agent.hits + UInt64.ofNat n).toNat = start.agent.hits.toNat + n := by
    intro n hn
    have hsize : UInt64.size = 2 ^ 64 := rfl
    rw [UInt64.toNat_add, UInt64.toNat_ofNat', Nat.mod_eq_of_lt (by omega),
      Nat.mod_eq_of_lt (by omega)]
  constructor
  · rw [h.hits, toNat_add _ (Nat.le_refl _)]
  · intro k arrival hk
    obtain ⟨hlt, -⟩ := List.getElem?_eq_some_iff.mp hk
    rw [h.sequence k arrival hk, toNat_add (k + 1) hlt, Nat.add_assoc]

end Numbered

end

/-! ## Hits -/

section

variable {v : World σ} {op : Operation} {hit : Hit}

theorem TargetSlot.holds_iff_stored {slot : TargetSlot} {m : MethodId} :
    slot.holds m = true ↔ m ≠ .null ∧ slot.stored = m := by
  simp [holds, Handle.isNull_eq_false]

theorem concludeHit_answer (sequence : UInt64) (ending : HookEnd) (w : World σ) :
    (concludeHit sequence ending w).1 = ending.dispatch sequence := by
  cases ending <;> rfl

/-- A hook that panics leaves the same behind as one that returns, but for a log record. -/
theorem concludeHit_leaves (sequence : UInt64) (ending : HookEnd) (w : World σ) :
    (concludeHit sequence ending w).2.agent = w.agent ∧
      (concludeHit sequence ending w).2.machine = w.machine ∧
      (concludeHit sequence ending w).2.registration = w.registration := by
  cases ending <;> exact ⟨rfl, rfl, rfl⟩

theorem Operation.arrival?_of_route
    (h : op.route v.registration = some (.own, .breakpointHit hit)) :
    op.arrival? v = v.arrival? hit := by
  cases op with
  | breakpointHit _ =>
    cases h
    rfl
  | deliverBreakpointHit _ =>
    cases hr : v.registration <;> rw [hr] at h <;> cases h
    simp only [arrival?, hr]
  | loadAgent _ | unloadAgent | deliverClassPrepared _ _ =>
    cases hr : v.registration <;> rw [hr] at h <;> cases h
  | _ => cases h

/-- A hit of another method is ignored: all that it leaves is a log record. -/
theorem Operation.run_of_ignored (machine : Machine σ)
    (h : op.route v.registration = some (.own, .breakpointHit hit))
    (ha : v.arrival? hit = none) (hook : Hook σ) :
    ∃ text, op.run machine hook v =
      (op.hitAnswer .ignored, (report .trace .dispatcher text v).2) := by
  have hignored := breakpointHit_of_no_arrival ha hook
  cases op with
  | breakpointHit _ =>
    cases h
    exact ⟨_, by simp only [run, Run.bind_apply, hignored]; rfl⟩
  | deliverBreakpointHit _ =>
    cases hr : v.registration <;> rw [hr] at h <;> cases h
    exact ⟨_, by
      simp only [run, Rendezvous.deliverBreakpointHit, Run.bind_apply, Run.get_apply, hr, hignored]
      rfl⟩
  | loadAgent _ | unloadAgent | deliverClassPrepared _ _ =>
    cases hr : v.registration <;> rw [hr] at h <;> cases h
  | _ => cases h

end

/-- Every hit of the recorded method enters the hook once and is numbered, and no other hit does, in a
run of any acts that nest to any depth. The arrivals noted in the journal are numbered from the first
count on in the order of entry, and the count ends at their number. A hit, direct or by way of the
process, enters just if its method is not null and is the one recorded at that moment. Then it
carries the next number, together with what the event brought. It comes out with that number by the
way in which its own hook ended, in a world that is what its hook's acts left, whether it returned
or panicked. -/
theorem marker_hits_are_numbered (machine : Machine σ) (acts : List Act) (start : World σ)
    (hbound : start.agent.hits.toNat + (arrivalsOf (momentsOf machine acts start)).length <
      UInt64.size) :
    arrivalsIn (runActs machine acts start).2.journal =
      arrivalsIn start.journal ++ arrivalsOf (momentsOf machine acts start) ∧
    (runActs machine acts start).2.agent.hits.toNat =
      start.agent.hits.toNat + (arrivalsOf (momentsOf machine acts start)).length ∧
    (∀ k arrival, (arrivalsOf (momentsOf machine acts start))[k]? = some arrival →
      arrival.sequence.toNat = start.agent.hits.toNat + k + 1 ∧
      ∃ past op inside ending v, Occurs machine acts start past (.operation op inside ending) v ∧
        op.arrival? v = some arrival ∧ (arrivalsOf past).length = k) ∧
    ∀ past op inside ending v hit, Occurs machine acts start past (.operation op inside ending) v →
      op.route v.registration = some (.own, .breakpointHit hit) →
      (hit.method ≠ .null ∧ v.agent.target.stored = hit.method →
        ∃ arrival after, arrival.toHit = hit ∧
          (arrivalsOf (momentsOf machine acts start))[(arrivalsOf past).length]? = some arrival ∧
          (Act.operation op inside ending).moments machine v =
            .entered arrival (v.entering arrival) ::
              (momentsOf machine inside (v.entering arrival) ++
                [.ended op v (op.hitAnswer (ending.dispatch arrival.sequence)) after]) ∧
          after.agent = (runActs machine inside (v.entering arrival)).2.agent ∧
          after.machine = (runActs machine inside (v.entering arrival)).2.machine ∧
          after.registration = (runActs machine inside (v.entering arrival)).2.registration) ∧
      (¬ (hit.method ≠ .null ∧ v.agent.target.stored = hit.method) →
        ∃ text, (Act.operation op inside ending).moments machine v =
          [.ended op v (op.hitAnswer .ignored) (report .trace .dispatcher text v).2]) := by
  have hlast : Point machine acts start _ _ := .last
  have hend := Numbered.kept.at_point (.nil start) hlast
  obtain ⟨hhits, hsequence⟩ := hend.toNat hbound
  refine ⟨hend.noted, hhits, ?_, ?_⟩
  · intro k arrival hk
    refine ⟨hsequence k arrival hk, ?_⟩
    -- The entry has its place among the moments, and from there the act that entered is found.
    obtain ⟨past, world, future, hm, hlen⟩ := exists_entered hk
    obtain ⟨op, inside, ending, v, ho, ha⟩ := occurs_of_entered acts start past hm
    exact ⟨past, op, inside, ending, v, ho, ha, hlen⟩
  · intro past op inside ending v hit ho hroute
    rw [← TargetSlot.holds_iff_stored]
    have harrival := Operation.arrival?_of_route hroute
    constructor
    · intro hholds
      have ha : op.arrival? v = some { hit with sequence := v.agent.hits + 1 } := by
        rw [harrival]
        exact World.arrival?_eq_some.mpr ⟨hholds, rfl⟩
      have hmoments : (Act.operation op inside ending).moments machine v = _ :=
        Act.moments_of_arrival ha inside ending
      rw [Operation.run_of_arrival ha, concludeHit_answer] at hmoments
      refine ⟨_, _, rfl, ?_, hmoments, concludeHit_leaves ..⟩
      obtain ⟨future, hrun⟩ := ho.moments
      rw [hrun, hmoments]
      simp
    · intro hother
      have hnone : v.arrival? hit = none := World.arrival?_eq_none.mpr (by simpa using hother)
      obtain ⟨text, hrun⟩ := Operation.run_of_ignored machine hroute hnone
        (Hook.doing (runActs machine inside) ending)
      exact ⟨text, by rw [Act.moments_of_no_arrival (harrival.trans hnone), hrun]⟩

section

open Simulation Host

/-- A hook that is entered again, panics inside, and has the other loader's class prepared, so that
the recorded method changes while it runs. -/
def reentrantActs : List Act :=
  [.operation (.breakpointHit ⟨.null, .null, ⟨2⟩, Marker.location⟩)
    [.operation (.breakpointHit ⟨⟨7⟩, ⟨8⟩, ⟨2⟩, 5⟩) [] .panicked,
      .operation (.classPrepared .live ⟨1⟩) [] .returned,
      .operation (.breakpointHit ⟨.null, .null, ⟨2⟩, Marker.location⟩) [] .returned,
      .operation (.deliverBreakpointHit ⟨.null, .null, ⟨1⟩, Marker.location⟩) [] .panicked]
    .returned]

theorem marker_hits_are_numbered_reentrant :
    twoLoadersEnd.agent.hits.toNat +
        (arrivalsOf (momentsOf Host.machine reentrantActs twoLoadersEnd)).length < UInt64.size ∧
      (runActs Host.machine reentrantActs twoLoadersEnd).2.agent.hits.toNat = 3 := by
  have hbound : twoLoadersEnd.agent.hits.toNat +
      (arrivalsOf (momentsOf Host.machine reentrantActs twoLoadersEnd)).length < UInt64.size := by
    decide +kernel
  have hcount : twoLoadersEnd.agent.hits.toNat +
      (arrivalsOf (momentsOf Host.machine reentrantActs twoLoadersEnd)).length = 3 := by
    decide +kernel
  have hhits := (marker_hits_are_numbered Host.machine reentrantActs twoLoadersEnd hbound).2.1
  exact ⟨hbound, hhits.trans hcount⟩

end

end Rendezvous
