import Rendezvous.Proofs.Deeds
import Rendezvous.Proofs.Hosts

/-!
# What is lent goes back

A list of calls is read as an account of buffers: what a call lends is owed from then on, and may be
given back once. Calls are settled if afterwards the same is owed as before, and nothing was given
back that was not owed. The calls of a class-prepare are settled, whatever the machine replies and
however the class-prepare ends, and no other operation deals in buffers; so a run is settled at each
of its moments.
-/

namespace Rendezvous

variable {σ : Type}

/-! ## Accounts -/

namespace Call

/-- The numbers of the buffers that a call lends. -/
def lent : Call → List Nat
  | getClassSignature _ (.ok text) => (text.map Buffer.number).toList
  | getClassMethods _ (.ok table) => (table.buffer.map Buffer.number).toList
  | getMethodName _ (.ok name) =>
    (name.name.map Buffer.number).toList ++ (name.signature.map Buffer.number).toList
  | _ => []

/-- What a call gives back. -/
def returned? : Call → Option Address
  | deallocate address _ => some address
  | _ => none

/-- Whether buffers are lent or given back. -/
def dealsInBuffers (call : Call) : Bool := call.returned?.isSome || !call.lent.isEmpty

/-- What is owed after a call. There is no answer if something is given back that is not owed. -/
def owed (owed : List Nat) : Call → Option (List Nat)
  | deallocate (.buffer number) _ => if number ∈ owed then some (owed.erase number) else none
  | deallocate _ _ => none
  | call => some (call.lent ++ owed)

/-- The buffers that are out after a call: one that a refused release was about stays out. -/
def outstanding (out : List Nat) : Call → List Nat
  | deallocate (.buffer number) (.ok _) => out.erase number
  | deallocate _ _ => out
  | call => call.lent ++ out

end Call

def owedAfter (owed : List Nat) (calls : List Call) : Option (List Nat) :=
  calls.foldlM Call.owed owed

def outstandingAfter (out : List Nat) (calls : List Call) : List Nat :=
  calls.foldl Call.outstanding out

/-- Whatever is owed before, the same is owed after. -/
def Settled (calls : List Call) : Prop := ∀ owed, owedAfter owed calls = some owed

@[simp] theorem owedAfter_nil (owed : List Nat) : owedAfter owed [] = some owed := rfl

theorem owedAfter_cons (owed : List Nat) (call : Call) (calls : List Call) :
    owedAfter owed (call :: calls) = (call.owed owed).bind (owedAfter · calls) := by
  simp only [owedAfter, List.foldlM_cons, Option.bind_eq_bind]

theorem owedAfter_append (owed : List Nat) (a b : List Call) :
    owedAfter owed (a ++ b) = (owedAfter owed a).bind (owedAfter · b) := by
  simp only [owedAfter, List.foldlM_append, Option.bind_eq_bind]

theorem Call.owed_of_lent {call : Call} (owed : List Nat) (h : call.returned? = none) :
    call.owed owed = some (call.lent ++ owed) := by
  cases call with
  | deallocate address reply => cases h
  | _ => rfl

theorem Call.dealsInBuffers_eq_false {call : Call} :
    call.dealsInBuffers = false ↔ call.returned? = none ∧ call.lent = [] := by
  simp [Call.dealsInBuffers]

/-- What was owed or is lent has been given back or is owed now. -/
theorem Call.returned_perm {call : Call} {owed owed' : List Nat} (h : call.owed owed = some owed') :
    (call.returned?.toList ++ owed'.map Address.buffer).Perm
      ((call.lent ++ owed).map Address.buffer) := by
  cases hr : call.returned? with
  | none =>
    rw [Call.owed_of_lent owed hr] at h
    cases h
    exact .refl _
  | some address =>
    cases call with
    | deallocate given reply =>
      cases given with
      | buffer number =>
        cases hr
        by_cases hmem : number ∈ owed
        · simp only [Call.owed, if_pos hmem, Option.some.injEq] at h
          subst h
          exact ((List.perm_cons_erase hmem).map Address.buffer).symm
        · simp [Call.owed, hmem] at h
      | _ => cases h
    | _ => cases hr

theorem returned_perm {calls : List Call} {owed owed' : List Nat}
    (h : owedAfter owed calls = some owed') :
    (calls.filterMap Call.returned? ++ owed'.map Address.buffer).Perm
      ((calls.flatMap Call.lent ++ owed).map Address.buffer) := by
  induction calls generalizing owed with
  | nil =>
    cases h
    exact .refl _
  | cons call rest ih =>
    rw [owedAfter_cons] at h
    obtain ⟨owed₁, hcall, hrest⟩ := Option.bind_eq_some_iff.mp h
    have hfirst := Call.returned_perm hcall
    have hothers := ih hrest
    rw [List.map_append] at hothers hfirst ⊢
    have hcons : (call :: rest).filterMap Call.returned? =
        call.returned?.toList ++ rest.filterMap Call.returned? := by
      cases hr : call.returned? <;> simp [hr]
    rw [hcons, List.flatMap_cons, List.map_append, List.append_assoc, List.append_assoc]
    refine (hothers.append_left _).trans ?_
    refine (List.perm_append_comm_assoc ..).trans ?_
    exact (hfirst.append_left _).trans (List.perm_append_comm_assoc ..)

theorem outstandingAfter_eq {calls : List Call} {owed owed' : List Nat}
    (hok : ∀ address failure, Call.deallocate address (.error failure) ∉ calls)
    (h : owedAfter owed calls = some owed') : outstandingAfter owed calls = owed' := by
  induction calls generalizing owed with
  | nil =>
    cases h
    rfl
  | cons call rest ih =>
    rw [owedAfter_cons] at h
    obtain ⟨owed₁, hcall, hrest⟩ := Option.bind_eq_some_iff.mp h
    have hout : call.outstanding owed = owed₁ := by
      cases call with
      | deallocate address reply =>
        cases reply with
        | error failure => exact absurd List.mem_cons_self (hok address failure)
        | ok _ =>
          cases address with
          | buffer number =>
            by_cases hmem : number ∈ owed
            · simp only [Call.owed, if_pos hmem, Option.some.injEq] at hcall
              exact hcall
            · simp [Call.owed, hmem] at hcall
          | _ => cases hcall
      | _ => exact Option.some.inj hcall
    have hothers := fun address failure hmem =>
      hok address failure (List.mem_cons_of_mem call hmem)
    simpa only [outstandingAfter, List.foldl_cons, hout] using ih hothers hrest

namespace Settled

variable {calls others : List Call}

theorem nil : Settled [] := fun _ => rfl

theorem append (h : Settled calls) (h' : Settled others) : Settled (calls ++ others) := by
  intro owed
  rw [owedAfter_append, h owed, Option.bind_some]
  exact h' owed

theorem flatMap {α : Type} {f : α → List Call} {items : List α}
    (h : ∀ item ∈ items, Settled (f item)) :
    Settled (items.flatMap f) := by
  induction items with
  | nil => exact nil
  | cons item rest ih =>
    rw [List.flatMap_cons]
    have hrest := ih fun other hmem => h other (List.mem_cons_of_mem item hmem)
    exact (h item List.mem_cons_self).append hrest

/-- What goes back is what was lent, each buffer as often as it was lent. -/
theorem returned_perm (h : Settled calls) :
    (calls.filterMap Call.returned?).Perm ((calls.flatMap Call.lent).map Address.buffer) := by
  simpa using Rendezvous.returned_perm (h [])

theorem of_no_dealings (h : ∀ call ∈ calls, call.dealsInBuffers = false) : Settled calls := by
  intro owed
  induction calls with
  | nil => rfl
  | cons call rest ih =>
    obtain ⟨hr, hl⟩ := Call.dealsInBuffers_eq_false.mp (h call List.mem_cons_self)
    rw [owedAfter_cons, Call.owed_of_lent owed hr, hl, List.nil_append, Option.bind_some]
    exact ih fun other hmem => h other (List.mem_cons_of_mem call hmem)

end Settled

/-! ## Class-prepares -/

theorem signatureCalls_settled (klass : ClassId) (text : LentText) (back : Reply Unit) :
    Settled (signatureCalls klass text back) := by
  intro owed
  cases text <;>
    simp [signatureCalls, givingBack, Address.ofBuffer?, owedAfter_cons, Call.owed, Call.lent]

theorem MethodRead.calls_settled (read : MethodRead) : Settled read.calls := by
  intro owed
  obtain ⟨method, result⟩ := read
  cases result with
  | failed failure => simp [calls, owedAfter_cons, Call.owed, Call.lent]
  | read lent nameBack signatureBack =>
    obtain ⟨name, signature⟩ := lent
    cases name <;> cases signature <;>
      simp [calls, givingBack, Address.ofBuffer?, owedAfter_cons, Call.owed, Call.lent]

theorem Search.settled {marker : Marker} {methods : List MethodId} {calls : List Call}
    {found : Option MethodId} (h : Search marker methods calls found) : Settled calls := by
  cases h with
  | exhausted reads _ => exact .flatMap fun read _ => read.calls_settled
  | found passed last _ _ _ =>
    exact (Settled.flatMap fun read _ => read.calls_settled).append last.calls_settled

theorem tableCalls_settled (klass : ClassId) (table : LentTable) {names : List Call}
    (h : Settled names) (back : Reply Unit) : Settled (tableCalls klass table names back) := by
  intro owed
  obtain ⟨count, buffer⟩ := table
  cases buffer with
  | none =>
    simp [tableCalls, givingBack, Address.ofBuffer?, owedAfter_cons, Call.owed, Call.lent, h owed]
  | some b =>
    have hnames := h (b.number :: owed)
    simp [tableCalls, givingBack, Address.ofBuffer?, owedAfter_cons, owedAfter_append, Call.owed,
      Call.lent, hnames]

/-- The attempted calls of a class-prepare are settled on each of its ways out. -/
theorem Visit.settled {klass : ClassId} {marker : Marker} {calls : List Call} {outcome : Outcome}
    (h : Visit klass marker calls outcome) : Settled calls := by
  have single : ∀ call : Call, call.dealsInBuffers = false → Settled [call] := by
    intro call hcall
    exact .of_no_dealings (by simpa using hcall)
  cases h with
  | signatureUnreadable failure => exact single _ rfl
  | notTarget text back _ => exact signatureCalls_settled klass text back
  | tableUnreadable text back failure _ =>
    exact (signatureCalls_settled klass text back).append (single _ rfl)
  | methodNotFound text back table names tableBack _ hs =>
    exact (signatureCalls_settled klass text back).append
      (tableCalls_settled klass table hs.settled tableBack)
  | installed text back table names tableBack method _ hs =>
    exact ((signatureCalls_settled klass text back).append
      (tableCalls_settled klass table hs.settled tableBack)).append (single _ rfl)
  | installFailed text back table names tableBack method failure _ hs =>
    exact ((signatureCalls_settled klass text back).append
      (tableCalls_settled klass table hs.settled tableBack)).append (single _ rfl)

section

variable {machine : Machine σ} {env : Env} {w w' : World σ} {calls : List Call}
  {deed? : Option Deed}

/-- The machine can take buffers back. -/
def TakesBack (machine : Machine σ) (s : σ) : Prop := machine.provides .deallocate s = true

theorem Dialogue.unmade (he : env ≠ .live) (h : Dialogue machine env w calls w') :
    Course machine w [] w' := by
  induction h with
  | silence w => exact .stay w
  | attempt ha _ ih =>
    cases ha with
    | made hl _ _ _ => exact absurd hl he
    | unmade _ => exact ih
  | record level component text _ ih => exact .record level component text ih

/-- A call that fails and is no release changes nothing of what is owed. -/
theorem Call.owed_of_failed {call : Call} {failure : Failure} (owed : List Nat)
    (hs : call.service? ≠ some .deallocate) (hf : call.failure? = some failure) :
    call.owed owed = some owed := by
  cases call with
  | deallocate _ _ => exact absurd rfl hs
  | getClassSignature _ reply | getClassMethods _ reply | getMethodName _ reply =>
    cases reply with
    | ok _ => cases hf
    | error _ => rfl
  | _ => rfl

theorem Without.owedAfter_eq {made calls : List Call}
    (h : Without (fun call => ∀ owed, call.owed owed = some owed) made calls) (owed : List Nat) :
    owedAfter owed made = owedAfter owed calls := by
  induction h generalizing owed with
  | nil => rfl
  | keep call _ ih =>
    rw [owedAfter_cons, owedAfter_cons]
    congr 1
    funext owed₁
    exact ih owed₁
  | drop hd _ ih => rw [ih, owedAfter_cons, hd, Option.bind_some]

/-- As long as the machine can take buffers back, what is not made is no release, and does not change
what is owed. -/
theorem Unmade.owed_eq {call : Call} {s : σ} (hu : Unmade machine .live call s)
    (hs : TakesBack machine s) (owed : List Nat) : call.owed owed = some owed := by
  cases hu with
  | invalid hne _ => exact absurd rfl hne
  | missing _ hservice hp hf =>
    refine Call.owed_of_failed owed (fun hd => ?_) hf
    rw [hservice, Option.some.injEq] at hd
    rw [hd, hs] at hp
    cases hp

theorem Dialogue.owed_made (hk : machine.Keeps (TakesBack machine)) (he : env = .live)
    (h : Dialogue machine env w calls w') (hw : TakesBack machine w.machine) :
    ∃ made, Course machine w made w' ∧ ∀ owed, owedAfter owed made = owedAfter owed calls := by
  subst he
  obtain ⟨made, hc, hwithout⟩ := h.made hk (fun _ _ hs hu => hu.owed_eq hs) hw
  exact ⟨made, hc, hwithout.owedAfter_eq⟩

theorem Call.dealsInBuffers_of_isSetup {call : Call} (h : call.isSetup = true) :
    call.dealsInBuffers = false := by
  cases call <;> first | rfl | cases h

theorem SetsUp.course (h : SetsUp machine w w') :
    ∃ calls, Course machine w calls w' ∧ ∀ call ∈ calls, call.dealsInBuffers = false := by
  obtain ⟨calls, hc, hs⟩ := h
  exact ⟨calls, hc, fun call hmem => Call.dealsInBuffers_of_isSetup (hs call hmem)⟩

/-- The calls that may come with a deed: they are settled, and unless a class is prepared they deal
in no buffers. -/
def SettledFor (calls : List Call) (deed? : Option Deed) : Prop :=
  Settled calls ∧
    ((∀ outcome, deed? ≠ some (.prepared outcome)) → calls.filter Call.dealsInBuffers = [])

theorem Does.settled (hk : machine.Keeps (TakesBack machine)) (hw : TakesBack machine w.machine)
    (h : Does machine w w' deed?) :
    ∃ calls, Course machine w calls { w' with agent := w.agent } ∧ SettledFor calls deed? := by
  cases h with
  | turns _ ht =>
    obtain ⟨calls, hc, hd⟩ := ht.setsUp.course
    exact ⟨calls, hc, .of_no_dealings hd, fun _ => by simpa using hd⟩
  | rests he =>
    subst he
    exact ⟨[], .stay _, .nil, fun _ => rfl⟩
  | @visits env klass settings calls outcome _ hv hd _ =>
    by_cases he : env = .live
    · obtain ⟨made, hc, ho⟩ := hd.owed_made hk he hw
      have hsettled : Settled made := fun owed => (ho owed).trans (hv.settled owed)
      exact ⟨made, hc, hsettled, fun hne => absurd rfl (hne outcome)⟩
    · exact ⟨[], hd.unmade he, .nil, fun _ => rfl⟩

end

/-! ## Runs -/

def Operation.preparesClass : Operation → Bool
  | .classPrepared _ _ | .deliverClassPrepared _ _ => true
  | _ => false

/-- The dealings in buffers of a class-prepare, from its beginning to its end. -/
def Moment.dealings : Moment σ → List Call
  | .entered _ _ => []
  | .ended op before _ after =>
    if op.preparesClass then (callsSince before after).filter Call.dealsInBuffers else []

/-- All buffers are back when a class-prepare ends. -/
def Moment.Settles : Moment σ → Prop
  | .entered _ _ => True
  | .ended op before _ after => op.preparesClass = true → Settled (callsSince before after)

/-- What is known along a run: the account up to now, which only class-prepares have moved. -/
structure Accounted (past : List (Moment σ)) (calls : List Call) : Prop where
  settled : Settled calls
  dealings : calls.filter Call.dealsInBuffers = past.flatMap Moment.dealings
  settles : ∀ m ∈ past, m.Settles

section

variable {machine : Machine σ} {start w w' : World σ}

theorem Operation.preparesClass_of_route {op direct : Operation} {registration : Registration}
    {subject : Subject} (h : op.route registration = some (subject, direct)) :
    direct.preparesClass = op.preparesClass := by
  cases op <;> cases registration <;> cases h <;> rfl

theorem Operation.preparesClass_of_directDeed {direct : Operation} {subject : Subject}
    {outcome : Outcome} (h : direct.directDeed? machine subject w = some (.prepared outcome)) :
    direct.preparesClass = true := by
  cases direct with
  | classPrepared _ _ => rfl
  | attach _ | load _ =>
    obtain ⟨_, _, he⟩ := Option.map_eq_some_iff.mp h
    cases he
  | breakpointHit hit =>
    cases subject with
    | own => cases h
    | registered =>
      obtain ⟨_, _, he⟩ := Option.map_eq_some_iff.mp h
      cases he
  | _ => cases h

theorem Operation.preparesClass_of_prepared {op : Operation} {outcome : Outcome}
    (h : (op.does? machine w).map Prod.snd = some (.prepared outcome)) :
    op.preparesClass = true := by
  obtain ⟨⟨subject, deed⟩, hdoes, rfl⟩ := Option.map_eq_some_iff.mp h
  obtain ⟨⟨_, direct⟩, hroute, hdirect⟩ := Option.bind_eq_some_iff.mp hdoes
  obtain ⟨_, hdeed, he⟩ := Option.map_eq_some_iff.mp hdirect
  cases he
  rw [← preparesClass_of_route hroute]
  exact preparesClass_of_directDeed hdeed

/-- What an operation without an entry into the hook does to the account. -/
theorem Effect.settled (hk : machine.Keeps (TakesBack machine)) (hw : TakesBack machine w.machine)
    {op : Operation} (h : Effect machine op w w') :
    ∃ calls, Since w w' calls ∧ TakesBack machine w'.machine ∧ Settled calls ∧
      (op.preparesClass = false → calls.filter Call.dealsInBuffers = []) := by
  obtain ⟨calls, hc, hs, hf⟩ := h.course (fun calls done => SettledFor calls (done.map Prod.snd))
    ⟨.nil, fun _ => rfl⟩ (by
      intro subject ended deed? hd
      have hseen : (w.seenBy subject).machine = w.machine := by cases subject <;> rfl
      obtain ⟨calls, hc, hs⟩ := hd.settled hk (by rwa [hseen])
      exact ⟨calls, hc, by simpa [Function.comp_def] using hs⟩)
  have hw' : TakesBack machine w'.machine := by simpa only using hc.keeps hk hw
  refine ⟨calls, .of_course hc rfl, hw', hs, fun hp => hf ?_⟩
  intro outcome hprepared
  rw [Operation.preparesClass_of_prepared hprepared] at hp
  cases hp

/-- What a moment adds to an account. -/
theorem Accounted.moment {past : List (Moment σ)} {calls made : List Call} {m : Moment σ}
    (h : Accounted past calls) (hs : Settled made)
    (hd : made.filter Call.dealsInBuffers = m.dealings) (hm : m.Settles) :
    Accounted (past ++ [m]) (calls ++ made) where
  settled := h.settled.append hs
  dealings := by simp [h.dealings, hd]
  settles := List.forall_mem_append.mpr ⟨h.settles, by simpa using hm⟩

theorem Accounted.kept (hk : machine.Keeps (TakesBack machine)) :
    Kept machine (Recorded machine (TakesBack machine) Accounted start) := by
  refine Recorded.kept ?_ ?_
  · intro past w w' calls op answer hw h he
    obtain ⟨made, hm, hw', hmade, hquiet⟩ := he.settled hk hw
    have hdealings : made.filter Call.dealsInBuffers =
        (Moment.ended op w answer w').dealings := by
      rw [Moment.dealings, hm.callsSince_eq]
      cases hp : op.preparesClass with
      | true => rfl
      | false => exact hquiet hp
    refine ⟨made, hm, hw', h.moment hmade hdealings ?_⟩
    intro _
    rwa [hm.callsSince_eq]
  · intro past calls m hsilent h
    have key : m.dealings = [] ∧ m.Settles := by
      cases hsilent with
      | entered arrival world => exact ⟨rfl, trivial⟩
      | @left op before arrival answer after ha =>
        have hp : op.preparesClass = false := by
          obtain ⟨hit, -, rfl | ⟨rfl, -⟩⟩ := Operation.of_arrival ha <;> rfl
        refine ⟨by simp [Moment.dealings, hp], fun hprepares => ?_⟩
        rw [hp] at hprepares
        cases hprepares
    simpa using h.moment .nil key.1.symm key.2

end

/-- Every buffer that is lent goes back exactly once, before the class-prepare that borrowed it
ends. In any run, what each class-prepare gives back are the buffers it was lent and nothing else;
all dealings in buffers are those of class-prepares, in order; and at every point nothing is owed,
nor out if no release was refused. -/
theorem lent_buffers_go_back (machine : Machine σ) (hk : machine.Keeps (TakesBack machine))
    (acts : List Act) (start : World σ) (hstart : TakesBack machine start.machine)
    {past : List (Moment σ)} {w : World σ} (hp : Point machine acts start past w) :
    (∀ op before answer after, .ended op before answer after ∈ past → op.preparesClass = true →
      Settled (callsSince before after) ∧
      ((callsSince before after).filterMap Call.returned?).Perm
        (((callsSince before after).flatMap Call.lent).map Address.buffer)) ∧
    (callsSince start w).filter Call.dealsInBuffers = past.flatMap Moment.dealings ∧
    Settled (callsSince start w) ∧
    ((∀ address failure, Call.deallocate address (.error failure) ∉ callsSince start w) →
      outstandingAfter [] (callsSince start w) = []) := by
  have hstarted : Recorded machine (TakesBack machine) Accounted start [] start :=
    .nil hstart ⟨.nil, rfl, by simp⟩
  obtain ⟨hsettled, hdealings, hpast⟩ := ((Accounted.kept hk).at_point hstarted hp).known
  refine ⟨?_, hdealings, hsettled, fun hok => outstandingAfter_eq hok (hsettled [])⟩
  intro op before answer after hmem hprepares
  have hmoment : Settled (callsSince before after) := hpast _ hmem hprepares
  exact ⟨hmoment, hmoment.returned_perm⟩

section

open Simulation Host

theorem lent_buffers_go_back_two_loaders :
    (Host.machine.Keeps (TakesBack Host.machine) ∧ TakesBack Host.machine twoLoadersStart.machine) ∧
      Settled (callsSince twoLoadersStart twoLoadersEnd) := by
  have hk : Host.machine.Keeps (TakesBack Host.machine) :=
    machine_keeps fun fixed => fixed.2.2.1.provides .deallocate = true
  have hstart : TakesBack Host.machine twoLoadersStart.machine := by rfl
  exact ⟨⟨hk, hstart⟩,
    (lent_buffers_go_back Host.machine hk twoLoadersActs twoLoadersStart hstart
      twoLoadersEnd_point).2.2.1⟩

end

end Rendezvous
