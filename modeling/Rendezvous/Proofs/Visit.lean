import Rendezvous.Watch
import Rendezvous.Proofs.Dialogue

/-!
# What looking at a prepared class comes to

The specification of a class-prepare says which calls are attempted, in which order and with which
replies, together with the outcome they lead to. It is stated by lists: the methods whose names are
read are those up to the first marker method, and all of them if there is none. Looking at a class
follows the specification for every machine, environment, class, marker and target slot.
-/

namespace Rendezvous

open Text (utf8)

variable {σ : Type} (machine : Machine σ) (env : Env)

/-- What came of asking for the name of a method: a failure, or a name and a signature, with the
replies to giving them back. -/
inductive NameRead where
  | failed (failure : Failure)
  | read (lent : LentName) (nameBack signatureBack : Reply Unit)

structure MethodRead where
  method : MethodId
  result : NameRead

namespace MethodRead

/-- The name goes back before the signature, and both before anything else is asked. -/
def calls (read : MethodRead) : List Call :=
  match read.result with
  | .failed failure => [.getMethodName read.method (.error failure)]
  | .read lent nameBack signatureBack =>
    .getMethodName read.method (.ok lent) ::
      (givingBack (.ofBuffer? lent.name) nameBack ++
        givingBack (.ofBuffer? lent.signature) signatureBack)

/-- Whether the bytes that were read are those of the marker method. -/
def IsMarker (marker : Marker) (read : MethodRead) : Prop :=
  match read.result with
  | .failed _ => False
  | .read lent _ _ => lent.name.bytes? = some (utf8 marker.methodName) ∧
      lent.signature.bytes? = some (utf8 Marker.methodSignature)

end MethodRead

/-- The search for the marker method in a list of methods: what is read, and what is found. -/
inductive Search (marker : Marker) : List MethodId → List Call → Option MethodId → Prop where
  | exhausted (reads : List MethodRead) : (∀ read ∈ reads, ¬ read.IsMarker marker) →
      Search marker (reads.map MethodRead.method) (reads.flatMap MethodRead.calls) none
  | found (passed : List MethodRead) (last : MethodRead) (rest : List MethodId) :
      (∀ read ∈ passed, ¬ read.IsMarker marker) → last.IsMarker marker →
      Search marker (passed.map MethodRead.method ++ last.method :: rest)
        (passed.flatMap MethodRead.calls ++ last.calls) (some last.method)

/-- The signature is given back before anything else is asked. -/
def signatureCalls (klass : ClassId) (text : LentText) (back : Reply Unit) : List Call :=
  .getClassSignature klass (.ok text) :: givingBack (.ofBuffer? text) back

/-- The table is given back after all names have been read. -/
def tableCalls (klass : ClassId) (table : LentTable) (names : List Call) (back : Reply Unit) :
    List Call :=
  .getClassMethods klass (.ok table) :: (names ++ givingBack (.ofBuffer? table.buffer) back)

/-- All that may come of looking at a prepared class, by the replies to what is asked. -/
inductive Visit (klass : ClassId) (marker : Marker) : List Call → Outcome → Prop where
  | signatureUnreadable (failure : Failure) :
      Visit klass marker [.getClassSignature klass (.error failure)] (.unreadable failure)
  | notTarget (text : LentText) (back : Reply Unit) :
      text.bytes? ≠ some (utf8 marker.classSignature) →
      Visit klass marker (signatureCalls klass text back) .notTarget
  | tableUnreadable (text : LentText) (back : Reply Unit) (failure : Failure) :
      text.bytes? = some (utf8 marker.classSignature) →
      Visit klass marker
        (signatureCalls klass text back ++ [.getClassMethods klass (.error failure)])
        (.unreadable failure)
  | methodNotFound (text : LentText) (back : Reply Unit) (table : LentTable) (names : List Call)
      (tableBack : Reply Unit) :
      text.bytes? = some (utf8 marker.classSignature) →
      Search marker table.methods names none →
      Visit klass marker
        (signatureCalls klass text back ++ tableCalls klass table names tableBack)
        .methodNotFound
  | installed (text : LentText) (back : Reply Unit) (table : LentTable) (names : List Call)
      (tableBack : Reply Unit) (method : MethodId) :
      text.bytes? = some (utf8 marker.classSignature) →
      Search marker table.methods names (some method) →
      Visit klass marker
        (signatureCalls klass text back ++ tableCalls klass table names tableBack ++
          [.setBreakpoint method Marker.location (.ok ())])
        (.installed method)
  | installFailed (text : LentText) (back : Reply Unit) (table : LentTable) (names : List Call)
      (tableBack : Reply Unit) (method : MethodId) (failure : Failure) :
      text.bytes? = some (utf8 marker.classSignature) →
      Search marker table.methods names (some method) →
      Visit klass marker
        (signatureCalls klass text back ++ tableCalls klass table names tableBack ++
          [.setBreakpoint method Marker.location (.error failure)])
        (.installFailed method failure)

/-- The method in which a breakpoint was attempted. -/
def Outcome.attempted? : Outcome → Option MethodId
  | .installed method => some method
  | .installFailed method _ => some method
  | _ => none

/-- The slot after an outcome: an attempt leaves its method there, refused or not. -/
def TargetSlot.after (slot : TargetSlot) (outcome : Outcome) : TargetSlot :=
  match outcome.attempted? with
  | some method => slot.record method
  | none => slot

/-! ## Looking at a class follows the specification -/

theorem isTargetClass_dialogue (klass : ClassId) (marker : Marker) (w : World σ) :
    (∃ failure, (isTargetClass machine env klass marker w).1 = .error failure ∧
      Dialogue machine env w [.getClassSignature klass (.error failure)]
        (isTargetClass machine env klass marker w).2) ∨
    ∃ text back, (isTargetClass machine env klass marker w).1 = .ok (text.is marker.classSignature) ∧
      Dialogue machine env w (signatureCalls klass text back)
        (isTargetClass machine env klass marker w).2 := by
  have ha := getClassSignature_attempt machine env klass w
  simp only [isTargetClass, Run.bind_apply]
  cases hr : (getClassSignature machine env klass w).1 with
  | error failure =>
    rw [hr] at ha
    exact .inl ⟨failure, rfl, .single ha⟩
  | ok text =>
    rw [hr] at ha
    obtain ⟨back, hb⟩ := release_dialogue machine env "string"
      (.ofBuffer? text) (getClassSignature machine env klass w).2
    exact .inr ⟨text, back, rfl, .attempt ha hb⟩

theorem isMarkerMethod_dialogue (marker : Marker) (method : MethodId) (w : World σ) :
    ∃ result, Dialogue machine env w (MethodRead.mk method result).calls
        (isMarkerMethod machine env marker method w).2 ∧
      ((isMarkerMethod machine env marker method w).1 = true ↔
        (MethodRead.mk method result).IsMarker marker) := by
  have ha := getMethodName_attempt machine env method w
  simp only [isMarkerMethod, Run.bind_apply]
  cases hr : (getMethodName machine env method w).1 with
  | error failure =>
    rw [hr] at ha
    exact ⟨.failed failure, .attempt ha (.report ..), by simp [MethodRead.IsMarker]⟩
  | ok lent =>
    rw [hr] at ha
    let w₁ := (getMethodName machine env method w).2
    obtain ⟨nameBack, hn⟩ := release_dialogue machine env "string"
      (.ofBuffer? lent.name) w₁
    obtain ⟨signatureBack, hs⟩ := release_dialogue machine env "string"
      (.ofBuffer? lent.signature) (releaseText machine env lent.name w₁).2
    refine ⟨.read lent nameBack signatureBack, .attempt ha (hn.trans hs), ?_⟩
    simp [MethodRead.IsMarker, LentName.is, LentText.is_iff]

/-- A method that is not the marker method is passed over. -/
theorem Search.pass {marker : Marker} {methods : List MethodId} {calls : List Call}
    {found : Option MethodId} (read : MethodRead) (hr : ¬ read.IsMarker marker)
    (h : Search marker methods calls found) :
    Search marker (read.method :: methods) (read.calls ++ calls) found := by
  cases h with
  | exhausted reads hreads => exact .exhausted (read :: reads) (by simpa using ⟨hr, hreads⟩)
  | found passed last rest hpassed hlast =>
    rw [← List.append_assoc]
    exact .found (read :: passed) last rest (by simpa using ⟨hr, hpassed⟩) hlast

theorem firstMarkerMethod_search (marker : Marker) (methods : List MethodId) (w : World σ) :
    ∃ calls, Search marker methods calls (firstMarkerMethod machine env marker methods w).1 ∧
      Dialogue machine env w calls (firstMarkerMethod machine env marker methods w).2 := by
  induction methods generalizing w with
  | nil => exact ⟨[], .exhausted [] (by simp), .silence w⟩
  | cons method rest ih =>
    obtain ⟨result, hd, hm⟩ :=
      isMarkerMethod_dialogue machine env marker method w
    simp only [firstMarkerMethod, Run.bind_apply]
    cases hb : (isMarkerMethod machine env marker method w).1 with
    | true =>
      exact ⟨_, .found [] ⟨method, result⟩ rest (by simp) (hm.mp hb), hd⟩
    | false =>
      obtain ⟨calls, hs, hrest⟩ := ih (isMarkerMethod machine env marker method w).2
      have hr : ¬ (MethodRead.mk method result).IsMarker marker := by rw [← hm]; simp [hb]
      exact ⟨_, .pass _ hr hs, hd.trans hrest⟩

theorem findMethod_dialogue (klass : ClassId) (marker : Marker) (w : World σ) :
    (∃ failure, (findMethod machine env klass marker w).1 = .error failure ∧
      Dialogue machine env w [.getClassMethods klass (.error failure)]
        (findMethod machine env klass marker w).2) ∨
    ∃ table names back found, (findMethod machine env klass marker w).1 = .ok found ∧
      Search marker table.methods names found ∧
      Dialogue machine env w (tableCalls klass table names back)
        (findMethod machine env klass marker w).2 := by
  have ha := getClassMethods_attempt machine env klass w
  simp only [findMethod, Run.bind_apply]
  cases hr : (getClassMethods machine env klass w).1 with
  | error failure =>
    rw [hr] at ha
    exact .inl ⟨failure, rfl, .single ha⟩
  | ok table =>
    rw [hr] at ha
    obtain ⟨names, hs, hd⟩ := firstMarkerMethod_search machine env marker
      table.methods (getClassMethods machine env klass w).2
    obtain ⟨back, hb⟩ := release_dialogue machine env "array"
      (.ofBuffer? table.buffer) (firstMarkerMethod machine env marker table.methods
        (getClassMethods machine env klass w).2).2
    exact .inr ⟨table, names, back, _, rfl, hs, .attempt ha (hd.trans hb)⟩

/-- The world in which a method has been recorded. -/
def World.recording (w : World σ) (method : MethodId) : World σ :=
  { w with agent := { w.agent with target := w.agent.target.record method } }

theorem arm_dialogue (method : MethodId) (location : Int64) (w : World σ) :
    Dialogue machine env (w.recording method)
      [.setBreakpoint method location (arm machine env method location w).1]
      (arm machine env method location w).2 :=
  .single (setBreakpoint_attempt machine env method location (w.recording method))

/-- How the calls of a visit go along with the target slot: a method is recorded just before the
breakpoint in it is attempted, and nothing else of the agent changes. -/
inductive Looked (w : World σ) : List Call → Outcome → World σ → Prop where
  | unarmed {calls : List Call} {outcome : Outcome} {w' : World σ} :
      Dialogue machine env w calls w' → outcome.attempted? = none → Looked w calls outcome w'
  | armed {calls : List Call} {outcome : Outcome} {w₁ w' : World σ} {method : MethodId}
      {reply : Reply Unit} :
      Dialogue machine env w calls w₁ →
      Dialogue machine env (w₁.recording method) [.setBreakpoint method Marker.location reply] w' →
      outcome.attempted? = some method →
      Looked w (calls ++ [.setBreakpoint method Marker.location reply]) outcome w'

section

variable {machine env} {w w₁ w' : World σ} {calls others : List Call} {outcome : Outcome}

theorem Looked.after (h' : Looked machine env w₁ others outcome w')
    (h : Dialogue machine env w calls w₁) : Looked machine env w (calls ++ others) outcome w' := by
  cases h' with
  | unarmed hd ho => exact .unarmed (h.trans hd) ho
  | armed hd hset ho =>
    rw [← List.append_assoc]
    exact .armed (h.trans hd) hset ho

/-- Only the agent notices that a method is recorded in the middle. -/
theorem Looked.dialogue (h : Looked machine env w calls outcome w') :
    Dialogue machine env w calls { w' with agent := w.agent } := by
  cases h with
  | unarmed hd _ =>
    rw [← hd.agent_eq.1]
    exact hd
  | armed hd hset _ =>
    rw [← hd.agent_eq.1]
    exact hd.trans (hset.withAgent _)

theorem Looked.agent_eq (h : Looked machine env w calls outcome w') :
    w'.agent = { w.agent with target := w.agent.target.after outcome } := by
  cases h with
  | unarmed hd ho => simp only [TargetSlot.after, ho, hd.agent_eq.1]
  | armed hd hset ho =>
    simp only [TargetSlot.after, ho, hset.agent_eq.1, World.recording, hd.agent_eq.1]

end

theorem armMarker_looked (marker : Marker) (method : MethodId) (w : World σ) :
    (armMarker machine env marker method w).1 = .installed method ∧
      Looked machine env w [.setBreakpoint method Marker.location (.ok ())] (.installed method)
        (armMarker machine env marker method w).2 ∨
    ∃ failure, (armMarker machine env marker method w).1 = .installFailed method failure ∧
      Looked machine env w [.setBreakpoint method Marker.location (.error failure)]
        (.installFailed method failure) (armMarker machine env marker method w).2 := by
  simp only [armMarker, Run.bind_apply]
  have hfound : Dialogue machine env w [] _ := .report .info .watcher ("found " ++ marker.method) w
  generalize (report .info .watcher ("found " ++ marker.method) w).2 = w₁ at hfound ⊢
  have harm := arm_dialogue machine env method Marker.location w₁
  cases hr : (arm machine env method Marker.location w₁).1 with
  | ok _ =>
    rw [hr] at harm
    exact .inl ⟨rfl, .armed hfound (harm.reported ..) rfl⟩
  | error failure =>
    rw [hr] at harm
    exact .inr ⟨failure, rfl, .armed hfound (harm.reported ..) rfl⟩

/-- Once the signature has been found to be the marker's, the methods decide. -/
theorem watchMarkerClass_visit {klass : ClassId} {marker : Marker} {text : LentText}
    {back : Reply Unit} {w w₁ : World σ}
    (ht : text.bytes? = some (utf8 marker.classSignature))
    (h : Dialogue machine env w (signatureCalls klass text back) w₁) :
    ∃ calls, Visit klass marker calls (watchMarkerClass machine env klass marker w₁).1 ∧
      Looked machine env w calls (watchMarkerClass machine env klass marker w₁).1
        (watchMarkerClass machine env klass marker w₁).2 := by
  simp only [watchMarkerClass, Run.bind_apply]
  have hprepared := h.reported .info .watcher ("class " ++ marker.classSignature ++ " prepared")
  generalize (report .info .watcher ("class " ++ marker.classSignature ++ " prepared") w₁).2 = w₂
    at hprepared ⊢
  rcases findMethod_dialogue machine env klass marker w₂ with
    ⟨failure, hr, hd⟩ | ⟨table, names, tableBack, found, hr, hs, hd⟩
  · simp only [hr]
    exact ⟨_, .tableUnreadable text back failure ht, .unarmed ((hprepared.trans hd).reported ..) rfl⟩
  · have hsearched := hprepared.trans hd
    cases found with
    | none =>
      simp only [hr]
      exact ⟨_, .methodNotFound text back table names tableBack ht hs,
        .unarmed (hsearched.reported ..) rfl⟩
    | some method =>
      simp only [hr]
      rcases armMarker_looked machine env marker method
        (findMethod machine env klass marker w₂).2 with ⟨ho, hl⟩ | ⟨failure, ho, hl⟩
      · rw [ho]
        exact ⟨_, .installed text back table names tableBack method ht hs, hl.after hsearched⟩
      · rw [ho]
        exact ⟨_, .installFailed text back table names tableBack method failure ht hs,
          hl.after hsearched⟩

/-- Looking at a prepared class follows the specification of a class-prepare. -/
theorem watchClass_visit (klass : ClassId) (marker : Marker) (w : World σ) :
    ∃ calls, Visit klass marker calls (watchClass machine env klass marker w).1 ∧
      Looked machine env w calls (watchClass machine env klass marker w).1
        (watchClass machine env klass marker w).2 := by
  simp only [watchClass, Run.bind_apply]
  rcases isTargetClass_dialogue machine env klass marker w with
    ⟨failure, hr, hd⟩ | ⟨text, back, hr, hd⟩
  · simp only [hr]
    exact ⟨_, .signatureUnreadable failure, .unarmed (hd.reported ..) rfl⟩
  · cases hm : text.is marker.classSignature with
    | false =>
      have ht : text.bytes? ≠ some (utf8 marker.classSignature) := by
        rw [Ne, ← LentText.is_iff, hm]
        exact Bool.false_ne_true
      simp only [hr, hm]
      exact ⟨_, .notTarget text back ht, .unarmed hd rfl⟩
    | true =>
      simp only [hr, hm]
      exact watchMarkerClass_visit machine env (LentText.is_iff.mp hm) hd

/-- Looking at a prepared class refines its specification: the outcome, the attempted calls with
their replies, and the target slot are those of one visit, and the journal gets the calls that reach
the machine, which are all of them if the table is full. -/
theorem watchClass_refines (klass : ClassId) (marker : Marker) (w : World σ) :
    ∃ calls entries, Visit klass marker calls (watchClass machine env klass marker w).1 ∧
      Looked machine env w calls (watchClass machine env klass marker w).1
        (watchClass machine env klass marker w).2 ∧
      (watchClass machine env klass marker w).2.agent =
        { w.agent with
          target := w.agent.target.after (watchClass machine env klass marker w).1 } ∧
      (watchClass machine env klass marker w).2.journal = w.journal ++ entries ∧
      (callsOf entries).Sublist calls ∧
      (env = .live → (∀ service s, machine.provides service s = true) →
        callsOf entries = calls) := by
  obtain ⟨calls, hv, hl⟩ := watchClass_visit machine env klass marker w
  obtain ⟨made, hc, hsub, hall⟩ := hl.dialogue.course
  obtain ⟨entries, hj, rfl⟩ := hc.journal
  exact ⟨calls, entries, hv, hl, hl.agent_eq, hj, hsub, hall⟩

end Rendezvous
