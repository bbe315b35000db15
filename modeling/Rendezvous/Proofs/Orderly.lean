import Rendezvous.Proofs.Armed

/-!
# Orderly machines

An orderly machine answers whatever it is asked about the classes that it knows, and always the same.
A breakpoint in one of their methods is set the first time and refused as a duplicate from then on.
What a class-prepare comes to on such a machine is determined by the catalogue of its classes and by
the breakpoints that are set already.
-/

namespace Rendezvous

open Text (Bytes utf8)

variable {σ : Type}

def Failure.duplicate : Failure := ⟨.duplicate, by decide⟩

/-- The classes that a machine knows: the signature of each and its methods in order, and what is read
as the name and signature of each method. -/
structure Catalogue where
  known : ClassId → Prop
  signature : ClassId → Option Bytes
  methods : ClassId → List MethodId
  name : MethodId → Option Bytes × Option Bytes
  null_not_mem : ∀ klass, known klass → .null ∉ methods klass

namespace Catalogue

variable (c : Catalogue) (marker : Marker) (klass : ClassId)

def isMarker (method : MethodId) : Bool :=
  c.name method = (some (utf8 marker.methodName), some (utf8 Marker.methodSignature))

/-- The first method with the marker's name and signature, in a class with the marker's class
signature. -/
def marker? : Option MethodId :=
  if c.signature klass = some (utf8 marker.classSignature) then
    (c.methods klass).find? (c.isMarker marker)
  else none

/-- What preparing a class comes to when there are breakpoints in these methods already. -/
def outcome (armed : List MethodId) : Outcome :=
  if c.signature klass = some (utf8 marker.classSignature) then
    match (c.methods klass).find? (c.isMarker marker) with
    | none => .methodNotFound
    | some method => if method ∈ armed then .installFailed method .duplicate else .installed method
  else .notTarget

variable {c marker klass}

theorem outcome_of_marker {armed : List MethodId} {method : MethodId}
    (h : c.marker? marker klass = some method) :
    c.outcome marker klass armed =
      if method ∈ armed then .installFailed method .duplicate else .installed method := by
  unfold marker? at h
  split at h
  · next hs => simp only [outcome, hs, h, if_true]
  · cases h

theorem outcome_of_no_marker (armed : List MethodId) (h : c.marker? marker klass = none) :
    (c.outcome marker klass armed).attempted? = none ∧
      (c.outcome marker klass armed).installed? = none := by
  unfold marker? at h
  unfold outcome
  split at h
  · next hs =>
    rw [if_pos hs, h]
    exact ⟨rfl, rfl⟩
  · next hs =>
    rw [if_neg hs]
    exact ⟨rfl, rfl⟩

theorem marker_ne_null {method : MethodId} (hk : c.known klass)
    (h : c.marker? marker klass = some method) : method ≠ .null := by
  unfold marker? at h
  split at h
  · rintro rfl
    exact c.null_not_mem klass hk (List.mem_of_find?_eq_some h)
  · cases h

end Catalogue

/-- In each sound state the machine provides all services, tells of known classes what stands in the
catalogue, and sets breakpoints in their methods unless they are set already. Calls leave the state
sound, and the breakpoints that are set are those that the machine has accepted. -/
structure Orderly (machine : Machine σ) (c : Catalogue) (sound : σ → Prop)
    (breakpoints : σ → List (MethodId × Int64)) : Prop where
  keeps : machine.Keeps sound
  provides : ∀ s service, sound s → machine.provides service s = true
  signature : ∀ s s' klass reply, sound s → c.known klass →
    machine.Answers (.getClassSignature klass reply) s s' →
    ∃ text, reply = .ok text ∧ text.bytes? = c.signature klass
  methods : ∀ s s' klass reply, sound s → c.known klass →
    machine.Answers (.getClassMethods klass reply) s s' →
    ∃ table, reply = .ok table ∧ table.methods = c.methods klass
  name : ∀ s s' klass method reply, sound s → c.known klass → method ∈ c.methods klass →
    machine.Answers (.getMethodName method reply) s s' →
    ∃ lent, reply = .ok lent ∧ (lent.name.bytes?, lent.signature.bytes?) = c.name method
  breakpoint : ∀ s s' klass method location reply, sound s → c.known klass →
    method ∈ c.methods klass → machine.Answers (.setBreakpoint method location reply) s s' →
    reply = if (method, location) ∈ breakpoints s then .error .duplicate else .ok ()
  accepts : ∀ s s' call, sound s → machine.Answers call s s' →
    breakpoints s' = breakpoints s ++ accepted [call]

namespace Orderly

variable {machine : Machine σ} {c : Catalogue} {sound : σ → Prop}
  {breakpoints : σ → List (MethodId × Int64)} {w w' : World σ} {calls names : List Call}
  {klass : ClassId} {marker : Marker}

/-- An orderly machine is reached by all that is attempted. -/
theorem course (h : Orderly machine c sound breakpoints) (hs : sound w.machine)
    (hd : Dialogue machine .live w calls w') : Course machine w calls w' := by
  have reached : ∀ call s, sound s → Unmade machine .live call s → False := by
    intro call s hs hu
    obtain ⟨service, hp⟩ := hu.lacks
    rw [h.provides s service hs] at hp
    cases hp
  obtain ⟨made, hc, hwithout⟩ := hd.made h.keeps reached hs
  rwa [hwithout.eq fun _ => id] at hc

theorem breakpoints_eq (h : Orderly machine c sound breakpoints) (hs : sound w.machine)
    (hc : Course machine w calls w') :
    breakpoints w'.machine = breakpoints w.machine ++ accepted calls := by
  induction hc with
  | stay => simp
  | @call w _ call s calls ha _ ih =>
    have hcall := h.accepts w.machine s call hs ha
    rw [ih (h.keeps _ _ _ ha hs), World.called, hcall, List.append_assoc, ← accepted_append]
    rfl
  | record _ _ _ _ ih => exact ih hs
  | logger _ _ ih => exact ih hs

theorem answered (h : Orderly machine c sound breakpoints) (hs : sound w.machine)
    (hc : Course machine w calls w') {call : Call} (hmem : call ∈ calls) :
    ∃ s s', sound s ∧ machine.Answers call s s' := by
  obtain ⟨before, after, hsplit⟩ := List.append_of_mem hmem
  obtain ⟨w₁, s, hbefore, ha⟩ := hc.split hsplit
  exact ⟨w₁.machine, s, hbefore.keeps h.keeps hs, ha⟩

/-! ## Looking at a known class -/

/-- What is read of a method tells whether it is the marker method. -/
theorem isMarker_iff (h : Orderly machine c sound breakpoints) (hk : c.known klass)
    {read : MethodRead} (hm : read.method ∈ c.methods klass)
    (hc : ∀ call ∈ read.calls, ∃ s s', sound s ∧ machine.Answers call s s') :
    read.IsMarker marker ↔ c.isMarker marker read.method = true := by
  obtain ⟨method, result⟩ := read
  cases result with
  | failed failure =>
    -- No failure is replied where the class and its method are known.
    obtain ⟨s, s', hs, ha⟩ := hc (.getMethodName method (.error failure)) (by simp [MethodRead.calls])
    obtain ⟨_, hreply, -⟩ := h.name s s' klass method _ hs hk hm ha
    cases hreply
  | read lent nameBack signatureBack =>
    obtain ⟨s, s', hs, ha⟩ := hc (.getMethodName method (.ok lent)) (by simp [MethodRead.calls])
    obtain ⟨_, hreply, hname⟩ := h.name s s' klass method _ hs hk hm ha
    cases hreply
    simp [MethodRead.IsMarker, Catalogue.isMarker, ← hname]

theorem search_eq (h : Orderly machine c sound breakpoints) (hk : c.known klass)
    {methods : List MethodId} {found : Option MethodId} (hsearch : Search marker methods names found)
    (hm : ∀ method ∈ methods, method ∈ c.methods klass)
    (hc : ∀ call ∈ names, ∃ s s', sound s ∧ machine.Answers call s s') :
    found = methods.find? (c.isMarker marker) := by
  cases hsearch with
  | exhausted reads hnot =>
    symm
    rw [List.find?_eq_none]
    intro method hmem hmarker
    obtain ⟨read, hread, rfl⟩ := List.mem_map.mp hmem
    have hcalls : ∀ call ∈ read.calls, ∃ s s', sound s ∧ machine.Answers call s s' :=
      fun call hcall => hc call (List.mem_flatMap.mpr ⟨read, hread, hcall⟩)
    exact hnot read hread ((h.isMarker_iff hk (hm _ hmem) hcalls).mpr hmarker)
  | found passed last rest hnot hlast =>
    symm
    rw [List.find?_eq_some_iff_append]
    refine ⟨?_, passed.map MethodRead.method, rest, rfl, ?_⟩
    · refine (h.isMarker_iff hk (hm _ (by simp)) fun call hcall => hc call ?_).mp hlast
      exact List.mem_append_right _ hcall
    · intro method hmem
      obtain ⟨read, hread, rfl⟩ := List.mem_map.mp hmem
      have hcalls : ∀ call ∈ read.calls, ∃ s s', sound s ∧ machine.Answers call s s' :=
        fun call hcall => hc call
          (List.mem_append_left _ (List.mem_flatMap.mpr ⟨read, hread, hcall⟩))
      have hread := hnot read hread
      rw [h.isMarker_iff hk (hm _ (List.mem_append_left _ hmem)) hcalls] at hread
      simpa using hread

theorem signature_answered (h : Orderly machine c sound breakpoints) (hk : c.known klass)
    (hs : sound w.machine) (hc : Course machine w calls w') (reply : Reply LentText)
    (hmem : .getClassSignature klass reply ∈ calls) :
    ∃ text, reply = .ok text ∧ text.bytes? = c.signature klass := by
  obtain ⟨s, s', hsound, ha⟩ := h.answered hs hc hmem
  exact h.signature s s' klass reply hsound hk ha

theorem methods_answered (h : Orderly machine c sound breakpoints) (hk : c.known klass)
    (hs : sound w.machine) (hc : Course machine w calls w') (reply : Reply LentTable)
    (hmem : .getClassMethods klass reply ∈ calls) :
    ∃ table, reply = .ok table ∧ table.methods = c.methods klass := by
  obtain ⟨s, s', hsound, ha⟩ := h.answered hs hc hmem
  exact h.methods s s' klass reply hsound hk ha

/-- A class whose methods have been searched has the marker's class signature, and the search has found
its marker method. -/
theorem searched (h : Orderly machine c sound breakpoints) (hk : c.known klass)
    (hs : sound w.machine) {text : LentText} {table : LentTable} {back tableBack : Reply Unit}
    {found : Option MethodId} {more : List Call}
    (ht : text.bytes? = some (utf8 marker.classSignature))
    (hsearch : Search marker table.methods names found)
    (hc : Course machine w
      (signatureCalls klass text back ++ tableCalls klass table names tableBack ++ more) w') :
    c.signature klass = some (utf8 marker.classSignature) ∧
      (c.methods klass).find? (c.isMarker marker) = found := by
  obtain ⟨_, he, hsignature⟩ :=
    h.signature_answered hk hs hc (.ok text) (by simp [signatureCalls])
  cases he
  obtain ⟨_, he, hmethods⟩ :=
    h.methods_answered hk hs hc (.ok table) (by simp [tableCalls])
  cases he
  rw [hmethods] at hsearch
  refine ⟨hsignature.symm.trans ht, (h.search_eq hk hsearch (fun _ => id) fun call hcall => ?_).symm⟩
  exact h.answered hs hc (by simp [tableCalls, hcall])

/-- A breakpoint is refused just if it has been set before the calls that only read. -/
theorem reply_eq (h : Orderly machine c sound breakpoints) (hk : c.known klass)
    (hs : sound w.machine) {asked : List Call} {method : MethodId} {location : Int64}
    {reply : Reply Unit} (hm : method ∈ c.methods klass) (hasked : OnlyReads asked)
    (hc : Course machine w (asked ++ [.setBreakpoint method location reply]) w') :
    reply = if (method, location) ∈ breakpoints w.machine then .error .duplicate else .ok () := by
  obtain ⟨w₁, s, hbefore, ha⟩ := hc.split rfl
  have hset : breakpoints w₁.machine = breakpoints w.machine := by
    rw [h.breakpoints_eq hs hbefore, accepted_of_onlyReads hasked, List.append_nil]
  rw [h.breakpoint _ _ klass method location reply (hbefore.keeps h.keeps hs) hk hm ha, hset]

/-- What an attempt comes to is the outcome that the catalogue tells. -/
theorem attempt_eq (h : Orderly machine c sound breakpoints) (hk : c.known klass)
    (hs : sound w.machine) {armed : List MethodId}
    (harmed : ∀ method, method ∈ armed ↔ (method, Marker.location) ∈ breakpoints w.machine)
    {text : LentText} {table : LentTable} {back tableBack reply : Reply Unit} {method : MethodId}
    (ht : text.bytes? = some (utf8 marker.classSignature))
    (hsearch : Search marker table.methods names (some method))
    (hc : Course machine w (signatureCalls klass text back ++ tableCalls klass table names tableBack ++
      [.setBreakpoint method Marker.location reply]) w') :
    .ofReply method reply = c.outcome marker klass armed := by
  obtain ⟨hsignature, hfind⟩ := h.searched hk hs ht hsearch hc
  have hreply := h.reply_eq hk hs (List.mem_of_find?_eq_some hfind)
    ((signatureCalls_onlyReads klass text back).append
      (tableCalls_onlyReads klass table hsearch.onlyReads tableBack)) hc
  have hmarker : c.marker? marker klass = some method := by
    rw [Catalogue.marker?, if_pos hsignature, hfind]
  rw [Catalogue.outcome_of_marker hmarker, hreply]
  by_cases hm : method ∈ armed
  · rw [if_pos hm, if_pos ((harmed method).mp hm)]
    rfl
  · rw [if_neg hm, if_neg fun hset => hm ((harmed method).mpr hset)]
    rfl

/-- What a visit to a known class comes to is the outcome that the catalogue tells. -/
theorem visit_eq (h : Orderly machine c sound breakpoints) (hk : c.known klass)
    (hs : sound w.machine) {armed : List MethodId}
    (harmed : ∀ method, method ∈ armed ↔ (method, Marker.location) ∈ breakpoints w.machine)
    {outcome : Outcome} (hv : Visit klass marker calls outcome) (hc : Course machine w calls w') :
    outcome = c.outcome marker klass armed := by
  cases hv with
  | signatureUnreadable failure =>
    obtain ⟨_, he, -⟩ := h.signature_answered hk hs hc (.error failure) (by simp)
    cases he
  | notTarget text back hne =>
    obtain ⟨_, he, hsignature⟩ :=
      h.signature_answered hk hs hc (.ok text) (by simp [signatureCalls])
    cases he
    rw [hsignature] at hne
    rw [Catalogue.outcome, if_neg hne]
  | tableUnreadable text back failure _ =>
    obtain ⟨_, he, -⟩ := h.methods_answered hk hs hc (.error failure) (by simp)
    cases he
  | methodNotFound text back table names tableBack ht hsearch =>
    -- Nothing is asked after the table has gone back.
    rw [← List.append_nil (_ ++ _)] at hc
    obtain ⟨hsignature, hfind⟩ := h.searched hk hs ht hsearch hc
    rw [Catalogue.outcome, if_pos hsignature, hfind]
  | installed text back table names tableBack method ht hsearch =>
    exact h.attempt_eq hk hs harmed ht hsearch hc
  | installFailed text back table names tableBack method failure ht hsearch =>
    exact h.attempt_eq hk hs harmed ht hsearch hc

/-- Preparing a known class comes to the outcome that the catalogue tells, and adds its breakpoint to
those that are set if it installs one. -/
theorem classPrepared_eq (h : Orderly machine c sound breakpoints) (hk : c.known klass)
    {settings : Settings} (hset : w.agent.settings = some settings) (hs : sound w.machine)
    {armed : List MethodId}
    (harmed : ∀ method, method ∈ armed ↔ (method, Marker.location) ∈ breakpoints w.machine) :
    (classPrepared machine .live klass w).1 = c.outcome settings.marker klass armed ∧
    sound (classPrepared machine .live klass w).2.machine ∧
    breakpoints (classPrepared machine .live klass w).2.machine = breakpoints w.machine ++
      ((c.outcome settings.marker klass armed).installed?.map
        fun method => (method, Marker.location)).toList ∧
    (classPrepared machine .live klass w).2.agent =
      w.agent.prepared (c.outcome settings.marker klass armed) ∧
    (classPrepared machine .live klass w).2.registration = w.registration := by
  rcases classPrepared_visit machine .live klass w with ⟨hnone, -⟩ | ⟨_, calls, hsome, hv, hd, ha⟩
  · rw [hset] at hnone
    cases hnone
  · cases hset.symm.trans hsome
    have hc := h.course hs hd
    have houtcome := h.visit_eq hk hs harmed hv hc
    have hsound := hc.keeps h.keeps hs
    have hbreakpoints := h.breakpoints_eq hs hc
    rw [hv.accepted] at hbreakpoints
    rw [houtcome] at ha hbreakpoints
    exact ⟨houtcome, hsound, hbreakpoints, ha, hd.agent_eq.2⟩

end Orderly

end Rendezvous
