import Rendezvous.Proofs.Buffers

/-!
# Tidy hosts

A host that takes back buffers, and on which no fault strikes that, keeps an account of what is out:
what it lends is out from then on, and what is given back is out no more.
-/

namespace Rendezvous.Simulation.Host

variable {host host' : Host} {α : Type}

/-- The buffers of these numbers are new, and out from now on. -/
structure Lends (numbers : List Nat) (host host' : Host) : Prop where
  outstanding : host'.outstanding = host.outstanding ++ numbers
  nodup : numbers.Nodup
  new : ∀ number ∈ numbers, host.lent < number ∧ number ≤ host'.lent
  lent : host.lent ≤ host'.lent

theorem Lends.nothing (ho : host'.outstanding = host.outstanding) (hl : host'.lent = host.lent) :
    Lends [] host host' where
  outstanding := by rw [ho, List.append_nil]
  nodup := .nil
  new := by simp
  lent := Nat.le_of_eq hl.symm

theorem Lends.trans {first second : List Nat} {between : Host} (h : Lends first host between)
    (h' : Lends second between host') : Lends (first ++ second) host host' where
  outstanding := by rw [h'.outstanding, h.outstanding, List.append_assoc]
  nodup := by
    refine List.nodup_append.mpr ⟨h.nodup, h'.nodup, ?_⟩
    intro a ha b hb
    have hle := (h.new a ha).2
    have hlt := (h'.new b hb).1
    omega
  new := by
    intro number hmem
    have hle := h.lent
    have hle' := h'.lent
    rcases List.mem_append.mp hmem with hfirst | hsecond
    · have hnew := h.new number hfirst
      omega
    · have hnew := h'.new number hsecond
      omega
  lent := Nat.le_trans h.lent h'.lent

theorem lend_lends (host : Host) (content : Option α) :
    Lends ((host.lend content).1.map Buffer.number).toList host (host.lend content).2 := by
  cases content with
  | none => exact .nothing rfl rfl
  | some content =>
    exact ⟨rfl, by simp [lend], by simp [lend], Nat.le_succ _⟩

/-- What a service lends is lent, unless a fault strikes the call. -/
theorem unlessFault_lends {key : FaultKey} {null : α} {answer : Host → Reply α × Host}
    (numbers : Reply α → List Nat) (hnull : ∀ code, numbers (.ofCode code null) = [])
    (h : ∀ counted, Lends (numbers (answer counted).1) counted (answer counted).2) (host : Host) :
    Lends (numbers (unlessFault key null answer host).1) host
      (unlessFault key null answer host).2 := by
  have hcounted : Lends [] host { host with calls := key :: host.calls } := .nothing rfl rfl
  unfold unlessFault count
  cases host.faults key (host.calls.count key + 1) with
  | some code =>
    dsimp only
    rw [hnull]
    exact .nothing rfl rfl
  | none => exact hcounted.trans (h _)

/-- A code that stands for null outputs lends nothing. -/
theorem lent_ofCode (code : ErrorCode) (klass : ClassId) (method : MethodId) :
    (Call.getClassSignature klass (.ofCode code none)).lent = [] ∧
      (Call.getClassMethods klass (.ofCode code .null)).lent = [] ∧
      (Call.getMethodName method (.ofCode code .null)).lent = [] := by
  unfold Reply.ofCode
  split
  · exact ⟨rfl, rfl, rfl⟩
  · exact ⟨rfl, rfl, rfl⟩

theorem getClassSignature_lends (klass : ClassId) (host : Host) :
    Lends (Call.getClassSignature klass (getClassSignature klass host).1).lent host
      (getClassSignature klass host).2 := by
  refine unlessFault_lends (fun reply => (Call.getClassSignature klass reply).lent)
    (fun code => (lent_ofCode code klass .null).1) (fun counted => ?_) host
  cases counted.findClass? klass with
  | none => exact (lent_ofCode .invalidClass klass .null).1 ▸ .nothing rfl rfl
  | some found =>
    dsimp only
    cases found.signatureError with
    | some code => exact (lent_ofCode code klass .null).1 ▸ .nothing rfl rfl
    | none => exact lend_lends counted found.signature

theorem getClassMethods_lends (klass : ClassId) (host : Host) :
    Lends (Call.getClassMethods klass (getClassMethods klass host).1).lent host
      (getClassMethods klass host).2 := by
  refine unlessFault_lends (fun reply => (Call.getClassMethods klass reply).lent)
    (fun code => (lent_ofCode code klass .null).2.1) (fun counted => ?_) host
  cases counted.findClass? klass with
  | none => exact (lent_ofCode .invalidClass klass .null).2.1 ▸ .nothing rfl rfl
  | some found =>
    dsimp only
    cases found.methodsError with
    | some code => exact (lent_ofCode code klass .null).2.1 ▸ .nothing rfl rfl
    | none => exact lend_lends counted found.table?

theorem getMethodName_lends (method : MethodId) (host : Host) :
    Lends (Call.getMethodName method (getMethodName method host).1).lent host
      (getMethodName method host).2 := by
  refine unlessFault_lends (fun reply => (Call.getMethodName method reply).lent)
    (fun code => (lent_ofCode code .null method).2.2) (fun counted => ?_) host
  cases counted.findMethod? method with
  | none => exact (lent_ofCode .invalidMethod .null method).2.2 ▸ .nothing rfl rfl
  | some found =>
    dsimp only
    cases found.error with
    | some code => exact (lent_ofCode code .null method).2.2 ▸ .nothing rfl rfl
    | none =>
      exact (lend_lends counted found.name).trans
        (lend_lends (counted.lend found.name).2 found.signature)

/-- A call that is no release only lends. -/
theorem answers_lend {call : Call} (ha : machine.Answers call host host')
    (hr : call.returned? = none) : Lends call.lent host host' := by
  have silent : ∀ {key : FaultKey} {answer : Host → Reply Unit × Host} {reply : Reply Unit},
      (∀ counted, Lends [] counted (answer counted).2) →
      unlessFault key () answer host = (reply, host') → Lends [] host host' := by
    intro key answer reply h heq
    have hlends : Lends [] host (unlessFault key () answer host).2 :=
      unlessFault_lends (fun _ => []) (fun _ => rfl) h host
    rwa [heq] at hlends
  cases call with
  | environment version status =>
    obtain ⟨env, he⟩ := ha
    have hsame : (environment version host).2 = host := by
      unfold environment
      split
      · rfl
      · split <;> rfl
    rw [show environment version host = ((status, env), host') from he] at hsame
    exact .nothing (congrArg Host.outstanding hsame) (congrArg Host.lent hsame)
  | addCapabilities wanted reply => exact silent (fun _ => .nothing rfl rfl) ha
  | setEventCallbacks callbacks reply => exact silent (fun _ => .nothing rfl rfl) ha
  | setEventNotificationMode mode event thread reply =>
    have h : Lends [] host (setEventNotificationMode mode event thread host).2 := by
      unfold setEventNotificationMode
      dsimp only
      split
      · exact .nothing rfl rfl
      · split <;> exact .nothing rfl rfl
    rwa [show setEventNotificationMode mode event thread host = (reply, host') from ha] at h
  | getClassSignature klass reply =>
    have h := getClassSignature_lends klass host
    rwa [show getClassSignature klass host = (reply, host') from ha] at h
  | getClassMethods klass reply =>
    have h := getClassMethods_lends klass host
    rwa [show getClassMethods klass host = (reply, host') from ha] at h
  | getMethodName method reply =>
    have h := getMethodName_lends method host
    rwa [show getMethodName method host = (reply, host') from ha] at h
  | setBreakpoint method location reply =>
    refine silent (fun counted => ?_) ha
    split
    · exact .nothing rfl rfl
    · split <;> exact .nothing rfl rfl
  | deallocate _ _ => cases hr

/-- A host that takes back every buffer that is out. -/
structure Tidy (host : Host) : Prop where
  provides : host.services.provides .deallocate = true
  faultless : ∀ n, host.faults (.service .deallocate) n = none
  nodup : host.outstanding.Nodup
  lent : ∀ number ∈ host.outstanding, number ≤ host.lent

theorem Tidy.of_lends {numbers : List Nat} (h : host.Tidy) (hf : host'.fixed = host.fixed)
    (hl : Lends numbers host host') : host'.Tidy := by
  obtain ⟨-, -, hservices, hfaults⟩ : _ ∧ _ ∧ host'.services = host.services ∧
      host'.faults = host.faults := by simpa [fixed] using hf
  refine ⟨hservices ▸ h.provides, hfaults ▸ h.faultless, ?_, ?_⟩
  · rw [hl.outstanding]
    refine List.nodup_append.mpr ⟨h.nodup, hl.nodup, ?_⟩
    intro a ha b hb
    have hle := h.lent a ha
    have hlt := (hl.new b hb).1
    omega
  · rw [hl.outstanding]
    intro number hmem
    rcases List.mem_append.mp hmem with hold | hnew
    · exact Nat.le_trans (h.lent number hold) hl.lent
    · exact (hl.new number hnew).2

theorem Tidy.erase (h : host.Tidy) (number : Nat)
    (hs : host'.services = host.services) (hf : host'.faults = host.faults)
    (hl : host'.lent = host.lent) (ho : host'.outstanding = host.outstanding.erase number) :
    host'.Tidy where
  provides := hs ▸ h.provides
  faultless := hf ▸ h.faultless
  nodup := ho ▸ h.nodup.erase number
  lent other hmem := hl ▸ h.lent other (List.mem_of_mem_erase (ho ▸ hmem))

/-- A buffer that is given back is out no more. -/
theorem Tidy.deallocate (h : host.Tidy) (address : Address) :
    (deallocate address host).2.Tidy ∧ ∀ number, address = .buffer number →
      (deallocate address host).2.outstanding = host.outstanding.erase number := by
  have hcounted : ∀ answer : Host → Reply Unit × Host,
      unlessFault (.service .deallocate) () answer host =
        answer { host with calls := .service .deallocate :: host.calls } := by
    intro answer
    simp only [unlessFault, count, h.faultless]
  rw [Host.deallocate, hcounted]
  cases address with
  | null => exact ⟨⟨h.provides, h.faultless, h.nodup, h.lent⟩, nofun⟩
  | stray => exact ⟨⟨h.provides, h.faultless, h.nodup, h.lent⟩, nofun⟩
  | buffer number =>
    dsimp only [Address.number?]
    suffices ∀ answered : Host, answered.services = host.services →
        answered.faults = host.faults → answered.lent = host.lent →
        answered.outstanding = host.outstanding.erase number →
        answered.Tidy ∧ ∀ other, Address.buffer number = .buffer other →
          answered.outstanding = host.outstanding.erase other by
      split
      · exact this _ rfl rfl rfl (h.nodup.erase_eq_filter number).symm
      · next hnot =>
        have hout : number ∉ host.outstanding := by simpa using hnot
        exact this _ rfl rfl rfl (List.erase_of_not_mem hout).symm
    intro answered hs hf hl ho
    refine ⟨h.erase number hs hf hl ho, ?_⟩
    rintro other heq
    cases heq
    exact ho

/-- On a tidy host those buffers are out that are owed. -/
theorem Tidy.answers {call : Call} (h : host.Tidy) (ha : machine.Answers call host host') :
    host'.Tidy ∧ ∀ owed, call.owed host.outstanding = some owed → host'.outstanding.Perm owed := by
  cases hr : call.returned? with
  | none =>
    have hlends := answers_lend ha hr
    refine ⟨h.of_lends (answers_fixed ha) hlends, fun owed howed => ?_⟩
    rw [Call.owed_of_lent _ hr, Option.some.injEq] at howed
    rw [hlends.outstanding, ← howed]
    exact List.perm_append_comm
  | some address =>
    cases call with
    | deallocate given reply =>
      obtain ⟨hkept, hout⟩ := h.deallocate given
      rw [show Host.deallocate given host = (reply, host') from ha] at hkept hout
      refine ⟨hkept, fun owed howed => ?_⟩
      cases given with
      | buffer number =>
        by_cases hmem : number ∈ host.outstanding
        · simp only [Call.owed, if_pos hmem, Option.some.injEq] at howed
          rw [hout number rfl, howed]
        · simp [Call.owed, hmem] at howed
      | _ => cases howed
    | _ => cases hr

end Rendezvous.Simulation.Host
