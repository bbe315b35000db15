import Rendezvous.Proofs.Hosts
import Rendezvous.Proofs.Orderly

/-!
# Orderly hosts

A host without faults that provides all services is an orderly machine. Its catalogue has the classes
that report no errors and whose methods all have names.
-/

namespace Rendezvous.Simulation

open Text (Bytes)

/-- The methods that are read from the table of a class. -/
def HostClass.listed (klass : HostClass) : List MethodId :=
  (klass.table?.getD []).take klass.statedCount.toInt.toNat

namespace Host

/-- Whether every service is there and answers every call. -/
def Faultless (host : Host) : Prop :=
  (∀ key n, host.faults key n = none) ∧ ∀ service, host.services.provides service = true

/-- Whether a method can be asked for its name. -/
def Names (host : Host) (method : MethodId) : Prop :=
  method ≠ .null ∧ ∃ found, host.findMethod? method = some found ∧ found.error = none

/-- What a host tells of its classes. -/
def catalogue (host : Host) : Catalogue where
  known klass := ∃ found, host.findClass? klass = some found ∧ found.signatureError = none ∧
    found.methodsError = none ∧ ∀ method ∈ found.listed, host.Names method
  signature klass := (host.findClass? klass).bind fun found => found.signature.map Text.beforeZero
  methods klass := ((host.findClass? klass).map HostClass.listed).getD []
  name method :=
    ((host.findMethod? method).bind fun found => found.name.map Text.beforeZero,
      (host.findMethod? method).bind fun found => found.signature.map Text.beforeZero)
  null_not_mem := by
    rintro klass ⟨found, hfound, -, -, hnames⟩ hmem
    rw [hfound] at hmem
    exact (hnames .null hmem).1 rfl

variable {host other : Host} {α : Type}

theorem Faultless.of_fixed (h : host.Faultless) (hf : other.fixed = host.fixed) :
    other.Faultless := by
  obtain ⟨-, -, hservices, hfaults⟩ : _ ∧ _ ∧ other.services = host.services ∧
      other.faults = host.faults := by simpa [fixed] using hf
  rw [Faultless, hservices, hfaults]
  exact h

theorem catalogue_of_fixed (hf : other.fixed = host.fixed) : other.catalogue = host.catalogue := by
  obtain ⟨-, hclasses, -⟩ : _ ∧ other.classes = host.classes ∧ _ := by
    simpa only [fixed, Prod.mk.injEq] using hf
  simp only [catalogue, findClass?, findMethod?, Names, hclasses]

theorem unlessFault_eq (h : host.Faultless) (key : FaultKey) (null : α)
    (answer : Host → Reply α × Host) :
    unlessFault key null answer host = answer (host.count key).2 := by
  simp only [unlessFault, count, h.1]

theorem lend_bytes (host : Host) (content : Option Bytes) :
    LentText.bytes? (host.lend content).1 = content.map Text.beforeZero := by
  cases content <;> rfl

theorem lend_methods (host : Host) (count : Int32) (content : Option (List MethodId)) :
    (LentTable.mk count (host.lend content).1).methods =
      (content.getD []).take count.toInt.toNat := by
  cases content with
  | none => exact List.take_nil.symm
  | some methods => rfl

/-! ## Answers about known classes -/

variable {klass : ClassId} {method : MethodId}

theorem getClassSignature_known (h : host.Faultless) (hk : host.catalogue.known klass) :
    ∃ text, (getClassSignature klass host).1 = .ok text ∧
      text.bytes? = host.catalogue.signature klass := by
  obtain ⟨found, hfound, herror, -⟩ := hk
  have hcounted : (host.count (.service .getClassSignature)).2.findClass? klass = some found := hfound
  refine ⟨((host.count (.service .getClassSignature)).2.lend found.signature).1, ?_, ?_⟩
  · simp only [getClassSignature, unlessFault_eq h, hcounted, herror]
  · simp only [lend_bytes, catalogue, hfound, Option.bind_some]

theorem getClassMethods_known (h : host.Faultless) (hk : host.catalogue.known klass) :
    ∃ table, (getClassMethods klass host).1 = .ok table ∧
      table.methods = host.catalogue.methods klass := by
  obtain ⟨found, hfound, -, herror, -⟩ := hk
  have hcounted : (host.count (.service .getClassMethods)).2.findClass? klass = some found := hfound
  refine ⟨⟨found.statedCount, ((host.count (.service .getClassMethods)).2.lend found.table?).1⟩,
    ?_, ?_⟩
  · simp only [getClassMethods, unlessFault_eq h, hcounted, herror]
  · simp only [lend_methods, catalogue, hfound, Option.map_some, Option.getD_some, HostClass.listed]

theorem names_of_known (hk : host.catalogue.known klass)
    (hm : method ∈ host.catalogue.methods klass) : host.Names method := by
  obtain ⟨found, hfound, -, -, hnames⟩ := hk
  simp only [catalogue, hfound, Option.map_some, Option.getD_some] at hm
  exact hnames method hm

theorem getMethodName_known (h : host.Faultless) (hn : host.Names method) :
    ∃ lent, (getMethodName method host).1 = .ok lent ∧
      (lent.name.bytes?, lent.signature.bytes?) = host.catalogue.name method := by
  obtain ⟨-, found, hfound, herror⟩ := hn
  have hcounted : (host.count (.service .getMethodName)).2.findMethod? method = some found := hfound
  refine ⟨⟨((host.count (.service .getMethodName)).2.lend found.name).1,
    (((host.count (.service .getMethodName)).2.lend found.name).2.lend found.signature).1⟩, ?_, ?_⟩
  · simp only [getMethodName, unlessFault_eq h, hcounted, herror]
  · simp only [lend_bytes, catalogue, hfound, Option.bind_some]

theorem setBreakpoint_known (h : host.Faultless) (hn : host.Names method) (location : Int64) :
    (setBreakpoint method location host).1 =
      if (method, location) ∈ host.breakpoints then .error .duplicate else .ok () := by
  obtain ⟨-, found, hfound, -⟩ := hn
  have hcounted : (host.count (.service .setBreakpoint)).2.findMethod? method = some found := hfound
  have hbreakpoints : (host.count (.service .setBreakpoint)).2.breakpoints = host.breakpoints := rfl
  simp only [setBreakpoint, unlessFault_eq h, hcounted, hbreakpoints, List.contains_iff_mem]
  split <;> rfl

/-- A breakpoint is set just if the host says so. -/
theorem setBreakpoint_accepts (h : host.Faultless) (method : MethodId) (location : Int64) :
    (setBreakpoint method location host).2.breakpoints = host.breakpoints ++
      accepted [.setBreakpoint method location (setBreakpoint method location host).1] := by
  simp only [setBreakpoint, unlessFault_eq h]
  split
  · exact (List.append_nil host.breakpoints).symm
  · split
    · exact (List.append_nil host.breakpoints).symm
    · rfl

theorem answers_accept (h : host.Faultless) {call : Call}
    (ha : machine.Answers call host other) :
    other.breakpoints = host.breakpoints ++ accepted [call] := by
  cases hset : call.setsBreakpoint with
  | false =>
    have hreads : OnlyReads [call] := by simp [OnlyReads, hset]
    rw [accepted_of_onlyReads hreads, List.append_nil]
    exact congrArg Prod.snd (answers_steady ha hset)
  | true =>
    cases call with
    | setBreakpoint method location reply =>
      have haccepts := setBreakpoint_accepts h method location
      rwa [show setBreakpoint method location host = (reply, other) from ha] at haccepts
    | _ => cases hset

/-! ## Hosts are orderly -/

/-- A host without faults is an orderly machine, in every state that has its classes and services. -/
theorem orderly (h : host.Faultless) :
    Orderly machine host.catalogue (fun state => state.fixed = host.fixed) breakpoints where
  keeps := machine_keeps fun parts => parts = host.fixed
  provides := by
    intro state service hstate
    exact (h.of_fixed hstate).2 service
  signature := by
    intro state state' klass reply hstate hk ha
    rw [← catalogue_of_fixed hstate] at hk ⊢
    have hknown := getClassSignature_known (h.of_fixed hstate) hk
    rwa [show getClassSignature klass state = (reply, state') from ha] at hknown
  methods := by
    intro state state' klass reply hstate hk ha
    rw [← catalogue_of_fixed hstate] at hk ⊢
    have hknown := getClassMethods_known (h.of_fixed hstate) hk
    rwa [show getClassMethods klass state = (reply, state') from ha] at hknown
  name := by
    intro state state' klass method reply hstate hk hm ha
    rw [← catalogue_of_fixed hstate] at hk hm ⊢
    have hknown := getMethodName_known (h.of_fixed hstate) (names_of_known hk hm)
    rwa [show getMethodName method state = (reply, state') from ha] at hknown
  breakpoint := by
    intro state state' klass method location reply hstate hk hm ha
    rw [← catalogue_of_fixed hstate] at hk hm
    have hknown := setBreakpoint_known (h.of_fixed hstate) (names_of_known hk hm)
      location
    rwa [show setBreakpoint method location state = (reply, state') from ha] at hknown
  accepts := by
    intro state state' call hstate ha
    exact answers_accept (h.of_fixed hstate) ha

end Host

end Rendezvous.Simulation
