import Rendezvous.Simulation.Host
import Rendezvous.Proofs.Runs
import Rendezvous.Proofs.Vouched

/-!
# Hosts

A simulated machine has a part that no call changes: how it is reached, its classes, its services
and its faults. At the end stands a host on which the marker class is prepared by two loaders, and
the breakpoint of the second is refused.
-/

namespace Rendezvous.Simulation.Host

/-- What of a host is there from the start and never changes by a call. -/
def fixed (host : Host) : MachineRef × List HostClass × ServiceTable × FaultPlan :=
  (host.reference, host.classes, host.services, host.faults)

/-- What of a host does not change but by setting a breakpoint. -/
def steady (host : Host) : (MachineRef × List HostClass × ServiceTable × FaultPlan) ×
    List (MethodId × Int64) := (host.fixed, host.breakpoints)

variable {α : Type}

theorem count_steady (host : Host) (key : FaultKey) :
    (host.count key).2.steady = host.steady := rfl

theorem lend_steady (host : Host) (content : Option α) :
    (host.lend content).2.steady = host.steady := by
  cases content <;> rfl

/-- A part that counting leaves alone stays if answering leaves it alone. -/
theorem unlessFault_keeps {β : Type} (part : Host → β) {key : FaultKey} {null : α}
    {answer : Host → Reply α × Host} (hcount : ∀ host, part (host.count key).2 = part host)
    (h : ∀ counted, part (answer counted).2 = part counted) (host : Host) :
    part (unlessFault key null answer host).2 = part host := by
  have hc := hcount host
  unfold unlessFault
  split
  · next counted he => rwa [he] at hc
  · next counted he =>
    rw [he] at hc
    exact (h counted).trans hc

theorem unlessFault_steady {key : FaultKey} {null : α} {answer : Host → Reply α × Host}
    (h : ∀ counted, (answer counted).2.steady = counted.steady) (host : Host) :
    (unlessFault key null answer host).2.steady = host.steady :=
  unlessFault_keeps steady (count_steady · key) h host

theorem addCapabilities_steady (wanted : Capabilities) (host : Host) :
    (addCapabilities wanted host).2.steady = host.steady := unlessFault_steady (fun _ => rfl) host

theorem setEventCallbacks_steady (callbacks : Callbacks) (host : Host) :
    (setEventCallbacks callbacks host).2.steady = host.steady := unlessFault_steady (fun _ => rfl) host

theorem getClassSignature_steady (klass : ClassId) (host : Host) :
    (getClassSignature klass host).2.steady = host.steady := by
  refine unlessFault_steady (fun counted => ?_) host
  dsimp only
  split
  · rfl
  · split
    · rfl
    · exact lend_steady ..

theorem getClassMethods_steady (klass : ClassId) (host : Host) :
    (getClassMethods klass host).2.steady = host.steady := by
  refine unlessFault_steady (fun counted => ?_) host
  dsimp only
  split
  · rfl
  · split
    · rfl
    · exact lend_steady ..

theorem getMethodName_steady (method : MethodId) (host : Host) :
    (getMethodName method host).2.steady = host.steady := by
  refine unlessFault_steady (fun counted => ?_) host
  dsimp only
  split
  · rfl
  · split
    · rfl
    · exact (lend_steady ..).trans (lend_steady ..)

theorem setEventNotificationMode_steady (mode : Mode) (event : UInt32) (thread : ThreadId)
    (host : Host) : (setEventNotificationMode mode event thread host).2.steady = host.steady := by
  unfold setEventNotificationMode
  dsimp only
  split
  · rfl
  · split <;> rfl

/-- Setting a breakpoint changes no other part. -/
theorem setBreakpoint_fixed (method : MethodId) (location : Int64) (host : Host) :
    (setBreakpoint method location host).2.fixed = host.fixed := by
  refine unlessFault_keeps fixed (fun _ => rfl) (fun counted => ?_) host
  split
  · rfl
  · split <;> rfl

theorem deallocate_steady (address : Address) (host : Host) :
    (deallocate address host).2.steady = host.steady := by
  refine unlessFault_steady (fun counted => ?_) host
  split
  · rfl
  · split <;> rfl

theorem environment_steady (version : Version) (host : Host) :
    (environment version host).2.steady = host.steady := by
  unfold environment
  split
  · rfl
  · split <;> rfl

theorem answers_steady {call : Call} {host host' : Host} (h : machine.Answers call host host')
    (hset : call.setsBreakpoint = false) : host'.steady = host.steady := by
  have key : ∀ {α : Type} {answered : α × Host} (reply : α),
      answered.2.steady = host.steady → answered = (reply, host') →
      host'.steady = host.steady := by
    rintro α answered reply hf rfl
    exact hf
  cases call with
  | environment version status =>
    obtain ⟨env, he⟩ := h
    exact key (status, env) (environment_steady version host) he
  | addCapabilities wanted reply => exact key reply (addCapabilities_steady wanted host) h
  | setEventCallbacks callbacks reply => exact key reply (setEventCallbacks_steady callbacks host) h
  | setEventNotificationMode mode event thread reply =>
    exact key reply (setEventNotificationMode_steady mode event thread host) h
  | getClassSignature klass reply => exact key reply (getClassSignature_steady klass host) h
  | getClassMethods klass reply => exact key reply (getClassMethods_steady klass host) h
  | getMethodName method reply => exact key reply (getMethodName_steady method host) h
  | setBreakpoint _ _ _ => cases hset
  | deallocate address reply => exact key reply (deallocate_steady address host) h

theorem answers_fixed {call : Call} {host host' : Host} (h : machine.Answers call host host') :
    host'.fixed = host.fixed := by
  cases hset : call.setsBreakpoint with
  | false => exact congrArg Prod.fst (answers_steady h hset)
  | true =>
    cases call with
    | setBreakpoint method location reply =>
      have hf := setBreakpoint_fixed method location host
      rwa [show setBreakpoint method location host = (reply, host') from h] at hf
    | _ => cases hset

/-- Whatever can be said of the fixed part of a host is kept by every call. -/
theorem machine_keeps (P : MachineRef × List HostClass × ServiceTable × FaultPlan → Prop) :
    machine.Keeps fun host => P host.fixed := by
  intro call host host' h hp
  rwa [answers_fixed h]

/-! ## Two loaders -/

/-- A class with the marker's signature and no other method than the marker method. -/
def markerClass (klass : ClassId) (method : MethodId) : HostClass where
  id := klass
  signature := some (Text.utf8 Marker.standard.classSignature)
  methods := [⟨method, some (Text.utf8 Marker.standard.methodName),
    some (Text.utf8 Marker.methodSignature), none⟩]
  signatureError := none
  methodsError := none
  count := none
  nullTable := false
  lendsEmpty := false

def twoLoaders : Host :=
  .start [markerClass ⟨1⟩ ⟨1⟩, markerClass ⟨2⟩ ⟨2⟩] .full
    (FaultPlan.none.set (.service .setBreakpoint) (.on ⟨99⟩ [2]))

/-- A fresh agent, registered in its process, on this host. -/
def twoLoadersStart : World Host := ⟨.fresh, .itself, twoLoaders, .present, []⟩

def twoLoadersActs : List Act :=
  [.operation (.activate .live .standard) [] .returned,
    .operation (.classPrepared .live ⟨1⟩) [] .returned,
    .operation (.classPrepared .live ⟨2⟩) [] .returned]

def twoLoadersEnd : World Host := (runActs machine twoLoadersActs twoLoadersStart).2

theorem twoLoadersEnd_point : Point machine twoLoadersActs twoLoadersStart
    (momentsOf machine twoLoadersActs twoLoadersStart) twoLoadersEnd := .last

end Rendezvous.Simulation.Host
