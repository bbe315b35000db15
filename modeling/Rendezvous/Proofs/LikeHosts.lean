import Rendezvous.Proofs.Hosts
import Rendezvous.Proofs.Matching

/-!
# Hosts that differ in some services

Two hosts may differ in whether they have certain services, in the faults of these and in how often
they were called, and if one does not care, in the buffers that have come back. As long as only the
other services are called, they reply alike and differ in nothing else.
-/

namespace Rendezvous.Simulation

/-- The service whose calls a key counts. -/
def FaultKey.about : FaultKey → Service
  | .service called => called
  | .mode _ => .setEventNotificationMode

namespace Host

/-- Hosts that are the same but for the services aside. The buffers that have come back are compared
only on request. -/
structure Like (aside : Service → Bool) (buffers : Prop) (host other : Host) : Prop where
  reference : host.reference = other.reference
  env : host.env = other.env
  status : host.status = other.status
  classes : host.classes = other.classes
  services : ∀ service, aside service = false →
    host.services.provides service = other.services.provides service
  faults : ∀ key, aside key.about = false → host.faults key = other.faults key
  calls : ∀ key, aside key.about = false → host.calls.count key = other.calls.count key
  lent : host.lent = other.lent
  returned : buffers → host.returned = other.returned
  outstanding : buffers → host.outstanding = other.outstanding
  capabilities : host.capabilities = other.capabilities
  callbacks : host.callbacks = other.callbacks
  events : host.events = other.events
  breakpoints : host.breakpoints = other.breakpoints

section

variable {aside : Service → Bool} {buffers : Prop} {host other : Host} {α : Type}

theorem Like.refl (host : Host) : Like aside buffers host host := by
  constructor <;> intros <;> rfl

theorem Like.symm (h : Like aside buffers host other) : Like aside buffers other host where
  reference := h.reference.symm
  env := h.env.symm
  status := h.status.symm
  classes := h.classes.symm
  services service hs := (h.services service hs).symm
  faults key hk := (h.faults key hk).symm
  calls key hk := (h.calls key hk).symm
  lent := h.lent.symm
  returned hb := (h.returned hb).symm
  outstanding hb := (h.outstanding hb).symm
  capabilities := h.capabilities.symm
  callbacks := h.callbacks.symm
  events := h.events.symm
  breakpoints := h.breakpoints.symm

/-- The same is replied, and the hosts differ no more than before. -/
def Meets (aside : Service → Bool) (buffers : Prop) (first second : α × Host) : Prop :=
  first.1 = second.1 ∧ Like aside buffers first.2 second.2

theorem Like.count (h : Like aside buffers host other) (key : FaultKey)
    (hkey : aside key.about = false) : Meets aside buffers (host.count key) (other.count key) := by
  refine ⟨?_, { h with calls := fun key' hkey' => ?_ }⟩
  · rw [Host.count, Host.count, h.faults key hkey, h.calls key hkey]
  · simp only [Host.count, List.count_cons, h.calls key' hkey']

/-- Calls of a service aside are not counted against a host. -/
theorem Like.count_aside (h : Like aside buffers host other) (keys : List FaultKey)
    (hkeys : ∀ key ∈ keys, aside key.about = true) :
    Like aside buffers host { other with calls := keys ++ other.calls } := by
  refine { h with calls := fun key hkey => ?_ }
  have hnone : keys.count key = 0 := by
    refine List.count_eq_zero.mpr fun hmem => ?_
    rw [hkeys key hmem] at hkey
    cases hkey
  rw [List.count_append, hnone, Nat.zero_add, h.calls key hkey]

theorem Like.lend (h : Like aside buffers host other) (content : Option α) :
    Meets aside buffers (host.lend content) (other.lend content) := by
  cases content with
  | none => exact ⟨rfl, h⟩
  | some content =>
    simp only [Host.lend, h.lent]
    refine ⟨rfl, { h with lent := rfl, outstanding := fun hb => ?_ }⟩
    rw [h.outstanding hb]

theorem Like.unlessFault (h : Like aside buffers host other) {key : FaultKey} {null : α}
    {answer : Host → Reply α × Host} (hkey : aside key.about = false)
    (hanswer : ∀ first second, Like aside buffers first second →
      Meets aside buffers (answer first) (answer second)) :
    Meets aside buffers (unlessFault key null answer host)
      (Host.unlessFault key null answer other) := by
  have hc := h.count key hkey
  unfold Host.unlessFault
  generalize host.count key = counted at hc ⊢
  generalize other.count key = counted' at hc ⊢
  obtain ⟨fault, first⟩ := counted
  obtain ⟨fault', second⟩ := counted'
  obtain ⟨rfl, hc⟩ := hc
  cases fault with
  | some code => exact ⟨rfl, hc⟩
  | none => exact hanswer first second hc

theorem Like.findClass? (h : Like aside buffers host other) (klass : ClassId) :
    host.findClass? klass = other.findClass? klass := by
  rw [Host.findClass?, Host.findClass?, h.classes]

theorem Like.findMethod? (h : Like aside buffers host other) (method : MethodId) :
    host.findMethod? method = other.findMethod? method := by
  rw [Host.findMethod?, Host.findMethod?, h.classes]

/-! ## The services -/

theorem Like.environment (h : Like aside buffers host other) (version : Version) :
    Meets aside buffers (environment version host) (Host.environment version other) := by
  unfold Host.environment
  rw [h.status, h.env]
  split
  · exact ⟨rfl, h⟩
  · split <;> exact ⟨rfl, h⟩

theorem Like.addCapabilities (h : Like aside buffers host other)
    (hs : aside .addCapabilities = false) (wanted : Capabilities) :
    Meets aside buffers (addCapabilities wanted host) (Host.addCapabilities wanted other) := by
  refine h.unlessFault hs fun first second h => ⟨rfl, { h with capabilities := ?_ }⟩
  rw [h.capabilities]

theorem Like.setEventCallbacks (h : Like aside buffers host other)
    (hs : aside .setEventCallbacks = false) (callbacks : Callbacks) :
    Meets aside buffers (setEventCallbacks callbacks host) (Host.setEventCallbacks callbacks other) :=
  h.unlessFault hs fun _ _ h => ⟨rfl, { h with callbacks := rfl }⟩

theorem Like.setEventNotificationMode (h : Like aside buffers host other)
    (hs : aside .setEventNotificationMode = false) (mode : Mode) (event : UInt32)
    (thread : ThreadId) :
    Meets aside buffers (setEventNotificationMode mode event thread host)
      (Host.setEventNotificationMode mode event thread other) := by
  obtain ⟨hfault, hcounted⟩ := h.count (.service .setEventNotificationMode) hs
  obtain ⟨hevent, hcounted⟩ := hcounted.count (.mode event) hs
  unfold Host.setEventNotificationMode
  dsimp only
  rw [hfault, hevent]
  split
  · exact ⟨rfl, hcounted⟩
  · rw [hcounted.events]
    split
    · exact ⟨rfl, { hcounted with events := rfl }⟩
    · exact ⟨rfl, { hcounted with events := rfl }⟩

theorem Like.getClassSignature (h : Like aside buffers host other)
    (hs : aside .getClassSignature = false) (klass : ClassId) :
    Meets aside buffers (getClassSignature klass host) (Host.getClassSignature klass other) := by
  refine h.unlessFault hs fun first second h => ?_
  rw [h.findClass? klass]
  cases second.findClass? klass with
  | none => exact ⟨rfl, h⟩
  | some found =>
    dsimp only
    split
    · exact ⟨rfl, h⟩
    · obtain ⟨hbuffer, hlent⟩ := h.lend found.signature
      exact ⟨congrArg Except.ok hbuffer, hlent⟩

theorem Like.getClassMethods (h : Like aside buffers host other)
    (hs : aside .getClassMethods = false) (klass : ClassId) :
    Meets aside buffers (getClassMethods klass host) (Host.getClassMethods klass other) := by
  refine h.unlessFault hs fun first second h => ?_
  rw [h.findClass? klass]
  cases second.findClass? klass with
  | none => exact ⟨rfl, h⟩
  | some found =>
    dsimp only
    split
    · exact ⟨rfl, h⟩
    · obtain ⟨hbuffer, hlent⟩ := h.lend found.table?
      refine ⟨?_, hlent⟩
      dsimp only
      rw [hbuffer]

theorem Like.getMethodName (h : Like aside buffers host other)
    (hs : aside .getMethodName = false) (method : MethodId) :
    Meets aside buffers (getMethodName method host) (Host.getMethodName method other) := by
  refine h.unlessFault hs fun first second h => ?_
  rw [h.findMethod? method]
  cases second.findMethod? method with
  | none => exact ⟨rfl, h⟩
  | some found =>
    dsimp only
    split
    · exact ⟨rfl, h⟩
    · obtain ⟨hname, hlent⟩ := h.lend found.name
      obtain ⟨hsignature, hlent⟩ := hlent.lend found.signature
      refine ⟨?_, hlent⟩
      dsimp only
      rw [hname, hsignature]

theorem Like.setBreakpoint (h : Like aside buffers host other)
    (hs : aside .setBreakpoint = false) (method : MethodId) (location : Int64) :
    Meets aside buffers (setBreakpoint method location host)
      (Host.setBreakpoint method location other) := by
  refine h.unlessFault hs fun first second h => ?_
  rw [h.findMethod? method]
  split
  · exact ⟨rfl, h⟩
  · rw [h.breakpoints]
    split
    · exact ⟨rfl, h⟩
    · exact ⟨rfl, { h with breakpoints := rfl }⟩

/-- What a release does depends on the buffers that are outstanding. -/
theorem Like.deallocate (h : Like aside buffers host other) (hs : aside .deallocate = false)
    (hb : buffers) (address : Address) :
    Meets aside buffers (deallocate address host) (Host.deallocate address other) := by
  refine h.unlessFault hs fun first second h => ?_
  split
  · exact ⟨rfl, h⟩
  · rw [h.outstanding hb]
    split
    · exact ⟨rfl, { h with
        returned := fun _ => congrArg (· + 1) (h.returned hb)
        outstanding := fun _ => rfl }⟩
    · exact ⟨rfl, h⟩

/-- A release goes unnoticed where neither it nor the buffers that have come back are looked at. -/
theorem Like.released (h : Like aside False host other) (hs : aside .deallocate = true)
    (address : Address) : Like aside False host (Host.deallocate address other).2 := by
  have hcounted : Like aside False host (other.count (.service .deallocate)).2 :=
    h.count_aside [.service .deallocate] (by simpa [FaultKey.about] using hs)
  unfold Host.deallocate Host.unlessFault
  generalize other.count (.service .deallocate) = counted at hcounted ⊢
  obtain ⟨fault, counted⟩ := counted
  cases fault with
  | some code => exact hcounted
  | none =>
    dsimp only
    split
    · exact hcounted
    · split
      · exact { hcounted with returned := False.elim, outstanding := False.elim }
      · exact hcounted

theorem Meets.answered {first second : α × Host} (h : Meets aside buffers first second) {reply : α}
    {host' : Host} (hfirst : first = (reply, host')) :
    ∃ other', second = (reply, other') ∧ Like aside buffers host' other' := by
  obtain ⟨answer, other'⟩ := second
  subst hfirst
  obtain ⟨rfl, hlike⟩ := h
  exact ⟨other', rfl, hlike⟩

/-- Hosts that differ in some services match in the others, and in giving back only if they lend
alike. -/
theorem matches_like (h : aside .deallocate = false → buffers) :
    machine.Matches machine (Like aside buffers) fun service => aside service = false where
  reference _ _ hlike := hlike.reference
  environment version _ _ hlike := hlike.environment version
  provides service _ _ hs hlike := hlike.services service hs
  answers := by
    intro call service host host' other hservice hs hlike hans
    cases call with
    | environment _ _ => cases hservice
    | addCapabilities wanted reply =>
      cases hservice
      exact (hlike.addCapabilities hs wanted).answered hans
    | setEventCallbacks callbacks reply =>
      cases hservice
      exact (hlike.setEventCallbacks hs callbacks).answered hans
    | setEventNotificationMode mode event thread reply =>
      cases hservice
      exact (hlike.setEventNotificationMode hs mode event thread).answered hans
    | getClassSignature klass reply =>
      cases hservice
      exact (hlike.getClassSignature hs klass).answered hans
    | getClassMethods klass reply =>
      cases hservice
      exact (hlike.getClassMethods hs klass).answered hans
    | getMethodName method reply =>
      cases hservice
      exact (hlike.getMethodName hs method).answered hans
    | setBreakpoint method location reply =>
      cases hservice
      exact (hlike.setBreakpoint hs method location).answered hans
    | deallocate address reply =>
      cases hservice
      exact (hlike.deallocate hs (h hs) address).answered hans

end

end Host

end Rendezvous.Simulation
