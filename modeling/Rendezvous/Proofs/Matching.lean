import Rendezvous.Proofs.Parallel

/-!
# Machines that match

Two machines match in a service if, from states that count as the same, they answer a call of it
alike and go over to states that count as the same. Calls of such a service agree. Where the machines
do not match, one of them may have nothing to show for a call: the service is missing, or fails to
no effect, and the entries of its calls do not count.
-/

namespace Rendezvous

variable {σ τ : Type}

structure Machine.Matches (m : Machine σ) (n : Machine τ) (same : σ → τ → Prop)
    (among : Service → Prop) : Prop where
  reference : ∀ s t, same s t → m.reference s = n.reference t
  environment : ∀ version s t, same s t →
    (m.environment version s).1 = (n.environment version t).1 ∧
      same (m.environment version s).2 (n.environment version t).2
  provides : ∀ service s t, among service → same s t → m.provides service s = n.provides service t
  answers : ∀ call service s s' t, call.service? = some service → among service → same s t →
    m.Answers call s s' → ∃ t', n.Answers call t t' ∧ same s' t'

/-- The machine provides the service, and every call of it fails in this way, to no effect. -/
structure Machine.Refuses (n : Machine τ) (same : σ → τ → Prop) (service : Service)
    (failure : Failure) : Prop where
  provides : ∀ s t, same s t → n.provides service t = true
  answers : ∀ call s t t', call.service? = some service → same s t → n.Answers call t t' →
    call.failure? = some failure ∧ same s t'

theorem Machine.Matches.refl (machine : Machine σ) (among : Service → Prop) :
    machine.Matches machine Eq among where
  reference := by rintro s _ rfl; rfl
  environment := by rintro version s _ rfl; exact ⟨rfl, rfl⟩
  provides := by rintro service s _ - rfl; rfl
  answers := by rintro call service s s' _ - - rfl h; exact ⟨s', h, rfl⟩

/-! ## One side at a time -/

/-- The likeness as it is seen from the other side. -/
def Likeness.flip (l : Likeness σ τ) : Likeness τ σ :=
  ⟨l.view, fun t s => l.machines s t, fun b a => l.loggers a b, l.counts⟩

section

variable {l : Likeness σ τ} {m : Machine σ} {n : Machine τ} {w : World σ} {v : World τ}

namespace Alike

theorem flip (h : Alike l w v) : Alike l.flip v w :=
  ⟨h.agent.symm, h.registration.symm, h.machine, h.logger, h.journal.symm⟩

theorem called (h : Alike l w v) (call : Call) {s : σ} {t : τ} (hs : l.machines s t) :
    Alike l (w.called call s) (v.called call t) :=
  { h.note (.call call) with machine := hs }

/-- A call that does not count, and after which the machines are still alike, is overlooked. -/
theorem overlookCall (h : Alike l w v) {call : Call} {s : σ} (hcounts : l.counts (.call call) = false)
    (hs : l.machines s v.machine) : Alike l (w.called call s) v := by
  refine { h with machine := hs, journal := ?_ }
  have hnone : [Entry.call call].filter l.counts = [] := by simp [hcounts]
  rw [World.called, List.filter_append, hnone, List.append_nil, h.journal]

/-- A record that does not count, and after which the loggers are still alike, is overlooked. -/
theorem overlookReport (h : Alike l w v) {level : Log.Level} {component : Log.Component}
    {text : String} (hcounts : l.counts (.log ⟨level, component, text⟩) = false)
    (hlogger : l.loggers (w.logger.write ⟨level, component, text⟩) v.logger) :
    Alike l (Rendezvous.report level component text w).2 v := by
  refine { h with logger := hlogger, journal := ?_ }
  have hnone : [Entry.log ⟨level, component, text⟩].filter l.counts = [] := by simp [hcounts]
  simp only [Rendezvous.report, Run.modify_apply, List.filter_append, hnone, List.append_nil,
    h.journal]

theorem overlookInit (h : Alike l w v) {filter : Option String}
    (hlogger : l.loggers (w.logger.init filter).2 v.logger) :
    Alike l (initLogger filter w).2 v := { h with logger := hlogger }

end Alike

/-! ## Calls that agree -/

theorem callService_live {α : Type} (machine : Machine σ) (service : Service)
    (ask : σ → Reply α × σ) (entry : Reply α → Call) (w : World σ) :
    callService machine .live service ask entry w =
      if machine.provides service w.machine then
        ((ask w.machine).1, w.called (entry (ask w.machine).1) (ask w.machine).2)
      else (.error .notAvailable, w) := rfl

theorem callService_invalid {α : Type} {env : Env} (henv : env ≠ .live) (machine : Machine σ)
    (service : Service) (ask : σ → Reply α × σ) (entry : Reply α → Call) (w : World σ) :
    callService machine env service ask entry w = (.error .invalidEnvironment, w) := by
  cases env with
  | null => rfl
  | noTable => rfl
  | live => exact absurd rfl henv

theorem Reply.eq_of_failure {α : Type} {reply : Reply α} {failure : Failure}
    (h : reply.failure? = some failure) : reply = .error failure := by
  cases reply with
  | ok _ => cases h
  | error _ => exact congrArg Except.error (Option.some.inj h)

section

variable {α : Type} {service : Service} {ask : σ → Reply α × σ} {ask' : τ → Reply α × τ}
  {entry : Reply α → Call}

theorem Machine.Matches.callService {among : Service → Prop} (h : m.Matches n l.machines among)
    (hamong : among service) (hm : Speaks m service ask entry) (hn : Speaks n service ask' entry)
    (env : Env) :
    Run.Agree l (callService m env service ask entry)
      (Rendezvous.callService n env service ask' entry) := by
  intro w v hw
  by_cases henv : env = .live
  · subst henv
    rw [callService_live, callService_live, h.provides service _ _ hamong hw.machine]
    obtain ⟨t, ht, hsame⟩ := h.answers _ service _ _ v.machine (hm.service? _) hamong hw.machine
      (hm.answers w.machine)
    rw [hn.only _ _ _ ht]
    split
    · exact ⟨rfl, hw.called _ hsame⟩
    · exact ⟨rfl, hw⟩
  · rw [callService_invalid henv, callService_invalid henv]
    exact ⟨rfl, hw⟩

/-- A service that is refused is as good as one that fails without being called. -/
theorem Machine.Refuses.callService {failure : Failure} (h : n.Refuses l.machines service failure)
    (hcounts : ∀ call, call.service? = some service → l.counts (.call call) = false)
    (hn : Speaks n service ask' entry) {first : Run σ (Reply α)}
    (hfirst : ∀ w v, Alike l w v → first w = (.error failure, w)) :
    Run.Agree l first (Rendezvous.callService n .live service ask' entry) := by
  intro w v hw
  have hans := hn.answers v.machine
  obtain ⟨hfails, hsame⟩ := h.answers _ _ _ _ (hn.service? _) hw.machine hans
  rw [hn.failure?] at hfails
  rw [hfirst w v hw, callService_live, if_pos (h.provides _ _ hw.machine)]
  refine ⟨(Reply.eq_of_failure hfails).symm, ?_⟩
  exact (hw.flip.overlookCall (hcounts _ (hn.service? _)) hsame).flip

end

/-! ## Everything else that is asked of machines -/

theorem Machine.Matches.obtainEnv {among : Service → Prop} (h : m.Matches n l.machines among)
    (version : Version) : Run.Agree l (obtainEnv m version) (Rendezvous.obtainEnv n version) := by
  intro w v hw
  unfold Rendezvous.obtainEnv
  rw [h.reference _ _ hw.machine]
  cases n.reference v.machine with
  | live =>
    obtain ⟨hanswer, hsame⟩ := h.environment version _ _ hw.machine
    have hcalled : Alike l (w.called _ _) (v.called _ _) :=
      hw.called (.environment version (n.environment version v.machine).1.1) hsame
    dsimp only
    rw [hanswer]
    split
    · split
      · exact ⟨rfl, hcalled⟩
      · exact ⟨rfl, hcalled⟩
    · exact ⟨rfl, hcalled⟩
  | _ => exact ⟨rfl, hw⟩

/-- A release does nothing but give back and warn. -/
theorem Run.Agree.release {env env' : Env} (hl : l.Lawful) {address : Address}
    (h : Run.Agree l (deallocate m env address) (deallocate n env' address)) (what : String) :
    Run.Agree l (release m env what address) (Rendezvous.release n env' what address) := by
  refine .bind h fun reply => ?_
  cases reply with
  | ok _ => exact .pure _
  | error failure => exact .report hl _ _ _

/-- Asked alike through two environments, every service of two machines agrees. -/
structure CallsAgree (l : Likeness σ τ) (m : Machine σ) (env : Env) (n : Machine τ) (env' : Env) :
    Prop where
  calls : ∀ {α : Type} {service : Service} {ask : σ → Reply α × σ} {ask' : τ → Reply α × τ}
    {entry : Reply α → Call}, Speaks m service ask entry → Speaks n service ask' entry →
    Run.Agree l (callService m env service ask entry) (callService n env' service ask' entry)

namespace CallsAgree

variable {env env' : Env}

theorem deallocate (h : CallsAgree l m env n env') (address : Address) :
    Run.Agree l (deallocate m env address) (Rendezvous.deallocate n env' address) := by
  cases address with
  | null => exact .pure _
  | buffer number => exact h.calls {} {}
  | stray => exact h.calls {} {}

theorem echoes (h : CallsAgree l m env n env') (hl : l.Lawful) : Echoes l m env n env' where
  calls _ hm hn := h.calls hm hn
  release what address := .release hl (h.deallocate address) what

/-- Through an environment that does not work, all calls fail alike. -/
theorem of_invalid (henv : env ≠ .live) : CallsAgree l m env n env := by
  refine ⟨fun _ _ w v hw => ?_⟩
  rw [callService_invalid henv, callService_invalid henv]
  exact ⟨rfl, hw⟩

end CallsAgree

theorem Machine.Matches.callsAgree (h : m.Matches n l.machines fun _ => True) (env : Env) :
    CallsAgree l m env n env := ⟨fun hm hn => h.callService trivial hm hn env⟩

/-- Machines that match in every service are parallel. -/
theorem Machine.Matches.parallel (h : m.Matches n l.machines fun _ => True) (hl : l.Lawful) :
    Parallel l m n where
  toLawful := hl
  environment := h.obtainEnv
  echoes env := (h.callsAgree env).echoes hl

end

end Rendezvous
