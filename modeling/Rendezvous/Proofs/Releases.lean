import Rendezvous.Proofs.LikeHosts

/-!
# Failed releases

Nothing depends on whether a lent buffer could be given back: a release that fails leaves a warning,
and the run goes on as if it had not failed. So two runs on machines that differ in what they do with
returned buffers take the same course, but for the releases and the warnings about them.
-/

namespace Rendezvous

variable {σ τ : Type}

/-! ## What is overlooked -/

/-- The warning about a release that failed. -/
def releaseWarning (what : String) (failure : Failure) : Log.Record :=
  ⟨.warn, .env, "failed to deallocate JVMTI " ++ what ++ ": " ++ failure.message⟩

def Log.Record.warnsOfRelease (record : Log.Record) : Bool :=
  record.level = .warn && record.component = .env &&
    "failed to deallocate JVMTI ".toList.isPrefixOf record.text.toList

theorem releaseWarning_warns (what : String) (failure : Failure) :
    (releaseWarning what failure).warnsOfRelease = true := by
  simp [Log.Record.warnsOfRelease, releaseWarning, List.append_assoc]

/-- Loggers that have been told the same, but that some records have reached only one of them. -/
inductive Log.Logger.Apart (overlooked : Log.Record → Bool) : Log.Logger → Log.Logger → Prop where
  | refl (logger : Log.Logger) : Apart overlooked logger logger
  | write {a b : Log.Logger} (record : Log.Record) : Apart overlooked a b →
      Apart overlooked (a.write record) (b.write record)
  | init {a b : Log.Logger} (filter : Option String) : Apart overlooked a b →
      Apart overlooked (a.init filter).2 (b.init filter).2
  | first {a b : Log.Logger} (record : Log.Record) : overlooked record = true →
      Apart overlooked a b → Apart overlooked (a.write record) b
  | second {a b : Log.Logger} (record : Log.Record) : overlooked record = true →
      Apart overlooked a b → Apart overlooked a (b.write record)

/-- Whether an entry is a release, or a warning about one. -/
def Entry.isRelease : Entry → Bool
  | .call (.deallocate _ _) => true
  | .log record => record.warnsOfRelease
  | _ => false

/-- Everything is compared but releases and the warnings about them. -/
def Likeness.unreleased (same : σ → τ → Prop) : Likeness σ τ where
  view := id
  machines := same
  loggers := Log.Logger.Apart Log.Record.warnsOfRelease
  counts entry := !entry.isRelease

theorem Likeness.unreleased_lawful {same : σ → τ → Prop} : (Likeness.unreleased same).Lawful :=
  ⟨fun _ _ => Log.Logger.Apart.write, fun _ _ => Log.Logger.Apart.init⟩

/-! ## Releases on one side -/

/-- A likeness for which nothing comes of releases on the first machine. -/
structure Likeness.Overlooks (l : Likeness σ τ) (m : Machine σ) : Prop where
  call : ∀ address reply, l.counts (.call (.deallocate address reply)) = false
  warning : ∀ what failure, l.counts (.log (releaseWarning what failure)) = false
  machine : ∀ address reply s s' t, l.machines s t → m.Answers (.deallocate address reply) s s' →
    l.machines s' t
  logger : ∀ what failure a b, l.loggers a b → l.loggers (a.write (releaseWarning what failure)) b

namespace Likeness.Overlooks

variable {l : Likeness σ τ} {m : Machine σ} {w : World σ} {v : World τ}

theorem deallocate (h : l.Overlooks m) (hw : Alike l w v) (env : Env) (address : Address) :
    Alike l (deallocate m env address w).2 v := by
  have hcall : ∀ address, Alike l (callService m env .deallocate (m.deallocate address)
      (.deallocate address) w).2 v := by
    intro address
    have hrecords : Records m .deallocate (m.deallocate address) (.deallocate address) := {}
    have ha := callService_attempt m env hrecords w
    generalize (callService m env .deallocate (m.deallocate address) (.deallocate address) w).2 = w'
      at ha ⊢
    cases ha with
    | made _ _ _ hans => exact hw.overlookCall (h.call ..) (h.machine _ _ _ _ _ hw.machine hans)
    | unmade _ => exact hw
  cases address with
  | null => exact hw
  | buffer number => exact hcall (.buffer number)
  | stray => exact hcall .stray

theorem release (h : l.Overlooks m) (hw : Alike l w v) (env : Env) (what : String)
    (address : Address) : Alike l (release m env what address w).2 v := by
  have hback := h.deallocate hw env address
  simp only [Rendezvous.release, Run.bind_apply]
  cases (Rendezvous.deallocate m env address w).1 with
  | ok _ => exact hback
  | error failure =>
    exact hback.overlookReport (h.warning what failure) (h.logger _ _ _ _ hback.logger)

end Likeness.Overlooks

/-! ## Runs that differ in releases -/

/-- Machines that match in all services but the one that takes back buffers, which may do anything as
long as the other services do not depend on it. -/
structure Machine.DifferInReleases (m : Machine σ) (n : Machine τ) (same : σ → τ → Prop) : Prop
    extends m.Matches n same (· ≠ .deallocate) where
  first : ∀ address reply s s' t, same s t → m.Answers (.deallocate address reply) s s' → same s' t
  second : ∀ address reply s t t', same s t → n.Answers (.deallocate address reply) t t' → same s t'

namespace Machine.DifferInReleases

variable {m : Machine σ} {n : Machine τ} {same : σ → τ → Prop}

theorem overlooks_first (h : m.DifferInReleases n same) :
    (Likeness.unreleased same).Overlooks m where
  call _ _ := rfl
  warning what failure := congrArg (!·) (releaseWarning_warns what failure)
  machine := h.first
  logger what failure _ _ := Log.Logger.Apart.first _ (releaseWarning_warns what failure)

theorem overlooks_second (h : m.DifferInReleases n same) :
    (Likeness.unreleased same).flip.Overlooks n where
  call _ _ := rfl
  warning what failure := congrArg (!·) (releaseWarning_warns what failure)
  machine address reply t t' s hst hans := h.second address reply s t t' hst hans
  logger what failure _ _ := Log.Logger.Apart.second _ (releaseWarning_warns what failure)

theorem full (h : m.DifferInReleases n same) : Parallel.Full (.unreleased same) m n where
  toLawful := Likeness.unreleased_lawful
  environment := h.toMatches.obtainEnv (l := .unreleased same)
  echoes env := by
    refine ⟨fun hne hm hn => ?_, fun what address w v hw => ⟨rfl, ?_⟩⟩
    · exact h.toMatches.callService (l := .unreleased same) hne hm hn env
    · have hfirst := h.overlooks_first.release hw env what address
      exact (h.overlooks_second.release hfirst.flip env what address).flip
  marker _ := rfl

end Machine.DifferInReleases

/-! ## Hosts -/

namespace Simulation.Host

/-- The host whose service that takes back buffers is present or not, and has this fault. -/
def releasing (host : Host) (present : Bool) (fault : Fault) : Host :=
  { host with
    services := host.services.put .deallocate present
    faults := host.faults.set (.service .deallocate) fault }

/-- Hosts that are the same but for releases and the buffers that have come back. -/
abbrev Unreleased : Host → Host → Prop := Like (· == .deallocate) False

theorem releasing_like (host : Host) (present present' : Bool) (fault fault' : Fault) :
    Unreleased (host.releasing present fault) (host.releasing present' fault') :=
  { (Like.refl host : Unreleased host host) with
    services := fun service hs => by
      have hne : service ≠ .deallocate := by simpa using hs
      simp [releasing, hne]
    faults := fun key hk => by
      have hne : key ≠ .service .deallocate := by
        rintro rfl
        cases hk
      simp [releasing, hne]
    returned := False.elim
    outstanding := False.elim }

theorem differInReleases : machine.DifferInReleases machine Unreleased where
  toMatches := by
    have h : machine.Matches machine Unreleased fun service => (service == .deallocate) = false :=
      matches_like nofun
    simpa using h
  first address reply host host' other hlike hans := by
    have hr := hlike.symm.released rfl address
    rw [show deallocate address host = (reply, host') from hans] at hr
    exact hr.symm
  second address reply host other other' hlike hans := by
    have hr := hlike.released rfl address
    rwa [show deallocate address other = (reply, other') from hans] at hr

end Simulation.Host

open Simulation

/-- Failed releases have no consequences. Take two machines that differ in nothing but what becomes of
a release, and that do not let their other answers depend on it: then two runs of the same acts, in
alike worlds, have the same moments with the same answers and the same agents, and the same journals
but for releases and the warnings about them. In particular this holds on every host, whichever
releases fail and with what codes, or if the host cannot take back anything at all. -/
theorem failed_releases_have_no_consequences :
    (∀ {σ τ : Type} {m : Machine σ} {n : Machine τ} {same : σ → τ → Prop},
      m.DifferInReleases n same → ∀ acts w v, Alike (.unreleased same) w v →
        SideBySide (.unreleased same) m n acts w v) ∧
    ∀ (w : World Host) (present present' : Bool) (fault fault' : Fault) (acts : List Act),
      SideBySide (.unreleased Host.Unreleased) Host.machine Host.machine acts
        { w with machine := w.machine.releasing present fault }
        { w with machine := w.machine.releasing present' fault' } := by
  refine ⟨fun h acts w v hw => h.full.acts acts w v hw, ?_⟩
  intro w present present' fault fault' acts
  exact Host.differInReleases.full.acts acts _ _
    ⟨rfl, rfl, w.machine.releasing_like present present' fault fault', Log.Logger.Apart.refl _, rfl⟩

section

open Host

/-- The two loaders on a host whose releases go well, and on one where none does. -/
def twoLoadersReleasing (fault : Fault) : World Host :=
  { twoLoadersStart with machine := twoLoaders.releasing true fault }

theorem failed_releases_have_no_consequences_two_loaders :
    (machine.DifferInReleases machine Unreleased ∧
      Alike (.unreleased Unreleased) (twoLoadersReleasing .never)
        (twoLoadersReleasing (.always ⟨113⟩))) ∧
    (runActs machine twoLoadersActs (twoLoadersReleasing .never)).2.agent =
      (runActs machine twoLoadersActs (twoLoadersReleasing (.always ⟨113⟩))).2.agent := by
  have halike : Alike (.unreleased Unreleased) (twoLoadersReleasing .never)
      (twoLoadersReleasing (.always ⟨113⟩)) :=
    ⟨rfl, rfl, releasing_like .., Log.Logger.Apart.refl _, rfl⟩
  have hruns := failed_releases_have_no_consequences.1 differInReleases twoLoadersActs _ _ halike
  exact ⟨⟨differInReleases, halike⟩, hruns.last.agent_eq rfl⟩

end

end Rendezvous
