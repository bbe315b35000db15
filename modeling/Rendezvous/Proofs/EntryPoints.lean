import Rendezvous.Proofs.Deeds
import Rendezvous.Proofs.Hosts

/-!
# The process and its one agent

A machine reaches the agent through the process only: it loads and unloads it there, and delivers
events. Until the first load these calls find no agent and do nothing. The first load makes the one
agent of the process, and whatever becomes of that load, all calls that follow are calls of this agent,
but for further loads, which are refused.
-/

namespace Rendezvous

variable {σ : Type}

/-- What a machine can ask of the process. -/
inductive EntryCall where
  | load (options : Option Text.Bytes)
  | unload
  | classPrepared (env : Env) (klass : ClassId)
  | breakpointHit (hit : Hit)
  deriving DecidableEq, Repr

namespace EntryCall

def isLoad : EntryCall → Bool
  | load _ => true
  | _ => false

/-- The operation by way of the process. -/
def operation : EntryCall → Operation
  | load options => .loadAgent options
  | unload => .unloadAgent
  | classPrepared env klass => .deliverClassPrepared env klass
  | breakpointHit hit => .deliverBreakpointHit hit

/-- What is done to the one agent instead. -/
def onAgent (machine : Machine σ) : EntryCall → Run σ Answer
  | load _ => pure (.status (-1))
  | unload => do
    Rendezvous.unload
    pure .nothing
  | classPrepared env klass => do
    let _ ← Rendezvous.classPrepared machine env klass
    pure .nothing
  | breakpointHit hit => do
    let _ ← Rendezvous.breakpointHit Hook.logging hit
    pure .nothing

end EntryCall

namespace World

/-- The world of an agent that is alone in its process. -/
def alone (w : World σ) (agent : Agent) : World σ := { w with agent, registration := .itself }

/-- The world in which the agent is the one of the process, around an agent that is not. -/
def around (w : World σ) (own : Agent) : World σ :=
  { w with agent := own, registration := .another w.agent }

theorem alone_around {w : World σ} (h : w.registration = .itself) (own : Agent) :
    (w.around own).alone w.agent = w := by
  obtain ⟨agent, registration, machine, logger, journal⟩ := w
  cases h
  rfl

end World

/-! ## One call -/

section

variable {w : World σ}

/-- Without an agent in the process nothing happens, unless one is loaded. -/
theorem EntryCall.run_vacant (h : w.registration = .vacant) {call : EntryCall}
    (hload : call.isLoad = false) (machine : Machine σ) (hook : Hook σ) :
    call.operation.run machine hook w = (.nothing, w) := by
  cases call with
  | load options => cases hload
  | unload =>
    simp only [operation, Operation.run, unloadAgent, Run.bind_apply, Run.get_apply, h,
      Run.pure_apply]
  | classPrepared env klass =>
    simp only [operation, Operation.run, deliverClassPrepared, Run.bind_apply, Run.get_apply, h,
      Run.pure_apply]
  | breakpointHit hit =>
    simp only [operation, Operation.run, deliverBreakpointHit, Run.bind_apply, Run.get_apply, h,
      Run.pure_apply]

/-- The first load is that of a fresh agent, which the process then has. -/
theorem EntryCall.run_first (h : w.registration = .vacant) (options : Option Text.Bytes)
    (machine : Machine σ) (hook : Hook σ) :
    (load options).operation.run machine hook w =
      (.status (Rendezvous.load machine (optionsText options) (w.alone .fresh)).1,
        (Rendezvous.load machine (optionsText options) (w.alone .fresh)).2.around w.agent) := by
  simp only [operation, Operation.run, loadAgent, Run.bind_apply, Run.get_apply, h, Run.pure_apply]
  rfl

/-- What is done to the agent of the process is done to it as if it were alone. -/
theorem onAnother_around {α : Type} (run : Run σ α) (own : Agent) (h : w.registration = .itself) :
    onAnother w.agent run (w.around own) = ((run w).1, (run w).2.around own) := by
  have hrun : onAnother w.agent run (w.around own) =
      ((run ((w.around own).alone w.agent)).1,
        (run ((w.around own).alone w.agent)).2.around own) := rfl
  rw [hrun, World.alone_around h]

/-- With an agent in the process, a call is a call of that agent. -/
theorem EntryCall.run_around (call : EntryCall) (own : Agent) (h : w.registration = .itself)
    (machine : Machine σ) (hook : Hook σ) :
    call.operation.run machine hook (w.around own) =
      ((call.onAgent machine w).1, (call.onAgent machine w).2.around own) := by
  have hanother : (w.around own).registration = .another w.agent := rfl
  cases call with
  | load options =>
    simp only [operation, Operation.run, loadAgent, Run.bind_apply, Run.get_apply, hanother]
    rfl
  | unload =>
    simp only [operation, Operation.run, unloadAgent, Run.bind_apply, Run.get_apply, hanother,
      onAnother_around _ own h]
    rfl
  | classPrepared env klass =>
    simp only [operation, Operation.run, deliverClassPrepared, Run.bind_apply, Run.get_apply,
      hanother, onAnother_around _ own h]
    rfl
  | breakpointHit hit =>
    simp only [operation, Operation.run, deliverBreakpointHit, Run.bind_apply, Run.get_apply,
      hanother, onAnother_around _ own h]
    rfl

/-- Calls of an agent leave it alone in its process. -/
theorem EntryCall.onAgent_registration (call : EntryCall) (machine : Machine σ) (w : World σ) :
    (call.onAgent machine w).2.registration = w.registration := by
  -- An unload and a logged hit call no machine, so this one has to be named.
  cases call with
  | load options => rfl
  | unload =>
    have hdoes : Does machine w (Rendezvous.unload w).2 none := unload_does w
    exact hdoes.registration_eq
  | classPrepared env klass => exact (classPrepared_does env klass w).registration_eq
  | breakpointHit hit =>
    have hdoes : Does machine w (Rendezvous.breakpointHit Hook.logging hit w).2 _ :=
      logged_does hit w
    exact hdoes.registration_eq

end

/-! ## Any number of calls -/

/-- Calls that are served one after the other, each by a machine of its own. -/
def serve (each : Machine σ → EntryCall → Run σ Answer) :
    List (Machine σ × EntryCall) → Run σ (List Answer)
  | [] => pure []
  | (machine, call) :: rest => do
    let answer ← each machine call
    let answers ← serve each rest
    pure (answer :: answers)

/-- By way of the process. -/
def serveInProcess (hook : Hook σ) : List (Machine σ × EntryCall) → Run σ (List Answer) :=
  serve fun machine call => call.operation.run machine hook

/-- By one agent. -/
def serveByAgent : List (Machine σ × EntryCall) → Run σ (List Answer) :=
  serve fun machine call => call.onAgent machine

def NoLoad (calls : List (Machine σ × EntryCall)) : Prop := ∀ call ∈ calls, call.2.isLoad = false

section

variable (hook : Hook σ) {w : World σ} {calls others : List (Machine σ × EntryCall)}

theorem serve_append (each : Machine σ → EntryCall → Run σ Answer) :
    serve each (calls ++ others) w =
      ((serve each calls w).1 ++ (serve each others (serve each calls w).2).1,
        (serve each others (serve each calls w).2).2) := by
  induction calls generalizing w with
  | nil => rfl
  | cons first rest ih =>
    obtain ⟨machine, call⟩ := first
    simp only [List.cons_append, serve, Run.bind_apply, Run.pure_apply, ih]

theorem serveInProcess_vacant (h : w.registration = .vacant) (hcalls : NoLoad calls) :
    serveInProcess hook calls w = (calls.map fun _ => .nothing, w) := by
  induction calls with
  | nil => rfl
  | cons first rest ih =>
    obtain ⟨machine, call⟩ := first
    obtain ⟨hfirst, hrest⟩ := List.forall_mem_cons.mp hcalls
    have hrun := ih hrest
    simp only [serveInProcess] at hrun ⊢
    simp only [serve, Run.bind_apply, Run.pure_apply, EntryCall.run_vacant h hfirst, hrun,
      List.map_cons]

/-- A run by way of the process is a run of its agent, call by call. -/
theorem serveInProcess_around (calls : List (Machine σ × EntryCall)) (own : Agent)
    (h : w.registration = .itself) :
    serveInProcess hook calls (w.around own) =
      ((serveByAgent calls w).1, (serveByAgent calls w).2.around own) := by
  -- By induction on the calls, each of which leaves the agent alone in its process for the next.
  induction calls generalizing w with
  | nil => rfl
  | cons first rest ih =>
    obtain ⟨machine, call⟩ := first
    have hrun := ih ((call.onAgent_registration machine w).trans h)
    simp only [serveInProcess, serveByAgent] at hrun ⊢
    simp only [serve, Run.bind_apply, Run.pure_apply, call.run_around own h, hrun]

/-- The calls of a list up to its first load. -/
theorem noLoad_or_first (calls : List (Machine σ × EntryCall)) :
    NoLoad calls ∨ ∃ before machine options after, NoLoad before ∧
      calls = before ++ (machine, .load options) :: after := by
  induction calls with
  | nil => exact .inl (List.forall_mem_nil _)
  | cons first rest ih =>
    obtain ⟨machine, call⟩ := first
    cases hload : call.isLoad with
    | true =>
      cases call with
      | load options => exact .inr ⟨[], machine, options, rest, List.forall_mem_nil _, rfl⟩
      | _ => cases hload
    | false =>
      obtain hrest | ⟨before, other, options, after, hbefore, rfl⟩ := ih
      · exact .inl (List.forall_mem_cons.mpr ⟨hload, hrest⟩)
      · exact .inr ⟨(machine, call) :: before, other, options, after,
          List.forall_mem_cons.mpr ⟨hload, hbefore⟩, rfl⟩

end

/-- A process refines its one agent. Calls before the first load change nothing. The first load is
that of a fresh agent, with the text of the bytes before the first zero byte, or no text for null
options. Each later call is a call of the agent that this load left, whatever it answered, and a later
load answers the status of a failure and changes nothing. -/
theorem process_refines_agent (hook : Hook σ) (w : World σ) (h : w.registration = .vacant) :
    (∀ calls : List (Machine σ × EntryCall), NoLoad calls ∨
      ∃ before machine options after, NoLoad before ∧
        calls = before ++ (machine, .load options) :: after) ∧
    (∀ calls, NoLoad calls → serveInProcess hook calls w = (calls.map fun _ => .nothing, w)) ∧
    ∀ before machine options after, NoLoad before →
      let text := options.elim "" fun bytes => Text.ofUtf8 (Text.beforeZero bytes)
      let loaded := load machine text (w.alone .fresh)
      let served := serveByAgent after loaded.2
      serveInProcess hook (before ++ (machine, .load options) :: after) w =
        (before.map (fun _ => .nothing) ++ .status loaded.1 :: served.1,
          served.2.around w.agent) := by
  refine ⟨noLoad_or_first, fun calls => serveInProcess_vacant hook h, ?_⟩
  intro before machine options after hbefore
  have htext : options.elim "" (fun bytes => Text.ofUtf8 (Text.beforeZero bytes)) =
      optionsText options := by cases options <;> rfl
  have hload : Does machine (w.alone .fresh) (load machine (optionsText options) (w.alone .fresh)).2
      ((attachmentAt machine (optionsText options) (w.alone .fresh)).map .activated) :=
    load_does (optionsText options) (w.alone .fresh)
  have hvacant := serveInProcess_vacant hook h hbefore
  have hafter := serveInProcess_around hook after w.agent hload.registration_eq
  simp only [serveInProcess] at hvacant hafter ⊢
  simp only [htext, serve_append, hvacant, serve, Run.bind_apply, Run.pure_apply,
    EntryCall.run_first h, hafter]

section

open Simulation Simulation.Host

/-- A process on a host that grants no capabilities. -/
def grudgingProcess : World Host :=
  ⟨.fresh, .vacant, .start [markerClass ⟨1⟩ ⟨1⟩] .full
    (FaultPlan.none.set (.service .addCapabilities) (.always ⟨98⟩)), .absent none, []⟩

def markerHit : Hit := ⟨⟨1⟩, ⟨1⟩, ⟨1⟩, 0⟩

def earlyCalls : List (Machine Host × EntryCall) :=
  [(machine, .unload), (machine, .breakpointHit markerHit)]

/-- One byte that is no text, an option, and another behind a zero byte. -/
def untidyOptions : Text.Bytes :=
  0xFF :: Text.utf8 ",log=off" ++ 0 :: Text.utf8 ",method=other"

def lateCalls : List (Machine Host × EntryCall) :=
  [(machine, .load none), (machine, .classPrepared .live ⟨1⟩), (machine, .breakpointHit markerHit)]

/-- The load fails, and the agent that it leaves sets the breakpoint all the same. -/
theorem process_refines_agent_refused :
    let loaded := load machine (Text.ofUtf8 (Text.beforeZero untidyOptions))
      (grudgingProcess.alone .fresh)
    let served := serveByAgent lateCalls loaded.2
    (grudgingProcess.registration = .vacant ∧ NoLoad earlyCalls) ∧
    serveInProcess Hook.logging
        (earlyCalls ++ (machine, .load (some untidyOptions)) :: lateCalls) grudgingProcess =
      ([.nothing, .nothing] ++ .status loaded.1 :: served.1, served.2.around .fresh) ∧
    loaded.1 = -1 ∧ loaded.2.agent.settings = some ⟨.standard, some "off"⟩ ∧
    served.2.machine.breakpoints = [(⟨1⟩, 0)] ∧ served.2.agent.hits = 1 := by
  have hearly : NoLoad earlyCalls := by
    simp [NoLoad, earlyCalls, EntryCall.isLoad]
  obtain ⟨-, -, hserved⟩ := process_refines_agent Hook.logging grudgingProcess rfl
  refine ⟨⟨rfl, hearly⟩, hserved earlyCalls machine (some untidyOptions) lateCalls hearly, ?_⟩
  decide +kernel

end

end Rendezvous
