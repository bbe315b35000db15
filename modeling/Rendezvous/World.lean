import Rendezvous.Agent
import Rendezvous.Machine
import Rendezvous.Log.Logger

/-!
# Runs

A world is an agent in a process: the agent, what the process has registered, the state of the
machine, the logger and the journal. A run is an operation on a world that gives an answer.
-/

namespace Rendezvous

/-- Which agent the events of the process reach. -/
inductive Registration where
  /-- None yet. -/
  | vacant
  /-- The agent of the world itself. -/
  | itself
  /-- Another agent, which has the hook that only logs. -/
  | another (agent : Agent)
  /-- Something that takes no notice of events. -/
  | idle
  deriving DecidableEq, Repr

structure World (σ : Type) where
  agent : Agent
  registration : Registration
  machine : σ
  logger : Log.Logger
  journal : List Entry

abbrev Run (σ : Type) := StateM (World σ)

/-- A hook is a run of its own, so it may do all that can be done to a world. -/
abbrev Hook (σ : Type) := Arrival → Run σ HookEnd

variable {σ : Type}

namespace Run

variable {α β : Type}

@[simp] theorem pure_apply (a : α) (w : World σ) : (pure a : Run σ α) w = (a, w) := rfl
@[simp] theorem bind_apply (m : Run σ α) (f : α → Run σ β) (w : World σ) :
    (m >>= f) w = f (m w).1 (m w).2 := rfl
@[simp] theorem map_apply (f : α → β) (m : Run σ α) (w : World σ) :
    (f <$> m) w = (f (m w).1, (m w).2) := rfl
@[simp] theorem get_apply (w : World σ) : (get : Run σ (World σ)) w = (w, w) := rfl
@[simp] theorem modify_apply (f : World σ → World σ) (w : World σ) :
    (modify f : Run σ PUnit) w = (⟨⟩, f w) := rfl

end Run

/-- Adds an entry to the journal. -/
def note (entry : Entry) : Run σ Unit :=
  modify fun w => { w with journal := w.journal ++ [entry] }

/-- A record goes into the journal in any case, and to the logger, which may have a filter. -/
def report (level : Log.Level) (component : Log.Component) (text : String) : Run σ Unit :=
  modify fun w => { w with
    journal := w.journal ++ [.log ⟨level, component, text⟩]
    logger := w.logger.write ⟨level, component, text⟩ }

def initLogger (filter : Option String) : Run σ Bool := fun w =>
  ((w.logger.init filter).1, { w with logger := (w.logger.init filter).2 })

def updateAgent (f : Agent → Agent) : Run σ Unit := modify fun w => { w with agent := f w.agent }

/-- Advances the phase, and says whether it moved. -/
def advancePhase (phase : Phase) : Run σ Bool := fun w =>
  ((w.agent.phase.advance phase).1,
    { w with agent.phase := (w.agent.phase.advance phase).2 })

/-- The hook that logs each arrival. -/
def Hook.logging : Hook σ := fun arrival => do
  report .info .dispatcher
    ("breakpoint hit #" ++ Nat.repr arrival.sequence.toNat ++ " (thread " ++ arrival.thread.display ++
      ", location " ++ Int.repr arrival.location.toInt ++ ")")
  pure .returned

end Rendezvous
