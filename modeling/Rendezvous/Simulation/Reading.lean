import Rendezvous.Simulation.Step

/-!
# Reading what a host lends

A host lends one string, table or name outright, with no call; it is read and given back. All that is
seen is how it was given back.
-/

namespace Rendezvous.Simulation

open Text (Bytes)

/-- Lends, reads and gives back on a host, in the setting of a session. -/
def readOn {α : Type} (host : Host) (run : HostRun α) : α × List Entry :=
  let ended := run ⟨.fresh, .itself, host, .present, []⟩
  (ended.1, ended.2.journal)

/-- Lends content without a call. -/
def lendOutright {α : Type} (content : Option α) : HostRun (Option (Buffer α)) := fun w =>
  let lent := w.machine.lend content
  (lent.1, { w with machine := lent.2 })

def readLentText (host : Host) (bytes : Option Bytes) (asked : List String) :
    TextReading × List Entry :=
  readOn host do
    let text ← lendOutright bytes
    releaseText Host.machine .live text
    pure (LentText.read text asked)

def readLentTable (host : Host) (methods : Option (List MethodId)) (count : Int32) :
    List MethodId × List Entry :=
  readOn host do
    let table : LentTable := ⟨count, ← lendOutright methods⟩
    releaseTable Host.machine .live table
    pure table.methods

def readLentName (host : Host) (name signature : Option Bytes) (asked : List (String × String)) :
    NameReading × List Entry :=
  readOn host do
    let name ← lendOutright name
    let signature ← lendOutright signature
    releaseName Host.machine .live ⟨name, signature⟩
    pure (LentName.read ⟨name, signature⟩ asked)

end Rendezvous.Simulation
