import Rendezvous.Simulation.Scenario
import Rendezvous.Simulation.Reading
import Rendezvous.Proofs.Dialogue
import Rendezvous.Proofs.Visit
import Rendezvous.Proofs.Loading
import Rendezvous.Proofs.Deeds
import Rendezvous.Proofs.Buffers
import Rendezvous.Proofs.History
import Rendezvous.Proofs.Armed
import Rendezvous.Proofs.Stages
import Rendezvous.Proofs.Numbering
import Rendezvous.Proofs.Touched
import Rendezvous.Proofs.LoadOrder
import Rendezvous.Proofs.OrderlyHosts
import Rendezvous.Proofs.Options
import Rendezvous.Proofs.ClassNames
import Rendezvous.Proofs.OptionLists
import Rendezvous.Proofs.AnyOptions
import Rendezvous.Proofs.LikeHosts
import Rendezvous.Proofs.Absent
import Rendezvous.Proofs.EntryPoints
import Rendezvous.Proofs.Interleavings
import Rendezvous.Proofs.Releases
import Rendezvous.Proofs.Decoding
import Rendezvous.Proofs.Comparison
import Rendezvous.Proofs.ModifiedText
import Rendezvous.Proofs.Residency
import Rendezvous.Proofs.Mishaps
import Rendezvous.Proofs.HighestPhase
import Rendezvous.Proofs.CapabilityBits
import Rendezvous.Proofs.Diagnostics
