import Interposer.CommandLine.Grammar
import Interposer.CommandLine.Quoted
import Interposer.CommandLine.Seam
import Interposer.Event.Settings
import Interposer.Main
import Interposer.Rehearsal
import Interposer.Role
import Interposer.Substitution.Chain
import Interposer.Substitution.Merge
import Interposer.World.Session
import Interposer.Proofs.Substitution.Chain
import Interposer.Proofs.World.Transparency
import Interposer.Proofs.CommandLine.Boundary
import Interposer.Proofs.CommandLine.Composition
import Interposer.Proofs.CommandLine.Grammar
import Interposer.Proofs.Host
import Interposer.Proofs.Substitution.Isolation
import Interposer.Proofs.Rehearsal
import Interposer.Proofs.World.Session
import Interposer.Proofs.World.Reports
import Interposer.Proofs.CommandLine.Conservation
import Interposer.Proofs.Substitution.Merge
import Interposer.Proofs.CommandLine.Agreement
import Interposer.Proofs.SystemError
import Interposer.Proofs.World.Refusal
import Interposer.Proofs.Failure
