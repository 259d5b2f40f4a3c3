import Weave.Main
import Weave.Proofs.Cover
import Weave.Proofs.Ensures
import Weave.Proofs.Decoding
import Weave.Proofs.Occurrence
import Weave.Proofs.Printed
import Weave.Proofs.Exits
import Weave.Proofs.Deadline
import Weave.Proofs.Reach
import Weave.Proofs.Simulation
import Weave.Proofs.Notes
import Weave.Proofs.Transcript
import Weave.Proofs.Ledger
import Weave.Proofs.Lifecycle
import Weave.Proofs.Responder
import Weave.Proofs.Overrun
import Weave.Proofs.Pairing
import Weave.Proofs.Unread
import Weave.Proofs.WrittenSegments
import Weave.Proofs.Recognition
import Weave.Proofs.Grouping
import Weave.Proofs.Chaining
import Weave.Proofs.Joining
import Weave.Proofs.DirectiveOptions
import Weave.Proofs.Selection
import Weave.Proofs.Stripping
import Weave.Proofs.Rejoining
import Weave.Proofs.Rendering
import Weave.Proofs.SessionUse
import Weave.Proofs.Seclusion
import Weave.Proofs.CommandEffect
import Weave.Proofs.Whereabouts
import Weave.Proofs.Listing
import Weave.Proofs.Headings
import Weave.Proofs.Insertion
import Weave.Proofs.Entries
import Weave.Proofs.LineEnds
import Weave.Proofs.Halving
import Weave.Proofs.Naming
import Weave.Proofs.Intake
import Weave.Proofs.Counting
import Weave.Proofs.Dispatching
import Weave.Proofs.Preview
import Weave.Proofs.Undirected
import Weave.Proofs.Unended
import Weave.Proofs.Crash
import Weave.Proofs.Replacement
import Weave.Proofs.Enclosure
import Weave.Proofs.Siblings
import Weave.Proofs.Resolution
import Weave.Proofs.Sources
import Weave.Proofs.Idle
import Weave.Proofs.InvocationSteps
import Weave.Proofs.Processing
import Weave.Proofs.Making
import Weave.Proofs.Overwriting
