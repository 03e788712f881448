import Interception.Script.Session
import Interception.Settings
import Interception.Logging.Subscription
import Interception.Logging.Rehearsal
import Interception.Surroundings.Library
import Interception.Surroundings.Directives
import Interception.Proofs.Blocks
import Interception.Proofs.Steps
import Interception.Proofs.Publication
import Interception.Proofs.Effects
import Interception.Proofs.Nesting
import Interception.Proofs.Passage
import Interception.Proofs.Keying
import Interception.Proofs.Accounts
import Interception.Proofs.Course
import Interception.Proofs.Unfolding
import Interception.Proofs.Cursor
import Interception.Proofs.ShortCircuit
import Interception.Proofs.Blindness
import Interception.Proofs.Likeness
import Interception.Proofs.Mimicry
import Interception.Proofs.Shift
import Interception.Proofs.Transparency
import Interception.Proofs.Insertion
import Interception.Proofs.Editing
import Interception.Proofs.Refusal
import Interception.Proofs.Story
import Interception.Proofs.Balance
import Interception.Proofs.Naming
import Interception.Proofs.Uniformity
import Interception.Proofs.Counterpart
import Interception.Proofs.Likewise
import Interception.Proofs.Exposure
import Interception.Proofs.Prefiltering
import Interception.Proofs.Acceptance
import Interception.Proofs.Agenda
import Interception.Proofs.Pairing
import Interception.Proofs.Parallel
import Interception.Proofs.Afresh
import Interception.Proofs.Wildcards
import Interception.Proofs.Custody
import Interception.Proofs.Polling
import Interception.Proofs.Composites
import Interception.Proofs.Footprints
import Interception.Proofs.Reporting
import Interception.Proofs.Targeting
import Interception.Proofs.Outcomes
import Interception.Proofs.Manual
import Interception.Proofs.Overlay
import Interception.Proofs.Precedence
