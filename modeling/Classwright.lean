import Classwright.Diagram.Printer
import Classwright.Naming.Values
import Classwright.Service.Answer
import Classwright.Logging.Event
import Classwright.Logging.Setup
import Classwright.Main
import Classwright.Proofs.Adoptions
import Classwright.Proofs.Ancestry
import Classwright.Proofs.Assembly
import Classwright.Proofs.Bodies
import Classwright.Proofs.Conflicts
import Classwright.Proofs.Contributions
import Classwright.Proofs.Deliveries
import Classwright.Proofs.DerivedNames
import Classwright.Proofs.Identifiers
import Classwright.Proofs.Imports
import Classwright.Proofs.Interchange
import Classwright.Proofs.KeyTypes
import Classwright.Proofs.Likeness
import Classwright.Proofs.Locality
import Classwright.Proofs.NameTables
import Classwright.Proofs.Parts
import Classwright.Proofs.Purges
import Classwright.Proofs.Rearrangement
import Classwright.Proofs.Refusals
import Classwright.Proofs.Releases
import Classwright.Proofs.Requests
import Classwright.Proofs.Reversal
import Classwright.Proofs.Routes
import Classwright.Proofs.Standings
import Classwright.Proofs.Streams
import Classwright.Proofs.Validation
