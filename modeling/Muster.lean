import Muster.Json.Reader
import Muster.Proofs.Assembly.Closed
import Muster.Proofs.Assembly.Handed
import Muster.Proofs.Manifest.Planned
import Muster.Proofs.Run.Alike
import Muster.Proofs.Run.Announced
import Muster.Proofs.Run.Failure
import Muster.Proofs.Run.Polling
import Muster.Proofs.Source.Exhaustion
import Muster.Proofs.Source.Overlay
import Muster.Proofs.Source.Shared
import Muster.Report.Manifest
import Muster.Report.World
import Muster.Session.Calls
import Muster.Session.Listening
import Muster.World.Shown
import Muster.Proofs.Channel.Recount
import Muster.Proofs.Config.Listing
import Muster.Proofs.Config.Defaults
import Muster.Proofs.Config.Reading
import Muster.Proofs.Config.Registries
import Muster.Proofs.Config.Undisturbed
import Muster.Proofs.Launch.Permits
import Muster.Proofs.Launch.Requests
import Muster.Proofs.Run.Submission
import Muster.Proofs.Duration.Words
import Muster.Proofs.Tree.Carried
import Muster.Proofs.Manifest.Codec
import Muster.Proofs.Timestamp.Calendar
import Muster.Proofs.Timestamp.Text
import Muster.Proofs.Uuid.Text
import Muster.Proofs.Event.Codec
import Muster.Proofs.Plan.Faults
import Muster.Proofs.Plan.Layers
import Muster.Proofs.Plan.Numbering
import Muster.Proofs.Run.Converging
import Muster.Proofs.Run.Expiry
import Muster.Proofs.Run.Felled
import Muster.Proofs.World.Aloof
import Muster.Proofs.Platform.Dealings
import Muster.Proofs.Platform.Balance
import Muster.Proofs.Decimal.Whole
import Muster.Proofs.Decimal.Shortest
import Muster.Proofs.Decimal.Survival
import Muster.Proofs.Manifest.Declared
import Muster.Proofs.Manifest.Grammar
import Muster.Proofs.Manifest.Integers
