import StagedLowering.Json.Encode
import StagedLowering.Json.Printer
import StagedLowering.Main
import StagedLowering.Proofs.Absence
import StagedLowering.Proofs.Conduct
import StagedLowering.Proofs.Counters
import StagedLowering.Proofs.DefaultStages
import StagedLowering.Proofs.Deliveries
import StagedLowering.Proofs.Grouping
import StagedLowering.Proofs.ImportCalls
import StagedLowering.Proofs.LoweringOutcome
import StagedLowering.Proofs.Places
import StagedLowering.Proofs.Quotation
import StagedLowering.Proofs.Reading
import StagedLowering.Proofs.Tallies
import StagedLowering.Proofs.Validation
import StagedLowering.Proofs.Watched
import StagedLowering.Proofs.Accord
import StagedLowering.Proofs.Registrations
import StagedLowering.Proofs.Sights
import StagedLowering.Proofs.Composition
import StagedLowering.Proofs.RuleOrder
import StagedLowering.Proofs.Accounts
import StagedLowering.Proofs.Definitions
import StagedLowering.Proofs.ImportReport
import StagedLowering.Proofs.Recasting
import StagedLowering.Proofs.Subscriptions
import StagedLowering.Proofs.Spellings
import StagedLowering.Proofs.RoundTrip
import StagedLowering.Proofs.NestingLimit
import StagedLowering.Proofs.DepthCell
import StagedLowering.Proofs.Resolution
import StagedLowering.Proofs.Checking
import StagedLowering.Proofs.CoreStage
import StagedLowering.Proofs.CommandLine
import StagedLowering.Proofs.Gifts
import StagedLowering.Proofs.Inert
import StagedLowering.Proofs.Gauged
