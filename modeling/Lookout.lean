import Lookout.Api
import Lookout.Client
import Lookout.Command.Run
import Lookout.Engine.Cycle
import Lookout.Firing.Delivery
import Lookout.Main
import Lookout.Storage.Registry
import Lookout.Proofs.Cache
import Lookout.Proofs.IdMap
import Lookout.Proofs.KeyOrder
import Lookout.Proofs.Scheduler
import Lookout.Proofs.Arming
import Lookout.Proofs.Survey
import Lookout.Proofs.Findings
import Lookout.Proofs.Operations
import Lookout.Proofs.System
import Lookout.Proofs.Steps
import Lookout.Proofs.Course
import Lookout.Proofs.Agreement
import Lookout.Proofs.Pending
import Lookout.Proofs.Evidence
import Lookout.Proofs.Windows
import Lookout.Proofs.Changes
import Lookout.Proofs.Refusals
import Lookout.Proofs.Restart
import Lookout.Proofs.Waiting
import Lookout.Proofs.Declared
import Lookout.Proofs.Synchrony
import Lookout.Proofs.Standing
import Lookout.Proofs.Evolution
import Lookout.Proofs.Undisturbed
import Lookout.Proofs.Loading
import Lookout.Proofs.Exactness
import Lookout.Proofs.Recency
import Lookout.Proofs.Convergence
import Lookout.Proofs.Digits
import Lookout.Proofs.Dates
import Lookout.Proofs.CalendarHours
import Lookout.Proofs.NextWindow
import Lookout.Proofs.CalendarWindows
import Lookout.Proofs.Timestamps
import Lookout.Proofs.Periods
import Lookout.Proofs.Spellings
import Lookout.Proofs.JsonText
import Lookout.Proofs.Records
import Lookout.Proofs.VariableJson
import Lookout.Proofs.TriggerJson
import Lookout.Proofs.Placeholders
import Lookout.Proofs.Retention
import Lookout.Proofs.Creation
import Lookout.Proofs.Occurrences
import Lookout.Proofs.Provenance
import Lookout.Proofs.CalendarVariables
import Lookout.Proofs.Expiry
import Lookout.Proofs.Deadlines
import Lookout.Proofs.Pieces
import Lookout.Proofs.FormText
import Lookout.Proofs.RequestJson
import Lookout.Proofs.Transparency
import Lookout.Proofs.Preview
import Lookout.Proofs.Purging
import Lookout.Proofs.Polling
import Lookout.Proofs.Validation
import Lookout.Proofs.DefinitionJson
import Lookout.Proofs.References
import Lookout.Proofs.ChangeCommand
import Lookout.Proofs.Listing
import Lookout.Proofs.Assignments
import Lookout.Proofs.Confinement
import Lookout.Proofs.KeyLaws
