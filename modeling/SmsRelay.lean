import SmsRelay.Log.Template
import SmsRelay.Proofs.Masking
import SmsRelay.Main
import SmsRelay.Proofs.World
import SmsRelay.Session
import SmsRelay.Proofs.Laws
import SmsRelay.Proofs.Ledger
import SmsRelay.Proofs.Conservation
import SmsRelay.Proofs.Reach
import SmsRelay.Proofs.Parts
import SmsRelay.Proofs.LastCopies
import SmsRelay.Proofs.Rows
import SmsRelay.Proofs.IsoText
import SmsRelay.Proofs.DeviceTime
import SmsRelay.Proofs.GroupKeys
import SmsRelay.Proofs.Archive
import SmsRelay.Proofs.Group
import SmsRelay.Proofs.History
import SmsRelay.Proofs.Numerals
import SmsRelay.Proofs.RecordForm
import SmsRelay.Proofs.NewestCopies
import SmsRelay.Proofs.Transactions
import SmsRelay.Proofs.Gathering
import SmsRelay.Proofs.ArrivalOrder
import SmsRelay.Proofs.Stages
import SmsRelay.Proofs.Overlap
import SmsRelay.Proofs.Device
import SmsRelay.Proofs.Erasure
import SmsRelay.Proofs.StaleCandidates
import SmsRelay.Proofs.SegmentTable
import SmsRelay.Proofs.Acknowledgement
import SmsRelay.Proofs.Dispatch
import SmsRelay.Proofs.Completion
import SmsRelay.Proofs.Isolation
import SmsRelay.Proofs.Reconciliation
import SmsRelay.Proofs.Cancellation
import SmsRelay.Proofs.Lines
import SmsRelay.Proofs.Rotation
import SmsRelay.Proofs.Intake
import SmsRelay.Proofs.SpentGroups
import SmsRelay.Proofs.LingeringParts
import SmsRelay.Proofs.Redelivery
import SmsRelay.Proofs.Unreadable
import SmsRelay.Proofs.Interleaving
import SmsRelay.Proofs.Duties
import SmsRelay.Proofs.Schedule
import SmsRelay.Proofs.Cadence
import SmsRelay.Proofs.Conduct
import SmsRelay.Proofs.Payload
import SmsRelay.Proofs.Reading
import SmsRelay.Proofs.Refusal
import SmsRelay.Proofs.Bystanders
import SmsRelay.Proofs.Counterparts
import SmsRelay.Proofs.Parallel
import SmsRelay.Proofs.Indifference
import SmsRelay.Proofs.Accord
import SmsRelay.Proofs.Tasks
import SmsRelay.Proofs.Noninterference
import SmsRelay.Proofs.Interchange
import SmsRelay.Proofs.Configuration
