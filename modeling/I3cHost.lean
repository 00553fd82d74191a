import I3cHost.BitField
import I3cHost.BringUp.Machine
import I3cHost.Bulk.Descriptor
import I3cHost.Bulk.Request
import I3cHost.Bulk.Response
import I3cHost.Bytes
import I3cHost.Capability.Flags
import I3cHost.Capability.Header
import I3cHost.Capability.Report
import I3cHost.ClassRequest
import I3cHost.Codec.EntryList
import I3cHost.Codec.Error
import I3cHost.Codec.Message
import I3cHost.Codec.Reader
import I3cHost.Codec.Record
import I3cHost.Codec.Writer
import I3cHost.Coded
import I3cHost.Command.Basic
import I3cHost.Command.Queue
import I3cHost.Device.Capability
import I3cHost.Device.Info
import I3cHost.Engine.BringUp
import I3cHost.Engine.Calls
import I3cHost.Engine.Delivery
import I3cHost.Engine.Hook
import I3cHost.Engine.Notifications
import I3cHost.Engine.Responses
import I3cHost.Engine.State
import I3cHost.Engine.Submission
import I3cHost.Engine.Traffic
import I3cHost.Error
import I3cHost.Inspection.Activity
import I3cHost.Inspection.Failures
import I3cHost.Inspection.Tree
import I3cHost.Inspection.Wire
import I3cHost.Notification
import I3cHost.Proofs.BringUp.Actions
import I3cHost.Proofs.BringUp.Arrivals
import I3cHost.Proofs.BringUp.Controller
import I3cHost.Proofs.BringUp.Course
import I3cHost.Proofs.BringUp.Order
import I3cHost.Proofs.BringUp.Polling
import I3cHost.Proofs.BringUp.Repetition
import I3cHost.Proofs.BringUp.Requests
import I3cHost.Proofs.BringUp.Role
import I3cHost.Proofs.BringUp.Staging
import I3cHost.Proofs.BringUp.Survey
import I3cHost.Proofs.Bulk.DataPresence
import I3cHost.Proofs.Bulk.Inverse
import I3cHost.Proofs.Bulk.Malformed
import I3cHost.Proofs.Bulk.Request
import I3cHost.Proofs.Bulk.Response
import I3cHost.Proofs.Bulk.Truncation
import I3cHost.Proofs.Capability.Exactness
import I3cHost.Proofs.Capability.RoundTrip
import I3cHost.Proofs.Codec.Agreement
import I3cHost.Proofs.Codec.EntryList
import I3cHost.Proofs.Codec.Outline
import I3cHost.Proofs.Codec.Pieces
import I3cHost.Proofs.Codec.Reading
import I3cHost.Proofs.Codec.RoundTrip
import I3cHost.Proofs.Codec.Truncation
import I3cHost.Proofs.Command.Block
import I3cHost.Proofs.Command.Order
import I3cHost.Proofs.Command.Queue
import I3cHost.Proofs.Engine.Answering
import I3cHost.Proofs.Engine.Delivery
import I3cHost.Proofs.Engine.Execution
import I3cHost.Proofs.Engine.Frame
import I3cHost.Proofs.Engine.Hooks
import I3cHost.Proofs.Engine.Oblivious
import I3cHost.Proofs.Engine.Permanence
import I3cHost.Proofs.Engine.Preservation
import I3cHost.Proofs.Engine.Stability
import I3cHost.Proofs.Messages.Destination
import I3cHost.Proofs.Messages.Outlines
import I3cHost.Proofs.Session.AnyOrder
import I3cHost.Proofs.Session.Callbacks
import I3cHost.Proofs.Session.Configuration
import I3cHost.Proofs.Session.EndOfAnswers
import I3cHost.Proofs.Session.History
import I3cHost.Proofs.Session.Identifiers
import I3cHost.Proofs.Session.Isolation
import I3cHost.Proofs.Session.KeptAnswers
import I3cHost.Proofs.Session.Notifications
import I3cHost.Proofs.Session.Order
import I3cHost.Proofs.Session.QueueCalls
import I3cHost.Proofs.Session.Stream
import I3cHost.Proofs.Session.Submissions
import I3cHost.Proofs.Session.TrackingOrder
import I3cHost.Proofs.Session.VendorCallback
import I3cHost.Proofs.Submission.Disturbed
import I3cHost.Proofs.Submission.Early
import I3cHost.Proofs.Submission.Steps
import I3cHost.Proofs.Submission.Undisturbed
import I3cHost.Proofs.Target.Acceptance
import I3cHost.Proofs.Target.Configuration
import I3cHost.Proofs.Target.Contents
import I3cHost.Proofs.Target.CountedLists
import I3cHost.Proofs.Target.Idempotence
import I3cHost.Proofs.Target.Identifiers
import I3cHost.Proofs.Target.Integrity
import I3cHost.Proofs.Target.MarkedIdentifiers
import I3cHost.Proofs.Target.Matching
import I3cHost.Proofs.Target.Newcomers
import I3cHost.Proofs.Target.Operations
import I3cHost.Proofs.Target.Placement
import I3cHost.Proofs.Target.Rebuilding
import I3cHost.Proofs.Target.Relocation
import I3cHost.Proofs.Target.Repetition
import I3cHost.Proofs.Target.Snapshots
import I3cHost.Proofs.Target.StaticData
import I3cHost.Proofs.Tracker.Progress
import I3cHost.Proofs.Tracker.Resolution
import I3cHost.Proofs.Tracker.SubmissionOrder
import I3cHost.ProvisionedId
import I3cHost.Request
import I3cHost.Session
import I3cHost.Status
import I3cHost.Target.AddressChange
import I3cHost.Target.Config
import I3cHost.Target.Device
import I3cHost.Target.Listing
import I3cHost.Target.Merge
import I3cHost.Target.Relocation
import I3cHost.Target.Table
import I3cHost.Text
import I3cHost.Transfer
import I3cHost.Transport.Basic
import I3cHost.Transport.Error
import I3cHost.Transport.Scripted
