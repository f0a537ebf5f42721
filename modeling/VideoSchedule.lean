import VideoSchedule.Backend.Faulty
import VideoSchedule.Backend.Recorded
import VideoSchedule.Main
import VideoSchedule.Proofs.Execution
import VideoSchedule.Proofs.Window
import VideoSchedule.Proofs.Holds
import VideoSchedule.Proofs.Naming
import VideoSchedule.Proofs.Layout
import VideoSchedule.Proofs.Hierarchy
import VideoSchedule.Proofs.Anchor
import VideoSchedule.Proofs.Arrangement
import VideoSchedule.Proofs.Schedule
import VideoSchedule.Proofs.Group
import VideoSchedule.Proofs.Retirement
import VideoSchedule.Proofs.Session
import VideoSchedule.Proofs.Issue
import VideoSchedule.Proofs.Output
import VideoSchedule.Proofs.Ending
import VideoSchedule.Proofs.Step
import VideoSchedule.Proofs.Client
import VideoSchedule.Proofs.Reachable
import VideoSchedule.Proofs.Custody
import VideoSchedule.Proofs.Guarantees
import VideoSchedule.Proofs.Chart
import VideoSchedule.Proofs.Script
import VideoSchedule.Proofs.Moves
import VideoSchedule.Proofs.WindowScript
import VideoSchedule.Proofs.ScriptedPicks
import VideoSchedule.Proofs.Records
import VideoSchedule.Proofs.SessionRuns
import VideoSchedule.Proofs.ScriptedRequests
import VideoSchedule.Proofs.ShownFrames
import VideoSchedule.Proofs.PicturesInFlight
import VideoSchedule.Proofs.Accounts
import VideoSchedule.Proofs.SessionChronicle
import VideoSchedule.Proofs.Streams
import VideoSchedule.Proofs.Refusals
import VideoSchedule.Proofs.Lookahead
import VideoSchedule.Proofs.Clock
import VideoSchedule.Proofs.Timestamps
import VideoSchedule.Proofs.WouldBlock
import VideoSchedule.Proofs.Reorder
import VideoSchedule.Proofs.Presentation
import VideoSchedule.Proofs.Forecast
import VideoSchedule.Proofs.Groups
import VideoSchedule.Proofs.KeyPictures
import VideoSchedule.Proofs.MultiReference
import VideoSchedule.Proofs.ReferencesFound
import VideoSchedule.Proofs.Boundaries
import VideoSchedule.Proofs.Conformance
import VideoSchedule.Proofs.Pipeline
import VideoSchedule.Proofs.Draining
import VideoSchedule.Proofs.Poisoning
import VideoSchedule.Proofs.Accumulation
import VideoSchedule.Proofs.Unrecorded
import VideoSchedule.Proofs.Worker
import VideoSchedule.Proofs.Faultless
import VideoSchedule.Proofs.EndToEnd
import VideoSchedule.Proofs.TimestampsInOrder
import VideoSchedule.Proofs.Codec
import VideoSchedule.Proofs.Listing
import VideoSchedule.Proofs.Transcripts
import VideoSchedule.Proofs.Sweeping
import VideoSchedule.Proofs.Slices
import VideoSchedule.Proofs.Trails
import VideoSchedule.Proofs.Barriers
import VideoSchedule.Proofs.Admissions
import VideoSchedule.Proofs.Grammar
import VideoSchedule.Proofs.Bursts
import VideoSchedule.Proofs.Queueing
import VideoSchedule.Proofs.Interleavings
import VideoSchedule.Proofs.FailedSweeps
import VideoSchedule.Proofs.RefusedRoles
