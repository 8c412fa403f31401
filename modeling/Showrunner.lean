import Showrunner.Proofs.Outcome
import Showrunner.Render.Reply
import Showrunner.Settings.Shipped
import Showrunner.Time.Read
import Showrunner.Timer
import Showrunner.Web.Handle
import Showrunner.Proofs.Store.Rows
import Showrunner.Proofs.Store.Operations
import Showrunner.Proofs.Store.Exclusion
import Showrunner.Proofs.Recurrence.Progress
import Showrunner.Proofs.Dispatch.Turns
import Showrunner.Proofs.Dispatch.Holders
import Showrunner.Proofs.Dispatch.Finishing
import Showrunner.Proofs.Dispatch.Rendering
import Showrunner.Proofs.Dispatch.Occurrences
import Showrunner.Proofs.Board.FirstSeen
import Showrunner.Proofs.Board.Drawing
import Showrunner.Proofs.Board.Returns
import Showrunner.Proofs.Board.Closure
import Showrunner.Proofs.Dispatch.Batch
import Showrunner.Proofs.Board.Links
import Showrunner.Proofs.Store.Lifecycle
import Showrunner.Proofs.Store.Recovery
import Showrunner.Proofs.Dispatch.Pool
import Showrunner.Proofs.Dispatch.Escape
import Showrunner.Proofs.Webhook.History
import Showrunner.Proofs.Webhook.Sweeping
import Showrunner.Proofs.Json.Refusal
import Showrunner.Proofs.Store.Events
import Showrunner.Proofs.Webhook.Capture
import Showrunner.Proofs.Text.Numeral
import Showrunner.Proofs.Text.Unpaired
import Showrunner.Proofs.Binary64.Rounding
import Showrunner.Proofs.Binary64.Shortest
import Showrunner.Proofs.Json.Strings
import Showrunner.Proofs.Json.Numbers
import Showrunner.Proofs.Json.RoundTrip
import Showrunner.Proofs.Json.Readings
import Showrunner.Proofs.Webhook.Spending
import Showrunner.Proofs.Validation.Verdicts
import Showrunner.Proofs.Json.Values
import Showrunner.Proofs.Store.Documents
import Showrunner.Proofs.Board.Reading
import Showrunner.Proofs.Store.Saving
import Showrunner.Proofs.Text.Characters
import Showrunner.Proofs.Web.Sending
import Showrunner.Proofs.Web.Answers
import Showrunner.Proofs.Dispatch.Keeping
import Showrunner.Proofs.Web.Routes
import Showrunner.Proofs.Web.Exchanges
import Showrunner.Proofs.Web.Refusals
import Showrunner.Proofs.Web.Submissions
import Showrunner.Proofs.Web.Chronicle
import Showrunner.Proofs.Board.Settling
import Showrunner.Proofs.Web.Reloading
import Showrunner.Proofs.Json.Ascii
import Showrunner.Proofs.Webhook.Listing
import Showrunner.Proofs.Web.Captures
import Showrunner.Proofs.Web.Overtaking
import Showrunner.Proofs.Recurrence.Periods
import Showrunner.Proofs.Recurrence.Ending
import Showrunner.Proofs.Text.Order
import Showrunner.Proofs.Store.Claiming
import Showrunner.Proofs.Time.Calendar
import Showrunner.Proofs.Recurrence.Times
import Showrunner.Proofs.Recurrence.Spans
import Showrunner.Proofs.Recurrence.Order
import Showrunner.Proofs.Recurrence.Plain
import Showrunner.Proofs.Recurrence.Written
import Showrunner.Proofs.Recurrence.Cadence
import Showrunner.Proofs.Recurrence.Refusals
import Showrunner.Proofs.Recurrence.Faults
import Showrunner.Proofs.Text.Quoting
import Showrunner.Proofs.Board.Warnings
import Showrunner.Proofs.Board.Renaming
import Showrunner.Proofs.Definition.Search
import Showrunner.Proofs.Board.Unreachable
import Showrunner.Proofs.Board.Cases
import Showrunner.Proofs.NodeKind.Checked
import Showrunner.Proofs.Board.Configured
import Showrunner.Proofs.Json.Escapes
import Showrunner.Proofs.Webhook.Undecodable
import Showrunner.Proofs.Render.Address
import Showrunner.Proofs.Render.Generation
import Showrunner.Proofs.Board.Interleaving
import Showrunner.Proofs.Board.Shapes
import Showrunner.Proofs.Board.Candidates
import Showrunner.Proofs.Text.Fixed
import Showrunner.Proofs.Time.Parts
import Showrunner.Proofs.Time.Columns
import Showrunner.Proofs.Store.Stamps
import Showrunner.Proofs.Store.Troubles
