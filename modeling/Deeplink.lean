import Deeplink.Command.Access
import Deeplink.Http.Lifetime
import Deeplink.Log.Record
import Deeplink.Scenario.Report
import Deeplink.Proofs.Task.Guarantee
import Deeplink.Proofs.Dispatch.Watched
import Deeplink.Proofs.Dispatch.Validation
import Deeplink.Proofs.Http.Entry
import Deeplink.Proofs.Dispatch.Calls
import Deeplink.Proofs.Http.Exclusive
import Deeplink.Proofs.Http.Exclusion
import Deeplink.Proofs.Text.Utf8
import Deeplink.Proofs.Text.Percent
import Deeplink.Proofs.Text.Whole
import Deeplink.Proofs.Task.Transfer
import Deeplink.Proofs.Host.Noted
import Deeplink.Proofs.Host.Permission
import Deeplink.Proofs.Host.Registered
import Deeplink.Proofs.Host.Safety
import Deeplink.Proofs.Host.Course
import Deeplink.Proofs.Task.Within
import Deeplink.Proofs.Json.NumberText
import Deeplink.Proofs.Json.StringText
import Deeplink.Proofs.Json.Plain
import Deeplink.Proofs.Json.RoundTrip
import Deeplink.Proofs.Fragment.Commands
import Deeplink.Proofs.Fragment.RoundTrip
import Deeplink.Proofs.Json.Carried
import Deeplink.Proofs.Command.Carried
import Deeplink.Proofs.Http.Parsing
import Deeplink.Proofs.Dispatch.History
import Deeplink.Proofs.Http.Loading
import Deeplink.Proofs.Http.Answers
import Deeplink.Proofs.Http.Shadows
import Deeplink.Proofs.Http.Outcomes
import Deeplink.Proofs.Host.Hosted
import Deeplink.Proofs.Http.Agreement
import Deeplink.Proofs.Dispatch.Course
import Deeplink.Proofs.Http.Reports
import Deeplink.Proofs.Http.Turns
import Deeplink.Proofs.Http.Updates
import Deeplink.Proofs.Fragment.Grammar
import Deeplink.Proofs.Fragment.Recorded
import Deeplink.Proofs.Dispatch.Sequence
import Deeplink.Proofs.Fragment.Independence
import Deeplink.Proofs.Binary64.Bits
import Deeplink.Proofs.Binary64.Rounding
import Deeplink.Proofs.Json.Numerals
import Deeplink.Proofs.Json.Strings
import Deeplink.Proofs.Json.Reads
import Deeplink.Proofs.Json.Grammar
import Deeplink.Proofs.Json.Soundness
import Deeplink.Proofs.Json.Completeness
import Deeplink.Proofs.Json.Numbers
import Deeplink.Proofs.Fragment.Decoding
import Deeplink.Proofs.Fragment.Numbers
import Deeplink.Proofs.Fragment.Sinks
import Deeplink.Proofs.Json.Magnitudes
import Deeplink.Proofs.Json.Equality
import Deeplink.Proofs.Command.Equality
import Deeplink.Proofs.Settings.Methods
import Deeplink.Proofs.Host.Addresses
import Deeplink.Proofs.Host.Wiring
import Deeplink.Proofs.Task.Upheld
import Deeplink.Proofs.Host.Arrivals
import Deeplink.Proofs.Task.Shown
import Deeplink.Proofs.Dispatch.Records
import Deeplink.Proofs.Dispatch.Audit
import Deeplink.Proofs.Json.OneLine
import Deeplink.Proofs.Log.Line
import Deeplink.Proofs.Moment.Calendar
import Deeplink.Proofs.Moment.Timestamp
import Deeplink.Proofs.Moment.Seconds
import Deeplink.Proofs.Log.Times
import Deeplink.Proofs.Log.Handlers
import Deeplink.Proofs.Log.Levels
import Deeplink.Proofs.Settings.LogLevel
import Deeplink.Proofs.Http.Lifetime
import Deeplink.Proofs.Dispatch.Known
import Deeplink.Proofs.Dispatch.Sessions
