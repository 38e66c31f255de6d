import VisibilityRules.Calendar.Authored
import VisibilityRules.Calendar.Date
import VisibilityRules.Calendar.Instant
import VisibilityRules.Calendar.Layout
import VisibilityRules.Command.Answer
import VisibilityRules.Command.Grammar
import VisibilityRules.Command.Invocation
import VisibilityRules.Command.Report
import VisibilityRules.Command.Run
import VisibilityRules.Command.World
import VisibilityRules.Content.Post
import VisibilityRules.Content.Strip
import VisibilityRules.Device.Class
import VisibilityRules.Device.Group
import VisibilityRules.Device.UserAgent
import VisibilityRules.Dictionary
import VisibilityRules.Encoding.Base64
import VisibilityRules.Encoding.Percent
import VisibilityRules.Files.Path
import VisibilityRules.Files.Tree
import VisibilityRules.Json.Nesting
import VisibilityRules.Json.Record
import VisibilityRules.Json.Scalar
import VisibilityRules.Json.Text
import VisibilityRules.Json.Token
import VisibilityRules.Json.Value
import VisibilityRules.Main
import VisibilityRules.Number.Binary64
import VisibilityRules.Number.Decimal
import VisibilityRules.Number.Shortest
import VisibilityRules.Request.Flags
import VisibilityRules.Request.QueryString
import VisibilityRules.Rule.Attributes
import VisibilityRules.Rule.Audience
import VisibilityRules.Rule.Kind
import VisibilityRules.Rule.Parameter
import VisibilityRules.Rule.Payload
import VisibilityRules.Rule.Period
import VisibilityRules.Rule.Policy
import VisibilityRules.Rule.Visitor
import VisibilityRules.Settings.Document
import VisibilityRules.Settings.Editing
import VisibilityRules.Settings.ElementName
import VisibilityRules.Settings.Storage
import VisibilityRules.Settings.Switches
import VisibilityRules.Settings.Verification
import VisibilityRules.Shortcode.AttributeText
import VisibilityRules.Shortcode.Escape
import VisibilityRules.Shortcode.Occurrence
import VisibilityRules.Shortcode.Removal
import VisibilityRules.Shortcode.Search
import VisibilityRules.Text.Blank
import VisibilityRules.Text.Digit
import VisibilityRules.Text.EditDistance
import VisibilityRules.Text.LowerCase
import VisibilityRules.Text.Ranges
import VisibilityRules.Text.Split
import VisibilityRules.Text.Truth
import VisibilityRules.Text.Utf8
import VisibilityRules.Text.Word
import VisibilityRules.Proofs.Bytes
import VisibilityRules.Proofs.Grammar
import VisibilityRules.Proofs.Scan
import VisibilityRules.Proofs.Opening
import VisibilityRules.Proofs.FirstTag
import VisibilityRules.Proofs.Removal
import VisibilityRules.Proofs.SpanUnion
import VisibilityRules.Proofs.Strip
import VisibilityRules.Proofs.Deletion
import VisibilityRules.Proofs.Repetition
import VisibilityRules.Proofs.Literal
import VisibilityRules.Proofs.Encodings
import VisibilityRules.Proofs.JsonText
import VisibilityRules.Proofs.Document
import VisibilityRules.Proofs.Payload
import VisibilityRules.Proofs.WrittenValues
import VisibilityRules.Proofs.WrittenItems
import VisibilityRules.Proofs.AttributeList
import VisibilityRules.Proofs.Authored
import VisibilityRules.Proofs.Advanced
import VisibilityRules.Proofs.Files
import VisibilityRules.Proofs.Storage
import VisibilityRules.Proofs.Reports
import VisibilityRules.Proofs.Agreement
import VisibilityRules.Proofs.Posts
import VisibilityRules.Proofs.StoreRuns
import VisibilityRules.Proofs.PostPaths
import VisibilityRules.Proofs.Effects
import VisibilityRules.Proofs.StripModes
import VisibilityRules.Proofs.Editing
import VisibilityRules.Proofs.Histories
import VisibilityRules.Proofs.LetterCase
import VisibilityRules.Proofs.LastEdits
import VisibilityRules.Proofs.DayNumbers
import VisibilityRules.Proofs.Normalization
import VisibilityRules.Proofs.DailyWindows
import VisibilityRules.Proofs.WrittenDates
import VisibilityRules.Proofs.DateRanges
import VisibilityRules.Proofs.Weekdays
import VisibilityRules.Proofs.Membership
import VisibilityRules.Proofs.EditDistance
import VisibilityRules.Proofs.Suggestions
import VisibilityRules.Proofs.Failures
import VisibilityRules.Proofs.WrittenQueries
import VisibilityRules.Proofs.ParameterRules
import VisibilityRules.Proofs.ParameterLists
import VisibilityRules.Proofs.Escapes
import VisibilityRules.Proofs.UserAgents
import VisibilityRules.Proofs.WrittenTimes
import VisibilityRules.Proofs.MachineWords
