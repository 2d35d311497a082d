import ColorTheme.Color.Basic
import ColorTheme.Color.Contrast
import ColorTheme.Color.Hsl
import ColorTheme.Color.Parser
import ColorTheme.Color.Printer
import ColorTheme.Command.Arguments
import ColorTheme.Command.Basic
import ColorTheme.Command.Failure
import ColorTheme.Command.Report
import ColorTheme.Command.Run
import ColorTheme.Command.Selection
import ColorTheme.Context.Basic
import ColorTheme.Context.Sheet
import ColorTheme.Files.Path
import ColorTheme.Files.Tree
import ColorTheme.Json.Printer
import ColorTheme.Json.Reader
import ColorTheme.Json.Words
import ColorTheme.Main
import ColorTheme.Notice
import ColorTheme.Number.Binary64
import ColorTheme.Number.Decimal
import ColorTheme.Number.Power
import ColorTheme.Observable.Basic
import ColorTheme.Observable.Rules
import ColorTheme.Palette
import ColorTheme.Plan
import ColorTheme.Policy
import ColorTheme.Program
import ColorTheme.Proofs.Color.Hexadecimal
import ColorTheme.Proofs.Context.Calls
import ColorTheme.Proofs.Context.Coherence
import ColorTheme.Proofs.Context.Suitability
import ColorTheme.Proofs.Context.Writes
import ColorTheme.Proofs.Defaults
import ColorTheme.Proofs.Number.Whole
import ColorTheme.Proofs.Observable.Delivery
import ColorTheme.Proofs.Observable.History
import ColorTheme.Proofs.Observable.Publication
import ColorTheme.Proofs.Observable.Reachable
import ColorTheme.Proofs.SortedMap
import ColorTheme.Proofs.Style.Names
import ColorTheme.Screening
import ColorTheme.Settings
import ColorTheme.Shade
import ColorTheme.Slots
import ColorTheme.SortedMap
import ColorTheme.Store.Basic
import ColorTheme.Store.Error
import ColorTheme.Store.TextMap
import ColorTheme.Style.Name
import ColorTheme.Style.Properties
import ColorTheme.Text.Blank
import ColorTheme.Text.Combining
import ColorTheme.Text.Quoted
import ColorTheme.Text.Split
import ColorTheme.Text.Unprintable
import ColorTheme.Theme
import ColorTheme.Proofs.Context.LastWrites
import ColorTheme.Proofs.Except
import ColorTheme.Proofs.Json.RoundTrip
import ColorTheme.Proofs.Files.Path
import ColorTheme.Proofs.Files.Tree
import ColorTheme.Proofs.Files.Steps
import ColorTheme.Proofs.Files.Directories
import ColorTheme.Proofs.Plan
import ColorTheme.Proofs.Store.Loading
import ColorTheme.Proofs.Store.Atomicity
import ColorTheme.Proofs.Store.Refinement
import ColorTheme.Proofs.Context.Announcing
import ColorTheme.Proofs.Command.ModeRuns
import ColorTheme.Proofs.Text.Blank
import ColorTheme.Proofs.Screening
import ColorTheme.Proofs.Context.Covering
import ColorTheme.Proofs.Context.Reports
import ColorTheme.Proofs.Context.Policies
import ColorTheme.Proofs.Context.StoredMode
import ColorTheme.Proofs.Observable.Lateness
import ColorTheme.Proofs.Number.Rounding
import ColorTheme.Proofs.Number.Arithmetic
import ColorTheme.Proofs.Color.Alpha
import ColorTheme.Proofs.Number.Decimal
import ColorTheme.Proofs.Number.Numeral
import ColorTheme.Proofs.Number.Shortest
import ColorTheme.Proofs.Color.Language
import ColorTheme.Proofs.Color.ReadBack
import ColorTheme.Proofs.Color.Canonical
import ColorTheme.Proofs.Settings
import ColorTheme.Proofs.Text.Bytes
import ColorTheme.Proofs.Style.Rules
import ColorTheme.Proofs.Context.Stylesheet
import ColorTheme.Proofs.Command.Separation
import ColorTheme.Proofs.Context.Telling
import ColorTheme.Proofs.Context.Audience
import ColorTheme.Proofs.Context.Hearing
import ColorTheme.Proofs.Number.Root
import ColorTheme.Proofs.Number.Power
import ColorTheme.Proofs.Color.Contrast
import ColorTheme.Proofs.Color.Plain
import ColorTheme.Proofs.Color.Validity
import ColorTheme.Proofs.Color.Percent
import ColorTheme.Proofs.Json.Grammar
import ColorTheme.Proofs.Json.Tokens
import ColorTheme.Proofs.Json.Skipping
import ColorTheme.Proofs.Json.Members
import ColorTheme.Proofs.Policy
import ColorTheme.Proofs.Observable.Termination
import ColorTheme.Proofs.Number.Nearness
import ColorTheme.Proofs.Color.Wheel
import ColorTheme.Proofs.Color.ToHsl
import ColorTheme.Proofs.Color.OfHsl
import ColorTheme.Proofs.Color.Lossless
import ColorTheme.Proofs.Color.Dimming
import ColorTheme.Proofs.Color.Darkening
import ColorTheme.Proofs.Color.Ratio
import ColorTheme.Proofs.Color.Classification
import ColorTheme.Proofs.Command.Completeness
import ColorTheme.Proofs.Command.Checking
import ColorTheme.Proofs.Color.Translucency
import ColorTheme.Proofs.Style.Properties
import ColorTheme.Proofs.Observable.Pruning
import ColorTheme.Proofs.Json.Values
