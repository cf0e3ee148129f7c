import CodeSmells.Command.Run
import CodeSmells.Config.Read
import CodeSmells.Context.Dump
import CodeSmells.Detector.Registry
import CodeSmells.Glob.Search
import CodeSmells.Main
import CodeSmells.NamePattern
import CodeSmells.Report.Text
import CodeSmells.Proofs.Fallible
import CodeSmells.Proofs.Registry
import CodeSmells.Proofs.Analysis
import CodeSmells.Proofs.ReportOrder
import CodeSmells.Proofs.Glob.Grammar
import CodeSmells.Proofs.NamePattern
import CodeSmells.Proofs.Json.Grammar
import CodeSmells.Proofs.Json.Scanning
import CodeSmells.Proofs.Json.Printing
import CodeSmells.Proofs.Json.Reading
import CodeSmells.Proofs.Context.Expression
import CodeSmells.Proofs.Context.Dump
import CodeSmells.Proofs.Json.Results
import CodeSmells.Proofs.Context.RoundTrip
import CodeSmells.Proofs.Dispatch
import CodeSmells.Proofs.Tightening
import CodeSmells.Proofs.WarningPrecedence
import CodeSmells.Proofs.Json.Fields
import CodeSmells.Proofs.Context.Parts
import CodeSmells.Proofs.Context.Grammar
import CodeSmells.Proofs.Json.Naturals
import CodeSmells.Proofs.Parallel
import CodeSmells.Proofs.Overrides
import CodeSmells.Proofs.Stages
import CodeSmells.Proofs.Suppression
import CodeSmells.Proofs.FirstFailure
import CodeSmells.Proofs.Selection
import CodeSmells.Proofs.Relevance
import CodeSmells.Proofs.Presentation
import CodeSmells.Proofs.Files.Alike
import CodeSmells.Proofs.Initialization
import CodeSmells.Proofs.Report.Counts
import CodeSmells.Proofs.Report.Listing
import CodeSmells.Proofs.Report.Document
import CodeSmells.Proofs.Context.Discriminant
import CodeSmells.Proofs.Exclusion
import CodeSmells.Proofs.Report.Colors
import CodeSmells.Proofs.SmellTypes
import CodeSmells.Proofs.Files.Discovery
import CodeSmells.Proofs.Context.Elements
import CodeSmells.Proofs.Context.Notations
import CodeSmells.Proofs.Context.Steps
import CodeSmells.Proofs.UnknownDetectors
