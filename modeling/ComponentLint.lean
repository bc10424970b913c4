import ComponentLint.Check.Standard
import ComponentLint.Command.Program
import ComponentLint.Entries
import ComponentLint.File.Discovery
import ComponentLint.File.Document
import ComponentLint.Json.Reader
import ComponentLint.Main
import ComponentLint.Model.Document
import ComponentLint.Number.Literal
import ComponentLint.Number.Shortest
import ComponentLint.Output.Lines
import ComponentLint.Output.Record
import ComponentLint.Output.Table
import ComponentLint.Output.Terminal
import ComponentLint.Proofs.Analysis
import ComponentLint.Proofs.CaptureFindings
import ComponentLint.Proofs.CheckFailures
import ComponentLint.Proofs.CheckScope
import ComponentLint.Proofs.CodePlaces
import ComponentLint.Proofs.CommandText
import ComponentLint.Proofs.CommentRemoval
import ComponentLint.Proofs.Comments
import ComponentLint.Proofs.CoveredPositions
import ComponentLint.Proofs.DeclaredDefaults
import ComponentLint.Proofs.DirectiveGrammar
import ComponentLint.Proofs.DirectivePlaces
import ComponentLint.Proofs.Directives
import ComponentLint.Proofs.DocumentFaults
import ComponentLint.Proofs.DomainNames
import ComponentLint.Proofs.DraftTables
import ComponentLint.Proofs.EffectiveSettings
import ComponentLint.Proofs.FirstFailure
import ComponentLint.Proofs.FirstMalformedNode
import ComponentLint.Proofs.Forest
import ComponentLint.Proofs.HopScope
import ComponentLint.Proofs.IndexedRules
import ComponentLint.Proofs.InnermostNode
import ComponentLint.Proofs.IsolationFindings
import ComponentLint.Proofs.JsonTexts
import ComponentLint.Proofs.LayerEntries
import ComponentLint.Proofs.LayeredSettings
import ComponentLint.Proofs.Layout
import ComponentLint.Proofs.LineCounts
import ComponentLint.Proofs.LineEdits
import ComponentLint.Proofs.Links
import ComponentLint.Proofs.MeasuredNodes
import ComponentLint.Proofs.NameSpellings
import ComponentLint.Proofs.NestingLevels
import ComponentLint.Proofs.NodeDocuments
import ComponentLint.Proofs.NodeReading
import ComponentLint.Proofs.NodeRules
import ComponentLint.Proofs.ParameterDomains
import ComponentLint.Proofs.PorcelainLines
import ComponentLint.Proofs.Position
import ComponentLint.Proofs.Registration
import ComponentLint.Proofs.RenderingLimits
import ComponentLint.Proofs.ReportContents
import ComponentLint.Proofs.ReportDeterminism
import ComponentLint.Proofs.ReportMerge
import ComponentLint.Proofs.ReportOrder
import ComponentLint.Proofs.Resolution
import ComponentLint.Proofs.ResolvedRules
import ComponentLint.Proofs.ResultRecords
import ComponentLint.Proofs.RoundTrip
import ComponentLint.Proofs.RuleIds
import ComponentLint.Proofs.RuleIsolation
import ComponentLint.Proofs.RuleOrder
import ComponentLint.Proofs.RulePasses
import ComponentLint.Proofs.RunOutcomes
import ComponentLint.Proofs.RunUnits
import ComponentLint.Proofs.SeverityLabels
import ComponentLint.Proofs.SourceEdits
import ComponentLint.Proofs.StableSort
import ComponentLint.Proofs.StateUses
import ComponentLint.Proofs.StoredEntries
import ComponentLint.Proofs.SuppressionEdits
import ComponentLint.Proofs.Texts
import ComponentLint.Proofs.TopLevelTrees
import ComponentLint.Proofs.Traversals
import ComponentLint.Proofs.WorkflowCommands
import ComponentLint.Proofs.WrittenForests
import ComponentLint.Proofs.WrittenIntegers
import ComponentLint.Report.Aggregate
import ComponentLint.Rule.Layer
import ComponentLint.Run.Lint
import ComponentLint.Source.Comment
import ComponentLint.Source.Suppression
import ComponentLint.Text.Utf8
import ComponentLint.Value.Text
import ComponentLint.Yaml.Build
