import SchemaBridge.Main
import SchemaBridge.Diagnostics
import SchemaBridge.Session
import SchemaBridge.Proofs.PolicyIndifference
import SchemaBridge.Proofs.FieldTypes
import SchemaBridge.Proofs.Lossless
import SchemaBridge.Proofs.PlainDescription
import SchemaBridge.Proofs.SchemaRoundTrip
import SchemaBridge.Proofs.DocumentRoundTrip
import SchemaBridge.Proofs.CompatibleSchemas
import SchemaBridge.Proofs.FreshNames
import SchemaBridge.Proofs.FieldNodes
import SchemaBridge.Proofs.Ensuring
import SchemaBridge.Proofs.References
import SchemaBridge.Proofs.Synthesis
import SchemaBridge.Proofs.Accounts
import SchemaBridge.Proofs.SynthesizedTypes
import SchemaBridge.Proofs.CapturedNames
import SchemaBridge.Proofs.ReportedLosses
import SchemaBridge.Proofs.SectionRoundTrip
import SchemaBridge.Proofs.WrittenBack
import SchemaBridge.Proofs.HeaderComment
import SchemaBridge.Proofs.TypeValues
import SchemaBridge.Proofs.SafeChanges
import SchemaBridge.Proofs.NodeValues
import SchemaBridge.Proofs.ComposedUpgrades
import SchemaBridge.Proofs.ChangedItems
import SchemaBridge.Proofs.MirroredChanges
import SchemaBridge.Proofs.ReorderedSchemas
import SchemaBridge.Proofs.WrittenDocuments
import SchemaBridge.Proofs.DeclaredNames
import SchemaBridge.Proofs.GroupedAlternatives
import SchemaBridge.Proofs.SettledAnnotations
import SchemaBridge.Proofs.DescribedComments
import SchemaBridge.Proofs.DescriptionSegments
import SchemaBridge.Proofs.NullNames
import SchemaBridge.Proofs.LeastFreeName
import SchemaBridge.Proofs.ReportedPositions
import SchemaBridge.Proofs.ExpressibleDetails
import SchemaBridge.Proofs.SourceOffsets
import SchemaBridge.Proofs.SharedIndentation
import SchemaBridge.Proofs.ReportedTypes
import SchemaBridge.Proofs.SessionRuns
