import EsFeatures.Main
import EsFeatures.Proofs.WorkStack
import EsFeatures.Proofs.Completeness
import EsFeatures.Proofs.FirstError
import EsFeatures.Proofs.Findings
import EsFeatures.Proofs.DocumentOrder
import EsFeatures.Proofs.ParserCheck
import EsFeatures.Proofs.Nesting
import EsFeatures.Proofs.NodeOffsets
import EsFeatures.Proofs.Snippets
import EsFeatures.Proofs.Windowing
import EsFeatures.Proofs.Boundaries
import EsFeatures.Proofs.Faithful
import EsFeatures.Proofs.CharacterSpans
import EsFeatures.Proofs.Transparency
import EsFeatures.Proofs.ExitCode
import EsFeatures.Proofs.Paths
import EsFeatures.Proofs.Directories
import EsFeatures.Proofs.Rescan
import EsFeatures.Proofs.SourceOrder
import EsFeatures.Proofs.PrunedSearch
import EsFeatures.Proofs.MissingValues
import EsFeatures.Proofs.TemplateText
import EsFeatures.Proofs.Coordinates
import EsFeatures.Proofs.ByteRanges
import EsFeatures.Proofs.CharacterIndex
import EsFeatures.Proofs.JsonReader
import EsFeatures.Proofs.Lossless
import EsFeatures.Proofs.ReportLines
