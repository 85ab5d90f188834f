import LightList.Main
import LightList.Pipeline
import LightList.Session
import LightList.Proofs.Json.Locality
import LightList.Proofs.Json.ValueLocality
import LightList.Proofs.SelfDelimiting
import LightList.Proofs.StableSort
import LightList.Proofs.TagLookup
import LightList.Proofs.TallyRun
import LightList.Proofs.AuditFeatures
import LightList.Proofs.AuditOfReduction
import LightList.Proofs.Json.Grammar
import LightList.Proofs.Json.Outcome
import LightList.Proofs.Json.Layout
import LightList.Proofs.Json.Skipping
import LightList.Proofs.Json.Decoding
import LightList.Proofs.Json.Structures
import LightList.Proofs.OverpassFormat
import LightList.Proofs.Json.Printing
import LightList.Proofs.ShortestDigits
import LightList.Proofs.Json.PrintedNumbers
import LightList.Proofs.ReducedFile
import LightList.Proofs.ReductionFates
import LightList.Proofs.AuditPieces
import LightList.Proofs.Pbf.Varint
import LightList.Proofs.TallyHistory
import LightList.Proofs.Pbf.Taking
import LightList.Proofs.Pbf.Fields
import LightList.Proofs.Pbf.Content
import LightList.Proofs.Pbf.Writer
import LightList.Proofs.Pbf.Messages
import LightList.Proofs.Pbf.Elements
import LightList.Proofs.Pbf.File
import LightList.Proofs.FileTreeWrites
import LightList.Proofs.RunOnFiles
import LightList.Proofs.PointIndexEntries
import LightList.Proofs.SourceOrder
import LightList.Proofs.KeptTagsOnly
import LightList.Proofs.Decimal.FloatBounds
import LightList.Proofs.Decimal.ScaledRange
import LightList.Proofs.Json.NumeralValue
import LightList.Proofs.Decimal.DigitBounds
import LightList.Proofs.AcceptedFloats
import LightList.Proofs.ReductionTwice
import LightList.Proofs.VocabularyExtension
import LightList.Proofs.IrrelevantElements
import LightList.Proofs.Decimal.NearestEven
import LightList.Proofs.Decimal.RoundingLaws
import LightList.Proofs.Decimal.FloatBits
import LightList.Proofs.Decimal.FloatSizes
import LightList.Proofs.Decimal.FloatArithmetic
import LightList.Proofs.Decimal.Closeness
import LightList.Proofs.Decimal.ScaledRounding
import LightList.Proofs.Decimal.ShortestBetween
import LightList.Proofs.Decimal.FloatSums
import LightList.Proofs.RereadFloats
import LightList.Proofs.RereadPositions
import LightList.Proofs.Json.FiniteNumbers
import LightList.Proofs.FinitePlaces
import LightList.Proofs.SessionHistory
import LightList.Proofs.PostpassHits
import LightList.Proofs.Json.TreeDecoding
import LightList.Proofs.PostpassFormat
import LightList.Proofs.Json.Frames
import LightList.Proofs.SpelledTags
import LightList.Proofs.PostpassTags
import LightList.Proofs.PostpassGeometries
import LightList.Proofs.LastPositions
import LightList.Proofs.LongerExtract
import LightList.Proofs.Json.CompactText
import LightList.Proofs.RecordLines
import LightList.Proofs.Json.Indented
import LightList.Proofs.FeatureFile
import LightList.Proofs.ResolvedReferences
import LightList.Proofs.LimitedSinks
import LightList.Proofs.AuditReport
import LightList.Proofs.Pbf.Requiring
import LightList.Proofs.Pbf.RawBlobs
import LightList.Proofs.Pbf.CutFile
import LightList.Proofs.LastComponents
import LightList.Proofs.Json.NumeralIds
import LightList.Proofs.ElementFrames
import LightList.Proofs.ExactIds
