import QueryShape.Annotation
import QueryShape.Annotation.Reader
import QueryShape.Catalog
import QueryShape.Catalog.Format
import QueryShape.Catalog.Layout
import QueryShape.Catalog.Layout.Decoding
import QueryShape.Catalog.Load
import QueryShape.Catalog.TypeText
import QueryShape.CommandLine
import QueryShape.CommandLine.Arguments
import QueryShape.CommandLine.Reference
import QueryShape.CommandLine.Table
import QueryShape.Compile
import QueryShape.Data.OrderedMap
import QueryShape.Declaration
import QueryShape.Declaration.Argument
import QueryShape.Declaration.Bound
import QueryShape.Declaration.Derive
import QueryShape.Declaration.DeriveError
import QueryShape.Declaration.ItemPath
import QueryShape.Declaration.Keyword
import QueryShape.Declaration.Phrase
import QueryShape.Declaration.Phrase.Expression
import QueryShape.Declaration.Phrase.Grammar
import QueryShape.Declaration.Phrase.Item
import QueryShape.Declaration.Phrase.Printer
import QueryShape.Declaration.Phrase.Type
import QueryShape.Declaration.Scope
import QueryShape.Declaration.Token
import QueryShape.Declaration.TypeText
import QueryShape.Document
import QueryShape.Event
import QueryShape.Failure
import QueryShape.FileTree
import QueryShape.FragmentName
import QueryShape.Grammar
import QueryShape.Graph
import QueryShape.Graph.Extraction
import QueryShape.Indent
import QueryShape.Json
import QueryShape.Json.Printer
import QueryShape.Json.Reader
import QueryShape.Log
import QueryShape.Main
import QueryShape.Number.Binary64
import QueryShape.Number.Layout
import QueryShape.Number.Shortest
import QueryShape.Proofs.Unfolding
import QueryShape.Proofs.VisitInv
import QueryShape.Proofs.VisitRun
import QueryShape.Session
import QueryShape.Shape
import QueryShape.Text.Alphanumeric
import QueryShape.Text.Blank
import QueryShape.Text.Boundaries
import QueryShape.Text.CharWidth
import QueryShape.Text.Emoji
import QueryShape.Text.Hidden
import QueryShape.Text.LetterCase
import QueryShape.Text.Ligature
import QueryShape.Text.Name
import QueryShape.Text.Quoted
import QueryShape.Text.Shorter
import QueryShape.Text.Utf8
import QueryShape.Text.Width
import QueryShape.Text.Words
import QueryShape.Toml.Bare
import QueryShape.Toml.Quoted
import QueryShape.Toml.Reader
import QueryShape.Toml.Table
import QueryShape.Value
import QueryShape.Value.Printer
import QueryShape.VariableSlot
import QueryShape.Writer
import QueryShape.Proofs.Outline
import QueryShape.Proofs.OutlineWalk
import QueryShape.Proofs.PlainExpansion
import QueryShape.Proofs.WalkRun
import QueryShape.Proofs.FragmentTable
import QueryShape.Proofs.FragmentFree
import QueryShape.Proofs.FragmentChoice
import QueryShape.Proofs.ReferenceCount
import QueryShape.Proofs.CycleReport
import QueryShape.Proofs.VariableSites
import QueryShape.Proofs.VariableTable
import QueryShape.Proofs.AnnotationGrammar
import QueryShape.Proofs.AnnotationToken
import QueryShape.Proofs.AnnotationNumber
import QueryShape.Proofs.AnnotationValue
import QueryShape.Proofs.AnnotationReading
import QueryShape.Proofs.Checkpoint
import QueryShape.Proofs.WalkFailure
import QueryShape.Proofs.Indentation
import QueryShape.Proofs.BraceContent
import QueryShape.Proofs.ReachablePart
import QueryShape.Proofs.CatalogTable
import QueryShape.Proofs.CatalogIdentity
import QueryShape.Proofs.VisitDepth
import QueryShape.Proofs.VisitRenaming
import QueryShape.Proofs.CatalogHandles
import QueryShape.Proofs.CatalogCorrespondence
import QueryShape.Proofs.TypeSpelling
import QueryShape.Proofs.WalkRenaming
import QueryShape.Proofs.CatalogSpace
import QueryShape.Proofs.DerivedUnion
import QueryShape.Proofs.ValueRoundTrip
import QueryShape.Proofs.ConstantText
import QueryShape.Proofs.AnnotationNames
import QueryShape.Proofs.CatalogCheck
import QueryShape.Proofs.Words
import QueryShape.Proofs.VariableName
import QueryShape.Proofs.TypeTextGrammar
import QueryShape.Proofs.AnnotationScan
import QueryShape.Proofs.AnnotationLocality
import QueryShape.Proofs.AnnotationCursor
import QueryShape.Proofs.CursorTracking
import QueryShape.Proofs.FaultPlace
import QueryShape.Proofs.AttributeMarks
import QueryShape.Proofs.DerivedRecord
import QueryShape.Proofs.EmbeddedName
import QueryShape.Proofs.WalkFrame
import QueryShape.Proofs.WriterOutline
import QueryShape.Proofs.WriterFrame
import QueryShape.Proofs.JsonRoundTrip
import QueryShape.Proofs.VisitFrame
import QueryShape.Proofs.LayoutRoundTrip
import QueryShape.Proofs.WriterOutline
