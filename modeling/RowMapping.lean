import RowMapping.Command.Arguments
import RowMapping.Command.Perform
import RowMapping.Compile
import RowMapping.Declaration.Body
import RowMapping.Declaration.Declarator
import RowMapping.Declaration.Finding
import RowMapping.Declaration.Head
import RowMapping.Declaration.Statement
import RowMapping.Entity.Basic
import RowMapping.Entity.Report
import RowMapping.Entity.Resolve
import RowMapping.Entity.Specialization
import RowMapping.Failure
import RowMapping.FileTree.Basic
import RowMapping.FileTree.Changes
import RowMapping.FileTree.Directory
import RowMapping.FileTree.Include
import RowMapping.FileTree.Sources
import RowMapping.Generate
import RowMapping.Json
import RowMapping.Main
import RowMapping.Mapping.Carrier
import RowMapping.Mapping.Decode
import RowMapping.Mapping.Header
import RowMapping.Mapping.Keys
import RowMapping.Mapping.Layout
import RowMapping.Mapping.ListDescriptor
import RowMapping.Mapping.Metadata
import RowMapping.Mapping.Params
import RowMapping.Mapping.SqlText
import RowMapping.Mapping.Traits
import RowMapping.Member
import RowMapping.Name.Basic
import RowMapping.Name.Table
import RowMapping.Notice
import RowMapping.Path
import RowMapping.Proofs.Bindings
import RowMapping.Proofs.ColumnOrder
import RowMapping.Proofs.Declared
import RowMapping.Proofs.Insert
import RowMapping.Proofs.Key
import RowMapping.Proofs.Lines
import RowMapping.Proofs.Members
import RowMapping.Proofs.ParamsBody
import RowMapping.Proofs.Reference
import RowMapping.Proofs.Update
import RowMapping.Sql.ArrayType
import RowMapping.Sql.OfEntity
import RowMapping.Sql.Statement
import RowMapping.Tag.Basic
import RowMapping.Tag.ClassTag
import RowMapping.Tag.Comment
import RowMapping.Tag.MemberTags
import RowMapping.Tag.Pairs
import RowMapping.Text.Blank
import RowMapping.Text.Bytes
import RowMapping.Text.Cluster
import RowMapping.Text.CodeRange
import RowMapping.Text.Encoded
import RowMapping.Text.Escaped
import RowMapping.Text.LetterCase
import RowMapping.Text.Mark
import RowMapping.Text.Quoted
import RowMapping.Text.Search
import RowMapping.Text.Word
import RowMapping.Token.Lexeme
import RowMapping.Token.Stream
import RowMapping.Proofs.EnumMembers
import RowMapping.Proofs.EnumResolution
import RowMapping.Proofs.BodyItems
import RowMapping.Proofs.Layout
import RowMapping.Proofs.MemberLine
import RowMapping.Proofs.TagComment
import RowMapping.Proofs.RoundTrip
import RowMapping.Proofs.EnumSpecialization
import RowMapping.Proofs.Linkless
import RowMapping.Proofs.WrittenHeaders
import RowMapping.Proofs.Quoting
import RowMapping.Proofs.Placeholders
import RowMapping.Proofs.BindingCode
import RowMapping.Proofs.Kinds
import RowMapping.Proofs.ReadBack
import RowMapping.Proofs.Description
import RowMapping.Proofs.LexemeForm
import RowMapping.Proofs.Tiling
import RowMapping.Proofs.LineByLine
import RowMapping.Proofs.AnnotationRuns
import RowMapping.Proofs.TagEntries
import RowMapping.Proofs.EnclosingNamespace
import RowMapping.Proofs.TokenCores
import RowMapping.Proofs.LineEndings
import RowMapping.Proofs.SpecializationSearch
import RowMapping.Proofs.TagPairs
import RowMapping.Proofs.MetadataText
import RowMapping.Proofs.OwnMetadata
import RowMapping.Proofs.CheckedLoop
import RowMapping.Proofs.IndexedScan
import RowMapping.Proofs.ScanBounds
import RowMapping.Proofs.CheckedCompile
import RowMapping.Proofs.SpecializedTypes
import RowMapping.Proofs.TreeContents
import RowMapping.Proofs.MadeDirectories
import RowMapping.Proofs.RunOutcome
import RowMapping.Proofs.FoundSources
import RowMapping.Proofs.RepeatedRuns
import RowMapping.Proofs.IsolatedFailures
import RowMapping.Proofs.UntaggedText
import RowMapping.Proofs.EntityTexts
import RowMapping.Proofs.InertHeader
import RowMapping.Proofs.PartitionHint
import RowMapping.Proofs.TrailingComments
import RowMapping.Proofs.InsertedText
import RowMapping.Proofs.BodyPlaces
import RowMapping.Proofs.Constructors
import RowMapping.Proofs.HeaderPlaces
import RowMapping.Proofs.ClassAttributes
import RowMapping.Proofs.ByteOrder
import RowMapping.Proofs.PrunedWalk
import RowMapping.Proofs.UnbrokenNames
import RowMapping.Proofs.StatementShape
import RowMapping.Proofs.SortedFilters
import RowMapping.Proofs.ListDescription
import RowMapping.Proofs.ReadingCode
import RowMapping.Proofs.NullRoundTrip
import RowMapping.Proofs.IncludeWay
import RowMapping.Proofs.PartialUpdate
import RowMapping.Proofs.EnumPlaces
import RowMapping.Proofs.EnclosingClasses
import RowMapping.Proofs.QuotedLiteral
import RowMapping.Proofs.TableNames
import RowMapping.Proofs.TypeTokens
import RowMapping.Proofs.CommentFree
import RowMapping.Proofs.HeaderCuts
import RowMapping.Proofs.RelaidMembers
