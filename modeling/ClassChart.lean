import ClassChart.CommandLine.Options
import ClassChart.CommandLine.Run
import ClassChart.Decimal.Nearest
import ClassChart.Decimal.Shortest
import ClassChart.Diagram.Artifact
import ClassChart.Diagram.Basic
import ClassChart.Diagram.MemberBlock
import ClassChart.Diagram.RelationTag
import ClassChart.Diagram.Relations
import ClassChart.Diagram.Relationship
import ClassChart.Diagram.Scene
import ClassChart.Diagram.Session
import ClassChart.Fault
import ClassChart.Java.Javadoc
import ClassChart.Java.Letter
import ClassChart.Java.Parser.Basic
import ClassChart.Java.Parser.Declaration
import ClassChart.Java.Parser.Expression
import ClassChart.Java.Parser.File
import ClassChart.Java.Parser.TypeUse
import ClassChart.Java.Piece
import ClassChart.Java.Token
import ClassChart.Java.Tree
import ClassChart.Java.Units
import ClassChart.Journal
import ClassChart.Main
import ClassChart.Model.Catalog
import ClassChart.Model.Comparison
import ClassChart.Model.NamedType
import ClassChart.Model.Parameters
import ClassChart.Model.TypeName
import ClassChart.Settings.Basic
import ClassChart.Settings.Binary
import ClassChart.Settings.Calendar
import ClassChart.Settings.Load
import ClassChart.Settings.Value
import ClassChart.Settings.Yaml.Document
import ClassChart.Settings.Yaml.Scalar
import ClassChart.Settings.Yaml.Timestamp
import ClassChart.Settings.Yaml.Token
import ClassChart.Source.Directory
import ClassChart.Source.Documented
import ClassChart.Source.File
import ClassChart.Source.Language
import ClassChart.Source.NameTable
import ClassChart.Source.Unit
import ClassChart.Storage.FileSystem
import ClassChart.Storage.OsError
import ClassChart.Storage.Path
import ClassChart.Storage.Procedure
import ClassChart.Storage.Tree
import ClassChart.Text.Blank
import ClassChart.Text.Printable
import ClassChart.Text.Quoted
import ClassChart.Text.Runs
import ClassChart.Text.Split
import ClassChart.Text.Utf8
import ClassChart.Writer
import ClassChart.Proofs.Model.Catalog
import ClassChart.Proofs.Model.Comparison
import ClassChart.Proofs.Diagram.Session
import ClassChart.Proofs.Diagram.Relations
import ClassChart.Proofs.Writer
import ClassChart.Proofs.Diagram.DrawingOrder
import ClassChart.Proofs.Diagram.Lookup
import ClassChart.Proofs.Source.FileOrder
import ClassChart.Proofs.Source.Documented
import ClassChart.Proofs.Source.FirstDeclaration
import ClassChart.Proofs.Diagram.Candidates
import ClassChart.Proofs.Text
import ClassChart.Proofs.Diagram.ShownNames
import ClassChart.Proofs.Source.Hierarchy
import ClassChart.Proofs.Page
import ClassChart.Proofs.Diagram.DrawnText
import ClassChart.Proofs.Diagram.Reading
import ClassChart.Proofs.Java.Names
import ClassChart.Proofs.Source.LineNames
import ClassChart.Proofs.Diagram.Headers
import ClassChart.Proofs.Diagram.Drawable
import ClassChart.Proofs.Source.Members
import ClassChart.Proofs.Java.Sites
import ClassChart.Proofs.Java.Listing
import ClassChart.Proofs.Storage.Path
import ClassChart.Proofs.Storage.Tree
import ClassChart.Proofs.Storage.FileSystem
import ClassChart.Proofs.Storage.Procedure
import ClassChart.Proofs.Diagram.Artifact
import ClassChart.Proofs.Source.Precedence
import ClassChart.Proofs.Diagram.FirstEdges
import ClassChart.Proofs.Storage.Requests
import ClassChart.Proofs.StableSort
import ClassChart.Proofs.Source.Walk
import ClassChart.Proofs.Storage.Rewriting
import ClassChart.Proofs.Diagram.Rewriting
import ClassChart.Proofs.Diagram.Regeneration
import ClassChart.Proofs.Java.Taken
import ClassChart.Proofs.Blanks
import ClassChart.Proofs.Java.Layout
import ClassChart.Proofs.Java.Spelling
import ClassChart.Proofs.Source.Erasure
import ClassChart.Proofs.Java.Comments
import ClassChart.Proofs.Source.TypeVariables
import ClassChart.Proofs.Java.Javadoc
import ClassChart.Proofs.Squeeze
import ClassChart.Proofs.Java.Consumed
import ClassChart.Proofs.Java.EnumBody
import ClassChart.Proofs.Java.Contents
import ClassChart.Proofs.Java.CommentMarks
import ClassChart.Proofs.Java.Conventional
import ClassChart.Proofs.Java.Headers
import ClassChart.Proofs.Java.Signature
import ClassChart.Proofs.Diagram.Overloads
import ClassChart.Proofs.Diagram.HiddenMembers
import ClassChart.Proofs.Diagram.StatedTags
import ClassChart.Proofs.Java.Spacing
import ClassChart.Proofs.Source.WalkOrder
import ClassChart.Proofs.Source.RecordedPath
import ClassChart.Proofs.Source.VariableArity
import ClassChart.Proofs.LineEnd
import ClassChart.Proofs.Indentation
import ClassChart.Proofs.Settings.Written
import ClassChart.Proofs.Source.ScopeWalk
import ClassChart.Settings.Binary
import ClassChart.Settings.Calendar
