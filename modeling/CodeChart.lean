import CodeChart.Assoc
import CodeChart.Cli.Command
import CodeChart.Cli.Options
import CodeChart.Cli.Request
import CodeChart.Cli.Run
import CodeChart.Export
import CodeChart.File.Tree
import CodeChart.File.Workspace
import CodeChart.Flowchart.Basic
import CodeChart.Flowchart.Builder
import CodeChart.Flowchart.Graph
import CodeChart.Flowchart.Kind
import CodeChart.Flowchart.Label
import CodeChart.Flowchart.Mermaid
import CodeChart.Graph.Basic
import CodeChart.Graph.Dot
import CodeChart.Graph.Json
import CodeChart.Include.Chart
import CodeChart.Include.Directive
import CodeChart.Include.Mermaid
import CodeChart.Include.SourceFile
import CodeChart.Main
import CodeChart.Mermaid
import CodeChart.Notice
import CodeChart.Path
import CodeChart.Source.Comment
import CodeChart.Source.Header
import CodeChart.Source.Language
import CodeChart.Source.Literal
import CodeChart.Source.Parenthesis
import CodeChart.Source.Segment
import CodeChart.Source.Statement
import CodeChart.Text.Basic
import CodeChart.Text.Control
import CodeChart.Text.Printable
import CodeChart.Text.Quoted
import CodeChart.Text.Utf8
import CodeChart.Text.Word
import CodeChart.Proofs.Builder.Step
import CodeChart.Proofs.Builder.Invariant
import CodeChart.Proofs.Builder.Tree
import CodeChart.Proofs.Builder.Outline
import CodeChart.Proofs.Builder.Declaration
import CodeChart.Proofs.Builder.Drawn
import CodeChart.Proofs.Text.Pieces
import CodeChart.Proofs.Source.Pieces
import CodeChart.Proofs.Source.Strip
import CodeChart.Proofs.Source.Comment
import CodeChart.Proofs.Source.Row
import CodeChart.Proofs.Source.Gluing
import CodeChart.Proofs.Source.LineComment
import CodeChart.Proofs.Source.Origin
import CodeChart.Proofs.Source.Lines
import CodeChart.Proofs.Source.Whole
import CodeChart.Proofs.Program.Line
import CodeChart.Proofs.Program.Syntax
import CodeChart.Proofs.Program.Fanout
import CodeChart.Proofs.Source.Around
import CodeChart.Proofs.Builder.Unlined
import CodeChart.Proofs.Source.Atomic
import CodeChart.Proofs.Program.Action
import CodeChart.Proofs.Program.Function
import CodeChart.Proofs.Source.Content
import CodeChart.Proofs.Source.Place
import CodeChart.Proofs.Builder.Skeleton
import CodeChart.Proofs.Program.Literal
import CodeChart.Proofs.Builder.Below
import CodeChart.Proofs.Source.Inserted
import CodeChart.Proofs.Flowchart.Label
import CodeChart.Proofs.Flowchart.Mermaid
import CodeChart.Proofs.Flowchart.NodeLink
import CodeChart.Proofs.Include.Readable
import CodeChart.Proofs.Include.Folder
import CodeChart.Proofs.Include.Restriction
import CodeChart.Proofs.Include.Root
import CodeChart.Proofs.Builder.CaseRecord
import CodeChart.Proofs.Source.Jump
import CodeChart.Proofs.Builder.Stacks
import CodeChart.Proofs.Include.Scan
import CodeChart.Proofs.Include.Sheet
import CodeChart.Proofs.Include.Drawing
import CodeChart.Proofs.Include.Neighbour
import CodeChart.Proofs.Builder.Keyword
import CodeChart.Proofs.Builder.JumpBlock
import CodeChart.Proofs.Builder.Closer
import CodeChart.Proofs.Source.CaseLabel
import CodeChart.Proofs.Flowchart.Condition
import CodeChart.Proofs.Flowchart.SafeLabel
import CodeChart.Proofs.Graph.Token
import CodeChart.Proofs.Flowchart.Tag
import CodeChart.Proofs.Program.Headers
import CodeChart.Proofs.Source.Partner
