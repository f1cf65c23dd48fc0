import QuickEntry.Attachment
import QuickEntry.Attempt
import QuickEntry.Block
import QuickEntry.BlockKind
import QuickEntry.BlockOption
import QuickEntry.Catalog
import QuickEntry.CommandLine.Arguments
import QuickEntry.CommandLine.Run
import QuickEntry.Component
import QuickEntry.Component.Json
import QuickEntry.Declarations
import QuickEntry.Edit.Command
import QuickEntry.Edit.Draft
import QuickEntry.Edit.History
import QuickEntry.EditError
import QuickEntry.Json.Basic
import QuickEntry.Json.Decoder
import QuickEntry.Json.Printer
import QuickEntry.Json.Written
import QuickEntry.Literal
import QuickEntry.Main
import QuickEntry.Markup.Characters
import QuickEntry.Markup.Element
import QuickEntry.Mutation
import QuickEntry.Node
import QuickEntry.Node.Json
import QuickEntry.Number.Double
import QuickEntry.Number.Shortest
import QuickEntry.OrderedMap
import QuickEntry.Proofs.Attachment
import QuickEntry.Proofs.Attempt
import QuickEntry.Proofs.BlockText
import QuickEntry.Proofs.Calls
import QuickEntry.Proofs.Catalog
import QuickEntry.Proofs.ChainEnd
import QuickEntry.Proofs.Connectors
import QuickEntry.Proofs.Construction
import QuickEntry.Proofs.Counting
import QuickEntry.Proofs.Custody
import QuickEntry.Proofs.Declarations
import QuickEntry.Proofs.Deletion
import QuickEntry.Proofs.Depth
import QuickEntry.Proofs.Edit.Alike
import QuickEntry.Proofs.Edit.Attach
import QuickEntry.Proofs.Edit.Command
import QuickEntry.Proofs.Edit.Creation
import QuickEntry.Proofs.Edit.Failure
import QuickEntry.Proofs.Edit.Move
import QuickEntry.Proofs.Edit.Orderly
import QuickEntry.Proofs.Edit.Reversal
import QuickEntry.Proofs.Edit.Shaped
import QuickEntry.Proofs.Edit.Snapshot
import QuickEntry.Proofs.Edit.Step
import QuickEntry.Proofs.Edit.Traced
import QuickEntry.Proofs.Edit.Trail
import QuickEntry.Proofs.Edit.Undo
import QuickEntry.Proofs.Edit.Variant
import QuickEntry.Proofs.Enumeration
import QuickEntry.Proofs.Event
import QuickEntry.Proofs.FailedStep
import QuickEntry.Proofs.FieldChange
import QuickEntry.Proofs.Graph.Chain
import QuickEntry.Proofs.Graph.Change
import QuickEntry.Proofs.Graph.Excision
import QuickEntry.Proofs.Graph.Fresh
import QuickEntry.Proofs.Graph.Link
import QuickEntry.Proofs.Graph.Node
import QuickEntry.Proofs.Graph.Preorder
import QuickEntry.Proofs.Graph.Procedures
import QuickEntry.Proofs.Graph.Removal
import QuickEntry.Proofs.Graph.Reshape
import QuickEntry.Proofs.Graph.Shape
import QuickEntry.Proofs.Graph.Splice
import QuickEntry.Proofs.Graph.Subtree
import QuickEntry.Proofs.Graph.WellFormed
import QuickEntry.Proofs.Identity
import QuickEntry.Proofs.Insertion
import QuickEntry.Proofs.Instantiation
import QuickEntry.Proofs.Invariant
import QuickEntry.Proofs.Json.Decoder
import QuickEntry.Proofs.Json.Written
import QuickEntry.Proofs.Layout
import QuickEntry.Proofs.Listing
import QuickEntry.Proofs.Lists
import QuickEntry.Proofs.Literal
import QuickEntry.Proofs.LiteralEntry
import QuickEntry.Proofs.Lookup
import QuickEntry.Proofs.Markup.Characters
import QuickEntry.Proofs.Markup.Element
import QuickEntry.Proofs.Matching
import QuickEntry.Proofs.Move
import QuickEntry.Proofs.Mutation
import QuickEntry.Proofs.Numbering
import QuickEntry.Proofs.Offer
import QuickEntry.Proofs.OrderedMap
import QuickEntry.Proofs.Ranking
import QuickEntry.Proofs.Reach
import QuickEntry.Proofs.Reachable
import QuickEntry.Proofs.ReadBack
import QuickEntry.Proofs.Relocation
import QuickEntry.Proofs.Rollback
import QuickEntry.Proofs.Scope
import QuickEntry.Proofs.Template
import QuickEntry.Proofs.Text.Blank
import QuickEntry.Proofs.Text.Bytes
import QuickEntry.Proofs.Text.LowerCase
import QuickEntry.Proofs.Text.Occurrence
import QuickEntry.Proofs.Tier
import QuickEntry.Proofs.Timeline
import QuickEntry.Proofs.Turn
import QuickEntry.Proofs.Typing
import QuickEntry.Proofs.UndoRedo
import QuickEntry.Proofs.Unshadowed
import QuickEntry.Ranking
import QuickEntry.Scenario.Basic
import QuickEntry.Scenario.Run
import QuickEntry.Session
import QuickEntry.Settings
import QuickEntry.Shape
import QuickEntry.Text.Alphanumeric
import QuickEntry.Text.Blank
import QuickEntry.Text.Digits
import QuickEntry.Text.LowerCase
import QuickEntry.Text.Occurrence
import QuickEntry.Text.Range
import QuickEntry.TypeCheck
import QuickEntry.Workspace.Append
import QuickEntry.Workspace.Basic
import QuickEntry.Workspace.Change
