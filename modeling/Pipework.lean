import Pipework.Main
import Pipework.Proofs.Table
import Pipework.Proofs.Graph.View
import Pipework.Proofs.Graph.Building
import Pipework.Proofs.Graph.Detach
import Pipework.Proofs.Graph.Change
import Pipework.Proofs.Graph.Mirror
import Pipework.Proofs.Graph.Rename
import Pipework.Proofs.Graph.InPlace
import Pipework.Proofs.Graph.Step
import Pipework.Proofs.Graph.Consistency
import Pipework.Proofs.Graph.Evolve
import Pipework.Proofs.Graph.Run
import Pipework.Proofs.Json.Leaf
import Pipework.Proofs.Json.Text
import Pipework.Proofs.Json.Record
import Pipework.Proofs.Json.Depth
import Pipework.Proofs.Request
import Pipework.Proofs.Part.Config
import Pipework.Proofs.Graph.Assembly
import Pipework.Proofs.Graph.Document
import Pipework.Proofs.Graph.Reload
import Pipework.Proofs.Graph.Removal
import Pipework.Proofs.Graph.Cascade
import Pipework.Proofs.Graph.Joining
import Pipework.Proofs.Graph.Properties
import Pipework.Proofs.Package.Prune
import Pipework.Proofs.Go.Ident
import Pipework.Proofs.Wiring.Arguments
import Pipework.Proofs.Wiring.Closing
import Pipework.Proofs.FileTree
import Pipework.Proofs.FileTree.Changes
import Pipework.Proofs.FileTree.Writes
import Pipework.Proofs.FileTree.Below
import Pipework.Proofs.FileTree.Replacement
import Pipework.Proofs.FileTree.Directories
import Pipework.Proofs.Store
import Pipework.Proofs.Workspace.Batch
import Pipework.Proofs.Go.Clash
import Pipework.Proofs.Graph.Verdict
import Pipework.Proofs.Graph.Acceptance
import Pipework.Proofs.Store.Isolation
import Pipework.Proofs.Storage.Keys
import Pipework.Proofs.Storage.Calls
import Pipework.Proofs.Storage.Files
import Pipework.Proofs.Storage.Agreement
import Pipework.Proofs.Workspace.Edits
import Pipework.Proofs.Workspace.Packages
import Pipework.Proofs.Graph.Undo
import Pipework.Proofs.Wiring.Specification
import Pipework.Proofs.Part.Statements
import Pipework.Proofs.Package.Name
import Pipework.Proofs.Package.Files
import Pipework.Proofs.Text.Lines
import Pipework.Proofs.Go.StringLiteral
import Pipework.Proofs.Go.Quoting
import Pipework.Proofs.Package.Paths
import Pipework.Proofs.Package.Message
import Pipework.Proofs.Package.Format
import Pipework.Proofs.Text.Indent
import Pipework.Proofs.Text.Marks
import Pipework.Proofs.Package.UserCode
import Pipework.Proofs.Storage.Root
import Pipework.Proofs.Toolchain
import Pipework.Proofs.Workspace.Discovery
import Pipework.Proofs.Project.Settings
import Pipework.Proofs.Project.Start
import Pipework.Proofs.Project.Names
import Pipework.Proofs.Graph.Naming
import Pipework.Proofs.Project.Keeping
