import Sidebar.Host.Memory
import Sidebar.Main
import Sidebar.Tree.Describe
import Sidebar.Proofs.Outline.Check
import Sidebar.Proofs.Source.Agreement
import Sidebar.Proofs.Source.Mark
import Sidebar.Proofs.Source.RoundTrip
import Sidebar.Proofs.Tree.Build
import Sidebar.Proofs.Tree.Coherent
import Sidebar.Proofs.Tree.Export
import Sidebar.Proofs.Render.Balance
import Sidebar.Proofs.Render.Html
import Sidebar.Proofs.Render.Shown
import Sidebar.Proofs.Render.Stream
import Sidebar.Proofs.Render.Subtree
import Sidebar.Proofs.Config.Layer
import Sidebar.Proofs.Config.Template
import Sidebar.Proofs.Config.Written
import Sidebar.Proofs.Tree.Listing
import Sidebar.Proofs.Command.Failure
import Sidebar.Proofs.Json.Loose
import Sidebar.Proofs.Json.Repeat
import Sidebar.Proofs.Render.Reuse
import Sidebar.Proofs.Outline.Depth
import Sidebar.Proofs.Render.Margin
import Sidebar.Proofs.Command.Answer
import Sidebar.Proofs.Tree.Preorder
import Sidebar.Proofs.Render.Branch
import Sidebar.Proofs.Script.Report
import Sidebar.Proofs.Render.Bullet
import Sidebar.Proofs.Tree.Neighbour
import Sidebar.Proofs.Tree.Ancestor
import Sidebar.Proofs.Render.Refusal
import Sidebar.Proofs.Tree.Cursor
import Sidebar.Proofs.Config.Discovery
import Sidebar.Proofs.Render.Link
import Sidebar.Proofs.Command.Table
import Sidebar.Proofs.Script.Literal
