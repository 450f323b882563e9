import CallFlow.Block
import CallFlow.Body
import CallFlow.Configuration
import CallFlow.Context
import CallFlow.Dialplan
import CallFlow.Document.Block
import CallFlow.Document.Configuration
import CallFlow.Document.Context
import CallFlow.Document.Inventory
import CallFlow.Document.Script
import CallFlow.Document.Tag
import CallFlow.Error
import CallFlow.Event
import CallFlow.Exchange
import CallFlow.Fault
import CallFlow.Json.Failure
import CallFlow.Json.Layout
import CallFlow.Json.Number
import CallFlow.Json.Piece
import CallFlow.Json.Print
import CallFlow.Json.Read
import CallFlow.Json.Token
import CallFlow.Json.Tree
import CallFlow.Line
import CallFlow.Script
import CallFlow.Service
import CallFlow.Store
import CallFlow.Text.Hidden
import CallFlow.Text.Shown
import CallFlow.Walk
import CallFlow.Proofs.Graph
import CallFlow.Proofs.Walk
import CallFlow.Proofs.Coverage
import CallFlow.Proofs.Faults
import CallFlow.Proofs.Descent
import CallFlow.Proofs.Execution
import CallFlow.Proofs.Layout
import CallFlow.Proofs.Assembly
import CallFlow.Proofs.Refresh
import CallFlow.Proofs.Cache
import CallFlow.Proofs.Host
import CallFlow.Proofs.Renaming
import CallFlow.Proofs.Jumps
import CallFlow.Proofs.Isolation
import CallFlow.Proofs.Edits
import CallFlow.Proofs.Tokens
import CallFlow.Proofs.Trees
import CallFlow.Proofs.Records
import CallFlow.Proofs.RoundTrip
import CallFlow.Proofs.Loops
import CallFlow.Proofs.Rows
import CallFlow.Proofs.Accounts
import CallFlow.Proofs.Sections
import CallFlow.Proofs.Members
import CallFlow.Proofs.Shapes
import CallFlow.Proofs.Answers
import CallFlow.Proofs.Composition
import CallFlow.Proofs.DocumentSpellings
