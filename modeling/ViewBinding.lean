import ViewBinding.Arrays
import ViewBinding.Bind
import ViewBinding.Binding
import ViewBinding.Coercion
import ViewBinding.Config
import ViewBinding.Connect
import ViewBinding.ConnectQueue
import ViewBinding.Content
import ViewBinding.Elements
import ViewBinding.Entries
import ViewBinding.Error
import ViewBinding.Eval
import ViewBinding.Expr.Basic
import ViewBinding.Expr.Decode
import ViewBinding.Expr.Encode
import ViewBinding.Expr.Kind
import ViewBinding.Expr.Printer
import ViewBinding.Json.Basic
import ViewBinding.Json.Printer
import ViewBinding.Json.Reader
import ViewBinding.Lifetime
import ViewBinding.Listeners
import ViewBinding.Locator
import ViewBinding.Lookup
import ViewBinding.Machine
import ViewBinding.MessagePack.Reader
import ViewBinding.MessagePack.Writer
import ViewBinding.Mode
import ViewBinding.Numeric.Binary64
import ViewBinding.Numeric.Numeral
import ViewBinding.Numeric.Shortest
import ViewBinding.Numeric.Style
import ViewBinding.Objects
import ViewBinding.Observer
import ViewBinding.Observer.Composite
import ViewBinding.Observer.Leaf
import ViewBinding.Observer.Path
import ViewBinding.Observer.Select
import ViewBinding.Observer.Subscribe
import ViewBinding.Observer.Tell
import ViewBinding.Observer.Write
import ViewBinding.Operators
import ViewBinding.Registry
import ViewBinding.Run
import ViewBinding.Scope
import ViewBinding.Session.Elements
import ViewBinding.Session.Host
import ViewBinding.Session.Literal
import ViewBinding.Session.Objects
import ViewBinding.Session.Observers
import ViewBinding.Session.Query
import ViewBinding.Session.State
import ViewBinding.Session.Step
import ViewBinding.Snapshot
import ViewBinding.Store
import ViewBinding.Subscription
import ViewBinding.Tasks
import ViewBinding.Text.Blank
import ViewBinding.Text.Hidden
import ViewBinding.Text.Letter
import ViewBinding.Text.Quoted
import ViewBinding.Value
import ViewBinding.Value.Document
import ViewBinding.World
import ViewBinding.Proofs.Ends
import ViewBinding.Proofs.Heap
import ViewBinding.Proofs.Leaf.Aside
import ViewBinding.Proofs.Leaf.Deliver
import ViewBinding.Proofs.Leaf.Enrol
import ViewBinding.Proofs.Leaf.Listen
import ViewBinding.Proofs.Leaf.Locate
import ViewBinding.Proofs.Leaf.Place
import ViewBinding.Proofs.Leaf.Placeholder
import ViewBinding.Proofs.Leaf.Subscribe
import ViewBinding.Proofs.Leaf.Tune
import ViewBinding.Proofs.Leaf.Unwatched
import ViewBinding.Proofs.Leaf.Write
import ViewBinding.Proofs.Sameness
import ViewBinding.Proofs.TwoWay.Bind
import ViewBinding.Proofs.TwoWay.Runs
import ViewBinding.Proofs.TwoWay.Settle
import ViewBinding.Proofs.TwoWay.Ties
import ViewBinding.Proofs.Leaf.Dispose
import ViewBinding.Proofs.Path.Cascade
import ViewBinding.Proofs.Path.Connect
import ViewBinding.Proofs.Path.Roll
import ViewBinding.Proofs.Queue.Frames
import ViewBinding.Proofs.OneWay.Runs
import ViewBinding.Proofs.Path.Runs
import ViewBinding.Proofs.OneWay.Scopes
import ViewBinding.Proofs.Select.Runs
import ViewBinding.Proofs.Select.Assign
import ViewBinding.Proofs.Expr.Parts
import ViewBinding.Proofs.Expr.Nodes
import ViewBinding.Proofs.Expr.Written
import ViewBinding.Proofs.Expr.Agreement
import ViewBinding.Proofs.Expr.Accepted
import ViewBinding.Proofs.Expr.Formats
import ViewBinding.Proofs.Json.Documents
import ViewBinding.Proofs.Json.Numbers
import ViewBinding.Proofs.Json.Finite
import ViewBinding.Proofs.MessagePack.Contents
import ViewBinding.Proofs.Numeric.Below
import ViewBinding.Proofs.Late.Runs
import ViewBinding.Proofs.Tasks.Order
import ViewBinding.Proofs.Records.Faithful
import ViewBinding.Proofs.Expr.Unambiguous
import ViewBinding.Proofs.Strategy.Runs
import ViewBinding.Proofs.Notify.Truth
import ViewBinding.Proofs.Path.Attend
import ViewBinding.Proofs.Composite.Runs
import ViewBinding.Proofs.Composite.Diary
import ViewBinding.Proofs.Trap.Chain
import ViewBinding.Proofs.Trap.Frozen
import ViewBinding.Proofs.Trap.Unseen
import ViewBinding.Proofs.Trap.Together
import ViewBinding.Proofs.Arrays.Batches
import ViewBinding.Proofs.Arrays.Members
import ViewBinding.Proofs.Assigning
import ViewBinding.Proofs.Naming
import ViewBinding.Proofs.Select.Views
import ViewBinding.Proofs.Custody.Refused
import ViewBinding.Proofs.Coercion.Ends
import ViewBinding.Proofs.Coercion.Comparisons
import ViewBinding.Proofs.Numeric.Exact
import ViewBinding.Proofs.Coercion.Survival
import ViewBinding.Proofs.Caches.Lookups
import ViewBinding.Proofs.Newest.Notices
import ViewBinding.Proofs.Polling.Runs
