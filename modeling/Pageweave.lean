import Pageweave.Bundled
import Pageweave.Cache.Log
import Pageweave.Cache.Store
import Pageweave.Cache.Traffic
import Pageweave.Cache.Workload
import Pageweave.Command.Arguments
import Pageweave.Command.Help
import Pageweave.Command.Invocation
import Pageweave.Command.Run
import Pageweave.Compiled
import Pageweave.Debounce
import Pageweave.Decimal.Layout
import Pageweave.Decimal.Shortest
import Pageweave.Digest.Sha256
import Pageweave.Ejecting
import Pageweave.Error
import Pageweave.Failure
import Pageweave.FileTree.Basic
import Pageweave.FileTree.Change
import Pageweave.FileTree.Fault
import Pageweave.FileTree.Listing
import Pageweave.Htmx
import Pageweave.Key
import Pageweave.Layout
import Pageweave.LiveSite
import Pageweave.Loading
import Pageweave.Locator
import Pageweave.Main
import Pageweave.Names
import Pageweave.Path
import Pageweave.Project
import Pageweave.Proofs.Cache.Counting
import Pageweave.Proofs.Cache.Flushing
import Pageweave.Proofs.Cache.Freshness
import Pageweave.Proofs.Cache.Log
import Pageweave.Proofs.Cache.Move
import Pageweave.Proofs.Cache.PlainMap
import Pageweave.Proofs.Cache.Queue
import Pageweave.Proofs.Cache.Refinement
import Pageweave.Proofs.Cache.Schedule
import Pageweave.Proofs.Cache.Serving
import Pageweave.Proofs.Cache.Step
import Pageweave.Proofs.Cache.Store
import Pageweave.Proofs.Cache.Storing
import Pageweave.Proofs.Cache.Turn
import Pageweave.Proofs.Command.Agreement
import Pageweave.Proofs.Command.Rendering
import Pageweave.Proofs.Debounce.Exactness
import Pageweave.Proofs.Debounce.Session
import Pageweave.Proofs.Debounce.Tracking
import Pageweave.Proofs.Ejecting.Creating
import Pageweave.Proofs.Ejecting.Serving
import Pageweave.Proofs.FileTree.Growing
import Pageweave.Proofs.FileTree.Listing
import Pageweave.Proofs.FileTree.Moves
import Pageweave.Proofs.FileTree.Walking
import Pageweave.Proofs.Key.Filing
import Pageweave.Proofs.Key.Normal
import Pageweave.Proofs.Key.NormalForm
import Pageweave.Proofs.Key.Order
import Pageweave.Proofs.Key.Spelling
import Pageweave.Proofs.Key.Tearing
import Pageweave.Proofs.Layout.Hints
import Pageweave.Proofs.Layout.Naming
import Pageweave.Proofs.Layout.Registering
import Pageweave.Proofs.LiveSite.Coherence
import Pageweave.Proofs.LiveSite.History
import Pageweave.Proofs.Loading.Breadth
import Pageweave.Proofs.Loading.Closure
import Pageweave.Proofs.Loading.Ending
import Pageweave.Proofs.Loading.Failing
import Pageweave.Proofs.Loading.Locality
import Pageweave.Proofs.Loading.Lookups
import Pageweave.Proofs.Loading.Malformed
import Pageweave.Proofs.Loading.Pointing
import Pageweave.Proofs.Loading.Progress
import Pageweave.Proofs.Loading.Table
import Pageweave.Proofs.Loading.Trace
import Pageweave.Proofs.Locator.Layers
import Pageweave.Proofs.Locator.Listing
import Pageweave.Proofs.Locator.Suggesting
import Pageweave.Proofs.Message.Place
import Pageweave.Proofs.Path.Joining
import Pageweave.Proofs.Peg.Derivation
import Pageweave.Proofs.Peg.Fuel
import Pageweave.Proofs.Peg.Shape
import Pageweave.Proofs.Query.Address
import Pageweave.Proofs.Query.Encoding
import Pageweave.Proofs.Reference.Agreement
import Pageweave.Proofs.Reference.Document
import Pageweave.Proofs.Reference.Literal
import Pageweave.Proofs.Reference.Referring
import Pageweave.Proofs.Reference.Scanning
import Pageweave.Proofs.Reference.Sighting
import Pageweave.Proofs.Reference.Stretches
import Pageweave.Proofs.Report.Excerpt
import Pageweave.Proofs.Report.Marking
import Pageweave.Proofs.Request.Context
import Pageweave.Proofs.Request.Headers
import Pageweave.Proofs.Sequence
import Pageweave.Proofs.Setup.Extension
import Pageweave.Proofs.Setup.Validation
import Pageweave.Proofs.Site.Composition
import Pageweave.Proofs.Site.Confinement
import Pageweave.Proofs.Site.Locality
import Pageweave.Proofs.Store.Containment
import Pageweave.Proofs.Store.Directory
import Pageweave.Proofs.Store.Reading
import Pageweave.Proofs.Store.ReadingBack
import Pageweave.Proofs.Template.Folding
import Pageweave.Proofs.Template.Founded
import Pageweave.Proofs.Template.Library
import Pageweave.Proofs.Template.Naming
import Pageweave.Proofs.Template.Outline
import Pageweave.Proofs.Template.Parts
import Pageweave.Proofs.Template.Plain
import Pageweave.Proofs.Template.References
import Pageweave.Proofs.Template.Stopping
import Pageweave.Proofs.Template.Tags
import Pageweave.Proofs.Text.EditDistance
import Pageweave.Proofs.Text.Letters
import Pageweave.Proofs.Text.Lines
import Pageweave.Proofs.Text.Pieces
import Pageweave.Proofs.Value.Fields
import Pageweave.Proofs.Watcher.Naming
import Pageweave.Query
import Pageweave.Reference
import Pageweave.Report
import Pageweave.Request
import Pageweave.Settings.Basic
import Pageweave.Settings.Fault
import Pageweave.Settings.Reader
import Pageweave.Setup
import Pageweave.Site
import Pageweave.Store.Basic
import Pageweave.Store.Directory
import Pageweave.Store.Memory
import Pageweave.Template.Builtin
import Pageweave.Template.Cause
import Pageweave.Template.Dump
import Pageweave.Template.Grammar
import Pageweave.Template.Library
import Pageweave.Template.Node
import Pageweave.Template.Peg
import Pageweave.Template.Pointer
import Pageweave.Template.Reading
import Pageweave.Template.Render
import Pageweave.Template.Scope
import Pageweave.Template.Tidy
import Pageweave.Text.Blank
import Pageweave.Text.Casing
import Pageweave.Text.Digit
import Pageweave.Text.EditDistance
import Pageweave.Text.Graphemes
import Pageweave.Text.Quoted
import Pageweave.Text.Words
import Pageweave.Toml.Basic
import Pageweave.Toml.Document
import Pageweave.Toml.Scalar
import Pageweave.Value.Basic
import Pageweave.Value.Reader
import Pageweave.Value.Text
import Pageweave.Watcher
