import DirtyRegion.Offset
import DirtyRegion.Outline
import DirtyRegion.Span.Error
import DirtyRegion.Span.Basic
import DirtyRegion.Span.Lemmas
import DirtyRegion.Span.Cover
import DirtyRegion.Span.Sweep
import DirtyRegion.Span.Recipe
import DirtyRegion.Text.Source
import DirtyRegion.Text.Boundary
import DirtyRegion.Text.Plain
import DirtyRegion.Text.Rope
import DirtyRegion.Text.Query
import DirtyRegion.Text.Unprintable
import DirtyRegion.Text.Quoted
import DirtyRegion.Decimal.Binary64
import DirtyRegion.Decimal.Shortest
import DirtyRegion.Decimal.Layout
import DirtyRegion.Json.Fault
import DirtyRegion.Json.Blank
import DirtyRegion.Json.Text
import DirtyRegion.Json.Number
import DirtyRegion.Json.Value
import DirtyRegion.Json.Span
import DirtyRegion.Snapshot
import DirtyRegion.Extent
import DirtyRegion.Change.Basic
import DirtyRegion.Change.Journal
import DirtyRegion.Change.Run
import DirtyRegion.Session.Basic
import DirtyRegion.Session.Command
import DirtyRegion.Session.Success
import DirtyRegion.Proofs.Hull
import DirtyRegion.Proofs.Accumulation
import DirtyRegion.Proofs.Edit
import DirtyRegion.Proofs.Report
import DirtyRegion.Proofs.Slice
import DirtyRegion.Proofs.Origin
import DirtyRegion.Proofs.Burst
import DirtyRegion.Proofs.Replacement
import DirtyRegion.Proofs.Simultaneous
import DirtyRegion.Proofs.Consumer
import DirtyRegion.Proofs.Algebra
import DirtyRegion.Proofs.Batch
import DirtyRegion.Proofs.Handover
import DirtyRegion.Proofs.Bare
import DirtyRegion.Proofs.Client
import DirtyRegion.Proofs.Agreement
import DirtyRegion.Proofs.Identity
import DirtyRegion.Proofs.Correspondence
import DirtyRegion.Proofs.Coherence
import DirtyRegion.Proofs.Numeral
import DirtyRegion.Proofs.Reader
import DirtyRegion.Proofs.Replay
import DirtyRegion.Proofs.Grammar
import DirtyRegion.Proofs.Token
import DirtyRegion.Proofs.Spelling
import DirtyRegion.Proofs.Members
import DirtyRegion.Proofs.Acceptance
import DirtyRegion.Proofs.NormalForm
import DirtyRegion.Proofs.Continuation
import DirtyRegion.Proofs.Finality
import DirtyRegion.Proofs.Writing
import DirtyRegion.Proofs.Verdict
import DirtyRegion.Proofs.Provenance
import DirtyRegion.Proofs.Construction
import DirtyRegion.Proofs.Enclosure
import DirtyRegion.Proofs.Excerpt
import DirtyRegion.Proofs.Binding
import DirtyRegion.Proofs.Atomicity
import DirtyRegion.Proofs.Coverage
import DirtyRegion.Proofs.Distance
import DirtyRegion.Proofs.Reversal
import DirtyRegion.Proofs.Counting
import DirtyRegion.Proofs.Ink
import DirtyRegion.Proofs.Rendering
