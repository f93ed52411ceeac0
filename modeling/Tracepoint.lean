import Tracepoint.Callback
import Tracepoint.Cli
import Tracepoint.Code
import Tracepoint.Code.Draft
import Tracepoint.Code.Identity
import Tracepoint.Code.Listing
import Tracepoint.Event
import Tracepoint.EventSet
import Tracepoint.Exception
import Tracepoint.Heap
import Tracepoint.Machine
import Tracepoint.Machine.Script
import Tracepoint.Machine.Thread
import Tracepoint.Payload
import Tracepoint.Proofs.Code.Built
import Tracepoint.Proofs.Control.Bounds
import Tracepoint.Proofs.Control.Bracket
import Tracepoint.Proofs.Control.Entry
import Tracepoint.Proofs.Control.Fault
import Tracepoint.Proofs.Control.Resolution
import Tracepoint.Proofs.Control.Succession
import Tracepoint.Proofs.Delivery.Disabling
import Tracepoint.Proofs.Delivery.Gate
import Tracepoint.Proofs.Delivery.Independence
import Tracepoint.Proofs.Delivery.Ownership
import Tracepoint.Proofs.Delivery.Perception
import Tracepoint.Proofs.Delivery.Projection
import Tracepoint.Proofs.Delivery.Snapshot
import Tracepoint.Proofs.Machine.Exchange
import Tracepoint.Proofs.Machine.Observation
import Tracepoint.Proofs.Machine.Run
import Tracepoint.Proofs.Machine.Transparency
import Tracepoint.Proofs.Registry.Change
import Tracepoint.Proofs.Registry.Consistency
import Tracepoint.Proofs.Registry.Eligible
import Tracepoint.Proofs.Registry.Locality
import Tracepoint.Proofs.Registry.Outcome
import Tracepoint.Proofs.Registry.Slot
import Tracepoint.Proofs.Registry.Tidiness
import Tracepoint.Proofs.Registry.Version
import Tracepoint.Proofs.Registry.Recall
import Tracepoint.Proofs.Thread.Suspension
import Tracepoint.Proofs.Thread.Telling
import Tracepoint.Proofs.Thread.Turn
import Tracepoint.Registry
import Tracepoint.Registry.Delivery
import Tracepoint.Registry.Error
import Tracepoint.Registry.Site
import Tracepoint.Registry.Tables
import Tracepoint.Sample
import Tracepoint.Scenario.Behaviour
import Tracepoint.Scenario.CodeSpec
import Tracepoint.Scenario.Literal
import Tracepoint.Scenario.Request
import Tracepoint.Scenario.Session
import Tracepoint.Text.Blank
import Tracepoint.Text.Column
import Tracepoint.Text.Decimal
import Tracepoint.Text.Hidden
import Tracepoint.Text.LetterCase
import Tracepoint.Text.Pieces
import Tracepoint.Text.Quoted
import Tracepoint.Tool
import Tracepoint.Trace.Options
import Tracepoint.Trace.Report
import Tracepoint.Value
import Tracepoint.Value.Arithmetic
import Tracepoint.Value.Equality
import Tracepoint.Value.Iteration
import Tracepoint.Value.Native
import Tracepoint.Value.Shown
import Tracepoint.Main
import Tracepoint.Proofs.Control.Reconstruction
import Tracepoint.Proofs.Generator.Progress
import Tracepoint.Proofs.Generator.LifeCycle
import Tracepoint.Proofs.Registry.Refusal
import Tracepoint.Proofs.Control.NativeCall
import Tracepoint.Proofs.Line.Memory
import Tracepoint.Proofs.Line.Journal
import Tracepoint.Proofs.Line.Placement
import Tracepoint.Proofs.Trace.Repetition
import Tracepoint.Proofs.Code.Innermost
import Tracepoint.Proofs.Control.Routing
import Tracepoint.Proofs.Generator.Refusal
import Tracepoint.Proofs.Delivery.Result
import Tracepoint.Proofs.Value.Unfolding
import Tracepoint.Proofs.Value.Structural
import Tracepoint.Proofs.Value.Opening
import Tracepoint.Proofs.Control.Depth
import Tracepoint.Proofs.Value.Exactness
import Tracepoint.Proofs.Delivery.Shape
import Tracepoint.Proofs.Code.Assembly
import Tracepoint.Proofs.Loop.Rounds
import Tracepoint.Proofs.Registry.Commutation
import Tracepoint.Proofs.Text.Reading
import Tracepoint.Proofs.Text.EventList
import Tracepoint.Proofs.Trace.Arguments
